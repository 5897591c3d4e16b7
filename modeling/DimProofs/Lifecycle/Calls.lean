/-
What one call can tell of the state directory while others change it, and the steps it takes: the file it writes
stays its own until it closes it, a file that is closed stays as it is, and a temporary name stays where it was
put.
-/
import DimProofs.Lifecycle.Invariant

namespace Dim.Lifecycle

open Effectful Files

variable [Format]

/-- The steps that break nothing. No file is opened while it is written, and no listing comes upon the name of a file
that was removed since it read the directory; a temporary name is made up once; and no call crashes while it
writes a file that has its final name. Only where `lists` are records listed, and only where `grants` are there
grants. -/
def careful (lists grants : Prop) : Concurrent.Permits World Effect Answer Operation where
  begins
    | .list _ => lists
    | .ensureGrant _ _ | .authenticate _ _ | .removeGrant _ _ _ | .discard _ _ => grants
    | .claim _ | .write _ | .remove _ _ | .readWorkspace _ => True
  effect op e w a := match e, a with
    | .openFile (.records kind) n, _ => (∀ k, w.lookup (.records kind) n = some k → ∀ i, (i, k) ∉ w.handles) ∧
        (op = .list kind → w.lookup (.records kind) n ≠ none)
    | .openFile (.grants audience) n, _ => grants → ∀ k, w.lookup (.grants audience) n = some k → ∀ i, (i, k) ∉ w.handles
    | .temporary d _, name => ∀ i, (i, d, name) ∉ w.temporaries
    | _, _ => True
  crash i w := ∀ k, (i, k) ∈ w.handles → (∀ kind n, w.lookup (.records kind) n = some k → isRecordFile n = false) ∧
    (grants → ∀ audience n, w.lookup (.grants audience) n ≠ some k)

/-- A call that has not begun. -/
def Idle (i : Nat) (w : World) : Prop := (∀ k, (i, k) ∉ w.handles) ∧ ∀ d t, (i, d, t) ∉ w.temporaries

/-- What call `i` does and relies on, where every step obeys `K`. -/
structure Among (lists grants : Prop) (K : World → World → Prop) (i : Nat) (op : Operation)
    (acts : (e : Effect) → World → Answer e → World → Prop) (rely : World → World → Prop) : Prop where
  rely : ∀ w w', rely w w' → Concurrent.Rely (Whole grants) Does i w w' ∧ K w w'
  acts : ∀ e w a w', acts e w a w' → (careful lists grants).effect op e w a ∧ Performs i e w a w' ∧ K w w'

/-! ## What the other calls leave alone -/

/-- The call has the file open and has written `s`. -/
def Writing (i k : Nat) (s : String) (w : World) : Prop := (i, k) ∈ w.handles ∧ w.text? k = some s

/-- The file is closed and holds `s`. -/
def Closed (k : Nat) (s : String) (w : World) : Prop := w.text? k = some s ∧ ∀ j, (j, k) ∉ w.handles

/-- The file has no other name. -/
def Linked (d : Directory) (n : String) (k : Nat) (w : World) : Prop := ∀ d' n', w.lookup d' n' = some k → d' = d ∧ n' = n

/-- The call has put the file under its temporary name. -/
def Staged (i : Nat) (d : Directory) (t : String) (k : Nat) (w : World) : Prop :=
  (i, d, t) ∈ w.temporaries ∧ w.lookup d t = some k

section Others

variable {w w' : World} {i j k : Nat} {s n : String} {d : Directory} {grants : Prop}

omit [Format] in
theorem lt_of_text {s : String} (h : w.text? k = some s) : k < w.size := World.text?_isSome.mp (by rw [h]; rfl)

theorem Writing.does (h : Writing i k s w) (hj : j ≠ i) (hw : Invariant w) (hd : Does j w w') : Writing i k s w' :=
  ⟨(hd.handles i k hj.symm).mpr h.1, hd.texts k s h.2 fun hjk => hj (hw.handleOne _ _ _ hjk h.1)⟩

section
omit [Format]

theorem Closed.does (h : Closed k s w) (hd : Does j w w') : Closed k s w' := by
  refine ⟨hd.texts k s h.1 (h.2 j), fun j' hj' => ?_⟩
  rcases hd.opened j' k hj' with hold | hnew
  · exact h.2 j' hold
  · exact absurd (lt_of_text h.1) (Nat.not_lt.mpr hnew)

theorem Linked.does (h : Linked d n k w) (hk : k < w.size) (hn : ∀ i, (i, d, n) ∉ w.temporaries) (hd : Does j w w') :
    Linked d n k w' := by
  intro d' n' hk'
  rcases hd.linked d' n' k hk' with hold | hnew | ⟨t, ht, hold⟩
  · exact h d' n' hold
  · exact absurd hk (Nat.not_lt.mpr hnew)
  · obtain ⟨rfl, rfl⟩ := h d' t hold
    exact absurd ht (hn j)

theorem Staged.does (h : Staged i d s k w) (hj : j ≠ i) (hd : Does j w w') : Staged i d s k w' :=
  ⟨(hd.temporaries i d s hj.symm).mpr h.1, (hd.staged i d s hj.symm h.1).trans h.2⟩

end

/-- A final name is never made up as a temporary one. -/
theorem Invariant.final (h : Invariant w) (hn : ∀ kind, d = .records kind → isRecordFile n = true) :
    ∀ i, (i, d, n) ∉ w.temporaries := by
  intro i hi
  obtain ⟨⟨kind, hd⟩, hname⟩ := h.temporaryName _ _ _ hi
  have hfile := hn kind hd
  rw [hname] at hfile
  cases hfile

end Others

/-! ## The steps of a call -/

section Steps

variable {lists grants : Prop} {K : World → World → Prop} {i : Nat} {op : Operation}
  {acts : (e : Effect) → World → Answer e → World → Prop} {rely : World → World → Prop} {w w' : World}

namespace Among

variable (H : Among lists grants K i op acts rely)
include H

theorem stable {S : World → Prop}
    (hS : ∀ w w' j, j ≠ i → Whole grants w → Does j w w' → K w w' → S w → S w') : Stable rely S := by
  intro w w' hw hr
  obtain ⟨⟨hI, -, j, hj, hd⟩, hK⟩ := H.rely w w' hr
  exact hS w w' j hj hI hd hK hw

theorem stable_given {kind : Kind} (record : Record kind) :
    Stable rely fun w => Given w record :=
  H.stable fun _ _ _ _ _ hd _ h => h.mono hd.begun

theorem stable_drawn (audience : GrantAudience) (name workspaceId random : String) :
    Stable rely fun w => Drawn w audience name workspaceId random :=
  H.stable fun _ _ _ _ _ hd _ h => h.later hd.drawn

theorem stable_closed (k : Nat) (s : String) : Stable rely (Closed k s) :=
  H.stable fun _ _ _ _ _ hd _ h => h.does hd

theorem stable_staged (d : Directory) (t : String) (k : Nat) :
    Stable rely (Staged i d t k) :=
  H.stable fun _ _ _ hj _ hd _ h => h.does hj hd

/-- The name of a file that the call writes. -/
theorem stable_linked (d : Directory) (n : String) (k : Nat) (s : String)
    (hn : ∀ kind, d = .records kind → isRecordFile n = true) : Stable rely fun w => Writing i k s w ∧ Linked d n k w :=
  H.stable fun _ _ _ hj hw hd _ h =>
    ⟨h.1.does hj hw.toInvariant hd, h.2.does (lt_of_text h.1.2) (hw.toInvariant.final hn) hd⟩

/-- A new file, or none where the name exists. -/
theorem create (hw : Whole grants w) {d : Directory} {n : String}
    (hn : ∀ kind, d = .records kind → isRecordFile n = true) {a : Option Nat} (h : acts (.create d n) w a w') :
    Whole grants w' ∧ Does i w w' ∧ (a = none ∨
      ∃ k, a = some k ∧ (Writing i k "" w' ∧ Linked d n k w') ∧ w'.lookup d n = some k) := by
  obtain ⟨-, ⟨choice, hp⟩, -⟩ := H.acts _ _ _ _ h
  simp only [perform, Option.some.injEq] at hp
  by_cases hnone : w.lookup d n = none
  · obtain ⟨hfirst, hc⟩ := @World.create_new _ i _ _ hnone
    rw [hp] at hfirst hc
    obtain rfl : a = some w.size := hfirst
    have hown : Owns i w d n := fun kind hd => .inl (hn kind hd)
    refine ⟨hw.creates hc hnone hown, .creates hw.toInvariant hc hown, .inr ⟨w.size, rfl, ⟨⟨?_, ?_⟩, ?_⟩, ?_⟩⟩
    · rw [hc.handles]; exact List.mem_cons_self
    · rw [hc.text, if_pos rfl]
    · intro d' n' hk
      rw [hc.lookup] at hk
      split at hk
      · assumption
      · exact absurd (hw.bound _ _ _ hk) (Nat.lt_irrefl _)
    · rw [hc.lookup, if_pos ⟨rfl, rfl⟩]
  · rw [World.create_exists hnone, Prod.mk.injEq] at hp
    obtain ⟨rfl, rfl⟩ := hp
    exact ⟨hw, .refl i w, .inl rfl⟩

/-- A temporary name that no file has. -/
theorem temporary (hw : Whole grants w) {kind : Kind} {target t : String}
    (h : acts (.temporary (.records kind) target) w t w') :
    Whole grants w' ∧ Does i w w' ∧ (i, .records kind, t) ∈ w'.temporaries ∧ w'.lookup (.records kind) t = none := by
  obtain ⟨hfresh, ⟨choice, hp⟩, -⟩ := H.acts _ _ _ _ h
  simp only [perform, Option.some.injEq, Prod.mk.injEq] at hp
  obtain ⟨rfl, rfl⟩ := hp
  have hname := isRecordFile_temporaryFile target choice.pid choice.now
  have hnone : w.lookup (.records kind) (temporaryFile target choice.pid choice.now) = none := by
    rw [Option.eq_none_iff_forall_ne_some]
    intro k hk
    rcases hw.names kind _ k hk with hfile | ⟨j, hj⟩
    · rw [hname] at hfile
      cases hfile
    · exact hfresh j hj
  refine ⟨{ hw with temporaryOne := ?_, temporaryName := ?_, names := ?_, records := ?_, granted := ?_ },
    { Does.refl i w with temporaries := ?_ }, List.mem_cons_self, hnone⟩
  · intro j₁ j₂ d t h₁ h₂
    rcases List.mem_cons.mp h₁ with heq₁ | hold₁ <;> rcases List.mem_cons.mp h₂ with heq₂ | hold₂
    · cases heq₁
      cases heq₂
      rfl
    · cases heq₁
      exact absurd hold₂ (hfresh j₂)
    · cases heq₂
      exact absurd hold₁ (hfresh j₁)
    · exact hw.temporaryOne _ _ _ _ hold₁ hold₂
  · intro j d t ht
    rcases List.mem_cons.mp ht with heq | hold
    · cases heq
      exact ⟨⟨kind, rfl⟩, hname⟩
    · exact hw.temporaryName _ _ _ hold
  · exact fun kind n k hk => (hw.names kind n k hk).imp id fun ⟨j, hj⟩ => ⟨j, List.mem_cons_of_mem _ hj⟩
  · exact fun kind n k hk hfile => (hw.records kind n k hk hfile).imp id fun ⟨record, hr⟩ =>
      ⟨record, hr.later rfl fun _ h => h⟩
  · exact fun hgrants audience n k hk => (hw.granted hgrants audience n k hk).imp id fun hr => hr.later rfl fun _ h => h
  · intro j d t hj
    refine ⟨fun ht => ?_, fun ht => List.mem_cons_of_mem _ ht⟩
    rcases List.mem_cons.mp ht with heq | hold
    · cases heq
      exact absurd rfl hj
    · exact hold

/-- A new file under the temporary name of the call. -/
theorem truncate (hw : Whole grants w) {d : Directory} {t : String}
    (ht : (i, d, t) ∈ w.temporaries) (hnone : w.lookup d t = none) {a : Option Nat} (h : acts (.truncate d t) w a w') :
    Whole grants w' ∧ Does i w w' ∧ ∃ k, a = some k ∧ Writing i k "" w' ∧ Linked d t k w' ∧ Staged i d t k w' := by
  obtain ⟨-, ⟨choice, hp⟩, -⟩ := H.acts _ _ _ _ h
  simp only [perform, Option.some.injEq, World.truncate_new hnone] at hp
  obtain ⟨hfirst, hc⟩ := @World.create_new _ i _ _ hnone
  rw [hp] at hfirst hc
  obtain rfl : a = some w.size := hfirst
  have hown : Owns i w d t := fun _ _ => .inr ht
  refine ⟨hw.creates hc hnone hown, .creates hw.toInvariant hc hown, w.size, rfl, ⟨?_, ?_⟩, ?_, ?_, ?_⟩
  · rw [hc.handles]; exact List.mem_cons_self
  · rw [hc.text, if_pos rfl]
  · intro d' n' hk
    rw [hc.lookup] at hk
    split at hk
    · assumption
    · exact absurd (hw.bound _ _ _ hk) (Nat.lt_irrefl _)
  · rw [hc.temporaries]; exact ht
  · rw [hc.lookup, if_pos ⟨rfl, rfl⟩]

end Among

end Steps

end Dim.Lifecycle
