/-
The invariant of the state directory, and the effects that keep it. A file is either open for writing by the call
that made it, or whole: a record that some call was told to store, or a grant with the token that was drawn for
it. `Careful` excludes the steps that break this: a crash in the middle of a file that has its final name, a
second write with the same temporary name, and a read of a file that is still being written.
-/
import DimProofs.Lifecycle.Frame

namespace Dim.Lifecycle

open Effectful Files

variable [Format]

/-- A record file that is whole. -/
def HoldsRecord {kind : Kind} (w : World) (n : String) (ino : Nat) (record : Record kind) : Prop :=
  n = recordFile record.name ∧ w.text? ino = some (stored record) ∧ Given w record

/-- What was drawn for a grant. -/
structure Drawn (w : World) (audience : GrantAudience) (name workspaceId random : String) : Prop where
  drawn : (random, audience, name, workspaceId) ∈ w.drawn
  named : validLifecycleName name = true
  identified : validWorkspaceId workspaceId = true

/-- A grant file that is whole. -/
def HoldsGrant (w : World) (audience : GrantAudience) (n : String) (ino : Nat) : Prop :=
  ∃ name workspaceId random, n = grantFile name workspaceId ∧ Drawn w audience name workspaceId random ∧
    w.text? ino = some (grantToken name workspaceId random ++ "\n")

/-- The name may be given to a file by call `i`. -/
def Owns (i : Nat) (w : World) (d : Directory) (n : String) : Prop :=
  ∀ kind, d = .records kind → isRecordFile n = true ∨ (i, d, n) ∈ w.temporaries

structure Invariant (w : World) : Prop where
  bound : ∀ d n k, w.lookup d n = some k → k < w.size
  single : ∀ d n d' n' k, w.lookup d n = some k → w.lookup d' n' = some k → d = d' ∧ n = n'
  handleBound : ∀ i k, (i, k) ∈ w.handles → k < w.size
  handleOne : ∀ i j k, (i, k) ∈ w.handles → (j, k) ∈ w.handles → i = j
  temporaryOne : ∀ i j d t, (i, d, t) ∈ w.temporaries → (j, d, t) ∈ w.temporaries → i = j
  temporaryName : ∀ i d t, (i, d, t) ∈ w.temporaries → (∃ kind, d = .records kind) ∧ isRecordFile t = false
  names : ∀ kind n k, w.lookup (.records kind) n = some k → isRecordFile n = true ∨
    ∃ i, (i, .records kind, n) ∈ w.temporaries
  records : ∀ kind n k, w.lookup (.records kind) n = some k → isRecordFile n = true →
    (∃ i, (i, k) ∈ w.handles) ∨ ∃ record : Record kind, HoldsRecord w n k record
  drawnOne : ∀ random p p', (random, p) ∈ w.drawn → (random, p') ∈ w.drawn → p = p'
  drawnValid : ∀ random p, (random, p) ∈ w.drawn → validWorkspaceId random = true

/-- The invariant of the grants. -/
def GrantsWhole (w : World) : Prop :=
  ∀ audience n k, w.lookup (.grants audience) n = some k → (∃ i, (i, k) ∈ w.handles) ∨ HoldsGrant w audience n k

/-- The invariant, of the grants too where `grants`. -/
structure Whole (grants : Prop) (w : World) : Prop extends Invariant w where
  granted : grants → GrantsWhole w

/-! ## Facts that later steps keep -/

section Later

variable {w w' : World} {i : Nat} {kind : Kind} {n : String} {k : Nat}

theorem HoldsRecord.later {record : Record kind} (h : HoldsRecord w n k record) (htext : w'.text? k = w.text? k)
    (hbegun : w.begun ⊆ w'.begun) : HoldsRecord w' n k record :=
  ⟨h.1, htext.trans h.2.1, h.2.2.mono hbegun⟩

omit [Format] in
theorem Drawn.later {audience : GrantAudience} {name workspaceId random : String}
    (h : Drawn w audience name workspaceId random)
    (hdrawn : w.drawn ⊆ w'.drawn) : Drawn w' audience name workspaceId random :=
  ⟨hdrawn h.drawn, h.named, h.identified⟩

omit [Format] in
theorem HoldsGrant.later {audience : GrantAudience} (h : HoldsGrant w audience n k) (htext : w'.text? k = w.text? k)
    (hdrawn : w.drawn ⊆ w'.drawn) : HoldsGrant w' audience n k := by
  obtain ⟨name, workspaceId, random, hn, hd, ht⟩ := h
  exact ⟨name, workspaceId, random, hn, hd.later hdrawn, htext.trans ht⟩

end Later

/-! ## Making a file -/

section Creates

variable {w w' : World} {i : Nat} {d : Directory} {n : String} {grants : Prop}

theorem Whole.creates (h : Whole grants w) (hc : World.Creates i d n w w') (hnone : w.lookup d n = none)
    (hn : Owns i w d n) : Whole grants w' := by
  have hnew : ∀ d' n' k, w'.lookup d' n' = some k → (d' = d ∧ n' = n ∧ k = w.size) ∨ w.lookup d' n' = some k := by
    intro d' n' k hk
    rw [hc.lookup] at hk
    split at hk
    · rename_i heq
      exact .inl ⟨heq.1, heq.2, (Option.some.inj hk).symm⟩
    · exact .inr hk
  have htext : ∀ k, k < w.size → w'.text? k = w.text? k := fun k hk => by rw [hc.text, if_neg (Nat.ne_of_lt hk)]
  have hhandle : ∀ j k, (j, k) ∈ w.handles → (j, k) ∈ w'.handles := fun j k hk => by
    rw [hc.handles]; exact List.mem_cons_of_mem _ hk
  have hopen : ∃ j, (j, w.size) ∈ w'.handles := ⟨i, by rw [hc.handles]; exact List.mem_cons_self⟩
  have hhandles : ∀ j k, (j, k) ∈ w'.handles → (j = i ∧ k = w.size) ∨ (j, k) ∈ w.handles := by
    intro j k hk
    rw [hc.handles, List.mem_cons, Prod.mk.injEq] at hk
    exact hk
  refine { bound := ?_, single := ?_, handleBound := ?_, handleOne := ?_, temporaryOne := ?_, temporaryName := ?_,
           names := ?_, records := ?_, drawnOne := ?_, drawnValid := ?_, granted := ?_ }
  · intro d' n' k hk
    rw [hc.size]
    rcases hnew d' n' k hk with ⟨-, -, rfl⟩ | hold
    · exact Nat.lt_succ_self _
    · exact Nat.lt_succ_of_lt (h.bound _ _ _ hold)
  · intro d₁ n₁ d₂ n₂ k h₁ h₂
    rcases hnew _ _ _ h₁ with ⟨rfl, rfl, rfl⟩ | hold₁ <;> rcases hnew _ _ _ h₂ with ⟨rfl, rfl, hk⟩ | hold₂
    · exact ⟨rfl, rfl⟩
    · exact absurd (h.bound _ _ _ hold₂) (Nat.lt_irrefl _)
    · exact absurd (h.bound _ _ _ hold₁) (hk ▸ Nat.lt_irrefl _)
    · exact h.single _ _ _ _ _ hold₁ hold₂
  · intro j k hk
    rw [hc.size]
    rcases hhandles j k hk with ⟨-, rfl⟩ | hold
    · exact Nat.lt_succ_self _
    · exact Nat.lt_succ_of_lt (h.handleBound _ _ hold)
  · intro j₁ j₂ k h₁ h₂
    rcases hhandles _ _ h₁ with ⟨rfl, rfl⟩ | hold₁ <;> rcases hhandles _ _ h₂ with ⟨rfl, hk⟩ | hold₂
    · rfl
    · exact absurd (h.handleBound _ _ hold₂) (Nat.lt_irrefl _)
    · exact absurd (h.handleBound _ _ hold₁) (hk ▸ Nat.lt_irrefl _)
    · exact h.handleOne _ _ _ hold₁ hold₂
  · rw [hc.temporaries]; exact h.temporaryOne
  · rw [hc.temporaries]; exact h.temporaryName
  · intro kind n' k hk
    rw [hc.temporaries]
    rcases hnew _ _ _ hk with ⟨hd, rfl, -⟩ | hold
    · exact (hn kind hd.symm).imp id fun ht => ⟨i, hd ▸ ht⟩
    · exact h.names _ _ _ hold
  · intro kind n' k hk hfile
    rcases hnew _ _ _ hk with ⟨-, -, rfl⟩ | hold
    · exact .inl hopen
    · refine (h.records _ _ _ hold hfile).imp (fun ⟨j, hj⟩ => ⟨j, hhandle j k hj⟩) fun ⟨record, hr⟩ => ⟨record, ?_⟩
      exact hr.later (htext k (h.bound _ _ _ hold)) (by rw [hc.begun]; exact fun _ h => h)
  · rw [hc.drawn]; exact h.drawnOne
  · rw [hc.drawn]; exact h.drawnValid
  · intro hgrants audience n' k hk
    rcases hnew _ _ _ hk with ⟨-, -, rfl⟩ | hold
    · exact .inl hopen
    · refine (h.granted hgrants _ _ _ hold).imp (fun ⟨j, hj⟩ => ⟨j, hhandle j k hj⟩) fun hr => ?_
      exact hr.later (htext k (h.bound _ _ _ hold)) (by rw [hc.drawn]; exact fun _ h => h)

theorem Does.creates (h : Invariant w) (hc : World.Creates i d n w w') (hn : Owns i w d n) : Does i w w' := by
  refine { size := ?_, texts := ?_, handles := ?_, opened := ?_, temporaries := ?_, staged := ?_, linked := ?_,
           drawn := ?_, begun := ?_ }
  · rw [hc.size]; exact Nat.le_succ _
  · intro k s hk _
    have hlt : k < w.size := World.text?_isSome.mp (by rw [hk]; rfl)
    rw [hc.text, if_neg (Nat.ne_of_lt hlt), hk]
  · intro j k hj
    rw [hc.handles, List.mem_cons, Prod.mk.injEq]
    exact ⟨fun hor => hor.resolve_left fun heq => hj heq.1, .inr⟩
  · intro j k hk
    rw [hc.handles, List.mem_cons, Prod.mk.injEq] at hk
    exact hk.elim (fun heq => .inr heq.2.ge) .inl
  · intro j d' t _
    rw [hc.temporaries]
  · intro j d' t hj ht
    rw [hc.lookup, if_neg]
    rintro ⟨rfl, rfl⟩
    obtain ⟨⟨kind, hd⟩, hname⟩ := h.temporaryName _ _ _ ht
    rcases hn kind hd with hfile | hown
    · rw [hname] at hfile
      cases hfile
    · exact hj (h.temporaryOne _ _ _ _ ht hown)
  · intro d' n' k hk
    rw [hc.lookup] at hk
    split at hk
    · exact .inr (.inl (Option.some.inj hk).le)
    · exact .inl hk
  · rw [hc.drawn]; exact fun _ h => h
  · rw [hc.begun]; exact fun _ h => h

end Creates

/-! ## Writing and closing a file -/

section Writes

variable {w : World} {i k : Nat} {grants : Prop}

theorem Whole.append (h : Whole grants w) (hk : (i, k) ∈ w.handles) (c : Char) : Whole grants (w.append k c) := by
  have htext : ∀ k', k' ≠ k → (w.append k c).text? k' = w.text? k' := fun k' hne => by rw [World.text?_append, if_neg hne]
  refine { h with records := ?_, granted := ?_, bound := ?_, handleBound := ?_ }
  · intro d n k' hk'
    rw [World.size_append]
    exact h.bound d n k' hk'
  · intro j k' hk'
    rw [World.size_append]
    exact h.handleBound j k' hk'
  · intro kind n k' hk' hfile
    by_cases hne : k' = k
    · exact .inl ⟨i, hne ▸ hk⟩
    · exact (h.records kind n k' hk' hfile).imp id fun ⟨record, hr⟩ => ⟨record, hr.later (htext k' hne) fun _ h => h⟩
  · intro hgrants audience n k' hk'
    by_cases hne : k' = k
    · exact .inl ⟨i, hne ▸ hk⟩
    · exact (h.granted hgrants audience n k' hk').imp id fun hr => hr.later (htext k' hne) fun _ h => h

omit [Format] in
theorem Does.append (hk : (i, k) ∈ w.handles) (c : Char) : Does i w (w.append k c) := by
  refine { Does.refl i w with size := ?_, texts := ?_ }
  · rw [World.size_append]
  · intro k' s hs hno
    rw [World.text?_append, if_neg, hs]
    rintro rfl
    exact hno hk

omit [Format] in
theorem mem_close {j k' : Nat} : (j, k') ∈ (w.close i k).handles ↔ (j, k') ∈ w.handles ∧ (j, k') ≠ (i, k) := by
  rw [World.close, List.mem_filter, decide_eq_true_eq]

/-- A file is whole when it is closed. -/
theorem Whole.close (h : Whole grants w) (hk : (i, k) ∈ w.handles)
    (hrecord : ∀ kind n, w.lookup (.records kind) n = some k → isRecordFile n = true →
      ∃ record : Record kind, HoldsRecord w n k record)
    (hgrant : ∀ audience n, w.lookup (.grants audience) n = some k → HoldsGrant w audience n k) :
    Whole grants (w.close i k) := by
  have hother : ∀ k', k' ≠ k → (∃ j, (j, k') ∈ w.handles) → ∃ j, (j, k') ∈ (w.close i k).handles := by
    rintro k' hne ⟨j, hj⟩
    exact ⟨j, mem_close.mpr ⟨hj, fun heq => hne (Prod.mk.inj heq).2⟩⟩
  refine { h with handleBound := ?_, handleOne := ?_, records := ?_, granted := ?_ }
  · exact fun j k' hj => h.handleBound j k' (mem_close.mp hj).1
  · exact fun j₁ j₂ k' h₁ h₂ => h.handleOne _ _ _ (mem_close.mp h₁).1 (mem_close.mp h₂).1
  · intro kind n k' hk' hfile
    by_cases hne : k' = k
    · subst hne
      exact .inr ((hrecord kind n hk' hfile).imp fun record hr => hr.later rfl fun _ h => h)
    · exact (h.records kind n k' hk' hfile).imp (hother k' hne) fun ⟨record, hr⟩ => ⟨record, hr.later rfl fun _ h => h⟩
  · intro hgrants audience n k' hk'
    by_cases hne : k' = k
    · subst hne
      exact .inr ((hgrant audience n hk').later rfl fun _ h => h)
    · exact (h.granted hgrants audience n k' hk').imp (hother k' hne) fun hr => hr.later rfl fun _ h => h

omit [Format] in
theorem Does.close : Does i w (w.close i k) := by
  refine { Does.refl i w with handles := ?_, opened := ?_ }
  · intro j k' hj
    rw [mem_close]
    exact ⟨fun h => h.1, fun h => ⟨h, fun heq => hj (Prod.mk.inj heq).1⟩⟩
  · exact fun j k' hj => .inl (mem_close.mp hj).1

end Writes

/-! ## Names -/

section Names

variable {w w' : World} {i : Nat} {grants : Prop} {names : Directory → String → Option Nat}

/-- A step that only moves names keeps the invariant if every name it leaves belongs to the file it belonged to, or
to one that was staged and is whole. -/
theorem Whole.renames (h : Whole grants w) (hr : World.Renames w w' names)
    (hold : ∀ d n k, names d n = some k → w.lookup d n = some k ∨
      ∃ kind t, ∃ record : Record kind, d = .records kind ∧ w.lookup d t = some k ∧ names d t = none ∧
        HoldsRecord w n k record)
    (hone : ∀ d n n' k, names d n = some k → names d n' = some k → n = n') : Whole grants w' := by
  have hlookup := hr.lookup
  have hfrom : ∀ d n k, names d n = some k → ∃ n', w.lookup d n' = some k := fun d n k hk => by
    rcases hold d n k hk with hk | ⟨-, t, -, -, ht, -⟩
    · exact ⟨n, hk⟩
    · exact ⟨t, ht⟩
  refine { bound := ?_, single := ?_, handleBound := ?_, handleOne := ?_, temporaryOne := ?_, temporaryName := ?_,
           names := ?_, records := ?_, drawnOne := ?_, drawnValid := ?_, granted := ?_ }
  · intro d n k hk
    rw [hlookup] at hk
    obtain ⟨n', hn'⟩ := hfrom d n k hk
    rw [hr.size]
    exact h.bound _ _ _ hn'
  · intro d n d' n' k hk hk'
    rw [hlookup] at hk hk'
    obtain ⟨m, hm⟩ := hfrom d n k hk
    obtain ⟨m', hm'⟩ := hfrom d' n' k hk'
    obtain ⟨rfl, -⟩ := h.single _ _ _ _ _ hm hm'
    exact ⟨rfl, hone d n n' k hk hk'⟩
  · rw [hr.handles, hr.size]; exact h.handleBound
  · rw [hr.handles]; exact h.handleOne
  · rw [hr.temporaries]; exact h.temporaryOne
  · rw [hr.temporaries]; exact h.temporaryName
  · intro kind n k hk
    rw [hlookup] at hk
    rw [hr.temporaries]
    rcases hold _ n k hk with hk | ⟨kind', t, record, -, -, -, hheld⟩
    · exact h.names kind n k hk
    · rw [hheld.1]
      exact .inl (isRecordFile_recordFile _)
  · intro kind n k hk hfile
    rw [hlookup] at hk
    rw [hr.handles]
    rcases hold _ n k hk with hk | ⟨kind', t, record, hd, -, -, hheld⟩
    · exact (h.records kind n k hk hfile).imp id fun ⟨record, hheld⟩ =>
        ⟨record, hheld.later (hr.text k) (by rw [hr.begun]; exact fun _ h => h)⟩
    · cases hd
      exact .inr ⟨record, hheld.later (hr.text k) (by rw [hr.begun]; exact fun _ h => h)⟩
  · rw [hr.drawn]; exact h.drawnOne
  · rw [hr.drawn]; exact h.drawnValid
  · intro hgrants audience n k hk
    rw [hlookup] at hk
    rw [hr.handles]
    rcases hold _ n k hk with hk | ⟨kind', t, record, hd, -⟩
    · exact (h.granted hgrants audience n k hk).imp id fun hheld =>
        hheld.later (hr.text k) (by rw [hr.drawn]; exact fun _ h => h)
    · cases hd

omit [Format] in
theorem Does.renames (hr : World.Renames w w' names)
    (hstaged : ∀ j d t, j ≠ i → (j, d, t) ∈ w.temporaries → names d t = w.lookup d t)
    (hlinked : ∀ d n k, names d n = some k → w.lookup d n = some k ∨
      ∃ t, (i, d, t) ∈ w.temporaries ∧ w.lookup d t = some k) : Does i w w' where
  size := hr.size.ge
  texts k s hs _ := (hr.text k).trans hs
  handles _ _ _ := by rw [hr.handles]
  opened _ _ h := .inl (hr.handles ▸ h)
  temporaries _ _ _ _ := by rw [hr.temporaries]
  staged j d t hj ht := (hr.lookup d t).trans (hstaged j d t hj ht)
  linked d n k hk := by
    rw [hr.lookup] at hk
    exact (hlinked d n k hk).imp id .inr
  drawn := by rw [hr.drawn]; exact fun _ h => h
  begun := by rw [hr.begun]; exact fun _ h => h

/-- A name that no one stages under is removed. -/
theorem remove_keeps (h : Whole grants w) {d : Directory} {n : String}
    (hn : ∀ j, (j, d, n) ∉ w.temporaries) : Whole grants (w.remove d n) ∧ Does i w (w.remove d n) := by
  have hr := World.remove_renames w d n
  have hold : ∀ d' n' k, (if d' = d ∧ n' = n then none else w.lookup d' n') = some k → w.lookup d' n' = some k := by
    intro d' n' k hk
    split at hk
    · cases hk
    · exact hk
  refine ⟨h.renames hr (fun d' n' k hk => .inl (hold d' n' k hk)) ?_,
    .renames hr ?_ fun d' n' k hk => .inl (hold d' n' k hk)⟩
  · exact fun d' n₁ n₂ k h₁ h₂ => (h.single _ _ _ _ _ (hold _ _ _ h₁) (hold _ _ _ h₂)).2
  · intro j d' t _ ht
    rw [if_neg]
    rintro ⟨rfl, rfl⟩
    exact hn j ht

/-- A staged file that is whole takes the name of its record. -/
theorem rename_keeps (h : Whole grants w) {kind : Kind} {t n : String} {k : Nat} {record : Record kind}
    (ht : (i, .records kind, t) ∈ w.temporaries) (hk : w.lookup (.records kind) t = some k)
    (hheld : HoldsRecord w n k record) :
    (w.rename (.records kind) t n).1 = true ∧ Whole grants (w.rename (.records kind) t n).2 ∧
      Does i w (w.rename (.records kind) t n).2 := by
  have hfile : isRecordFile n = true := by rw [hheld.1]; exact isRecordFile_recordFile _
  have hname := (h.temporaryName _ _ _ ht).2
  have hne : t ≠ n := by
    rintro rfl
    rw [hname] at hfile
    cases hfile
  obtain ⟨htrue, hr⟩ := World.rename_renames hk
    (fun hother => hne (h.single _ _ _ _ _ hk hother).2) hne
  refine ⟨htrue, h.renames hr ?_ ?_, .renames hr ?_ ?_⟩
  · intro d m k' hk'
    by_cases hd : d = .records kind
    · subst hd
      rw [if_pos rfl] at hk'
      by_cases hm : m = n
      · rw [if_pos hm] at hk'
        obtain rfl := Option.some.inj hk'
        refine .inr ⟨kind, t, record, rfl, hk, ?_, hm ▸ hheld⟩
        rw [if_pos rfl, if_neg hne, if_pos rfl]
      · rw [if_neg hm] at hk'
        split at hk'
        · cases hk'
        · exact .inl hk'
    · rw [if_neg hd] at hk'
      exact .inl hk'
  · intro d m m' k' hk' hk''
    by_cases hd : d = .records kind
    · subst hd
      rw [if_pos rfl] at hk' hk''
      by_cases hm : m = n <;> by_cases hm' : m' = n
      · exact hm.trans hm'.symm
      · rw [if_pos hm] at hk'
        rw [if_neg hm'] at hk''
        obtain rfl := Option.some.inj hk'
        split at hk''
        · cases hk''
        · rename_i hmt
          exact absurd (h.single _ _ _ _ _ hk'' hk).2 hmt
      · rw [if_neg hm] at hk'
        rw [if_pos hm'] at hk''
        obtain rfl := Option.some.inj hk''
        split at hk'
        · cases hk'
        · rename_i hmt
          exact absurd (h.single _ _ _ _ _ hk' hk).2 hmt
      · rw [if_neg hm] at hk'
        rw [if_neg hm'] at hk''
        split at hk'
        · cases hk'
        · split at hk''
          · cases hk''
          · exact (h.single _ _ _ _ _ hk' hk'').2
    · rw [if_neg hd] at hk' hk''
      exact (h.single _ _ _ _ _ hk' hk'').2
  · intro j d m hj hm
    by_cases hd : d = .records kind
    · subst hd
      have hmname := (h.temporaryName _ _ _ hm).2
      have hmn : m ≠ n := by
        rintro rfl
        rw [hmname] at hfile
        cases hfile
      have hmt : m ≠ t := by
        rintro rfl
        exact hj (h.temporaryOne _ _ _ _ hm ht)
      rw [if_pos rfl, if_neg hmn, if_neg hmt]
    · rw [if_neg hd]
  · intro d m k' hk'
    by_cases hd : d = .records kind
    · subst hd
      rw [if_pos rfl] at hk'
      by_cases hm : m = n
      · rw [if_pos hm] at hk'
        obtain rfl := Option.some.inj hk'
        exact .inr ⟨t, ht, hk⟩
      · rw [if_neg hm] at hk'
        split at hk'
        · cases hk'
        · exact .inl hk'
    · rw [if_neg hd] at hk'
      exact .inl hk'

end Names

end Dim.Lifecycle
