/-
The calls that change records, among any others: each keeps the invariant and changes only what is its own.
-/
import DimProofs.Lifecycle.Calls

namespace Dim.Lifecycle

open Effectful Files

variable [Format] {lists grants : Prop} {K : World → World → Prop} {i : Nat} {op : Operation}
  {acts : (e : Effect) → World → Answer e → World → Prop} {rely : World → World → Prop} {w w' : World}

namespace Among

variable (H : Among lists grants K i op acts rely)
include H

/-- The text is written character by character; `T` is what the call knows besides. -/
theorem writeText {k : Nat} {T : World → Prop}
    (hT : ∀ s, Stable rely fun w => Writing i k s w ∧ T w) (happend : ∀ w c, T w → T (w.append k c)) :
    ∀ (rest done : List Char) (w : World), Writing i k (String.ofList done) w ∧ T w →
      Amid acts (Whole grants) (Does i) rely (writeText k rest)
        (fun r w => r = .ok () ∧ Writing i k (String.ofList (done ++ rest)) w ∧ T w) w
  | [], done, w, h => by
    rw [Lifecycle.writeText, List.append_nil]
    exact amid_pure (hT _) h fun _ h => ⟨rfl, h⟩
  | c :: rest, done, w, h => by
    rw [Lifecycle.writeText]
    refine amid_effect (hT _) h fun w₁ a w₂ hw₁ hI hact => ?_
    obtain ⟨-, ⟨choice, hp⟩, -⟩ := H.acts _ _ _ _ hact
    simp only [perform, Option.some.injEq, Prod.mk.injEq, true_and] at hp
    subst hp
    refine ⟨hI.append hw₁.1.1 c, .append hw₁.1.1 c, ?_⟩
    have hnext : Writing i k (String.ofList (done ++ [c])) (w₁.append k c) := by
      refine ⟨hw₁.1.1, ?_⟩
      rw [World.text?_append, if_pos rfl, hw₁.1.2, Option.map_some, Option.some.injEq, ← String.toList_inj]
      simp
    have hrest := writeText hT happend rest (done ++ [c]) _ ⟨hnext, happend _ c hw₁.2⟩
    rwa [List.append_assoc, List.singleton_append] at hrest

/-- The call closes a file whose only name it knows. -/
theorem close (hw : Whole grants w) {k : Nat} {s : String} {d : Directory}
    {n : String} (hwriting : Writing i k s w) (hlinked : Linked d n k w)
    (hrecord : ∀ kind, d = .records kind → isRecordFile n = true → ∃ record : Record kind, HoldsRecord w n k record)
    (hgrant : ∀ audience, d = .grants audience → HoldsGrant w audience n k) {a : Unit} (h : acts (.close k) w a w') :
    Whole grants w' ∧ Does i w w' ∧ w' = w.close i k ∧ Closed k s w' := by
  obtain ⟨-, ⟨choice, hp⟩, -⟩ := H.acts _ _ _ _ h
  simp only [perform, Option.some.injEq, Prod.mk.injEq, true_and] at hp
  subst hp
  refine ⟨hw.close hwriting.1 ?_ ?_, .close, rfl, hwriting.2, ?_⟩
  · intro kind n' hk hfile
    obtain ⟨hd, rfl⟩ := hlinked _ _ hk
    exact hrecord kind hd.symm hfile
  · intro audience n' hk
    obtain ⟨hd, rfl⟩ := hlinked _ _ hk
    exact hgrant audience hd.symm
  · intro j hj
    obtain ⟨hold, hne⟩ := mem_close.mp hj
    exact hne (by rw [hw.handleOne _ _ _ hold hwriting.1])

/-- A record is claimed. -/
theorem claimRecord {kind : Kind} {record : Record kind} (hgiven : Given w record) :
    Amid acts (Whole grants) (Does i) rely (claimRecord record) (fun _ _ => True) w := by
  have hfile : ∀ kind', Directory.records kind = .records kind' → isRecordFile (recordFile record.name) = true :=
    fun _ _ => isRecordFile_recordFile _
  have hstable : ∀ k s, Stable rely fun w => Writing i k s w ∧
      Linked (.records kind) (recordFile record.name) k w ∧ Given w record := by
    intro k s w w' h hr
    have hlinked := H.stable_linked _ _ k s hfile w w' ⟨h.1, h.2.1⟩ hr
    exact ⟨hlinked.1, hlinked.2, H.stable_given record w w' h.2.2 hr⟩
  refine amid_effect (H.stable_given record) hgiven fun w₁ a w₂ hgiven hI hact => ?_
  obtain ⟨hI', hdoes, rfl | ⟨k, rfl, ⟨hwriting, hlinked⟩, -⟩⟩ := H.create hI hfile hact
  · exact ⟨hI', hdoes, amid_throw stable_true trivial fun _ _ => trivial⟩
  refine ⟨hI', hdoes, Amid.andThen ?_ (fun _ _ _ => trivial) (H.writeText (hstable k) (fun w c h => ⟨h.1, h.2.append _ _⟩)
    (stored record).toList [] w₂ ⟨hwriting, hlinked, hgiven.mono hdoes.begun⟩)⟩
  rintro - w₃ ⟨-, hwritten⟩
  rw [List.nil_append, String.ofList_toList] at hwritten
  refine amid_last (T := fun _ _ => True) (hstable k _) hwritten (fun _ => stable_true) (fun _ _ _ => trivial) ?_
  intro w₄ a w₅ h hI hact
  obtain ⟨hI', hdoes, -⟩ := H.close hI h.1 h.2.1 (fun _ hd _ => by cases hd; exact ⟨record, rfl, h.1.2, h.2.2⟩)
    (fun _ hd => by cases hd) hact
  exact ⟨hI', hdoes, trivial⟩

/-- A record is written under a temporary name and takes its own at once. -/
theorem atomicWrite {kind : Kind} {record : Record kind} (hgiven : Given w record) :
    Amid acts (Whole grants) (Does i) rely (atomicWrite record) (fun _ _ => True) w := by
  refine amid_effect (H.stable_given record) hgiven fun w₁ t w₂ hgiven hI hact => ?_
  obtain ⟨hI', hdoes, ht, hnone⟩ := H.temporary hI hact
  refine ⟨hI', hdoes, ?_⟩
  have hstaging : Stable rely fun w => ((i, .records kind, t) ∈ w.temporaries ∧ w.lookup (.records kind) t = none) ∧
      Given w record := by
    refine Stable.and (H.stable fun w w' j hj _ hd _ h => ?_) (H.stable_given record)
    exact ⟨(hd.temporaries i _ t hj.symm).mpr h.1, (hd.staged i _ t hj.symm h.1).trans h.2⟩
  refine amid_effect hstaging ⟨⟨ht, hnone⟩, hgiven.mono hdoes.begun⟩ fun w₃ a w₄ h hI hact => ?_
  obtain ⟨hI', hdoes, k, rfl, hwriting, hlinked, hstaged⟩ := H.truncate hI h.1.1 h.1.2 hact
  have hname := (hI.temporaryName _ _ _ h.1.1).2
  have hstable : ∀ s, Stable rely fun w => Writing i k s w ∧ Linked (.records kind) t k w ∧
      Staged i (.records kind) t k w ∧ Given w record := by
    intro s
    refine H.stable fun w w' j hj hw hd _ h => ?_
    refine ⟨h.1.does hj hw.toInvariant hd, ?_, h.2.2.1.does hj hd, h.2.2.2.mono hd.begun⟩
    intro d' n' hk'
    rcases hd.linked d' n' k hk' with hold | hnew | ⟨t', ht', hold⟩
    · exact h.2.1 d' n' hold
    · exact absurd (lt_of_text h.1.2) (Nat.not_lt.mpr hnew)
    · obtain ⟨rfl, rfl⟩ := h.2.1 _ _ hold
      exact absurd (hw.temporaryOne _ _ _ _ ht' h.2.2.1.1) hj
  refine ⟨hI', hdoes, Amid.andThen ?_ (fun _ _ _ => trivial) (H.writeText hstable
    (fun w c h => ⟨h.1, h.2.1, h.2.2.append _ _⟩) (stored record).toList [] w₄
    ⟨hwriting, hlinked, hstaged, h.2.mono hdoes.begun⟩)⟩
  rintro - w₅ ⟨-, hwritten⟩
  rw [List.nil_append, String.ofList_toList] at hwritten
  refine amid_effect (hstable _) hwritten fun w₆ a w₇ h hI hact => ?_
  obtain ⟨hI', hdoes, rfl, hclosed⟩ := H.close hI h.1 h.2.1
    (fun _ _ hfile => by rw [hname] at hfile; cases hfile) (fun _ hd => by cases hd) hact
  have hdone : Stable rely fun w => (Closed k (stored record) w ∧ Staged i (.records kind) t k w) ∧ Given w record :=
    Stable.and (Stable.and (H.stable_closed _ _) (H.stable_staged _ _ _)) (H.stable_given record)
  refine ⟨hI', hdoes, amid_effect hdone ⟨⟨hclosed, h.2.2.1⟩, h.2.2.2.close _ _⟩ fun w₈ a w₉ h hI hact => ?_⟩
  obtain ⟨-, ⟨choice, hp⟩, -⟩ := H.acts _ _ _ _ hact
  simp only [perform, Option.some.injEq] at hp
  obtain ⟨htrue, hI', hdoes⟩ := rename_keeps hI h.1.2.1 h.1.2.2 ⟨rfl, h.1.1.1, h.2⟩
  rw [hp] at htrue hI' hdoes
  obtain rfl : a = true := htrue
  exact ⟨hI', hdoes, amid_pure stable_true trivial fun _ _ => trivial⟩

/-- A final name is removed. -/
theorem remove {d : Directory} {n : String}
    (hn : ∀ kind, d = .records kind → isRecordFile n = true) :
    Amid acts (Whole grants) (Does i) rely (effect (.remove d n)) (fun _ _ => True) w := by
  refine amid_last (T := fun _ _ => True) stable_true trivial (fun _ => stable_true) (fun _ _ _ => trivial) ?_
  intro w₁ a w₂ _ hI hact
  obtain ⟨-, ⟨choice, hp⟩, -⟩ := H.acts _ _ _ _ hact
  simp only [perform, Option.some.injEq, Prod.mk.injEq, true_and] at hp
  subst hp
  obtain ⟨hI', hdoes⟩ := remove_keeps hI (hI.toInvariant.final hn)
  exact ⟨hI', hdoes, trivial⟩

theorem removeRecord (kind : Kind) (name : String) :
    Amid acts (Whole grants) (Does i) rely (removeRecord kind name) (fun _ _ => True) w := by
  rw [Lifecycle.removeRecord, validateLifecycleName]
  split
  · exact H.remove fun _ _ => isRecordFile_recordFile _
  · exact amid_throw stable_true trivial fun _ _ => trivial

end Among

end Dim.Lifecycle
