/-
The chain of a project's transitions: what a head that folds them knows of them, and what the statements on the
intent and on the finalized transitions do to the transitions of each project.
-/
import DimProofs.NativeGit.Promote

namespace Dim.NativeGit

open Relational Ordinary RootCi

/-- The last element is the largest. -/
theorem insertionSort_append_last {α : Type} {r : α → α → Prop} [DecidableRel r] {a : α} : ∀ {l : List α},
    (∀ b ∈ l, r b a) → (l ++ [a]).insertionSort r = l.insertionSort r ++ [a]
  | [], _ => rfl
  | x :: l, h => by
    have horder : ∀ s : List α, (s ++ [a]).orderedInsert r x = s.orderedInsert r x ++ [a] := by
      intro s
      induction s with
      | nil => simp [h x (List.mem_cons_self ..)]
      | cons y s ih =>
        by_cases hxy : r x y
        · simp [hxy]
        · simp [hxy, ih]
    rw [List.cons_append, List.insertionSort_cons, List.insertionSort_cons,
      insertionSort_append_last fun b hb => h b (List.mem_cons_of_mem x hb), horder]

/-! ## Folding transitions -/

section
variable {localeCompare : String → String → Ordering} {imported : NativeProjectRootImport}
  {generations : List String} {current head : NativeProjectRootCurrentHead}
  {transition : NativeProjectRootPromotionTransition}

/-- What the next transition agrees with, of the fields that the chain is about. -/
structure Follows (imported : NativeProjectRootImport) (current : NativeProjectRootCurrentHead)
    (generations : List String) (transition : NativeProjectRootPromotionTransition) : Prop where
  projectId : transition.projectId = imported.projectId
  importNonce : transition.importNonce = imported.importNonce
  sequence : transition.sequence = current.sequence + 1
  expectedCommit : transition.expectedCommit = current.commit
  protectedRef : transition.protectedRef = imported.protectedRef
  generation : transition.decisionGeneration ∈ generations

theorem follows_of_next (h : isNextTransition localeCompare imported current generations transition = true) :
    Follows imported current generations transition := by
  simp only [isNextTransition, Bool.and_eq_true, decide_eq_true_eq, List.contains_iff_mem] at h
  obtain ⟨⟨⟨⟨⟨⟨⟨⟨⟨⟨⟨⟨hproject, hnonce⟩, hsequence⟩, hcommit⟩, _⟩, href⟩, _⟩, _⟩, _⟩, _⟩, hgeneration⟩, _⟩, _⟩ := h
  exact ⟨hproject, hnonce, hsequence, hcommit, href, hgeneration⟩

/-- A transition of the imported policy that follows a head is next. -/
theorem next_of_follows (h : Follows imported current generations transition)
    (htree : transition.expectedTree = current.tree) (hdigest : transition.policyDigest = imported.policyDigest)
    (hpolicy : transition.policyRevision = imported.policy.policyRevision ∧
      transition.requiredReviewRevision = imported.policy.requiredReviewRevision ∧
        transition.requiredJobSetRevision = imported.policy.requiredJobSetRevision)
    (hjobs : transition.evidence.jobs.map (fun job => (job.executionKind, job.jobName)) =
      (sortedJobs localeCompare (imported.policy.requiredJobs.map fun job =>
        { executionKind := job.kind, jobName := job.name, evidenceDigest := "" })).map
          fun job => (job.executionKind, job.jobName))
    (hreviewers : ∀ reviewer ∈ imported.policy.requiredReviewerIds,
      reviewer ∈ transition.evidence.requiredReviewerIds) :
    isNextTransition localeCompare imported current generations transition = true := by
  simp only [isNextTransition, Bool.and_eq_true, decide_eq_true_eq, List.contains_iff_mem, List.all_eq_true]
  exact ⟨⟨⟨⟨⟨⟨⟨⟨⟨⟨⟨⟨h.projectId, h.importNonce⟩, h.sequence⟩, h.expectedCommit⟩, htree⟩, h.protectedRef⟩, hdigest⟩,
    hpolicy.1⟩, hpolicy.2.1⟩, hpolicy.2.2⟩, h.generation⟩, hjobs⟩, hreviewers⟩

/-- Further generations may be activated. -/
theorem isNextTransition_mono {generations' : List String} (hg : generations ⊆ generations')
    (h : isNextTransition localeCompare imported current generations transition = true) :
    isNextTransition localeCompare imported current generations' transition = true := by
  simp only [isNextTransition, Bool.and_eq_true, decide_eq_true_eq, List.contains_iff_mem] at h ⊢
  obtain ⟨⟨⟨hfields, hgeneration⟩, hjobs⟩, hreviewers⟩ := h
  exact ⟨⟨⟨hfields, hg hgeneration⟩, hjobs⟩, hreviewers⟩

theorem assertNextTransition_ok : assertNextTransition localeCompare imported current generations transition = .ok () ↔
    isNextTransition localeCompare imported current generations transition = true := by
  unfold assertNextTransition
  constructor
  · intro h
    split at h
    · assumption
    · cases h
  · intro h
    rw [if_pos h]
    rfl

theorem foldTransitions_cons {rest : List NativeProjectRootPromotionTransition} :
    foldTransitions localeCompare imported generations current (transition :: rest) = .ok head ↔
      isNextTransition localeCompare imported current generations transition = true ∧
        foldTransitions localeCompare imported generations (current.after transition) rest = .ok head := by
  rw [foldTransitions, bind_ok]
  constructor
  · rintro ⟨_, hnext, hrest⟩
    exact ⟨assertNextTransition_ok.mp hnext, hrest⟩
  · rintro ⟨hnext, hrest⟩
    exact ⟨(), assertNextTransition_ok.mpr hnext, hrest⟩

theorem foldTransitions_mono {generations' : List String} (hg : generations ⊆ generations') :
    ∀ {transitions : List NativeProjectRootPromotionTransition} {current : NativeProjectRootCurrentHead},
      foldTransitions localeCompare imported generations current transitions = .ok head →
        foldTransitions localeCompare imported generations' current transitions = .ok head
  | [], _, h => h
  | _ :: _, _, h => by
    rw [foldTransitions_cons] at h ⊢
    exact ⟨isNextTransition_mono hg h.1, foldTransitions_mono hg h.2⟩

theorem foldTransitions_append (hnext : isNextTransition localeCompare imported head generations transition = true) :
    ∀ {transitions : List NativeProjectRootPromotionTransition} {current : NativeProjectRootCurrentHead},
      foldTransitions localeCompare imported generations current transitions = .ok head →
        foldTransitions localeCompare imported generations current (transitions ++ [transition]) =
          .ok (head.after transition)
  | [], _, h => by
    cases h
    exact foldTransitions_cons.mpr ⟨hnext, rfl⟩
  | _ :: _, _, h => by
    rw [foldTransitions_cons] at h
    exact foldTransitions_cons.mpr ⟨h.1, foldTransitions_append hnext h.2⟩

/-- The sequences of a chain follow each other. -/
theorem foldTransitions_sequence : ∀ {transitions : List NativeProjectRootPromotionTransition}
    {current : NativeProjectRootCurrentHead},
      foldTransitions localeCompare imported generations current transitions = .ok head →
        transitions.map (·.sequence) = List.range' (current.sequence + 1) transitions.length ∧
          head.sequence = current.sequence + transitions.length
  | [], _, h => by
    cases h
    exact ⟨rfl, rfl⟩
  | first :: rest, current, h => by
    rw [foldTransitions_cons] at h
    obtain ⟨hnext, hrest⟩ := h
    obtain ⟨hsequences, hhead⟩ := foldTransitions_sequence hrest
    have hfirst : first.sequence = current.sequence + 1 := (follows_of_next hnext).sequence
    have hafter : (current.after first).sequence = current.sequence + 1 := hfirst
    rw [hafter] at hsequences hhead
    constructor
    · rw [List.map_cons, hsequences, hfirst, List.length_cons, List.range'_succ]
    · rw [hhead, List.length_cons]
      omega

/-- The head descends from every candidate of a chain whose candidates descend from what they replace. -/
theorem foldTransitions_descends (git : GitObjects) : ∀ {transitions : List NativeProjectRootPromotionTransition}
    {current : NativeProjectRootCurrentHead},
      foldTransitions localeCompare imported generations current transitions = .ok head →
        (∀ t ∈ transitions, git.isAncestor t.expectedCommit t.candidateCommit = true) →
          git.isAncestor current.commit head.commit = true ∧
            ∀ t ∈ transitions, git.isAncestor t.candidateCommit head.commit = true
  | [], current, h, _ => by
    cases h
    exact ⟨git.refl _, nofun⟩
  | first :: rest, current, h, hdescends => by
    rw [foldTransitions_cons] at h
    obtain ⟨hnext, hrest⟩ := h
    obtain ⟨hcandidate, htail⟩ := foldTransitions_descends git hrest fun t ht => hdescends t (List.mem_cons_of_mem _ ht)
    have hfirst := hdescends first (List.mem_cons_self ..)
    rw [(follows_of_next hnext).expectedCommit] at hfirst
    refine ⟨git.trans _ _ _ hfirst hcandidate, fun t ht => ?_⟩
    rcases List.mem_cons.mp ht with rfl | ht
    · exact hcandidate
    · exact htail t ht

theorem foldCurrentHead_ok {transitions : List NativeProjectRootPromotionTransition} :
    foldCurrentHead localeCompare imported transitions generations = .ok head ↔
      ∃ initial, initialHead imported = .ok initial ∧
        foldTransitions localeCompare imported generations initial transitions = .ok head := by
  rw [foldCurrentHead, bind_ok]

theorem initialHead_ok {initial : NativeProjectRootCurrentHead} (h : initialHead imported = .ok initial) :
    initial = { projectId := imported.projectId, sequence := 0, protectedRef := imported.protectedRef,
                commit := imported.expectedCommit, tree := imported.resolvedTree,
                policyDigest := imported.policyDigest } := by
  unfold initialHead at h
  split at h
  · cases h
  · cases h
    rfl

end

/-! ## The rows of a project -/

namespace PromotionDatabase

variable {db db' : PromotionDatabase} {transition intent : NativeProjectRootPromotionTransition} {projectId : String}

theorem mem_transitionsOf : transition ∈ db.transitionsOf projectId ↔
    ⟨transition⟩ ∈ db.finalized.rows ∧ transition.projectId = projectId := by
  unfold transitionsOf
  constructor
  · intro h
    obtain ⟨row, hrow, rfl⟩ := List.mem_map.mp h
    rw [List.mem_insertionSort, List.mem_filter, decide_eq_true_eq] at hrow
    exact hrow
  · rintro ⟨hrow, hproject⟩
    refine List.mem_map.mpr ⟨⟨transition⟩, ?_, rfl⟩
    rw [List.mem_insertionSort, List.mem_filter, decide_eq_true_eq]
    exact ⟨hrow, hproject⟩

theorem intentOf_eq_some : db.intentOf projectId = some intent ↔
    ⟨intent⟩ ∈ db.intents.rows ∧ intent.projectId = projectId := by
  unfold intentOf
  rw [Option.map_eq_some_iff]
  constructor
  · rintro ⟨row, hrow, rfl⟩
    exact ⟨Table.get?_mem hrow, Table.get?_key hrow⟩
  · rintro ⟨hrow, rfl⟩
    exact ⟨⟨intent⟩, Table.get?_of_mem hrow, rfl⟩

theorem mem_readIntents : transition ∈ db.readIntents ↔ ⟨transition⟩ ∈ db.intents.rows := by
  unfold readIntents
  simp only [List.mem_map, List.mem_insertionSort]
  constructor
  · rintro ⟨row, hrow, rfl⟩
    exact hrow
  · intro hrow
    exact ⟨_, hrow, rfl⟩

/-- What saving an intent asks for and does. -/
structure Saved (transition : NativeProjectRootPromotionTransition) (db db' : PromotionDatabase) : Prop where
  none : db.intentOf transition.projectId = none
  generation : transition.decisionGeneration ∈ db.generations
  imports : db'.imports = db.imports
  generations : db'.generations = db.generations
  finalized : db'.finalized = db.finalized
  rows : db'.intents.rows = db.intents.rows ++ [⟨transition⟩]
  self : db'.intentOf transition.projectId = some transition
  other : ∀ projectId, projectId ≠ transition.projectId → db'.intentOf projectId = db.intentOf projectId

theorem saveIntent_saved (hnone : db.intentOf transition.projectId = none) (h : db.saveIntent transition = .ok db') :
    Saved transition db db' := by
  unfold saveIntent at h
  rw [hnone] at h
  obtain ⟨_, hreferences, h⟩ := bind_ok.mp h
  obtain ⟨intents, hintents, h⟩ := bind_ok.mp h
  cases h
  unfold assertReferences at hreferences
  split at hreferences
  on_goal 2 => cases hreferences
  rename_i hkeys
  have hget := Table.get?_insert hintents
  refine ⟨hnone, hkeys.2.2, rfl, rfl, rfl, Table.insert_rows hintents, ?_, fun projectId hne => ?_⟩
  · simp [intentOf, hget]
  · simp [intentOf, hget, hne]

/-- What finalizing a transition asks for and does. -/
structure Finalized (transition : NativeProjectRootPromotionTransition) (db db' : PromotionDatabase) : Prop where
  imports : db'.imports = db.imports
  generations : db'.generations = db.generations
  rows : db'.finalized.rows = db.finalized.rows ++ [⟨transition⟩]
  self : db'.intentOf transition.projectId = Option.none
  other : ∀ projectId, projectId ≠ transition.projectId → db'.intentOf projectId = db.intentOf projectId

theorem finalize_finalized (h : db.finalize transition = .ok db') : Finalized transition db db' := by
  unfold finalize at h
  split at h
  · cases h
  rename_i intent hintent
  split at h
  · cases h
  obtain ⟨_, _, h⟩ := bind_ok.mp h
  obtain ⟨finalized, hfinalized, h⟩ := bind_ok.mp h
  cases h
  refine ⟨rfl, rfl, Table.insert_rows hfinalized, ?_, fun projectId hne => ?_⟩
  · obtain ⟨hrow, hproject⟩ := intentOf_eq_some.mp hintent
    have hget := Table.get?_of_mem hrow
    rw [PromotionIntentRow.key_eq, hproject] at hget
    simp [intentOf, hget, hproject, Option.filter]
  · cases hget : db.intents.get? projectId with
    | none => simp [intentOf, hget]
    | some row =>
      have hkey : row.transition.projectId = projectId := Table.get?_key hget
      simp [intentOf, hget, hkey, hne, Option.filter]

/-- A finalized transition comes last among those of its project. -/
theorem Finalized.transitionsOf_self (h : Finalized transition db db')
    (hlast : ∀ t ∈ db.transitionsOf transition.projectId, t.sequence ≤ transition.sequence) :
    db'.transitionsOf transition.projectId = db.transitionsOf transition.projectId ++ [transition] := by
  unfold transitionsOf
  rw [h.rows, List.filter_append, List.filter_singleton]
  simp only [decide_true, cond_true]
  rw [insertionSort_append_last, List.map_append, List.map_singleton]
  intro row hrow
  obtain ⟨hmem, hproject⟩ := List.mem_filter.mp hrow
  exact hlast row.transition (mem_transitionsOf.mpr ⟨hmem, by simpa using hproject⟩)

theorem Finalized.transitionsOf_other (h : Finalized transition db db') {projectId : String}
    (hne : projectId ≠ transition.projectId) : db'.transitionsOf projectId = db.transitionsOf projectId := by
  unfold transitionsOf
  rw [h.rows, List.filter_append, List.filter_singleton]
  simp [Ne.symm hne]

end PromotionDatabase

end Dim.NativeGit
