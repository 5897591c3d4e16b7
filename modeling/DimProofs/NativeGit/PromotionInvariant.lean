/-
What holds of native Git's state at every point of a run with crashes. Of an imported project, the protected ref
stands at the head of the finalized transitions, or, while an intent is open, there or at the intent's candidate;
the ref has moved along these transitions and in no other way. A process that a crash left running asks for the
move of the open intent, or for one that the head is past.
-/
import DimProofs.NativeGit.PromotionChain

namespace Dim.NativeGit

open Relational Ordinary RootCi

/-- The changes of value that a chain of transitions makes. -/
def moves (transitions : List NativeProjectRootPromotionTransition) : List (String × String) :=
  (transitions.map fun t => (t.expectedCommit, t.candidateCommit)).filter fun move => move.1 ≠ move.2

theorem moves_append (transitions : List NativeProjectRootPromotionTransition)
    (transition : NativeProjectRootPromotionTransition) : moves (transitions ++ [transition]) =
      if transition.expectedCommit = transition.candidateCommit then moves transitions
      else moves transitions ++ [(transition.expectedCommit, transition.candidateCommit)] := by
  unfold moves
  rw [List.map_append, List.filter_append]
  split
  · rename_i heq
    simp [heq]
  · rename_i hne
    simp [hne]

/-- A ref stands at a commit that it has reached along these transitions. -/
structure Stands (repository : ProjectRepository) (ref commit : String)
    (transitions : List NativeProjectRootPromotionTransition) : Prop where
  ref : repository.refs.lookup ref = some commit
  moved : repository.moved = moves transitions

section
variable [Sha256] [ReviewText] (runtime : NativeGitRuntime)

/-- The intent that is open in a project with this head. -/
structure Open (db : PromotionDatabase) (projectId : String) (repository : ProjectRepository)
    (imported : NativeProjectRootImport) (head : NativeProjectRootCurrentHead)
    (intent : NativeProjectRootPromotionTransition) : Prop where
  next : isNextTransition runtime.localeCompare imported head db.generations intent = true
  proposal : repository.refs.lookup intent.proposalRef = some intent.candidateCommit
  apart : intent.proposalRef ≠ imported.protectedRef
  descends : runtime.git.isAncestor intent.expectedCommit intent.candidateCommit = true
  fresh : ∀ t ∈ db.transitionsOf projectId, t.reviewId = intent.reviewId →
    head.commit = t.candidateCommit → intent.candidateCommit = t.candidateCommit →
      intent.candidateTree ≠ t.candidateTree
  ref : Stands repository imported.protectedRef intent.expectedCommit (db.transitionsOf projectId) ∨
    Stands repository imported.protectedRef intent.candidateCommit
      (db.transitionsOf projectId ++ [intent])

/-- An imported project with this head. -/
structure Installed (db : PromotionDatabase) (projectId : String) (repository : ProjectRepository)
    (imported : NativeProjectRootImport) (head : NativeProjectRootCurrentHead) : Prop where
  folded : foldCurrentHead runtime.localeCompare imported (db.transitionsOf projectId) db.generations = .ok head
  descends : ∀ t ∈ db.transitionsOf projectId,
    runtime.git.isAncestor t.expectedCommit t.candidateCommit = true
  idle : db.intentOf projectId = none →
    Stands repository imported.protectedRef head.commit (db.transitionsOf projectId)
  busy : ∀ intent, db.intentOf projectId = some intent → Open runtime db projectId repository imported head intent

/-- A transaction that the head is past. -/
structure SpentAt (db : PromotionDatabase) (update : RefUpdate) (imported : NativeProjectRootImport)
    (head : NativeProjectRootCurrentHead) : Prop where
  root : db.imports.get? update.projectId = some imported
  folded : foldCurrentHead runtime.localeCompare imported (db.transitionsOf update.projectId) db.generations = .ok head
  protectedRef : update.protectedRef = imported.protectedRef
  descends : runtime.git.isAncestor update.expectedHead update.candidateCommit = true
  past : runtime.git.isAncestor update.candidateCommit head.commit = true

def Spent (db : PromotionDatabase) (update : RefUpdate) : Prop := ∃ imported head, SpentAt runtime db update imported head

/-- A transition of a stored review, under the id that its fields have. -/
structure Recorded (envelopes : List AuthoritativeNativeReviewEnvelope)
    (transition : NativeProjectRootPromotionTransition) : Prop where
  transitionId : transition.transitionId = nativeProjectRootPromotionTransitionId transition.toPromotionIdentity
  review : ∃ envelope ∈ envelopes, envelope.review.reviewId = transition.reviewId ∧
    envelope.review.candidateCommit = transition.candidateCommit ∧
      envelope.review.candidateTree = transition.candidateTree

/-- The transitions that are stored, open or finalized. -/
def PromotionDatabase.Stores (db : PromotionDatabase) (transition : NativeProjectRootPromotionTransition) : Prop :=
  ⟨transition⟩ ∈ db.intents.rows ∨ ⟨transition⟩ ∈ db.finalized.rows

structure Inv (w : World) : Prop where
  project : ∀ projectId imported, w.db.imports.get? projectId = some imported →
    ∃ head, Installed runtime w.db projectId (w.repository projectId) imported head
  references : ∀ t, w.db.Stores t → (w.db.imports.get? t.projectId).isSome
  recorded : ∀ t, w.db.Stores t → Recorded (w.repository t.projectId).envelopes t
  envelopes : ∀ projectId, ∀ envelope ∈ (w.repository projectId).envelopes,
    envelope.review.reviewId = authoritativeNativeReviewDigest envelope.review
  children : ∀ update ∈ w.children, Spent runtime w.db update ∨
    ∃ intent, w.db.intentOf update.projectId = some intent ∧ update = refUpdate intent

/-- The processes that are left have nothing more to move. -/
structure Calm (w : World) : Prop extends Inv runtime w where
  spent : ∀ update ∈ w.children, Spent runtime w.db update

/-- The open intent's move is made. -/
def Reached (w : World) (intent : NativeProjectRootPromotionTransition) : Prop :=
  Stands (w.repository intent.projectId) intent.protectedRef intent.candidateCommit
    (w.db.transitionsOf intent.projectId ++ [intent])

end

/-! ## Refs -/

theorem lookup_filter_ne {ref other : String} (hne : other ≠ ref) :
    ∀ refs : Refs, (refs.filter (·.1 ≠ ref)).lookup other = refs.lookup other
  | [] => rfl
  | (name, value) :: refs => by
    by_cases hname : name = ref
    · have hbeq : (other == name) = false := by simpa [hname] using hne
      rw [List.filter_cons_of_neg (by simpa using hname), List.lookup_cons, hbeq]
      exact lookup_filter_ne hne refs
    · rw [List.filter_cons_of_pos (by simpa using hname), List.lookup_cons, List.lookup_cons, lookup_filter_ne hne refs]

theorem lookup_setRef (ref commit other : String) (refs : Refs) :
    (setRef ref commit refs).lookup other = if other = ref then some commit else refs.lookup other := by
  unfold setRef
  rw [List.lookup_cons]
  by_cases hother : other = ref
  · simp [hother]
  · have hbeq : (other == ref) = false := by simpa using hother
    rw [hbeq, if_neg hother]
    exact lookup_filter_ne hother refs

theorem lookup_setRefs {other : String} : ∀ {updates : List (String × String)} {refs : Refs},
    (∀ line ∈ updates, line.1 ≠ other) →
      (updates.foldl (fun refs line => setRef line.1 line.2 refs) refs).lookup other = refs.lookup other
  | [], _, _ => rfl
  | line :: rest, refs, h => by
    rw [List.foldl_cons, lookup_setRefs fun l hl => h l (List.mem_cons_of_mem _ hl), lookup_setRef,
      if_neg (h line (List.mem_cons_self ..)).symm]

/-- A proposal is no protected ref. -/
theorem not_protected {ref : String} (h : proposalPrefix.isPrefixOf ref.toList = true) : isProtectedRef ref = false := by
  unfold isProtectedRef
  simp [h]

variable {ref workspaceId : String}

theorem workspaceOf_proposals (h : workspaceOf ref = some workspaceId) :
    proposalPrefix.isPrefixOf ref.toList = true := by
  unfold workspaceOf at h
  dsimp only at h
  split at h
  · rename_i hparts
    rw [List.isPrefixOf_iff_prefix, ← hparts.1]
    exact List.take_prefix ..
  · cases h

theorem hookAccepts_proposals {commit : String} (h : hookAccepts workspaceId ref commit = true) :
    proposalPrefix.isPrefixOf ref.toList = true := by
  simp only [hookAccepts, Bool.and_eq_true] at h
  obtain ⟨⟨⟨_, hallowed⟩, _⟩, _⟩ := h
  rw [List.isPrefixOf_iff_prefix] at hallowed ⊢
  rw [List.append_assoc] at hallowed
  exact (List.prefix_append ..).trans hallowed

/-! ## The move of the protected ref -/

theorem World.commit_eq_some {update : RefUpdate} {w w' : World} : w.commit update = some w' ↔
    (w.repository update.projectId).refs.lookup update.protectedRef = some update.expectedHead ∧
      (w.repository update.projectId).refs.lookup update.proposalRef = some update.candidateCommit ∧
        (update.expectedHead = update.candidateCommit ∧ w' = w ∨
          update.expectedHead ≠ update.candidateCommit ∧ w' = w.setRepository update.projectId
            { w.repository update.projectId with
              refs := setRef update.protectedRef update.candidateCommit (w.repository update.projectId).refs,
              moved := (w.repository update.projectId).moved ++
                [(update.expectedHead, update.candidateCommit)] }) := by
  unfold World.commit
  dsimp only
  by_cases hrefs : (w.repository update.projectId).refs.lookup update.protectedRef = some update.expectedHead ∧
      (w.repository update.projectId).refs.lookup update.proposalRef = some update.candidateCommit
  · by_cases hsame : update.expectedHead = update.candidateCommit
    · simp [hrefs, hsame, eq_comm]
    · simp [hrefs, hsame, eq_comm]
  · rw [if_neg hrefs]
    exact ⟨nofun, fun h => absurd ⟨h.1, h.2.1⟩ hrefs⟩

section
variable [Sha256] [ReviewText] {runtime : NativeGitRuntime} {w w' : World}
  {imported : NativeProjectRootImport} {head : NativeProjectRootCurrentHead} {projectId : String}
  {intent : NativeProjectRootPromotionTransition}

variable {db : PromotionDatabase} {repository : ProjectRepository}

omit [Sha256] [ReviewText] in
theorem Open.follows
    (h : Open runtime db projectId repository imported head intent) : Follows imported head db.generations intent :=
  follows_of_next h.next

/-- Where the intent of a project is open. -/
theorem Inv.open_at (h : Inv runtime w) (hintent : w.db.intentOf projectId = some intent) :
    intent.projectId = projectId ∧ ∃ imported head, w.db.imports.get? projectId = some imported ∧
      Installed runtime w.db projectId (w.repository projectId) imported head ∧
        Open runtime w.db projectId (w.repository projectId) imported head intent := by
  obtain ⟨hrow, rfl⟩ := PromotionDatabase.intentOf_eq_some.mp hintent
  obtain ⟨imported, hi⟩ := Option.isSome_iff_exists.mp (h.references intent (Or.inl hrow))
  obtain ⟨head, hinstalled⟩ := h.project _ _ hi
  exact ⟨rfl, imported, head, hi, hinstalled, hinstalled.busy intent hintent⟩

omit [Sha256] [ReviewText] in
/-- The protected ref stands at the head, or at the candidate of the open intent. -/
theorem Installed.value {commit : String} (h : Installed runtime db projectId repository imported head)
    (href : repository.refs.lookup imported.protectedRef = some commit) : commit = head.commit ∨
      ∃ intent, db.intentOf projectId = some intent ∧ Open runtime db projectId repository imported head intent ∧
        commit = intent.candidateCommit := by
  cases hintent : db.intentOf projectId with
  | none =>
    rw [(h.idle hintent).ref] at href
    cases href
    exact Or.inl rfl
  | some intent =>
    have hopen := h.busy intent hintent
    rcases hopen.ref with hstands | hstands
    · rw [hstands.ref] at href
      cases href
      exact Or.inl hopen.follows.expectedCommit
    · rw [hstands.ref] at href
      cases href
      exact Or.inr ⟨intent, rfl, hopen, rfl⟩

/-- A process whose move the head is past changes nothing. -/
theorem Inv.spent_commit (h : Inv runtime w) {update : RefUpdate} (hs : Spent runtime w.db update)
    (hc : w.commit update = some w') : w' = w := by
  obtain ⟨imported, head, hs⟩ := hs
  obtain ⟨href, _, hw⟩ := World.commit_eq_some.mp hc
  rcases hw with ⟨_, hw⟩ | ⟨hne, _⟩
  · exact hw
  · exfalso
    obtain ⟨head', hinstalled⟩ := h.project _ _ hs.root
    have hhead : head' = head := by
      have hfolded := hinstalled.folded
      rw [hs.folded] at hfolded
      exact (Except.ok.inj hfolded).symm
    subst hhead
    rw [hs.protectedRef] at href
    apply hne
    rcases hinstalled.value href with hvalue | ⟨intent, _, hopen, hvalue⟩
    · have hback := hs.past
      rw [← hvalue] at hback
      exact runtime.git.antisymm _ _ hs.descends hback
    · have hforth := hopen.descends
      rw [hopen.follows.expectedCommit, ← hvalue] at hforth
      exact runtime.git.antisymm _ _ hs.descends (runtime.git.trans _ _ _ hs.past hforth)

section
omit [Sha256] [ReviewText]

theorem World.setRepository_repository (repository : ProjectRepository) (other : String) :
    (w.setRepository projectId repository).repository other =
      if other = projectId then repository else w.repository other := by
  unfold World.setRepository
  exact Function.update_apply ..

@[simp] theorem World.setRepository_self (repository : ProjectRepository) :
    (w.setRepository projectId repository).repository projectId = repository := by
  rw [World.setRepository_repository, if_pos rfl]

end

/-- A repository changes of which the records are kept, and the project's part of the invariant. -/
theorem Inv.setRepository (h : Inv runtime w)
    (henvelopes : repository.envelopes = (w.repository projectId).envelopes)
    (hproject : ∀ imported, w.db.imports.get? projectId = some imported →
      ∃ head, Installed runtime w.db projectId repository imported head) :
    Inv runtime (w.setRepository projectId repository) where
  project := by
    intro other imported hi
    rw [World.setRepository_repository]
    split
    · rename_i hother
      subst hother
      exact hproject imported hi
    · exact h.project other imported hi
  references := h.references
  recorded := by
    intro t ht
    rw [World.setRepository_repository]
    split
    · rename_i hother
      rw [henvelopes, ← hother]
      exact h.recorded t ht
    · exact h.recorded t ht
  envelopes := by
    intro other
    rw [World.setRepository_repository]
    split
    · rw [henvelopes]
      exact h.envelopes projectId
    · exact h.envelopes other
  children := h.children

omit [Sha256] [ReviewText] in
/-- The repository of a project whose open intent has made its move. -/
theorem Open.moved (h : Open runtime db projectId repository imported head intent)
    (href : repository.refs.lookup imported.protectedRef = some intent.expectedCommit)
    (hne : intent.expectedCommit ≠ intent.candidateCommit) :
    Stands { repository with
        refs := setRef imported.protectedRef intent.candidateCommit repository.refs,
        moved := repository.moved ++ [(intent.expectedCommit, intent.candidateCommit)] }
      imported.protectedRef intent.candidateCommit (db.transitionsOf projectId ++ [intent]) := by
  have hbefore : repository.moved = moves (db.transitionsOf projectId) := by
    rcases h.ref with hstands | hstands
    · exact hstands.moved
    · exact absurd (Option.some.inj (href.symm.trans hstands.ref)) hne
  refine ⟨?_, ?_⟩
  · rw [lookup_setRef, if_pos rfl]
  · rw [moves_append, if_neg hne]
    exact congrArg (· ++ _) hbefore

/-- The open intent's transaction makes its move, whoever commits it. -/
theorem Inv.commit (h : Inv runtime w) (hintent : w.db.intentOf projectId = some intent)
    (hc : w.commit (refUpdate intent) = some w') : Inv runtime w' ∧ Reached w' intent := by
  obtain ⟨rfl, imported, head, hi, hinstalled, hopen⟩ := h.open_at hintent
  have hprotected : intent.protectedRef = imported.protectedRef := hopen.follows.protectedRef
  obtain ⟨href, _, hw⟩ := World.commit_eq_some.mp hc
  simp only [refUpdate] at href hw
  rw [hprotected] at href hw
  unfold Reached
  rw [hprotected]
  rcases hw with ⟨hsame, rfl⟩ | ⟨hne, rfl⟩
  · refine ⟨h, ?_⟩
    rcases hopen.ref with hstands | hstands
    · refine ⟨hsame ▸ hstands.ref, ?_⟩
      rw [moves_append, if_pos hsame]
      exact hstands.moved
    · exact hstands
  · have hmoved := hopen.moved href hne
    rw [World.setRepository_self]
    refine ⟨h.setRepository rfl fun imported' hi' => ?_, hmoved⟩
    rw [hi] at hi'
    cases hi'
    refine ⟨head, hinstalled.folded, hinstalled.descends, fun hnone => ?_, fun other hother => ?_⟩
    · rw [hintent] at hnone
      cases hnone
    · rw [hintent] at hother
      cases hother
      refine ⟨hopen.next, ?_, hopen.apart, hopen.descends, hopen.fresh, Or.inr hmoved⟩
      rw [lookup_setRef, if_neg hopen.apart]
      exact hopen.proposal

end

end Dim.NativeGit
