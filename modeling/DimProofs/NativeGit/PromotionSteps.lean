/-
What each call does to the invariant: a left process that commits, an intent that is saved, a transition that is
finalized, and every other operation of the queue.
-/
import DimProofs.NativeGit.PromotionInvariant

namespace Dim.NativeGit

open Relational Ordinary RootCi Qemu Effectful

section
variable [Sha256] [ReviewText] {runtime : NativeGitRuntime} {w w' w'' : World}
  {imported : NativeProjectRootImport} {head : NativeProjectRootCurrentHead} {projectId : String}
  {intent : NativeProjectRootPromotionTransition} {update : RefUpdate}

/-! ## Processes that a crash left -/

omit [Sha256] [ReviewText] in
theorem commit_frame (hc : w.commit update = some w') : w'.db = w.db ∧ w'.children = w.children ∧
    ∀ other, other ≠ update.projectId → w'.repository other = w.repository other := by
  obtain ⟨_, _, ⟨_, rfl⟩ | ⟨_, rfl⟩⟩ := World.commit_eq_some.mp hc
  · exact ⟨rfl, rfl, fun _ _ => rfl⟩
  · exact ⟨rfl, rfl, fun other hne => by rw [World.setRepository_repository, if_neg hne]⟩

/-- A left process keeps the invariant, and a move that is made stays made. -/
theorem Inv.left (h : Inv runtime w) (hu : update ∈ w.children) (hc : w.commit update = some w') : Inv runtime w' ∧
    ∀ intent, w.db.intentOf intent.projectId = some intent → Reached w intent → Reached w' intent := by
  rcases h.children update hu with hs | ⟨intent, hintent, rfl⟩
  · rw [h.spent_commit hs hc]
    exact ⟨h, fun _ _ hr => hr⟩
  · obtain ⟨hinv, hreached⟩ := h.commit hintent hc
    refine ⟨hinv, fun other hother hr => ?_⟩
    obtain ⟨hdb, _, hrepository⟩ := commit_frame hc
    by_cases hproject : other.projectId = (refUpdate intent).projectId
    · rw [hproject, hintent] at hother
      cases hother
      exact hreached
    · unfold Reached
      rw [hrepository _ hproject, hdb]
      exact hr

/-- Any number of them. -/
theorem Inv.drift (h : Inv runtime w) (hd : Drift w w') : Inv runtime w' ∧ w'.db = w.db ∧ w'.children = w.children ∧
    ∀ intent, w.db.intentOf intent.projectId = some intent → Reached w intent → Reached w' intent := by
  induction hd with
  | refl => exact ⟨h, rfl, rfl, fun _ _ hr => hr⟩
  | commit _ hu hc ih =>
    obtain ⟨hinv, hdb, hchildren, hreached⟩ := ih
    obtain ⟨hinv', hreached'⟩ := hinv.left hu hc
    obtain ⟨hdb', hchildren', _⟩ := commit_frame hc
    exact ⟨hinv', hdb'.trans hdb, hchildren'.trans hchildren, fun intent hintent hr =>
      hreached' intent (by rw [hdb]; exact hintent) (hreached intent hintent hr)⟩

/-- Where nothing more is to move, they change nothing. -/
theorem Calm.drift (h : Calm runtime w) (hd : Drift w w') : w' = w := by
  induction hd with
  | refl => rfl
  | commit _ hu hc ih =>
    subst ih
    exact h.spent_commit (h.spent _ hu) hc

/-! ## Frames -/

variable {db db' : PromotionDatabase}

section
omit [Sha256] [ReviewText]

theorem SpentAt.frame (h : SpentAt runtime db update imported head)
    (hi : db'.imports = db.imports) (ht : db'.transitionsOf update.projectId = db.transitionsOf update.projectId)
    (hg : db.generations ⊆ db'.generations) : SpentAt runtime db' update imported head where
  root := by rw [hi]; exact h.root
  folded := by
    rw [ht]
    obtain ⟨initial, hinitial, hfold⟩ := foldCurrentHead_ok.mp h.folded
    exact foldCurrentHead_ok.mpr ⟨initial, hinitial, foldTransitions_mono hg hfold⟩
  protectedRef := h.protectedRef
  descends := h.descends
  past := h.past

theorem Installed.frame {repository repository' : ProjectRepository}
    (h : Installed runtime db projectId repository imported head)
    (ht : db'.transitionsOf projectId = db.transitionsOf projectId)
    (hi : db'.intentOf projectId = db.intentOf projectId) (hg : db.generations ⊆ db'.generations)
    (hmoved : repository'.moved = repository.moved)
    (href : repository'.refs.lookup imported.protectedRef = repository.refs.lookup imported.protectedRef)
    (hfrozen : db.intentOf projectId ≠ none → repository'.refs = repository.refs) :
    Installed runtime db' projectId repository' imported head := by
  have hstands : ∀ commit transitions, Stands repository imported.protectedRef commit transitions →
      Stands repository' imported.protectedRef commit transitions := by
    intro commit transitions hs
    exact ⟨by rw [href]; exact hs.ref, by rw [hmoved]; exact hs.moved⟩
  refine ⟨?_, ?_, fun hnone => ?_, fun intent hintent => ?_⟩
  · rw [ht]
    obtain ⟨initial, hinitial, hfold⟩ := foldCurrentHead_ok.mp h.folded
    exact foldCurrentHead_ok.mpr ⟨initial, hinitial, foldTransitions_mono hg hfold⟩
  · rw [ht]
    exact h.descends
  · rw [ht]
    exact hstands _ _ (h.idle (by rw [← hi]; exact hnone))
  · rw [hi] at hintent
    have hopen := h.busy intent hintent
    have hrefs := hfrozen (by rw [hintent]; exact Option.some_ne_none _)
    refine ⟨isNextTransition_mono hg hopen.next, by rw [hrefs]; exact hopen.proposal, hopen.apart, hopen.descends,
      by rw [ht]; exact hopen.fresh, ?_⟩
    rw [ht]
    exact hopen.ref.imp (hstands _ _) (hstands _ _)

/-- The tables of transitions are the same. -/
theorem transitionsOf_congr (h : db'.finalized = db.finalized) :
    db'.transitionsOf projectId = db.transitionsOf projectId := by
  unfold PromotionDatabase.transitionsOf
  rw [h]

end

/-! ## Saving an intent -/

/-- What the checks of a promotion establish of the transition that is next. -/
structure Ready (runtime : NativeGitRuntime) (w : World) (imported : NativeProjectRootImport)
    (head : NativeProjectRootCurrentHead) (t : NativeProjectRootPromotionTransition) : Prop where
  root : w.db.imports.get? t.projectId = some imported
  none : w.db.intentOf t.projectId = none
  folded : foldCurrentHead runtime.localeCompare imported (w.db.transitionsOf t.projectId) w.db.generations = .ok head
  next : t.decisionGeneration ∈ w.db.generations →
    isNextTransition runtime.localeCompare imported head w.db.generations t = true
  proposal : (w.repository t.projectId).refs.lookup t.proposalRef = some t.candidateCommit
  apart : t.proposalRef ≠ imported.protectedRef
  descends : runtime.git.isAncestor t.expectedCommit t.candidateCommit = true
  fresh : ∀ f ∈ w.db.transitionsOf t.projectId, f.reviewId = t.reviewId → head.commit = f.candidateCommit →
    t.candidateCommit = f.candidateCommit → t.candidateTree ≠ f.candidateTree
  recorded : Recorded (w.repository t.projectId).envelopes t

theorem Calm.saveIntent (h : Calm runtime w) (hr : Ready runtime w imported head intent)
    (hs : PromotionDatabase.Saved intent w.db db) : Calm runtime { w with db } := by
  have ht : ∀ {projectId}, db.transitionsOf projectId = w.db.transitionsOf projectId := transitionsOf_congr hs.finalized
  have hg : w.db.generations ⊆ db.generations := by rw [hs.generations]; exact List.Subset.refl _
  have hnext := hr.next hs.generation
  have hspent : ∀ update ∈ w.children, Spent runtime db update := by
    intro update hu
    obtain ⟨imported, head, hsp⟩ := h.spent update hu
    exact ⟨imported, head, hsp.frame hs.imports ht hg⟩
  have hstores : ∀ t, db.Stores t → w.db.Stores t ∨ t = intent := by
    rintro t (hrow | hrow)
    · rw [hs.rows, List.mem_append, List.mem_singleton] at hrow
      exact hrow.imp Or.inl fun heq => by cases heq; rfl
    · rw [hs.finalized] at hrow
      exact Or.inl (Or.inr hrow)
  refine ⟨⟨fun projectId imported' hi => ?_, fun t hstored => ?_, fun t hstored => ?_, h.envelopes,
    fun update hu => Or.inl (hspent update hu)⟩, hspent⟩
  · rw [hs.imports] at hi
    obtain ⟨head', hinstalled⟩ := h.project projectId imported' hi
    by_cases hproject : projectId = intent.projectId
    · subst hproject
      rw [hr.root] at hi
      cases hi
      have hhead : head' = head := Except.ok.inj (hinstalled.folded.symm.trans hr.folded)
      subst hhead
      have hstands := hinstalled.idle hr.none
      rw [← (follows_of_next hnext).expectedCommit] at hstands
      refine ⟨head', ?_, by rw [ht]; exact hinstalled.descends, fun hnone => ?_, fun t hself => ?_⟩
      · rw [ht, hs.generations]
        exact hinstalled.folded
      · rw [hs.self] at hnone
        cases hnone
      · rw [hs.self] at hself
        cases hself
        refine ⟨by rw [hs.generations]; exact hnext, hr.proposal, hr.apart, hr.descends, ?_, Or.inl ?_⟩
        · rw [ht]
          exact hr.fresh
        · rw [ht]
          exact hstands
    · exact ⟨head', hinstalled.frame ht (hs.other _ hproject) hg rfl rfl fun _ => rfl⟩
  · rw [hs.imports]
    rcases hstores t hstored with hstored | rfl
    · exact h.references t hstored
    · rw [hr.root]
      rfl
  · rcases hstores t hstored with hstored | rfl
    · exact h.recorded t hstored
    · exact hr.recorded

/-! ## Finalizing a transition -/

omit [Sha256] [ReviewText] in
/-- The head of a project whose open intent is finalized. -/
theorem Open.finalized {repository : ProjectRepository}
    (hopen : Open runtime db projectId repository imported head intent)
    (hinstalled : Installed runtime db projectId repository imported head) (hproject : intent.projectId = projectId)
    (hf : PromotionDatabase.Finalized intent db db') :
    db'.transitionsOf projectId = db.transitionsOf projectId ++ [intent] ∧
      foldCurrentHead runtime.localeCompare imported (db'.transitionsOf projectId) db'.generations =
        .ok (head.after intent) := by
  subst hproject
  obtain ⟨initial, hinitial, hfold⟩ := foldCurrentHead_ok.mp hinstalled.folded
  have hlast : ∀ t ∈ db.transitionsOf intent.projectId, t.sequence ≤ intent.sequence := by
    intro t ht
    obtain ⟨hsequences, hhead⟩ := foldTransitions_sequence hfold
    have hmem : t.sequence ∈ (db.transitionsOf intent.projectId).map (·.sequence) := List.mem_map_of_mem ht
    rw [hsequences, List.mem_range'_1] at hmem
    rw [hopen.follows.sequence, hhead]
    omega
  have htransitions := hf.transitionsOf_self hlast
  refine ⟨htransitions, ?_⟩
  rw [htransitions, hf.generations]
  exact foldCurrentHead_ok.mpr ⟨initial, hinitial, foldTransitions_append hopen.next hfold⟩

theorem Inv.finalize (h : Inv runtime w) (hintent : w.db.intentOf projectId = some intent)
    (hr : Reached w intent) (hf : PromotionDatabase.Finalized intent w.db db) :
    Inv runtime { w with db } ∧ ((∀ update ∈ w.children, Spent runtime w.db update) →
      ∀ update ∈ w.children, Spent runtime db update) := by
  obtain ⟨rfl, imported, head, hi, hinstalled, hopen⟩ := h.open_at hintent
  obtain ⟨htransitions, hfolded⟩ := hopen.finalized hinstalled rfl hf
  have hprotected : intent.protectedRef = imported.protectedRef := hopen.follows.protectedRef
  have hg : w.db.generations ⊆ db.generations := by rw [hf.generations]; exact List.Subset.refl _
  have hafter : runtime.git.isAncestor head.commit intent.candidateCommit = true := by
    rw [← hopen.follows.expectedCommit]
    exact hopen.descends
  -- A process whose move the head was past stays behind the head.
  have hspent : ∀ update, Spent runtime w.db update → Spent runtime db update := by
    rintro update ⟨imported', head', hs⟩
    by_cases hproject : update.projectId = intent.projectId
    · have hroot := hs.root
      rw [hproject, hi] at hroot
      cases hroot
      have hhead : head' = head := by
        have hother := hs.folded
        rw [hproject] at hother
        exact Except.ok.inj (hother.symm.trans hinstalled.folded)
      subst hhead
      exact ⟨imported, head'.after intent, by rw [hf.imports]; exact hs.root, by rw [hproject]; exact hfolded,
        hs.protectedRef, hs.descends, runtime.git.trans _ _ _ hs.past hafter⟩
    · exact ⟨imported', head', hs.frame hf.imports (hf.transitionsOf_other hproject) hg⟩
  have hstores : ∀ t, db.Stores t → w.db.Stores t := by
    rintro t (hrow | hrow)
    · have hself := PromotionDatabase.intentOf_eq_some.mpr ⟨hrow, rfl⟩
      by_cases hproject : t.projectId = intent.projectId
      · rw [hproject, hf.self] at hself
        cases hself
      · rw [hf.other _ hproject] at hself
        exact Or.inl (PromotionDatabase.intentOf_eq_some.mp hself).1
    · rw [hf.rows, List.mem_append, List.mem_singleton] at hrow
      rcases hrow with hrow | heq
      · exact Or.inr hrow
      · cases heq
        exact Or.inl (PromotionDatabase.intentOf_eq_some.mp hintent).1
  refine ⟨⟨fun projectId imported' hi' => ?_, fun t hstored => ?_, fun t hstored => h.recorded t (hstores t hstored),
    h.envelopes, fun update hu => ?_⟩, fun hall update hu => hspent update (hall update hu)⟩
  · rw [hf.imports] at hi'
    by_cases hproject : projectId = intent.projectId
    · subst hproject
      rw [hi] at hi'
      cases hi'
      refine ⟨head.after intent, hfolded, ?_, fun _ => ?_, fun t hself => ?_⟩
      · rw [htransitions]
        intro t ht
        rcases List.mem_append.mp ht with ht | ht
        · exact hinstalled.descends t ht
        · rw [List.mem_singleton.mp ht]
          exact hopen.descends
      · rw [htransitions]
        exact hprotected ▸ hr
      · rw [hf.self] at hself
        cases hself
    · obtain ⟨head', hother⟩ := h.project projectId imported' hi'
      exact ⟨head', hother.frame (hf.transitionsOf_other hproject) (hf.other _ hproject) hg rfl rfl fun _ => rfl⟩
  · rw [hf.imports]
    exact h.references t (hstores t hstored)
  · rcases h.children update hu with hs | ⟨other, hother, rfl⟩
    · exact Or.inl (hspent update hs)
    · by_cases hproject : (refUpdate other).projectId = intent.projectId
      · rw [hproject, hintent] at hother
        cases hother
        exact Or.inl ⟨imported, head.after intent, by rw [hf.imports]; exact hi, hfolded, hprotected, hopen.descends,
          runtime.git.refl _⟩
      · exact Or.inr ⟨other, by rw [hf.other _ hproject]; exact hother, rfl⟩

/-! ## The other operations of the queue -/

/-- What an operation may change of a repository: no protected ref, none of the moves, and no ref at all while an
intent is open. It may add a review under the digest of its fields. -/
structure RepositoryKeeps (intent : Option NativeProjectRootPromotionTransition)
    (repository repository' : ProjectRepository) : Prop where
  moved : repository'.moved = repository.moved
  protectedRefs : ∀ ref, isProtectedRef ref = true → repository'.refs.lookup ref = repository.refs.lookup ref
  frozen : intent ≠ none → repository'.refs = repository.refs
  envelopes : repository.envelopes ⊆ repository'.envelopes
  derived : ∀ envelope ∈ repository'.envelopes, envelope ∈ repository.envelopes ∨
    envelope.review.reviewId = authoritativeNativeReviewDigest envelope.review

structure Keeps (w w' : World) : Prop where
  imports : w'.db.imports = w.db.imports
  intents : w'.db.intents = w.db.intents
  finalized : w'.db.finalized = w.db.finalized
  generations : w.db.generations ⊆ w'.db.generations
  children : w'.children = w.children
  repository : ∀ projectId, RepositoryKeeps (w.db.intentOf projectId) (w.repository projectId) (w'.repository projectId)

theorem RepositoryKeeps.refl (intent : Option NativeProjectRootPromotionTransition) (repository : ProjectRepository) :
    RepositoryKeeps intent repository repository :=
  ⟨rfl, fun _ _ => rfl, fun _ => rfl, List.Subset.refl _, fun _ h => Or.inl h⟩

/-- An operation that writes to another store of the repository. -/
theorem RepositoryKeeps.of_eq {intent : Option NativeProjectRootPromotionTransition}
    {repository repository' : ProjectRepository} (hmoved : repository'.moved = repository.moved)
    (hrefs : repository'.refs = repository.refs) (henvelopes : repository'.envelopes = repository.envelopes) :
    RepositoryKeeps intent repository repository' :=
  ⟨hmoved, fun _ _ => by rw [hrefs], fun _ => hrefs, by rw [henvelopes]; exact List.Subset.refl _,
    fun _ h => Or.inl (henvelopes ▸ h)⟩

theorem Inv.keeps (h : Inv runtime w) (hk : Keeps w w') : Inv runtime w' := by
  have ht : ∀ {projectId}, w'.db.transitionsOf projectId = w.db.transitionsOf projectId := transitionsOf_congr hk.finalized
  have hintents : ∀ projectId, w'.db.intentOf projectId = w.db.intentOf projectId := by
    intro projectId
    unfold PromotionDatabase.intentOf
    rw [hk.intents]
  have hstores : ∀ t, w'.db.Stores t → w.db.Stores t := by
    intro t hstored
    unfold PromotionDatabase.Stores at hstored ⊢
    rwa [hk.intents, hk.finalized] at hstored
  refine ⟨fun projectId imported hi => ?_, fun t hstored => ?_, fun t hstored => ?_, fun projectId envelope he => ?_,
    fun update hu => ?_⟩
  · rw [hk.imports] at hi
    obtain ⟨head, hinstalled⟩ := h.project projectId imported hi
    have hrepository := hk.repository projectId
    exact ⟨head, hinstalled.frame ht (hintents projectId) hk.generations hrepository.moved
      (hrepository.protectedRefs _ imported.parsed.2) hrepository.frozen⟩
  · rw [hk.imports]
    exact h.references t (hstores t hstored)
  · obtain ⟨hid, envelope, he, hreview⟩ := h.recorded t (hstores t hstored)
    exact ⟨hid, envelope, (hk.repository _).envelopes he, hreview⟩
  · rcases (hk.repository projectId).derived envelope he with he | hderived
    · exact h.envelopes projectId envelope he
    · exact hderived
  · rw [hk.children] at hu
    rcases h.children update hu with ⟨imported, head, hs⟩ | ⟨intent, hintent, rfl⟩
    · exact Or.inl ⟨imported, head, hs.frame hk.imports ht hk.generations⟩
    · exact Or.inr ⟨intent, by rw [hintents]; exact hintent, rfl⟩

theorem Calm.keeps (h : Calm runtime w) (hk : Keeps w w') : Calm runtime w' := by
  refine ⟨h.toInv.keeps hk, fun update hu => ?_⟩
  rw [hk.children] at hu
  obtain ⟨imported, head, hs⟩ := h.spent update hu
  exact ⟨imported, head, hs.frame hk.imports (transitionsOf_congr hk.finalized) hk.generations⟩

section
omit [Sha256] [ReviewText]

theorem readAt_query (q : Query) : readAt runtime (query q) w = (q.answer runtime w).mapError .read := by
  unfold readAt query
  rw [show (Program.effect (ServerCall.read q) >>= answered : Prog q.Answer) =
    .perform (ServerCall.read q) answered from rfl]
  simp only [Program.exec]
  cases q.answer runtime w <;> rfl

theorem exec_still {α : Type} (answer : (call : ServerCall) → World → call.Answer) : ∀ (p : Prog α) (w : World),
    (p.exec (fun call w => (answer call w, w)) w).2 = w
  | .done _, _ => rfl
  | .fail _, _ => rfl
  | .perform call next, w => exec_still answer (next (answer call w)) w

theorem exec_bind_still {α β : Type} (answer : (call : ServerCall) → World → call.Answer) (p : Prog α) (f : α → Prog β)
    (w : World) : ((p >>= f).exec (fun call w => (answer call w, w)) w).1 =
      (p.exec (fun call w => (answer call w, w)) w).1 >>= fun value =>
        ((f value).exec (fun call w => (answer call w, w)) w).1 := by
  have hstill := exec_still answer p w
  rw [exec_bind]
  generalize p.exec (fun call w => (answer call w, w)) w = result at hstill
  obtain ⟨result, w₁⟩ := result
  obtain rfl : w₁ = w := hstill
  cases result <;> rfl

theorem readAt_bind {α β : Type} {p : Prog α} {f : α → Prog β} : readAt runtime (p >>= f) w =
    readAt runtime p w >>= fun value => readAt runtime (f value) w := exec_bind_still _ p f w

theorem readAt_ok {α β : Type} {p : Prog α} {f : α → Prog β} {b : β} (h : readAt runtime (p >>= f) w = .ok b) :
    ∃ a, readAt runtime p w = .ok a ∧ readAt runtime (f a) w = .ok b := bind_ok.mp (readAt_bind ▸ h)

theorem mapError_ok {ε ε' α : Type} {x : Except ε α} {f : ε → ε'} {a : α} (h : x.mapError f = .ok a) : x = .ok a := by
  cases x with
  | error _ => cases h
  | ok _ => cases h; rfl

/-- A root is resolved only where no intent is open. -/
theorem resolveTarget_ok {target : AuthoritativeNativeRootTarget}
    (h : resolveTarget runtime.localeCompare runtime.git projectId w = .ok target) :
    w.db.imports.get? projectId = some target.imported ∧ w.db.intentOf projectId = none ∧
      foldCurrentHead runtime.localeCompare target.imported (w.db.transitionsOf projectId) w.db.generations =
        .ok target.currentHead ∧
        (w.refs projectId).lookup target.imported.protectedRef = some target.currentHead.commit := by
  have himport : ∀ {found : Option NativeProjectRootImport} {imported : NativeProjectRootImport},
      requirePromotableImport found = .ok imported → found = some imported := by
    intro found imported hfound
    unfold requirePromotableImport at hfound
    split at hfound
    · cases hfound
    · cases hfound
      rfl
  obtain ⟨imported, hi, h⟩ := bind_ok.mp h
  obtain ⟨currentHead, hhead, h⟩ := bind_ok.mp h
  split at h
  · rename_i hinspect
    cases h
    have hi := himport (mapError_ok hi)
    obtain ⟨imported', hi', hhead⟩ := bind_ok.mp (mapError_ok hhead)
    obtain ⟨current, hfold, hhead⟩ := bind_ok.mp hhead
    rw [hi] at hi'
    cases himport hi'
    cases hintent : w.db.intentOf projectId with
    | some intent =>
      rw [hintent] at hhead
      obtain ⟨_, _, hhead⟩ := bind_ok.mp hhead
      cases hhead
    | none =>
      rw [hintent] at hhead
      cases hhead
      simp only [inspectRoot, Bool.and_eq_true, decide_eq_true_eq] at hinspect
      exact ⟨hi, rfl, hfold, hinspect.1.1.1.1.1⟩
  · cases h

/-- An operation on the repository of one project. -/
theorem updateRepository_ok {f : ProjectRepository → Except Failure ProjectRepository}
    (h : w.updateRepository projectId f = .ok w') :
    ∃ repository, f (w.repository projectId) = .ok repository ∧ w' = w.setRepository projectId repository := by
  obtain ⟨repository, hf, h⟩ := bind_ok.mp h
  cases h
  exact ⟨repository, hf, rfl⟩

end

theorem Keeps.setRepository {repository : ProjectRepository}
    (h : RepositoryKeeps (w.db.intentOf projectId) (w.repository projectId) repository) :
    Keeps w (w.setRepository projectId repository) where
  imports := rfl
  intents := rfl
  finalized := rfl
  generations := List.Subset.refl _
  children := rfl
  repository := by
    intro other
    rw [World.setRepository_repository]
    split
    · rename_i hother
      rw [hother]
      exact h
    · exact RepositoryKeeps.refl _ _

omit [Sha256] [ReviewText] in
/-- An operation on a project whose root is resolved. -/
theorem updateTarget_ok {f : AuthoritativeNativeRootTarget → ProjectRepository → Except Failure ProjectRepository}
    (h : w.updateTarget runtime projectId f = .ok w') : ∃ target repository, w.db.intentOf projectId = none ∧
      f target (w.repository projectId) = .ok repository ∧ w' = w.setRepository projectId repository := by
  obtain ⟨target, htarget, h⟩ := bind_ok.mp h
  rw [readAt_query] at htarget
  obtain ⟨repository, hf, hw⟩ := updateRepository_ok h
  exact ⟨target, repository, (resolveTarget_ok (mapError_ok htarget)).2.1, hf, hw⟩

/-- An operation writes to another store. -/
structure Apart (repository repository' : ProjectRepository) : Prop where
  moved : repository'.moved = repository.moved
  refs : repository'.refs = repository.refs
  envelopes : repository'.envelopes = repository.envelopes

theorem Apart.keeps {repository : ProjectRepository} (h : Apart (w.repository projectId) repository) :
    Keeps w (w.setRepository projectId repository) :=
  .setRepository (.of_eq h.moved h.refs h.envelopes)

section
variable {repository repository' : ProjectRepository}

variable {decisions : AuthoritativeNativeDecisions} {reviewId reviewerId : String}

omit [ReviewText] in
theorem approve_apart {requestId approvedAt : String}
    (h : approveAuthoritativeNativeReview decisions reviewId reviewerId requestId approvedAt repository =
      .ok repository') : Apart repository repository' := by
  unfold approveAuthoritativeNativeReview at h
  split at h
  · cases h
    exact ⟨rfl, rfl, rfl⟩
  split at h
  · cases h
  split at h
  · cases h
  dsimp only at h
  split at h
  · split at h
    · cases h
      exact ⟨rfl, rfl, rfl⟩
    · cases h
  · obtain ⟨_, _, h⟩ := bind_ok.mp h
    cases h
    exact ⟨rfl, rfl, rfl⟩

variable {revokedAt : String}

omit [ReviewText] in
theorem revokeApproval_apart {approvalId : String}
    (h : revokeAuthoritativeNativeApproval decisions reviewId reviewerId approvalId revokedAt repository =
      .ok repository') : Apart repository repository' := by
  unfold revokeAuthoritativeNativeApproval at h
  split at h
  · cases h
  split at h
  · cases h
  split at h
  · cases h
    exact ⟨rfl, rfl, rfl⟩
  split at h
  · cases h
  · cases h
    exact ⟨rfl, rfl, rfl⟩

variable {current : Option CurrentAuthoritativeOrdinaryAttempt}

section
omit [Sha256] [ReviewText]

theorem issueAttempt_apart {attempts : List NativeJobAttemptIssuance} {issuance : NativeJobAttemptIssuance}
    (h : issueAttempt attempts current issuance repository = .ok repository') : Apart repository repository' := by
  unfold issueAttempt at h
  split at h
  · split at h
    · cases h
      exact ⟨rfl, rfl, rfl⟩
    · cases h
  · split at h
    · cases h
    · cases h
      exact ⟨rfl, rfl, rfl⟩

theorem revokeAttempt_apart {attemptId revocationRequestId revokedBy revocationId : String}
    (h : revokeAttempt current attemptId revocationRequestId revokedBy revocationId revokedAt repository =
      .ok repository') : Apart repository repository' := by
  unfold revokeAttempt at h
  split at h
  · cases h
  split at h
  · cases h
  split at h
  · split at h
    · cases h
      exact ⟨rfl, rfl, rfl⟩
    · cases h
  · cases h
    exact ⟨rfl, rfl, rfl⟩

theorem saveStatus_apart {event : NativeTerminalEvent} {reporterUsername statusId reportedAt : String}
    (h : saveStatus event reporterUsername statusId reportedAt repository = .ok repository') :
    Apart repository repository' := by
  unfold saveStatus at h
  split at h
  · split at h
    · cases h
      exact ⟨rfl, rfl, rfl⟩
    · cases h
  · cases h
    exact ⟨rfl, rfl, rfl⟩

end

/-- A review is stored under the digest of its fields. -/
theorem createReview_keeps {target : AuthoritativeNativeRootTarget} {evidence : AuthoritativeNativeGitReviewEvidence}
    {proposalRef workspaceId createdAt : String} {planning : AuthoritativeNativePlanning}
    {intent : Option NativeProjectRootPromotionTransition}
    (h : createAuthoritativeNativeReview runtime target evidence proposalRef workspaceId planning createdAt repository =
      .ok repository') : RepositoryKeeps intent repository repository' := by
  unfold createAuthoritativeNativeReview at h
  dsimp only at h
  split at h
  · cases h
    exact .refl _ _
  split at h
  · cases h
  · cases h
    refine ⟨rfl, fun _ _ => rfl, fun _ => rfl, List.subset_append_left _ _, fun envelope he => ?_⟩
    rcases List.mem_append.mp he with he | he
    · exact Or.inl he
    · rw [List.mem_singleton.mp he]
      exact Or.inr rfl

end

theorem Mutation.keeps {mutation : Mutation} (h : mutation.apply runtime w = .ok w') : Keeps w w' := by
  cases mutation with
  | activate generationId =>
    cases h
    exact ⟨rfl, rfl, rfl, fun _ hg => List.mem_insert_of_mem hg, rfl, fun _ => .refl _ _⟩
  | receive projectId workspaceId updates =>
    obtain ⟨_, repository, hnone, hf, rfl⟩ := updateTarget_ok h
    split at hf
    · rename_i hall
      cases hf
      refine .setRepository ⟨rfl, fun ref href => lookup_setRefs fun line hline hsame => ?_,
        fun hopen => absurd hnone hopen, List.Subset.refl _, fun _ he => Or.inl he⟩
      have haccepts := List.all_eq_true.mp hall line hline
      rw [← hsame, not_protected (hookAccepts_proposals haccepts)] at href
      cases href
    · cases hf
  | createReview projectId proposalRef planning createdAt =>
    obtain ⟨_, repository, _, hf, rfl⟩ := updateTarget_ok h
    obtain ⟨_, _, hf⟩ := bind_ok.mp hf
    split at hf
    · cases hf
    · exact .setRepository (createReview_keeps hf)
  | approve projectId reviewId reviewerId requestId approvedAt =>
    rw [Mutation.apply] at h
    obtain ⟨repository, hf, rfl⟩ := updateRepository_ok h
    obtain ⟨⟨_, staleReasons⟩, _, hf⟩ := bind_ok.mp hf
    dsimp only at hf
    split at hf
    · cases hf
    · obtain ⟨_, _, hf⟩ := bind_ok.mp hf
      exact (approve_apart hf).keeps
  | revokeApproval projectId reviewId reviewerId approvalId revokedAt =>
    rw [Mutation.apply] at h
    obtain ⟨repository, hf, rfl⟩ := updateRepository_ok h
    obtain ⟨_, _, hf⟩ := bind_ok.mp hf
    obtain ⟨_, _, hf⟩ := bind_ok.mp hf
    exact (revokeApproval_apart hf).keeps
  | issueOrdinary projectId reviewId jobName capacity configBlob script issuanceRequestId hostId capacityName
      descriptorDigest issuedBy attemptId issuedAt =>
    rw [Mutation.apply] at h
    obtain ⟨repository, hf, rfl⟩ := updateRepository_ok h
    obtain ⟨_, _, hf⟩ := bind_ok.mp hf
    dsimp only at hf
    split at hf
    · cases hf
    · obtain ⟨_, _, hf⟩ := bind_ok.mp hf
      obtain ⟨_, _, hf⟩ := bind_ok.mp hf
      exact (issueAttempt_apart hf).keeps
  | revokeOrdinary projectId reviewId jobName attemptId revocationRequestId revokedBy revocationId revokedAt =>
    obtain ⟨_, repository, _, hf, rfl⟩ := updateTarget_ok h
    obtain ⟨_, _, hf⟩ := bind_ok.mp hf
    exact (revokeAttempt_apart hf).keeps
  | reportOrdinary projectId reviewId event statusId reportedAt =>
    rw [Mutation.apply] at h
    obtain ⟨repository, hf, rfl⟩ := updateRepository_ok h
    dsimp only at hf
    split at hf
    · cases hf
    · obtain ⟨_, _, hf⟩ := bind_ok.mp hf
      exact (saveStatus_apart hf).keeps
  | issueQemu projectId reviewId jobName capacity configBlob script issuanceRequestId hostId capacityName
      descriptorDigest uuid issuedAt =>
    rw [Mutation.apply] at h
    obtain ⟨repository, hf, rfl⟩ := updateRepository_ok h
    obtain ⟨_, _, hf⟩ := bind_ok.mp hf
    obtain ⟨_, _, hf⟩ := bind_ok.mp hf
    cases hf
    exact Apart.keeps ⟨rfl, rfl, rfl⟩
  | revokeQemu projectId reviewId jobName attemptId revokedAt =>
    obtain ⟨_, repository, _, hf, rfl⟩ := updateTarget_ok h
    obtain ⟨_, _, hf⟩ := bind_ok.mp hf
    cases hf
    exact Apart.keeps ⟨rfl, rfl, rfl⟩
  | reportQemu projectId reviewId event =>
    obtain ⟨_, repository, _, hf, rfl⟩ := updateTarget_ok h
    obtain ⟨_, _, hf⟩ := bind_ok.mp hf
    cases hf
    exact Apart.keeps ⟨rfl, rfl, rfl⟩

end

end Dim.NativeGit
