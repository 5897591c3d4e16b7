/-
What a program that only reads knows of the state it ran in. While the server serves, nothing happens between
the calls of an operation: a read answers from the state that the operation began in, and the checks made of
several reads are checks of that one state.
-/
import DimProofs.NativeGit.PromotionSteps

namespace Dim.NativeGit

open Relational Ordinary RootCi Qemu Effectful

/-! ## The contract of the server -/

/-- A reviewer has approved a review, and no revocation names the approval. -/
structure ApprovedBy (repository : ProjectRepository) (reviewId reviewerId : String)
    (approval : AuthoritativeNativeApproval) : Prop where
  recorded : approval ∈ repository.approvals.rows
  review : approval.reviewId = reviewId
  reviewer : approval.reviewerId = reviewerId
  unrevoked : ∀ revocation ∈ repository.revocations, revocation.approvalId ≠ approval.approvalId

/-- The latest attempt of an ordinary job is not revoked, and its status is a success. -/
structure OrdinarySucceeded (repository : ProjectRepository) (reviewId jobName : String)
    (attempt : NativeJobAttemptIssuance) (status : AuthoritativeOrdinaryStatus) : Prop where
  recorded : attempt ∈ repository.attempts
  review : attempt.reviewId = reviewId
  job : attempt.descriptor.jobName = jobName
  latest : ∀ other ∈ repository.attempts, other.reviewId = reviewId → other.descriptor.jobName = jobName →
    other.attempt ≤ attempt.attempt
  unrevoked : ∀ revocation ∈ repository.attemptRevocations, revocation.reviewId = reviewId →
    revocation.jobName = jobName → revocation.attempt ≠ attempt.attempt
  reported : status ∈ repository.statuses
  attemptId : status.event.payload.attemptId = attempt.attemptId
  descriptor : status.event.payload.descriptor = attempt.descriptor
  success : status.event.payload.result = .success
  exited : status.event.payload.completion = .exited 0

/-- The attempt of a QEMU job that is not revoked has the status of a success. -/
structure QemuSucceeded (state : NativeQemuAuthorityState) (reviewId jobName : String)
    (attempt : NativeQemuAttemptRecord) (status : NativeQemuStatusRecord) : Prop where
  recorded : attempt ∈ state.attempts.rows
  review : attempt.reviewId = reviewId
  job : attempt.descriptor.jobName = jobName
  unrevoked : attempt.revokedAt = none
  reported : status ∈ state.statuses.rows
  attemptId : status.attemptId = attempt.attemptId
  success : status.result = .success

def Passed (repository : ProjectRepository) (reviewId : String) (required : NativeRootCiRequiredJob) : Prop :=
  match required.kind with
  | .ordinarySysbox => ∃ attempt status, OrdinarySucceeded repository reviewId required.name attempt status
  | .qemu => ∃ attempt status, QemuSucceeded repository.qemu reviewId required.name attempt status

section
variable (runtime : NativeGitRuntime)

/-- A review that is what Git and the policy say of its refs. -/
structure FreshReview (w : World) (projectId : String) (imported : NativeProjectRootImport)
    (head : NativeProjectRootCurrentHead) (review : AuthoritativeNativeReview) : Prop where
  project : review.projectId = projectId
  protectedRef : review.protectedRef = imported.protectedRef
  expected : review.expectedProtectedHead = head.commit
  protectedHead : (w.refs projectId).lookup imported.protectedRef = some review.expectedProtectedHead
  proposal : (w.refs projectId).lookup review.proposalRef = some review.candidateCommit
  tree : runtime.git.tree review.candidateCommit = some review.candidateTree
  workspace : workspaceOf review.proposalRef = some review.workspaceId
  reviewers : review.requiredReviewerIds =
    requiredReviewers imported.policy (runtime.git.changes review.expectedProtectedHead review.candidateCommit)

/-- What is asked of the state in which a promotion moves the protected ref. -/
structure GateOf (w : World) (projectId reviewId : String) (update : RefUpdate) (imported : NativeProjectRootImport)
    (head : NativeProjectRootCurrentHead) (envelope : AuthoritativeNativeReviewEnvelope) : Prop where
  root : w.db.imports.get? projectId = some imported
  folded : foldCurrentHead runtime.localeCompare imported (w.db.transitionsOf projectId) w.db.generations = .ok head
  stored : envelope ∈ (w.repository projectId).envelopes
  review : envelope.review.reviewId = reviewId
  update : update = reviewUpdate projectId envelope.review
  fresh : FreshReview runtime w projectId imported head envelope.review
  descends : runtime.git.isAncestor envelope.review.expectedProtectedHead envelope.review.candidateCommit = true
  approved : ∀ reviewerId ∈ envelope.review.requiredReviewerIds,
    ∃ approval, ApprovedBy (w.repository projectId) reviewId reviewerId approval
  passed : ∀ required ∈ imported.policy.requiredJobs, Passed (w.repository projectId) reviewId required

def Gate (w : World) (projectId reviewId : String) (update : RefUpdate) : Prop :=
  ∃ imported head envelope, GateOf runtime w projectId reviewId update imported head envelope

variable [Sha256] [ReviewText]

/-- At any time `Inv`, after a start no open intent, and only promotions through the gate move a ref. -/
def contract : Service.Contract World ServerCall Operation where
  down := Inv runtime
  booted w := Inv runtime w ∧ w.db.intents.rows = []
  serving := Calm runtime
  may operation call w := match call with
    | .promote update => ∃ generationId projectId reviewId,
        operation = .promote generationId projectId reviewId ∧ Gate runtime w projectId reviewId update
    | _ => True

/-- A program of an operation that runs from a state and ends as `Q` says. -/
abbrev Serves {α : Type} (operation : Operation) (p : Prog α) (Q : α → World → Prop) (w : World) : Prop :=
  Guards (server runtime).performs ((server runtime).RunAllows (contract runtime) operation) p Q w

/-- A program that only reads, and returns as `P` says. -/
def Observes {α : Type} (w : World) (p : Prog α) (P : α → Prop) : Prop :=
  ∀ operation, Serves runtime operation p (fun a w' => w' = w ∧ P a) w

end

section
variable [Sha256] [ReviewText] {runtime : NativeGitRuntime} {w w' : World} {projectId reviewId jobName : String}
  {α β : Type}

theorem Observes.pure {P : α → Prop} {value : α} (h : P value) : Observes runtime w (pure value : Prog α) P :=
  fun _ => ⟨rfl, h⟩

theorem Observes.throw {P : α → Prop} {failure : Failure} : Observes runtime w (throw failure : Prog α) P :=
  fun _ => trivial

variable {P : α → Prop} {f : α → Prog β} {p : Prog α}

theorem Observes.bind {Q : β → Prop} (hp : Observes runtime w p P)
    (hf : ∀ a, P a → Observes runtime w (f a) Q) : Observes runtime w (p >>= f) Q := by
  intro operation
  refine (hp operation).andThen ?_
  rintro a _ ⟨rfl, ha⟩
  exact hf a ha operation

theorem Observes.mono {Q : α → Prop} (hp : Observes runtime w p P) (h : ∀ a, P a → Q a) :
    Observes runtime w p Q :=
  fun operation => (hp operation).mono fun _ _ ha => ⟨ha.1, h _ ha.2⟩

/-- The part of an operation that only reads, before the rest. -/
theorem Observes.serves {operation : Operation} {Q : β → World → Prop}
    (hp : Observes runtime w p P) (hf : ∀ a, P a → Serves runtime operation (f a) Q w) :
    Serves runtime operation (p >>= f) Q w := by
  refine (hp operation).andThen ?_
  rintro a _ ⟨rfl, ha⟩
  exact hf a ha

/-- A call that changes nothing, and that is no promotion. -/
theorem observes_call (hw : Calm runtime w) {call : ServerCall} {P : call.Answer → Prop}
    (hmay : ∀ operation, (contract runtime).may operation call w) (hcuts : ∀ w', Cuts runtime w call w' → w' = w)
    (hanswers : ∀ a w', Answers runtime w call a w' → w' = w ∧ P a) :
    Observes runtime w (Program.effect call : Prog call.Answer) P := by
  intro operation
  refine ⟨⟨hmay operation, ?_, ?_⟩, ?_⟩
  · rintro w' ⟨w₁, hd, hc⟩
    rw [hw.drift hd] at hc
    rw [hcuts w' hc]
    exact hw.toInv
  · rintro a w' ⟨w₁, hd, ha⟩
    rw [hw.drift hd] at ha
    rw [(hanswers a w' ha).1]
    exact hw
  · rintro a w' ⟨w₁, hd, ha⟩
    rw [hw.drift hd] at ha
    exact hanswers a w' ha

theorem observes_answered {answer : Except ReadError α} (h : ∀ value, answer = .ok value → P value) :
    Observes runtime w (answered answer) P := by
  cases answer with
  | error _ => exact .throw
  | ok value => exact .pure (h value rfl)

/-- A read answers from the state, or fails. -/
theorem observes_read (hw : Calm runtime w) (q : Query) : Observes runtime w (Program.effect (ServerCall.read q) : Prog _)
    fun answer => answer = q.answer runtime w ∨ ∃ error, answer = .error error :=
  observes_call hw (fun _ => trivial) (fun _ h => h) fun _ _ h => h

theorem observes_query (hw : Calm runtime w) (q : Query) :
    Observes runtime w (query q) fun value => q.answer runtime w = .ok value := by
  refine (observes_read hw q).bind fun answer hanswer => observes_answered fun value hvalue => ?_
  rcases hanswer with rfl | ⟨error, rfl⟩
  · exact hvalue
  · cases hvalue

theorem observes_attempt (hw : Calm runtime w) (q : Query) :
    Observes runtime w (attempt q) fun found => ∀ value, found = some value → q.answer runtime w = .ok value := by
  refine (observes_read hw q).bind fun answer hanswer => .pure fun value hvalue => ?_
  rcases hanswer with rfl | ⟨error, rfl⟩
  · cases hq : q.answer runtime w with
    | error _ =>
      rw [hq] at hvalue
      cases hvalue
    | ok found =>
      rw [hq] at hvalue
      cases hvalue
      rfl
  · cases hvalue

theorem observes_projectEnvelope (hw : Calm runtime w) (missing : Failure) :
    Observes runtime w (projectEnvelope missing projectId reviewId) fun envelope =>
      readEnvelope runtime.localeCompare projectId reviewId w = some envelope ∧
        envelope.review.projectId = projectId := by
  unfold projectEnvelope
  refine (observes_query hw _).bind fun found hfound => ?_
  cases found with
  | none => exact .throw
  | some envelope =>
    dsimp only
    split
    · exact .throw
    · rename_i hproject
      exact .pure ⟨Except.ok.inj hfound, not_not.mp hproject⟩

/-! ## Freshness -/

variable {proposalRef protectedRef : String} {refs : NativeReviewRefs}

section
omit [Sha256] [ReviewText]

theorem readReviewRefs_ok (h : readReviewRefs runtime.git projectId protectedRef proposalRef w = .ok refs) :
    (w.refs projectId).lookup protectedRef = some refs.protectedHead ∧
      (w.refs projectId).lookup proposalRef = some refs.candidateCommit ∧
        runtime.git.tree refs.candidateCommit = some refs.candidateTree := by
  unfold readReviewRefs at h
  split at h
  · rename_i hprotected hproposal
    split at h
    · rename_i htree
      cases h
      exact ⟨hprotected, hproposal, htree⟩
    · cases h
  · cases h

theorem inspectReview_ok {expected : String} {evidence : AuthoritativeNativeGitReviewEvidence}
    (h : inspectReview runtime.git projectId protectedRef expected proposalRef w = .ok evidence) :
    evidence.expectedProtectedHead = expected ∧ ∃ refs : NativeReviewRefs,
      readReviewRefs runtime.git projectId protectedRef proposalRef w = .ok refs ∧ refs.protectedHead = expected ∧
        evidence.changes = runtime.git.changes refs.protectedHead refs.candidateCommit := by
  obtain ⟨refs, hrefs, h⟩ := bind_ok.mp h
  dsimp only at h
  split at h
  · cases h
  rename_i hhead
  split at h
  · cases h
  split at h
  · cases h
  · cases h
    exact ⟨not_not.mp hhead, refs, hrefs, not_not.mp hhead, rfl⟩

theorem refReasons_nil {protectedHead candidateCommit candidateTree : String}
    (h : refReasons refs protectedHead candidateCommit candidateTree = []) : refs.protectedHead = protectedHead ∧
      refs.candidateCommit = candidateCommit ∧ refs.candidateTree = candidateTree := by
  unfold refReasons at h
  simp only [List.append_eq_nil_iff] at h
  obtain ⟨⟨hhead, hcommit⟩, htree⟩ := h
  refine ⟨?_, ?_, ?_⟩
  · by_contra hne
    rw [if_pos hne] at hhead
    cases hhead
  · by_contra hne
    rw [if_pos hne] at hcommit
    cases hcommit
  · by_contra hne
    rw [if_pos hne] at htree
    cases htree

end

variable {target : AuthoritativeNativeRootTarget}

omit [Sha256] [ReviewText] in
theorem policyReasons_nil {review : AuthoritativeNativeReview}
    (h : policyReasons target review = []) : review.expectedProtectedHead = target.currentHead.commit := by
  unfold policyReasons at h
  rw [List.append_eq_nil_iff] at h
  by_contra hne
  rw [if_pos hne] at h
  cases h.2

omit [Sha256] [ReviewText] in
theorem eraseDups_nil {reasons : List StaleReason} (h : reasons.eraseDups = []) : reasons = [] := by
  cases reasons with
  | nil => rfl
  | cons reason reasons =>
    rw [List.eraseDups_cons] at h
    cases h

/-- A resolved root, as the reads of an operation see it. -/
structure Resolved (runtime : NativeGitRuntime) (w : World) (projectId : String)
    (target : AuthoritativeNativeRootTarget) : Prop where
  root : w.db.imports.get? projectId = some target.imported
  key : target.imported.projectId = projectId
  none : w.db.intentOf projectId = none
  folded : foldCurrentHead runtime.localeCompare target.imported (w.db.transitionsOf projectId) w.db.generations =
    .ok target.currentHead
  protectedRef : target.currentHead.protectedRef = target.imported.protectedRef

omit [Sha256] [ReviewText] in
theorem foldTransitions_protectedRef {localeCompare : String → String → Ordering} {imported : NativeProjectRootImport}
    {generations : List String} {head : NativeProjectRootCurrentHead} :
    ∀ {transitions : List NativeProjectRootPromotionTransition} {current : NativeProjectRootCurrentHead},
      foldTransitions localeCompare imported generations current transitions = .ok head →
        head.protectedRef = current.protectedRef
  | [], _, h => by
    cases h
    rfl
  | _ :: _, _, h => by
    rw [foldTransitions_cons] at h
    have hrest := foldTransitions_protectedRef h.2
    exact hrest

theorem observes_target (hw : Calm runtime w) :
    Observes runtime w (query (.target projectId)) (Resolved runtime w projectId) := by
  refine (observes_query hw _).mono fun target htarget => ?_
  obtain ⟨hroot, hnone, hfolded, _⟩ := resolveTarget_ok htarget
  obtain ⟨initial, hinitial, hfold⟩ := foldCurrentHead_ok.mp hfolded
  refine ⟨hroot, Table.get?_key hroot, hnone, hfolded, ?_⟩
  rw [foldTransitions_protectedRef hfold, initialHead_ok hinitial]

theorem observes_staleReasons (hw : Calm runtime w)
    (ht : Resolved runtime w projectId target) (review : AuthoritativeNativeReview) :
    Observes runtime w (nativeHumanReviewStaleReasons target review) fun reasons =>
      reasons = [] → FreshReview runtime w projectId target.imported target.currentHead review := by
  unfold nativeHumanReviewStaleReasons
  dsimp only
  rw [ht.key, ht.protectedRef]
  refine (observes_attempt hw _).bind fun refs hrefs => ?_
  cases refs with
  | none => exact .pure fun h => absurd (eraseDups_nil h) (by simp)
  | some refs =>
    dsimp only
    split
    · rename_i hreasons
      exact .pure fun h => absurd (eraseDups_nil h) hreasons
    rename_i hreasons
    rw [not_not, List.append_eq_nil_iff] at hreasons
    obtain ⟨hpolicy, hrefReasons⟩ := hreasons
    obtain ⟨hhead, hcommit, htree⟩ := refReasons_nil hrefReasons
    obtain ⟨hprotected, hproposal, hcandidate⟩ := readReviewRefs_ok (hrefs refs rfl)
    refine (observes_attempt hw _).bind fun evidence hevidence => ?_
    cases evidence with
    | none => exact .pure nofun
    | some evidence =>
      dsimp only
      split
      · rename_i workspaceId hworkspace
        refine (observes_attempt hw _).bind fun current hcurrent => ?_
        cases current with
        | none => exact .pure fun h => absurd (eraseDups_nil h) (by simp)
        | some current =>
          refine .pure fun h => ?_
          obtain ⟨hidentity, _⟩ := List.append_eq_nil_iff.mp (eraseDups_nil h)
          have hholds : reviewIdentityHolds target review evidence workspaceId = true := by
            by_contra hne
            rw [if_neg hne] at hidentity
            cases hidentity
          simp only [reviewIdentityHolds, Bool.and_eq_true, decide_eq_true_eq] at hholds
          obtain ⟨⟨⟨⟨⟨hproject, href⟩, hid⟩, _⟩, hchanges⟩, hreviewers⟩ := hholds
          obtain ⟨_, refs', hrefs', hhead', hchanges'⟩ := inspectReview_ok (hevidence evidence rfl)
          have hsame : refs' = refs := Except.ok.inj (hrefs'.symm.trans (hrefs refs rfl))
          refine ⟨hproject.trans ht.key, href.trans target.imported.parsed.1, policyReasons_nil hpolicy, ?_, ?_, ?_, ?_, ?_⟩
          · rw [← hhead]
            exact hprotected
          · rw [← hcommit]
            exact hproposal
          · rw [← hcommit, ← htree]
            exact hcandidate
          · rw [hid]
            exact hworkspace
          · rw [hreviewers, hchanges', hsame, hhead, hcommit]
      · exact .pure nofun

end

end Dim.NativeGit
