/-
Approvals and their revocations over a run: every decision that is taken leaves a store that the next read accepts,
nothing that
was recorded goes away, and a request that was answered is answered alike again.
-/
import DimProofs.Lib.Run
import DimProofs.NativeGit.PromotionGate

namespace Dim.NativeGit

open Relational Ordinary RootCi Qemu Effectful

section
variable [Sha256]

/-- The approval that `approveAuthoritativeNativeReview` answers with. -/
def approvalAnswer (decisions : AuthoritativeNativeDecisions) (reviewId reviewerId requestId approvedAt : String) :
    AuthoritativeNativeApproval :=
  (decisions.approvals.find? fun approval => approval.reviewerId = reviewerId && approval.requestId = requestId).getD
    (createAuthoritativeNativeApproval reviewId reviewerId requestId approvedAt)

/-- The revocation that `revokeAuthoritativeNativeApproval` answers with: the stored one, or the one that is stored now. -/
def revocationAnswer (repository : ProjectRepository) (approvalId : String) : Option AuthoritativeNativeRevocation :=
  repository.revocations.find? (·.approvalId = approvalId)

variable [ReviewText] {runtime : NativeGitRuntime} {w w' : World}
  {projectId reviewId reviewerId requestId approvalId at' : String}

/-! ## What a decision changes -/

omit [ReviewText] in
theorem approve_cases {decisions : AuthoritativeNativeDecisions} {repository repository' : ProjectRepository}
    (h : approveAuthoritativeNativeReview decisions reviewId reviewerId requestId at' repository = .ok repository') :
    (repository' = repository ∧
      ((∃ approval ∈ decisions.approvals, approval.reviewerId = reviewerId ∧ approval.requestId = requestId) ∨
        createAuthoritativeNativeApproval reviewId reviewerId requestId at' ∈ repository.approvals.rows)) ∨
    ((∀ approval ∈ decisions.approvals, approval.reviewerId = reviewerId → approval.requestId ≠ requestId) ∧
      (∀ approval ∈ decisions.activeApprovals, approval.reviewerId ≠ reviewerId) ∧
      (∀ approval ∈ repository.approvals.rows,
        approval.approvalId ≠ (createAuthoritativeNativeApproval reviewId reviewerId requestId at').approvalId) ∧
      ∃ approvals, approvals.rows =
          repository.approvals.rows ++ [createAuthoritativeNativeApproval reviewId reviewerId requestId at'] ∧
        repository' = { repository with approvals }) := by
  unfold approveAuthoritativeNativeReview at h
  split at h
  · rename_i hreplay
    cases h
    obtain ⟨approval, hmem, hsame⟩ := List.any_eq_true.mp hreplay
    simp only [Bool.and_eq_true, decide_eq_true_eq] at hsame
    exact .inl ⟨rfl, .inl ⟨approval, hmem, hsame⟩⟩
  rename_i hfresh
  split at h
  · cases h
  rename_i hinactive
  split at h
  · cases h
  dsimp only at h
  split at h
  · rename_i published hpublished
    split at h
    · rename_i heq
      cases h
      exact .inl ⟨rfl, .inr (heq ▸ Table.get?_mem hpublished)⟩
    · cases h
  · rename_i hunknown
    obtain ⟨approvals, hinsert, h⟩ := bind_ok.mp h
    cases h
    refine .inr ⟨fun approval hmem hof hsame => hfresh ?_, fun approval hmem hof => hinactive ?_,
      Table.get?_eq_none.mp hunknown, approvals, Table.insert_rows hinsert, rfl⟩
    · exact List.any_eq_true.mpr ⟨approval, hmem, by simp [hof, hsame]⟩
    · exact List.any_eq_true.mpr ⟨approval, hmem, by simp [hof]⟩

omit [ReviewText] in
theorem revoke_cases {decisions : AuthoritativeNativeDecisions} {repository repository' : ProjectRepository}
    (h : revokeAuthoritativeNativeApproval decisions reviewId reviewerId approvalId at' repository = .ok repository') :
    (∃ approval ∈ decisions.approvals, approval.approvalId = approvalId ∧ approval.reviewerId = reviewerId) ∧
    (repository' = repository ∧ (∃ revocation ∈ repository.revocations, revocation.approvalId = approvalId) ∨
      (∀ revocation ∈ repository.revocations, revocation.approvalId ≠ approvalId) ∧
      ∃ revocationId, repository' = { repository with
        revocations := repository.revocations ++
          [{ revocationId, reviewId, reviewerId, approvalId, revokedAt := at' }] }) := by
  unfold revokeAuthoritativeNativeApproval at h
  split at h
  · cases h
  rename_i approval hfound
  split at h
  · cases h
  rename_i hreviewer
  have hid := List.find?_some hfound
  refine ⟨⟨approval, List.mem_of_find?_eq_some hfound, of_decide_eq_true hid, not_not.mp hreviewer⟩, ?_⟩
  split at h
  · rename_i hrevoked
    cases h
    obtain ⟨revocation, hmem, hsame⟩ := List.any_eq_true.mp hrevoked
    exact .inl ⟨rfl, revocation, hmem, of_decide_eq_true hsame⟩
  · rename_i hrevoked
    split at h
    · cases h
    · cases h
      exact .inr ⟨fun revocation hmem hsame => hrevoked (List.any_eq_true.mpr ⟨revocation, hmem, by simp [hsame]⟩), _, rfl⟩

/-! ## The two stores together -/

/-- No revocation names the approval. -/
def IsActive (repository : ProjectRepository) (approval : AuthoritativeNativeApproval) : Prop :=
  approval ∈ repository.approvals.rows ∧ ∀ revocation ∈ repository.revocations, revocation.approvalId ≠ approval.approvalId

/-- What holds of the two stores of a repository. -/
structure Decided (repository : ProjectRepository) : Prop where
  referenced : ∀ revocation ∈ repository.revocations, ∃ approval ∈ repository.approvals.rows,
    approval.approvalId = revocation.approvalId ∧ approval.reviewId = revocation.reviewId ∧
      approval.reviewerId = revocation.reviewerId
  once : (repository.revocations.map (·.approvalId)).Nodup
  single : ∀ a b, IsActive repository a → IsActive repository b → a.reviewId = b.reviewId →
    a.reviewerId = b.reviewerId → a = b
  requests : ∀ a ∈ repository.approvals.rows, ∀ b ∈ repository.approvals.rows, a.reviewId = b.reviewId →
    a.reviewerId = b.reviewerId → a.requestId = b.requestId → a = b

variable {repository repository' : ProjectRepository} {decisions : AuthoritativeNativeDecisions}

omit [Sha256] [ReviewText] in
theorem Decided.same_id {a b : AuthoritativeNativeApproval} (ha : a ∈ repository.approvals.rows)
    (hb : b ∈ repository.approvals.rows) (h : a.approvalId = b.approvalId) : a = b :=
  repository.approvals.eq_of_conflict ha hb (conflict_of_key h)

/-- The decisions of one review. -/
def reviewDecisions (repository : ProjectRepository) (reviewId : String) : AuthoritativeNativeDecisions where
  approvals := repository.approvals.rows.filter (·.reviewId = reviewId)
  revocations := repository.revocations.filter (·.reviewId = reviewId)
  activeApprovals := (repository.approvals.rows.filter (·.reviewId = reviewId)).filter fun approval =>
    !(repository.revocations.filter (·.reviewId = reviewId)).any fun revocation => revocation.approvalId =
      approval.approvalId

section
omit [Sha256] [ReviewText]

theorem Decided.mem_active (h : Decided repository) {approval : AuthoritativeNativeApproval} :
    approval ∈ (reviewDecisions repository reviewId).activeApprovals ↔ approval.reviewId = reviewId ∧
      IsActive repository approval := by
  simp only [reviewDecisions, List.mem_filter, Bool.not_eq_true', List.any_eq_false, decide_eq_true_eq, and_imp]
  constructor
  · rintro ⟨⟨hmem, hreview⟩, hactive⟩
    refine ⟨hreview, hmem, fun revocation hrevocation hsame => ?_⟩
    obtain ⟨other, hother, hid, hof, -⟩ := h.referenced revocation hrevocation
    obtain rfl := Decided.same_id hother hmem (hid.trans hsame)
    exact hactive revocation hrevocation (hof.symm.trans hreview) hsame
  · rintro ⟨hreview, hmem, hactive⟩
    exact ⟨⟨hmem, hreview⟩, fun revocation hrevocation _ => hactive revocation hrevocation⟩

theorem Decided.all_referenced (h : Decided repository) : (repository.revocations.all fun revocation =>
    repository.approvals.rows.any fun approval => approval.approvalId = revocation.approvalId
      && approval.reviewId = revocation.reviewId && approval.reviewerId = revocation.reviewerId) = true := by
  refine List.all_eq_true.mpr fun revocation hrevocation => ?_
  obtain ⟨approval, hmem, hid, hreview, hreviewer⟩ := h.referenced revocation hrevocation
  exact List.any_eq_true.mpr ⟨approval, hmem, by simp [hid, hreview, hreviewer]⟩

theorem Decided.active_nodup (h : Decided repository) (approvals : List AuthoritativeNativeApproval)
    (hactive : ∀ approval ∈ approvals, IsActive repository approval) (hnodup : approvals.Nodup) :
    (approvals.map fun approval : AuthoritativeNativeApproval => (approval.reviewId, approval.reviewerId)).Nodup :=
  hnodup.map_on fun a ha b hb heq => h.single a b (hactive a ha) (hactive b hb) (Prod.mk.inj heq).1 (Prod.mk.inj heq).2

/-- The decisions of every review are read. -/
theorem Decided.decisionsOf (h : Decided repository) (reviewId : String) :
    decisionsOf repository.approvals.rows repository.revocations (some reviewId) =
      .ok (reviewDecisions repository reviewId) := by
  have hnodup := h.active_nodup (reviewDecisions repository reviewId).activeApprovals
    (fun approval ha => (h.mem_active.mp ha).2) ((repository.approvals.nodup_rows.filter _).filter _)
  unfold NativeGit.decisionsOf
  rw [if_pos h.all_referenced]
  exact if_pos hnodup

theorem Decided.decisionsOfAll (h : Decided repository) :
    ∃ decisions, NativeGit.decisionsOf repository.approvals.rows repository.revocations none = .ok decisions := by
  have hnodup := h.active_nodup (repository.approvals.rows.filter fun approval =>
      !repository.revocations.any fun revocation => revocation.approvalId = approval.approvalId)
    (fun approval ha => by
      obtain ⟨hmem, hactive⟩ := List.mem_filter.mp ha
      rw [Bool.not_eq_true', List.any_eq_false] at hactive
      exact ⟨hmem, fun revocation hr hsame => hactive revocation hr (decide_eq_true hsame)⟩)
    (repository.approvals.nodup_rows.filter _)
  unfold NativeGit.decisionsOf
  simp only [if_pos h.all_referenced, Option.all_none, List.filter_true]
  exact ⟨_, if_pos hnodup⟩

end

/-! ## One decision after another -/

section
omit [ReviewText]

/-- An approval keeps the stores, and is answered with a stored record of its reviewer, review and request. -/
theorem Decided.approve (h : Decided repository)
    (ha : approveAuthoritativeNativeReview
      (reviewDecisions repository reviewId) reviewId reviewerId requestId at' repository = .ok repository') :
    Decided repository' ∧ repository.approvals.rows ⊆ repository'.approvals.rows ∧
      repository'.revocations = repository.revocations ∧ repository'.envelopes = repository.envelopes ∧
      (∀ approval ∈ repository'.approvals.rows, approval ∈ repository.approvals.rows ∨
        approval.reviewId = reviewId ∧ approval.reviewerId = reviewerId) ∧
      ∃ approval ∈ repository'.approvals.rows, approval.reviewId = reviewId ∧ approval.reviewerId = reviewerId ∧
        approval.requestId = requestId ∧
        approvalAnswer (reviewDecisions repository reviewId) reviewId reviewerId requestId at' = approval := by
  rcases approve_cases ha with ⟨rfl, hreplay⟩ | ⟨hfresh, hinactive, hids, approvals, hrows, rfl⟩
  · refine ⟨h, List.Subset.refl _, rfl, rfl, fun approval hmem => .inl hmem, ?_⟩
    unfold approvalAnswer
    cases hfind : (reviewDecisions repository' reviewId).approvals.find?
        fun approval => approval.reviewerId = reviewerId && approval.requestId = requestId with
    | some approval =>
      have hmem := List.mem_filter.mp (List.mem_of_find?_eq_some hfind)
      have hsame := List.find?_some hfind
      simp only [Bool.and_eq_true, decide_eq_true_eq] at hsame
      exact ⟨approval, hmem.1, of_decide_eq_true hmem.2, hsame.1, hsame.2, rfl⟩
    | none =>
      rcases hreplay with ⟨approval, hmem, hreviewer, hrequest⟩ | hstored
      · exact absurd (by simp [hreviewer, hrequest]) (List.find?_eq_none.mp hfind approval hmem)
      · exact ⟨_, hstored, rfl, rfl, rfl, rfl⟩
  · have hmem : ∀ {approval}, approval ∈ approvals.rows ↔ approval ∈ repository.approvals.rows ∨
        approval = createAuthoritativeNativeApproval reviewId reviewerId requestId at' := by
      intro approval
      rw [hrows, List.mem_append, List.mem_singleton]
    -- The new approval is not revoked, and its reviewer had no other active one for the review.
    have hactive : ∀ {approval}, IsActive { repository with approvals } approval → IsActive repository approval ∨
        approval = createAuthoritativeNativeApproval reviewId reviewerId requestId at' := fun hactive =>
      (hmem.mp hactive.1).imp_left fun hold => ⟨hold, hactive.2⟩
    have hother : ∀ {approval}, IsActive repository approval → approval.reviewId = reviewId →
      approval.reviewerId ≠ reviewerId :=
      fun hactive hreview => hinactive _ (h.mem_active.mpr ⟨hreview, hactive⟩)
    have hasked : ∀ {approval}, approval ∈ repository.approvals.rows → approval.reviewId = reviewId →
        approval.reviewerId = reviewerId → approval.requestId ≠ requestId := fun hold hreview hreviewer =>
      hfresh _ (List.mem_filter.mpr ⟨hold, decide_eq_true hreview⟩) hreviewer
    refine ⟨⟨fun revocation hr => ?_, h.once, fun a b ha hb hreview hreviewer => ?_,
      fun a ha b hb hreview hreviewer hrequest => ?_⟩,
      fun approval hold => hmem.mpr (.inl hold), rfl, rfl, fun approval hnew => (hmem.mp hnew).imp_right ?_,
      _, hmem.mpr (.inr rfl), rfl, rfl, rfl, ?_⟩
    · obtain ⟨approval, hold, hsame⟩ := h.referenced revocation hr
      exact ⟨approval, hmem.mpr (.inl hold), hsame⟩
    · rcases hactive ha with ha | rfl <;> rcases hactive hb with hb | rfl
      · exact h.single a b ha hb hreview hreviewer
      · exact absurd hreviewer (hother ha hreview)
      · exact absurd hreviewer.symm (hother hb hreview.symm)
      · rfl
    · rcases hmem.mp ha with ha | rfl <;> rcases hmem.mp hb with hb | rfl
      · exact h.requests a ha b hb hreview hreviewer hrequest
      · exact absurd hrequest (hasked ha hreview hreviewer)
      · exact absurd hrequest.symm (hasked hb hreview.symm hreviewer.symm)
      · rfl
    · rintro rfl
      exact ⟨rfl, rfl⟩
    · rw [approvalAnswer, List.find?_eq_none.mpr fun approval hold => ?_]
      · rfl
      · simpa using hfresh approval hold

/-- A revocation keeps the stores, and names a stored approval of its reviewer and review. -/
theorem Decided.revoke (h : Decided repository)
    (hr : revokeAuthoritativeNativeApproval
      (reviewDecisions repository reviewId) reviewId reviewerId approvalId at' repository = .ok repository') :
    Decided repository' ∧ repository'.approvals = repository.approvals ∧ repository.revocations ⊆ repository'.revocations ∧
      repository'.envelopes = repository.envelopes ∧
      (∃ approval ∈ repository.approvals.rows, approval.approvalId = approvalId ∧ approval.reviewId = reviewId ∧
        approval.reviewerId = reviewerId) := by
  obtain ⟨⟨approval, hmem, hid, hreviewer⟩, hcases⟩ := revoke_cases hr
  obtain ⟨hmem, hreview⟩ := List.mem_filter.mp hmem
  have hreview := of_decide_eq_true hreview
  have hnamed : ∃ approval ∈ repository.approvals.rows, approval.approvalId = approvalId ∧ approval.reviewId = reviewId ∧
      approval.reviewerId = reviewerId := ⟨approval, hmem, hid, hreview, hreviewer⟩
  rcases hcases with ⟨rfl, -⟩ | ⟨hfresh, revocationId, rfl⟩
  · exact ⟨h, rfl, List.Subset.refl _, rfl, hnamed⟩
  · refine ⟨⟨fun revocation hmem' => ?_, ?_, fun a b ha hb => ?_, h.requests⟩, rfl, List.subset_append_left _ _, rfl, hnamed⟩
    · rcases List.mem_append.mp hmem' with hold | hnew
      · exact h.referenced revocation hold
      · obtain rfl := List.mem_singleton.mp hnew
        exact ⟨approval, hmem, hid, hreview, hreviewer⟩
    · rw [List.map_append, List.nodup_append]
      refine ⟨h.once, List.nodup_singleton _, fun a ha b hb heq => ?_⟩
      obtain ⟨revocation, hold, rfl⟩ := List.mem_map.mp ha
      exact hfresh revocation hold (heq.trans (List.mem_singleton.mp hb))
    · exact h.single a b ⟨ha.1, fun revocation hold => ha.2 revocation (List.mem_append_left _ hold)⟩
        ⟨hb.1, fun revocation hold => hb.2 revocation (List.mem_append_left _ hold)⟩

/-- A request that was answered with an approval is answered with it again. -/
theorem Decided.approve_again (h : Decided repository) {approval : AuthoritativeNativeApproval}
    (ha : approval ∈ repository.approvals.rows) (at' : String) :
    approveAuthoritativeNativeReview (reviewDecisions repository approval.reviewId) approval.reviewId approval.reviewerId
        approval.requestId at' repository = .ok repository ∧
      approvalAnswer (reviewDecisions repository approval.reviewId) approval.reviewId approval.reviewerId
        approval.requestId at' = approval := by
  have hmem : approval ∈ (reviewDecisions repository approval.reviewId).approvals :=
    List.mem_filter.mpr ⟨ha, decide_eq_true rfl⟩
  constructor
  · unfold approveAuthoritativeNativeReview
    rw [if_pos (List.any_eq_true.mpr ⟨approval, hmem, by simp⟩)]
    rfl
  · unfold approvalAnswer
    cases hfind : (reviewDecisions repository approval.reviewId).approvals.find?
        fun other => other.reviewerId = approval.reviewerId && other.requestId = approval.requestId with
    | none => exact absurd (by simp) (List.find?_eq_none.mp hfind approval hmem)
    | some other =>
      have hother := List.mem_filter.mp (List.mem_of_find?_eq_some hfind)
      have hsame := List.find?_some hfind
      simp only [Bool.and_eq_true, decide_eq_true_eq] at hsame
      exact h.requests other hother.1 approval ha (of_decide_eq_true hother.2) hsame.1 hsame.2

theorem Decided.revoke_again (h : Decided repository) {revocation : AuthoritativeNativeRevocation}
    (hr : revocation ∈ repository.revocations) (at' : String) :
    revokeAuthoritativeNativeApproval (reviewDecisions repository revocation.reviewId) revocation.reviewId
      revocation.reviewerId
        revocation.approvalId at' repository = .ok repository ∧
      revocationAnswer repository revocation.approvalId = some revocation := by
  obtain ⟨approval, hmem, hid, hreview, hreviewer⟩ := h.referenced revocation hr
  constructor
  · unfold revokeAuthoritativeNativeApproval
    have hfind : (reviewDecisions repository revocation.reviewId).approvals.find? (·.approvalId = revocation.approvalId) =
        some approval := by
      cases hfind : (reviewDecisions repository revocation.reviewId).approvals.find?
        (·.approvalId = revocation.approvalId) with
      | none =>
        exact absurd (decide_eq_true hid)
          (List.find?_eq_none.mp hfind approval (List.mem_filter.mpr ⟨hmem, decide_eq_true hreview⟩))
      | some other =>
        have hother := (List.mem_filter.mp (List.mem_of_find?_eq_some hfind)).1
        have hsame := List.find?_some hfind
        rw [Decided.same_id hother hmem ((of_decide_eq_true hsame).trans hid.symm)]
    rw [hfind]
    dsimp only
    rw [if_neg (not_not.mpr hreviewer), if_pos (List.any_eq_true.mpr ⟨revocation, hr, by simp⟩)]
    rfl
  · unfold revocationAnswer
    cases hfind : repository.revocations.find? (·.approvalId = revocation.approvalId) with
    | none => exact absurd (by simp) (List.find?_eq_none.mp hfind revocation hr)
    | some other =>
      have hid := List.find?_some hfind
      rw [List.inj_on_of_nodup_map h.once (List.mem_of_find?_eq_some hfind) hr (of_decide_eq_true hid)]

end

/-! ## A run of decisions -/

omit [Sha256] [ReviewText] in
/-- A request for a review passes only for a reviewer that a stored review requires. -/
theorem inspectExactReview_ok {inspected : AuthoritativeNativeReviewEnvelope × List StaleReason}
    (h : readAt runtime (inspectExactReview projectId reviewId reviewerId) w = .ok inspected) :
    (readEnvelope runtime.localeCompare projectId reviewId w).any
      (·.review.requiredReviewerIds.contains reviewerId) = true := by
  unfold inspectExactReview at h
  obtain ⟨target, -, h⟩ := readAt_ok h
  obtain ⟨envelope, henvelope, h⟩ := readAt_ok h
  have hstored : readEnvelope runtime.localeCompare projectId reviewId w = some envelope := by
    unfold projectEnvelope at henvelope
    obtain ⟨found, hfound, henvelope⟩ := readAt_ok henvelope
    rw [readAt_query] at hfound
    have hfound := Except.ok.inj (mapError_ok hfound)
    cases found with
    | none => cases henvelope
    | some found =>
      dsimp only at henvelope
      split at henvelope
      · cases henvelope
      · cases henvelope
        exact hfound
  rw [hstored]
  dsimp only at h
  split at h
  · cases h
  · rename_i hrequired
    simpa using hrequired

omit [Sha256] [ReviewText] in
theorem readDecisions_ok {decisions : AuthoritativeNativeDecisions}
    (h : readAt runtime (readAuthoritativeNativeDecisions projectId reviewId) w = .ok decisions) :
    decisionsOf (w.repository projectId).approvals.rows (w.repository projectId).revocations (some reviewId) =
      .ok decisions := by
  unfold readAuthoritativeNativeDecisions at h
  obtain ⟨approvals, happrovals, h⟩ := readAt_ok h
  obtain ⟨revocations, hrevocations, h⟩ := readAt_ok h
  rw [readAt_query] at happrovals hrevocations
  have happrovals := mapError_ok happrovals
  have hrevocations := mapError_ok hrevocations
  simp only [Query.answer, readApprovals, readRevocations] at happrovals hrevocations
  split at happrovals
  on_goal 2 => cases happrovals
  split at hrevocations
  on_goal 2 => cases hrevocations
  cases happrovals
  cases hrevocations
  cases hdecisions : decisionsOf (w.repository projectId).approvals.rows (w.repository projectId).revocations
    (some reviewId) with
  | error error =>
    rw [hdecisions] at h
    cases h
  | ok found =>
    rw [hdecisions] at h
    cases h
    rfl

inductive DecisionRequest where
  | approve (reviewId reviewerId requestId approvedAt : String)
  | revoke (reviewId reviewerId approvalId revokedAt : String)

def DecisionRequest.mutation (projectId : String) : DecisionRequest → Mutation
  | .approve reviewId reviewerId requestId approvedAt => .approve projectId reviewId reviewerId requestId approvedAt
  | .revoke reviewId reviewerId approvalId revokedAt => .revokeApproval projectId reviewId reviewerId approvalId revokedAt

/-- A request for a decision is taken, or refused. -/
inductive Deciding (runtime : NativeGitRuntime) (projectId : String) (w : World) : World → Prop
  | taken {w' : World} (request : DecisionRequest)
      (h : (request.mutation projectId).apply runtime w = .ok w') : Deciding runtime projectId w w'
  | refused : Deciding runtime projectId w w

/-- A project without decisions. -/
def Undecided (projectId : String) (w : World) : Prop :=
  (w.repository projectId).approvals.rows = [] ∧ (w.repository projectId).revocations = []

/-- The stores of a project, whose reviews require every reviewer that approved. -/
structure DecidedAt (runtime : NativeGitRuntime) (projectId : String) (w : World) : Prop where
  decided : Decided (w.repository projectId)
  required : ∀ approval ∈ (w.repository projectId).approvals.rows,
    (readEnvelope runtime.localeCompare projectId approval.reviewId w).any
      (·.review.requiredReviewerIds.contains approval.reviewerId) = true

/-- A later state of the stores. -/
def Grown (projectId : String) (w w' : World) : Prop :=
  (w.repository projectId).approvals.rows ⊆ (w'.repository projectId).approvals.rows ∧
    (w.repository projectId).revocations ⊆ (w'.repository projectId).revocations

omit [Sha256] [ReviewText] in
theorem readEnvelope_setRepository (h : repository.envelopes = (w.repository projectId).envelopes) :
    readEnvelope runtime.localeCompare projectId reviewId (w.setRepository projectId repository) =
      readEnvelope runtime.localeCompare projectId reviewId w := by
  unfold readEnvelope
  rw [World.setRepository_self, h]

theorem DecidedAt.taken (h : DecidedAt runtime projectId w) {request : DecisionRequest}
    (happly : (request.mutation projectId).apply runtime w = .ok w') :
    DecidedAt runtime projectId w' ∧ Grown projectId w w' := by
  cases request with
  | approve reviewId reviewerId requestId approvedAt =>
    simp only [DecisionRequest.mutation, Mutation.apply] at happly
    obtain ⟨repository, hf, rfl⟩ := updateRepository_ok happly
    obtain ⟨⟨envelope, staleReasons⟩, hinspect, hf⟩ := bind_ok.mp hf
    split at hf
    · cases hf
    obtain ⟨decisions, hdecisions, hf⟩ := bind_ok.mp hf
    cases (h.decided.decisionsOf reviewId).symm.trans (readDecisions_ok hdecisions)
    obtain ⟨hdecided, hgrows, hrevocations, henvelopes, hnew, -⟩ := h.decided.approve hf
    refine ⟨⟨by rwa [World.setRepository_self], fun approval hmem => ?_⟩, ?_⟩
    · rw [World.setRepository_self] at hmem
      rw [readEnvelope_setRepository henvelopes]
      rcases hnew approval hmem with hold | ⟨hreview, hreviewer⟩
      · exact h.required approval hold
      · rw [hreview, hreviewer]
        exact inspectExactReview_ok hinspect
    · rw [Grown, World.setRepository_self]
      exact ⟨hgrows, hrevocations ▸ List.Subset.refl _⟩
  | revoke reviewId reviewerId approvalId revokedAt =>
    simp only [DecisionRequest.mutation, Mutation.apply] at happly
    obtain ⟨repository, hf, rfl⟩ := updateRepository_ok happly
    obtain ⟨_, -, hf⟩ := bind_ok.mp hf
    obtain ⟨decisions, hdecisions, hf⟩ := bind_ok.mp hf
    cases (h.decided.decisionsOf reviewId).symm.trans (readDecisions_ok hdecisions)
    obtain ⟨hdecided, happrovals, hrevocations, henvelopes, -⟩ := h.decided.revoke hf
    refine ⟨⟨by rwa [World.setRepository_self], fun approval hmem => ?_⟩, ?_⟩
    · rw [World.setRepository_self, happrovals] at hmem
      rw [readEnvelope_setRepository henvelopes]
      exact h.required approval hmem
    · rw [Grown, World.setRepository_self]
      exact ⟨happrovals ▸ List.Subset.refl _, hrevocations⟩

theorem DecidedAt.step (h : DecidedAt runtime projectId w) (hs : Deciding runtime projectId w w') :
    DecidedAt runtime projectId w' ∧ Grown projectId w w' := by
  cases hs with
  | taken request happly => exact h.taken happly
  | refused => exact ⟨h, List.Subset.refl _, List.Subset.refl _⟩

theorem DecidedAt.run (h : DecidedAt runtime projectId w) (hr : Relation.ReflTransGen (Deciding runtime projectId) w w') :
    DecidedAt runtime projectId w' ∧ Grown projectId w w' := by
  induction hr with
  | refl => exact ⟨h, List.Subset.refl _, List.Subset.refl _⟩
  | tail _ hstep ih =>
    obtain ⟨hdecided, happrovals, hrevocations⟩ := ih
    obtain ⟨hdecided', happrovals', hrevocations'⟩ := hdecided.step hstep
    exact ⟨hdecided', List.Subset.trans happrovals happrovals', List.Subset.trans hrevocations hrevocations'⟩

omit [Sha256] [ReviewText] in
theorem DecidedAt.undecided (h : Undecided projectId w) : DecidedAt runtime projectId w where
  decided := by
    constructor
    · rw [h.2]
      nofun
    · rw [h.2]
      exact List.nodup_nil
    · intro a b ha
      have hmem := ha.1
      rw [h.1] at hmem
      cases hmem
    · rw [h.1]
      nofun
  required := by
    rw [h.1]
    nofun

/-- In every run of approvals and revocations of a project: the stores are read, for every review and for all together;
a reviewer
has at most one active approval of a review; what was recorded stays, and what was revoked stays so; an approval or a
revocation
that is asked for again is answered with the stored record and changes nothing; an approval is answered with a record of
the request's
own reviewer, review and id; and an approval is revoked for its own reviewer and review only. -/
theorem decisions_kept (h : Transition.Reachable (Undecided projectId) (Deciding runtime projectId) w) :
    let repository := w.repository projectId
    readApprovals runtime.localeCompare projectId w = .ok repository.approvals.rows
    ∧ readRevocations projectId w = .ok repository.revocations
    ∧ (∀ reviewId, decisionsOf repository.approvals.rows repository.revocations (some reviewId) =
      .ok (reviewDecisions repository reviewId))
    ∧ (∃ decisions, decisionsOf repository.approvals.rows repository.revocations none = .ok decisions)
    ∧ (∀ a b, IsActive repository a → IsActive repository b → a.reviewId = b.reviewId → a.reviewerId = b.reviewerId → a = b)
    ∧ (∀ w', Relation.ReflTransGen (Deciding runtime projectId) w w' → Grown projectId w w' ∧
        ∀ approval ∈ repository.approvals.rows, ¬ IsActive repository approval →
          ¬ IsActive (w'.repository projectId) approval)
    ∧ (∀ approval ∈ repository.approvals.rows, ∀ at',
        approveAuthoritativeNativeReview (reviewDecisions repository approval.reviewId) approval.reviewId approval.reviewerId
          approval.requestId at' repository = .ok repository ∧
        approvalAnswer (reviewDecisions repository approval.reviewId) approval.reviewId approval.reviewerId
          approval.requestId at' = approval)
    ∧ (∀ revocation ∈ repository.revocations, ∀ at',
        revokeAuthoritativeNativeApproval
          (reviewDecisions repository revocation.reviewId) revocation.reviewId revocation.reviewerId
          revocation.approvalId at' repository = .ok repository ∧
        revocationAnswer repository revocation.approvalId = some revocation)
    ∧ (∀ reviewId reviewerId requestId at' repository',
        approveAuthoritativeNativeReview (reviewDecisions repository reviewId) reviewId reviewerId requestId at' repository =
          .ok repository' →
        ∃ approval ∈ repository'.approvals.rows, approval.reviewId = reviewId ∧ approval.reviewerId = reviewerId ∧
          approval.requestId = requestId ∧
          approvalAnswer (reviewDecisions repository reviewId) reviewId reviewerId requestId at' = approval)
    ∧ (∀ reviewId reviewerId approvalId at' repository',
        revokeAuthoritativeNativeApproval
          (reviewDecisions repository reviewId) reviewId reviewerId approvalId at' repository =
          .ok repository' →
        ∃ approval ∈ repository.approvals.rows, approval.approvalId = approvalId ∧ approval.reviewId = reviewId ∧
          approval.reviewerId = reviewerId) := by
  have hw : DecidedAt runtime projectId w :=
    Transition.Reachable.invariant (fun _ => .undecided) (fun _ _ hd hs => (hd.step hs).1) h
  have hd := hw.decided
  refine ⟨if_pos (List.all_eq_true.mpr hw.required), if_pos hd.once, hd.decisionsOf, hd.decisionsOfAll, hd.single,
    fun w' hr => ?_, fun approval ha at' => hd.approve_again ha at', fun revocation hr at' => hd.revoke_again hr at',
    fun _ _ _ _ _ ha => (hd.approve ha).2.2.2.2.2, fun _ _ _ _ _ hr => (hd.revoke hr).2.2.2.2⟩
  obtain ⟨-, hgrown⟩ := hw.run hr
  exact ⟨hgrown, fun approval hmem hrevoked hactive =>
    hrevoked ⟨hmem, fun revocation hold => hactive.2 revocation (hgrown.2 hold)⟩⟩

end

namespace PromotionSample

section

@[reducible] def plain : Sha256 := ⟨fun text => text⟩

attribute [local instance] plain

/-- One reviewer approves two reviews under one request id. -/
def approvedTwice : Except Failure (List String) := do
  let first ← approveAuthoritativeNativeReview (reviewDecisions empty "a") "a" "reviewer" "request" "2024" empty
  let second ← approveAuthoritativeNativeReview (reviewDecisions first "b") "b" "reviewer" "request" "2024" first
  return second.approvals.rows.map (·.requestId)

/-- A request id that was used for one review is taken for another one. -/
theorem request_reused : approvedTwice = .ok ["request", "request"] := by decide +kernel

end

attribute [local instance] sha256 text

/-- A commit is proposed and reviewed. -/
def reviewed : World := (server runtime).after (reply runtime) ((operations "next").take 3) world

def approval : DecisionRequest := .approve "digest" "reviewer" "request" "2024"

def revocation : DecisionRequest := .revoke "digest" "reviewer" "digest" "2025"

/-- The review is approved, and the approval is revoked. -/
def decided : Option World :=
  ((approval.mutation "project").apply runtime reviewed).toOption.bind fun w =>
    ((revocation.mutation "project").apply runtime w).toOption

theorem reviewed_undecided : Undecided "project" reviewed := by constructor <;> decide +kernel

theorem decided_stores :
    decided.map (fun w => ((w.repository "project").approvals.rows.map fun a => (a.requestId, a.approvalId),
    (w.repository "project").revocations.map (·.approvalId))) =
      some ([("request", "digest")], ["digest"]) := by decide +kernel

/-- The approval stays recorded, and revoked. -/
theorem decisions_kept_revoked : ∃ w, ∃ a ∈ (w.repository "project").approvals.rows, a.requestId = "request" ∧
    ∀ w', Relation.ReflTransGen (Deciding runtime "project") w w' →
      a ∈ (w'.repository "project").approvals.rows ∧ ¬ IsActive (w'.repository "project") a := by
  obtain ⟨w, hdecided, hstores⟩ := Option.map_eq_some_iff.mp decided_stores
  obtain ⟨w₁, happroved, hrevoked⟩ := Option.bind_eq_some_iff.mp hdecided
  have hreached : Transition.Reachable (Undecided "project") (Deciding runtime "project") w :=
    .step (.step (.init reviewed_undecided) (.taken approval (ok_of_toOption happroved)))
      (.taken revocation (ok_of_toOption hrevoked))
  obtain ⟨hrows, hrevocations⟩ := Prod.mk.inj hstores
  obtain ⟨a, ha, hkeys⟩ := List.mem_map.mp (hrows ▸ List.mem_singleton_self (_, _))
  obtain ⟨r, hr, hid⟩ := List.mem_map.mp (hrevocations ▸ List.mem_singleton_self _)
  have hinactive : ¬ IsActive (w.repository "project") a :=
    fun hactive => hactive.2 r hr (hid.trans (Prod.mk.inj hkeys).2.symm)
  refine ⟨w, a, ha, (Prod.mk.inj hkeys).1, fun w' hw' => ?_⟩
  obtain ⟨hgrown, hstays⟩ := (decisions_kept hreached).2.2.2.2.2.1 w' hw'
  exact ⟨hgrown.1 ha, hstays a ha hinactive⟩

end PromotionSample

end Dim.NativeGit
