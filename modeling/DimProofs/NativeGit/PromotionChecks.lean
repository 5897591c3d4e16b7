/-
What the checks of a promotion establish of the state they are made in: the decisions, the evidence of the
required jobs, and the transition that they end with.
-/
import DimProofs.NativeGit.Observing

namespace Dim.NativeGit

open Relational Ordinary RootCi Qemu Effectful

section
variable [Sha256] [ReviewText] {runtime : NativeGitRuntime} {w : World} {projectId reviewId jobName : String}

/-! ## Reviews and decisions -/

variable {envelope : AuthoritativeNativeReviewEnvelope}

omit [Sha256] [ReviewText] in
theorem readEnvelope_mem (h : readEnvelope runtime.localeCompare projectId reviewId w = some envelope) :
    envelope ∈ (w.repository projectId).envelopes ∧ envelope.review.reviewId = reviewId := by
  unfold readEnvelope at h
  have hmem := List.mem_of_mem_head? h
  rw [List.mem_insertionSort, List.mem_insertionSort, List.mem_filter, decide_eq_true_eq] at hmem
  exact hmem

omit [Sha256] [ReviewText] in
theorem decisionsOf_active {approvals : List AuthoritativeNativeApproval}
    {revocations : List AuthoritativeNativeRevocation} {decisions : AuthoritativeNativeDecisions}
    (h : decisionsOf approvals revocations (some reviewId) = .ok decisions) :
    (∀ revocation ∈ revocations, ∃ approval ∈ approvals,
      approval.approvalId = revocation.approvalId ∧ approval.reviewId = revocation.reviewId) ∧
      ∀ approval ∈ decisions.activeApprovals, approval ∈ approvals ∧ approval.reviewId = reviewId ∧
        ∀ revocation ∈ revocations, revocation.reviewId = reviewId → revocation.approvalId ≠ approval.approvalId := by
  unfold decisionsOf at h
  split at h
  on_goal 2 => cases h
  rename_i hall
  dsimp only at h
  split at h
  on_goal 2 => cases h
  cases h
  constructor
  · intro revocation hrevocation
    have hany := List.all_eq_true.mp hall revocation hrevocation
    obtain ⟨approval, happroval, hsame⟩ := List.any_eq_true.mp hany
    simp only [Bool.and_eq_true, decide_eq_true_eq] at hsame
    exact ⟨approval, happroval, hsame.1⟩
  · intro approval happroval
    obtain ⟨hreview, hactive⟩ := List.mem_filter.mp happroval
    obtain ⟨hmem, hid⟩ := List.mem_filter.mp hreview
    refine ⟨hmem, of_decide_eq_true hid, fun revocation hrevocation hof hsame => ?_⟩
    rw [Bool.not_eq_true', List.any_eq_false] at hactive
    exact hactive revocation (List.mem_filter.mpr ⟨hrevocation, decide_eq_true hof⟩) (decide_eq_true hsame)

theorem observes_decisions (hw : Calm runtime w) :
    Observes runtime w (readAuthoritativeNativeDecisions projectId reviewId) fun decisions =>
      ∀ approval ∈ decisions.activeApprovals,
        ApprovedBy (w.repository projectId) reviewId approval.reviewerId approval := by
  unfold readAuthoritativeNativeDecisions
  refine (observes_query hw _).bind fun approvals happrovals => ?_
  refine (observes_query hw _).bind fun revocations hrevocations => ?_
  refine observes_answered fun decisions hdecisions approval hactive => ?_
  have hstored : approvals = (w.repository projectId).approvals.rows := by
    simp only [Query.answer, readApprovals] at happrovals
    split at happrovals
    · exact (Except.ok.inj happrovals).symm
    · cases happrovals
  have hrevoked : revocations = (w.repository projectId).revocations := by
    simp only [Query.answer, readRevocations] at hrevocations
    split at hrevocations
    · exact (Except.ok.inj hrevocations).symm
    · cases hrevocations
  subst hstored hrevoked
  obtain ⟨hreferences, hactives⟩ := decisionsOf_active hdecisions
  obtain ⟨hmem, hreview, hunrevoked⟩ := hactives approval hactive
  refine ⟨hmem, hreview, rfl, fun revocation hrevocation hsame => ?_⟩
  -- A revocation names an approval by its id, and the ids of approvals are unique.
  obtain ⟨named, hnamed, hid, hof⟩ := hreferences revocation hrevocation
  have heq : named = approval := Table.eq_of_conflict _ hnamed hmem (conflict_of_key (hid.trans hsame))
  subst heq
  exact hunrevoked revocation hrevocation (hof.symm.trans hreview) hsame

/-! ## Ordinary jobs -/

/-- The attempt that the store calls current. -/
structure LatestAttempt (repository : ProjectRepository) (reviewId jobName : String)
    (current : CurrentAuthoritativeOrdinaryAttempt) : Prop where
  recorded : current.attempt ∈ repository.attempts
  review : current.attempt.reviewId = reviewId
  job : current.attempt.descriptor.jobName = jobName
  latest : ∀ other ∈ repository.attempts, other.reviewId = reviewId → other.descriptor.jobName = jobName →
    other.attempt ≤ current.attempt.attempt
  unrevoked : current.revocation = none → ∀ revocation ∈ repository.attemptRevocations,
    revocation.reviewId = reviewId → revocation.jobName = jobName → revocation.attempt ≠ current.attempt.attempt

variable {current : CurrentAuthoritativeOrdinaryAttempt}

omit [Sha256] [ReviewText] in
theorem currentAttempt_latest (h : currentAttempt projectId reviewId jobName w = .ok (some current)) :
    LatestAttempt (w.repository projectId) reviewId jobName current := by
  obtain ⟨attempts, hattempts, h⟩ := bind_ok.mp h
  unfold attemptsForJob at hattempts
  dsimp only at hattempts
  split at hattempts
  on_goal 2 => cases hattempts
  cases hattempts
  split at h
  · cases h
  rename_i attempt hlast
  -- The last of the sorted attempts has the largest number.
  have hmem := List.mem_of_getLast? hlast
  rw [List.mem_insertionSort, List.mem_filter, Bool.and_eq_true, decide_eq_true_eq, decide_eq_true_eq] at hmem
  obtain ⟨hrecorded, hreview, hjob⟩ := hmem
  have hlatest : ∀ other ∈ (w.repository projectId).attempts, other.reviewId = reviewId →
      other.descriptor.jobName = jobName → other.attempt ≤ attempt.attempt := by
    intro other hother hof hnamed
    obtain ⟨before, hbefore⟩ := List.getLast?_eq_some_iff.mp hlast
    have hsorted := List.pairwise_insertionSort (fun a b : NativeJobAttemptIssuance => a.attempt ≤ b.attempt)
      ((w.repository projectId).attempts.filter fun attempt =>
        attempt.reviewId = reviewId && attempt.descriptor.jobName = jobName)
    rw [hbefore, List.pairwise_append] at hsorted
    have hin : other ∈ before ++ [attempt] := by
      rw [← hbefore, List.mem_insertionSort, List.mem_filter]
      exact ⟨hother, by simp [hof, hnamed]⟩
    rcases List.mem_append.mp hin with hin | hin
    · exact hsorted.2.2 other hin attempt (List.mem_singleton_self attempt)
    · rw [List.mem_singleton.mp hin]
  split at h
  · rename_i hnone
    cases h
    refine ⟨hrecorded, hreview, hjob, hlatest, fun _ revocation hrevocation hof hnamed hsame => ?_⟩
    have hdiffers := List.find?_eq_none.mp hnone revocation hrevocation
    simp [hof, hnamed, hsame] at hdiffers
  · split at h
    · cases h
      exact ⟨hrecorded, hreview, hjob, hlatest, nofun⟩
    · cases h

omit [Sha256] [ReviewText] in
theorem currentStatus_reported {reporterUsername : String} {status : AuthoritativeOrdinaryStatus}
    (h : currentStatus projectId current reporterUsername w = .ok (some status)) :
    status ∈ (w.repository projectId).statuses ∧ status.event.payload.attemptId = current.attempt.attemptId ∧
      status.event.payload.descriptor = current.attempt.descriptor := by
  unfold currentStatus at h
  dsimp only at h
  split at h
  · cases h
  rename_i found hfound
  split at h
  · rename_i hmatches
    cases h
    exact ⟨List.mem_of_find?_eq_some hfound, hmatches.2.2.1, hmatches.2.2.2.2.2.2.2⟩
  · cases h

/-- A terminal that says success is the status of the latest attempt. -/
theorem observes_ordinaryTerminal (hw : Calm runtime w) :
    Observes runtime w (currentAuthoritativeOrdinaryTerminal projectId reviewId jobName) fun found =>
      found.terminal.event.payload.result = .success → found.terminal.event.payload.completion = .exited 0 →
        OrdinarySucceeded (w.repository projectId) reviewId jobName found.attempt.attempt found.terminal := by
  unfold currentAuthoritativeOrdinaryTerminal
  refine (observes_target hw).bind fun target htarget => ?_
  refine (observes_projectEnvelope hw _).bind fun envelope _ => ?_
  dsimp only
  split
  · exact .throw
  have hstale : Observes runtime w (nativeHumanReviewStaleReasons target envelope.review) fun _ => True :=
    (observes_staleReasons hw htarget envelope.review).mono fun _ _ => trivial
  refine hstale.bind fun staleReasons _ => ?_
  split
  · exact .throw
  refine (observes_query hw _).bind fun current hcurrent => ?_
  cases current with
  | none => exact .throw
  | some attempt =>
    have hlatest := currentAttempt_latest hcurrent
    dsimp only
    split
    · exact .throw
    rename_i hmatches
    have hunrevoked : attempt.revocation = none := by
      simpa using fun h => hmatches (Or.inl h)
    refine (observes_query hw _).bind fun terminal hterminal => ?_
    cases terminal with
    | none => exact .throw
    | some terminal =>
      obtain ⟨hreported, hid, hdescriptor⟩ := currentStatus_reported hterminal
      exact .pure fun hsuccess hexited => ⟨hlatest.recorded, hlatest.review, hlatest.job, hlatest.latest,
        hlatest.unrevoked hunrevoked, hreported, hid, hdescriptor, hsuccess, hexited⟩

theorem observes_ordinaryEvidence (hw : Calm runtime w) :
    Observes runtime w (currentOrdinaryTerminalEvidence projectId reviewId jobName) fun evidence =>
      evidence.terminalEvent.payload.result = .success → evidence.terminalEvent.payload.completion = .exited 0 →
        ∃ attempt status, OrdinarySucceeded (w.repository projectId) reviewId jobName attempt status := by
  unfold currentOrdinaryTerminalEvidence
  refine (observes_ordinaryTerminal hw).bind fun before _ => ?_
  have hproof : Observes runtime w (Program.effect
      (ServerCall.terminalProof projectId before.target.currentHead before.terminal) : Prog _) fun _ => True :=
    observes_call hw (fun _ => trivial) (fun _ h => h) fun _ _ h => ⟨h, trivial⟩
  refine hproof.bind fun proof _ => ?_
  have hanswered : Observes runtime w (answered proof) fun _ => True := observes_answered fun _ _ => trivial
  refine hanswered.bind fun provenance _ => ?_
  refine (observes_ordinaryTerminal hw).bind fun after hafter => ?_
  dsimp only
  split
  · exact .throw
  · exact .pure fun hsuccess hexited => ⟨_, _, hafter hsuccess hexited⟩

/-! ## QEMU jobs -/

theorem observes_qemuEvidence (hw : Calm runtime w) {serviceId : String}
    (hreview : envelope.review.reviewId = reviewId) :
    Observes runtime w (currentQemuTerminalEvidence runtime serviceId projectId envelope jobName) fun _ =>
      ∃ attempt status, QemuSucceeded (w.repository projectId).qemu reviewId jobName attempt status := by
  unfold currentQemuTerminalEvidence
  split
  on_goal 2 => exact .throw
  rename_i event _
  refine (observes_query hw _).bind fun current hcurrent => ?_
  refine (observes_query hw _).bind fun statuses hstatuses => ?_
  cases current with
  | none => exact .throw
  | some attempt =>
    dsimp only
    split
    on_goal 2 => exact .throw
    rename_i status hstatus
    split
    · exact .throw
    rename_i hsuccess
    have hscheduler : Observes runtime w (Program.effect (ServerCall.qemuEvent event.eventId) : Prog _)
        fun _ => True := observes_call hw (fun _ => trivial) (fun _ h => h) fun _ _ h => ⟨h, trivial⟩
    refine hscheduler.bind fun answer _ => ?_
    have hanswered : Observes runtime w (answered answer) fun _ => True := observes_answered fun _ _ => trivial
    refine hanswered.bind fun scheduler _ => ?_
    have hnow : Observes runtime w (Program.effect ServerCall.now : Prog _) fun _ => True :=
      observes_call hw (fun _ => trivial) (fun _ h => h) fun _ _ h => ⟨h, trivial⟩
    refine hnow.bind fun now _ => ?_
    split
    · exact .throw
    split
    · exact .throw
    have hfound : (w.repository projectId).qemu.current reviewId jobName = some attempt := by
      rw [← hreview]
      exact Except.ok.inj hcurrent
    have hstored : statuses = (w.repository projectId).qemu.statuses.rows := (Except.ok.inj hstatuses).symm
    subst hstored
    have hmem := List.mem_of_find?_eq_some hfound
    have hof := List.find?_some hfound
    simp only [NativeQemuAuthorityState.ofJob, Bool.and_eq_true, decide_eq_true_eq, Option.isNone_iff_eq_none] at hof
    have hid := List.find?_some hstatus
    rw [decide_eq_true_eq] at hid
    exact .pure ⟨attempt, status, List.mem_reverse.mp hmem, hof.1.1, hof.1.2, hof.2,
      List.mem_of_find?_eq_some hstatus, hid, not_not.mp hsuccess⟩

/-! ## The required jobs -/

theorem observes_requiredJob (hw : Calm runtime w)
    (hreview : envelope.review.reviewId = reviewId) (required : NativeRootCiRequiredJob) :
    Observes runtime w (requiredJobEvidence runtime projectId reviewId envelope required) fun job =>
      job.executionKind = required.kind ∧ job.jobName = required.name ∧
        Passed (w.repository projectId) reviewId required := by
  unfold requiredJobEvidence
  split
  · rename_i hkind
    refine (observes_ordinaryEvidence hw).bind fun evidence hevidence => ?_
    dsimp only
    split
    · exact .throw
    · rename_i hsuccess
      rw [not_or, not_not, not_not] at hsuccess
      refine .pure ⟨rfl, rfl, ?_⟩
      unfold Passed
      rw [hkind]
      exact hevidence hsuccess.1 hsuccess.2
  · rename_i hkind
    split
    · exact .throw
    · refine (observes_qemuEvidence hw hreview).bind fun digest hdigest => .pure ⟨rfl, rfl, ?_⟩
      unfold Passed
      rw [hkind]
      exact hdigest

theorem observes_requiredJobs (hw : Calm runtime w) {envelope : AuthoritativeNativeReviewEnvelope}
    (hreview : envelope.review.reviewId = reviewId) : ∀ required : List NativeRootCiRequiredJob,
    Observes runtime w (requiredJobsEvidence runtime projectId reviewId envelope required) fun jobs =>
      jobs.map (fun job => (job.executionKind, job.jobName)) = required.map (fun job => (job.kind, job.name)) ∧
        ∀ job ∈ required, Passed (w.repository projectId) reviewId job
  | [] => .pure ⟨rfl, nofun⟩
  | required :: rest => by
    rw [requiredJobsEvidence]
    refine (observes_requiredJob hw hreview required).bind fun job hjob => ?_
    refine (observes_requiredJobs hw hreview rest).bind fun jobs hjobs => .pure ⟨?_, ?_⟩
    · rw [List.map_cons, List.map_cons, hjobs.1, hjob.1, hjob.2.1]
    · intro other hother
      rcases List.mem_cons.mp hother with rfl | hother
      · exact hjob.2.2
      · exact hjobs.2 other hother

/-! ## The transition -/

/-- The order of the evidence, on the kinds and names of the jobs. -/
def EvidenceBefore (localeCompare : String → String → Ordering) (left right : ExecutionKind × String) : Prop :=
  (match left.1, right.1 with
    | .ordinarySysbox, .qemu => Ordering.lt
    | .qemu, .ordinarySysbox => Ordering.gt
    | _, _ => localeCompare left.2 right.2) ≠ .gt

instance (localeCompare : String → String → Ordering) : DecidableRel (EvidenceBefore localeCompare) :=
  fun _ _ => inferInstanceAs (Decidable (_ ≠ _))

omit [Sha256] [ReviewText] in
/-- The order of the evidence depends on the kinds and names of the jobs. -/
theorem sortedJobs_keys {localeCompare : String → String → Ordering} {jobs jobs' : List PromotionJob}
    (h : jobs.map (fun job => (job.executionKind, job.jobName)) =
      jobs'.map (fun job => (job.executionKind, job.jobName))) :
    (sortedJobs localeCompare jobs).map (fun job => (job.executionKind, job.jobName)) =
      (sortedJobs localeCompare jobs').map (fun job => (job.executionKind, job.jobName)) := by
  have hsorted : ∀ jobs : List PromotionJob,
      (sortedJobs localeCompare jobs).map (fun job => (job.executionKind, job.jobName)) =
        (jobs.map fun job => (job.executionKind, job.jobName)).insertionSort (EvidenceBefore localeCompare) := by
    intro jobs
    exact List.map_insertionSort _ _ _ _ fun _ _ _ _ => Iff.rfl
  rw [hsorted, hsorted, h]

omit [Sha256] [ReviewText] in
theorem mem_requiredReviewers {policy : NativeRootCiPolicy} {changes : List AuthoritativeNativeChangedPath}
    {reviewer : String} (h : reviewer ∈ policy.requiredReviewerIds) : reviewer ∈ requiredReviewers policy changes := by
  unfold requiredReviewers
  rw [List.mem_insertionSort, List.mem_dedup]
  exact List.mem_append_left _ h

variable {review : AuthoritativeNativeReview}

omit [Sha256] [ReviewText] in
theorem FreshReview.apart {imported : NativeProjectRootImport} {head : NativeProjectRootCurrentHead}
    (h : FreshReview runtime w projectId imported head review) :
    review.proposalRef ≠ imported.protectedRef := by
  intro hsame
  have hproposal := not_protected (workspaceOf_proposals h.workspace)
  rw [hsame, imported.parsed.2] at hproposal
  cases hproposal

variable {target : AuthoritativeNativeRootTarget}

omit [Sha256] [ReviewText] in
/-- A finalized transition of the review is not the current head. -/
theorem installed_none (h : installed reviewId target review (w.db.transitionsOf projectId) = none)
    {finalized : NativeProjectRootPromotionTransition} (hf : finalized ∈ w.db.transitionsOf projectId)
    (hreview : finalized.reviewId = reviewId) (hhead : target.currentHead.commit = finalized.candidateCommit)
    (hcandidate : review.candidateCommit = finalized.candidateCommit) :
    review.candidateTree ≠ finalized.candidateTree := by
  intro htree
  unfold installed at h
  cases hfound : (w.db.transitionsOf projectId).find? (·.reviewId = reviewId) with
  | none =>
    have hdiffers := List.find?_eq_none.mp hfound finalized hf
    simp [hreview] at hdiffers
  | some other =>
    -- A project's transitions are of different reviews.
    have hother := List.mem_of_find?_eq_some hfound
    have hof := List.find?_some hfound
    rw [decide_eq_true_eq] at hof
    obtain ⟨hrow, hproject⟩ := PromotionDatabase.mem_transitionsOf.mp hf
    obtain ⟨hrow', hproject'⟩ := PromotionDatabase.mem_transitionsOf.mp hother
    have hclash : (⟨other⟩ : PromotionFinalizedRow) = ⟨finalized⟩ :=
      Table.eq_of_conflict _ hrow' hrow (conflict_of_clash (by
        simp [Schema.clash, hproject, hproject', hreview, hof]))
    cases hclash
    rw [hfound] at h
    simp [Option.filter, hhead.symm, hcandidate, htree] at h

/-- What the checks of a promotion end with. -/
structure Admitted (runtime : NativeGitRuntime) (w : World) (projectId reviewId : String)
    (target : AuthoritativeNativeRootTarget) (envelope : AuthoritativeNativeReviewEnvelope)
    (transition : NativeProjectRootPromotionTransition) : Prop where
  project : transition.projectId = projectId
  ready : Ready runtime w target.imported target.currentHead transition
  update : reviewUpdate projectId envelope.review = refUpdate transition
  gate : GateOf runtime w projectId reviewId (reviewUpdate projectId envelope.review) target.imported
    target.currentHead envelope

variable {generationId : String}

theorem observes_checkPromotion (hw : Calm runtime w) (ht : Resolved runtime w projectId target)
    (he : readEnvelope runtime.localeCompare projectId reviewId w = some envelope)
    (hi : installed reviewId target envelope.review (w.db.transitionsOf projectId) = none) :
    Observes runtime w (checkPromotion runtime generationId projectId reviewId target envelope)
      (Admitted runtime w projectId reviewId target envelope) := by
  obtain ⟨hstored, hreview⟩ := readEnvelope_mem he
  unfold checkPromotion
  dsimp only
  refine (observes_staleReasons hw ht envelope.review).bind fun staleReasons hstale => ?_
  split
  · exact .throw
  rename_i hnil
  have hfresh := hstale (not_not.mp hnil)
  split
  · exact .throw
  split
  · exact .throw
  refine (observes_decisions hw).bind fun decisions hdecisions => ?_
  split
  · exact .throw
  rename_i hactive
  rw [not_not] at hactive
  refine (observes_query hw _).bind fun descends hdescends => ?_
  split
  · exact .throw
  rename_i hancestor
  have hdescend : runtime.git.isAncestor envelope.review.expectedProtectedHead envelope.review.candidateCommit =
      true := by
    rw [Except.ok.inj hdescends]
    simpa using hancestor
  refine (observes_requiredJobs hw hreview target.imported.policy.requiredJobs).bind fun jobs hjobs => .pure ?_
  refine ⟨rfl, ⟨ht.root, ht.none, ht.folded, fun hgeneration => ?_, hfresh.proposal, hfresh.apart, ?_, ?_, ?_⟩, ?_,
    ⟨ht.root, ht.folded, hstored, hreview, rfl, hfresh, hdescend, ?_, hjobs.2⟩⟩
  · have hkeys := @sortedJobs_keys runtime.localeCompare jobs
      (target.imported.policy.requiredJobs.map fun job =>
        { executionKind := job.kind, jobName := job.name, evidenceDigest := "" }) (by
          rw [hjobs.1, List.map_map]
          rfl)
    have hreviewers : ∀ reviewer ∈ target.imported.policy.requiredReviewerIds,
        reviewer ∈ envelope.review.requiredReviewerIds := by
      intro reviewer hrequired
      rw [hfresh.reviewers]
      exact mem_requiredReviewers hrequired
    exact next_of_follows ⟨ht.key.symm, rfl, rfl, rfl, hfresh.protectedRef, hgeneration⟩ rfl rfl ⟨rfl, rfl, rfl⟩ hkeys
      hreviewers
  · rw [hfresh.expected] at hdescend
    exact hdescend
  · exact fun finalized hf hof hhead hcandidate => installed_none hi hf hof hhead hcandidate
  · exact ⟨rfl, envelope, hstored, hreview, rfl, rfl⟩
  · unfold reviewUpdate refUpdate
    rw [hfresh.expected]
    rfl
  · intro reviewerId hrequired
    rw [← hactive] at hrequired
    obtain ⟨approval, happroval, rfl⟩ := List.mem_map.mp hrequired
    rw [List.mem_insertionSort] at happroval
    exact ⟨approval, hdecisions approval happroval⟩

/-- The reads of a promotion either find it installed, or admit it. -/
theorem observes_inspectPromotion (hw : Calm runtime w) :
    Observes runtime w (inspectPromotion runtime generationId projectId reviewId) fun checked =>
      ∀ review transition, checked = .next review transition → ∃ target envelope, review = envelope.review ∧
        Admitted runtime w projectId reviewId target envelope transition := by
  unfold inspectPromotion
  refine (observes_target hw).bind fun target htarget => ?_
  refine (observes_projectEnvelope hw _).bind fun envelope henvelope => ?_
  refine (observes_query hw _).bind fun finalized hfinalized => ?_
  have hrows : finalized = w.db.transitionsOf projectId := (Except.ok.inj hfinalized).symm
  subst hrows
  split
  · exact .pure nofun
  · rename_i hnone
    refine (observes_checkPromotion hw htarget henvelope.1 hnone).bind fun transition htransition => .pure ?_
    rintro review transition' heq
    cases heq
    exact ⟨target, envelope, rfl, htransition⟩

end

end Dim.NativeGit
