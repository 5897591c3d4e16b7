/-
The operations of the queue other than promotions. Their checks read the state, and each writes one record:
a push of proposals, a review, a decision of a reviewer, an attempt, its revocation or its status. Checks against
the CI services, which may refuse any of them, are left out, and what a candidate's files say is an argument.
-/
import DimProofs.NativeGit.Queue

namespace Dim.NativeGit

open Relational Ordinary RootCi Qemu Effectful

/-! ## Checks -/

/-- The pre-receive hook for one line: `[!A-Za-z0-9_-]` and the forms of a name that it refuses. -/
def hookAccepts (workspaceId ref commit : String) : Bool :=
  let allowed := proposalPrefix ++ workspaceId.toList ++ ['/']
  workspaceId ≠ "" && workspaceId.toList.all (fun c => c.isAlphanum || c = '_' || c = '-')
    && allowed.isPrefixOf ref.toList && safeName (ref.toList.drop allowed.length) && commit.toList.any (· ≠ '0')

section
variable [Sha256] (runtime : NativeGitRuntime)

/-- A program that only reads, where nothing else intervenes. -/
def readAt {α : Type} (p : Prog α) (w : World) : Except Failure α :=
  (p.exec (fun call w => (match call with
    | .read q => q.answer runtime w
    | .terminalProof _ _ _ => .error .unavailable
    | .qemuEvent _ => .error .unavailable
    | .now => 0
    | .saveIntent _ => .error .unavailable
    | .promote _ => .error .unavailable
    | .finalize _ => .error .unavailable
    | .change _ => .error .unavailable, w)) w).1

/-- The latest envelope of a review of the project. -/
def projectEnvelope (missing : Failure) (projectId reviewId : String) : Prog AuthoritativeNativeReviewEnvelope := do
  let some envelope ← query (.envelope projectId reviewId) | throw missing
  if envelope.review.projectId ≠ projectId then throw missing
  return envelope

def inspectExactReview (projectId reviewId reviewerId : String) :
    Prog (AuthoritativeNativeReviewEnvelope × List StaleReason) := do
  let target ← query (.target projectId)
  let envelope ← projectEnvelope .reviewNotFound projectId reviewId
  if !envelope.review.requiredReviewerIds.contains reviewerId then throw .reviewerNotRequired
  let staleReasons ← nativeHumanReviewStaleReasons target envelope.review
  let confirmed ← query (.target projectId)
  if confirmed ≠ target then throw .proofUnavailable
  return (envelope, staleReasons)

def assertCurrentReview (target : AuthoritativeNativeRootTarget) (review : AuthoritativeNativeReview) : Prog Unit := do
  let staleReasons ← nativeHumanReviewStaleReasons target review
  if staleReasons ≠ [] then throw .executionReviewStale

/-- `loadAuthoritativeExecutionReview` and the second look of `loadCurrentAuthoritativeExecutionInputs`. -/
def loadCurrentExecutionReview (projectId reviewId : String) : Prog AuthoritativeNativeReviewEnvelope := do
  let target ← query (.target projectId)
  let envelope ← projectEnvelope .executionReviewNotFound projectId reviewId
  assertCurrentReview target envelope.review
  let currentTarget ← query (.target projectId)
  let currentEnvelope ← query (.envelope projectId reviewId)
  if currentEnvelope ≠ some envelope ∨ currentTarget ≠ target then throw .executionReviewStale
  assertCurrentReview currentTarget envelope.review
  return envelope

def ordinaryDescriptor (envelope : AuthoritativeNativeReviewEnvelope) (jobName : String)
    (capacity : TrustedCapacity NativeResourceBounds) (configBlob : NativeConfigBlob) (script : NativeScript) :
    NativeOrdinaryDescriptor where
  projectId := envelope.review.projectId
  repositoryId := "root"
  protectedRef := envelope.review.protectedRef
  expectedProtectedHead := envelope.review.expectedProtectedHead
  candidateCommit := envelope.review.candidateCommit
  candidateTree := envelope.review.candidateTree
  policyRevision := envelope.review.policyRevision
  requiredReviewRevision := envelope.review.requiredReviewRevision
  requiredJobSetRevision := envelope.qualityRevision
  admissionGeneration := capacity.admissionGeneration
  jobName := jobName
  runnerBaseImage := capacity.runnerBaseImage
  bounds := capacity.bounds
  configBlob := configBlob
  script := script
  jobImage := capacity.jobBaseImage

def qemuDescriptor (envelope : AuthoritativeNativeReviewEnvelope) (jobName : String)
    (capacity : TrustedCapacity QemuBounds) (configBlob : QemuConfigBlob) (script : QemuScript) :
    QemuExecutionDescriptor where
  admissionGeneration := capacity.admissionGeneration
  jobName := jobName
  runnerBaseImage := capacity.runnerBaseImage
  bounds := capacity.bounds
  projectId := envelope.review.projectId
  repositoryId := "root"
  protectedRef := envelope.review.protectedRef
  expectedProtectedHead := envelope.review.expectedProtectedHead
  candidateCommit := envelope.review.candidateCommit
  candidateTree := envelope.review.candidateTree
  policyRevision := envelope.review.policyRevision
  requiredReviewRevision := envelope.review.requiredReviewRevision
  requiredJobSetRevision := envelope.qualityRevision
  configBlob := configBlob
  script := script
  jobImage := capacity.jobBaseImage

/-- The ordinary jobs that are planned for the candidate. -/
def AuthoritativeNativeReviewEnvelope.plansOrdinary (envelope : AuthoritativeNativeReviewEnvelope) (jobName : String) :
    Bool :=
  match envelope.planning with
  | .valid _ jobs => jobs.any fun job => job.executionKind = .ordinarySysbox && job.jobName = jobName
  | .invalid => false

/-- A descriptor is of this review. -/
def descriptorMatchesReview (descriptor : NativeOrdinaryDescriptor) (envelope : AuthoritativeNativeReviewEnvelope) :
    Bool :=
  descriptor.protectedRef = envelope.review.protectedRef
    && descriptor.expectedProtectedHead = envelope.review.expectedProtectedHead
    && descriptor.candidateCommit = envelope.review.candidateCommit
    && descriptor.candidateTree = envelope.review.candidateTree
    && descriptor.policyRevision = envelope.review.policyRevision
    && descriptor.requiredReviewRevision = envelope.review.requiredReviewRevision
    && descriptor.requiredJobSetRevision = envelope.qualityRevision

/-- `currentTuple` of the route that stores a status. -/
def currentTuple (projectId reviewId : String) (event : NativeTerminalEvent) : Prog Unit := do
  let target ← query (.target projectId)
  let envelope ← projectEnvelope .statusConflicts projectId reviewId
  let descriptor := event.payload.descriptor
  if !envelope.plansOrdinary descriptor.jobName
      ∨ envelope.qualityRevision ≠ target.imported.policy.requiredJobSetRevision then throw .statusConflicts
  let staleReasons ← nativeHumanReviewStaleReasons target envelope.review
  if staleReasons ≠ [] ∨ !descriptorMatchesReview descriptor envelope then throw .statusConflicts
  let some current ← query (.ordinaryAttempt projectId reviewId descriptor.jobName) | throw .statusConflicts
  if current.revocation.isSome ∨ current.attempt.attemptId ≠ event.payload.attemptId
      ∨ current.attempt.attempt ≠ event.payload.attempt
      ∨ current.attempt.descriptorDigest ≠ event.payload.descriptorDigest
      ∨ current.attempt.hostId ≠ event.payload.hostId ∨ current.attempt.capacity ≠ event.payload.capacity
      ∨ current.attempt.descriptor ≠ descriptor then throw .statusConflicts

/-! ## Writes -/

def maximumStoredEvents : Nat := 100000
def maximumApprovals : Nat := 100000
def maximumRevocations : Nat := 100000

def createAuthoritativeNativeApproval (reviewId reviewerId requestId approvedAt : String) :
    AuthoritativeNativeApproval :=
  let approvalId := Sha256.hex ("dim-native-authoritative-approval-id-v1\x00" ++ Json.object
    [("reviewId", Json.string reviewId), ("reviewerId", Json.string reviewerId), ("requestId", Json.string requestId)])
  { approvalId, reviewId, reviewerId, requestId, approvedAt,
    recordDigest := Sha256.hex ("dim-native-authoritative-approval-record-v1\x00" ++ Json.object
      [("reviewId", Json.string reviewId), ("reviewerId", Json.string reviewerId),
        ("requestId", Json.string requestId), ("schemaVersion", "1"), ("approvalId", Json.string approvalId),
        ("approvedAt", Json.string approvedAt)]) }

/-- With `saveAuthoritativeNativeApproval`. -/
def approveAuthoritativeNativeReview (decisions : AuthoritativeNativeDecisions)
    (reviewId reviewerId requestId approvedAt : String)
    (repository : ProjectRepository) : Except Failure ProjectRepository :=
  if decisions.approvals.any fun approval => approval.reviewerId = reviewerId && approval.requestId = requestId then
    return repository
  else if decisions.activeApprovals.any (·.reviewerId = reviewerId) then throw .approvalConflicts
  else if maximumApprovals ≤ repository.approvals.rows.length then throw .storeExhausted
  else
    let approval := createAuthoritativeNativeApproval reviewId reviewerId requestId approvedAt
    match repository.approvals.get? approval.approvalId with
    | some published => if published = approval then return repository else throw .approvalConflicts
    | none => do
      let approvals ← repository.approvals.insert approval
      return { repository with approvals }

/-- With `saveAuthoritativeNativeRevocation`. -/
def revokeAuthoritativeNativeApproval (decisions : AuthoritativeNativeDecisions)
    (reviewId reviewerId approvalId revokedAt : String)
    (repository : ProjectRepository) : Except Failure ProjectRepository :=
  match decisions.approvals.find? (·.approvalId = approvalId) with
  | none => throw .approvalNotFound
  | some approval =>
    if approval.reviewerId ≠ reviewerId then throw .approvalForeign
    else if repository.revocations.any (·.approvalId = approvalId) then return repository
    else if maximumRevocations ≤ repository.revocations.length then throw .storeExhausted
    else
      let revocationId := Sha256.hex ("dim-native-authoritative-revocation-id-v1\x00" ++ Json.object
        [("reviewId", Json.string reviewId), ("reviewerId", Json.string reviewerId),
          ("approvalId", Json.string approvalId)])
      return { repository with
        revocations := repository.revocations ++ [{ revocationId, reviewId, reviewerId, approvalId, revokedAt }] }

/-- `issue` of the attempt store. -/
def issueAttempt (attempts : List NativeJobAttemptIssuance) (current : Option CurrentAuthoritativeOrdinaryAttempt)
    (issuance : NativeJobAttemptIssuance) (repository : ProjectRepository) : Except Failure ProjectRepository :=
  match attempts.find? (·.issuanceRequestId = issuance.issuanceRequestId) with
  | some prior =>
    if current.any (fun state => state.revocation.isNone && state.attempt.attemptId = prior.attemptId)
        ∧ prior.reviewId = issuance.reviewId ∧ prior.descriptorDigest = issuance.descriptorDigest
        ∧ prior.descriptor = issuance.descriptor ∧ prior.hostId = issuance.hostId
        ∧ prior.capacity = issuance.capacity ∧ prior.issuedBy = issuance.issuedBy then return repository
    else throw .issuanceRequestUsed
  | none =>
    if maximumOrdinaryAttemptsPerJob ≤ attempts.length then throw .attemptsExhausted
    else return { repository with
      attempts := repository.attempts ++ [{ issuance with attempt := attempts.length + 1 }] }

/-- `revoke` of the attempt store. -/
def revokeAttempt (current : Option CurrentAuthoritativeOrdinaryAttempt)
    (attemptId revocationRequestId revokedBy revocationId revokedAt : String) (repository : ProjectRepository) :
    Except Failure ProjectRepository :=
  match current with
  | none => throw .attemptNotFound
  | some { attempt, revocation } =>
    if attempt.attemptId ≠ attemptId then throw .attemptNotFound
    else match revocation with
      | some revocation =>
        if revocation.revocationRequestId = revocationRequestId ∧ revocation.revokedBy = revokedBy then return repository
        else throw .attemptRevoked
      | none => return { repository with
          attemptRevocations := repository.attemptRevocations ++
            [{ revocationRequestId, revocationId, attemptId, reviewId := attempt.reviewId,
               jobName := attempt.descriptor.jobName, attempt := attempt.attempt,
               descriptorDigest := attempt.descriptorDigest, hostId := attempt.hostId, capacity := attempt.capacity,
               revokedBy, revokedAt }] }

/-- `saveAuthoritativeOrdinaryStatus`. -/
def saveStatus (event : NativeTerminalEvent) (reporterUsername statusId reportedAt : String)
    (repository : ProjectRepository) : Except Failure ProjectRepository :=
  match repository.statuses.find? fun status => status.event.payload.reviewId = event.payload.reviewId
      && status.event.payload.descriptor.jobName = event.payload.descriptor.jobName
      && status.event.payload.attempt = event.payload.attempt with
  | some existing =>
    if existing.event = event ∧ existing.reporterUsername = reporterUsername then return repository else throw .statusDiffers
  | none => return { repository with
      statuses := repository.statuses ++
        [{ statusId, reviewId := event.payload.reviewId, reporterUsername, reportedAt, event }] }

/-- With `saveAuthoritativeNativeReviewEnvelope`. -/
def createAuthoritativeNativeReview [ReviewText] (target : AuthoritativeNativeRootTarget)
    (evidence : AuthoritativeNativeGitReviewEvidence) (proposalRef workspaceId : String)
    (planning : AuthoritativeNativePlanning) (createdAt : String) (repository : ProjectRepository) :
    Except Failure ProjectRepository :=
  let policy := target.imported.policy
  let envelope := createAuthoritativeNativeReviewEnvelope
    { reviewId := "", createdAt, projectId := target.imported.projectId, protectedRef := policy.protectedRef,
      proposalRef, expectedProtectedHead := evidence.expectedProtectedHead,
      candidateCommit := evidence.candidateCommit, candidateTree := evidence.candidateTree,
      policyRevision := policy.policyRevision, requiredReviewRevision := policy.requiredReviewRevision, workspaceId,
      requiredReviewerIds := requiredReviewers policy evidence.changes, changes := evidence.changes,
      patchBytes := evidence.patchBytes }
    policy.requiredJobSetRevision target.imported.policyDigest
    ((sortedJobs runtime.localeCompare (policy.requiredJobs.map fun job =>
      { executionKind := job.kind, jobName := job.name, evidenceDigest := "" })).map fun job =>
        { executionKind := job.executionKind, jobName := job.jobName })
    planning
  if repository.envelopes.any (·.envelopeId = envelope.envelopeId) then return repository
  else if maximumStoredEvents < (repository.envelopes.map (·.events.length)).sum + envelope.events.length then
    throw .storeExhausted
  else return { repository with envelopes := repository.envelopes ++ [envelope] }

/-- The repository of a project after an operation on it. -/
def World.updateRepository (projectId : String) (f : ProjectRepository → Except Failure ProjectRepository) (w : World) :
    Except Failure World := do
  let repository ← f (w.repository projectId)
  return w.setRepository projectId repository

/-- The repository of a project whose root is resolved. -/
def World.updateTarget (projectId : String)
    (f : AuthoritativeNativeRootTarget → ProjectRepository → Except Failure ProjectRepository) (w : World) :
    Except Failure World := do
  let target ← readAt runtime (query (.target projectId)) w
  w.updateRepository projectId (f target)

def Mutation.apply [ReviewText] (w : World) : Mutation → Except Failure World
  | .activate generationId =>
    return { w with db := { w.db with generations := w.db.generations.insert generationId } }
  | .receive projectId workspaceId updates => w.updateTarget runtime projectId fun _ repository =>
    if updates.all fun line => hookAccepts workspaceId line.1 line.2 then
      return { repository with refs := updates.foldl (fun refs line => setRef line.1 line.2 refs) repository.refs }
    else throw .refDenied
  | .createReview projectId proposalRef planning createdAt =>
    w.updateTarget runtime projectId fun target repository => do
      let evidence ← readAt runtime
        (query (.reviewGit projectId target.currentHead.protectedRef target.currentHead.commit proposalRef)) w
      match workspaceOf proposalRef with
      | none => throw .refDenied
      | some workspaceId =>
        createAuthoritativeNativeReview runtime target evidence proposalRef workspaceId planning createdAt repository
  | .approve projectId reviewId reviewerId requestId approvedAt =>
    w.updateRepository projectId fun repository => do
      let (_, staleReasons) ← readAt runtime (inspectExactReview projectId reviewId reviewerId) w
      if staleReasons ≠ [] then throw .reviewStale
      let decisions ← readAt runtime (readAuthoritativeNativeDecisions projectId reviewId) w
      approveAuthoritativeNativeReview decisions reviewId reviewerId requestId approvedAt repository
  | .revokeApproval projectId reviewId reviewerId approvalId revokedAt =>
    w.updateRepository projectId fun repository => do
      let _ ← readAt runtime (inspectExactReview projectId reviewId reviewerId) w
      let decisions ← readAt runtime (readAuthoritativeNativeDecisions projectId reviewId) w
      revokeAuthoritativeNativeApproval decisions reviewId reviewerId approvalId revokedAt repository
  | .issueOrdinary projectId reviewId jobName capacity configBlob script issuanceRequestId hostId capacityName
      descriptorDigest issuedBy attemptId issuedAt =>
    w.updateRepository projectId fun repository => do
      let envelope ← readAt runtime (loadCurrentExecutionReview projectId reviewId) w
      let descriptor := ordinaryDescriptor envelope jobName capacity configBlob script
      if Ordinary.nativeDescriptorDigest descriptor ≠ descriptorDigest then throw .descriptorDigestChanged
      let attempts ← (attemptsForJob projectId reviewId jobName w).mapError .read
      let current ← (currentAttempt projectId reviewId jobName w).mapError .read
      issueAttempt attempts current
        { issuanceRequestId, attemptId, reviewId, attempt := 0, descriptor, descriptorDigest, hostId,
          capacity := capacityName, issuedBy, issuedAt } repository
  | .revokeOrdinary projectId reviewId jobName attemptId revocationRequestId revokedBy revocationId revokedAt =>
    w.updateTarget runtime projectId fun _ repository => do
      let current ← (currentAttempt projectId reviewId jobName w).mapError .read
      revokeAttempt current attemptId revocationRequestId revokedBy revocationId revokedAt repository
  | .reportOrdinary projectId reviewId event statusId reportedAt =>
    w.updateRepository projectId fun repository => do
      if event.payload.reviewId ≠ reviewId ∨ event.payload.descriptor.projectId ≠ projectId then throw .statusConflicts
      readAt runtime (currentTuple projectId reviewId event) w
      saveStatus event runtime.reporterUsername statusId reportedAt repository
  | .issueQemu projectId reviewId jobName capacity configBlob script issuanceRequestId hostId capacityName
      descriptorDigest uuid issuedAt =>
    w.updateRepository projectId fun repository => do
      let envelope ← readAt runtime (loadCurrentExecutionReview projectId reviewId) w
      let (_, qemu) ← (repository.qemu.issue
        { issuanceRequestId, reviewId, descriptor := qemuDescriptor envelope jobName capacity configBlob script,
          descriptorDigest, hostId, capacity := capacityName } uuid issuedAt).mapError fun e => .read (.qemuAuthority e)
      return { repository with qemu }
  | .revokeQemu projectId reviewId jobName attemptId revokedAt =>
    w.updateTarget runtime projectId fun _ repository => do
      let qemu ← (repository.qemu.revoke reviewId jobName attemptId revokedAt).mapError
        fun e => .read (.qemuAuthority e)
      return { repository with qemu }
  | .reportQemu projectId reviewId event =>
    w.updateTarget runtime projectId fun _ repository => do
      let qemu ← (repository.qemu.qemuStatuses reviewId event).mapError fun e => .read (.qemuAuthority e)
      return { repository with qemu }

end

end Dim.NativeGit
