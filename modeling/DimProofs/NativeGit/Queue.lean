/-
What the operations of native Git's queue read and write. A read answers from the state or fails; the checks
that several reads make up are programs, since their reads are separated by awaits. `Mutation` are the
operations that write one record, each with its checks: nothing else of the queue runs between them.
-/
import DimProofs.Lib.Program
import DimProofs.NativeGit.Repository

namespace Dim.NativeGit

open Relational Ordinary RootCi Qemu Effectful

/-! ## Calls -/

inductive Query where
  | promotionRows
  | intents
  | revParse (projectId ref : String)
  | target (projectId : String)
  | envelope (projectId reviewId : String)
  | finalized (projectId : String)
  | reviewRefs (projectId protectedRef proposalRef : String)
  | reviewGit (projectId protectedRef expectedProtectedHead proposalRef : String)
  | approvals (projectId : String)
  | revocations (projectId : String)
  | isAncestor (ancestor commit : String)
  | ordinaryAttempt (projectId reviewId jobName : String)
  | ordinaryStatus (projectId : String) (current : CurrentAuthoritativeOrdinaryAttempt)
  | qemuAttempt (projectId reviewId jobName : String)
  | qemuStatuses (projectId : String)

@[reducible]
def Query.Answer : Query → Type
  | .promotionRows => Unit
  | .intents => List NativeProjectRootPromotionTransition
  | .revParse _ _ => String
  | .target _ => AuthoritativeNativeRootTarget
  | .envelope _ _ => Option AuthoritativeNativeReviewEnvelope
  | .finalized _ => List NativeProjectRootPromotionTransition
  | .reviewRefs _ _ _ => NativeReviewRefs
  | .reviewGit _ _ _ _ => AuthoritativeNativeGitReviewEvidence
  | .approvals _ => List AuthoritativeNativeApproval
  | .revocations _ => List AuthoritativeNativeRevocation
  | .isAncestor _ _ => Bool
  | .ordinaryAttempt _ _ _ => Option CurrentAuthoritativeOrdinaryAttempt
  | .ordinaryStatus _ _ => Option AuthoritativeOrdinaryStatus
  | .qemuAttempt _ _ _ => Option NativeQemuAttemptRecord
  | .qemuStatuses _ => List NativeQemuStatusRecord

/-- `GET /v1/qemu-events/ID/status`, as far as a promotion reads it. -/
structure QemuSchedulerStatus where
  schemaVersion : Nat
  (serviceId eventId state : String)
  event : AuthoritativeNativeReviewEvent
  (attemptId descriptorDigest eligibilityGeneration : String)
  eligibilityExpiresAt : Int
  (claimId resultClaimId : String)
  resultCleanupComplete : Bool
  result : QemuResult
  resultEventId : String

/-- What fails a program. -/
inductive Failure where
  | read (error : ReadError)
  | reviewNotFound
  | reviewStale
  | qualityStale
  | requiredJobMissing
  | approvalsIncomplete
  | notDescendant
  | ordinaryReviewNotFound
  | ordinaryReviewStale
  | ordinaryAttemptNotFound
  | ordinaryStatusNotFound
  | ordinaryChanged
  | ordinaryUnsuccessful
  | qemuUnavailable
  | qemuEventMissing
  | qemuEvidenceMissing
  | qemuNotDelivered
  | qemuEligibilityInvalid
  | compareAndSwapFailed
  | recoveryCompareAndSwapFailed
  | foreignProtectedHead
  | executionReviewNotFound
  | executionReviewStale
  | reviewerNotRequired
  | proofUnavailable
  | refDenied
  | rootChanged
  | approvalConflicts
  | approvalNotFound
  | approvalForeign
  | storeExhausted
  | descriptorDigestChanged
  | issuanceRequestUsed
  | attemptsExhausted
  | attemptNotFound
  | attemptRevoked
  | statusConflicts
  | statusDiffers
deriving DecidableEq

instance : Refusal Failure := ⟨fun _ => .approvalConflicts⟩

/-- What a host's capacity fixes of a descriptor. -/
structure TrustedCapacity (Bounds : Type) where
  (admissionGeneration jobBaseImage runnerBaseImage : String)
  bounds : Bounds

/-- The operations of the queue that write one record. -/
inductive Mutation where
  | activate (generationId : String)
  | receive (projectId workspaceId : String) (updates : List (String × String))
  | createReview (projectId proposalRef : String) (planning : AuthoritativeNativePlanning) (createdAt : String)
  | approve (projectId reviewId reviewerId requestId approvedAt : String)
  | revokeApproval (projectId reviewId reviewerId approvalId revokedAt : String)
  | issueOrdinary (projectId reviewId jobName : String) (capacity : TrustedCapacity NativeResourceBounds)
      (configBlob : NativeConfigBlob) (script : NativeScript)
      (issuanceRequestId hostId capacityName descriptorDigest issuedBy attemptId issuedAt : String)
  | revokeOrdinary (projectId reviewId jobName attemptId revocationRequestId revokedBy revocationId revokedAt : String)
  | reportOrdinary (projectId reviewId : String) (event : NativeTerminalEvent) (statusId reportedAt : String)
  | issueQemu (projectId reviewId jobName : String) (capacity : TrustedCapacity QemuBounds)
      (configBlob : QemuConfigBlob) (script : QemuScript)
      (issuanceRequestId hostId capacityName descriptorDigest uuid issuedAt : String)
  | revokeQemu (projectId reviewId jobName attemptId revokedAt : String)
  | reportQemu (projectId reviewId : String) (event : NativeQemuTerminalEvent)

/-- The calls of a program: reads, requests to the two CI services, the clock and writes. -/
inductive ServerCall where
  | read (query : Query)
  | terminalProof (projectId : String) (currentHead : NativeProjectRootCurrentHead) (status : AuthoritativeOrdinaryStatus)
  | qemuEvent (eventId : String)
  | now
  | saveIntent (transition : NativeProjectRootPromotionTransition)
  | promote (update : RefUpdate)
  | finalize (transition : NativeProjectRootPromotionTransition)
  | change (mutation : Mutation)

@[reducible]
def ServerCall.Answer : ServerCall → Type
  | .read query => Except ReadError query.Answer
  | .terminalProof _ _ _ => Except ReadError String
  | .qemuEvent _ => Except ReadError QemuSchedulerStatus
  | .now => Int
  | .saveIntent _ => Except ReadError Unit
  | .promote _ => Except ReadError Bool
  | .finalize _ => Except ReadError Unit
  | .change _ => Except ReadError Unit

abbrev Prog (α : Type) := Program ServerCall ServerCall.Answer Failure α

/-- The answer of a call, or its failure. -/
def answered {α : Type} : Except ReadError α → Prog α
  | .ok value => pure value
  | .error error => throw (.read error)

def query (q : Query) : Prog q.Answer := do
  let answer : Except ReadError q.Answer ← Program.effect (ServerCall.read q)
  answered answer

/-- `try`: the answer of a read, unless it fails. -/
def attempt (q : Query) : Prog (Option q.Answer) := do
  let answer : Except ReadError q.Answer ← Program.effect (ServerCall.read q)
  return answer.toOption

/-! ## The parameters of the service -/

/-- What a job's evidence digest is computed from. -/
inductive PromotionJobEvidence where
  | ordinary (projectId reviewId jobName : String) (terminalEvent : NativeTerminalEvent) (provenance : String)
  | qemu (attempt : NativeQemuAttemptRecord) (status : NativeQemuStatusRecord) (scheduler : QemuSchedulerStatus)

/-- `stringify` is `JSON.stringify` of a job's evidence; `qemuServiceId` is that of the configured QEMU service. -/
structure NativeGitRuntime where
  localeCompare : String → String → Ordering
  git : GitObjects
  reporterUsername : String
  qemuServiceId : Option String
  stringify : PromotionJobEvidence → String

section
variable [Sha256] (runtime : NativeGitRuntime)

/-- The check of the promotion rows when the database is opened. -/
def assertNativeProjectRootPromotionRows (db : PromotionDatabase) : Except PromotionStateError Unit := do
  (db.finalized.rows.map (·.transition.projectId)).dedup.forM fun projectId => do
    let imported ← requirePromotableImport (db.imports.get? projectId)
    let _ ← foldCurrentHead runtime.localeCompare imported (db.transitionsOf projectId) db.generations
  db.readIntents.forM fun intent => do
    let imported ← requirePromotableImport (db.imports.get? intent.projectId)
    let current ← foldCurrentHead runtime.localeCompare imported (db.transitionsOf intent.projectId) db.generations
    assertNextTransition runtime.localeCompare imported current db.generations intent

/-- What a read answers when nothing fails. -/
def Query.answer (w : World) : (q : Query) → Except ReadError q.Answer
  | .promotionRows => (assertNativeProjectRootPromotionRows runtime w.db).mapError .promotionState
  | .intents => return w.db.readIntents
  | .revParse projectId ref => match (w.refs projectId).lookup ref with
    | some commit => return commit
    | none => throw .refUnavailable
  | .target projectId => resolveTarget runtime.localeCompare runtime.git projectId w
  | .envelope projectId reviewId => return readEnvelope runtime.localeCompare projectId reviewId w
  | .finalized projectId => return w.db.readFinalized projectId
  | .reviewRefs projectId protectedRef proposalRef => readReviewRefs runtime.git projectId protectedRef proposalRef w
  | .reviewGit projectId protectedRef expectedProtectedHead proposalRef =>
    inspectReview runtime.git projectId protectedRef expectedProtectedHead proposalRef w
  | .approvals projectId => readApprovals runtime.localeCompare projectId w
  | .revocations projectId => readRevocations projectId w
  | .isAncestor ancestor commit => return runtime.git.isAncestor ancestor commit
  | .ordinaryAttempt projectId reviewId jobName => currentAttempt projectId reviewId jobName w
  | .ordinaryStatus projectId current => currentStatus projectId current runtime.reporterUsername w
  | .qemuAttempt projectId reviewId jobName => return (w.repository projectId).qemu.current reviewId jobName
  | .qemuStatuses projectId => return (w.repository projectId).qemu.statuses.rows

/-! ## The freshness of a review -/

inductive StaleReason where
  | policyChanged
  | protectedHeadChanged
  | candidateCommitChanged
  | candidateTreeChanged
  | reviewIdentityChanged
  | candidateRefUnavailable
deriving DecidableEq

/-- Two byte strings that begin alike. -/
def pathMatches (pathPrefix : String) (pathBytes : List UInt8) : Bool :=
  pathPrefix.toUTF8.toList.isPrefixOf pathBytes

/-- `requiredReviewers`. -/
def requiredReviewers (policy : NativeRootCiPolicy) (changes : List AuthoritativeNativeChangedPath) : List String :=
  ((policy.requiredReviewerIds ++ policy.pathReviewerRules.flatMap fun rule =>
    if changes.any fun change => pathMatches rule.pathPrefix change.oldPathBytes
        || pathMatches rule.pathPrefix change.newPathBytes then rule.reviewerIds else []).dedup).insertionSort (· ≤ ·)

/-- The reasons that need no read. -/
def policyReasons (target : AuthoritativeNativeRootTarget) (review : AuthoritativeNativeReview) : List StaleReason :=
  (if review.policyRevision ≠ target.imported.policy.policyRevision
      ∨ review.requiredReviewRevision ≠ target.imported.policy.requiredReviewRevision then [.policyChanged] else [])
    ++ if review.expectedProtectedHead ≠ target.currentHead.commit then [.protectedHeadChanged] else []

/-- The reasons that the refs give, which are asked for these values. -/
def refReasons (refs : NativeReviewRefs) (protectedHead candidateCommit candidateTree : String) : List StaleReason :=
  (if refs.protectedHead ≠ protectedHead then [.protectedHeadChanged] else [])
    ++ (if refs.candidateCommit ≠ candidateCommit then [.candidateCommitChanged] else [])
    ++ if refs.candidateTree ≠ candidateTree then [.candidateTreeChanged] else []

/-- The comparison of a review with the evidence that Git gives for it. -/
def reviewIdentityHolds (target : AuthoritativeNativeRootTarget) (review : AuthoritativeNativeReview)
    (evidence : AuthoritativeNativeGitReviewEvidence) (workspaceId : String) : Bool :=
  review.projectId = target.imported.projectId && review.protectedRef = target.imported.policy.protectedRef
    && review.workspaceId = workspaceId && review.patchBytes = evidence.patchBytes && review.changes = evidence.changes
    && review.requiredReviewerIds = requiredReviewers target.imported.policy evidence.changes

def nativeHumanReviewStaleReasons (target : AuthoritativeNativeRootTarget) (review : AuthoritativeNativeReview) :
    Prog (List StaleReason) := do
  let projectId := target.imported.projectId
  let protectedRef := target.currentHead.protectedRef
  let some refs ← attempt (.reviewRefs projectId protectedRef review.proposalRef)
    | return (policyReasons target review ++ [StaleReason.candidateRefUnavailable]).eraseDups
  let reasons := policyReasons target review
    ++ refReasons refs review.expectedProtectedHead review.candidateCommit review.candidateTree
  if reasons ≠ [] then return reasons.eraseDups
  let some evidence ← attempt (.reviewGit projectId protectedRef target.currentHead.commit review.proposalRef)
    | return [.candidateRefUnavailable]
  let some workspaceId := workspaceOf review.proposalRef | return [.reviewIdentityChanged]
  let identity := if reviewIdentityHolds target review evidence workspaceId then [] else [StaleReason.reviewIdentityChanged]
  let some current ← attempt (.reviewRefs projectId protectedRef review.proposalRef)
    | return (identity ++ [StaleReason.candidateRefUnavailable]).eraseDups
  return (identity
    ++ refReasons current evidence.expectedProtectedHead evidence.candidateCommit evidence.candidateTree).eraseDups

/-- `readAuthoritativeNativeDecisions`. -/
def readAuthoritativeNativeDecisions (projectId reviewId : String) : Prog AuthoritativeNativeDecisions := do
  let allApprovals ← query (.approvals projectId)
  let allRevocations ← query (.revocations projectId)
  answered (decisionsOf allApprovals allRevocations (some reviewId))

end

end Dim.NativeGit
