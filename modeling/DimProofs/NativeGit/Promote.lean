/-
`promoteInstalledNativeReview`, the recovery of promotions at the start, and the service that runs them with the
other operations of the queue. A promotion first only reads; then it saves its intent, moves the protected ref
and finalizes the transition. A call may fail at any time, a failed write may be in effect all the same, and a
crash may leave a `git update-ref` running that commits at any later time.
-/
import DimProofs.Lib.Service
import DimProofs.NativeGit.Operations

namespace Dim.NativeGit

open Relational Ordinary RootCi Qemu Effectful

/-! ## Evidence of the required jobs -/

structure CurrentAuthoritativeOrdinaryTerminal where
  target : AuthoritativeNativeRootTarget
  envelope : AuthoritativeNativeReviewEnvelope
  attempt : CurrentAuthoritativeOrdinaryAttempt
  terminal : AuthoritativeOrdinaryStatus
deriving DecidableEq

structure CurrentOrdinaryTerminalEvidence where
  terminalEvent : NativeTerminalEvent
  provenance : String

def currentAuthoritativeOrdinaryTerminal (projectId reviewId jobName : String) :
    Prog CurrentAuthoritativeOrdinaryTerminal := do
  let target ← query (.target projectId)
  let envelope ← projectEnvelope .ordinaryReviewNotFound projectId reviewId
  if !envelope.plansOrdinary jobName
      ∨ envelope.qualityRevision ≠ target.imported.policy.requiredJobSetRevision then throw .ordinaryReviewStale
  let staleReasons ← nativeHumanReviewStaleReasons target envelope.review
  if staleReasons ≠ [] then throw .ordinaryReviewStale
  let some attempt ← query (.ordinaryAttempt projectId reviewId jobName) | throw .ordinaryAttemptNotFound
  if attempt.revocation.isSome ∨ attempt.attempt.descriptor.projectId ≠ envelope.review.projectId
      ∨ !descriptorMatchesReview attempt.attempt.descriptor envelope then throw .ordinaryAttemptNotFound
  let some terminal ← query (.ordinaryStatus projectId attempt) | throw .ordinaryStatusNotFound
  return { target, envelope, attempt, terminal }

def currentOrdinaryTerminalEvidence (projectId reviewId jobName : String) : Prog CurrentOrdinaryTerminalEvidence := do
  let before ← currentAuthoritativeOrdinaryTerminal projectId reviewId jobName
  let proof : Except ReadError String ←
    Program.effect (ServerCall.terminalProof projectId before.target.currentHead before.terminal)
  let provenance ← answered proof
  let after ← currentAuthoritativeOrdinaryTerminal projectId reviewId jobName
  if after ≠ before then throw .ordinaryChanged
  return { terminalEvent := after.terminal.event, provenance }

/-- The comparison of the scheduler's answer with the attempt and the status. -/
def schedulerConfirms (serviceId : String) (event : AuthoritativeNativeReviewEvent)
    (attempt : NativeQemuAttemptRecord) (status : NativeQemuStatusRecord) (scheduler : QemuSchedulerStatus)
    (now : Int) : Bool :=
  scheduler.serviceId = serviceId && scheduler.eventId = event.eventId && scheduler.state = "completed"
    && scheduler.event = event && scheduler.attemptId = attempt.attemptId
    && scheduler.descriptorDigest = attempt.descriptorDigest
    && scheduler.eligibilityGeneration = attempt.descriptor.admissionGeneration
    && now < scheduler.eligibilityExpiresAt && scheduler.resultClaimId = scheduler.claimId
    && scheduler.resultCleanupComplete && scheduler.result = .success && scheduler.resultEventId = status.eventId

section
variable [Sha256] (runtime : NativeGitRuntime)

/-- `currentQemuTerminalEvidence`: the digest of the evidence. -/
def currentQemuTerminalEvidence (serviceId projectId : String) (envelope : AuthoritativeNativeReviewEnvelope)
    (jobName : String) : Prog String := do
  let some event := envelope.events.find? fun event => event.executionKind = .qemu && event.jobName = jobName
    | throw .qemuEventMissing
  let current ← query (.qemuAttempt projectId envelope.review.reviewId jobName)
  let statuses ← query (.qemuStatuses projectId)
  let some attempt := current | throw .qemuEvidenceMissing
  let some status := statuses.find? fun status => status.attemptId = attempt.attemptId | throw .qemuEvidenceMissing
  if status.result ≠ .success then throw .qemuEvidenceMissing
  let answer : Except ReadError QemuSchedulerStatus ← Program.effect (ServerCall.qemuEvent event.eventId)
  let scheduler ← answered answer
  let now : Int ← Program.effect ServerCall.now
  if !schedulerConfirms serviceId event attempt status scheduler now then throw .qemuNotDelivered
  if scheduler.schemaVersion ≠ 1 then throw .qemuEligibilityInvalid
  return Sha256.hex ("dim-native-qemu-promotion-evidence-v1\x00" ++ runtime.stringify (.qemu attempt status scheduler))

/-- The evidence of one required job. -/
def requiredJobEvidence (projectId reviewId : String) (envelope : AuthoritativeNativeReviewEnvelope)
    (required : NativeRootCiRequiredJob) : Prog PromotionJob :=
  match required.kind with
  | .ordinarySysbox => do
    let evidence ← currentOrdinaryTerminalEvidence projectId reviewId required.name
    if evidence.terminalEvent.payload.result ≠ .success ∨ evidence.terminalEvent.payload.completion ≠ .exited 0 then
      throw .ordinaryUnsuccessful
    return { executionKind := required.kind, jobName := required.name,
             evidenceDigest := Sha256.hex ("dim-native-ordinary-promotion-evidence-v1\x00" ++ runtime.stringify
               (.ordinary projectId reviewId required.name evidence.terminalEvent evidence.provenance)) }
  | .qemu =>
    match runtime.qemuServiceId with
    | none => throw .qemuUnavailable
    | some serviceId => do
      let evidenceDigest ← currentQemuTerminalEvidence runtime serviceId projectId envelope required.name
      return { executionKind := required.kind, jobName := required.name, evidenceDigest }

/-- The evidence of the required jobs, in their order. -/
def requiredJobsEvidence (projectId reviewId : String) (envelope : AuthoritativeNativeReviewEnvelope) :
    List NativeRootCiRequiredJob → Prog (List PromotionJob)
  | [] => return []
  | required :: rest => do
    let job ← requiredJobEvidence runtime projectId reviewId envelope required
    return job :: (← requiredJobsEvidence projectId reviewId envelope rest)

/-! ## The promotion -/

/-- What the checks of a promotion end with: the review is installed already, or its transition. -/
inductive Checked where
  | alreadyCurrent (finalized : NativeProjectRootPromotionTransition)
  | next (review : AuthoritativeNativeReview) (transition : NativeProjectRootPromotionTransition)

/-- The required jobs are planned for the candidate. -/
def plansRequiredJobs (policy : NativeRootCiPolicy) : AuthoritativeNativePlanning → Bool
  | .valid _ jobs => policy.requiredJobs.all fun required =>
    jobs.any fun job => job.executionKind = required.kind && job.jobName = required.name
  | .invalid => false

/-- The transition that installs a review. -/
def nextTransition (generationId projectId reviewId : String) (target : AuthoritativeNativeRootTarget)
    (review : AuthoritativeNativeReview) (active : List AuthoritativeNativeApproval) (jobs : List PromotionJob) :
    NativeProjectRootPromotionTransition :=
  let evidence : NativeProjectRootPromotionEvidence :=
    { reviewId, requiredReviewerIds := review.requiredReviewerIds,
      approvals := active.map fun approval =>
        { reviewerId := approval.reviewerId, approvalDigest := approval.recordDigest },
      jobs }
  let identity : PromotionIdentity :=
    { projectId, importNonce := target.imported.importNonce,
      sequence := target.currentHead.sequence + 1, reviewId, protectedRef := review.protectedRef,
      proposalRef := review.proposalRef, expectedCommit := target.currentHead.commit,
      expectedTree := target.currentHead.tree, candidateCommit := review.candidateCommit,
      candidateTree := review.candidateTree, decisionGeneration := generationId,
      policyDigest := target.imported.policyDigest, policyRevision := target.imported.policy.policyRevision,
      requiredReviewRevision := target.imported.policy.requiredReviewRevision,
      requiredJobSetRevision := target.imported.policy.requiredJobSetRevision,
      evidenceDigest := nativeProjectRootPromotionEvidenceDigest evidence }
  { identity with transitionId := nativeProjectRootPromotionTransitionId identity, evidence }

/-- The finalized transition of a review that is the current head. -/
def installed (reviewId : String) (target : AuthoritativeNativeRootTarget) (review : AuthoritativeNativeReview)
    (finalized : List NativeProjectRootPromotionTransition) : Option NativeProjectRootPromotionTransition :=
  (finalized.find? (·.reviewId = reviewId)).filter fun transition =>
    target.currentHead.commit = transition.candidateCommit && review.candidateCommit = transition.candidateCommit
      && review.candidateTree = transition.candidateTree

/-- The checks of a review that is not installed. -/
def checkPromotion (generationId projectId reviewId : String) (target : AuthoritativeNativeRootTarget)
    (envelope : AuthoritativeNativeReviewEnvelope) : Prog NativeProjectRootPromotionTransition := do
  let review := envelope.review
  let staleReasons ← nativeHumanReviewStaleReasons target review
  if staleReasons ≠ [] then throw .reviewStale
  if envelope.qualityRevision ≠ target.imported.policy.requiredJobSetRevision
      ∨ envelope.policyDigest ≠ target.imported.policyDigest ∨ envelope.planning = .invalid then throw .qualityStale
  if !plansRequiredJobs target.imported.policy envelope.planning then throw .requiredJobMissing
  let decisions ← readAuthoritativeNativeDecisions projectId reviewId
  let active := decisions.activeApprovals.insertionSort fun left right =>
    runtime.localeCompare left.reviewerId right.reviewerId ≠ .gt
  if active.map (·.reviewerId) ≠ review.requiredReviewerIds then throw .approvalsIncomplete
  let descends ← query (.isAncestor review.expectedProtectedHead review.candidateCommit)
  if !descends then throw .notDescendant
  let jobs ← requiredJobsEvidence runtime projectId reviewId envelope target.imported.policy.requiredJobs
  return nextTransition generationId projectId reviewId target review active (sortedJobs runtime.localeCompare jobs)

/-- The reads of a promotion. -/
def inspectPromotion (generationId projectId reviewId : String) : Prog Checked := do
  let target ← query (.target projectId)
  let envelope ← projectEnvelope .reviewNotFound projectId reviewId
  let finalized ← query (.finalized projectId)
  match installed reviewId target envelope.review finalized with
  | some transition => return .alreadyCurrent transition
  | none => return .next envelope.review (← checkPromotion runtime generationId projectId reviewId target envelope)

/-- The transaction that installs a review. -/
def reviewUpdate (projectId : String) (review : AuthoritativeNativeReview) : RefUpdate where
  projectId := projectId
  protectedRef := review.protectedRef
  proposalRef := review.proposalRef
  expectedHead := review.expectedProtectedHead
  candidateCommit := review.candidateCommit

/-- The transaction of a transition. -/
def refUpdate (transition : NativeProjectRootPromotionTransition) : RefUpdate where
  projectId := transition.projectId
  protectedRef := transition.protectedRef
  proposalRef := transition.proposalRef
  expectedHead := transition.expectedCommit
  candidateCommit := transition.candidateCommit

def saveNativeProjectRootPromotionIntent (transition : NativeProjectRootPromotionTransition) : Prog Unit := do
  let answer : Except ReadError Unit ← Program.effect (ServerCall.saveIntent transition)
  answered answer

def atomicPromote (update : RefUpdate) : Prog Bool := do
  let answer : Except ReadError Bool ← Program.effect (ServerCall.promote update)
  answered answer

def finalizeNativeProjectRootPromotion (transition : NativeProjectRootPromotionTransition) : Prog Unit := do
  let answer : Except ReadError Unit ← Program.effect (ServerCall.finalize transition)
  answered answer

/-- The writes of a promotion. -/
def installPromotion (update : RefUpdate) (transition : NativeProjectRootPromotionTransition) : Prog Unit := do
  saveNativeProjectRootPromotionIntent transition
  let updated ← atomicPromote update
  if !updated then throw .compareAndSwapFailed
  finalizeNativeProjectRootPromotion transition

inductive PromotionOutcome where
  | promoted
  | alreadyCurrent

structure NativeInstalledPromotionResult where
  outcome : PromotionOutcome
  (reviewId protectedRef expectedProtectedHead candidateCommit candidateTree : String)
  sequence : Nat

def result (outcome : PromotionOutcome) (transition : NativeProjectRootPromotionTransition) :
    NativeInstalledPromotionResult where
  outcome := outcome
  reviewId := transition.reviewId
  protectedRef := transition.protectedRef
  expectedProtectedHead := transition.expectedCommit
  candidateCommit := transition.candidateCommit
  candidateTree := transition.candidateTree
  sequence := transition.sequence

def promoteInstalledNativeReview (generationId projectId reviewId : String) : Prog NativeInstalledPromotionResult := do
  match ← inspectPromotion runtime generationId projectId reviewId with
  | .alreadyCurrent transition => return result .alreadyCurrent transition
  | .next review transition => do
    installPromotion (reviewUpdate projectId review) transition
    return result .promoted transition

/-! ## The recovery -/

def recoverIntent (intent : NativeProjectRootPromotionTransition) : Prog Unit := do
  let current ← query (.revParse intent.projectId intent.protectedRef)
  if current = intent.expectedCommit then
    let updated ← atomicPromote (refUpdate intent)
    if !updated then throw .recoveryCompareAndSwapFailed
    finalizeNativeProjectRootPromotion intent
  else if current ≠ intent.candidateCommit then throw .foreignProtectedHead
  else finalizeNativeProjectRootPromotion intent

def recoverIntents : List NativeProjectRootPromotionTransition → Prog Unit
  | [] => return ()
  | intent :: rest => do
    recoverIntent intent
    recoverIntents rest

def recoverNativeProjectRootPromotions : Prog Unit := do
  let intents ← query .intents
  recoverIntents intents

/-- The part of a start that concerns promotions: the rows are checked when the database is opened. -/
def startup : Prog Unit := do
  query .promotionRows
  recoverNativeProjectRootPromotions

/-! ## The service -/

/-- A left process commits. -/
inductive Drift : World → World → Prop
  | refl {w : World} : Drift w w
  | commit {w w' w'' : World} {update : RefUpdate} (hw : Drift w w') (hu : update ∈ w'.children)
    (hc : w'.commit update = some w'') : Drift w w''

/-- A write that is answered is in effect; one that fails may be. -/
def Writes {ε : Type} (outcome : Except ε World) (w : World) (answer : Except ReadError Unit) (w' : World) : Prop :=
  (answer = .ok () ∧ outcome = .ok w') ∨ ((∃ error, answer = .error error) ∧ (w' = w ∨ outcome = .ok w'))

/-- A write of the database. -/
def World.writeDb (f : PromotionDatabase → Except PromotionStateError PromotionDatabase) (w : World) :
    Except PromotionStateError World := do
  let db ← f w.db
  return { w with db }

variable [ReviewText]

/-- What a call answers and does. -/
def Answers (w : World) : (call : ServerCall) → call.Answer → World → Prop
  | .read q, answer, w' => w' = w ∧ (answer = q.answer runtime w ∨ ∃ error, answer = .error error)
  | .terminalProof _ _ _, _, w' => w' = w
  | .qemuEvent _, _, w' => w' = w
  | .now, _, w' => w' = w
  | .saveIntent transition, answer, w' => Writes (w.writeDb (·.saveIntent transition)) w answer w'
  | .promote update, answer, w' =>
    (answer = .ok true ∧ w.commit update = some w') ∨ (answer = .ok false ∧ w' = w)
      ∨ ((∃ error, answer = .error error) ∧ (w' = w ∨ w.commit update = some w'))
  | .finalize transition, answer, w' => Writes (w.writeDb (·.finalize transition)) w answer w'
  | .change mutation, answer, w' => Writes (mutation.apply runtime w) w answer w'

/-- What a crash in the middle of a call leaves. -/
def Cuts (w : World) : ServerCall → World → Prop
  | .saveIntent transition, w' => w' = w ∨ w.writeDb (·.saveIntent transition) = .ok w'
  | .promote update, w' =>
    w' = w ∨ w.commit update = some w' ∨ w' = { w with children := update :: w.children }
  | .finalize transition, w' => w' = w ∨ w.writeDb (·.finalize transition) = .ok w'
  | .change mutation, w' => w' = w ∨ mutation.apply runtime w = .ok w'
  | _, w' => w' = w

/-- The operations of the queue. The generation is the one that the service is started for. -/
inductive Operation where
  | promote (generationId projectId reviewId : String)
  | change (mutation : Mutation)

def Operation.program : Operation → Prog Unit
  | .promote generationId projectId reviewId => do
    let _ ← promoteInstalledNativeReview runtime generationId projectId reviewId
  | .change mutation => do
    let answer : Except ReadError Unit ← Program.effect (ServerCall.change mutation)
    answered answer

/-- The server: processes that a crash left may commit before each call. -/
def server : Service World ServerCall ServerCall.Answer Failure Operation where
  performs call w answer w' := ∃ w₁, Drift w w₁ ∧ Answers runtime w₁ call answer w'
  interrupts call w w' := ∃ w₁, Drift w w₁ ∧ Cuts runtime w₁ call w'
  boot := startup
  run := Operation.program runtime

end

end Dim.NativeGit
