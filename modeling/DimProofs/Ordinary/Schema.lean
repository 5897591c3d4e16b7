/-
The database of the ordinary host authority: its rows, their keys, UNIQUE indexes and CHECKs. The
columns that copy a field of an event into `native_event_inbox` and `demands` are left out where
no statement reads them, and so are `bundle_activation` and `terminal_details`. Clock readings are
integers with no bound.
-/
import DimProofs.Lib.Table
import DimProofs.Ordinary.Protocol

namespace Dim.Ordinary

open Relational

/-! ## Errors -/

inductive AuthorityError where
  | constraint (violation : Violation)
  | staleAuthority
  | invalidClaimRow
  | claimDoesNotMatchIssuance

instance : Refusal AuthorityError := ⟨.constraint⟩

/-- The immediate check of a `REFERENCES` clause. -/
def requireReference (present : Bool) : Except AuthorityError Unit :=
  if present then .ok () else .error (.constraint .foreignKey)

/-! ## Rows -/

structure ServiceEpoch where
  epochId : String
  startedAt : Int
  active : Bool

inductive AdmissionState where
  | active
  | expired
  | revoked
  | replaced
deriving DecidableEq

structure NativeAdmission where
  (admissionGeneration projectId repositoryId serviceId protectedRef policyRevision : String)
  (requiredReviewRevision requiredJobSetRevision policyDigest capacityConfigDigest : String)
  policy : NativeAdmissionPolicy
  expiresAt : Int
  state : AdmissionState
  (createdAt updatedAt : Int)
deriving DecidableEq

structure AttemptAssignment where
  (reviewId jobName claimId attemptId descriptorDigest admissionGeneration : String)
  (hostId capacity : String)

structure EventReplayFence where
  (eventId eventDigest : String)

structure ReviewJobReplayFence where
  (reviewId jobName tupleDigest : String)

inductive InboxState where
  | accepted
  | terminal

structure InboxEvent where
  (eventId eventDigest : String)
  event : NativeReviewJobEvent
  demandId : Option String
  state : InboxState
  receivedAt : Int
  terminalAt : Option Int

inductive DemandState where
  | queued
  | preparing
  | claimed
  | reported
  | completed
  | superseded
  | cancelled
  | failed
deriving DecidableEq

/-- The states listed by the partial index `demands_nonterminal_review_job`. -/
def DemandState.nonterminal : DemandState → Bool
  | .queued | .preparing | .claimed | .reported => true
  | .completed | .superseded | .cancelled | .failed => false

structure Demand where
  (demandId eventId reviewId jobName admissionGeneration : String)
  state : DemandState
  (createdAt updatedAt : Int)
  terminalAt : Option Int

inductive ReceiptState where
  | empty
  | preparing
  | active
  | reported
  | recovering
  | released
deriving DecidableEq

/-- The states in which a receipt holds its slot. -/
def ReceiptState.held : ReceiptState → Bool
  | .preparing | .active | .reported | .recovering => true
  | .empty | .released => false

structure ClaimReceipt where
  (claimId hostId capacity requestId : String)
  (demandId admissionGeneration : Option String)
  state : ReceiptState
  (createdAt updatedAt : Int)
  releasedAt : Option Int

inductive ClaimState where
  | active
  | reported
  | recovering
  | released
deriving DecidableEq

structure Claim where
  (claimId demandId hostId capacity eventId reviewId : String)
  (jobName admissionGeneration attemptId : String)
  descriptor : NativeOrdinaryDescriptor
  descriptorDigest : String
  issuance : NativeJobAttemptIssuance
  leaseExpiresAt : Int
  (renewalRequestId recoveryRequestId recoveryResourceId : Option String)
  cleanupAcknowledgedAt : Option Int
  nativeRevocation : Option NativeJobAttemptRevocation
  releasedAt : Option Int
  serviceEpochId : String
  state : ClaimState

inductive FenceReason where
  | leaseLost
  | generationRotated
  | serviceRestart
  | foreignResource
deriving DecidableEq

structure CapacityFence where
  (hostId capacity claimId : String)
  reason : FenceReason
  createdAt : Int

structure HostResult where
  (claimId hostId requestId attemptId descriptorDigest : String)
  terminalEvent : NativeTerminalEvent
  terminalEventDigest : String
  cleanupComplete : Bool
  createdAt : Int

inductive OutboxState where
  | pending
  | delivering
  | delivered
  | denied
deriving DecidableEq

/-- The states of a report that still waits for native Git. -/
def OutboxState.due : OutboxState → Bool
  | .pending | .delivering => true
  | .delivered | .denied => false

structure ReportOutbox where
  claimId : String
  terminalEvent : NativeTerminalEvent
  terminalEventDigest : String
  state : OutboxState
  attemptCount : Nat
  nextAttemptAt : Int
  denialCode : Option String
  (createdAt updatedAt : Int)

/-! ## Constraints -/

instance : Schema ServiceEpoch String where
  key := (·.epochId)
  clash a b := a.active && b.active
  check r := 0 < r.startedAt

instance : Schema NativeAdmission String where
  key := (·.admissionGeneration)
  clash a b := a.state = .active && b.state = .active && a.projectId = b.projectId && a.repositoryId = b.repositoryId
  check r := 0 < r.expiresAt && 0 < r.createdAt && 0 < r.updatedAt

instance : Schema AttemptAssignment (String × String) where
  key r := (r.reviewId, r.jobName)
  clash a b := a.claimId = b.claimId || a.attemptId = b.attemptId
  check _ := true

instance : Schema EventReplayFence String where
  key := (·.eventId)
  clash _ _ := false
  check _ := true

instance : Schema ReviewJobReplayFence (String × String) where
  key r := (r.reviewId, r.jobName)
  clash _ _ := false
  check _ := true

instance : Schema InboxEvent String where
  key := (·.eventId)
  clash a b := a.eventDigest = b.eventDigest || (a.demandId.isSome && a.demandId = b.demandId)
  check r := 0 < r.receivedAt

instance : Schema Demand String where
  key := (·.demandId)
  clash a b := a.eventId = b.eventId
    || (a.state.nonterminal && b.state.nonterminal && a.reviewId = b.reviewId && a.jobName = b.jobName)
  check r := 0 < r.createdAt && 0 < r.updatedAt

instance : Schema ClaimReceipt String where
  key := (·.claimId)
  clash a b := (a.demandId.isSome && a.demandId = b.demandId)
    || (a.hostId = b.hostId && a.capacity = b.capacity && a.requestId = b.requestId)
  check r := 0 < r.createdAt && 0 < r.updatedAt

/-- A CHECK over NULL passes: only a reading that is there can fail `> 0`. -/
def positiveOrNull (value : Option Int) : Bool := value.all (0 < ·)

instance : Schema Claim String where
  key := (·.claimId)
  clash a b := a.demandId = b.demandId || a.attemptId = b.attemptId
  check r := 0 < r.leaseExpiresAt
    && ((r.recoveryRequestId.isNone && r.recoveryResourceId.isNone && r.cleanupAcknowledgedAt.isNone)
      || (r.recoveryRequestId.isSome && r.recoveryResourceId.isSome && positiveOrNull r.cleanupAcknowledgedAt))
    && ((r.state = .released && positiveOrNull r.releasedAt) || (r.state ≠ .released && r.releasedAt.isNone))
    && (r.nativeRevocation.isNone || r.state = .released)

instance : Schema CapacityFence (String × String) where
  key r := (r.hostId, r.capacity)
  clash a b := a.claimId = b.claimId
  check r := 0 < r.createdAt

instance : Schema HostResult String where
  key := (·.claimId)
  clash a b := a.hostId = b.hostId && a.requestId = b.requestId
  check r := r.cleanupComplete && 0 < r.createdAt

instance : Schema ReportOutbox String where
  key := (·.claimId)
  clash _ _ := false
  check r := 0 < r.nextAttemptAt && 0 < r.createdAt && 0 < r.updatedAt

/-! ## The constraints as simp lemmas -/

@[simp] theorem ServiceEpoch.key_eq (r : ServiceEpoch) : Schema.key r = r.epochId := rfl

@[simp] theorem NativeAdmission.key_eq (r : NativeAdmission) : Schema.key r = r.admissionGeneration := rfl

@[simp] theorem EventReplayFence.key_eq (r : EventReplayFence) : Schema.key r = r.eventId := rfl

@[simp] theorem InboxEvent.key_eq (r : InboxEvent) : Schema.key r = r.eventId := rfl

@[simp] theorem Demand.key_eq (r : Demand) : Schema.key r = r.demandId := rfl

@[simp] theorem ClaimReceipt.key_eq (r : ClaimReceipt) : Schema.key r = r.claimId := rfl

@[simp] theorem Claim.key_eq (r : Claim) : Schema.key r = r.claimId := rfl

@[simp] theorem HostResult.key_eq (r : HostResult) : Schema.key r = r.claimId := rfl

@[simp] theorem ReportOutbox.key_eq (r : ReportOutbox) : Schema.key r = r.claimId := rfl

@[simp] theorem AttemptAssignment.key_eq (r : AttemptAssignment) : Schema.key r = (r.reviewId, r.jobName) := rfl

@[simp] theorem ReviewJobReplayFence.key_eq (r : ReviewJobReplayFence) : Schema.key r = (r.reviewId, r.jobName) := rfl

@[simp] theorem CapacityFence.key_eq (r : CapacityFence) : Schema.key r = (r.hostId, r.capacity) := rfl

@[simp] theorem CapacityFence.clash_eq (a b : CapacityFence) : Schema.clash a b = decide (a.claimId = b.claimId) := rfl

@[simp] theorem CapacityFence.check_eq (r : CapacityFence) : Schema.check r = decide (0 < r.createdAt) := rfl

@[simp] theorem ClaimReceipt.check_eq (r : ClaimReceipt) :
    Schema.check r = (decide (0 < r.createdAt) && decide (0 < r.updatedAt)) := rfl

@[simp] theorem ClaimReceipt.clash_eq (a b : ClaimReceipt) : Schema.clash a b =
    ((a.demandId.isSome && decide (a.demandId = b.demandId))
      || (decide (a.hostId = b.hostId) && decide (a.capacity = b.capacity) && decide (a.requestId = b.requestId))) := rfl

/-! ## Database -/

/-- The tables the authority's statements touch. Rows are deleted from `native_attempt_assignments`
and `capacity_fences` only, which nothing references, so no `ON DELETE RESTRICT` can fire. -/
structure AuthorityDatabase where
  serviceEpochs : Table ServiceEpoch
  nativeAdmissions : Table NativeAdmission
  nativeAttemptAssignments : Table AttemptAssignment
  nativeEventReplayFences : Table EventReplayFence
  reviewJobReplayFences : Table ReviewJobReplayFence
  nativeEventInbox : Table InboxEvent
  demands : Table Demand
  claimReceipts : Table ClaimReceipt
  claims : Table Claim
  capacityFences : Table CapacityFence
  hostResults : Table HostResult
  reportOutbox : Table ReportOutbox

/-- `openNativeOrdinaryDatabase` on a file that does not exist. -/
def AuthorityDatabase.empty : AuthorityDatabase :=
  ⟨.empty, .empty, .empty, .empty, .empty, .empty, .empty, .empty, .empty, .empty, .empty, .empty⟩

/-- `BEGIN IMMEDIATE` … `COMMIT`, with `ROLLBACK` on a throw: the answer and the state left. -/
def transaction {α : Type} (body : AuthorityDatabase → Except AuthorityError (α × AuthorityDatabase))
    (db : AuthorityDatabase) : Except AuthorityError α × AuthorityDatabase :=
  match body db with
  | .ok (answer, db') => (.ok answer, db')
  | .error e => (.error e, db)

theorem transaction_ok {α : Type} {body : AuthorityDatabase → Except AuthorityError (α × AuthorityDatabase)}
    {db db' : AuthorityDatabase} {answer : α} (h : body db = .ok (answer, db')) :
    transaction body db = (.ok answer, db') := by
  unfold transaction; rw [h]

end Dim.Ordinary
