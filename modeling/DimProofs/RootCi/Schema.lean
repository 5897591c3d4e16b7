/-
The database of the root CI admission service: its rows, their keys, UNIQUE indexes and CHECKs. Each
row is split into the columns that no statement assigns after the INSERT (the record) and the others.
The patterns and the lengths that a CHECK asks of one text column are left out (`RootCi.Intake` has those
of a result), and so are `bundle_activation` and `repository_id`. Clock readings are integers with no bound.
-/
import DimProofs.Lib.Table
import DimProofs.RootCi.Protocol

namespace Dim.RootCi

open Relational Dim.Ordinary

/-! ## Errors -/

inductive RootCiError where
  | constraint (violation : Violation)
  | proofShape
  | receiptStore
  | staleEpoch
  | claimStore
  | lifecycleStore
  | resultStore
  | reporterUnavailable

instance : Refusal RootCiError := ⟨.constraint⟩

/-- The immediate check of a `REFERENCES` clause. -/
def requireReference (present : Bool) : Except RootCiError Unit :=
  if present then .ok () else .error (.constraint .foreignKey)

/-! ## Rows -/

structure EpochRow where
  (epochId generationId : String)
  startedAt : Int
  active : Bool

inductive AdmissionState where
  | active
  | expired
  | revoked
  | replaced
deriving DecidableEq

structure AdmissionRecord where
  (admissionGeneration bindingDigest ordinaryServiceId controlPlaneGenerationId projectId importNonce : String)
  (protectedRef policyDigest : String)
  policy : NativeRootCiPolicy
  capacityConfigDigest : String
  createdAt : Int

structure AdmissionRow extends AdmissionRecord where
  rootSequence : Nat
  (rootCommit rootTree : String)
  leaseExpiresAt : Int
  state : AdmissionState
  refreshedAt : Int
  endedAt : Option Int

structure EventReceiptRow where
  (admissionGeneration eventId eventDigest : String)
  event : NativeRootCiReviewEvent
  (ordinaryServiceId controlPlaneGenerationId projectId importNonce policyDigest : String)
  rootSequence : Nat
  (rootProtectedRef rootCommit rootTree capacityConfigDigest : String)
  receivedAt : Int

inductive DemandState where
  | queued
  | preparing
  | active
  | reported
  | completed
  | superseded
deriving DecidableEq

/-- `state IN ('queued','preparing')`. -/
def DemandState.waiting : DemandState → Bool
  | .queued | .preparing => true
  | _ => false

structure DemandRecord where
  (demandId admissionGeneration eventId projectId protectedRef reviewId : String)
  (expectedProtectedHead candidateCommit candidateTree policyRevision requiredReviewRevision : String)
  (requiredJobSetRevision jobName capacityConfigDigest : String)
  rootSequence : Nat
  rootCommit : String
  createdAt : Int

structure DemandRow extends DemandRecord where
  state : DemandState
  updatedAt : Int
  terminalAt : Option Int

inductive ClaimState where
  | preparing
  | active
  | reported
  | recovering
  | released
deriving DecidableEq

structure ClaimRecord where
  (claimId requestId demandId admissionGeneration eventId hostId : String)
  (capacity serviceEpochId generationId capacityConfigDigest runnerBaseImage jobBaseImage : String)
  bounds : NativeResourceBounds
  response : NativeRootCiClaim
  createdAt : Int

structure ClaimRow extends ClaimRecord where
  state : ClaimState
  updatedAt : Int

inductive ClaimReceiptState where
  | active
  | reported
  | recovering
  | released
deriving DecidableEq

structure ClaimReceiptRecord where
  claimId : String
  activationRequestId : Option String
  (attemptId descriptorDigest : String)
  assignment : NativeAttemptAssignment
  issuance : NativeJobAttemptIssuance
  response : Option NativeRootCiActiveClaim
  createdAt : Int

structure ClaimReceiptRow extends ClaimReceiptRecord where
  leaseExpiresAt : Int
  state : ClaimReceiptState
  recoveryRequestId : Option String
  revocation : Option NativeJobAttemptRevocation
  updatedAt : Int
  releasedAt : Option Int

structure HostResultRow where
  (claimId hostId requestId generationId attemptId descriptorDigest : String)
  request : NativeRootCiHostResultRequest
  terminalEvent : NativeTerminalEvent
  terminalEventDigest : String
  cleanupComplete : Bool
  createdAt : Int

inductive ReportState where
  | pending
  | delivered
  | denied
deriving DecidableEq

structure ReportRecord where
  claimId : String
  terminalEvent : NativeTerminalEvent
  terminalEventDigest : String
  createdAt : Int

structure ReportRow extends ReportRecord where
  state : ReportState
  acknowledgement : Option AcknowledgementBody
  acknowledgementDigest : Option String
  deliveredAt : Option Int

/-! ## Constraints -/

/-- Two values of a nullable UNIQUE column. -/
def sameValue (a b : Option String) : Bool := a.isSome && a = b

instance : Schema EpochRow String where
  key := (·.epochId)
  clash a b := a.active && b.active
  check r := 0 < r.startedAt

instance : Schema AdmissionRow String where
  key := (·.admissionGeneration)
  clash a b := a.state = .active && b.state = .active && a.projectId = b.projectId
  check r := 0 < r.leaseExpiresAt && 0 < r.createdAt && 0 < r.refreshedAt

instance : Schema EventReceiptRow (String × String) where
  key r := (r.admissionGeneration, r.eventId)
  clash _ _ := false
  check r := 0 < r.receivedAt

instance : Schema DemandRow String where
  key := (·.demandId)
  clash a b := a.admissionGeneration = b.admissionGeneration && a.eventId = b.eventId
  check r := 0 < r.createdAt && 0 < r.updatedAt

instance : Schema ClaimRow String where
  key := (·.claimId)
  clash a b := a.demandId = b.demandId
    || (a.hostId = b.hostId && a.capacity = b.capacity
      && (a.requestId = b.requestId || (a.state ≠ .released && b.state ≠ .released)))
  check r := 0 < r.createdAt && 0 < r.updatedAt

instance : Schema ClaimReceiptRow String where
  key := (·.claimId)
  clash a b := sameValue a.activationRequestId b.activationRequestId || sameValue a.recoveryRequestId b.recoveryRequestId
  check r := 0 < r.leaseExpiresAt && 0 < r.createdAt && 0 < r.updatedAt

instance : Schema HostResultRow String where
  key := (·.claimId)
  clash a b := a.hostId = b.hostId && a.requestId = b.requestId
  check r := r.cleanupComplete && 0 < r.createdAt

instance : Schema ReportRow String where
  key := (·.claimId)
  clash _ _ := false
  check r := 0 < r.createdAt && match r.state with
    | .pending | .denied => r.acknowledgement.isNone && r.acknowledgementDigest.isNone && r.deliveredAt.isNone
    | .delivered => r.acknowledgement.isSome && r.acknowledgementDigest.isSome && r.deliveredAt.any (0 < ·)

@[simp] theorem EpochRow.key_eq (r : EpochRow) : Schema.key r = r.epochId := rfl

@[simp] theorem AdmissionRow.key_eq (r : AdmissionRow) : Schema.key r = r.admissionGeneration := rfl

@[simp] theorem EventReceiptRow.key_eq (r : EventReceiptRow) : Schema.key r = (r.admissionGeneration, r.eventId) := rfl

@[simp] theorem DemandRow.key_eq (r : DemandRow) : Schema.key r = r.demandId := rfl

@[simp] theorem ClaimRow.key_eq (r : ClaimRow) : Schema.key r = r.claimId := rfl

@[simp] theorem ClaimReceiptRow.key_eq (r : ClaimReceiptRow) : Schema.key r = r.claimId := rfl

@[simp] theorem HostResultRow.key_eq (r : HostResultRow) : Schema.key r = r.claimId := rfl

@[simp] theorem ReportRow.key_eq (r : ReportRow) : Schema.key r = r.claimId := rfl

structure RootDatabase where
  epochs : Table EpochRow
  admissions : Table AdmissionRow
  eventReceipts : Table EventReceiptRow
  demands : Table DemandRow
  claims : Table ClaimRow
  claimReceipts : Table ClaimReceiptRow
  hostResults : Table HostResultRow
  reportOutbox : Table ReportRow

/-- `openNativeRootAdmissionDatabase` of a new file. -/
def RootDatabase.empty : RootDatabase := ⟨.empty, .empty, .empty, .empty, .empty, .empty, .empty, .empty⟩

/-! ## Statements -/

namespace RootDatabase

/-- The receipt of a demand's event: the join on `(admission_generation, event_id)`. -/
def receiptOf (db : RootDatabase) (d : DemandRow) : Option EventReceiptRow :=
  db.eventReceipts.get? (d.admissionGeneration, d.eventId)

end RootDatabase

/-- `INSERT INTO native_root_ci_event_receipts`, which references its admission. -/
def insertEventReceipt (row : EventReceiptRow) (db : RootDatabase) : Except RootCiError RootDatabase := do
  requireReference (db.admissions.get? row.admissionGeneration).isSome
  let eventReceipts ← db.eventReceipts.insert row
  return { db with eventReceipts }

/-- `INSERT INTO native_root_ci_demands`, which references its receipt. -/
def insertDemand (row : DemandRow) (db : RootDatabase) : Except RootCiError RootDatabase := do
  requireReference (db.receiptOf row).isSome
  let demands ← db.demands.insert row
  return { db with demands }

/-- `INSERT INTO native_root_ci_claims`, which references its demand, receipt and epoch. -/
def insertClaim (row : ClaimRow) (db : RootDatabase) : Except RootCiError RootDatabase := do
  requireReference ((db.demands.get? row.demandId).isSome && (db.epochs.get? row.serviceEpochId).isSome
    && (db.eventReceipts.get? (row.admissionGeneration, row.eventId)).isSome)
  let claims ← db.claims.insert row
  return { db with claims }

/-- `INSERT INTO native_root_ci_claim_receipts`, which references its claim. -/
def insertClaimReceipt (row : ClaimReceiptRow) (db : RootDatabase) : Except RootCiError RootDatabase := do
  requireReference (db.claims.get? row.claimId).isSome
  let claimReceipts ← db.claimReceipts.insert row
  return { db with claimReceipts }

/-- `INSERT INTO native_root_ci_host_results`, which references its claim. -/
def insertHostResult (row : HostResultRow) (db : RootDatabase) : Except RootCiError RootDatabase := do
  requireReference (db.claims.get? row.claimId).isSome
  let hostResults ← db.hostResults.insert row
  return { db with hostResults }

/-- `INSERT INTO native_root_ci_report_outbox`, which references its result. -/
def insertReport (row : ReportRow) (db : RootDatabase) : Except RootCiError RootDatabase := do
  requireReference (db.hostResults.get? row.claimId).isSome
  let reportOutbox ← db.reportOutbox.insert row
  return { db with reportOutbox }

/-- `UPDATE native_root_ci_claims SET state = ?, updated_at = ? WHERE claim_id = ? AND state IN (…)`
with `changes === 1`. -/
def moveClaim (error : RootCiError) (claimId : String) (source : ClaimState → Bool) (state : ClaimState) (now : Int)
    (db : RootDatabase) : Except RootCiError RootDatabase := do
  let claims ← db.claims.updateOne error (fun c => c.claimId = claimId && source c.state)
    fun c => { c with state, updatedAt := now }
  return { db with claims }

/-- `UPDATE native_root_ci_demands SET state = ?, updated_at = ?, … WHERE demand_id = ? AND state IN (…)`
with `changes === 1`; a terminal state takes the reading as `terminal_at`. -/
def moveDemand (error : RootCiError) (demandId : String) (source : DemandState → Bool) (state : DemandState) (now : Int)
    (terminal : Bool) (db : RootDatabase) : Except RootCiError RootDatabase := do
  let demands ← db.demands.updateOne error (fun d => d.demandId = demandId && source d.state)
    fun d => { d with state, updatedAt := now, terminalAt := if terminal then some now else d.terminalAt }
  return { db with demands }

end Dim.RootCi
