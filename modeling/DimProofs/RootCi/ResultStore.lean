/-
`NativeRootCiResultStore` and `NativeRootCiResultReporter`: a host's result is stored with a pending
report, and the report's acknowledgement by native Git releases the claim. `takeOldest`, which only reads,
and the HTTP request before `acknowledge` are not part of either.
-/
import DimProofs.RootCi.ClaimStore

namespace Dim.RootCi

open Relational Dim.Ordinary

section
variable [Sha256]

/-! ## Results -/

inductive NativeRootCiResultIntake where
  | accepted
  | conflict
  | notFound

/-- The terminal event is the one of this assignment and issuance. -/
def resultMatches (event : NativeTerminalPayload) (assignment : NativeAttemptAssignment)
    (issuance : NativeJobAttemptIssuance) : Bool :=
  event.reviewId = assignment.reviewId && event.reviewId = issuance.reviewId
    && event.attemptId = assignment.attemptId && event.attemptId = issuance.attemptId
    && event.attempt = issuance.attempt
    && event.descriptorDigest = assignment.descriptorDigest && event.descriptorDigest = issuance.descriptorDigest
    && event.hostId = assignment.hostId && event.hostId = issuance.hostId
    && event.capacity = assignment.capacity && event.capacity = issuance.capacity
    && event.descriptor = assignment.descriptor && event.descriptor = issuance.descriptor

/-- The rows that `currentClaim` joins. -/
structure CurrentClaim where
  c : ClaimRow
  r : ClaimReceiptRow
  d : DemandRow
  e : EventReceiptRow
  a : AdmissionRow

def currentClaim (claimId hostId : String) (db : RootDatabase) : Option CurrentClaim := do
  let c ← (db.claims.get? claimId).filter fun c => c.hostId = hostId
  let r ← db.claimReceipts.get? claimId
  let (d, e, a) ← db.joined c
  return { c, r, d, e, a }

/-- `matches`. -/
def CurrentClaim.admits (row : CurrentClaim) (context : ServiceContext) (request : NativeRootCiHostResultRequest)
    (now : Int) (db : RootDatabase) : Bool :=
  request.generationId = context.generationId && row.c.generationId = context.generationId
    && row.c.serviceEpochId = context.serviceEpochId && row.c.capacityConfigDigest = context.capacityConfigDigest
    && row.a.capacityConfigDigest = context.capacityConfigDigest
    && row.a.controlPlaneGenerationId = context.generationId
    && row.c.state = .active && row.r.state = .active && row.d.state = .active && row.a.state = .active
    && now < row.r.leaseExpiresAt && ownsActiveEpoch context db
    && row.a.atRoot row.e && row.e.policyDigest = row.a.policyDigest
    && resultMatches request.terminalEvent.payload row.r.assignment row.r.issuance

/-- What an admitted result says of the rows of its claim. -/
structure CurrentClaim.Admitted (row : CurrentClaim) (request : NativeRootCiHostResultRequest) : Prop where
  generation : request.generationId = row.c.generationId
  claim : row.c.state = .active
  receipt : row.r.state = .active
  demand : row.d.state = .active
  result : resultMatches request.terminalEvent.payload row.r.assignment row.r.issuance = true

theorem CurrentClaim.admitted {row : CurrentClaim} {context : ServiceContext} {request : NativeRootCiHostResultRequest}
    {now : Int} {db : RootDatabase} (h : row.admits context request now db = true) : row.Admitted request := by
  simp only [admits, Bool.and_eq_true, decide_eq_true_eq, and_assoc] at h
  obtain ⟨hgen, hcgen, -, -, -, -, hclaim, hreceipt, hdemand, -, -, -, -, -, hresult⟩ := h
  exact ⟨hgen.trans hcgen.symm, hclaim, hreceipt, hdemand, hresult⟩

/-- The rows `accept` inserts. -/
def hostResult (authenticatedHost : String) (request : NativeRootCiHostResultRequest) (now : Int) : HostResultRow :=
  { claimId := request.claimId, hostId := authenticatedHost, requestId := request.requestId,
    generationId := request.generationId, attemptId := request.terminalEvent.payload.attemptId,
    descriptorDigest := request.terminalEvent.payload.descriptorDigest, request,
    terminalEvent := request.terminalEvent,
    terminalEventDigest := nativeRootCiTerminalEventDigest request.terminalEvent, cleanupComplete := true,
    createdAt := now }

def pendingReport (request : NativeRootCiHostResultRequest) (now : Int) : ReportRow :=
  { claimId := request.claimId, terminalEvent := request.terminalEvent,
    terminalEventDigest := nativeRootCiTerminalEventDigest request.terminalEvent, createdAt := now, state := .pending,
    acknowledgement := none, acknowledgementDigest := none, deliveredAt := none }

/-- The updates of `accept`, each of which must change one row. -/
def markReported (claimId demandId : String) (now : Int) (db : RootDatabase) : Except RootCiError RootDatabase := do
  let db ← moveClaim .resultStore claimId (· = .active) .reported now db
  let claimReceipts ← db.claimReceipts.updateOne .resultStore (fun r => r.claimId = claimId && r.state = .active)
    fun r => { r with state := .reported, updatedAt := now }
  moveDemand .resultStore demandId (· = .active) .reported now false { db with claimReceipts }

/-- The first result that stands in the way: of the claim, or of the request. -/
def RootDatabase.existingResult (db : RootDatabase) (authenticatedHost : String)
    (request : NativeRootCiHostResultRequest) : Option HostResultRow :=
  db.hostResults.rows.find? fun h =>
    h.claimId = request.claimId || (h.hostId = authenticatedHost && h.requestId = request.requestId)

/-- `NativeRootCiResultStore.accept`: `checkedAt` is its first reading of the clock, and `store` stores a first result. -/
def acceptWith (store : String → RootDatabase → Except RootCiError RootDatabase) (context : ServiceContext)
    (authenticatedHost : String) (request : NativeRootCiHostResultRequest) (checkedAt : Int) (db : RootDatabase) :
    Except RootCiError (NativeRootCiResultIntake × RootDatabase) :=
  match db.existingResult authenticatedHost request with
  | some existing =>
    return (if existing.claimId = request.claimId ∧ existing.hostId = authenticatedHost
      ∧ existing.requestId = request.requestId ∧ existing.request = request then .accepted else .conflict, db)
  | none =>
    match currentClaim request.claimId authenticatedHost db with
    | none => return (.notFound, db)
    | some row =>
      if !row.admits context request checkedAt db then return (.conflict, db)
      else do
        let db ← store row.c.demandId db
        return (.accepted, db)

def acceptResult (context : ServiceContext) (authenticatedHost : String) (request : NativeRootCiHostResultRequest)
    (checkedAt now : Int) : RootDatabase → Except RootCiError (NativeRootCiResultIntake × RootDatabase) :=
  acceptWith (fun demandId db => do
    let db ← insertHostResult (hostResult authenticatedHost request now) db
    let db ← insertReport (pendingReport request now) db
    markReported request.claimId demandId now db) context authenticatedHost request checkedAt

/-! ## Reports -/

structure Delivery where
  claimId : String
  terminalEvent : NativeTerminalEvent

/-- The result, claim and receipt of a report hold the same event and are reported. -/
def RootDatabase.reportable (db : RootDatabase) (o : ReportRow) : Bool :=
  o.state = .pending
    && ((db.hostResults.get? o.claimId).any fun h =>
      h.terminalEvent = o.terminalEvent && h.terminalEventDigest = o.terminalEventDigest)
    && ((db.claims.get? o.claimId).any fun c => c.state = .reported)
    && (db.claimReceipts.get? o.claimId).any fun r => r.state = .reported

/-- The admission under which a report may be acknowledged at `now`. -/
def AdmissionRow.authorizes (a : AdmissionRow) (c : ClaimRow) (e : EventReceiptRow) (now : Int) : Bool :=
  a.state = .active && now < a.leaseExpiresAt && a.standsFor c e

/-- The demand of the row that `#acknowledge` selects. -/
def acknowledgeable (delivery : Delivery) (now : Int) (db : RootDatabase) : Option String := do
  let o ← db.reportOutbox.get? delivery.claimId
  let c ← db.claims.get? delivery.claimId
  let (d, e, a) ← db.joined c
  if db.reportable o && o.terminalEvent = delivery.terminalEvent && d.state = .reported && a.authorizes c e now then
    some c.demandId
  else none

/-- The updates of `#acknowledge`, each of which must change one row. -/
def deliver (delivery : Delivery) (body : AcknowledgementBody) (demandId : String) (now : Int) (db : RootDatabase) :
    Except RootCiError RootDatabase := do
  let reportOutbox ← db.reportOutbox.updateOne .reporterUnavailable
    (fun o => o.claimId = delivery.claimId && o.state = .pending && o.terminalEvent = delivery.terminalEvent)
    fun o => { o with state := .delivered, acknowledgement := some body,
                      acknowledgementDigest := some ("sha256:" ++ Sha256.hex body.text), deliveredAt := some now }
  let claimReceipts ← db.claimReceipts.updateOne .reporterUnavailable
    (fun r => r.claimId = delivery.claimId && r.state = .reported && r.recoveryRequestId.isNone && r.revocation.isNone)
    fun r => { r with state := .released, updatedAt := now, releasedAt := some now }
  let db ← moveClaim .reporterUnavailable delivery.claimId
    (· = .reported) .released now { db with reportOutbox, claimReceipts }
  moveDemand .reporterUnavailable demandId (· = .reported) .completed now true db

/-- `#acknowledge` of an active service, with what it checks of the response again. -/
def acknowledge (context : ServiceContext) (delivery : Delivery) (body : AcknowledgementBody) (now : Int)
    (db : RootDatabase) : Except RootCiError RootDatabase :=
  if !acknowledges body.value delivery.terminalEvent context.reporterUsername then throw .reporterUnavailable
  else match acknowledgeable delivery now db with
  | none => throw .reporterUnavailable
  | some demandId => deliver delivery body demandId now db

end

end Dim.RootCi
