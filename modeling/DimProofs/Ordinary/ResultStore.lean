/-
`NativeOrdinaryResultStore`: intake of a host's terminal event, the outbox of reports to native
Git, and the one place where a report is settled.
-/
import DimProofs.Ordinary.Schema

namespace Dim.Ordinary

open Relational

structure ResultStoreOptions where
  (serviceId capacityConfigDigest : String)

inductive NativeHostResultIntake where
  | accepted
  | conflict
  | notFound

structure NativeReportDelivery where
  claimId : String
  terminalEvent : NativeTerminalEvent
  attemptCount : Nat
deriving DecidableEq

inductive ReportOutcome where
  | delivered
  | denied

def ReportOutcome.outboxState : ReportOutcome → OutboxState
  | .delivered => .delivered
  | .denied => .denied

def ReportOutcome.demandState : ReportOutcome → DemandState
  | .delivered => .completed
  | .denied => .failed

namespace ResultStore

/-- The statements of `#completeInTransaction` on the row it selected. -/
def settle (claim : Claim) (outcome : ReportOutcome) (denialCode : Option String) (now : Int)
    (db : AuthorityDatabase) : Except AuthorityError AuthorityDatabase := do
  let reportOutbox ← db.reportOutbox.update (fun o => o.claimId = claim.claimId)
    fun o => { o with state := outcome.outboxState, denialCode, updatedAt := now }
  let claims ← db.claims.update (fun c => c.claimId = claim.claimId)
    fun c => { c with state := .released, releasedAt := some now }
  let claimReceipts ← db.claimReceipts.update (fun r => r.claimId = claim.claimId)
    fun r => { r with state := .released, updatedAt := now, releasedAt := some now }
  let demands ← db.demands.update (fun d => d.demandId = claim.demandId)
    fun d => { d with state := outcome.demandState, updatedAt := now, terminalAt := some now }
  let nativeEventInbox ← db.nativeEventInbox.update
    (fun e => (demands.get? claim.demandId).any (·.eventId = e.eventId))
    fun e => { e with state := .terminal, terminalAt := some now }
  let nativeAttemptAssignments := db.nativeAttemptAssignments.delete (·.claimId = claim.claimId)
  let capacityFences := db.capacityFences.delete (·.claimId = claim.claimId)
  return { db with reportOutbox, claims, claimReceipts, demands, nativeEventInbox, nativeAttemptAssignments,
                   capacityFences }

/-- The reported claim whose cleaned-up result still waits in the outbox. -/
def settleable (claimId : String) (db : AuthorityDatabase) : Option Claim :=
  if (db.hostResults.get? claimId).any (·.cleanupComplete) && (db.reportOutbox.get? claimId).any (·.state.due) then
    (db.claims.get? claimId).filter (·.state = .reported)
  else none

/-- `#completeInTransaction`. -/
def completeInTransaction (claimId : String) (outcome : ReportOutcome) (denialCode : Option String) (now : Int)
    (db : AuthorityDatabase) : Except AuthorityError (Bool × AuthorityDatabase) :=
  match settleable claimId db with
  | none => return (false, db)
  | some claim => do
    let db' ← settle claim outcome denialCode now db
    return (true, db')

/-- The loop of `denyGeneration` over the claim ids it selected. -/
def denyClaims (now : Int) : List String → AuthorityDatabase → Except AuthorityError AuthorityDatabase
  | [], db => return db
  | claimId :: rest, db => do
    let (_, db') ← completeInTransaction claimId .denied (some "admission-inactive") now db
    denyClaims now rest db'

def denyGeneration (generation : String) (now : Int) (db : AuthorityDatabase) :
    Except AuthorityError AuthorityDatabase :=
  denyClaims now ((db.claims.rows.filter fun c =>
    c.admissionGeneration = generation && c.state = .reported).map (·.claimId)) db

variable [Sha256]

/-- `#currentClaim` over the joined row. -/
def currentClaim (options : ResultStoreOptions) (c : Claim) (event : NativeTerminalEvent) (now : Int)
    (db : AuthorityDatabase) : Bool :=
  c.state = .active
    && (db.claimReceipts.get? c.claimId).any (·.state = .active)
    && (db.demands.get? c.demandId).any (·.state = .claimed)
    && (db.nativeAdmissions.get? c.admissionGeneration).any (fun a =>
      a.state = .active && a.capacityConfigDigest = options.capacityConfigDigest)
    && now < c.leaseExpiresAt
    && db.nativeAttemptAssignments.any (·.claimId = c.claimId)
    && event.payload.reviewId = c.reviewId && event.payload.attemptId = c.attemptId
    && event.payload.attempt = c.issuance.attempt && event.payload.descriptorDigest = c.descriptorDigest
    && event.payload.hostId = c.hostId && event.payload.capacity = c.capacity
    && event.payload.descriptor.admissionGeneration = c.admissionGeneration
    && event.payload.descriptor = c.descriptor

/-- The statements of a first intake. -/
def recordResult (host : String) (request : NativeHostResultRequest) (claim : Claim) (now : Int)
    (db : AuthorityDatabase) : Except AuthorityError AuthorityDatabase := do
  let eventDigest := terminalEventDigest (terminalEventJson request.terminalEvent)
  let hostResults ← db.hostResults.insert
    { claimId := request.claimId, hostId := host, requestId := request.requestId,
      attemptId := request.terminalEvent.payload.attemptId,
      descriptorDigest := request.terminalEvent.payload.descriptorDigest, terminalEvent := request.terminalEvent,
      terminalEventDigest := eventDigest, cleanupComplete := true, createdAt := now }
  let reportOutbox ← db.reportOutbox.insert
    { claimId := request.claimId, terminalEvent := request.terminalEvent, terminalEventDigest := eventDigest,
      state := .pending, attemptCount := 0, nextAttemptAt := now, denialCode := none, createdAt := now,
      updatedAt := now }
  let claims ← db.claims.update (fun c => c.claimId = request.claimId) fun c => { c with state := .reported }
  let claimReceipts ← db.claimReceipts.update (fun r => r.claimId = request.claimId)
    fun r => { r with state := .reported, updatedAt := now }
  let demands ← db.demands.update (fun d => d.demandId = claim.demandId)
    fun d => { d with state := .reported, updatedAt := now }
  return { db with hostResults, reportOutbox, claims, claimReceipts, demands }

/-- The joined row of `accept`: every inner join finds its row, or the claim is not found. -/
def joinedClaim (host claimId : String) (db : AuthorityDatabase) : Option Claim :=
  (db.claims.get? claimId).filter fun c =>
    c.hostId = host && (db.claimReceipts.get? c.claimId).isSome && (db.demands.get? c.demandId).isSome
      && (db.nativeAdmissions.get? c.admissionGeneration).isSome

def accept (options : ResultStoreOptions) (authenticatedHost : String) (request : NativeHostResultRequest) (now : Int)
    (db : AuthorityDatabase) : Except AuthorityError (NativeHostResultIntake × AuthorityDatabase) :=
  let eventDigest := terminalEventDigest (terminalEventJson request.terminalEvent)
  match db.hostResults.rows.find? (fun r => r.claimId = request.claimId
      || (r.hostId = authenticatedHost && r.requestId = request.requestId)) with
  | some r =>
    let exact := r.claimId = request.claimId && r.hostId = authenticatedHost && r.requestId = request.requestId
      && r.terminalEventDigest = eventDigest
    return (if exact then .accepted else .conflict, db)
  | none =>
    match joinedClaim authenticatedHost request.claimId db with
    | none => return (.notFound, db)
    | some claim =>
      if !currentClaim options claim request.terminalEvent now db then return (.conflict, db)
      else do
        let db' ← recordResult authenticatedHost request claim now db
        return (.accepted, db')

omit [Sha256]

/-- `ORDER BY outbox.next_attempt_at, outbox.claim_id`. -/
def sooner (a b : ReportOutbox) : Bool :=
  a.nextAttemptAt < b.nextAttemptAt || (a.nextAttemptAt = b.nextAttemptAt && a.claimId < b.claimId)

/-- The admission of the claim whose report is due. -/
def reportAdmission (claimId : String) (db : AuthorityDatabase) : Option NativeAdmission :=
  (db.claims.get? claimId).bind fun c => db.nativeAdmissions.get? c.admissionGeneration

def takeDue (options : ResultStoreOptions) (now : Int) (db : AuthorityDatabase) :
    Except AuthorityError (Option NativeReportDelivery × AuthorityDatabase) :=
  match db.reportOutbox.select (fun o => o.state.due && o.nextAttemptAt ≤ now
      && (reportAdmission o.claimId db).isSome) sooner with
  | none => return (none, db)
  | some row =>
    if !(reportAdmission row.claimId db).any (fun a => a.state = .active && a.serviceId = options.serviceId
        && a.capacityConfigDigest = options.capacityConfigDigest) then do
      let (_, db') ← completeInTransaction row.claimId .denied (some "admission-inactive") now db
      return (none, db')
    else do
      let attemptCount := row.attemptCount + 1
      let reportOutbox ← db.reportOutbox.update (fun o => o.claimId = row.claimId)
        fun o => { o with state := .delivering, attemptCount, updatedAt := now }
      return (some { claimId := row.claimId, terminalEvent := row.terminalEvent, attemptCount },
        { db with reportOutbox })

/-- `Math.min(30_000, 1_000 * 2 ** Math.min(attemptCount - 1, 5))`; a delivery counts from one. -/
def retryDelay (attemptCount : Nat) : Int := min 30000 (1000 * 2 ^ min (attemptCount - 1) 5 : Nat)

def retry (delivery : NativeReportDelivery) (now : Int) (db : AuthorityDatabase) :
    Except AuthorityError (Unit × AuthorityDatabase) := do
  let reportOutbox ← db.reportOutbox.update (fun o => o.claimId = delivery.claimId && o.state = .delivering)
    fun o => { o with state := .pending, nextAttemptAt := now + retryDelay delivery.attemptCount, updatedAt := now }
  return ((), { db with reportOutbox })

def complete (claimId : String) (outcome : ReportOutcome) (denialCode : Option String) (now : Int)
    (db : AuthorityDatabase) : Except AuthorityError (Unit × AuthorityDatabase) := do
  let (_, db') ← completeInTransaction claimId outcome denialCode now db
  return ((), db')

end ResultStore

end Dim.Ordinary
