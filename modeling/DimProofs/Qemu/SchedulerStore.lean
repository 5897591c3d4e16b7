/-
The database of the QEMU scheduler and `NativeQemuSchedulerStore`. Every operation but `activate`
is one transaction: its body either gives the answer and the new state or throws, which rolls back.
Each `now()` of the source is an argument of its own, and so is each random UUID.
`native_qemu_metadata` is left out: no operation here reads it.
-/
import DimProofs.Lib.Table
import DimProofs.Qemu.Protocol

namespace Dim.Qemu

open Relational

/-! ## Errors -/

inductive SchedulerStoreError where
  | constraint (violation : Violation)
  | eventInvalid
  | eventConflicts
  | claimRequestConflicts
  | activationConflicts
  | renewalConflicts
  | resultRequiresCleanup
  | claimNotFound
  | claimNotActive
  | claimEventMissing
  | resultConflicts
  | resultNotRecorded
  | reportOutboxInvalid
  | recoveryClaimNotFound
  | supersessionConflicts
  | stateInvalid
deriving DecidableEq

instance : Refusal SchedulerStoreError := ⟨.constraint⟩

/-! ## Rows -/

structure EligibilityRow where
  (projectId eligibilityGeneration : String)
  (leaseExpiresAt refreshedAt : Int)

inductive EventState where
  | queued
  | reserved
  | active
  | completed
  | superseded
deriving DecidableEq

structure EventRow where
  (eventId admissionGeneration : String)
  event : NativeQemuReviewEvent
  state : EventState
  createdAt : Int

inductive ClaimState where
  | reserved
  | active
  | completed
deriving DecidableEq

/-- The states of the partial index `native_qemu_capacity_fence`. -/
def ClaimState.held : ClaimState → Bool
  | .reserved | .active => true
  | .completed => false

structure ClaimRow where
  (claimId requestId eventId hostId capacity admissionGeneration : String)
  leaseExpiresAt : Int
  (attemptId descriptorDigest : Option String)
  attempt : Option NativeQemuAttempt
  state : ClaimState
  result : Option NativeQemuCompletion

inductive ReportState where
  | pending
  | delivered
deriving DecidableEq

structure ReportRow where
  claimId : String
  terminalEvent : NativeQemuTerminalEvent
  state : ReportState
  createdAt : Int
  deliveredAt : Option Int

instance : Schema EligibilityRow String where
  key := (·.projectId)
  clash a b := a.eligibilityGeneration = b.eligibilityGeneration
  check _ := true

instance : Schema EventRow String where
  key := (·.eventId)
  clash _ _ := false
  check _ := true

instance : Schema ClaimRow String where
  key := (·.claimId)
  clash a b := a.requestId = b.requestId || a.eventId = b.eventId
    || (a.state.held && b.state.held && a.hostId = b.hostId && a.capacity = b.capacity)
  check _ := true

instance : Schema ReportRow String where
  key := (·.claimId)
  clash _ _ := false
  check _ := true

@[simp] theorem EligibilityRow.key_eq (r : EligibilityRow) : Schema.key r = r.projectId := rfl

@[simp] theorem EventRow.key_eq (r : EventRow) : Schema.key r = r.eventId := rfl

@[simp] theorem ClaimRow.key_eq (r : ClaimRow) : Schema.key r = r.claimId := rfl

@[simp] theorem ReportRow.key_eq (r : ReportRow) : Schema.key r = r.claimId := rfl

structure SchedulerDatabase where
  eligibility : Table EligibilityRow
  events : Table EventRow
  claims : Table ClaimRow
  reportOutbox : Table ReportRow

/-- `initialize`: the tables of a fresh database. -/
def SchedulerDatabase.empty : SchedulerDatabase := ⟨.empty, .empty, .empty, .empty⟩

/-! ## Statements -/

/-- The immediate check of a `REFERENCES` clause. -/
def requireReference (present : Bool) : Except SchedulerStoreError Unit :=
  if present then .ok () else .error (.constraint .foreignKey)

/-- `DELETE FROM native_qemu_claims`, which the report outbox references. -/
def deleteClaims (p : ClaimRow → Bool) (db : SchedulerDatabase) : Except SchedulerStoreError SchedulerDatabase := do
  requireReference (!db.claims.any fun c => p c && (db.reportOutbox.get? c.claimId).isSome)
  return { db with claims := db.claims.delete p }

/-- `INSERT INTO native_qemu_claims`, which references its event. -/
def insertClaim (row : ClaimRow) (db : SchedulerDatabase) : Except SchedulerStoreError SchedulerDatabase := do
  requireReference (db.events.get? row.eventId).isSome
  let claims ← db.claims.insert row
  return { db with claims }

/-- `INSERT INTO native_qemu_report_outbox`, which references its claim. -/
def insertReport (row : ReportRow) (db : SchedulerDatabase) : Except SchedulerStoreError SchedulerDatabase := do
  requireReference (db.claims.get? row.claimId).isSome
  let reportOutbox ← db.reportOutbox.insert row
  return { db with reportOutbox }

/-- `UPDATE native_qemu_events SET state=? WHERE event_id=?`. -/
def setEventState (state : EventState) (eventId : String) (db : SchedulerDatabase) :
    Except SchedulerStoreError SchedulerDatabase := do
  let events ← db.events.update (fun e => e.eventId = eventId) fun e => { e with state }
  return { db with events }

/-- `UPDATE native_qemu_claims SET state=? WHERE claim_id=?`. -/
def setClaimState (state : ClaimState) (claimId : String) (db : SchedulerDatabase) :
    Except SchedulerStoreError SchedulerDatabase := do
  let claims ← db.claims.update (fun c => c.claimId = claimId) fun c => { c with state }
  return { db with claims }

/-! ## The store -/

structure ReservationInput where
  (requestId hostId capacity : String)
  leaseMilliseconds : Int

inductive Recorded where
  | created
  | replay

structure NativeQemuIntake where
  result : Recorded
  eligibilityGeneration : String
  expiresAt : Int

structure NativeQemuFinalization where
  state : ClaimState
  claim : NativeQemuClaim
  attempt : NativeQemuAttempt
  result : Option NativeQemuCompletion

/-- The upsert into `native_qemu_eligibility`. -/
def upsertEligibility (row : EligibilityRow) (db : SchedulerDatabase) :
    Except SchedulerStoreError SchedulerDatabase := do
  let eligibility ←
    (if (db.eligibility.get? row.projectId).isSome then
      db.eligibility.update (fun r => r.projectId = row.projectId) fun _ => row
    else db.eligibility.insert row)
  return { db with eligibility }

def enqueue (event : NativeQemuReviewEvent) (eligibilityLeaseMilliseconds : Int) (uuid : String) (now : Int)
    (db : SchedulerDatabase) : Except SchedulerStoreError (NativeQemuIntake × SchedulerDatabase) := do
  if event.executionKind ≠ "qemu" then throw .eventInvalid
  let expiresAt := now + eligibilityLeaseMilliseconds
  let eligibilityGeneration := ((db.eligibility.get? event.projectId).map (·.eligibilityGeneration)).getD uuid
  let db ← upsertEligibility
    { projectId := event.projectId, eligibilityGeneration, leaseExpiresAt := expiresAt, refreshedAt := now } db
  let events ← db.events.update (fun e => e.state = .queued && e.event.projectId = event.projectId)
    fun e => { e with admissionGeneration := eligibilityGeneration }
  match events.get? event.eventId with
  | some existing =>
    if existing.event ≠ event then throw .eventConflicts
    return (⟨.replay, eligibilityGeneration, expiresAt⟩, { db with events })
  | none =>
    let events ← events.insert
      { eventId := event.eventId, admissionGeneration := eligibilityGeneration, event, state := .queued, createdAt := now }
    return (⟨.created, eligibilityGeneration, expiresAt⟩, { db with events })

/-- A reservation whose lease is over at `now`. -/
def ClaimRow.lapsed (c : ClaimRow) (now : Int) : Bool := c.state = .reserved && c.leaseExpiresAt ≤ now

def expireClaims (now deletedAt : Int) (db : SchedulerDatabase) : Except SchedulerStoreError SchedulerDatabase := do
  let events ← db.events.update (fun e => db.claims.any fun c => c.lapsed now && c.eventId = e.eventId)
    fun e => { e with state := .queued }
  deleteClaims (·.lapsed deletedAt) { db with events }

/-- The private method `claim`: the row with its event. -/
def claim (row : ClaimRow) (db : SchedulerDatabase) : Except SchedulerStoreError NativeQemuClaim :=
  match db.events.get? row.eventId with
  | none => .error .claimEventMissing
  | some e => .ok
    { claimId := row.claimId, requestId := row.requestId, hostId := row.hostId, capacity := row.capacity,
      admissionGeneration := row.admissionGeneration, leaseExpiresAt := row.leaseExpiresAt, event := e.event }

/-- `ORDER BY e.created_at,e.event_id`. -/
def EventRow.before (a b : EventRow) : Bool :=
  a.createdAt < b.createdAt || (a.createdAt = b.createdAt && a.eventId < b.eventId)

/-- The row with this `request_id`, which is UNIQUE. -/
def requestClaim (requestId : String) (db : SchedulerDatabase) : Option ClaimRow :=
  db.claims.getBy (·.requestId) requestId

/-- The oldest queued event whose project is eligible at `now`. -/
def nextEvent (now : Int) (db : SchedulerDatabase) : Option EventRow :=
  db.events.select
    (fun e => e.state = .queued && db.eligibility.any fun a =>
      a.eligibilityGeneration = e.admissionGeneration && now < a.leaseExpiresAt)
    EventRow.before

/-- The row `reserve` inserts. -/
def reservation (input : ReservationInput) (claimId : String) (leaseExpiresAt : Int) (e : EventRow) : ClaimRow :=
  { claimId, requestId := input.requestId, eventId := e.eventId, hostId := input.hostId, capacity := input.capacity,
    admissionGeneration := e.admissionGeneration, leaseExpiresAt, attemptId := none, descriptorDigest := none,
    attempt := none, state := .reserved, result := none }

/-- `reserve`, after the expiry, for a request that has no claim. -/
def reserveNext (input : ReservationInput) (claimId : String) (now leasedAt : Int) (db : SchedulerDatabase) :
    Except SchedulerStoreError (Option NativeQemuClaim × SchedulerDatabase) :=
  if db.claims.any fun c => c.hostId = input.hostId && c.capacity = input.capacity && c.state.held then
    return (none, db)
  else match nextEvent now db with
  | none => return (none, db)
  | some row => do
    let leaseExpiresAt := leasedAt + input.leaseMilliseconds
    let db ← insertClaim (reservation input claimId leaseExpiresAt row) db
    let db ← setEventState .reserved row.eventId db
    return (some
      { claimId, requestId := input.requestId, hostId := input.hostId, capacity := input.capacity,
        admissionGeneration := row.admissionGeneration, leaseExpiresAt, event := row.event }, db)

def reserve (input : ReservationInput) (claimId : String) (expiredAt deletedAt selectedAt leasedAt : Int)
    (db : SchedulerDatabase) : Except SchedulerStoreError (Option NativeQemuClaim × SchedulerDatabase) := do
  let db ← expireClaims expiredAt deletedAt db
  match requestClaim input.requestId db with
  | some replay =>
    if replay.hostId ≠ input.hostId ∨ replay.capacity ≠ input.capacity then throw .claimRequestConflicts
    else if replay.state = .completed then return (none, db)
    else return (some (← claim replay db), db)
  | none => reserveNext input claimId selectedAt leasedAt db

/-- The first statement of `activate`, with its count of changes. -/
def activateClaim (claimId : String) (attempt : NativeQemuAttempt) (now : Int) (db : SchedulerDatabase) :
    Except SchedulerStoreError SchedulerDatabase := do
  let selected : ClaimRow → Bool := fun c => c.claimId = claimId && c.state = .reserved && now < c.leaseExpiresAt
  let claims ← db.claims.update selected fun c =>
    { c with state := .active, attemptId := some attempt.attemptId, descriptorDigest := some attempt.descriptorDigest,
             attempt := some attempt }
  if db.claims.count selected ≠ 1 then throw .activationConflicts
  return { db with claims }

/-- The second statement of `activate`. -/
def activateEvent (claimId : String) (db : SchedulerDatabase) : Except SchedulerStoreError SchedulerDatabase := do
  let eventId := (db.claims.get? claimId).map (·.eventId)
  let events ← db.events.update (fun e => some e.eventId = eventId) fun e => { e with state := .active }
  return { db with events }

def assignment (requestId hostId capacity : String) (db : SchedulerDatabase) :
    Except SchedulerStoreError (Option (NativeQemuClaim × NativeQemuAttempt)) :=
  match requestClaim requestId db with
  | none => return none
  | some row => do
    if row.hostId ≠ hostId ∨ row.capacity ≠ capacity then throw .claimRequestConflicts
    if row.state ≠ .active then return none
    match row.attempt with
    | none => throw .stateInvalid
    | some attempt => return some (← claim row db, attempt)

def renew (claimId hostId capacity : String) (leaseMilliseconds leasedAt now : Int) (db : SchedulerDatabase) :
    Except SchedulerStoreError (Int × SchedulerDatabase) := do
  let leaseExpiresAt := leasedAt + leaseMilliseconds
  let selected : ClaimRow → Bool := fun c => c.claimId = claimId && c.hostId = hostId && c.capacity = capacity
    && c.state = .active && now < c.leaseExpiresAt
  let claims ← db.claims.update selected fun c => { c with leaseExpiresAt }
  if db.claims.count selected ≠ 1 then throw .renewalConflicts
  return (leaseExpiresAt, { db with claims })

def finalization (claimId hostId capacity : String) (db : SchedulerDatabase) :
    Except SchedulerStoreError (Option NativeQemuFinalization) :=
  match (db.claims.get? claimId).filter fun c => c.hostId = hostId && c.capacity = capacity && c.state ≠ .reserved with
  | none => return none
  | some row =>
    match row.attempt with
    | none => return none
    | some attempt => do
      return some { state := row.state, claim := ← claim row db, attempt, result := row.result }

def recordResult (input : NativeQemuCompletion) (now : Int) (db : SchedulerDatabase) :
    Except SchedulerStoreError (Recorded × SchedulerDatabase) :=
  if !input.cleanupComplete then throw .resultRequiresCleanup
  else match db.claims.get? input.claimId with
  | none => throw .claimNotFound
  | some row =>
    match row.state, row.result with
    | .completed, none => throw .stateInvalid
    | .completed, some existing => if existing ≠ input then throw .resultConflicts else return (.replay, db)
    | .reserved, _ => throw .claimNotActive
    | .active, some existing => if existing ≠ input then throw .resultConflicts else return (.replay, db)
    | .active, none => do
      let claims ← db.claims.update (fun c => c.claimId = input.claimId) fun c => { c with result := some input }
      let db ← insertReport
        { claimId := input.claimId, terminalEvent := input.terminalEvent, state := .pending, createdAt := now,
          deliveredAt := none } { db with claims }
      return (.created, db)

def acknowledgeResult (claimId : String) (now : Int) (db : SchedulerDatabase) :
    Except SchedulerStoreError SchedulerDatabase :=
  match (db.claims.get? claimId).filter (·.result.isSome) with
  | none => throw .resultNotRecorded
  | some row =>
    match row.state with
    | .completed => return db
    | .reserved => throw .claimNotActive
    | .active => do
      let db ← setClaimState .completed claimId db
      let db ← setEventState .completed row.eventId db
      let reportOutbox ← db.reportOutbox.update (fun r => r.claimId = claimId)
        fun r => { r with state := .delivered, deliveredAt := some now }
      return { db with reportOutbox }

/-- `ORDER BY o.created_at,o.claim_id`. -/
def ReportRow.before (a b : ReportRow) : Bool :=
  a.createdAt < b.createdAt || (a.createdAt = b.createdAt && a.claimId ≤ b.claimId)

def pendingReports (db : SchedulerDatabase) :
    Except SchedulerStoreError (List (NativeQemuClaim × NativeQemuTerminalEvent)) :=
  let pending := (db.reportOutbox.rows.filter (·.state = .pending)).mergeSort ReportRow.before
  (pending.filterMap fun o => db.claims.get? o.claimId).mapM fun row => do
    match db.reportOutbox.get? row.claimId with
    | none => throw .reportOutboxInvalid
    | some outbox => return (← claim row db, outbox.terminalEvent)

def recover (claimId hostId capacity : String) (db : SchedulerDatabase) :
    Except SchedulerStoreError SchedulerDatabase :=
  match (db.claims.get? claimId).filter fun c => c.hostId = hostId && c.capacity = capacity with
  | none => throw .recoveryClaimNotFound
  | some row => do
    if row.state = .completed then return db
    let db ← setClaimState .completed claimId db
    setEventState .completed row.eventId db

def supersedeReservation (claimId : String) (db : SchedulerDatabase) :
    Except SchedulerStoreError SchedulerDatabase :=
  match (db.claims.get? claimId).filter (·.state = .reserved) with
  | none => throw .supersessionConflicts
  | some row => do
    let db ← setEventState .superseded row.eventId db
    deleteClaims (fun c => c.claimId = claimId) db

end Dim.Qemu
