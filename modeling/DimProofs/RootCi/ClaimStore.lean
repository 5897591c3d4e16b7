/-
`NativeRootCiClaimStore` and `NativeRootCiClaimLifecycleStore`: a reservation fences a capacity until
its claim is released by the reporter or by a recovery. `handleClaimLifecycle` calls the lifecycle store with
the assignment it derives from the request; the calls to native Git between two transactions are not
part of them.
-/
import DimProofs.RootCi.AdmissionStore

namespace Dim.RootCi

open Relational Dim.Ordinary

section
variable [Sha256]

/-! ## Epochs -/

def activateEpoch (context : ServiceContext) (now : Int) (db : RootDatabase) : Except RootCiError RootDatabase := do
  let epochs ← db.epochs.update (fun e => e.active && e.epochId ≠ context.serviceEpochId) fun e => { e with active := false }
  let epochs ←
    (if (epochs.get? context.serviceEpochId).isSome then
      epochs.update (fun e => e.epochId = context.serviceEpochId) fun e => { e with active := true }
    else epochs.insert
      { epochId := context.serviceEpochId, generationId := context.generationId, startedAt := now, active := true })
  return { db with epochs }

/-- `ownsActiveEpoch`, and `currentEpoch` of the lifecycle and result stores. -/
def ownsActiveEpoch (context : ServiceContext) (db : RootDatabase) : Bool :=
  (db.epochs.get? context.serviceEpochId).any fun e => e.generationId = context.generationId && e.active

/-! ## Reservation -/

inductive ClaimReservationResult where
  | created (claim : NativeRootCiClaim)
  | replay (claim : NativeRootCiClaim)
  | empty
  | conflict
deriving DecidableEq

/-- The root of an admission is the one its event was received at. -/
def AdmissionRow.atRoot (a : AdmissionRow) (r : EventReceiptRow) : Bool :=
  a.rootSequence = r.rootSequence && a.rootCommit = r.rootCommit && a.rootTree = r.rootTree

/-- `ORDER BY d.created_at, d.demand_id`. -/
def DemandRow.before (a b : DemandRow) : Bool :=
  a.createdAt < b.createdAt || (a.createdAt = b.createdAt && a.demandId < b.demandId)

/-- The receipt and the admission of a demand. -/
def RootDatabase.origin (db : RootDatabase) (d : DemandRow) : Option (EventReceiptRow × AdmissionRow) := do
  return (← db.receiptOf d, ← db.admissions.get? d.admissionGeneration)

def RootDatabase.reservable (context : ServiceContext) (now : Int) (db : RootDatabase) (d : DemandRow) : Bool :=
  d.state = .queued && (db.origin d).any fun (r, a) =>
    a.current context now && a.ordinaryServiceId = context.serviceId && a.atRoot r

/-- The private method `claim`. -/
def newClaim (context : ServiceContext) (request : NativeRootCiClaimRequest) (capacity : NativeCapacityPolicy)
    (d : DemandRow) (r : EventReceiptRow) (a : AdmissionRow) (uuid : String) : NativeRootCiClaim :=
  { serviceId := context.serviceId, generationId := context.generationId, serviceEpochId := context.serviceEpochId,
    requestId := request.requestId, claimId := uuid, demandId := d.demandId,
    admissionGeneration := d.admissionGeneration, eventDigest := r.eventDigest, event := r.event,
    admission := { projectId := a.projectId, importNonce := a.importNonce, rootSequence := a.rootSequence,
                   protectedRef := a.protectedRef, rootCommit := a.rootCommit, rootTree := a.rootTree,
                   policyDigest := a.policyDigest, capacityConfigDigest := a.capacityConfigDigest,
                   leaseExpiresAt := a.leaseExpiresAt },
    hostId := capacity.hostId, capacity := capacity.capacity, runnerBaseImage := capacity.runnerBaseImage,
    jobBaseImage := capacity.jobBaseImage, bounds := capacity.bounds }

/-- The row `reserve` inserts. -/
def claimRow (claim : NativeRootCiClaim) (createdAt updatedAt : Int) : ClaimRow :=
  { claimId := claim.claimId, requestId := claim.requestId, demandId := claim.demandId,
    admissionGeneration := claim.admissionGeneration, eventId := claim.event.eventId, hostId := claim.hostId,
    capacity := claim.capacity, serviceEpochId := claim.serviceEpochId, generationId := claim.generationId,
    capacityConfigDigest := claim.admission.capacityConfigDigest, runnerBaseImage := claim.runnerBaseImage,
    jobBaseImage := claim.jobBaseImage, bounds := claim.bounds, response := claim, createdAt, state := .preparing,
    updatedAt }

/-- The claim of a host's request, which UNIQUE(host_id, capacity, request_id) makes the only one. -/
def RootDatabase.requestClaim (db : RootDatabase) (request : NativeRootCiClaimRequest) : Option ClaimRow :=
  db.claims.getBy (fun c => (c.hostId, c.capacity, c.requestId)) (request.hostId, request.capacity, request.requestId)

/-- The claim that fences a capacity. -/
def RootDatabase.occupying (db : RootDatabase) (hostId capacity : String) : Option ClaimRow :=
  db.claims.rows.find? fun c => c.hostId = hostId && c.capacity = capacity && c.state ≠ .released

/-- `reserve`, for a free capacity. -/
def reserveOldest (context : ServiceContext) (request : NativeRootCiClaimRequest) (capacity : NativeCapacityPolicy)
    (uuid : String) (selectedAt updatedAt createdAt claimedAt : Int) (db : RootDatabase) :
    Except RootCiError (ClaimReservationResult × RootDatabase) :=
  match db.demands.select (db.reservable context selectedAt) DemandRow.before with
  | none => return (.empty, db)
  | some d =>
    match db.origin d with
    | none => return (.empty, db)
    | some (r, a) => do
      let claim := newClaim context request capacity d r a uuid
      let db ← moveDemand .claimStore d.demandId (· = .queued) .preparing updatedAt false db
      let db ← insertClaim (claimRow claim createdAt claimedAt) db
      return (.created claim, db)

def reserve (context : ServiceContext) (request : NativeRootCiClaimRequest) (uuid : String)
    (selectedAt updatedAt createdAt claimedAt : Int) (db : RootDatabase) :
    Except RootCiError (ClaimReservationResult × RootDatabase) :=
  if !ownsActiveEpoch context db then throw .staleEpoch
  else match db.requestClaim request with
  | some existing =>
    if existing.generationId ≠ request.generationId then return (.conflict, db)
    else return (.replay existing.response, db)
  | none =>
    match context.capacity? request.hostId request.capacity with
    | none => return (.conflict, db)
    | some capacity =>
      match db.occupying request.hostId request.capacity with
      | some occupied => return (if occupied.state = .reported then .empty else .conflict, db)
      | none => reserveOldest context request capacity uuid selectedAt updatedAt createdAt claimedAt db

/-! ## Verification -/

/-! ## Activation -/

inductive ActivationReplay where
  | none
  | conflict
  | replay (response : NativeRootCiActiveClaim)

inductive ActivationResult where
  | created (response : NativeRootCiActiveClaim)
  | conflict

def activationReplay (request : NativeRootCiClaimActivationRequest) (db : RootDatabase) : ActivationReplay :=
  match db.claimReceipts.get? request.claim.claimId with
  | .none => .none
  | .some row =>
    if row.activationRequestId ≠ request.requestId ∨ row.issuance ≠ request.issuance then .conflict
    else match row.response with
    | .none => .conflict
    | .some response => .replay response

/-- The event root and policy that an admission stands at. -/
def AdmissionRow.standsFor (a : AdmissionRow) (c : ClaimRow) (e : EventReceiptRow) : Bool :=
  a.controlPlaneGenerationId = c.generationId && a.capacityConfigDigest = c.capacityConfigDigest && a.atRoot e
    && a.policyDigest = e.policyDigest

/-- The demand, event and admission a claim is joined with. -/
def RootDatabase.joined (db : RootDatabase) (c : ClaimRow) : Option (DemandRow × EventReceiptRow × AdmissionRow) := do
  let d ← db.demands.get? c.demandId
  return (d, ← db.receiptOf d, ← db.admissions.get? c.admissionGeneration)

def currentReservation (claimId : String) (now : Int) (db : RootDatabase) : Bool :=
  (db.claims.get? claimId).any fun c =>
    (db.joined c).any fun (d, e, a) =>
      c.state = .preparing && d.state = .preparing && a.state = .active && now < a.leaseExpiresAt && a.standsFor c e

/-- The claim of an activation request, when it may be activated at `now`. -/
def activationEligible (context : ServiceContext) (request : NativeRootCiClaimActivationRequest) (now : Int)
    (db : RootDatabase) : Bool :=
  request.generationId = context.generationId && request.claim.serviceEpochId = context.serviceEpochId
    && ownsActiveEpoch context db
    && ((db.claims.get? request.claim.claimId).any fun c => c.state = .preparing && c.response = request.claim)
    && currentReservation request.claim.claimId now db

/-- The response of an activation or a renewal. -/
def activeClaim (context : ServiceContext) (requestId claimId : String) (assignment : NativeAttemptAssignment)
    (issuance : NativeJobAttemptIssuance) (leaseExpiresAt : Int) : NativeRootCiActiveClaim :=
  { serviceId := context.serviceId, generationId := context.generationId, serviceEpochId := context.serviceEpochId,
    requestId, claimId, assignment, issuance, leaseExpiresAt,
    leaseDurationMilliseconds := context.claimLeaseMilliseconds }

/-- The row `activate` inserts. -/
def activeReceipt (context : ServiceContext) (request : NativeRootCiClaimActivationRequest)
    (assignment : NativeAttemptAssignment) (now : Int) : ClaimReceiptRow :=
  { claimId := request.claim.claimId, activationRequestId := some request.requestId,
    attemptId := request.issuance.attemptId, descriptorDigest := request.issuance.descriptorDigest, assignment,
    issuance := request.issuance,
    response := some (activeClaim context request.requestId request.claim.claimId assignment request.issuance
      (now + context.claimLeaseMilliseconds)),
    createdAt := now, leaseExpiresAt := now + context.claimLeaseMilliseconds, state := .active,
    recoveryRequestId := none, revocation := none, updatedAt := now, releasedAt := none }

/-- `activate` checks the condition of `activationEligible` again, and that there is no receipt. -/
def activate (context : ServiceContext) (request : NativeRootCiClaimActivationRequest)
    (assignment : NativeAttemptAssignment) (checkedAt now : Int) (db : RootDatabase) :
    Except RootCiError (ActivationResult × RootDatabase) :=
  if !activationEligible context request checkedAt db then return (.conflict, db)
  else if (db.claimReceipts.get? request.claim.claimId).isSome then return (.conflict, db)
  else do
    let row := activeReceipt context request assignment now
    let db ← insertClaimReceipt row db
    let claims ← db.claims.update (fun c => c.claimId = request.claim.claimId)
      fun c => { c with state := .active, updatedAt := now }
    let demands ← db.demands.update (fun d => d.demandId = request.claim.demandId)
      fun d => { d with state := .active, updatedAt := now }
    return (.created (activeClaim context request.requestId request.claim.claimId assignment request.issuance
      row.leaseExpiresAt), { db with claims, demands })

/-! ## Renewal -/

/-- The receipt of a claim whose lease may be renewed at `now`. -/
def renewable (context : ServiceContext) (request : NativeRootCiClaimLeaseRequest) (now : Int) (db : RootDatabase) :
    Option ClaimReceiptRow := do
  let c ← db.claims.get? request.claimId
  let r ← db.claimReceipts.get? request.claimId
  let (d, e, a) ← db.joined c
  if d.state = .active && a.state = .active && a.standsFor c e && ownsActiveEpoch context db
      && request.generationId = context.generationId && c.serviceEpochId = context.serviceEpochId
      && c.generationId = context.generationId && c.hostId = request.hostId && c.capacity = request.capacity
      && c.state = .active && r.state = .active && r.attemptId = request.attemptId
      && r.descriptorDigest = request.descriptorDigest && now < r.leaseExpiresAt then some r
  else none

def renew (context : ServiceContext) (request : NativeRootCiClaimLeaseRequest) (checkedAt leasedAt updatedAt : Int)
    (db : RootDatabase) : Except RootCiError (Option NativeRootCiActiveClaim × RootDatabase) :=
  match renewable context request checkedAt db with
  | none => return (none, db)
  | some row => do
    let leaseExpiresAt := leasedAt + context.claimLeaseMilliseconds
    let claimReceipts ← db.claimReceipts.update (fun r => r.claimId = request.claimId)
      fun r => { r with leaseExpiresAt, updatedAt }
    return (some (activeClaim context request.requestId request.claimId row.assignment row.issuance leaseExpiresAt),
      { db with claimReceipts })

/-! ## Recovery -/

inductive RecoveryReplay where
  | none
  | conflict
  | released
  | pending

def recoveryReplay (request : NativeRootCiClaimRecoveryRequest) (db : RootDatabase) : RecoveryReplay :=
  match db.claimReceipts.get? request.claimId with
  | .none => .none
  | .some row =>
    if row.state = .active ∨ row.state = .reported then .none
    else if row.recoveryRequestId ≠ request.requestId ∨ row.issuance ≠ request.issuance then .conflict
    else if row.state = .released then .released
    else .pending

def recoveryEligible (context : ServiceContext) (request : NativeRootCiClaimRecoveryRequest) (db : RootDatabase) : Bool :=
  request.generationId = context.generationId && request.resourceId = request.claimId
    && (db.claims.get? request.claimId).any fun c =>
      c.response = request.claim && c.hostId = request.hostId && c.capacity = request.capacity

inductive RecoveryPreparation where
  | conflict
  | released
  | pending

/-- The row `prepareRecovery` inserts for a claim that was never activated. -/
def recoveringReceipt (request : NativeRootCiClaimRecoveryRequest) (assignment : NativeAttemptAssignment) (now : Int) :
    ClaimReceiptRow :=
  { claimId := request.claimId, activationRequestId := none, attemptId := request.attemptId,
    descriptorDigest := request.descriptorDigest, assignment, issuance := request.issuance, response := none,
    createdAt := now, leaseExpiresAt := now, state := .recovering, recoveryRequestId := some request.requestId,
    revocation := none, updatedAt := now, releasedAt := none }

/-- A receipt that `prepareRecovery` refuses to take into recovery. -/
def recoveryConflicts (request : NativeRootCiClaimRecoveryRequest) (assignment : NativeAttemptAssignment)
    (receipt : ClaimReceiptRow) (db : RootDatabase) : Bool :=
  receipt.assignment ≠ assignment || receipt.issuance ≠ request.issuance
    || (receipt.state = .recovering && receipt.recoveryRequestId ≠ request.requestId)
    || (receipt.state = .reported && !(db.reportOutbox.get? request.claimId).any fun o => o.state = .pending)

/-- The claim's last update of `prepareRecovery`. -/
def beginRecovery (request : NativeRootCiClaimRecoveryRequest) (now : Int) (db : RootDatabase) :
    Except RootCiError RootDatabase :=
  moveClaim .lifecycleStore request.claimId (· ≠ .released) .recovering now db

def prepareRecovery (context : ServiceContext) (request : NativeRootCiClaimRecoveryRequest)
    (assignment : NativeAttemptAssignment) (now : Int) (db : RootDatabase) :
    Except RootCiError (RecoveryPreparation × RootDatabase) :=
  if !recoveryEligible context request db then return (.conflict, db)
  else match db.claimReceipts.get? request.claimId with
  | none => do
    let db ← insertClaimReceipt (recoveringReceipt request assignment now) db
    let db ← beginRecovery request now db
    return (.pending, db)
  | some receipt =>
    if receipt.state = .released then
      return (if receipt.recoveryRequestId = request.requestId then .released else .conflict, db)
    else if recoveryConflicts request assignment receipt db then return (.conflict, db)
    else do
      let claimReceipts ← db.claimReceipts.updateOne .lifecycleStore
        (fun r => r.claimId = request.claimId && r.state ≠ .released)
        fun r => { r with state := .recovering, recoveryRequestId := some request.requestId, updatedAt := now }
      let db ← beginRecovery request now { db with claimReceipts }
      return (.pending, db)

/-- A revocation of the attempt that the request recovers. -/
def revocationMatches (request : NativeRootCiClaimRecoveryRequest) (revocation : NativeJobAttemptRevocation) : Bool :=
  revocation.attemptId = request.attemptId && revocation.descriptorDigest = request.descriptorDigest
    && revocation.hostId = request.hostId && revocation.capacity = request.capacity

/-- The two updates that release a claim and its receipt. -/
def releaseRecovered (request : NativeRootCiClaimRecoveryRequest) (revocation : NativeJobAttemptRevocation) (now : Int)
    (db : RootDatabase) : Except RootCiError RootDatabase := do
  let claimReceipts ← db.claimReceipts.updateOne .lifecycleStore
    (fun r => r.claimId = request.claimId && r.state = .recovering)
    fun r => { r with state := .released, revocation := some revocation, updatedAt := now, releasedAt := some now }
  moveClaim .lifecycleStore request.claimId (· = .recovering) .released now { db with claimReceipts }

/-- The last updates of `completeRecovery` when a result was recorded. -/
def denyReport (request : NativeRootCiClaimRecoveryRequest) (now : Int) (db : RootDatabase) :
    Except RootCiError RootDatabase := do
  let reportOutbox ← db.reportOutbox.update (fun o => o.claimId = request.claimId && o.state = .pending)
    fun o => { o with state := .denied }
  moveDemand .lifecycleStore request.claim.demandId (· = .reported) .completed now true { db with reportOutbox }

/-- `handleClaimLifecycle` calls `completeRecovery` for an eligible request only. The `return false` behind
the update of the outbox is not reached: the row was pending in the same transaction. -/
def completeRecovery (context : ServiceContext) (request : NativeRootCiClaimRecoveryRequest)
    (revocation : NativeJobAttemptRevocation) (now : Int) (db : RootDatabase) : Except RootCiError (Bool × RootDatabase) :=
  if !recoveryEligible context request db then return (false, db)
  else match db.claimReceipts.get? request.claimId with
  | none => return (false, db)
  | some receipt =>
    if receipt.state ≠ .recovering ∨ receipt.recoveryRequestId ≠ request.requestId
        ∨ receipt.issuance ≠ request.issuance ∨ !revocationMatches request revocation then return (false, db)
    else match db.hostResults.get? request.claimId, db.reportOutbox.get? request.claimId with
    | some _, some outbox =>
      if outbox.state ≠ .pending then return (false, db)
      else do
        let db ← releaseRecovered request revocation now db
        let db ← denyReport request now db
        return (true, db)
    | none, none => do
      let db ← releaseRecovered request revocation now db
      let db ← moveDemand .lifecycleStore request.claim.demandId
        (fun s => s = .preparing || s = .active) .superseded now true db
      return (true, db)
    | _, _ => return (false, db)

end

end Dim.RootCi
