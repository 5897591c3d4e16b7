/-
`NativeOrdinaryClaimStore` and `loadActiveNativeHostClaim`: reserving the oldest queued demand
for a slot, activating the reservation with an issued attempt, and releasing a stale one.
-/
import DimProofs.Ordinary.Schema

namespace Dim.Ordinary

open Relational

structure ClaimStoreOptions where
  (serviceId ownedEpochId capacityConfigDigest : String)
  claimLeaseMilliseconds : Int
  capacities : List NativeCapacityPolicy

/-- `capacities.get(hostId\0capacity)`. -/
def capacityOf (capacities : List NativeCapacityPolicy) (hostId capacity : String) : Option NativeCapacityPolicy :=
  capacities.find? fun c => capacityKey c.hostId c.capacity = capacityKey hostId capacity

/-- The `preparing` answer of a reservation. -/
structure PreparingReservation where
  (claimId epochId : String)
  event : NativeReviewJobEvent
  admissionGeneration : String
  capacity : NativeCapacityPolicy

inductive NativeClaimReservation where
  | empty
  | conflict
  | active (claim : NativeHostClaim)
  | preparing (reservation : PreparingReservation)

inductive NativeClaimActivation where
  | active (claim : NativeHostClaim)
  | conflict

structure NativeClaimActivationProof where
  assignment : NativeAttemptAssignment
  issuance : NativeJobAttemptIssuance

def AuthorityDatabase.ownsActiveEpoch (db : AuthorityDatabase) (ownedEpochId : String) : Bool :=
  (db.serviceEpochs.get? ownedEpochId).any (·.active)

def assertOwnedEpoch (ownedEpochId : String) (db : AuthorityDatabase) : Except AuthorityError Unit :=
  if db.ownsActiveEpoch ownedEpochId then .ok () else .error .staleAuthority

/-- A column that has to be there. -/
def requiredClaimField {α : Type} (value : Option α) : Except AuthorityError α :=
  match value with
  | some a => .ok a
  | none => .error .invalidClaimRow

def loadActiveNativeHostClaim (serviceId : String) (request : NativeHostClaimRequest) (claimId : String)
    (db : AuthorityDatabase) : Except AuthorityError NativeHostClaim := do
  let row ← requiredClaimField ((db.claims.get? claimId).filter (·.state = .active))
  let issuance := row.issuance
  if issuance.reviewId ≠ row.reviewId ∨ issuance.attemptId ≠ row.attemptId ∨ issuance.hostId ≠ row.hostId
      ∨ issuance.capacity ≠ row.capacity ∨ issuance.descriptorDigest ≠ row.descriptorDigest then
    throw .claimDoesNotMatchIssuance
  return { serviceId, requestId := request.requestId, claimId, eventId := row.eventId, reviewId := row.reviewId,
           attemptId := row.attemptId, attempt := issuance.attempt, admissionGeneration := row.admissionGeneration,
           hostId := row.hostId, capacity := row.capacity, leaseExpiresAt := row.leaseExpiresAt,
           descriptor := row.descriptor, descriptorDigest := row.descriptorDigest }

namespace ClaimStore

/-- The receipt of a host request. -/
def receiptOf (request : NativeHostClaimRequest) (db : AuthorityDatabase) : Option ClaimReceipt :=
  db.claimReceipts.rows.find? fun r =>
    r.hostId = request.hostId && r.capacity = request.capacity && r.requestId = request.requestId

/-- A held receipt or a fence occupies the slot. -/
def slotOccupied (hostId capacity : String) (db : AuthorityDatabase) : Bool :=
  db.claimReceipts.any (fun r => r.hostId = hostId && r.capacity = capacity && r.state.held)
    || (db.capacityFences.get? (hostId, capacity)).isSome

/-- A queued demand whose admission is active, unexpired and of this service and capacity list. -/
def claimable (options : ClaimStoreOptions) (now : Int) (db : AuthorityDatabase) (d : Demand) : Bool :=
  d.state = .queued && (db.nativeEventInbox.get? d.eventId).isSome
    && (db.nativeAdmissions.get? d.admissionGeneration).any fun a =>
      a.serviceId = options.serviceId && a.state = .active && now < a.expiresAt
        && a.capacityConfigDigest = options.capacityConfigDigest

/-- `ORDER BY demands.created_at, demands.demand_id`. -/
def older (a b : Demand) : Bool :=
  a.createdAt < b.createdAt || (a.createdAt = b.createdAt && a.demandId < b.demandId)

def insertReceipt (claimId : String) (request : NativeHostClaimRequest) (demandId generation : Option String)
    (state : ReceiptState) (now : Int) (db : AuthorityDatabase) : Except AuthorityError AuthorityDatabase := do
  let claimReceipts ← db.claimReceipts.insert
    { claimId, hostId := request.hostId, capacity := request.capacity, requestId := request.requestId, demandId,
      admissionGeneration := generation, state, createdAt := now, updatedAt := now, releasedAt := none }
  return { db with claimReceipts }

/-- `#existing`: the answer to a request that already has a receipt. -/
def existing (options : ClaimStoreOptions) (request : NativeHostClaimRequest) (capacity : NativeCapacityPolicy)
    (row : ClaimReceipt) (db : AuthorityDatabase) : Except AuthorityError NativeClaimReservation :=
  match row.state with
  | .empty => return .empty
  | .active => do
    let claim ← loadActiveNativeHostClaim options.serviceId request row.claimId db
    return .active claim
  | .preparing => do
    let demand ← requiredClaimField (row.demandId.bind db.demands.get?)
    let inbox ← requiredClaimField (db.nativeEventInbox.get? demand.eventId)
    let admissionGeneration ← requiredClaimField row.admissionGeneration
    return .preparing { claimId := row.claimId, epochId := options.ownedEpochId, event := inbox.event,
                        admissionGeneration, capacity }
  | .reported | .recovering | .released => return .conflict

def reserve (options : ClaimStoreOptions) (request : NativeHostClaimRequest) (claimId : String) (now : Int)
    (db : AuthorityDatabase) : Except AuthorityError (NativeClaimReservation × AuthorityDatabase) :=
  match capacityOf options.capacities request.hostId request.capacity with
  | none => return (.conflict, db)
  | some capacity => do
    assertOwnedEpoch options.ownedEpochId db
    match receiptOf request db with
    | some row =>
      let answer ← existing options request capacity row db
      return (answer, db)
    | none =>
      if slotOccupied request.hostId request.capacity db then return (.conflict, db)
      else match db.demands.select (claimable options now db) older with
      | none =>
        let db' ← insertReceipt claimId request none none .empty now db
        return (.empty, db')
      | some demand =>
        let inbox ← requiredClaimField (db.nativeEventInbox.get? demand.eventId)
        let db' ← insertReceipt claimId request (some demand.demandId) (some demand.admissionGeneration)
          .preparing now db
        let demands ← db'.demands.update (fun d => d.demandId = demand.demandId && d.state = .queued)
          fun d => { d with state := .preparing, updatedAt := now }
        return (.preparing { claimId, epochId := options.ownedEpochId, event := inbox.event,
                             admissionGeneration := demand.admissionGeneration, capacity },
          { db' with demands })

/-- The live claim of a host under the owned epoch. -/
def active (options : ClaimStoreOptions) (hostId claimId : String) (now : Int) (db : AuthorityDatabase) :
    Except AuthorityError (Option NativeHostClaim) :=
  match db.claimReceipts.get? claimId with
  | none => return none
  | some receipt =>
    if receipt.hostId = hostId ∧ receipt.state = .active
        ∧ (db.claims.get? claimId).any (fun c => c.state = .active && now < c.leaseExpiresAt
          && c.serviceEpochId = options.ownedEpochId) ∧ db.ownsActiveEpoch options.ownedEpochId then do
      let claim ← loadActiveNativeHostClaim options.serviceId
        { requestId := receipt.requestId, hostId, capacity := receipt.capacity } claimId db
      return some claim
    else return none

def assignmentMatches (assignment : NativeAttemptAssignment) (reservation : PreparingReservation) : Bool :=
  assignment.reviewId = reservation.event.reviewId
    && assignment.descriptor.jobName = reservation.event.jobName
    && assignment.admissionGeneration = reservation.admissionGeneration
    && assignment.hostId = reservation.capacity.hostId
    && assignment.capacity = reservation.capacity.capacity

/-- The policy of an admission that is active, unexpired and of this service and capacity list. -/
def currentPolicy (options : ClaimStoreOptions) (generation : String) (now : Int) (db : AuthorityDatabase) :
    Option NativeAdmissionPolicy :=
  ((db.nativeAdmissions.get? generation).filter fun a =>
    a.serviceId = options.serviceId && a.state = .active && now < a.expiresAt
      && a.capacityConfigDigest = options.capacityConfigDigest).map (·.policy)

/-- The receipt that `activate` and `releaseStale` address: by claim id and the whole request. -/
def requestReceipt (request : NativeHostClaimRequest) (claimId : String) (db : AuthorityDatabase) :
    Option ClaimReceipt :=
  (db.claimReceipts.get? claimId).filter fun r =>
    r.hostId = request.hostId && r.capacity = request.capacity && r.requestId = request.requestId

/-- The demand an activation may claim: every refusal of `activate` short of a live receipt is `none`. -/
def activatable (options : ClaimStoreOptions) (reservation : PreparingReservation) (proof : NativeClaimActivationProof)
    (now : Int) (receipt : ClaimReceipt) (db : AuthorityDatabase) : Option String :=
  if receipt.state ≠ .preparing ∨ receipt.admissionGeneration ≠ some reservation.admissionGeneration
      ∨ reservation.epochId ≠ options.ownedEpochId ∨ !db.ownsActiveEpoch options.ownedEpochId
      ∨ !assignmentMatches proof.assignment reservation
      ∨ proof.issuance.issuanceRequestId ≠ reservation.claimId then none
  else
    match currentPolicy options reservation.admissionGeneration now db, receipt.demandId with
    | some policy, some demandId =>
      if descriptorMatchesPolicy proof.assignment.descriptor policy reservation.capacity
          && (db.demands.get? demandId).any (·.state = .preparing) then some demandId
      else none
    | _, _ => none

/-- The statements of a granted activation. -/
def insertActiveClaim (options : ClaimStoreOptions) (request : NativeHostClaimRequest) (reservation : PreparingReservation)
    (proof : NativeClaimActivationProof) (demandId : String) (now : Int) (db : AuthorityDatabase) :
    Except AuthorityError AuthorityDatabase := do
  requireReference (db.nativeEventInbox.get? reservation.event.eventId).isSome
  let claims ← db.claims.insert
    { claimId := reservation.claimId, demandId, hostId := request.hostId, capacity := request.capacity,
      eventId := reservation.event.eventId, reviewId := proof.assignment.reviewId,
      jobName := reservation.event.jobName, admissionGeneration := reservation.admissionGeneration,
      attemptId := proof.assignment.attemptId, descriptor := proof.assignment.descriptor,
      descriptorDigest := proof.assignment.descriptorDigest, issuance := proof.issuance,
      leaseExpiresAt := now + options.claimLeaseMilliseconds, renewalRequestId := none, recoveryRequestId := none,
      recoveryResourceId := none, cleanupAcknowledgedAt := none, nativeRevocation := none, releasedAt := none,
      serviceEpochId := reservation.epochId, state := .active }
  let nativeAttemptAssignments ← db.nativeAttemptAssignments.insert
    { reviewId := proof.assignment.reviewId, jobName := reservation.event.jobName, claimId := reservation.claimId,
      attemptId := proof.assignment.attemptId, descriptorDigest := proof.assignment.descriptorDigest,
      admissionGeneration := reservation.admissionGeneration, hostId := request.hostId, capacity := request.capacity }
  let claimReceipts ← db.claimReceipts.update (fun r => r.claimId = reservation.claimId)
    fun r => { r with state := .active, updatedAt := now }
  let demands ← db.demands.update (fun d => d.demandId = demandId)
    fun d => { d with state := .claimed, updatedAt := now }
  return { db with claims, nativeAttemptAssignments, claimReceipts, demands }

def activate (options : ClaimStoreOptions) (request : NativeHostClaimRequest) (reservation : PreparingReservation)
    (proof : NativeClaimActivationProof) (now : Int) (db : AuthorityDatabase) :
    Except AuthorityError (NativeClaimActivation × AuthorityDatabase) := do
  assertOwnedEpoch options.ownedEpochId db
  match requestReceipt request reservation.claimId db with
  | none => return (.conflict, db)
  | some receipt =>
    if receipt.state = .active then
      let claim ← loadActiveNativeHostClaim options.serviceId request reservation.claimId db
      return (.active claim, db)
    else match activatable options reservation proof now receipt db with
    | none => return (.conflict, db)
    | some demandId =>
      let db' ← insertActiveClaim options request reservation proof demandId now db
      let claim ← loadActiveNativeHostClaim options.serviceId request reservation.claimId db'
      return (.active claim, db')

def releaseStale (request : NativeHostClaimRequest) (claimId : String) (now : Int) (db : AuthorityDatabase) :
    Except AuthorityError (Unit × AuthorityDatabase) :=
  match ((requestReceipt request claimId db).filter (·.state = .preparing)).bind (·.demandId) with
  | none => return ((), db)
  | some demandId => do
    let demands ← db.demands.update (fun d => d.demandId = demandId)
      fun d => { d with state := .superseded, updatedAt := now, terminalAt := some now }
    let claimReceipts ← db.claimReceipts.update (fun r => r.claimId = claimId)
      fun r => { r with state := .released, updatedAt := now, releasedAt := some now }
    return ((), { db with demands, claimReceipts })

end ClaimStore

end Dim.Ordinary
