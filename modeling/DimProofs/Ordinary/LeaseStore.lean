/-
`NativeOrdinaryLeaseStore`: renewing the lease of an active claim, and the two transactions of a
recovery around the revocation of the attempt.
-/
import DimProofs.Ordinary.ClaimStore

namespace Dim.Ordinary

open Relational

structure LeaseStoreOptions where
  (serviceId ownedEpochId : String)
  claimLeaseMilliseconds : Int

inductive NativeRecoveryPreparation where
  | conflict
  | released
  | pending (issuance : NativeJobAttemptIssuance)

namespace LeaseStore

/-- `#exactClaim`. -/
def exactClaim (request : NativeHostClaimRenewalRequest) (db : AuthorityDatabase) : Option Claim :=
  (db.claims.get? request.claimId).filter fun c =>
    c.hostId = request.hostId && c.capacity = request.capacity && c.attemptId = request.attemptId
      && c.descriptorDigest = request.descriptorDigest

/-- `#hasFence`. -/
def hasFence (request : NativeHostClaimRenewalRequest) (db : AuthorityDatabase) : Bool :=
  (db.capacityFences.get? (request.hostId, request.capacity)).any (·.claimId = request.claimId)

/-- `#renewal`. -/
def renewal (options : LeaseStoreOptions) (request : NativeHostClaimRenewalRequest)
    (leaseExpiresAt leaseDurationMilliseconds : Int) : NativeHostClaimRenewal :=
  { serviceId := options.serviceId, requestId := request.requestId, claimId := request.claimId,
    leaseExpiresAt, leaseDurationMilliseconds }

def renew (options : LeaseStoreOptions) (request : NativeHostClaimRenewalRequest) (now : Int)
    (db : AuthorityDatabase) : Except AuthorityError (Option NativeHostClaimRenewal × AuthorityDatabase) := do
  assertOwnedEpoch options.ownedEpochId db
  match exactClaim request db with
  | none => return (none, db)
  | some row =>
    if row.state ≠ .active ∨ row.serviceEpochId ≠ options.ownedEpochId ∨ row.leaseExpiresAt ≤ now then
      return (none, db)
    else if row.renewalRequestId = some request.requestId then
      return (some (renewal options request row.leaseExpiresAt (row.leaseExpiresAt - now)), db)
    else
      let leaseExpiresAt := now + options.claimLeaseMilliseconds
      let claims ← db.claims.update (fun c => c.claimId = request.claimId)
        fun c => { c with leaseExpiresAt, renewalRequestId := some request.requestId }
      return (some (renewal options request leaseExpiresAt options.claimLeaseMilliseconds), { db with claims })

/-- The assignment an active claim has to hold when its recovery starts. -/
def hasAssignment (request : NativeHostClaimRenewalRequest) (db : AuthorityDatabase) : Bool :=
  db.nativeAttemptAssignments.any fun a =>
    a.claimId = request.claimId && a.hostId = request.hostId && a.capacity = request.capacity
      && a.attemptId = request.attemptId && a.descriptorDigest = request.descriptorDigest

/-- The statements that fence an active claim for the recovery its host asks for. -/
def fenceForRecovery (options : LeaseStoreOptions) (request : NativeHostRecoveryRequest) (now : Int)
    (db : AuthorityDatabase) : Except AuthorityError AuthorityDatabase := do
  let capacityFences ← db.capacityFences.insert
    { hostId := request.hostId, capacity := request.capacity, claimId := request.claimId, reason := .leaseLost,
      createdAt := now }
  let nativeAttemptAssignments := db.nativeAttemptAssignments.delete (·.claimId = request.claimId)
  let claims ← db.claims.update
    (fun c => c.claimId = request.claimId && c.state = .active && c.serviceEpochId = options.ownedEpochId)
    fun c => { c with state := .recovering, recoveryRequestId := some request.requestId,
                      recoveryResourceId := some request.resourceId, cleanupAcknowledgedAt := some now }
  let claimReceipts ← db.claimReceipts.update (fun r => r.claimId = request.claimId && r.state = .active)
    fun r => { r with state := .recovering, updatedAt := now }
  return { db with capacityFences, nativeAttemptAssignments, claims, claimReceipts }

/-- The statement that records the recovery request of a claim fenced before. -/
def recordRecovery (request : NativeHostRecoveryRequest) (now : Int) (db : AuthorityDatabase) :
    Except AuthorityError AuthorityDatabase := do
  let claims ← db.claims.update (fun c => c.claimId = request.claimId && c.state = .recovering)
    fun c => { c with recoveryRequestId := some request.requestId, recoveryResourceId := some request.resourceId,
                      cleanupAcknowledgedAt := some now }
  return { db with claims }

def prepareRecovery (options : LeaseStoreOptions) (request : NativeHostRecoveryRequest) (now : Int)
    (db : AuthorityDatabase) : Except AuthorityError (NativeRecoveryPreparation × AuthorityDatabase) := do
  assertOwnedEpoch options.ownedEpochId db
  match exactClaim request.toNativeHostClaimRenewalRequest db with
  | none => return (.conflict, db)
  | some row =>
    if request.resourceId ≠ request.claimId then return (.conflict, db)
    else match row.state with
    | .released =>
      if row.recoveryRequestId = some request.requestId ∧ row.recoveryResourceId = some request.resourceId
          ∧ row.nativeRevocation.isSome then return (.released, db)
      else return (.conflict, db)
    | .active =>
      if row.serviceEpochId ≠ options.ownedEpochId ∨ row.recoveryRequestId.isSome ∨ row.recoveryResourceId.isSome
          ∨ !hasAssignment request.toNativeHostClaimRenewalRequest db then return (.conflict, db)
      else
        let db' ← fenceForRecovery options request now db
        return (.pending row.issuance, db')
    | .recovering =>
      if (row.recoveryRequestId.any (· ≠ request.requestId)) ∨ (row.recoveryResourceId.any (· ≠ request.resourceId))
          ∨ !hasFence request.toNativeHostClaimRenewalRequest db then return (.conflict, db)
      else if row.recoveryRequestId.isNone then
        let db' ← recordRecovery request now db
        return (.pending row.issuance, db')
      else return (.pending row.issuance, db)
    | .reported => return (.conflict, db)

def revocationMatches (issuance : NativeJobAttemptIssuance) (revocation : NativeJobAttemptRevocation) : Bool :=
  revocation.attemptId = issuance.attemptId && revocation.reviewId = issuance.reviewId
    && revocation.jobName = issuance.descriptor.jobName && revocation.attempt = issuance.attempt
    && revocation.descriptorDigest = issuance.descriptorDigest && revocation.hostId = issuance.hostId
    && revocation.capacity = issuance.capacity

/-- The statements that release a recovered claim. -/
def releaseRecovered (claimId demandId : String) (revocation : NativeJobAttemptRevocation) (now : Int)
    (db : AuthorityDatabase) : Except AuthorityError AuthorityDatabase := do
  let claims ← db.claims.update (fun c => c.claimId = claimId)
    fun c => { c with state := .released, nativeRevocation := some revocation, releasedAt := some now }
  let claimReceipts ← db.claimReceipts.update (fun r => r.claimId = claimId)
    fun r => { r with state := .released, updatedAt := now, releasedAt := some now }
  let demands ← db.demands.update (fun d => d.demandId = demandId)
    fun d => { d with state := .superseded, updatedAt := now, terminalAt := some now }
  let capacityFences := db.capacityFences.delete (·.claimId = claimId)
  return { db with claims, claimReceipts, demands, capacityFences }

def completeRecovery (options : LeaseStoreOptions) (request : NativeHostRecoveryRequest)
    (proof : NativeJobAttemptRevocation) (now : Int) (db : AuthorityDatabase) :
    Except AuthorityError (Bool × AuthorityDatabase) := do
  assertOwnedEpoch options.ownedEpochId db
  match exactClaim request.toNativeHostClaimRenewalRequest db with
  | none => return (false, db)
  | some row =>
    if row.state ≠ .recovering ∨ row.recoveryRequestId ≠ some request.requestId
        ∨ row.recoveryResourceId ≠ some request.resourceId
        ∨ !hasFence request.toNativeHostClaimRenewalRequest db then return (false, db)
    else if !revocationMatches row.issuance proof then return (false, db)
    else
      let db' ← releaseRecovered request.claimId row.demandId proof now db
      return (true, db')

end LeaseStore

end Dim.Ordinary
