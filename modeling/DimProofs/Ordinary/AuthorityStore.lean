/-
`NativeOrdinaryAuthorityStore`: admissions and their invalidation, the expiry that runs before
most operations, the epoch that a new instance begins, and the runs of the database. A public
operation is one transaction, or the expiry and then its own transaction; an instance that crashes
or is replaced leaves the database at a transaction boundary. A `Transaction` carries everything
its caller supplies: the request, the readings of the clock and the random UUIDs.
-/
import DimProofs.Lib.Run
import DimProofs.Ordinary.EventStore
import DimProofs.Ordinary.LeaseStore
import DimProofs.Ordinary.ResultStore

namespace Dim.Ordinary

open Relational

/-! ## Fencing claims -/

/-- `claim_id IN (SELECT claim_id FROM claims WHERE p)`. -/
def AuthorityDatabase.selectsClaim (db : AuthorityDatabase) (p : Claim → Bool) (claimId : String) : Bool :=
  (db.claims.get? claimId).any p

/-- The row a fencing statement inserts for a claim. -/
def Claim.fence (c : Claim) (reason : FenceReason) (now : Int) : CapacityFence :=
  { hostId := c.hostId, capacity := c.capacity, claimId := c.claimId, reason, createdAt := now }

/-- The four statements that fence the claims selected by `p`, receipts before claims. -/
def fenceClaims (reason : FenceReason) (p : Claim → Bool) (now : Int) (db : AuthorityDatabase) :
    Except AuthorityError AuthorityDatabase := do
  let capacityFences := db.capacityFences.insertOrIgnoreAll
    ((db.claims.rows.filter p).map fun c => c.fence reason now)
  let nativeAttemptAssignments := db.nativeAttemptAssignments.delete fun a => db.selectsClaim p a.claimId
  let claimReceipts ← db.claimReceipts.update (fun r => db.selectsClaim p r.claimId)
    fun r => { r with state := .recovering, updatedAt := now }
  let claims ← db.claims.update p fun c => { c with state := .recovering }
  return { db with capacityFences, nativeAttemptAssignments, claimReceipts, claims }

/-- The claims `fenceGenerationClaims` selects. -/
def Claim.ofGeneration (generation : String) (c : Claim) : Bool :=
  c.admissionGeneration = generation && c.state = .active

/-- The claims `fenceExpiredClaims` selects. -/
def Claim.expiredAt (now : Int) (c : Claim) : Bool :=
  c.state = .active && c.leaseExpiresAt ≤ now

/-- The claims `fenceRestartedClaims` selects. -/
def Claim.isActive (c : Claim) : Bool := c.state = .active

def fenceGenerationClaims (generation : String) (now : Int) (db : AuthorityDatabase) :
    Except AuthorityError AuthorityDatabase :=
  fenceClaims .generationRotated (Claim.ofGeneration generation) now db

def fenceExpiredClaims (now : Int) (db : AuthorityDatabase) : Except AuthorityError AuthorityDatabase :=
  fenceClaims .leaseLost (Claim.expiredAt now) now db

/-- The restart updates the claims first and then every active receipt, whatever its claim. -/
def fenceRestartedClaims (now : Int) (db : AuthorityDatabase) : Except AuthorityError AuthorityDatabase := do
  let capacityFences := db.capacityFences.insertOrIgnoreAll
    ((db.claims.rows.filter Claim.isActive).map fun c => c.fence .serviceRestart now)
  let nativeAttemptAssignments := db.nativeAttemptAssignments.delete fun a => db.selectsClaim Claim.isActive a.claimId
  let claims ← db.claims.update Claim.isActive fun c => { c with state := .recovering }
  let claimReceipts ← db.claimReceipts.update (fun r => r.state = .active)
    fun r => { r with state := .recovering, updatedAt := now }
  return { db with capacityFences, nativeAttemptAssignments, claimReceipts, claims }

/-! ## Instances -/

/-- An instance on a database: its options and the epoch it began. -/
structure NativeOrdinaryAuthorityStore where
  serviceId : String
  (leaseMilliseconds claimLeaseMilliseconds : Int)
  capacities : List NativeCapacityPolicy
  ownedEpochId : String

namespace AuthorityStore

variable [Sha256]

def capacityConfigDigest (store : NativeOrdinaryAuthorityStore) : String :=
  nativeCapacityConfigDigest store.capacities

def eventStore (store : NativeOrdinaryAuthorityStore) : EventStoreOptions :=
  { serviceId := store.serviceId, capacityConfigDigest := capacityConfigDigest store }

def claimStore (store : NativeOrdinaryAuthorityStore) : ClaimStoreOptions :=
  { serviceId := store.serviceId, ownedEpochId := store.ownedEpochId,
    capacityConfigDigest := capacityConfigDigest store, claimLeaseMilliseconds := store.claimLeaseMilliseconds,
    capacities := store.capacities }

def leaseStore (store : NativeOrdinaryAuthorityStore) : LeaseStoreOptions :=
  { serviceId := store.serviceId, ownedEpochId := store.ownedEpochId,
    claimLeaseMilliseconds := store.claimLeaseMilliseconds }

def results (store : NativeOrdinaryAuthorityStore) : ResultStoreOptions :=
  { serviceId := store.serviceId, capacityConfigDigest := capacityConfigDigest store }

/-! ## Invalidation and expiry -/

section
omit [Sha256]

/-- `#invalidateGeneration`. -/
def invalidateGeneration (generation : String) (state : AdmissionState) (now : Int) (db : AuthorityDatabase) :
    Except AuthorityError AuthorityDatabase := do
  let nativeAdmissions ← db.nativeAdmissions.update (fun a => a.admissionGeneration = generation)
    fun a => { a with state, updatedAt := now }
  let demands ← db.demands.update (fun d => d.admissionGeneration = generation && d.state = .queued)
    fun d => { d with state := .superseded, updatedAt := now, terminalAt := some now }
  let db' ← ResultStore.denyGeneration generation now { db with nativeAdmissions, demands }
  fenceGenerationClaims generation now db'

/-- The loop of `#expireInTransaction` over the generations it selected. -/
def replaceGenerations (now : Int) : List String → AuthorityDatabase → Except AuthorityError AuthorityDatabase
  | [], db => return db
  | generation :: rest, db => do
    let db' ← invalidateGeneration generation .replaced now db
    replaceGenerations now rest db'

/-- An active admission of another capacity list. -/
def foreignAdmission (digest : String) (a : NativeAdmission) : Bool :=
  a.state = .active && a.capacityConfigDigest ≠ digest

end

/-- `#expireInTransaction`. -/
def expireInTransaction (store : NativeOrdinaryAuthorityStore) (now : Int) (db : AuthorityDatabase) :
    Except AuthorityError AuthorityDatabase := do
  let db' ← fenceExpiredClaims now db
  replaceGenerations now ((db'.nativeAdmissions.rows.filter (foreignAdmission (capacityConfigDigest store))).map
    (·.admissionGeneration)) db'

/-- `#expire`. -/
def expire (store : NativeOrdinaryAuthorityStore) (now : Int) (db : AuthorityDatabase) :
    Except AuthorityError (Unit × AuthorityDatabase) := do
  let db' ← expireInTransaction store now db
  return ((), db')

/-- `#beginEpochAndExpire`: the instance owns `epochId` afterwards. -/
def beginEpochAndExpire (store : NativeOrdinaryAuthorityStore) (now : Int) (db : AuthorityDatabase) :
    Except AuthorityError (Unit × AuthorityDatabase) := do
  let ended ← db.serviceEpochs.update (·.active) fun e => { e with active := false }
  let fenced ← fenceRestartedClaims now { db with serviceEpochs := ended }
  let serviceEpochs ← fenced.serviceEpochs.insert { epochId := store.ownedEpochId, startedAt := now, active := true }
  let db' ← expireInTransaction store now { fenced with serviceEpochs }
  return ((), db')

/-! ## Admissions -/

structure NativeAdmissionGrant where
  admissionGeneration : String
  expiresAt : Int

omit [Sha256] in
/-- The active admission of a Project's repository. -/
def admissionOf (projectId repositoryId : String) (db : AuthorityDatabase) : Option NativeAdmission :=
  db.nativeAdmissions.rows.find? fun a =>
    a.projectId = projectId && a.repositoryId = repositoryId && a.state = .active

/-- The rows of a new generation, after the one it replaces was invalidated. -/
def insertAdmission (store : NativeOrdinaryAuthorityStore) (policy : NativeAdmissionPolicy) (generation : String)
    (now : Int) (db : AuthorityDatabase) : Except AuthorityError AuthorityDatabase := do
  let nativeAdmissions ← db.nativeAdmissions.insert
    { admissionGeneration := generation, projectId := policy.projectId, repositoryId := policy.repositoryId,
      serviceId := store.serviceId, protectedRef := policy.protectedRef, policyRevision := policy.policyRevision,
      requiredReviewRevision := policy.requiredReviewRevision,
      requiredJobSetRevision := policy.requiredJobSetRevision, policyDigest := nativePolicyDigest policy,
      capacityConfigDigest := capacityConfigDigest store, policy, expiresAt := now + store.leaseMilliseconds,
      state := .active, createdAt := now, updatedAt := now }
  return { db with nativeAdmissions }

/-- `admit`. -/
def admitPolicy (store : NativeOrdinaryAuthorityStore) (policy : NativeAdmissionPolicy) (generation : String) (now : Int)
    (db : AuthorityDatabase) : Except AuthorityError (NativeAdmissionGrant × AuthorityDatabase) := do
  let expiresAt := now + store.leaseMilliseconds
  let db ← expireInTransaction store now db
  match admissionOf policy.projectId policy.repositoryId db with
  | some existing =>
    if existing.policyDigest = nativePolicyDigest policy
        ∧ existing.capacityConfigDigest = capacityConfigDigest store then
      let nativeAdmissions ← db.nativeAdmissions.update
        (fun a => a.admissionGeneration = existing.admissionGeneration)
        fun a => { a with policy, expiresAt, updatedAt := now }
      return ({ admissionGeneration := existing.admissionGeneration, expiresAt }, { db with nativeAdmissions })
    else
      let db ← invalidateGeneration existing.admissionGeneration .replaced now db
      let db ← insertAdmission store policy generation now db
      return ({ admissionGeneration := generation, expiresAt }, db)
  | none =>
    let db ← insertAdmission store policy generation now db
    return ({ admissionGeneration := generation, expiresAt }, db)

/-- A revocation that finds no active admission rolls the expiry back as well. -/
def revoke (store : NativeOrdinaryAuthorityStore) (projectId repositoryId generation : String) (now : Int)
    (db : AuthorityDatabase) : Except AuthorityError (Bool × AuthorityDatabase) := do
  let expired ← expireInTransaction store now db
  if expired.nativeAdmissions.any (fun a => a.projectId = projectId && a.repositoryId = repositoryId
      && a.admissionGeneration = generation && a.state = .active) then
    let db' ← invalidateGeneration generation .revoked now expired
    return (true, db')
  else return (false, db)

end AuthorityStore

/-! ## Transactions and runs -/

/-- The transactions of an instance, with all that their callers supply. -/
inductive Transaction where
  | expire (now : Int)
  | admitPolicy (policy : NativeAdmissionPolicy) (generation : String) (now : Int)
  | revoke (projectId repositoryId generation : String) (now : Int)
  | checkReplay (event : NativeReviewJobEvent)
  | acceptEvent (event : NativeReviewJobEvent) (demandId : String) (now : Int)
  | reserve (request : NativeHostClaimRequest) (claimId : String) (now : Int)
  | activate (request : NativeHostClaimRequest) (reservation : PreparingReservation)
      (proof : NativeClaimActivationProof) (now : Int)
  | releaseStale (request : NativeHostClaimRequest) (claimId : String) (now : Int)
  | renew (request : NativeHostClaimRenewalRequest) (now : Int)
  | prepareRecovery (request : NativeHostRecoveryRequest) (now : Int)
  | completeRecovery (request : NativeHostRecoveryRequest) (proof : NativeJobAttemptRevocation) (now : Int)
  | acceptResult (authenticatedHost : String) (request : NativeHostResultRequest) (now : Int)
  | takeDue (now : Int)
  | retry (delivery : NativeReportDelivery) (now : Int)
  | complete (claimId : String) (outcome : ReportOutcome) (denialCode : Option String) (now : Int)

namespace Transaction

variable [Sha256]

/-- The state a committed transaction leaves. -/
def body (store : NativeOrdinaryAuthorityStore) : Transaction → AuthorityDatabase →
    Except AuthorityError AuthorityDatabase
  | .expire now, db => (·.2) <$> AuthorityStore.expire store now db
  | .admitPolicy policy generation now, db => (·.2) <$> AuthorityStore.admitPolicy store policy generation now db
  | .revoke projectId repositoryId generation now, db =>
    (·.2) <$> AuthorityStore.revoke store projectId repositoryId generation now db
  | .checkReplay event, db => (·.2) <$> EventStore.checkReplay event db
  | .acceptEvent event demandId now, db =>
    (·.2) <$> EventStore.accept (AuthorityStore.eventStore store) event demandId now db
  | .reserve request claimId now, db =>
    (·.2) <$> ClaimStore.reserve (AuthorityStore.claimStore store) request claimId now db
  | .activate request reservation proof now, db =>
    (·.2) <$> ClaimStore.activate (AuthorityStore.claimStore store) request reservation proof now db
  | .releaseStale request claimId now, db => (·.2) <$> ClaimStore.releaseStale request claimId now db
  | .renew request now, db => (·.2) <$> LeaseStore.renew (AuthorityStore.leaseStore store) request now db
  | .prepareRecovery request now, db =>
    (·.2) <$> LeaseStore.prepareRecovery (AuthorityStore.leaseStore store) request now db
  | .completeRecovery request proof now, db =>
    (·.2) <$> LeaseStore.completeRecovery (AuthorityStore.leaseStore store) request proof now db
  | .acceptResult host request now, db =>
    (·.2) <$> ResultStore.accept (AuthorityStore.results store) host request now db
  | .takeDue now, db => (·.2) <$> ResultStore.takeDue (AuthorityStore.results store) now db
  | .retry delivery now, db => (·.2) <$> ResultStore.retry delivery now db
  | .complete claimId outcome denialCode now, db =>
    (·.2) <$> ResultStore.complete claimId outcome denialCode now db

/-- The transaction on a database: a throw rolls it back. -/
def run (store : NativeOrdinaryAuthorityStore) (t : Transaction) (db : AuthorityDatabase) : AuthorityDatabase :=
  match body store t db with
  | .ok db' => db'
  | .error _ => db

end Transaction

/-- A new instance on a database: a throw in the constructor leaves the database as it was. -/
def start [Sha256] (store : NativeOrdinaryAuthorityStore) (now : Int) (db : AuthorityDatabase) : AuthorityDatabase :=
  match AuthorityStore.beginEpochAndExpire store now db with
  | .ok (_, db') => db'
  | .error _ => db

/-- One step of the database: some instance is started, or some instance runs a transaction. -/
inductive Step [Sha256] : AuthorityDatabase → AuthorityDatabase → Prop
  | start (store : NativeOrdinaryAuthorityStore) (now : Int) (db : AuthorityDatabase) :
      Step db (start store now db)
  | run (store : NativeOrdinaryAuthorityStore) (t : Transaction) (db : AuthorityDatabase) :
      Step db (t.run store db)

/-- The states of the database over every run of any number of instances. -/
abbrev Reachable [Sha256] : AuthorityDatabase → Prop :=
  Transition.Reachable (· = AuthorityDatabase.empty) Step

end Dim.Ordinary
