/-
`NativeRootCiDemandStore`, `NativeRootAdmissionStore` and `NativeRootCiEventReceiptStore`: the
admissions of imported roots, and the events received under them. Every operation is one transaction: its
body gives the answer and the new state, or throws, which rolls back. Each `now()` of the source is an
argument of its own, and so is each random UUID.
-/
import DimProofs.RootCi.Schema

namespace Dim.RootCi

open Relational Dim.Ordinary

/-- One instance of the service: its validated configuration, the generation it serves and its epoch. -/
structure ServiceContext where
  (serviceId generationId serviceEpochId : String)
  capacities : List NativeCapacityPolicy
  (eligibilityLeaseMilliseconds claimLeaseMilliseconds : Int)
  reporterUsername : String
  leases : 0 < eligibilityLeaseMilliseconds ∧ 0 < claimLeaseMilliseconds
deriving DecidableEq

def ServiceContext.capacityConfigDigest [Sha256] (context : ServiceContext) : String :=
  nativeCapacityConfigDigest context.capacities

/-- `capacities.get(hostId \0 capacity)`. -/
def ServiceContext.capacity? (context : ServiceContext) (hostId capacity : String) : Option NativeCapacityPolicy :=
  context.capacities.find? fun c => c.hostId = hostId && c.capacity = capacity

section
variable [Sha256]

/-! ## Demands -/

/-- `UPDATE … SET state = 'superseded' … WHERE state IN ('queued','preparing') AND admission_generation …`. -/
def supersede (selected : String → Bool) (now : Int) (db : RootDatabase) : Except RootCiError RootDatabase := do
  let demands ← db.demands.update (fun d => selected d.admissionGeneration && d.state.waiting)
    fun d => { d with state := .superseded, updatedAt := now, terminalAt := some now }
  return { db with demands }

def supersedeGeneration (admissionGeneration : String) (now : Int) (db : RootDatabase) :
    Except RootCiError RootDatabase :=
  supersede (fun generation => generation = admissionGeneration) now db

/-- The active admissions of another generation or capacity configuration. -/
def AdmissionRow.rotated (context : ServiceContext) (a : AdmissionRow) : Bool :=
  a.state = .active
    && (a.controlPlaneGenerationId ≠ context.generationId || a.capacityConfigDigest ≠ context.capacityConfigDigest)

def supersedeRotated (context : ServiceContext) (now : Int) (db : RootDatabase) : Except RootCiError RootDatabase :=
  supersede (fun generation => (db.admissions.get? generation).any (·.rotated context)) now db

/-! ## Admissions -/

structure NativeRootAdmission where
  (admissionGeneration capacityConfigDigest : String)
  expiresAt : Int
  importedRoot : NativeRootCiPolicyProof

inductive RegistrationResult where
  | registered (admission : NativeRootAdmission)
  | conflict

/-- `UPDATE native_root_admissions SET state = ?, ended_at = ? WHERE …`. -/
def endAdmissions (selected : AdmissionRow → Bool) (state : AdmissionState) (now : Int) (db : RootDatabase) :
    Except RootCiError RootDatabase := do
  let admissions ← db.admissions.update selected fun a => { a with state, endedAt := some now }
  return { db with admissions }

/-- `NativeRootAdmissionStore.activate`. -/
def activateAdmissions (context : ServiceContext) (now : Int) (db : RootDatabase) : Except RootCiError RootDatabase := do
  let db ← supersedeRotated context now db
  endAdmissions (·.rotated context) .replaced now db

/-- The active admission of a project, of which there is at most one. -/
def RootDatabase.activeAdmission (db : RootDatabase) (projectId : String) : Option AdmissionRow :=
  db.admissions.rows.find? fun a => a.projectId = projectId && a.state = .active

def ServiceContext.bindingDigest (context : ServiceContext) (proof : NativeRootCiPolicyProof) : String :=
  nativeRootAdmissionBindingDigest context.serviceId context.generationId context.capacityConfigDigest proof

/-- The row `registerMutation` inserts. -/
def admission (context : ServiceContext) (proof : NativeRootCiPolicyProof) (uuid : String) (now : Int) : AdmissionRow :=
  { admissionGeneration := uuid, bindingDigest := ServiceContext.bindingDigest context proof,
    ordinaryServiceId := context.serviceId, controlPlaneGenerationId := context.generationId,
    projectId := proof.projectId, importNonce := proof.currentRoot.importNonce,
    protectedRef := proof.currentRoot.protectedRef, policyDigest := proof.currentRoot.policyDigest,
    policy := proof.policy, capacityConfigDigest := context.capacityConfigDigest, createdAt := now,
    rootSequence := proof.currentRoot.sequence, rootCommit := proof.currentRoot.commit,
    rootTree := proof.currentRoot.tree, leaseExpiresAt := now + context.eligibilityLeaseMilliseconds, state := .active,
    refreshedAt := now, endedAt := none }

def insertAdmission (context : ServiceContext) (proof : NativeRootCiPolicyProof) (uuid : String) (now : Int)
    (db : RootDatabase) : Except RootCiError (RegistrationResult × RootDatabase) := do
  let admissions ← db.admissions.insert (admission context proof uuid now)
  return (.registered ⟨uuid, context.capacityConfigDigest, now + context.eligibilityLeaseMilliseconds, proof⟩,
    { db with admissions })

/-- The proof names an older root, or another root under the same sequence number. -/
def AdmissionRow.conflicts (active : AdmissionRow) (root : NativeRootCiCurrentRoot) : Bool :=
  root.sequence < active.rootSequence
    || (root.sequence = active.rootSequence && !(active.rootCommit = root.commit && active.rootTree = root.tree))

/-- The row after `registerMutation` under the same binding. -/
def AdmissionRow.advanced (root : NativeRootCiCurrentRoot) (expiresAt now : Int) (a : AdmissionRow) : AdmissionRow :=
  { a with rootSequence := root.sequence, rootCommit := root.commit, rootTree := root.tree,
           leaseExpiresAt := expiresAt, refreshedAt := now }

def refreshAdmission (context : ServiceContext) (proof : NativeRootCiPolicyProof) (active : AdmissionRow) (now : Int)
    (db : RootDatabase) : Except RootCiError (RegistrationResult × RootDatabase) :=
  if active.conflicts proof.currentRoot then return (.conflict, db)
  else do
    let expiresAt := now + context.eligibilityLeaseMilliseconds
    let db ← (if active.rootSequence < proof.currentRoot.sequence then supersedeGeneration active.admissionGeneration now db
      else pure db)
    let admissions ← db.admissions.update (fun a => a.admissionGeneration = active.admissionGeneration)
      (AdmissionRow.advanced proof.currentRoot expiresAt now)
    return (.registered ⟨active.admissionGeneration, context.capacityConfigDigest, expiresAt, proof⟩, { db with admissions })

def registerMutation (context : ServiceContext) (proof : NativeRootCiPolicyProof) (uuid : String) (now : Int)
    (db : RootDatabase) : Except RootCiError (RegistrationResult × RootDatabase) :=
  match db.activeAdmission proof.projectId with
  | none => insertAdmission context proof uuid now db
  | some active =>
    if active.bindingDigest = ServiceContext.bindingDigest context proof then refreshAdmission context proof active now db
    else do
      let db ← supersedeGeneration active.admissionGeneration now db
      let db ← endAdmissions (fun a => a.admissionGeneration = active.admissionGeneration) .replaced now db
      insertAdmission context proof uuid now db

/-- The row is the current admission of this service instance at `now`. -/
def AdmissionRow.current (context : ServiceContext) (now : Int) (a : AdmissionRow) : Bool :=
  a.state = .active && now < a.leaseExpiresAt && a.controlPlaneGenerationId = context.generationId
    && a.capacityConfigDigest = context.capacityConfigDigest

/-- `current`. -/
def currentAdmission (context : ServiceContext) (projectId admissionGeneration : String) (now : Int)
    (db : RootDatabase) : Option AdmissionRow :=
  (db.admissions.get? admissionGeneration).filter fun a => a.projectId = projectId && a.current context now

def revokeMutation (context : ServiceContext) (projectId admissionGeneration : String) (checkedAt supersededAt endedAt : Int)
    (db : RootDatabase) : Except RootCiError (Option AdmissionRow × RootDatabase) :=
  match currentAdmission context projectId admissionGeneration checkedAt db with
  | none => return (none, db)
  | some row => do
    let db ← supersedeGeneration admissionGeneration supersededAt db
    let db ← endAdmissions (fun a => a.admissionGeneration = admissionGeneration) .revoked endedAt db
    return (some row, db)

/-! ## Event receipts -/

def receiptLimit : Nat := 100000

structure ReceiptAdmission where
  generation : String
  expiresAt : Int
  proof : NativeRootCiPolicyProof
  (ordinaryServiceId capacityConfigDigest : String)

inductive ReceiptPreflight where
  | ready (admission : ReceiptAdmission)
  | replay (eligibilityExpiresAt : Int)
  | conflict
  | notFound
  | full

def AdmissionRow.currentRoot (a : AdmissionRow) : NativeRootCiCurrentRoot :=
  { importNonce := a.importNonce, sequence := a.rootSequence, protectedRef := a.protectedRef, commit := a.rootCommit,
    tree := a.rootTree, policyDigest := a.policyDigest }

/-- `parseNativeRootCiPolicyProof` of the columns of an admission. -/
def AdmissionRow.proof? (a : AdmissionRow) : Option NativeRootCiPolicyProof :=
  if h : a.currentRoot.matchesPolicy a.policy = true then
    some { servingGenerationId := a.controlPlaneGenerationId, projectId := a.projectId, currentRoot := a.currentRoot,
           policy := a.policy, parsed := h }
  else none

/-- The private method `activeAdmission`: the selected row. -/
def eligibleAdmission (context : ServiceContext) (request : NativeRootCiEventReceiptRequest) (now : Int)
    (db : RootDatabase) : Option AdmissionRow :=
  (db.admissions.get? request.admissionGeneration).filter fun a =>
    a.projectId = request.event.projectId && a.current context now && a.ordinaryServiceId = context.serviceId

def eventMatches (admission : ReceiptAdmission) (event : NativeRootCiReviewEvent) : Bool :=
  event.protectedRef = admission.proof.currentRoot.protectedRef
    && event.expectedProtectedHead = admission.proof.currentRoot.commit
    && event.policyRevision = admission.proof.policy.policyRevision
    && event.requiredReviewRevision = admission.proof.policy.requiredReviewRevision
    && event.qualityRevision = admission.proof.policy.requiredJobSetRevision

def proofMatches (admission : ReceiptAdmission) (event : NativeRootCiReviewEvent) (proof : NativeRootCiReviewEventProof) :
    Bool :=
  eventMatches admission event && proof.event = event && proof.currentRoot = admission.proof.currentRoot
    && proof.policy = admission.proof.policy && proof.servingGenerationId = admission.proof.servingGenerationId
    && proof.projectId = admission.proof.projectId

def evaluate (context : ServiceContext) (request : NativeRootCiEventReceiptRequest) (now : Int) (db : RootDatabase) :
    Except RootCiError ReceiptPreflight :=
  match eligibleAdmission context request now db with
  | none => return .notFound
  | some row =>
    match row.proof? with
    | none => throw .proofShape
    | some proof =>
      let admission : ReceiptAdmission :=
        { generation := request.admissionGeneration, expiresAt := row.leaseExpiresAt, proof,
          ordinaryServiceId := row.ordinaryServiceId, capacityConfigDigest := row.capacityConfigDigest }
      match db.eventReceipts.get? (request.admissionGeneration, request.event.eventId) with
      | some receipt =>
        if !db.demands.any fun d => d.admissionGeneration = request.admissionGeneration &&
          d.eventId = request.event.eventId then
          throw .receiptStore
        else if receipt.eventDigest = eventDigest request.event then return .replay row.leaseExpiresAt
        else return .conflict
      | none =>
        if receiptLimit ≤ db.eventReceipts.rows.length then return .full
        else if eventMatches admission request.event then return .ready admission
        else return .conflict

/-- The receipt `commit` inserts. -/
def eventReceipt (request : NativeRootCiEventReceiptRequest) (admission : ReceiptAdmission)
    (proof : NativeRootCiReviewEventProof) (receivedAt : Int) : EventReceiptRow :=
  { admissionGeneration := request.admissionGeneration, eventId := request.event.eventId,
    eventDigest := eventDigest request.event, event := request.event, ordinaryServiceId := admission.ordinaryServiceId,
    controlPlaneGenerationId := proof.servingGenerationId, projectId := proof.projectId,
    importNonce := proof.currentRoot.importNonce, policyDigest := proof.currentRoot.policyDigest,
    rootSequence := proof.currentRoot.sequence, rootProtectedRef := proof.currentRoot.protectedRef,
    rootCommit := proof.currentRoot.commit, rootTree := proof.currentRoot.tree,
    capacityConfigDigest := admission.capacityConfigDigest, receivedAt }

/-- The demand `commit` inserts. -/
def demand (request : NativeRootCiEventReceiptRequest) (admission : ReceiptAdmission) (proof : NativeRootCiReviewEventProof)
    (uuid : String) (now : Int) : DemandRow :=
  { demandId := uuid, admissionGeneration := request.admissionGeneration, eventId := request.event.eventId,
    projectId := request.event.projectId, protectedRef := request.event.protectedRef,
    reviewId := request.event.reviewId, expectedProtectedHead := request.event.expectedProtectedHead,
    candidateCommit := request.event.candidateCommit, candidateTree := request.event.candidateTree,
    policyRevision := request.event.policyRevision, requiredReviewRevision := request.event.requiredReviewRevision,
    requiredJobSetRevision := request.event.qualityRevision, jobName := request.event.jobName,
    capacityConfigDigest := admission.capacityConfigDigest, rootSequence := proof.currentRoot.sequence,
    rootCommit := proof.currentRoot.commit, createdAt := now, state := .queued, updatedAt := now, terminalAt := none }

/-- `commit` of an activated service. -/
def commitEvent (context : ServiceContext) (request : NativeRootCiEventReceiptRequest)
    (proof : NativeRootCiReviewEventProof) (uuid : String) (evaluatedAt receivedAt now : Int) (db : RootDatabase) :
    Except RootCiError (ReceiptPreflight × RootDatabase) := do
  match ← evaluate context request evaluatedAt db with
  | .notFound => return (.conflict, db)
  | .replay expiresAt => return (.replay expiresAt, db)
  | .conflict => return (.conflict, db)
  | .full => return (.full, db)
  | .ready admission =>
    if !proofMatches admission request.event proof then return (.conflict, db)
    else do
      let db ← insertEventReceipt (eventReceipt request admission proof receivedAt) db
      let db ← insertDemand (demand request admission proof uuid now) db
      return (.replay admission.expiresAt, db)

end

end Dim.RootCi
