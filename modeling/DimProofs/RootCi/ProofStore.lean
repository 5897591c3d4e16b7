/-
`NativeRootCiResultProofStore` and `NativeRootCiTerminalResultProofStore`: what the service tells native
Git about a result, before and after its report was delivered. The first store takes the first row that its
query returns: the model takes the first in table order, and no theorem depends on which it is.
-/
import DimProofs.RootCi.Integrity

namespace Dim.RootCi

open Relational Dim.Ordinary

structure NativeRootCiCurrentResultProofRequest where
  (requestId generationId : String)
  terminalEvent : NativeTerminalEvent

inductive ProofLookup (α : Type) where
  | found (proof : α)
  | conflict
  | notFound

def ProofLookup.isFound {α : Type} : ProofLookup α → Bool
  | .found _ => true
  | _ => false

structure NativeRootCiCurrentResultProof where
  (claimId serviceEpochId admissionGeneration : String)
  rootSequence : Nat
  (rootCommit rootTree : String)
  terminalEvent : NativeTerminalEvent
  terminalEventDigest : String

structure NativeRootCiCurrentTerminalProof where
  (claimId resultGenerationId serviceEpochId admissionGeneration : String)
  rootSequence : Nat
  (rootCommit rootTree terminalEventDigest : String)
  statusAcknowledgement : AcknowledgementBody
  statusAcknowledgementDigest : String
  deliveredAt : Int

/-! ## The query of both stores -/

/-- One row of the join. -/
structure EvidenceRow where
  h : HostResultRow
  o : ReportRow
  c : ClaimRow
  r : ClaimReceiptRow
  d : DemandRow
  e : EventReceiptRow
  a : AdmissionRow

def RootDatabase.evidenceOf (db : RootDatabase) (h : HostResultRow) : Option EvidenceRow := do
  let o ← db.reportOutbox.get? h.claimId
  let c ← db.claims.get? h.claimId
  let r ← db.claimReceipts.get? h.claimId
  let (d, e, a) ← db.joined c
  return { h, o, c, r, d, e, a }

/-- The `WHERE` clause. -/
def EvidenceRow.selected (row : EvidenceRow) (projectId : String) (event : NativeTerminalPayload) : Bool :=
  row.d.projectId = projectId && row.d.reviewId = event.reviewId && row.d.jobName = event.descriptor.jobName
    && row.h.attemptId = event.attemptId && row.h.descriptorDigest = event.descriptorDigest
    && row.h.hostId = event.hostId && row.c.capacity = event.capacity
    && row.c.admissionGeneration = event.descriptor.admissionGeneration
    && row.d.expectedProtectedHead = event.descriptor.expectedProtectedHead

def RootDatabase.evidenceRows (db : RootDatabase) (projectId : String) (event : NativeTerminalPayload) : List EvidenceRow :=
  (db.hostResults.rows.filterMap db.evidenceOf).filter (·.selected projectId event)

section
variable [Sha256]

/-! ## The current result -/

/-- The root and policy of the event are those the admission stands at now. -/
def EvidenceRow.atCurrentRoot (row : EvidenceRow) : Bool :=
  row.e.rootCommit = row.a.rootCommit && row.e.rootTree = row.a.rootTree && row.e.policyDigest = row.a.policyDigest
    && row.e.rootSequence = row.a.rootSequence

/-- The condition of `proof`, whose negation is a conflict. -/
def EvidenceRow.current (row : EvidenceRow) (context : ServiceContext) (request : NativeRootCiCurrentResultProofRequest) :
    Bool :=
  assignmentValid row.r.assignment
    && request.generationId = context.generationId && row.c.generationId = context.generationId
    && row.a.controlPlaneGenerationId = context.generationId
    && row.c.capacityConfigDigest = context.capacityConfigDigest
    && row.a.capacityConfigDigest = context.capacityConfigDigest
    && row.c.state = .reported && row.r.state = .reported && row.d.state = .reported && row.a.state = .active
    && row.h.terminalEvent = request.terminalEvent
    && row.h.terminalEventDigest = nativeRootCiTerminalEventDigest request.terminalEvent
    && row.o.terminalEvent = request.terminalEvent
    && row.o.terminalEventDigest = nativeRootCiTerminalEventDigest request.terminalEvent
    && row.o.state = .pending && row.h.cleanupComplete && row.h.createdAt = row.o.createdAt
    && row.h.request.claimId = row.h.claimId && row.h.request.requestId = row.h.requestId
    && row.h.request.generationId = row.h.generationId && row.h.request.terminalEvent = request.terminalEvent
    && request.terminalEvent.payload.hostId = row.c.hostId
    && request.terminalEvent.payload.descriptor.admissionGeneration = row.c.admissionGeneration
    && request.terminalEvent.payload.attemptId = row.r.attemptId
    && request.terminalEvent.payload.descriptorDigest = row.r.descriptorDigest
    && resultMatches request.terminalEvent.payload row.r.assignment row.r.issuance
    && request.terminalEvent.payload.descriptor.candidateCommit = row.d.candidateCommit
    && request.terminalEvent.payload.descriptor.candidateTree = row.d.candidateTree && row.atCurrentRoot

def EvidenceRow.resultProof (row : EvidenceRow) (request : NativeRootCiCurrentResultProofRequest) :
    NativeRootCiCurrentResultProof :=
  { claimId := row.h.claimId, serviceEpochId := row.c.serviceEpochId, admissionGeneration := row.d.admissionGeneration,
    rootSequence := row.a.rootSequence, rootCommit := row.a.rootCommit, rootTree := row.a.rootTree,
    terminalEvent := request.terminalEvent,
    terminalEventDigest := nativeRootCiTerminalEventDigest request.terminalEvent }

/-- `NativeRootCiResultProofStore.current`. -/
def currentResult (context : ServiceContext) (projectId : String) (request : NativeRootCiCurrentResultProofRequest)
    (db : RootDatabase) : ProofLookup NativeRootCiCurrentResultProof :=
  match db.evidenceRows projectId request.terminalEvent.payload with
  | [] => .notFound
  | row :: _ => if row.current context request then .found (row.resultProof request) else .conflict

/-! ## The current terminal result -/

/-- The condition of `proof` after `assertNativeRootCiSelectedResultIntegrity`. -/
def EvidenceRow.terminal (row : EvidenceRow) (context : ServiceContext) (request : NativeRootCiCurrentResultProofRequest) :
    Bool :=
  assertResult (some context.reporterUsername) row.h row.o row.c row.r row.d
    && request.generationId = context.generationId && row.h.generationId = context.generationId
    && row.c.generationId = context.generationId && row.a.controlPlaneGenerationId = context.generationId
    && row.c.capacityConfigDigest = context.capacityConfigDigest
    && row.a.capacityConfigDigest = context.capacityConfigDigest && row.o.state = .delivered
    && row.c.state = .released && row.r.state = .released && row.d.state = .completed && row.a.state = .active
    && row.h.terminalEvent = request.terminalEvent
    && row.h.terminalEventDigest = nativeRootCiTerminalEventDigest request.terminalEvent
    && row.o.terminalEvent = request.terminalEvent
    && row.o.terminalEventDigest = nativeRootCiTerminalEventDigest request.terminalEvent
    && row.c.admissionGeneration = request.terminalEvent.payload.descriptor.admissionGeneration && row.atCurrentRoot

/-- The proof, where the columns of the acknowledgement hold values that its parser accepts. -/
def EvidenceRow.terminalProof (row : EvidenceRow) (context : ServiceContext)
    (request : NativeRootCiCurrentResultProofRequest) : Option NativeRootCiCurrentTerminalProof := do
  let acknowledgement ← row.o.acknowledgement
  let acknowledgementDigest ← row.o.acknowledgementDigest
  let deliveredAt ← row.o.deliveredAt
  if acknowledges acknowledgement.value request.terminalEvent context.reporterUsername then
    some { claimId := row.h.claimId, resultGenerationId := row.h.generationId, serviceEpochId := row.c.serviceEpochId,
           admissionGeneration := row.c.admissionGeneration, rootSequence := row.a.rootSequence,
           rootCommit := row.a.rootCommit, rootTree := row.a.rootTree,
           terminalEventDigest := nativeRootCiTerminalEventDigest request.terminalEvent,
           statusAcknowledgement := acknowledgement, statusAcknowledgementDigest := acknowledgementDigest, deliveredAt }
  else none

/-- `NativeRootCiTerminalResultProofStore.current`. -/
def currentTerminalResult (context : ServiceContext) (projectId : String)
    (request : NativeRootCiCurrentResultProofRequest) (db : RootDatabase) : ProofLookup NativeRootCiCurrentTerminalProof :=
  match db.evidenceRows projectId request.terminalEvent.payload with
  | [] => .notFound
  | [row] =>
    if row.terminal context request then
      match row.terminalProof context request with
      | some proof => .found proof
      | none => .conflict
    else .conflict
  | _ => .conflict

end

end Dim.RootCi
