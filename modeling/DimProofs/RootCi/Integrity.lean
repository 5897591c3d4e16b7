/-
The integrity checks of a service start: `assertNativeRootCiEventReceiptIntegrity` when the state
directory is opened, and `assertNativeRootCiResultIntegrity` again with the configured reporter. A query
joins each row with at most one row of each other table, by a primary key, so the count of joined rows
is the count of the table exactly when every row finds its partners.
-/
import DimProofs.RootCi.ResultStore

namespace Dim.RootCi

open Relational Dim.Ordinary

section
variable [Sha256]

def assertRow (r : EventReceiptRow) (a : AdmissionRow) : Bool :=
  eventDigest r.event = r.eventDigest && r.event.eventId = r.eventId && r.event.projectId = r.projectId
    && r.event.protectedRef = r.rootProtectedRef && r.event.expectedProtectedHead = r.rootCommit
    && a.proof?.any fun proof =>
      r.ordinaryServiceId = a.ordinaryServiceId && r.controlPlaneGenerationId = proof.servingGenerationId
        && r.event.projectId = proof.projectId && r.importNonce = proof.currentRoot.importNonce
        && r.policyDigest = proof.currentRoot.policyDigest && r.capacityConfigDigest = a.capacityConfigDigest
        && r.rootProtectedRef = proof.currentRoot.protectedRef && isObjectId r.rootTree
        && r.rootTree.length = r.rootCommit.length && r.event.policyRevision = proof.policy.policyRevision
        && r.event.requiredReviewRevision = proof.policy.requiredReviewRevision
        && r.event.qualityRevision = proof.policy.requiredJobSetRevision
        && r.rootSequence ≤ proof.currentRoot.sequence
        && (r.rootSequence ≠ proof.currentRoot.sequence
          || (r.rootCommit = proof.currentRoot.commit && r.rootTree = proof.currentRoot.tree))

/-- What the state of a demand asks of its admission and of `terminal_at`. -/
def demandStateValid (d : DemandRow) (a : AdmissionRow) : Bool :=
  match d.state with
  | .queued | .preparing =>
    a.state = .active && d.rootSequence = a.rootSequence && d.rootCommit = a.rootCommit && d.terminalAt.isNone
  | .active | .reported => d.terminalAt.isNone
  | .completed | .superseded => d.terminalAt.isSome

/-- One row of `assertDemands`. -/
def assertDemand (d : DemandRow) (r : EventReceiptRow) (a : AdmissionRow) : Bool :=
  d.projectId = r.projectId && d.protectedRef = r.rootProtectedRef && d.expectedProtectedHead = r.rootCommit
    && d.rootSequence = r.rootSequence && d.rootCommit = r.rootCommit && d.capacityConfigDigest = r.capacityConfigDigest
    && d.reviewId = r.event.reviewId && d.candidateCommit = r.event.candidateCommit
    && d.candidateTree = r.event.candidateTree && d.policyRevision = r.event.policyRevision
    && d.requiredReviewRevision = r.event.requiredReviewRevision
    && d.requiredJobSetRevision = r.event.qualityRevision && d.jobName = r.event.jobName && demandStateValid d a

/-- What `parseNativeRootCiClaim` asks of the root of a stored claim. -/
def claimRootValid (admission : NativeRootCiClaimAdmission) : Bool :=
  isObjectId admission.rootCommit && isObjectId admission.rootTree
    && admission.rootCommit.length = admission.rootTree.length

/-- The columns of a claim against its stored response, demand, receipt and epoch. -/
def assertClaim (c : ClaimRecord) (d : DemandRecord) (r : EventReceiptRow) (epochGenerationId : String) : Bool :=
  claimRootValid c.response.admission && c.response.claimId = c.claimId && c.response.requestId = c.requestId &&
    c.response.demandId = c.demandId
    && c.response.serviceId = r.ordinaryServiceId && c.response.generationId = r.controlPlaneGenerationId
    && c.response.generationId = epochGenerationId && c.response.admissionGeneration = c.admissionGeneration
    && c.response.admissionGeneration = d.admissionGeneration && c.response.event.eventId = c.eventId
    && c.response.event.eventId = d.eventId && c.response.eventDigest = r.eventDigest && c.response.event = r.event
    && c.response.admission.projectId = r.projectId && c.response.admission.importNonce = r.importNonce
    && c.response.admission.policyDigest = r.policyDigest && c.response.admission.rootSequence = r.rootSequence
    && c.response.admission.protectedRef = r.rootProtectedRef && c.response.admission.rootCommit = r.rootCommit
    && c.response.admission.rootTree = r.rootTree
    && c.response.admission.capacityConfigDigest = r.capacityConfigDigest && c.response.hostId = c.hostId
    && c.response.capacity = c.capacity && c.response.serviceEpochId = c.serviceEpochId
    && c.response.generationId = c.generationId
    && c.response.admission.capacityConfigDigest = c.capacityConfigDigest
    && c.response.runnerBaseImage = c.runnerBaseImage && c.response.jobBaseImage = c.jobBaseImage
    && c.response.bounds = c.bounds

/-- The state of a released claim's report and the traces of its recovery. -/
def releaseValid (d : DemandRow) (r : ClaimReceiptRow) (o : Option ReportRow) : Bool :=
  match d.state, o.map ReportRow.state with
  | .completed, some .delivered => r.recoveryRequestId.isNone && r.revocation.isNone
  | .completed, some .denied | .superseded, none =>
    r.recoveryRequestId.isSome && r.revocation.any fun revocation =>
      revocation.attemptId = r.issuance.attemptId && revocation.descriptorDigest = r.issuance.descriptorDigest
  | _, _ => false

/-- The table of claim, demand, receipt and report states. -/
def stateTable (c : ClaimRow) (d : DemandRow) (r : ClaimReceiptRow) (o : Option ReportRow) : Bool :=
  match c.state with
  | .preparing => false
  | .active => d.state = .active && r.state = .active && o.isNone
  | .reported => d.state = .reported && r.state = .reported && o.any (·.state = .pending)
  | .recovering => r.state = .recovering && (d.state = .preparing || d.state = .active || d.state = .reported)
      && (d.state ≠ .reported || o.any (·.state = .pending)) && r.recoveryRequestId.isSome
  | .released => r.state = .released && r.releasedAt.isSome && releaseValid d r o

/-- The columns of a claim receipt against its assignment, issuance and claim. -/
def receiptColumns (c : ClaimRecord) (r : ClaimReceiptRecord) : Bool :=
  assignmentValid r.assignment && r.assignment.attemptId = r.issuance.attemptId
    && r.assignment.attemptId = r.attemptId && r.assignment.descriptorDigest = r.issuance.descriptorDigest
    && r.assignment.descriptorDigest = r.descriptorDigest && r.issuance.issuanceRequestId = c.claimId

def assertClaimLifecycle (c : ClaimRow) (d : DemandRow) (receipt : Option ClaimReceiptRow) (o : Option ReportRow) : Bool :=
  match c.state, receipt with
  | .preparing, r => (d.state = .preparing || d.state = .superseded) && r.isNone
  | _, none => false
  | _, some r => receiptColumns c.toClaimRecord r.toClaimReceiptRecord && stateTable c d r o

/-! ## Results -/

/-- The columns of a result against its request, report, claim and receipt. -/
def resultColumns (h : HostResultRow) (o : ReportRecord) (c : ClaimRecord) (r : ClaimReceiptRecord) : Bool :=
  h.request.terminalEvent = h.terminalEvent && h.request.claimId = h.claimId && h.request.requestId = h.requestId
    && h.request.generationId = h.generationId && h.request.generationId = c.generationId && h.cleanupComplete
    && h.terminalEvent.payload.attemptId = h.attemptId
    && h.terminalEvent.payload.descriptorDigest = h.descriptorDigest
    && h.terminalEvent.payload.hostId = h.hostId && h.terminalEvent.payload.hostId = c.hostId
    && nativeRootCiTerminalEventDigest h.request.terminalEvent = h.terminalEventDigest
    && o.terminalEvent = h.terminalEvent && o.terminalEventDigest = h.terminalEventDigest && h.createdAt = o.createdAt
    && h.terminalEvent.payload.attemptId = r.attemptId
    && h.terminalEvent.payload.descriptorDigest = r.descriptorDigest && assignmentValid r.assignment
    && resultMatches h.terminalEvent.payload r.assignment r.issuance

def pendingValid (o : ReportRow) (c : ClaimRow) (r : ClaimReceiptRow) (d : DemandRow) : Bool :=
  o.acknowledgement.isNone && o.acknowledgementDigest.isNone && o.deliveredAt.isNone && d.state = .reported
    && ((c.state = .reported && r.state = .reported)
      || (c.state = .recovering && r.state = .recovering && r.recoveryRequestId.isSome))
    && r.revocation.isNone && r.releasedAt.isNone && (r.state ≠ .reported || r.recoveryRequestId.isNone)

def settledValid (c : ClaimRow) (r : ClaimReceiptRow) (d : DemandRow) : Bool :=
  c.state = .released && r.state = .released && d.state = .completed && r.releasedAt.isSome

def deniedValid (o : ReportRow) (r : ClaimReceiptRow) : Bool :=
  o.acknowledgement.isNone && o.acknowledgementDigest.isNone && o.deliveredAt.isNone && r.recoveryRequestId.isSome
    && r.revocation.isSome

def deliveredValid (reporterUsername : Option String) (h : HostResultRow) (o : ReportRow) (r : ClaimReceiptRow) : Bool :=
  r.recoveryRequestId.isNone && r.revocation.isNone && o.acknowledgement.any fun body =>
    acknowledges body.value h.request.terminalEvent (reporterUsername.getD body.value.reporterUsername)
      && o.acknowledgementDigest = some ("sha256:" ++ Sha256.hex body.text) && o.deliveredAt.any (o.createdAt ≤ ·)

def assertResult (reporterUsername : Option String) (h : HostResultRow) (o : ReportRow) (c : ClaimRow)
    (r : ClaimReceiptRow) (d : DemandRow) : Bool :=
  resultColumns h o.toReportRecord c.toClaimRecord r.toClaimReceiptRecord && match o.state with
    | .pending => pendingValid o c r d
    | .denied => settledValid c r d && deniedValid o r
    | .delivered => settledValid c r d && deliveredValid reporterUsername h o r

namespace RootDatabase

/-- The joins of `assertResults`. -/
def resultAccepted (reporterUsername : Option String) (db : RootDatabase) (h : HostResultRow) : Bool :=
  (do
    let o ← db.reportOutbox.get? h.claimId
    let c ← db.claims.get? h.claimId
    let r ← db.claimReceipts.get? h.claimId
    let d ← db.demands.get? c.demandId
    return assertResult reporterUsername h o c r d).getD false

def eventReceiptAccepted (db : RootDatabase) (r : EventReceiptRow) : Bool :=
  (db.admissions.get? r.admissionGeneration).any (assertRow r)

def demandAccepted (db : RootDatabase) (d : DemandRow) : Bool :=
  (db.origin d).any fun (r, a) => assertDemand d r a

def claimAccepted (db : RootDatabase) (c : ClaimRow) : Bool :=
  (do
    let d ← db.demands.get? c.demandId
    let r ← db.receiptOf d
    let e ← db.epochs.get? c.serviceEpochId
    return assertClaim c.toClaimRecord d.toDemandRecord r e.generationId
      && assertClaimLifecycle c d (db.claimReceipts.get? c.claimId) (db.reportOutbox.get? c.claimId)).getD false

end RootDatabase

def assertNativeRootCiResultIntegrity (reporterUsername : Option String) (db : RootDatabase) : Bool :=
  db.hostResults.rows.length ≤ receiptLimit && db.hostResults.rows.length = db.reportOutbox.rows.length
    && db.hostResults.rows.all (db.resultAccepted reporterUsername)

def assertNativeRootCiEventReceiptIntegrity (db : RootDatabase) : Bool :=
  db.eventReceipts.rows.length ≤ receiptLimit && db.eventReceipts.rows.all db.eventReceiptAccepted
    && db.demands.rows.length = db.eventReceipts.rows.length && db.demands.rows.all db.demandAccepted
    && db.claims.rows.length ≤ receiptLimit && db.claims.rows.all db.claimAccepted
    && assertNativeRootCiResultIntegrity none db

/-- The checks of a start with this reporter. -/
def startAccepted (reporterUsername : String) (db : RootDatabase) : Bool :=
  assertNativeRootCiEventReceiptIntegrity db && assertNativeRootCiResultIntegrity (some reporterUsername) db

end

end Dim.RootCi
