/-
The records that the root CI admission service, its hosts and native Git exchange. A column or a
body that holds the JSON text of a record holds the record itself, as its parser returns it. The
fields that a parser fixes to one value (`schemaVersion`, `type`, `repositoryId`, `serviceId` of native
Git, `executionKind`, `evidenceClass`, `cleanupComplete` of a request) or to another field (`issuanceRequestId` of a
claim and `resourceId` of a result, which are the claim's id) are left out. A conflict between fields
that a parser refuses is a field of the record, so that no refused record can be built.
-/
import DimProofs.Ordinary.Protocol

namespace Dim.RootCi

open Dim.Ordinary

def isObjectId (value : String) : Bool :=
  (value.length = 40 || value.length = 64) && value.toList.all fun c => ('0' ≤ c && c ≤ '9') || ('a' ≤ c && c ≤ 'f')

/-! ## Review events -/

structure NativeRootCiReviewEvent where
  (eventId projectId protectedRef reviewId envelopeId expectedProtectedHead : String)
  (candidateCommit candidateTree policyRevision requiredReviewRevision qualityRevision jobName : String)
deriving DecidableEq

def canonicalNativeRootCiReviewEvent (event : NativeRootCiReviewEvent) : String :=
  Json.object [("schemaVersion", "3"), ("type", Json.string "dim.native.review-job.available"),
    ("eventId", Json.string event.eventId), ("projectId", Json.string event.projectId),
    ("repositoryId", Json.string "root"), ("protectedRef", Json.string event.protectedRef),
    ("reviewId", Json.string event.reviewId), ("envelopeId", Json.string event.envelopeId),
    ("expectedProtectedHead", Json.string event.expectedProtectedHead),
    ("candidateCommit", Json.string event.candidateCommit), ("candidateTree", Json.string event.candidateTree),
    ("policyRevision", Json.string event.policyRevision),
    ("requiredReviewRevision", Json.string event.requiredReviewRevision),
    ("qualityRevision", Json.string event.qualityRevision), ("executionKind", Json.string "ordinary-sysbox"),
    ("jobName", Json.string event.jobName), ("evidenceClass", Json.string "candidate-controlled")]

def eventDigest [Sha256] (event : NativeRootCiReviewEvent) : String :=
  "sha256:" ++ Sha256.hex (canonicalNativeRootCiReviewEvent event)

structure NativeRootCiEventReceiptRequest where
  generationId : String
  event : NativeRootCiReviewEvent
  admissionGeneration : String

/-! ## Policies and proofs -/

inductive NativeRootCiJobKind where
  | ordinarySysbox
  | qemu
deriving DecidableEq

structure NativeRootCiRequiredJob where
  name : String
  kind : NativeRootCiJobKind
deriving DecidableEq

structure NativeRootCiPathReviewerRule where
  pathPrefix : String
  reviewerIds : List String
deriving DecidableEq

structure NativeRootCiPolicy where
  (protectedRef policyRevision requiredReviewRevision requiredJobSetRevision : String)
  requiredJobs : List NativeRootCiRequiredJob
  requiredReviewerIds : List String
  pathReviewerRules : List NativeRootCiPathReviewerRule
deriving DecidableEq

def NativeRootCiJobKind.json : NativeRootCiJobKind → String
  | .ordinarySysbox => Json.string "ordinary-sysbox"
  | .qemu => Json.string "qemu"

def NativeRootCiPolicy.json (policy : NativeRootCiPolicy) : String :=
  Json.object [("schemaVersion", "1"), ("protectedRef", Json.string policy.protectedRef),
    ("policyRevision", Json.string policy.policyRevision),
    ("requiredReviewRevision", Json.string policy.requiredReviewRevision),
    ("requiredJobSetRevision", Json.string policy.requiredJobSetRevision),
    ("requiredJobs", Json.array (policy.requiredJobs.map fun job => Json.object
      [("name", Json.string job.name), ("kind", job.kind.json), ("evidenceClass", Json.string "candidate-controlled")])),
    ("requiredReviewerIds", Json.array (policy.requiredReviewerIds.map Json.string)),
    ("pathReviewerRules", Json.array (policy.pathReviewerRules.map fun rule => Json.object
      [("pathPrefix", Json.string rule.pathPrefix), ("reviewerIds", Json.array (rule.reviewerIds.map Json.string))]))]

structure NativeRootCiCurrentRoot where
  importNonce : String
  sequence : Nat
  (protectedRef commit tree policyDigest : String)
deriving DecidableEq

/-- What `parseCurrentRoot` asks of a root under its policy. -/
def NativeRootCiCurrentRoot.matchesPolicy [Sha256] (root : NativeRootCiCurrentRoot) (policy : NativeRootCiPolicy) : Bool :=
  root.protectedRef = policy.protectedRef && isObjectId root.commit && isObjectId root.tree
    && root.commit.length = root.tree.length && root.policyDigest = Sha256.hex policy.json

structure NativeRootCiPolicyProof [Sha256] where
  (servingGenerationId projectId : String)
  currentRoot : NativeRootCiCurrentRoot
  policy : NativeRootCiPolicy
  parsed : currentRoot.matchesPolicy policy = true

structure NativeRootCiReviewEventProof [Sha256] extends NativeRootCiPolicyProof where
  event : NativeRootCiReviewEvent

def nativeRootAdmissionBindingDigest [Sha256] (ordinaryServiceId controlPlaneGenerationId capacityConfigDigest : String)
    (proof : NativeRootCiPolicyProof) : String :=
  Sha256.hex ("dim-native-root-admission-binding-v1\x00" ++ Json.object
    [("ordinaryServiceId", Json.string ordinaryServiceId),
      ("controlPlaneGenerationId", Json.string controlPlaneGenerationId),
      ("nativeServiceId", Json.string "native-main"), ("projectId", Json.string proof.projectId),
      ("repositoryId", Json.string "root"), ("importNonce", Json.string proof.currentRoot.importNonce),
      ("protectedRef", Json.string proof.currentRoot.protectedRef),
      ("policyDigest", Json.string proof.currentRoot.policyDigest), ("policy", proof.policy.json),
      ("capacityConfigDigest", Json.string capacityConfigDigest)])

/-! ## Claims -/

structure NativeRootCiClaimRequest where
  (requestId generationId hostId capacity : String)

structure NativeRootCiClaimAdmission where
  (projectId importNonce : String)
  rootSequence : Nat
  (protectedRef rootCommit rootTree policyDigest capacityConfigDigest : String)
  leaseExpiresAt : Int
deriving DecidableEq

structure NativeRootCiClaim where
  (serviceId generationId serviceEpochId requestId claimId demandId : String)
  (admissionGeneration eventDigest : String)
  event : NativeRootCiReviewEvent
  admission : NativeRootCiClaimAdmission
  (hostId capacity runnerBaseImage jobBaseImage : String)
  bounds : NativeResourceBounds
deriving DecidableEq

/-- `assertIssuanceBinding`. -/
def issuanceBound (claim : NativeRootCiClaim) (issuance : NativeJobAttemptIssuance) : Bool :=
  issuance.issuanceRequestId = claim.claimId && issuance.reviewId = claim.event.reviewId
    && issuance.hostId = claim.hostId && issuance.capacity = claim.capacity
    && issuance.descriptor.admissionGeneration = claim.admissionGeneration
    && issuance.descriptor.projectId = claim.event.projectId && issuance.descriptor.repositoryId = "root"
    && issuance.descriptor.jobName = claim.event.jobName && issuance.descriptor.jobImage = claim.jobBaseImage
    && issuance.descriptor.runnerBaseImage = claim.runnerBaseImage && issuance.descriptor.bounds = claim.bounds

structure NativeRootCiClaimActivationRequest where
  (requestId generationId : String)
  claim : NativeRootCiClaim
  issuance : NativeJobAttemptIssuance
  bound : issuanceBound claim issuance = true

structure NativeRootCiClaimLeaseRequest where
  (requestId generationId hostId capacity claimId attemptId : String)
  descriptorDigest : String

/-- The identity of a recovery request is that of its claim and issuance. -/
def recoveryIdentity (identity : NativeRootCiClaimLeaseRequest) (claim : NativeRootCiClaim)
    (issuance : NativeJobAttemptIssuance) : Bool :=
  issuanceBound claim issuance && identity.hostId = claim.hostId && identity.capacity = claim.capacity
    && identity.claimId = claim.claimId && identity.attemptId = issuance.attemptId
    && identity.descriptorDigest = issuance.descriptorDigest

structure NativeRootCiClaimRecoveryRequest extends NativeRootCiClaimLeaseRequest where
  claim : NativeRootCiClaim
  issuance : NativeJobAttemptIssuance
  resourceId : String
  parsed : recoveryIdentity toNativeRootCiClaimLeaseRequest claim issuance = true

structure NativeRootCiActiveClaim where
  (serviceId generationId serviceEpochId requestId claimId : String)
  assignment : NativeAttemptAssignment
  issuance : NativeJobAttemptIssuance
  (leaseExpiresAt leaseDurationMilliseconds : Int)

/-- What `parseNativeAttemptAssignment` asks of an assignment. -/
def assignmentValid [Sha256] (assignment : NativeAttemptAssignment) : Bool :=
  assignment.descriptor.admissionGeneration = assignment.admissionGeneration
    && nativeDescriptorDigest assignment.descriptor = assignment.descriptorDigest

/-- The assignment, or `none` where the source throws a `UserError`. -/
def nativeRootCiAttemptAssignment [Sha256] (claim : NativeRootCiClaim) (issuance : NativeJobAttemptIssuance) :
    Option NativeAttemptAssignment :=
  let assignment : NativeAttemptAssignment :=
    { reviewId := issuance.reviewId, attemptId := issuance.attemptId, descriptor := issuance.descriptor,
      descriptorDigest := issuance.descriptorDigest, admissionGeneration := claim.admissionGeneration,
      hostId := issuance.hostId, capacity := issuance.capacity }
  if issuanceBound claim issuance && assignmentValid assignment then some assignment else none

/-! ## Results -/

structure NativeRootCiHostResultRequest where
  (requestId generationId claimId : String)
  terminalEvent : NativeTerminalEvent
deriving DecidableEq

/-- An object with its members sorted, as `canonicalValue` leaves it. -/
def canonicalObject (members : List (String × String)) : String :=
  Json.object (members.insertionSort fun a b => a.1 ≤ b.1)

def rootPayload (object : List (String × String) → String) (payload : NativeTerminalPayload) : String :=
  object (("executionKind", Json.string "ordinary-sysbox") :: payload.members object)

/-- The members of a root CI terminal event. -/
def terminalEventMembers (object : List (String × String) → String) (event : NativeTerminalEvent) : List (String × String) :=
  event.members "3" (rootPayload object event.payload)

def nativeRootCiTerminalEventDigest [Sha256] (event : NativeTerminalEvent) : String :=
  "sha256:" ++ Sha256.hex (canonicalObject (terminalEventMembers canonicalObject event))

structure NativeRootCiStatusAcknowledgement where
  event : NativeTerminalEvent
  (statusId reviewId reporterUsername reportedAt : String)

/-- A response body of native Git: its text, and the record that text parses to. -/
structure AcknowledgementBody where
  text : String
  value : NativeRootCiStatusAcknowledgement

/-- `parseNativeRootCiStatusAcknowledgement` accepts the record for this event and reporter. -/
def acknowledges [Sha256] (acknowledgement : NativeRootCiStatusAcknowledgement) (event : NativeTerminalEvent)
    (reporterUsername : String) : Bool :=
  acknowledgement.reporterUsername = reporterUsername && acknowledgement.reviewId = event.payload.reviewId
    && acknowledgement.event = event
    && acknowledgement.statusId = Sha256.hex (canonicalObject (terminalEventMembers canonicalObject event ++
      [("reviewId", Json.string acknowledgement.reviewId), ("reporterUsername", Json.string reporterUsername)]))

end Dim.RootCi
