/-
The records that the ordinary host authority, its hosts and native Git exchange, and the digests
over them. SHA-256 is a parameter: the digests here are the source's pre-images under it. A
column or a body that holds the JSON text of a record holds the record itself; the fields that a
parser fixes to one value (`schemaVersion`, `type`, `evidenceClass`, `argv`) are left out, and the
decimal strings of the resource bounds are numbers.
-/
import DimProofs.Lib.Json

namespace Dim.Ordinary

/-- `createHash("sha256")` over the UTF-8 bytes of a text, in hexadecimal. -/
class Sha256 where
  hex : String → String

/-! ## Descriptors and policies -/

structure NativeResourceBounds where
  (cpu memoryBytes pids wallClockSeconds outputBytes : Nat)
deriving DecidableEq

structure NativeCapacityPolicy where
  (hostId capacity runnerBaseImage jobBaseImage : String)
  bounds : NativeResourceBounds
deriving DecidableEq

structure NativeAdmissionPolicy where
  (projectId repositoryId protectedRef policyRevision requiredReviewRevision requiredJobSetRevision : String)
  requiredJobs : List String
deriving DecidableEq

structure NativeConfigBlob where
  (objectId sha256 : String)
deriving DecidableEq

structure NativeScript where
  (objectId sha256 path : String)
deriving DecidableEq

structure NativeOrdinaryDescriptor where
  (projectId repositoryId protectedRef expectedProtectedHead candidateCommit candidateTree : String)
  (policyRevision requiredReviewRevision requiredJobSetRevision admissionGeneration jobName : String)
  runnerBaseImage : String
  bounds : NativeResourceBounds
  configBlob : NativeConfigBlob
  script : NativeScript
  jobImage : String
deriving DecidableEq

/-- `argv` of every descriptor. -/
def descriptorArgv : List String := ["/bin/bash", "--noprofile", "--norc", "/run/dim/job/script"]

structure NativeAttemptAssignment where
  (reviewId attemptId : String)
  descriptor : NativeOrdinaryDescriptor
  (descriptorDigest admissionGeneration hostId capacity : String)
deriving DecidableEq

structure NativeExecutionDescriptor where
  reviewId : String
  descriptor : NativeOrdinaryDescriptor
  digest : String

structure NativeJobAttemptIssuance where
  (issuanceRequestId attemptId reviewId : String)
  attempt : Nat
  descriptor : NativeOrdinaryDescriptor
  (descriptorDigest hostId capacity issuedBy issuedAt : String)
deriving DecidableEq

structure NativeJobAttemptRevocation where
  (revocationRequestId revocationId attemptId reviewId jobName : String)
  attempt : Nat
  (descriptorDigest hostId capacity revokedBy revokedAt : String)
deriving DecidableEq

/-! ## Events -/

structure NativeReviewJobEvent where
  (eventId projectId repositoryId protectedRef reviewId expectedProtectedHead : String)
  (candidateCommit candidateTree policyRevision requiredReviewRevision requiredJobSetRevision jobName : String)
deriving DecidableEq

inductive NativeTerminalCompletion where
  | exited (exitCode : Nat)
  | signaled (signal : Nat)
  | timedOut
  | outputLimitExceeded
  | leaseLost
  | cancelled
  | executorFailure (code : String)
deriving DecidableEq

inductive NativeTerminalResult where
  | success
  | failure
  | cancelled
deriving DecidableEq

structure NativeOutputEvidence where
  bytes : Nat
  sha256 : String
  truncated : Bool
deriving DecidableEq

structure NativeTerminalPayload where
  (reviewId attemptId : String)
  attempt : Nat
  descriptor : NativeOrdinaryDescriptor
  (descriptorDigest hostId capacity startedAt finishedAt : String)
  result : NativeTerminalResult
  completion : NativeTerminalCompletion
  (stdout stderr : NativeOutputEvidence)
deriving DecidableEq

structure NativeTerminalEvent where
  (eventId occurredAt : String)
  payload : NativeTerminalPayload
deriving DecidableEq

/-! ## Host requests -/

structure NativeHostClaimRequest where
  (requestId hostId capacity : String)

structure NativeHostClaim where
  (serviceId requestId claimId eventId reviewId attemptId : String)
  attempt : Nat
  (admissionGeneration hostId capacity : String)
  leaseExpiresAt : Int
  descriptor : NativeOrdinaryDescriptor
  descriptorDigest : String

structure NativeHostClaimRenewalRequest where
  (requestId hostId capacity claimId attemptId descriptorDigest : String)

structure NativeHostClaimRenewal where
  (serviceId requestId claimId : String)
  (leaseExpiresAt leaseDurationMilliseconds : Int)
deriving DecidableEq

structure NativeHostRecoveryRequest extends NativeHostClaimRenewalRequest where
  resourceId : String

structure NativeHostResultRequest where
  (requestId claimId : String)
  terminalEvent : NativeTerminalEvent

/-! ## Digests -/

/-- Fields as the digests frame them: the byte length, a colon and the bytes. -/
def framed (fields : List String) : String :=
  String.join (fields.map fun field => toString field.utf8ByteSize ++ ":" ++ field)

section
variable [Sha256]

def nativeDescriptorDigest (descriptor : NativeOrdinaryDescriptor) : String :=
  "sha256:" ++ Sha256.hex ("dim-native-ordinary-execution-v1" ++ framed (
    [descriptor.projectId, descriptor.repositoryId, descriptor.protectedRef, descriptor.expectedProtectedHead,
      descriptor.candidateCommit, descriptor.candidateTree, descriptor.policyRevision,
      descriptor.requiredReviewRevision, descriptor.requiredJobSetRevision, descriptor.admissionGeneration,
      descriptor.jobName, "candidate-controlled", descriptor.configBlob.objectId, descriptor.configBlob.sha256,
      descriptor.script.path, descriptor.script.objectId, descriptor.script.sha256]
    ++ descriptorArgv
    ++ [descriptor.jobImage, descriptor.runnerBaseImage, toString descriptor.bounds.cpu,
      toString descriptor.bounds.memoryBytes, toString descriptor.bounds.pids,
      toString descriptor.bounds.wallClockSeconds, toString descriptor.bounds.outputBytes]))

/-- The policy with its members in sorted order. -/
def canonicalPolicy (policy : NativeAdmissionPolicy) : String :=
  Json.object [("policyRevision", Json.string policy.policyRevision), ("projectId", Json.string policy.projectId),
    ("protectedRef", Json.string policy.protectedRef), ("repositoryId", Json.string policy.repositoryId),
    ("requiredJobSetRevision", Json.string policy.requiredJobSetRevision),
    ("requiredJobs", Json.array (policy.requiredJobs.map Json.string)),
    ("requiredReviewRevision", Json.string policy.requiredReviewRevision), ("schemaVersion", "1")]

def nativePolicyDigest (policy : NativeAdmissionPolicy) : String :=
  Sha256.hex (canonicalPolicy policy)

/-- The key of the capacity map: host and capacity joined by a NUL. -/
def capacityKey (hostId capacity : String) : String := hostId ++ "\x00" ++ capacity

def nativeCapacityConfigDigest (capacities : List NativeCapacityPolicy) : String :=
  let ordered := capacities.insertionSort fun left right =>
    capacityKey left.hostId left.capacity ≤ capacityKey right.hostId right.capacity
  Sha256.hex ("dim-native-ordinary-capacities-v2" ++ String.join (ordered.map fun item => framed
    [item.hostId, item.capacity, item.runnerBaseImage, item.jobBaseImage, toString item.bounds.cpu,
      toString item.bounds.memoryBytes, toString item.bounds.pids, toString item.bounds.wallClockSeconds,
      toString item.bounds.outputBytes]))

def canonicalNativeEvent (event : NativeReviewJobEvent) : String :=
  Json.object [("schemaVersion", "1"), ("type", Json.string "dim.native.review-job.available"),
    ("eventId", Json.string event.eventId), ("projectId", Json.string event.projectId),
    ("repositoryId", Json.string event.repositoryId), ("protectedRef", Json.string event.protectedRef),
    ("reviewId", Json.string event.reviewId),
    ("expectedProtectedHead", Json.string event.expectedProtectedHead),
    ("candidateCommit", Json.string event.candidateCommit), ("candidateTree", Json.string event.candidateTree),
    ("policyRevision", Json.string event.policyRevision),
    ("requiredReviewRevision", Json.string event.requiredReviewRevision),
    ("requiredJobSetRevision", Json.string event.requiredJobSetRevision),
    ("jobName", Json.string event.jobName), ("evidenceClass", Json.string "candidate-controlled")]

def nativeEventDigest (event : NativeReviewJobEvent) : String :=
  "sha256:" ++ Sha256.hex (canonicalNativeEvent event)

def nativeReviewJobTupleDigest (event : NativeReviewJobEvent) : String :=
  "sha256:" ++ Sha256.hex ("dim-native-review-job-tuple-v1" ++ framed
    [event.projectId, event.repositoryId, event.protectedRef, event.reviewId, event.expectedProtectedHead,
      event.candidateCommit, event.candidateTree, event.policyRevision, event.requiredReviewRevision,
      event.requiredJobSetRevision, event.jobName, "candidate-controlled"])

end

/-! ## Terminal events as JSON -/

def NativeTerminalResult.json : NativeTerminalResult → String
  | .success => Json.string "success"
  | .failure => Json.string "failure"
  | .cancelled => Json.string "cancelled"

section
-- How the members of an object are written: in their order, or sorted.
variable (object : List (String × String) → String)

def NativeResourceBounds.text (bounds : NativeResourceBounds) : String :=
  object [("cpu", Json.string (toString bounds.cpu)), ("memoryBytes", Json.string (toString bounds.memoryBytes)),
    ("pids", Json.string (toString bounds.pids)), ("wallClockSeconds", Json.string (toString bounds.wallClockSeconds)),
    ("outputBytes", Json.string (toString bounds.outputBytes))]

def NativeOrdinaryDescriptor.text (descriptor : NativeOrdinaryDescriptor) : String :=
  object [("projectId", Json.string descriptor.projectId), ("repositoryId", Json.string descriptor.repositoryId),
    ("protectedRef", Json.string descriptor.protectedRef),
    ("expectedProtectedHead", Json.string descriptor.expectedProtectedHead),
    ("candidateCommit", Json.string descriptor.candidateCommit),
    ("candidateTree", Json.string descriptor.candidateTree),
    ("policyRevision", Json.string descriptor.policyRevision),
    ("requiredReviewRevision", Json.string descriptor.requiredReviewRevision),
    ("requiredJobSetRevision", Json.string descriptor.requiredJobSetRevision),
    ("admissionGeneration", Json.string descriptor.admissionGeneration),
    ("jobName", Json.string descriptor.jobName), ("runnerBaseImage", Json.string descriptor.runnerBaseImage),
    ("bounds", descriptor.bounds.text object), ("evidenceClass", Json.string "candidate-controlled"),
    ("configBlob", object [("objectId", Json.string descriptor.configBlob.objectId),
      ("sha256", Json.string descriptor.configBlob.sha256)]),
    ("script", object [("objectId", Json.string descriptor.script.objectId),
      ("sha256", Json.string descriptor.script.sha256), ("path", Json.string descriptor.script.path)]),
    ("argv", Json.array (descriptorArgv.map Json.string)), ("jobImage", Json.string descriptor.jobImage)]

def NativeTerminalCompletion.text : NativeTerminalCompletion → String
  | .exited exitCode => object [("kind", Json.string "exited"), ("exitCode", toString exitCode)]
  | .signaled signal => object [("kind", Json.string "signaled"), ("signal", toString signal)]
  | .timedOut => object [("kind", Json.string "timed-out")]
  | .outputLimitExceeded => object [("kind", Json.string "output-limit-exceeded")]
  | .leaseLost => object [("kind", Json.string "lease-lost")]
  | .cancelled => object [("kind", Json.string "cancelled")]
  | .executorFailure code => object [("kind", Json.string "executor-failure"), ("code", Json.string code)]

def NativeOutputEvidence.text (output : NativeOutputEvidence) : String :=
  object [("bytes", Json.string (toString output.bytes)), ("sha256", Json.string output.sha256),
    ("truncated", Json.bool output.truncated)]

def NativeTerminalPayload.members (payload : NativeTerminalPayload) : List (String × String) :=
  [("reviewId", Json.string payload.reviewId), ("attemptId", Json.string payload.attemptId),
    ("attempt", toString payload.attempt), ("descriptor", payload.descriptor.text object),
    ("descriptorDigest", Json.string payload.descriptorDigest), ("hostId", Json.string payload.hostId),
    ("capacity", Json.string payload.capacity), ("startedAt", Json.string payload.startedAt),
    ("finishedAt", Json.string payload.finishedAt), ("result", payload.result.json),
    ("completion", payload.completion.text object), ("stdout", payload.stdout.text object),
    ("stderr", payload.stderr.text object)]

end

def NativeTerminalEvent.members (schemaVersion payload : String) (event : NativeTerminalEvent) : List (String × String) :=
  [("schemaVersion", schemaVersion), ("eventId", Json.string event.eventId), ("occurredAt", Json.string event.occurredAt),
    ("eventType", Json.string "dim.ci.job.completed"), ("payload", payload)]

def terminalEventJson (event : NativeTerminalEvent) : String :=
  Json.object (event.members "2" (Json.object (event.payload.members Json.object)))

def terminalEventDigest [Sha256] (eventJson : String) : String :=
  "sha256:" ++ Sha256.hex eventJson

/-! ## Policy match -/

/-- Every bound of the descriptor is within the capacity's. -/
def NativeResourceBounds.within (bounds limit : NativeResourceBounds) : Bool :=
  bounds.cpu ≤ limit.cpu && bounds.memoryBytes ≤ limit.memoryBytes && bounds.pids ≤ limit.pids
    && bounds.wallClockSeconds ≤ limit.wallClockSeconds && bounds.outputBytes ≤ limit.outputBytes

def descriptorMatchesPolicy (descriptor : NativeOrdinaryDescriptor) (policy : NativeAdmissionPolicy)
    (capacity : NativeCapacityPolicy) : Bool :=
  descriptor.projectId = policy.projectId && descriptor.repositoryId = policy.repositoryId
    && descriptor.protectedRef = policy.protectedRef && descriptor.policyRevision = policy.policyRevision
    && descriptor.requiredReviewRevision = policy.requiredReviewRevision
    && descriptor.requiredJobSetRevision = policy.requiredJobSetRevision
    && policy.requiredJobs.contains descriptor.jobName && descriptor.runnerBaseImage = capacity.runnerBaseImage
    && descriptor.jobImage = capacity.jobBaseImage && descriptor.bounds.within capacity.bounds

end Dim.Ordinary
