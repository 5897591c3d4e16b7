/-
`parseNativeRootCiTerminalEvent` and `parseNativeRootCiHostResultRequest`: what the result intake of the ordinary service
accepts. A failure is the message of its `UserError`.
-/
import DimProofs.RootCi.Protocol
import DimProofs.Terminal.Texts
import DimProofs.Terminal.Times
import DimProofs.Terminal.Values

namespace Dim.Terminal

open Ordinary Relational

/-! ## Readers -/

def require (condition : Bool) (message : String) : Except String Unit := if condition then .ok () else .error message

def record : Value → Except String Members
  | .object entries => .ok entries
  | _ => .error "request body must be an object"

def exactKeys (entries : Members) (keys : List String) : Except String Unit :=
  require (entries.length = keys.length && keys.all fun key => (get entries key).defined) "request body has invalid fields"

def exactRecord (value : Value) (keys : List String) : Except String Members := do
  let input ← record value
  exactKeys input keys
  return input

/-- `exactRecord` of the root CI protocol: the members in the order of the fields. -/
def exactFields (value : Value) (fields : List String) : Except String Members :=
  match value with
  | .object entries =>
    if entries.length = fields.length && fields.all (entries.map Prod.fst).contains then
      .ok (fields.map fun field => (field, get entries field))
    else .error "request body has invalid fields"
  | _ => .error "request body has invalid fields"

/-- A text that a pattern matches. -/
def text (pattern : String → Bool) (label : String) : Value → Except String String
  | .string s => if pattern s then .ok s else .error (label ++ " is invalid")
  | _ => .error (label ++ " is invalid")

def boundedNumber (minimum maximum : Nat) (label : String) : Value → Except String Nat
  | .number n => if n.isInt && minimum ≤ n && n ≤ maximum then .ok n.num.toNat else .error (label ++ " is invalid")
  | _ => .error (label ++ " is invalid")

/-- A text of digits, as its number. -/
def positiveInteger (label : String) (value : Value) : Except String Nat := decimal <$> text positivePattern label value

def objectId (value : Value) : Except String String := text objectIdPattern "object ID" value

def digest (label : String) (value : Value) : Except String String := text Pattern.digest label value

def headRef (value : Value) : Except String String := do
  let ref ← text headsPattern "protected ref" value
  require (!unsafeRef ref) "protected ref is invalid"
  require ((refComponents ref).all safeComponent) "protected ref is invalid"
  return ref

def scriptPath (value : Value) : Except String String := do
  let path ← text scriptPattern "script path" value
  require (!path.toList.contains '\\' && (pathComponents path).all plainComponent) "script path is invalid"
  return path

/-! ## Descriptors -/

def descriptorKeys : List String :=
  ["projectId", "repositoryId", "protectedRef", "expectedProtectedHead", "candidateCommit", "candidateTree",
    "policyRevision",
    "requiredReviewRevision", "requiredJobSetRevision", "admissionGeneration", "jobName", "runnerBaseImage", "bounds",
    "evidenceClass", "configBlob", "script", "argv", "jobImage"]

def array (label : String) : Value → Except String (List Value)
  | .array (item :: items) => .ok (item :: items)
  | _ => .error (label ++ " must be a non-empty array")

def resourceBounds (value : Value) : Except String NativeResourceBounds := do
  let input ← exactRecord value ["cpu", "memoryBytes", "pids", "wallClockSeconds", "outputBytes"]
  let cpu ← positiveInteger "CPU" (get input "cpu")
  let memoryBytes ← positiveInteger "memory" (get input "memoryBytes")
  let pids ← positiveInteger "PIDs" (get input "pids")
  let wallClockSeconds ← positiveInteger "wall clock" (get input "wallClockSeconds")
  let outputBytes ← positiveInteger "output" (get input "outputBytes")
  return { cpu, memoryBytes, pids, wallClockSeconds, outputBytes }

/-- The texts of two arrays agree where the arrays do. -/
def parseNativeDescriptor (value : Value) : Except String NativeOrdinaryDescriptor := do
  let input ← exactRecord value descriptorKeys
  let blob ← exactRecord (get input "configBlob") ["objectId", "sha256"]
  let script ← exactRecord (get input "script") ["objectId", "sha256", "path"]
  let argv ← array "argv" (get input "argv")
  require ((get input "evidenceClass").is "candidate-controlled" && Value.strings? argv = some descriptorArgv)
    "native ordinary descriptor execution contract is invalid"
  let projectId ← text Pattern.label "Project ID" (get input "projectId")
  let repositoryId ← text Pattern.label "repository ID" (get input "repositoryId")
  let protectedRef ← headRef (get input "protectedRef")
  let expectedProtectedHead ← objectId (get input "expectedProtectedHead")
  let candidateCommit ← objectId (get input "candidateCommit")
  let candidateTree ← objectId (get input "candidateTree")
  let policyRevision ← text revisionPattern "policy revision" (get input "policyRevision")
  let requiredReviewRevision ← text revisionPattern "review revision" (get input "requiredReviewRevision")
  let requiredJobSetRevision ← text revisionPattern "job-set revision" (get input "requiredJobSetRevision")
  let admissionGeneration ← text Pattern.generation "admission generation" (get input "admissionGeneration")
  let jobName ← text Pattern.label "job name" (get input "jobName")
  let runnerBaseImage ← text imagePattern "image" (get input "runnerBaseImage")
  let bounds ← resourceBounds (get input "bounds")
  let blobObjectId ← objectId (get blob "objectId")
  let blobSha256 ← digest "SHA-256 digest" (get blob "sha256")
  let scriptObjectId ← objectId (get script "objectId")
  let scriptSha256 ← digest "SHA-256 digest" (get script "sha256")
  let path ← scriptPath (get script "path")
  let jobImage ← text imagePattern "image" (get input "jobImage")
  return { projectId, repositoryId, protectedRef, expectedProtectedHead, candidateCommit, candidateTree, policyRevision,
           requiredReviewRevision, requiredJobSetRevision, admissionGeneration, jobName, runnerBaseImage, bounds,
           configBlob := { objectId := blobObjectId, sha256 := blobSha256 },
           script := { objectId := scriptObjectId, sha256 := scriptSha256, path }, jobImage }

/-! ## Events -/

def parseCompletion (value : Value) : Except String NativeTerminalCompletion := do
  let input ← record value
  match get input "kind" with
  | .string "exited" => do
    exactKeys input ["kind", "exitCode"]
    return .exited (← boundedNumber 0 255 "exit code" (get input "exitCode"))
  | .string "signaled" => do
    exactKeys input ["kind", "signal"]
    return .signaled (← boundedNumber 1 64 "signal" (get input "signal"))
  | .string "executor-failure" => do
    exactKeys input ["kind", "code"]
    return .executorFailure (← text Pattern.identifier "executor failure code" (get input "code"))
  | .string "timed-out" => do
    exactKeys input ["kind"]
    return .timedOut
  | .string "output-limit-exceeded" => do
    exactKeys input ["kind"]
    return .outputLimitExceeded
  | .string "lease-lost" => do
    exactKeys input ["kind"]
    return .leaseLost
  | .string "cancelled" => do
    exactKeys input ["kind"]
    return .cancelled
  | _ => .error "native terminal completion is invalid"

def boolean (message : String) : Value → Except String Bool
  | .boolean b => .ok b
  | _ => .error message

def parseOutput (value : Value) : Except String NativeOutputEvidence := do
  let input ← exactRecord value ["bytes", "sha256", "truncated"]
  let truncated ← boolean "native terminal output truncation is invalid" (get input "truncated")
  let bytes ← text naturalPattern "output bytes" (get input "bytes")
  let sha256 ← digest "output digest" (get input "sha256")
  return { bytes := decimal bytes, sha256, truncated }

def parseResult : Value → Except String NativeTerminalResult
  | .string "success" => .ok .success
  | .string "failure" => .ok .failure
  | .string "cancelled" => .ok .cancelled
  | _ => .error "native terminal result is invalid"

def completionResult : NativeTerminalCompletion → NativeTerminalResult
  | .exited exitCode => if exitCode = 0 then .success else .failure
  | .cancelled => .cancelled
  | _ => .failure

/-- `Date.parse(a) > Date.parse(b)`, which is false where one is `NaN`. -/
def later (a b : String) : Bool :=
  match dateParse a, dateParse b with
  | some a, some b => b < a
  | _, _ => false

/-- `number.MAX_SAFE_INTEGER`. -/
def maxSafeInteger : Nat := 2 ^ 53 - 1

def payloadKeys : List String :=
  ["reviewId", "attemptId", "attempt", "descriptor", "descriptorDigest", "hostId", "capacity", "startedAt",
    "finishedAt", "result", "completion", "stdout", "stderr"]

section

variable [Sha256]

def parseNativeTerminalEvent (value : Value) : Except String NativeTerminalEvent := do
  let input ← exactRecord value ["schemaVersion", "eventId", "occurredAt", "eventType", "payload"]
  require ((get input "schemaVersion").isNumber 2 && (get input "eventType").is "dim.ci.job.completed")
    "native terminal event contract is invalid"
  let payload ← exactRecord (get input "payload") payloadKeys
  let descriptor ← parseNativeDescriptor (get payload "descriptor")
  let descriptorDigest ← digest "descriptor digest" (get payload "descriptorDigest")
  require (nativeDescriptorDigest descriptor = descriptorDigest) "native terminal descriptor digest is invalid"
  let completion ← parseCompletion (get payload "completion")
  let result ← parseResult (get payload "result")
  require (result = completionResult completion) "native terminal result is inconsistent"
  let startedAt ← text timestampPattern "start time" (get payload "startedAt")
  let finishedAt ← text timestampPattern "finish time" (get payload "finishedAt")
  require (!later startedAt finishedAt) "native terminal completion precedes start"
  let stdout ← parseOutput (get payload "stdout")
  let stderr ← parseOutput (get payload "stderr")
  require (!(result = .success && (stdout.truncated || stderr.truncated)))
    "native terminal success requires complete output evidence"
  require (stdout.bytes + stderr.bytes ≤ descriptor.bounds.outputBytes) "native terminal output exceeds descriptor bound"
  let eventId ← text uuidPattern "event ID" (get input "eventId")
  let occurredAt ← text timestampPattern "occurrence time" (get input "occurredAt")
  let reviewId ← text (Pattern.hexString 64) "review ID" (get payload "reviewId")
  let attemptId ← text uuidPattern "attempt ID" (get payload "attemptId")
  let attempt ← boundedNumber 1 maxSafeInteger "attempt" (get payload "attempt")
  let hostId ← text Pattern.identifier "host ID" (get payload "hostId")
  let capacity ← text Pattern.identifier "capacity" (get payload "capacity")
  return { eventId, occurredAt,
           payload := { reviewId, attemptId, attempt, descriptor, descriptorDigest, hostId, capacity, startedAt, finishedAt,
                        result, completion, stdout, stderr } }

def parseNativeRootCiTerminalEvent (value : Value) : Except String NativeTerminalEvent := do
  let input ← exactFields value ["schemaVersion", "eventId", "occurredAt", "eventType", "payload"]
  require ((get input "schemaVersion").isNumber 3) "native root CI terminal event schemaVersion must be 3"
  let payload ← exactFields (get input "payload") ("executionKind" :: payloadKeys)
  require ((get payload "executionKind").is "ordinary-sysbox") "native root CI terminal event execution kind is invalid"
  parseNativeTerminalEvent (.object [("schemaVersion", .number 2), ("eventId", get input "eventId"),
    ("occurredAt", get input "occurredAt"), ("eventType", get input "eventType"),
    ("payload", .object (payload.filter fun member => member.1 ≠ "executionKind"))])

def parseNativeRootCiHostResultRequest (value : Value) : Except String RootCi.NativeRootCiHostResultRequest := do
  let input ← exactFields value
    ["schemaVersion", "requestId", "generationId", "claimId", "resourceId", "terminalEvent", "cleanupComplete"]
  require ((get input "schemaVersion").isNumber 2) "native root CI host result schemaVersion must be 2"
  let cleanupComplete ← boolean "native root CI host result requires completed cleanup" (get input "cleanupComplete")
  require cleanupComplete "native root CI host result requires completed cleanup"
  let claimId ← text uuidPattern "claim ID" (get input "claimId")
  let resourceId ← text uuidPattern "resource ID" (get input "resourceId")
  require (resourceId = claimId) "native root CI cleanup resource must match the claim"
  let requestId ← text uuidPattern "request ID" (get input "requestId")
  let generationId ← text (Pattern.hexString 64) "generation ID" (get input "generationId")
  let terminalEvent ← parseNativeRootCiTerminalEvent (get input "terminalEvent")
  return { requestId, generationId, claimId, terminalEvent }

end

end Dim.Terminal
