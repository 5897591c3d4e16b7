/-
The records that the QEMU scheduler, its hosts and native Git exchange. A column or a body that
holds the JSON text of a record holds the record itself; the fields that a parser fixes to one value
(`schemaVersion`, `type`, `repositoryId`, `evidenceClass`, `argv`) are left out, and the decimal
strings of sizes are numbers.
-/
import Mathlib

namespace Dim.Qemu

structure NativeQemuReviewEvent where
  (eventId projectId protectedRef reviewId envelopeId expectedProtectedHead : String)
  (candidateCommit candidateTree policyRevision requiredReviewRevision qualityRevision executionKind : String)
  jobName : String
deriving DecidableEq

/-! ## Attempts -/

structure QemuBounds where
  (cpu memoryBytes pids wallClockSeconds outputBytes : Nat)
deriving DecidableEq

structure QemuConfigBlob where
  (objectId sha256 : String)
deriving DecidableEq

structure QemuScript where
  (path objectId sha256 : String)
deriving DecidableEq

structure QemuExecutionDescriptor where
  (admissionGeneration jobName runnerBaseImage : String)
  bounds : QemuBounds
  (projectId repositoryId protectedRef expectedProtectedHead candidateCommit candidateTree : String)
  (policyRevision requiredReviewRevision requiredJobSetRevision : String)
  configBlob : QemuConfigBlob
  script : QemuScript
  jobImage : String
deriving DecidableEq

structure NativeQemuAttempt where
  (attemptId descriptorDigest : String)
  descriptor : QemuExecutionDescriptor
deriving DecidableEq

structure NativeQemuClaim where
  (claimId requestId hostId capacity admissionGeneration : String)
  leaseExpiresAt : Int
  event : NativeQemuReviewEvent
deriving DecidableEq

/-! ## Terminal events -/

inductive QemuCompletion where
  | exited (exitCode : Nat)
  | signaled (signal : Nat)
  | timedOut
  | outputLimitExceeded
  | cancelled
deriving DecidableEq

inductive QemuResult where
  | success
  | failure
  | cancelled
deriving DecidableEq

structure QemuOutputEvidence where
  bytes : Nat
  sha256 : String
  truncated : Bool
deriving DecidableEq

structure NativeQemuTerminalPayload where
  (reviewId attemptId : String)
  descriptor : QemuExecutionDescriptor
  (descriptorDigest hostId capacity startedAt finishedAt : String)
  result : QemuResult
  completion : QemuCompletion
  (stdout stderr : QemuOutputEvidence)
deriving DecidableEq

structure NativeQemuTerminalEvent where
  (eventId occurredAt : String)
  payload : NativeQemuTerminalPayload
deriving DecidableEq

structure NativeQemuCompletion where
  claimId : String
  cleanupComplete : Bool
  eventId : String
  result : QemuResult
  terminalEvent : NativeQemuTerminalEvent
deriving DecidableEq

def terminalEventMatchesClaim (event : NativeQemuTerminalEvent) (claim : NativeQemuClaim)
    (attempt : NativeQemuAttempt) : Bool :=
  event.payload.reviewId = claim.event.reviewId && event.payload.attemptId = attempt.attemptId
    && event.payload.descriptorDigest = attempt.descriptorDigest && event.payload.hostId = claim.hostId
    && event.payload.capacity = claim.capacity && event.payload.descriptor = attempt.descriptor

end Dim.Qemu
