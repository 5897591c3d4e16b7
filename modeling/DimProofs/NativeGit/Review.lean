/-
A review of a proposal, the jobs planned for its candidate and the events that ask for them, as native Git
stores them. Fields that the schema fixes to one value are left out, and encoded bytes are bytes.
-/
import DimProofs.RootCi.Protocol

namespace Dim.NativeGit

open Ordinary RootCi

abbrev ExecutionKind := NativeRootCiJobKind

structure AuthoritativeNativeChangedPath where
  status : String
  (oldPathBytes newPathBytes : List UInt8)
  (oldMode newMode oldObjectId newObjectId : String)
  similarity : Option Nat
  (oldSymlinkTargetBytes newSymlinkTargetBytes : Option (List UInt8))
deriving DecidableEq

structure AuthoritativeNativeReview where
  (reviewId createdAt projectId protectedRef proposalRef expectedProtectedHead : String)
  (candidateCommit candidateTree policyRevision requiredReviewRevision workspaceId : String)
  requiredReviewerIds : List String
  changes : List AuthoritativeNativeChangedPath
  patchBytes : List UInt8
deriving DecidableEq

structure AuthoritativeNativeRequiredJob where
  executionKind : ExecutionKind
  jobName : String
deriving DecidableEq

structure PlannedJob where
  executionKind : ExecutionKind
  jobName : String
  script : NativeScript
deriving DecidableEq

inductive AuthoritativeNativePlanning where
  | valid (configBlob : Option NativeConfigBlob) (jobs : List PlannedJob)
  | invalid
deriving DecidableEq

structure AuthoritativeNativeReviewEvent where
  (eventId envelopeId projectId protectedRef reviewId expectedProtectedHead : String)
  (candidateCommit candidateTree policyRevision requiredReviewRevision qualityRevision : String)
  executionKind : ExecutionKind
  jobName : String
deriving DecidableEq

structure AuthoritativeNativeReviewEnvelope where
  envelopeId : String
  review : AuthoritativeNativeReview
  (qualityRevision policyDigest : String)
  requiredJobs : List AuthoritativeNativeRequiredJob
  planning : AuthoritativeNativePlanning
  events : List AuthoritativeNativeReviewEvent
deriving DecidableEq

/-- `JSON.stringify(event)`. -/
def AuthoritativeNativeReviewEvent.json (event : AuthoritativeNativeReviewEvent) : String :=
  Json.object [("schemaVersion", "3"), ("type", Json.string "dim.native.review-job.available"),
    ("eventId", Json.string event.eventId), ("envelopeId", Json.string event.envelopeId),
    ("projectId", Json.string event.projectId), ("repositoryId", Json.string "root"),
    ("protectedRef", Json.string event.protectedRef), ("reviewId", Json.string event.reviewId),
    ("expectedProtectedHead", Json.string event.expectedProtectedHead),
    ("candidateCommit", Json.string event.candidateCommit), ("candidateTree", Json.string event.candidateTree),
    ("policyRevision", Json.string event.policyRevision),
    ("requiredReviewRevision", Json.string event.requiredReviewRevision),
    ("qualityRevision", Json.string event.qualityRevision),
    ("executionKind", event.executionKind.json), ("jobName", Json.string event.jobName),
    ("evidenceClass", Json.string "candidate-controlled")]

/-! ## Digests -/

/-- The texts of parts of a review that its digest contains besides their bytes: the changed paths and the patch
as UTF-8 text, and Base64. -/
class ReviewText where
  changes : List AuthoritativeNativeChangedPath → String
  patch : List UInt8 → String
  base64 : List UInt8 → String

section
variable [Sha256]

def authoritativeNativeReviewDigest [ReviewText] (review : AuthoritativeNativeReview) : String :=
  Sha256.hex ("dim-native-authoritative-review-v2\x00" ++ Json.object
    [("candidateCommit", Json.string review.candidateCommit), ("candidateTree", Json.string review.candidateTree),
      ("changes", ReviewText.changes review.changes),
      ("expectedProtectedHead", Json.string review.expectedProtectedHead),
      ("patch", Json.string (ReviewText.patch review.patchBytes)),
      ("patchBytes", Json.string (ReviewText.base64 review.patchBytes)),
      ("policyRevision", Json.string review.policyRevision), ("projectId", Json.string review.projectId),
      ("proposalRef", Json.string review.proposalRef), ("protectedRef", Json.string review.protectedRef),
      ("repositoryId", Json.string "root"), ("requiredReviewRevision", Json.string review.requiredReviewRevision),
      ("requiredReviewerIds", Json.array (review.requiredReviewerIds.map Json.string)), ("schemaVersion", "2"),
      ("serviceId", Json.string "native-main"), ("workspaceId", Json.string review.workspaceId)])

def PlannedJob.json (job : PlannedJob) : String :=
  Json.object [("argv", Json.array (descriptorArgv.map Json.string)),
    ("evidenceClass", Json.string "candidate-controlled"), ("executionKind", job.executionKind.json),
    ("jobName", Json.string job.jobName),
    ("script", Json.object [("objectId", Json.string job.script.objectId), ("path", Json.string job.script.path),
      ("sha256", Json.string job.script.sha256)])]

def AuthoritativeNativePlanning.json : AuthoritativeNativePlanning → String
  | .valid configBlob jobs => Json.object
    [("configBlob", match configBlob with
        | none => "null"
        | some blob => Json.object [("objectId", Json.string blob.objectId), ("sha256", Json.string blob.sha256)]),
      ("jobs", Json.array (jobs.map PlannedJob.json)), ("status", Json.string "valid")]
  | .invalid => Json.object
    [("reason", Json.string "invalid-candidate-job-plan"), ("status", Json.string "invalid")]

def authoritativeNativeEnvelopeId (reviewId qualityRevision policyDigest : String)
    (requiredJobs : List AuthoritativeNativeRequiredJob) (planning : AuthoritativeNativePlanning) : String :=
  Sha256.hex ("dim-native-authoritative-envelope-v2\x00" ++ Json.object
    [("planning", planning.json), ("policyDigest", Json.string policyDigest),
      ("qualityRevision", Json.string qualityRevision),
      ("requiredJobs", Json.array (requiredJobs.map fun job => Json.object
        [("evidenceClass", Json.string "candidate-controlled"), ("executionKind", job.executionKind.json),
          ("jobName", Json.string job.jobName)])),
      ("reviewId", Json.string reviewId)])

/-- `eventFor`. -/
def eventFor (review : AuthoritativeNativeReview) (envelopeId qualityRevision : String) (job : PlannedJob) :
    AuthoritativeNativeReviewEvent where
  eventId := Sha256.hex ("dim-native-authoritative-review-event-v3\x00" ++ Json.object
    [("envelopeId", Json.string envelopeId), ("executionKind", job.executionKind.json),
      ("jobName", Json.string job.jobName)])
  envelopeId := envelopeId
  projectId := review.projectId
  protectedRef := review.protectedRef
  reviewId := review.reviewId
  expectedProtectedHead := review.expectedProtectedHead
  candidateCommit := review.candidateCommit
  candidateTree := review.candidateTree
  policyRevision := review.policyRevision
  requiredReviewRevision := review.requiredReviewRevision
  qualityRevision := qualityRevision
  executionKind := job.executionKind
  jobName := job.jobName

/-- The envelope of a review whose `reviewId` is not derived yet. -/
def createAuthoritativeNativeReviewEnvelope [ReviewText] (identity : AuthoritativeNativeReview)
    (qualityRevision policyDigest : String) (requiredJobs : List AuthoritativeNativeRequiredJob)
    (planning : AuthoritativeNativePlanning) : AuthoritativeNativeReviewEnvelope :=
  let review := { identity with reviewId := authoritativeNativeReviewDigest identity }
  let envelopeId := authoritativeNativeEnvelopeId review.reviewId qualityRevision policyDigest requiredJobs planning
  { envelopeId, review, qualityRevision, policyDigest, requiredJobs, planning,
    events := match planning with
      | .valid _ jobs => jobs.map (eventFor review envelopeId qualityRevision)
      | .invalid => [] }

end

end Dim.NativeGit
