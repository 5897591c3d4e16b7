/-
The histories of a root CI database: operations of service instances, each one transaction, in any
order. A restart is an action of another instance; the instances of one history need not follow each
other, and an instance that is not activated takes no action but the two of its activation.
-/
import DimProofs.Lib.Run
import DimProofs.RootCi.Sourced

namespace Dim.RootCi

open Relational Dim.Ordinary

section
variable [Sha256]

/-- One operation with its random UUID and its readings of the clock, which may be set back. -/
inductive Operation where
  | activateAdmissions (now : Int)
  | activateEpoch (now : Int)
  | register (proof : NativeRootCiPolicyProof) (uuid : String) (now : Int)
  | revoke (projectId admissionGeneration : String) (checkedAt supersededAt endedAt : Int)
  | commitEvent (request : NativeRootCiEventReceiptRequest) (proof : NativeRootCiReviewEventProof) (uuid : String)
    (evaluatedAt receivedAt now : Int)
  | reserve (request : NativeRootCiClaimRequest) (uuid : String) (selectedAt updatedAt createdAt claimedAt : Int)
  | activate (request : NativeRootCiClaimActivationRequest) (checkedAt now : Int)
  | renew (request : NativeRootCiClaimLeaseRequest) (checkedAt leasedAt updatedAt : Int)
  | prepareRecovery (request : NativeRootCiClaimRecoveryRequest) (now : Int)
  | completeRecovery (request : NativeRootCiClaimRecoveryRequest) (revocation : NativeJobAttemptRevocation) (now : Int)
  | acceptResult (authenticatedHost : String) (request : NativeRootCiHostResultRequest) (checkedAt now : Int)
  | acknowledge (delivery : Delivery) (body : AcknowledgementBody) (now : Int)

structure Action where
  context : ServiceContext
  operation : Operation

/-- `handleClaimLifecycle` derives the assignment and answers a conflict where there is none. -/
def withAssignment (claim : NativeRootCiClaim) (issuance : NativeJobAttemptIssuance) (db : RootDatabase)
    (body : NativeAttemptAssignment → Except RootCiError RootDatabase) : Except RootCiError RootDatabase :=
  match nativeRootCiAttemptAssignment claim issuance with
  | none => .ok db
  | some assignment => body assignment

/-- The transaction of an operation. -/
def Operation.body (context : ServiceContext) (db : RootDatabase) : Operation → Except RootCiError RootDatabase
  | .activateAdmissions now => RootCi.activateAdmissions context now db
  | .activateEpoch now => RootCi.activateEpoch context now db
  | .register proof uuid now => (RootCi.registerMutation context proof uuid now db).map (·.2)
  | .revoke projectId admissionGeneration checkedAt supersededAt endedAt =>
    (RootCi.revokeMutation context projectId admissionGeneration checkedAt supersededAt endedAt db).map (·.2)
  | .commitEvent request proof uuid evaluatedAt receivedAt now =>
    (RootCi.commitEvent context request proof uuid evaluatedAt receivedAt now db).map (·.2)
  | .reserve request uuid selectedAt updatedAt createdAt claimedAt =>
    (RootCi.reserve context request uuid selectedAt updatedAt createdAt claimedAt db).map (·.2)
  | .activate request checkedAt now =>
    withAssignment request.claim request.issuance db fun assignment =>
      (RootCi.activate context request assignment checkedAt now db).map (·.2)
  | .renew request checkedAt leasedAt updatedAt => (RootCi.renew context request checkedAt leasedAt updatedAt db).map (·.2)
  | .prepareRecovery request now =>
    withAssignment request.claim request.issuance db fun assignment =>
      (RootCi.prepareRecovery context request assignment now db).map (·.2)
  | .completeRecovery request revocation now => (RootCi.completeRecovery context request revocation now db).map (·.2)
  | .acceptResult authenticatedHost request checkedAt now =>
    (RootCi.acceptResult context authenticatedHost request checkedAt now db).map (·.2)
  | .acknowledge delivery body now => RootCi.acknowledge context delivery body now db

/-- The end of a transaction: `COMMIT`, or `ROLLBACK` when its body threw. -/
def RootDatabase.commit (db : RootDatabase) : Except RootCiError RootDatabase → RootDatabase
  | .ok db' => db'
  | .error _ => db

def RootDatabase.apply (db : RootDatabase) (action : Action) : RootDatabase :=
  db.commit (action.operation.body action.context db)

def RootDatabase.run (db : RootDatabase) (actions : List Action) : RootDatabase := actions.foldl RootDatabase.apply db

omit [Sha256] in
theorem map_snd_ok {α ρ : Type} {x : Except RootCiError (α × ρ)} {r : ρ} (h : x.map (·.2) = .ok r) :
    ∃ a, x = .ok (a, r) := by
  cases x with
  | error e => cases h
  | ok p => cases h; exact ⟨p.1, rfl⟩

theorem withAssignment_ok {claim : NativeRootCiClaim} {issuance : NativeJobAttemptIssuance} {db db' : RootDatabase}
    {body : NativeAttemptAssignment → Except RootCiError RootDatabase}
    (h : withAssignment claim issuance db body = .ok db') : db' = db ∨
      ∃ assignment, nativeRootCiAttemptAssignment claim issuance = some assignment ∧ body assignment = .ok db' := by
  unfold withAssignment at h
  split at h
  · cases h; exact Or.inl rfl
  · rename_i assignment ha
    exact Or.inr ⟨assignment, ha, h⟩

end

/-! ## A history of one claim -/

namespace Sample

/-- One digest for every text: the histories of this file compare digests of equal texts only. -/
@[reducible] def sha256 : Sha256 := ⟨fun _ => "digest"⟩

attribute [local instance] sha256

def bounds : NativeResourceBounds := { cpu := 1, memoryBytes := 1, pids := 1, wallClockSeconds := 1, outputBytes := 1 }

def capacity : NativeCapacityPolicy :=
  { hostId := "host", capacity := "small", runnerBaseImage := "runner", jobBaseImage := "job", bounds }

def context : ServiceContext :=
  { serviceId := "service", generationId := "generation", serviceEpochId := "epoch-1", capacities := [capacity],
    eligibilityLeaseMilliseconds := 1000, claimLeaseMilliseconds := 100, reporterUsername := "reporter",
      leases := by decide }

def policy : NativeRootCiPolicy :=
  { protectedRef := "refs/heads/main", policyRevision := "1", requiredReviewRevision := "1", requiredJobSetRevision := "1",
    requiredJobs := [{ name := "test", kind := .ordinarySysbox }], requiredReviewerIds := [], pathReviewerRules := [] }

def objectId : String := "0000000000000000000000000000000000000000"

theorem objectId_valid : isObjectId objectId = true := by decide +kernel

/-- The policy proof of a root. -/
def proof (sequence : Nat) : NativeRootCiPolicyProof :=
  { servingGenerationId := "generation", projectId := "project"
    currentRoot :=
      { importNonce := "nonce", sequence, protectedRef := "refs/heads/main", commit := objectId, tree := objectId,
        policyDigest := Sha256.hex policy.json }
    policy
    parsed := by simp [NativeRootCiCurrentRoot.matchesPolicy, policy, objectId_valid] }

def event : NativeRootCiReviewEvent :=
  { eventId := "event", projectId := "project", protectedRef := "refs/heads/main", reviewId := "review",
    envelopeId := "envelope", expectedProtectedHead := objectId, candidateCommit := "commit", candidateTree := "tree",
    policyRevision := "1", requiredReviewRevision := "1", qualityRevision := "1", jobName := "test" }

def eventRequest : NativeRootCiEventReceiptRequest :=
  { generationId := "generation", event, admissionGeneration := "admission" }

def claimRequest : NativeRootCiClaimRequest :=
  { requestId := "request", generationId := "generation", hostId := "host", capacity := "small" }

def step (operation : Operation) : Action := ⟨context, operation⟩

/-- An admitted root, an event and a reservation. -/
def reservation : List Action :=
  [step (.activateAdmissions 1), step (.activateEpoch 1), step (.register (proof 1) "admission" 1),
    step (.commitEvent eventRequest { proof 1 with event } "demand" 2 2 2), step (.reserve claimRequest "claim" 3 3 3 3)]

def claim : NativeRootCiClaim :=
  { serviceId := "service", generationId := "generation", serviceEpochId := "epoch-1", requestId := "request",
    claimId := "claim", demandId := "demand", admissionGeneration := "admission", eventDigest := eventDigest event, event,
    admission := { projectId := "project", importNonce := "nonce", rootSequence := 1, protectedRef := "refs/heads/main",
                   rootCommit := objectId, rootTree := objectId, policyDigest := Sha256.hex policy.json,
                   capacityConfigDigest := context.capacityConfigDigest, leaseExpiresAt := 1001 },
    hostId := "host", capacity := "small", runnerBaseImage := "runner", jobBaseImage := "job", bounds }

def descriptor : NativeOrdinaryDescriptor :=
  { projectId := "project", repositoryId := "root", protectedRef := "refs/heads/main", expectedProtectedHead := objectId,
    candidateCommit := "commit", candidateTree := "tree", policyRevision := "1", requiredReviewRevision := "1",
    requiredJobSetRevision := "1", admissionGeneration := "admission", jobName := "test", runnerBaseImage := "runner",
      bounds,
    configBlob := { objectId := "config", sha256 := "config" },
    script := { objectId := "script", sha256 := "script", path := ".dim/ci/jobs/test.bash" }, jobImage := "job" }

def issuance : NativeJobAttemptIssuance :=
  { issuanceRequestId := "claim", attemptId := "attempt", reviewId := "review", attempt := 1, descriptor,
    descriptorDigest := nativeDescriptorDigest descriptor, hostId := "host", capacity := "small", issuedBy := "issuer",
    issuedAt := "2024-01-01T00:00:00Z" }

def activation : NativeRootCiClaimActivationRequest :=
  { requestId := "activation", generationId := "generation", claim, issuance, bound := by decide +kernel }

def recovery : NativeRootCiClaimRecoveryRequest :=
  { requestId := "recovery", generationId := "generation", hostId := "host", capacity := "small", claimId := "claim",
    attemptId := "attempt", descriptorDigest := nativeDescriptorDigest descriptor, claim, issuance, resourceId := "claim",
    parsed := by decide +kernel }

def terminalEvent : NativeTerminalEvent :=
  { eventId := "terminal", occurredAt := "2024-01-01T00:01:00Z"
    payload :=
      { reviewId := "review", attemptId := "attempt", attempt := 1, descriptor,
        descriptorDigest := nativeDescriptorDigest descriptor, hostId := "host", capacity := "small",
        startedAt := "2024-01-01T00:00:00Z", finishedAt := "2024-01-01T00:01:00Z", result := .success,
        completion := .exited 0, stdout := { bytes := 0, sha256 := "empty", truncated := false },
        stderr := { bytes := 0, sha256 := "empty", truncated := false } } }

def result : NativeRootCiHostResultRequest :=
  { requestId := "result", generationId := "generation", claimId := "claim", terminalEvent }

/-- The acknowledgement of native Git for the sample's event. -/
def acknowledgement : AcknowledgementBody :=
  { text := "acknowledged"
    value :=
      { event := terminalEvent, reviewId := "review", reporterUsername := "reporter", reportedAt := "2024-01-01T00:02:00Z",
        statusId := Sha256.hex (canonicalObject (terminalEventMembers canonicalObject terminalEvent ++
          [("reviewId", Json.string "review"), ("reporterUsername", Json.string "reporter")])) } }

def delivery : Delivery := { claimId := "claim", terminalEvent }

/-- The rest of an ordinary life of the claim. -/
def delivered : List Action :=
  reservation ++ [step (.activate activation 4 4), step (.acceptResult "host" result 5 5),
    step (.acknowledge delivery acknowledgement 6)]

example : ((RootDatabase.empty.run reservation).view "claim").map View.status =
    some ⟨.preparing, .preparing, none, false, none⟩ := by decide +kernel

/-- The root advances under the reservation, and the host recovers the claim it never activated. -/
def stranded : List Action :=
  reservation ++ [step (.register (proof 2) "unused" 4), step (.prepareRecovery recovery 5)]

example : ((RootDatabase.empty.run delivered).view "claim").map View.status =
    some ⟨.released, .completed, some ⟨.released, false, false, true⟩, true, some .delivered⟩ := by decide +kernel

end Sample

end Dim.RootCi
