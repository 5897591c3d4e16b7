/-
One capacity of `runNativeQemuHost` with its client and its journal. The renewals run beside an execution
and change nothing it reads but whether one of them failed. Each process attests once and repeats
`serveLoop`, which finds in the journal what the round before it left.
-/
import DimProofs.Host.Triple
import DimProofs.Qemu.Protocol

namespace Dim.Host

open Effectful Dim.Ordinary Dim.Qemu

namespace QemuWorker

structure NativeQemuHostAssignment where
  claim : NativeQemuClaim
  attempt : NativeQemuAttempt

inductive NativeQemuHostJournalState where
  | claim (requestId : String)
  | active (assignment : NativeQemuHostAssignment)
  | result (claimId : String) (terminalEvent : NativeQemuTerminalEvent)

/-- The result of a claim, as the journal stores it. -/
structure StoredResult where
  claimId : String
  terminalEvent : NativeQemuTerminalEvent

namespace NativeQemuHostJournalState

def pending : NativeQemuHostJournalState → Option String
  | .claim requestId => some requestId
  | _ => none

def claimOf : NativeQemuHostJournalState → Option String
  | .claim _ => none
  | .active assignment => some assignment.claim.claimId
  | .result claimId _ => some claimId

def stored : NativeQemuHostJournalState → Option StoredResult
  | .result claimId terminalEvent => some { claimId, terminalEvent }
  | _ => none

end NativeQemuHostJournalState

/-! ## The client -/

structure NativeQemuConnectionCapacity where
  (capacity runnerBaseImage jobBaseImage : String)
  bounds : QemuBounds

/-- The connection of a host, and the capacity of the client. -/
structure NativeQemuHostClientConfig where
  hostId : String
  capacities : List NativeQemuConnectionCapacity
  capacity : String

structure HostIdentity where
  (serviceId hostId : String)
  capacities : List String

structure AssignmentResponse where
  serviceId : String
  assignment : NativeQemuHostAssignment

structure CandidateLeaseRequest where
  (requestId claimId attemptId descriptorDigest : String)

structure NativeCandidateLease where
  (username password : String)
  expiresAt : Int

/-- The requests; the cleanup is complete in each result and recovery. -/
inductive ClientRequest where
  | identity
  | claim (requestId capacity : String)
  | candidateLease (request : CandidateLeaseRequest)
  | result (requestId capacity : String) (result : StoredResult)
  | recovery (requestId claimId capacity : String)

/-- The body of a response that the client accepts; `none` is `204`. -/
def ClientRequest.Response : ClientRequest → Type
  | .identity => HostIdentity
  | .claim _ _ => Option AssignmentResponse
  | .candidateLease _ => NativeCandidateLease
  | .result _ _ _ | .recovery _ _ _ => Unit

def claimed : (request : ClientRequest) → request.Response → Option (String × String)
  | .claim requestId _, (response : Option AssignmentResponse) =>
    response.map fun r => (requestId, r.assignment.claim.claimId)
  | _, _ => none

def finished : (request : ClientRequest) → request.Response → Option (Finish StoredResult)
  | .result _ _ result, _ => some (.reported result)
  | .recovery _ claimId _, _ => some (.recovered claimId)
  | _, _ => none

@[reducible] def worker : Worker where
  Journal := NativeQemuHostJournalState
  Request := ClientRequest
  Response := ClientRequest.Response
  Result := StoredResult
  pending := NativeQemuHostJournalState.pending
  held _ := none
  claimOf := NativeQemuHostJournalState.claimOf
  stored := NativeQemuHostJournalState.stored
  recovers _ := false
  claimed := claimed
  finished := finished
  pending_of_held h := by cases h
  pending_of_claimOf {j c} h := by cases j <;> first | rfl | cases h
  stored_of_recovers h := by cases h

abbrev QemuProgram (α : Type) : Type := HostProgram worker α

def client.attest (config : NativeQemuHostClientConfig) : QemuProgram Unit := do
  let identity : HostIdentity ← request (W := worker) .identity
  throwIf (identity.serviceId ≠ "qemu-main" || identity.hostId ≠ config.hostId
    || !identity.capacities.contains config.capacity) .client

/-- The candidate lease of an assignment. -/
def client.candidateLease (assignment : NativeQemuHostAssignment) : QemuProgram NativeCandidateLease := do
  let requestId ← randomId
  request (W := worker) (.candidateLease
    { requestId, claimId := assignment.claim.claimId, attemptId := assignment.attempt.attemptId,
      descriptorDigest := assignment.attempt.descriptorDigest })

def client.report (config : NativeQemuHostClientConfig) (claimId : String) (terminalEvent : NativeQemuTerminalEvent) :
    QemuProgram Unit := do
  let requestId ← randomId
  request (W := worker) (.result requestId config.capacity { claimId, terminalEvent })

def client.recover (config : NativeQemuHostClientConfig) (claimId : String) : QemuProgram Unit := do
  let requestId ← randomId
  request (W := worker) (.recovery requestId claimId config.capacity)

/-! ## The executor -/

def qemuOutputEvidence (evidence : NativeOutputEvidence) : QemuOutputEvidence :=
  { bytes := evidence.bytes, sha256 := evidence.sha256, truncated := evidence.truncated }

/-- `NativeOutputCollector.exceeded`. -/
def exceeded (output : NativeBoundedOutput) : Bool := output.stdoutEvidence.truncated || output.stderrEvidence.truncated

def terminal (assignment : NativeQemuHostAssignment) (exitCode : Nat) (output : NativeBoundedOutput)
    (startedAt finishedAt eventId : String) : NativeQemuTerminalEvent :=
  { eventId, occurredAt := finishedAt
    payload :=
      { reviewId := assignment.claim.event.reviewId, attemptId := assignment.attempt.attemptId,
        descriptor := assignment.attempt.descriptor, descriptorDigest := assignment.attempt.descriptorDigest,
        hostId := assignment.claim.hostId, capacity := assignment.claim.capacity, startedAt, finishedAt,
        result := if exitCode = 0 then .success else .failure, completion := .exited exitCode,
        stdout := qemuOutputEvidence output.stdoutEvidence, stderr := qemuOutputEvidence output.stderrEvidence } }

def cleanupNativeQemuAssignment (claimId : String) : QemuProgram Bool := do
  let removed ← cleanupNativeContainer claimId
  if removed then do
    operation .removeRoot
    return true
  else return false

def cleanupOrThrow (claimId : String) (failure : NativeHostFailure) : QemuProgram Unit := do
  throwIf (!(← cleanupNativeQemuAssignment claimId)) failure

/-- `docker run`; the error of a run that wrote more than its bound is an exit with `1`. -/
def runStreaming (claimId : String) : QemuProgram Nat :=
  tryCatch (do
    throwIf (← observe .aborted) .aborted
    operation .inspectKvm
    let run ← runContainer claimId
    return run.exitCode.toNat)
  fun failure => do
    let output ← readOutput
    throwIf (!exceeded output) failure
    return 1

/-- What the executor does before its cleanup. -/
def prepareAndRun (assignment : NativeQemuHostAssignment) : QemuProgram Nat := do
  let _ ← client.candidateLease assignment
  operation .createReadAuthority
  operation .verifyCandidate
  operation .writeDescriptor
  operation .openJobRoot
  runStreaming assignment.claim.claimId

def executeNativeQemuAssignment (assignment : NativeQemuHostAssignment) : QemuProgram NativeQemuTerminalEvent := do
  operation .makeRoot
  operation .makeJobRoot
  let startedAt ← timestamp
  let exitCode ← (prepareAndRun assignment).tryFinally
    (cleanupOrThrow assignment.claim.claimId (.cleanup assignment.claim.claimId))
  let finishedAt ← timestamp
  let output ← readOutput
  let eventId ← randomId
  return terminal assignment exitCode output startedAt finishedAt eventId

/-! ## The worker -/

/-- A renewal that failed replaces the outcome of its execution. -/
def throwRenewalFailure : QemuProgram Unit := do
  throwIf (← observe .leaseLost) .other

def executeNativeQemuHostAssignment (config : NativeQemuHostClientConfig) (assignment : NativeQemuHostAssignment) :
    QemuProgram Unit := do
  save (W := worker) (.active assignment)
  let terminalEvent ← tryCatch (executeNativeQemuAssignment assignment) fun failure => do
    throwRenewalFailure
    throw failure
  throwRenewalFailure
  save (W := worker) (.result assignment.claim.claimId terminalEvent)
  client.report config assignment.claim.claimId terminalEvent

def replayNativeQemuHostJournal (config : NativeQemuHostClientConfig) : QemuProgram Unit := do
  let state : Option NativeQemuHostJournalState ← load (W := worker)
  match state with
  | none => return ()
  | some (.claim _) => throw (.worker "native QEMU claim replay requires the claim client")
  | some (.active assignment) => do
    cleanupOrThrow assignment.claim.claimId (.worker "native QEMU replay cleanup is incomplete")
    client.recover config assignment.claim.claimId
    clear
  | some (.result claimId terminalEvent) => do
    cleanupOrThrow claimId (.worker "native QEMU replay cleanup is incomplete")
    client.report config claimId terminalEvent
    clear

section
variable [Sha256] (config : NativeQemuHostClientConfig)

def nativeQemuDescriptorDigest (descriptor : QemuExecutionDescriptor) : String :=
  "sha256:" ++ Sha256.hex ("dim-native-qemu-execution-v1" ++ framed (
    [descriptor.projectId, descriptor.repositoryId, descriptor.protectedRef, descriptor.expectedProtectedHead,
      descriptor.candidateCommit, descriptor.candidateTree, descriptor.policyRevision,
      descriptor.requiredReviewRevision, descriptor.requiredJobSetRevision, descriptor.admissionGeneration,
      descriptor.jobName, "candidate-controlled", descriptor.configBlob.objectId, descriptor.configBlob.sha256,
      descriptor.script.path, descriptor.script.objectId, descriptor.script.sha256]
    ++ descriptorArgv
    ++ [descriptor.jobImage, descriptor.runnerBaseImage, toString descriptor.bounds.cpu,
      toString descriptor.bounds.memoryBytes, toString descriptor.bounds.pids,
      toString descriptor.bounds.wallClockSeconds, toString descriptor.bounds.outputBytes]))

/-- What `parseNativeQemuHostAssignment` compares. -/
def assignmentMatches (requestId : String) (response : AssignmentResponse) : Bool :=
  let claim := response.assignment.claim
  let event := claim.event
  let descriptor := response.assignment.attempt.descriptor
  response.serviceId = "qemu-main" && claim.requestId = requestId && claim.hostId = config.hostId
    && claim.capacity = config.capacity
    && nativeQemuDescriptorDigest descriptor = response.assignment.attempt.descriptorDigest
    && descriptor.admissionGeneration = claim.admissionGeneration && descriptor.jobName = event.jobName
    && descriptor.projectId = event.projectId && descriptor.repositoryId = "root"
    && descriptor.protectedRef = event.protectedRef
    && descriptor.expectedProtectedHead = event.expectedProtectedHead
    && descriptor.candidateCommit = event.candidateCommit && descriptor.candidateTree = event.candidateTree
    && descriptor.policyRevision = event.policyRevision
    && descriptor.requiredReviewRevision = event.requiredReviewRevision
    && descriptor.requiredJobSetRevision = event.qualityRevision
    && (config.capacities.find? (·.capacity = config.capacity)).any fun capacity =>
      descriptor.runnerBaseImage = capacity.runnerBaseImage && descriptor.jobImage = capacity.jobBaseImage
        && descriptor.bounds = capacity.bounds

def client.claim (requestId : String) : QemuProgram (Option NativeQemuHostAssignment) := do
  let response : Option AssignmentResponse ← request (W := worker) (.claim requestId config.capacity)
  throwIf (response.any fun r => !assignmentMatches config requestId r) .client
  return response.map (·.assignment)

/-- The answer to the request of the journal; a claim whose lease is over is left to its recovery. -/
def claimAnswered (requestId : String) : QemuProgram (Option NativeQemuHostAssignment) := do
  match ← client.claim config requestId with
  | none => do
    clear
    return none
  | some assignment => do
    save (W := worker) (.active assignment)
    let time ← now
    return if assignment.claim.leaseExpiresAt ≤ time then none else some assignment

def claimNativeQemuHostAssignment : QemuProgram (Option NativeQemuHostAssignment) := do
  let state : Option NativeQemuHostJournalState ← load (W := worker)
  match state with
  | some (.active _) | some (.result _ _) =>
    throw (.worker "native QEMU ownership must be replayed before claiming")
  | some (.claim requestId) => claimAnswered config requestId
  | none => do
    let requestId ← randomId
    save (W := worker) (.claim requestId)
    claimAnswered config requestId

/-- What the loop does with the answer to its claim. -/
def executeAnswered : Option NativeQemuHostAssignment → QemuProgram Unit
  | none => return ()
  | some assignment => do
    executeNativeQemuHostAssignment config assignment
    clear

def serveBoot : QemuProgram Unit := client.attest config

def serveLoop : QemuProgram Unit := do
  let state : Option NativeQemuHostJournalState ← load (W := worker)
  match state with
  | some (.active _) | some (.result _ _) => replayNativeQemuHostJournal config
  | _ => do
    let assignment ← claimNativeQemuHostAssignment config
    executeAnswered config assignment

end

/-! ## The worker starts a claim once -/

variable {watched : Stopped worker → Prop} {w : World worker} {config : NativeQemuHostClientConfig}

theorem attest_quiet : Quiet (client.attest config) :=
  .bind (.request (fun _ => rfl) fun _ => rfl) fun _ => .throwIf _ _

theorem candidateLease_quiet (assignment : NativeQemuHostAssignment) : Quiet (client.candidateLease assignment) :=
  .bind .randomId fun _ => .request (fun _ => rfl) fun _ => rfl

theorem cleanupNativeQemuAssignment_quiet (claimId : String) : Quiet (cleanupNativeQemuAssignment claimId) := by
  refine .bind (.cleanupNativeContainer _) fun removed => ?_
  split
  · exact .bind (.operation _) fun _ => .pure _
  · exact .pure _

theorem cleanupOrThrow_quiet (claimId : String) (failure : NativeHostFailure) : Quiet (cleanupOrThrow claimId failure) :=
  .bind (cleanupNativeQemuAssignment_quiet claimId) fun _ => .throwIf _ _

theorem throwRenewalFailure_quiet : Quiet throwRenewalFailure := .bind (.observe _) fun _ => .throwIf _ _

/-- The one `docker run` of an execution. -/
theorem runStreaming_keeps {c : String} (h : Fresh watched c w) :
    Keeps (Guarded watched) (runStreaming c) (Post (fun _ => Executing watched c) (Executing watched c)) w := by
  refine Safe.orElse (P := Post (fun _ => Executing watched c) (Executing watched c)) ?_ (fun _ _ h => h)
    fun failure w h => ?_
  · refine (Quiet.observe _).andThen h (fun _ w h => ?_) fun _ _ h => h.toExecuting
    refine (Quiet.throwIf _ _).andThen h (fun _ w h => ?_) fun _ _ h => h.toExecuting
    refine (Quiet.operation _).andThen h (fun _ w h => ?_) fun _ _ h => h.toExecuting
    exact h.keeps_run.andThen (fun _ _ h => h) fun _ _ h => h
  · refine Quiet.readOutput.andThen h (fun _ w h => ?_) fun _ _ h => h
    exact (Quiet.throwIf _ _).andThen h (fun _ _ h => h) fun _ _ h => h

variable {assignment : NativeQemuHostAssignment}

theorem prepareAndRun_keeps (h : Fresh watched assignment.claim.claimId w) :
    Keeps (Guarded watched) (prepareAndRun assignment)
      (Post (fun _ => Executing watched assignment.claim.claimId) (Executing watched assignment.claim.claimId)) w := by
  refine (candidateLease_quiet _).andThen h (fun _ w h => ?_) fun _ _ h => h.toExecuting
  refine (Quiet.operation _).andThen h (fun _ w h => ?_) fun _ _ h => h.toExecuting
  refine (Quiet.operation _).andThen h (fun _ w h => ?_) fun _ _ h => h.toExecuting
  refine (Quiet.operation _).andThen h (fun _ w h => ?_) fun _ _ h => h.toExecuting
  refine (Quiet.operation _).andThen h (fun _ w h => ?_) fun _ _ h => h.toExecuting
  exact runStreaming_keeps h

theorem executeNativeQemuAssignment_keeps (h : Fresh watched assignment.claim.claimId w) :
    Keeps (Guarded watched) (executeNativeQemuAssignment assignment)
      (Post (fun _ => Executing watched assignment.claim.claimId) (Executing watched assignment.claim.claimId)) w := by
  refine (Quiet.operation _).andThen h (fun _ w h => ?_) fun _ _ h => h.toExecuting
  refine (Quiet.operation _).andThen h (fun _ w h => ?_) fun _ _ h => h.toExecuting
  refine Quiet.timestamp.andThen h (fun startedAt w h => ?_) fun _ _ h => h.toExecuting
  refine Safe.andThen (P := Post (fun _ => Executing watched assignment.claim.claimId)
    (Executing watched assignment.claim.claimId)) ?_ (fun exitCode w h => ?_) fun _ _ h => h
  · refine (prepareAndRun_keeps h).andFinally fun r w hr => ?_
    have hexec : Executing watched assignment.claim.claimId w := by cases r <;> exact hr
    refine ((cleanupOrThrow_quiet _ _).keeps hexec).mono ?_
    rintro (failure | _) w' h'
    · exact h'
    · cases r <;> exact h'
  · refine Quiet.timestamp.andThen h (fun finishedAt w h => ?_) fun _ _ h => h
    refine Quiet.readOutput.andThen h (fun output w h => ?_) fun _ _ h => h
    exact Quiet.randomId.andThen h (fun _ _ h => h) fun _ _ h => h

theorem executeNativeQemuHostAssignment_keeps (h : Fresh watched assignment.claim.claimId w) :
    Keeps (Guarded watched) (executeNativeQemuHostAssignment config assignment)
      (Post (fun _ => Executing watched assignment.claim.claimId) (Guarded watched)) w := by
  refine (h.keeps_save (.active assignment) rfl rfl).andThen (fun _ w h => ?_) fun _ _ h => h.toGuarded
  refine Safe.andThen (P := Post (fun _ => Executing watched assignment.claim.claimId) (Guarded watched)) ?_
    (fun terminalEvent w h => ?_) fun _ _ h => h
  · refine (executeNativeQemuAssignment_keeps h).orElse (fun _ _ h => h) fun failure w h => ?_
    exact throwRenewalFailure_quiet.andThen h.toGuarded (fun _ _ h => h) fun _ _ h => h
  · refine throwRenewalFailure_quiet.andThen h (fun _ w h => ?_) fun _ _ h => h.toGuarded
    refine (h.keeps_save (.result assignment.claim.claimId terminalEvent) rfl rfl).andThen (fun _ w h => ?_)
      fun _ _ h => h.toGuarded
    refine Quiet.randomId.andThen h (fun requestId w h => ?_) fun _ _ h => h.toGuarded
    refine (h.keeps_request _ fun _ => rfl).mono ?_
    rintro (failure | _) w h
    · exact h.toGuarded
    · exact h

/-- The stored result of the journal is reported. -/
theorem report_keeps {claimId : String} {terminalEvent : NativeQemuTerminalEvent}
    (h : Replaying watched (NativeQemuHostJournalState.result claimId terminalEvent) w) :
    Keeps (Guarded watched) (client.report config claimId terminalEvent)
      (Post (fun _ => Closing watched) (Guarded watched)) w := by
  refine Quiet.randomId.andThen h (fun requestId w h => ?_) fun _ _ h => h.toGuarded
  refine (h.keeps_finish (.result requestId config.capacity { claimId, terminalEvent })
    (fun _ => rfl) (fun _ => rfl) rfl).mono ?_
  rintro (failure | _) w h
  · exact h.toGuarded
  · exact h

/-- The claim of the journal is recovered. -/
theorem recover_keeps (h : Replaying watched (NativeQemuHostJournalState.active assignment) w) :
    Keeps (Guarded watched) (client.recover config assignment.claim.claimId)
      (Post (fun _ => Closing watched) (Guarded watched)) w := by
  refine Quiet.randomId.andThen h (fun requestId w h => ?_) fun _ _ h => h.toGuarded
  refine (h.keeps_finish (.recovery requestId assignment.claim.claimId config.capacity)
    (fun _ => rfl) (fun _ => rfl) rfl).mono ?_
  rintro (failure | _) w h
  · exact h.toGuarded
  · exact h

theorem clear_keeps (h : Closing watched w) : Keeps (Guarded watched) (clear (W := worker)) (fun _ => Guarded watched) w :=
  h.keeps_clear.mono fun _ _ => Post.guarded fun _ _ h => h.toGuarded

theorem replayNativeQemuHostJournal_keeps (h : Guarded watched w) :
    Keeps (Guarded watched) (replayNativeQemuHostJournal config) (fun _ => Guarded watched) w := by
  refine h.keeps_load.andThen (fun (state : Option NativeQemuHostJournalState) w h => ?_) fun _ _ h => h
  rcases state with - | requestId | assignment | ⟨claimId, terminalEvent⟩
  · exact h.1
  · exact h.1
  · have hj : Replaying watched (NativeQemuHostJournalState.active assignment) w := { h.1 with journaled := h.2 }
    refine (cleanupOrThrow_quiet _ _).andThen hj (fun _ w h => ?_) fun _ _ h => h.toGuarded
    exact (recover_keeps h).andThen (fun _ _ h => clear_keeps h) fun _ _ h => h
  · have hj : Replaying watched (NativeQemuHostJournalState.result claimId terminalEvent) w := { h.1 with journaled := h.2 }
    refine (cleanupOrThrow_quiet _ _).andThen hj (fun _ w h => ?_) fun _ _ h => h.toGuarded
    exact (report_keeps h).andThen (fun _ _ h => clear_keeps h) fun _ _ h => h

theorem serveBoot_keeps (h : Guarded watched w) :
    Keeps (Guarded watched) (serveBoot config) (fun _ => Guarded watched) w :=
  attest_quiet.keeps h

variable [Sha256]

variable {requestId : String}

theorem client_claim_keeps (h : Waiting watched requestId w) :
    Keeps (Guarded watched) (client.claim config requestId)
      (Post (fun answer => Offered watched requestId (answer.map (·.claim.claimId))) (Guarded watched)) w := by
  refine (h.keeps_request (.claim requestId config.capacity)
    (fun response => Option.map (·.assignment.claim.claimId) response)
    fun (r : Option AssignmentResponse) => ?_).andThen (fun (response : Option AssignmentResponse) w h => ?_) fun _ _ h => h
  · exact (Option.map_map _ _ r).symm
  · refine (Quiet.throwIf _ _).andThen (P := Offered watched requestId _) h (fun _ w h => ?_) fun _ _ h => h.1.toGuarded
    show Offered watched requestId ((response.map (·.assignment)).map (·.claim.claimId)) w
    rw [Option.map_map]
    exact h

/-- An assignment that is returned is in the journal, and was not started. -/
def Assigned (watched : Stopped worker → Prop) : Option NativeQemuHostAssignment → World worker → Prop
  | none => Guarded watched
  | some assignment => Fresh watched assignment.claim.claimId

theorem claimAnswered_keeps (h : Waiting watched requestId w) :
    Keeps (Guarded watched) (claimAnswered config requestId) (Post (Assigned watched) (Guarded watched)) w := by
  refine (client_claim_keeps h).andThen (fun answer w h => ?_) fun _ _ h => h
  cases answer with
  | none => exact h.1.closing.keeps_clear.andThen (fun _ _ h => h.toGuarded) fun _ _ h => h
  | some assignment =>
    have hg : Granted watched requestId assignment.claim.claimId w := h.2 _ rfl
    refine (hg.keeps_activate (.active assignment) rfl rfl).andThen (fun _ w h => ?_) fun _ _ h => h
    refine Quiet.now.andThen h (fun time w h => ?_) fun _ _ h => h.toGuarded
    show Assigned watched (if assignment.claim.leaseExpiresAt ≤ time then none else some assignment) w
    split
    · exact h.toGuarded
    · exact h

theorem claimNativeQemuHostAssignment_keeps (h : Guarded watched w) :
    Keeps (Guarded watched) (claimNativeQemuHostAssignment config) (Post (Assigned watched) (Guarded watched)) w := by
  refine h.keeps_load.andThen (fun (state : Option NativeQemuHostJournalState) w h => ?_) fun _ _ h => h
  rcases state with - | requestId | assignment | ⟨claimId, terminalEvent⟩
  · have hi : Idle watched w := { h.1 with empty := h.2 }
    refine hi.keeps_randomId.andThen (fun requestId w h => ?_) fun _ _ h => h.toGuarded
    refine (h.1.keeps_save (.claim requestId) h.2.1 h.2.2 rfl rfl).andThen (fun _ w h => ?_) fun _ _ h => h
    exact claimAnswered_keeps h
  · have hw : Waiting watched requestId w := { h.1 with waits := by rw [World.pending, h.2]; rfl }
    exact claimAnswered_keeps hw
  · exact h.1
  · exact h.1

/-- What the journal holds when a round begins is replayed, claimed again, or claimed and executed. -/
theorem serveLoop_keeps (h : Guarded watched w) :
    Keeps (Guarded watched) (serveLoop config) (fun _ => Guarded watched) w := by
  have hclaim : ∀ w, Guarded watched w → Keeps (Guarded watched)
      (do let assignment ← claimNativeQemuHostAssignment config; executeAnswered config assignment)
      (fun _ => Guarded watched) w := by
    intro w h
    refine (claimNativeQemuHostAssignment_keeps h).andThen (fun answer w h => ?_) fun _ _ h => h
    cases answer with
    | none => exact h
    | some assignment =>
      refine (executeNativeQemuHostAssignment_keeps h).andThen (fun _ w h => ?_) fun _ _ h => h
      exact clear_keeps h.toClosing
  refine h.keeps_load.andThen (fun (state : Option NativeQemuHostJournalState) w h => ?_) fun _ _ h => h
  rcases state with - | requestId | assignment | ⟨claimId, terminalEvent⟩
  · exact hclaim w h.1
  · exact hclaim w h.1
  · exact replayNativeQemuHostJournal_keeps h.1
  · exact replayNativeQemuHostJournal_keeps h.1

end QemuWorker

end Dim.Host
