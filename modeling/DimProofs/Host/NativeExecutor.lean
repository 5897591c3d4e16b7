/-
`executeNativeHostClaim`, which the ordinary and the root CI worker share, as a program. The renewals of
its lease run beside it and change nothing it reads but whether the lease is lost; an aborted signal shows
as an observation or as the failure of what it interrupts.
-/
import DimProofs.Host.Triple
import DimProofs.Lib.Pattern

namespace Dim.Host

open Effectful Dim.Ordinary

inductive NativeHostDisposition where
  | reported
  | recovered

structure NativeHostExecutionResult where
  disposition : NativeHostDisposition
  terminalEvent : NativeTerminalEvent

structure NativeHostExecutorDependencies (W : Worker) where
  createReadAuthority : HostProgram W Unit
  renewClaim : NativeHostClaimRenewalRequest → HostProgram W NativeHostClaimRenewal
  reportResult : NativeHostResultRequest → HostProgram W Unit
  recoverClaim : NativeHostRecoveryRequest → HostProgram W Unit
  publishCreated : NativeHostPrivateRootIdentity → HostProgram W Unit

def renewalRequest (claim : NativeHostClaim) (requestId : String) : NativeHostClaimRenewalRequest :=
  { requestId, hostId := claim.hostId, capacity := claim.capacity, claimId := claim.claimId,
    attemptId := claim.attemptId, descriptorDigest := claim.descriptorDigest }

def recoveryRequest (claim : NativeHostClaim) (requestId : String) : NativeHostRecoveryRequest :=
  { renewalRequest claim requestId with resourceId := claim.claimId }

def classifyCompletion (run : ContainerRun) : NativeTerminalCompletion :=
  if run.leaseLost then .leaseLost
  else if run.externallyCancelled then .cancelled
  else if run.outputExceeded then .outputLimitExceeded
  else if run.timedOut then .timedOut
  else if run.waitObserverExitCode ≠ 0 ∨ run.logsObserverExitCode ≠ 0 then
    .executorFailure "container-observer-failed"
  else match run.exitCode with
  | none => .executorFailure "invalid-container-exit"
  | some exitCode => .exited exitCode

def terminalResult : NativeTerminalCompletion → NativeTerminalResult
  | .cancelled => .cancelled
  | .exited 0 => .success
  | _ => .failure

def terminal (claim : NativeHostClaim) (completion : NativeTerminalCompletion) (output : NativeBoundedOutput)
    (startedAt finishedAt eventId : String) : NativeTerminalEvent :=
  { eventId, occurredAt := finishedAt
    payload :=
      { reviewId := claim.reviewId, attemptId := claim.attemptId, attempt := claim.attempt,
        descriptor := claim.descriptor, descriptorDigest := claim.descriptorDigest, hostId := claim.hostId,
        capacity := claim.capacity, startedAt, finishedAt, result := terminalResult completion, completion,
        stdout := output.stdoutEvidence, stderr := output.stderrEvidence } }

/-- `/^[0-9a-f]{64}$/`. -/
def isContainerId (text : String) : Bool := text.toList.length = 64 && text.toList.all Pattern.hex

def maxSafeInteger : Nat := 2 ^ 53 - 1

/-- `toNumber` of the output bound and `toMilliseconds` of the wall clock bound, which throw out of range. -/
def boundsInRange (bounds : NativeResourceBounds) : Bool :=
  1 ≤ bounds.wallClockSeconds && bounds.wallClockSeconds * 1000 ≤ maxSafeInteger
    && 1 ≤ bounds.outputBytes && bounds.outputBytes ≤ maxSafeInteger

section
variable {W : Worker}

def startNativeLease (dependencies : NativeHostExecutorDependencies W) (claim : NativeHostClaim) : HostProgram W Unit := do
  let requestId ← randomId
  let _ ← dependencies.renewClaim (renewalRequest claim requestId)
  throwIf (← observe .leaseElapsed) (.lease claim.claimId)

/-- A cleanup that is armed; what is clean is not cleaned again. -/
def cleanupArmed (armed : Bool) (cleanup : HostProgram W Bool) : HostProgram W Bool :=
  if armed then cleanup else pure true

def cleanupResources (claimId : String) : HostProgram W Bool := do
  let vars ← readVars
  let container ← cleanupArmed vars.containerCleanupArmed (cleanupNativeContainer claimId)
  setVars { vars with containerCleanupArmed := !container }
  let root ← cleanupArmed vars.rootCleanupArmed (cleanupPrivateRoot vars.privateRoot claimId)
  setVars { vars with containerCleanupArmed := !container, rootCleanupArmed := !root }
  return container && root

def cleanupOrThrow (claimId : String) : HostProgram W Unit := do
  throwIf (!(← cleanupResources claimId)) (.cleanup claimId)

/-- `submitNativeResult`: the last failure, or none when a report was accepted. -/
def submitNativeResult (reportResult : NativeHostResultRequest → HostProgram W Unit) (request : NativeHostResultRequest) :
    Nat → Option NativeHostFailure → HostProgram W (Option NativeHostFailure)
  | 0, failure => pure failure
  | attempts + 1, _ =>
    tryCatch (do reportResult request; return none)
      fun failure => submitNativeResult reportResult request attempts (some failure)

/-- `recoverClaim`, whose failure ends the execution. -/
def recoverExecution (dependencies : NativeHostExecutorDependencies W) (claim : NativeHostClaim) : HostProgram W Unit := do
  let requestId ← randomId
  tryCatch (dependencies.recoverClaim (recoveryRequest claim requestId)) fun _ => throw (.recovery claim.claimId)

/-- A claim that was recovered, with its terminal event. -/
def recovered (dependencies : NativeHostExecutorDependencies W) (claim : NativeHostClaim)
    (completion : NativeTerminalCompletion) (output : NativeBoundedOutput) (startedAt finishedAt : String) :
    HostProgram W NativeHostExecutionResult := do
  recoverExecution dependencies claim
  let eventId ← randomId
  return { disposition := .recovered, terminalEvent := terminal claim completion output startedAt finishedAt eventId }

section
variable [Sha256]

def emptyNativeOutput : NativeBoundedOutput :=
  let evidence : NativeOutputEvidence := { bytes := 0, sha256 := "sha256:" ++ Sha256.hex "", truncated := false }
  { stdoutEvidence := evidence, stderrEvidence := evidence }

/-- `NativeHostPrivateRoot.create`, with the identity it leaves. -/
def createPrivateRoot (claimId : String) : HostProgram W NativeHostPrivateRootIdentity := do
  let vars ← readVars
  match vars.privateRoot with
  | .created _ _ _ => throw .privateRoot
  | .planned rootId =>
    let (device, inode) ← createRoot rootId claimId
    setVars { vars with privateRoot := .created rootId device inode }
    return .created rootId device inode

/-- Up to the start of the container. -/
def prepareExecution (dependencies : NativeHostExecutorDependencies W) (claim : NativeHostClaim) : HostProgram W Unit := do
  let identity ← createPrivateRoot claim.claimId
  dependencies.publishCreated identity
  throwIf (nativeDescriptorDigest claim.descriptor ≠ claim.descriptorDigest)
    (.verification "claim descriptor digest does not match its descriptor")
  startNativeLease dependencies claim
  setVars { (← readVars) with lease := true }
  dependencies.createReadAuthority
  operation .verifyCandidate
  operation .writeLauncher
  operation .writeDaemonConfig
  operation .prepareImages
  throwIf (← observe .aborted) .aborted

end

/-- From the start of the container to its cleanup. -/
def runClaim (claim : NativeHostClaim) : HostProgram W ContainerRun := do
  let launched ← runContainer claim.claimId
  throwIf (launched.exitCode ≠ 0 || !isContainerId launched.stdout)
    (.launch (String.ofList (launched.stderr.toList.take 4096)))
  throwIf (!boundsInRange claim.descriptor.bounds) (.verification "bound exceeds executor range")
  let run ← collect claim.claimId
  setVars { (← readVars) with captured := run.output }
  cleanupOrThrow claim.claimId
  return run

/-- From the cleanup to the end of the claim. -/
def finishClaim (dependencies : NativeHostExecutorDependencies W) (claim : NativeHostClaim) (run : ContainerRun)
    (startedAt : String) : HostProgram W NativeHostExecutionResult := do
  let finishedAt ← timestamp
  let eventId ← randomId
  let terminalEvent := terminal claim (classifyCompletion run) run.output startedAt finishedAt eventId
  if !(← observe .leaseCurrent) then
    recovered dependencies claim .leaseLost run.output startedAt finishedAt
  else do
    let requestId ← randomId
    let reportFailure ← submitNativeResult dependencies.reportResult
      { requestId, claimId := claim.claimId, terminalEvent } 3 none
    match reportFailure with
    | none => return { disposition := .reported, terminalEvent }
    | some failure =>
      if ← observe .leaseLost then recovered dependencies claim .leaseLost run.output startedAt finishedAt
      else if failure = .finalizationUncertain then throw failure
      else recovered dependencies claim (.executorFailure "result-submission-failed") run.output startedAt finishedAt

/-- The `catch` block. -/
def abandonExecution (dependencies : NativeHostExecutorDependencies W) (claim : NativeHostClaim) (startedAt : String)
    (failure : NativeHostFailure) : HostProgram W NativeHostExecutionResult :=
  match failure with
  | .recovery _ | .finalizationUncertain => throw failure
  | _ => do
    cleanupOrThrow claim.claimId
    let finishedAt ← timestamp
    recoverExecution dependencies claim
    let vars ← readVars
    if !(vars.lease && (← observe .leaseLost)) then throw failure
    else do
      let eventId ← randomId
      return { disposition := .recovered,
               terminalEvent := terminal claim .leaseLost vars.captured startedAt finishedAt eventId }

def executeNativeHostClaim [Sha256] (dependencies : NativeHostExecutorDependencies W) (claim : NativeHostClaim) :
    HostProgram W NativeHostExecutionResult := do
  setVars { (← readVars) with
    containerCleanupArmed := true, rootCleanupArmed := true, lease := false, captured := emptyNativeOutput }
  let startedAt ← timestamp
  let execution : HostProgram W NativeHostExecutionResult := do
    prepareExecution dependencies claim
    let run ← runClaim claim
    finishClaim dependencies claim run startedAt
  (tryCatch execution (abandonExecution dependencies claim startedAt)).tryFinally (cleanupOrThrow claim.claimId)

/-! ## The claim of an execution is started once -/

/-- What the executor relies on of its worker. -/
structure NativeHostExecutorDependencies.Sound (dependencies : NativeHostExecutorDependencies W)
    (watched : Stopped W → Prop) (c : String) : Prop where
  createReadAuthority : Quiet dependencies.createReadAuthority
  renewClaim : ∀ request, Quiet (dependencies.renewClaim request)
  publishCreated : ∀ identity w, Fresh watched c w → Keeps (Guarded watched) (dependencies.publishCreated identity)
    (Post (fun _ => Fresh watched c) (Executing watched c)) w
  reportResult : ∀ request w, Executing watched c w → Keeps (Guarded watched) (dependencies.reportResult request)
    (Post (fun _ => Idle watched) (Executing watched c)) w
  recoverClaim : ∀ request w, request.claimId = c → Executing watched c w →
    Keeps (Guarded watched) (dependencies.recoverClaim request) (Post (fun _ => Idle watched) (Executing watched c)) w

theorem startNativeLease_quiet {dependencies : NativeHostExecutorDependencies W} {claim : NativeHostClaim}
    (h : ∀ request, Quiet (dependencies.renewClaim request)) : Quiet (startNativeLease dependencies claim) :=
  .bind .randomId fun _ => .bind (h _) fun _ => .bind (.observe _) fun _ => .throwIf _ _

theorem cleanupArmed_quiet {armed : Bool} {cleanup : HostProgram W Bool} (h : Quiet cleanup) :
    Quiet (cleanupArmed armed cleanup) := by
  unfold cleanupArmed
  split
  · exact h
  · exact .pure true

theorem cleanupResources_quiet (c : String) : Quiet (cleanupResources (W := W) c) :=
  .bind .readVars fun _ => .bind (cleanupArmed_quiet (.cleanupNativeContainer c)) fun _ => .bind (.setVars _) fun _ =>
    .bind (cleanupArmed_quiet (.cleanupPrivateRoot _ c)) fun _ => .bind (.setVars _) fun _ => .pure _

theorem cleanupOrThrow_quiet (c : String) : Quiet (cleanupOrThrow (W := W) c) :=
  .bind (cleanupResources_quiet c) fun _ => .throwIf _ _

theorem createPrivateRoot_quiet (c : String) : Quiet (createPrivateRoot (W := W) c) := by
  refine .bind .readVars fun vars => ?_
  split
  · exact .throw _
  · exact .bind (.createRoot _ c) fun _ => .bind (.setVars _) fun _ => .pure _

section
variable {watched : Stopped W → Prop} {w : World W} {dependencies : NativeHostExecutorDependencies W}
  {claim : NativeHostClaim}

theorem prepareExecution_keeps [Sha256] (hd : dependencies.Sound watched claim.claimId) (h : Fresh watched claim.claimId w) :
    Keeps (Guarded watched) (prepareExecution dependencies claim)
      (Post (fun _ => Fresh watched claim.claimId) (Executing watched claim.claimId)) w := by
  have hquiet : Quiet (W := W) (do
      throwIf (nativeDescriptorDigest claim.descriptor ≠ claim.descriptorDigest)
        (.verification "claim descriptor digest does not match its descriptor")
      startNativeLease dependencies claim
      setVars { (← readVars) with lease := true }
      dependencies.createReadAuthority
      operation .verifyCandidate
      operation .writeLauncher
      operation .writeDaemonConfig
      operation .prepareImages
      throwIf (← observe .aborted) .aborted) :=
    .bind (.throwIf _ _) fun _ => .bind (startNativeLease_quiet hd.renewClaim) fun _ => .bind .readVars fun _ =>
      .bind (.setVars _) fun _ => .bind hd.createReadAuthority fun _ => .bind (.operation _) fun _ =>
      .bind (.operation _) fun _ => .bind (.operation _) fun _ => .bind (.operation _) fun _ =>
      .bind (.observe _) fun _ => .throwIf _ _
  refine (createPrivateRoot_quiet _).andThen h (fun identity w h => ?_) fun _ _ h => h.toExecuting
  refine (hd.publishCreated identity w h).andThen (fun _ w h => ?_) fun _ _ h => h
  refine (hquiet.keeps h).mono ?_
  rintro (failure | _) w h
  · exact h.toExecuting
  · exact h

/-- The container is started here, and here only. -/
theorem runClaim_keeps (h : Fresh watched claim.claimId w) : Keeps (Guarded watched) (runClaim claim)
    (Post (fun _ => Executing watched claim.claimId) (Executing watched claim.claimId)) w := by
  refine h.keeps_run.andThen (fun launched w h => ?_) fun _ _ h => h
  refine ((Quiet.bind (.throwIf _ _) fun _ => .bind (.throwIf _ _) fun _ => .bind (.collect _) fun _ =>
    .bind .readVars fun _ => .bind (.setVars _) fun _ => .bind (cleanupOrThrow_quiet _) fun _ =>
    .pure _).keeps h).mono ?_
  rintro (failure | run) w h
  · exact h
  · exact h

theorem submitNativeResult_keeps (hd : dependencies.Sound watched claim.claimId) (request : NativeHostResultRequest) :
    ∀ (attempts : Nat) (failure : Option NativeHostFailure) (w : World W), Executing watched claim.claimId w →
      (failure = none → attempts ≠ 0) →
      Keeps (Guarded watched) (submitNativeResult dependencies.reportResult request attempts failure)
        (Post (fun failure => match failure with
          | none => Idle watched
          | some _ => Executing watched claim.claimId) (Executing watched claim.claimId)) w
  | 0, none, _, _, hn => absurd rfl (hn rfl)
  | 0, some _, _, h, _ => h
  | attempts + 1, _, w, h, _ => by
    refine Safe.orElse (P := Post (fun failure => match failure with
      | none => Idle watched
      | some _ => Executing watched claim.claimId) (Executing watched claim.claimId)) ?_ (fun _ _ h => h)
          fun failure w h => ?_
    · exact (hd.reportResult request w h).andThen (fun _ w h => h) fun _ _ h => h
    · exact submitNativeResult_keeps hd request attempts (some failure) w h fun hn => by cases hn

theorem recoverExecution_keeps (hd : dependencies.Sound watched claim.claimId) (h : Executing watched claim.claimId w) :
    Keeps (Guarded watched) (recoverExecution dependencies claim)
      (Post (fun _ => Idle watched) (Executing watched claim.claimId)) w := by
  refine Quiet.randomId.andThen h (fun requestId w h => ?_) fun _ _ h => h
  exact (hd.recoverClaim (recoveryRequest claim requestId) w rfl h).orElse (fun _ _ h => h) fun _ _ h => h

theorem recovered_keeps (hd : dependencies.Sound watched claim.claimId) (h : Executing watched claim.claimId w)
    (completion : NativeTerminalCompletion) (output : NativeBoundedOutput) (startedAt finishedAt : String) :
    Keeps (Guarded watched) (recovered dependencies claim completion output startedAt finishedAt)
      (Post (fun _ => Idle watched) (Executing watched claim.claimId)) w := by
  refine (recoverExecution_keeps hd h).andThen (fun _ w h => ?_) fun _ _ h => h
  rintro id w' ⟨-, rfl⟩
  exact ⟨h.toGuarded.draw id, h.same (.draw w id)⟩

theorem finishClaim_keeps (hd : dependencies.Sound watched claim.claimId) (h : Executing watched claim.claimId w)
    (run : ContainerRun) (startedAt : String) : Keeps (Guarded watched) (finishClaim dependencies claim run startedAt)
      (Post (fun _ => Idle watched) (Executing watched claim.claimId)) w := by
  refine Quiet.timestamp.andThen h (fun finishedAt w h => ?_) fun _ _ h => h
  refine Quiet.randomId.andThen h (fun eventId w h => ?_) fun _ _ h => h
  refine (Quiet.observe .leaseCurrent).andThen h (fun current w h => ?_) fun _ _ h => h
  cases current with
  | false => exact recovered_keeps hd h _ _ _ _
  | true =>
    refine Quiet.randomId.andThen h (fun requestId w h => ?_) fun _ _ h => h
    refine (submitNativeResult_keeps hd _ 3 none w h fun _ => by decide).andThen (fun failure w h => ?_) fun _ _ h => h
    cases failure with
    | none => exact h
    | some failure =>
      refine (Quiet.observe .leaseLost).andThen h (fun lost w h => ?_) fun _ _ h => h
      cases lost with
      | true => exact recovered_keeps hd h _ _ _ _
      | false =>
        by_cases hf : failure = .finalizationUncertain
        · simp only [Bool.false_eq_true, if_false, if_pos hf]
          exact h
        · simp only [Bool.false_eq_true, if_false, if_neg hf]
          exact recovered_keeps hd h _ _ _ _

theorem abandonExecution_keeps (hd : dependencies.Sound watched claim.claimId) (h : Executing watched claim.claimId w)
    (startedAt : String) (failure : NativeHostFailure) :
    Keeps (Guarded watched) (abandonExecution dependencies claim startedAt failure)
      (Post (fun _ => Idle watched) (Guarded watched)) w := by
  unfold abandonExecution
  split
  · exact h.toGuarded
  · exact h.toGuarded
  · refine (cleanupOrThrow_quiet _).andThen h (fun _ w h => ?_) fun _ _ h => h.toGuarded
    refine Quiet.timestamp.andThen h (fun finishedAt w h => ?_) fun _ _ h => h.toGuarded
    refine (recoverExecution_keeps hd h).andThen (fun _ w h => ?_) fun _ _ h => h.toGuarded
    refine Quiet.readVars.andThen h (fun vars w h => ?_) fun _ _ h => h.toGuarded
    refine (Quiet.observe .leaseLost).andThen h (fun lost w h => ?_) fun _ _ h => h.toGuarded
    split
    · exact h.toGuarded
    · exact Quiet.randomId.andThen h (fun _ _ h => h) fun _ _ h => h.toGuarded

/-- An execution that returns leaves an empty journal. -/
theorem executeNativeHostClaim_keeps [Sha256] (hd : dependencies.Sound watched claim.claimId)
    (h : Fresh watched claim.claimId w) : Keeps (Guarded watched) (executeNativeHostClaim dependencies claim)
      (Post (fun _ => Idle watched) (Guarded watched)) w := by
  refine Quiet.readVars.andThen h (fun vars w h => ?_) fun _ _ h => h.toGuarded
  refine (Quiet.setVars _).andThen h (fun _ w h => ?_) fun _ _ h => h.toGuarded
  refine Quiet.timestamp.andThen h (fun startedAt w h => ?_) fun _ _ h => h.toGuarded
  refine Safe.andFinally (P := Post (fun _ => Idle watched) (Guarded watched)) ?_ ?_
  · refine Safe.orElse (P := Post (fun _ => Idle watched) (Executing watched claim.claimId)) ?_ (fun _ _ h => h)
      fun failure w h => abandonExecution_keeps hd h startedAt failure
    refine (prepareExecution_keeps hd h).andThen (fun _ w h => ?_) fun _ _ h => h
    exact (runClaim_keeps h).andThen (fun run w h => finishClaim_keeps hd h run startedAt) fun _ _ h => h
  · rintro (failure | result) w h
    · refine ((cleanupOrThrow_quiet _).keeps h).mono ?_
      rintro (_ | _) w h <;> exact h
    · refine ((cleanupOrThrow_quiet _).keeps h).mono ?_
      rintro (_ | _) w h
      · exact h.toGuarded
      · exact h

end
end

end Dim.Host
