/-
A change of a workspace's resources: the two containers are updated in turn, each read back, then the record is written;
where a step fails, what was attempted is set back in reverse order, and a failure of that is reported as an uncertain
state. Docker may do anything to the limits of the container that it is asked to update, whatever it answers; what an
inspection prints are the limits in force.
-/
import DimProofs.Lib.Calls
import DimProofs.Resources.Budget

namespace Dim.Resources

open Effectful

/-! ## State -/

inductive Container where
  | outer
  | agent
deriving DecidableEq

/-- The limits in `HostConfig`, where a number of processes may be missing. -/
structure HostConfig where
  (nanoCpus memory memorySwap : Int)
  pidsLimit : Option Int

/-- The fields that `RESOURCE_INSPECT_FORMAT` prints. -/
def HostConfig.fields (config : HostConfig) : List Text :=
  [decimal config.nanoCpus, decimal config.memory, decimal config.memorySwap,
    match config.pidsLimit with
    | some pids => decimal pids
    | none => "<nil>".toList]

def HostConfig.printed (config : HostConfig) : Text := ['|'].intercalate config.fields ++ ['\n']

/-- A `WorkspaceRecord`: the fields that an update reads or writes. -/
structure Record where
  (name containerName : Text)
  environment : Option Environment
  phase : Lifecycle.WorkspacePhase
  limits : Limits
  updatedAt : Text
deriving DecidableEq

/-- The record file and the limits that Docker enforces. -/
structure World where
  record : Record
  limits : Container → HostConfig

/-! ## Effects -/

/-- What a command prints where it succeeds, and where it fails. -/
inductive CommandResult where
  | success (stdout : Text)
  | failure (stderr : Text)

/-- A call that may reject: taking and releasing the setup lock, reading and writing the record, looking up a container,
and the two Docker commands on a container's limits. -/
inductive Call where
  | acquireLock
  | releaseLock
  | readWorkspace
  | writeWorkspace (record : Record)
  | inspectContainer (container : Container)
  | dockerUpdate (container : Container) (limits : Limits)
  | dockerInspect (container : Container)

/-- A lookup says whether there is such a container. -/
abbrev Call.Value : Call → Type
  | .acquireLock => Unit
  | .releaseLock => Unit
  | .readWorkspace => Record
  | .writeWorkspace _ => Unit
  | .inspectContainer _ => Bool
  | .dockerUpdate _ _ => CommandResult
  | .dockerInspect _ => CommandResult

abbrev Action (α : Type) := Program Call (fun c => Except Failure c.Value) Failure α

def perform (c : Call) : Action c.Value := call c

/-- The failures of the calls other than the release of the lock. -/
def Failure.usual : Failure → Bool
  | .release _ => false
  | _ => true

def usual {α : Type} : Except Failure α → Bool
  | .ok _ => true
  | .error failure => failure.usual

/-- What a call may answer, and do to the world. A write that fails may have replaced the file. -/
inductive Performs : (c : Call) → World → Except Failure c.Value → World → Prop
  | acquired {w : World} {answer : Except Failure Unit} (h : usual answer = true) : Performs .acquireLock w answer w
  | released {w : World} : Performs .releaseLock w (.ok ()) w
  | notReleased {w : World} {message : Text} : Performs .releaseLock w (.error (.release message)) w
  | read {w : World} : Performs .readWorkspace w (.ok w.record) w
  | notRead {w : World} {failure : Failure} (h : failure.usual = true) : Performs .readWorkspace w (.error failure) w
  | written {w : World} {record : Record} : Performs (.writeWorkspace record) w (.ok ()) { w with record }
  | notWritten {w : World} {record : Record} {failure : Failure} (h : failure.usual = true) :
    Performs (.writeWorkspace record) w (.error failure) w
  | lateFailure {w : World} {record : Record} {failure : Failure} (h : failure.usual = true) :
    Performs (.writeWorkspace record) w (.error failure) { w with record }
  | found {w : World} {container : Container} {answer : Except Failure Bool} (h : usual answer = true) :
    Performs (.inspectContainer container) w answer w
  | updated {w : World} {container : Container} {limits : Limits} {answer : Except Failure CommandResult}
    {config : HostConfig} (h : usual answer = true) :
    Performs (.dockerUpdate container limits) w answer { w with limits := Function.update w.limits container config }
  | inspected {w : World} {container : Container} :
    Performs (.dockerInspect container) w (.ok (.success (w.limits container).printed)) w
  | notInspected {w : World} {container : Container} {stderr : Text} :
    Performs (.dockerInspect container) w (.ok (.failure stderr)) w
  | rejected {w : World} {container : Container} {failure : Failure} (h : failure.usual = true) :
    Performs (.dockerInspect container) w (.error failure) w

/-! ## One container -/

def orThrow {α : Type} : Except Failure α → Action α
  | .ok value => pure value
  | .error failure => throw failure

/-- What the readback has to print. -/
def Limits.expected (limits : Limits) : Except Failure (List Int) := do
  let cpu ← parseCpu limits.cpuCount
  let memory ← parseMemory limits.memory
  let memorySwap ← parseMemory limits.memory
  let pids ← bigInt limits.pidsLimit
  return [cpu, memory, memorySwap, pids]

/-- Every field is the number expected there. -/
def applied (stdout : Text) (expected : List Int) : Bool :=
  let fields := (trim stdout).splitOn '|'
  fields.length = expected.length && (fields.zip expected).all fun p => stringToBigInt (trim p.1) = some p.2

def checkApplied (limits : Limits) (action stdout : Text) : Action Unit := do
  let expected ← orThrow limits.expected
  if applied stdout expected then pure ()
  else throw (.userError ("Docker did not apply ".toList ++ action ++ " exactly".toList))

def readBack (container : Container) (limits : Limits) (action : Text) : Action Unit := do
  match ← perform (.dockerInspect container) with
  | .failure stderr => throw (.userError ("failed to read back ".toList ++ action ++ ": ".toList ++ trim stderr))
  | .success stdout => checkApplied limits action stdout

def updateContainerResourceLimits (container : Container) (limits : Limits) (action : Text) : Action Unit := do
  match ← perform (.dockerUpdate container limits) with
  | .failure stderr => throw (.userError ("failed to ".toList ++ action ++ ": ".toList ++ trim stderr))
  | .success _ => readBack container limits action

def agentUnavailable (record : Record) : Failure :=
  .userError ("recommended agent for workspace '".toList ++ record.name ++ "' is unavailable".toList)

def updateWorkspaceAgentResources (record : Record) (resources : Limits) : Action Unit := do
  if ← perform (.inspectContainer .agent) then
    updateContainerResourceLimits .agent resources "update recommended workspace agent resources".toList
  else throw (agentUnavailable record)

/-! ## The update and its rollback -/

/-- `WorkspaceResourceUpdate`; `publish` writes `next`, and `restore` writes `record`. -/
structure Update where
  record : Record
  resources : Limits
  next : Record

/-- `outerAttempted`, `agentAttempted` and `publicationAttempted`. -/
structure Attempted where
  (outer agent publication : Bool)

/-- The outcome of a promise that is awaited in a `try`. -/
def capture {α : Type} (action : Action α) : Action (Except Failure α) :=
  tryCatch (action >>= fun value => pure (.ok value)) fun failure => pure (.error failure)

def captureRollbackError (operation : Action Unit) : Action (List Failure) :=
  tryCatch (operation >>= fun _ => pure []) fun failure => pure [failure]

def publishNext (update : Update) (attempted : Attempted) : Action (Attempted × Except Failure Unit) := do
  let published ← capture (perform (.writeWorkspace update.next))
  return ({ attempted with publication := true }, published)

def updateAgent (update : Update) (next : Allocation) (attempted : Attempted) :
    Action (Attempted × Except Failure Unit) := do
  match next.agent with
  | none => publishNext update attempted
  | some resources =>
    let attempted := { attempted with agent := true }
    match ← capture (updateWorkspaceAgentResources update.record resources) with
    | .error failure => return (attempted, .error failure)
    | .ok _ => publishNext update attempted

/-- The `try` block, with the flags that its `catch` block reads. -/
def tryUpdate (update : Update) (next : Allocation) : Action (Attempted × Except Failure Unit) := do
  let attempted := { outer := true, agent := false, publication := false }
  match ← capture (updateContainerResourceLimits .outer next.outer "update workspace resources".toList) with
  | .error failure => return (attempted, .error failure)
  | .ok _ => updateAgent update next attempted

def rollbackAgent (update : Update) (previous : Allocation) (attempted : Attempted) : Action (List Failure) :=
  match attempted.agent, previous.agent with
  | true, some resources => captureRollbackError (updateWorkspaceAgentResources update.record resources)
  | _, _ => pure []

def rollbackOuter (previous : Allocation) (attempted : Attempted) : Action (List Failure) :=
  if attempted.outer then
    captureRollbackError
      (updateContainerResourceLimits .outer previous.outer "restore previous workspace resources".toList)
  else pure []

def rollbackPublication (update : Update) (attempted : Attempted) : Action (List Failure) :=
  if attempted.publication then captureRollbackError (perform (.writeWorkspace update.record)) else pure []

def rollback (update : Update) (previous : Allocation) (attempted : Attempted) : Action (List Failure) := do
  let agentErrors ← rollbackAgent update previous attempted
  let outerErrors ← rollbackOuter previous attempted
  let publicationErrors ← rollbackPublication update attempted
  return agentErrors ++ outerErrors ++ publicationErrors

/-- The error that says that the resource state is uncertain. -/
def uncertain (rollbackErrors : List Failure) : Failure :=
  .userError ("workspace resource state is uncertain after update failure: ".toList ++
    "; ".toList.intercalate (rollbackErrors.map Failure.message))

/-- The `catch` block. -/
def afterFailure (update : Update) (previous : Allocation) (attempted : Attempted) (failure : Failure) :
    Action Unit := do
  let rollbackErrors ← rollback update previous attempted
  if rollbackErrors = [] then throw failure else throw (uncertain rollbackErrors)

def applyWorkspaceResourceUpdate (update : Update) : Action Unit := do
  let environment := update.record.environment.getD .custom
  let previousAllocation ← orThrow (allocateWorkspaceResourceBudget environment update.record.limits)
  let nextAllocation ← orThrow (allocateWorkspaceResourceBudget environment update.resources)
  match ← tryUpdate update nextAllocation with
  | (_, .ok _) => pure ()
  | (attempted, .error failure) => afterFailure update previousAllocation attempted failure

/-! ## The request -/

/-- `WorkspaceResourceInput`. -/
structure Input where
  (cpuCount memory pidsLimit : Option Text)

/-- The limits that a request asks for. -/
def Input.over (input : Input) (limits : Limits) : Limits :=
  ⟨input.cpuCount.getD limits.cpuCount, input.memory.getD limits.memory, input.pidsLimit.getD limits.pidsLimit⟩

def assertWorkspaceLifecycleActive (record : Record) : Except Failure Unit :=
  if record.phase = .discarding then
    .error (.userError ("workspace '".toList ++ record.name ++ "' discard is incomplete; retry workspace discard".toList))
  else .ok ()

def findOuter (record : Record) : Action Unit := do
  if ← perform (.inspectContainer .outer) then pure ()
  else throw (.userError ("workspace container '".toList ++ record.containerName ++ "' is not available".toList))

def findAgent (record : Record) : Action Unit :=
  if record.environment = some .recommended then do
    if ← perform (.inspectContainer .agent) then pure () else throw (agentUnavailable record)
  else pure ()

/-- The record that is published. -/
def Record.withResources (record : Record) (resources : Limits) (now : Text) : Record :=
  { record with limits := resources, updatedAt := now }

def updateLocked (input : Input) (now : Text) : Action Record := do
  let record ← perform .readWorkspace
  orThrow (assertWorkspaceLifecycleActive record)
  let resources := input.over record.limits
  orThrow (validateWorkspaceResources resources)
  findOuter record
  findAgent record
  let next := record.withResources resources now
  applyWorkspaceResourceUpdate { record, resources, next }
  return next

def checkRequest (connected : Bool) (name : Text) (input : Input) : Except Failure Unit :=
  if !connected then
    .error (.userError
      "native control plane is not configured; install the native control plane before modifying Projects or workspaces".toList)
  else if !Lifecycle.validLifecycleName (String.ofList name) then
    .error (.userError "workspace name must match [a-z0-9][a-z0-9_.-]\x7b0,47\x7d".toList)
  else if input.cpuCount = none ∧ input.memory = none ∧ input.pidsLimit = none then
    .error (.userError "provide at least one workspace resource limit".toList)
  else .ok ()

/-- `updateWorkspaceResources`, where `now` is the time at which the record is made. -/
def updateWorkspaceResources (connected : Bool) (name : Text) (input : Input) (now : Text) : Action Record := do
  orThrow (checkRequest connected name input)
  perform .acquireLock
  (updateLocked input now).tryFinally (perform .releaseLock)

end Dim.Resources
