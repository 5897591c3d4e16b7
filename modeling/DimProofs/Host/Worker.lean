/-
What the workers of a host's capacities share: the effects they perform, the world that a crash leaves
behind, and the rules for what an effect does to the journal, to the claims that were answered and to the
containers that were started. A worker is one process at a time, a journal write is atomic but may fail,
and the containers that are started and the requests that end a claim are logged.
-/
import DimProofs.Lib.Program
import DimProofs.Ordinary.Protocol

namespace Dim.Host

open Effectful Dim.Ordinary

/-! ## Effects -/

/-- The errors that a worker or its executor tells apart, and those they only pass on. -/
inductive NativeHostFailure where
  | requestRejected (statusCode : Nat)
  | client
  | journal
  | verification (message : String)
  | lease (claimId : String)
  | launch (dockerError : String)
  | cleanup (claimId : String)
  | recovery (claimId : String)
  | finalizationUncertain
  | worker (message : String)
  | aborted
  | privateRoot
  | other
deriving DecidableEq

/-- The work on the host itself that either succeeds or throws. -/
inductive HostOperation where
  | createReadAuthority
  | verifyCandidate
  | writeLauncher
  | writeDaemonConfig
  | prepareImages
  | makeRoot
  | makeJobRoot
  | writeDescriptor
  | openJobRoot
  | inspectKvm
  | removeRoot

/-- What a process reads off its clocks and signals. -/
inductive Observation where
  | aborted
  | leaseElapsed
  | leaseCurrent
  | leaseLost

/-- The end of a command, with its output trimmed. -/
structure CommandResult where
  exitCode : Int
  (stdout stderr : String)

/-- The evidence of a `NativeBoundedOutput`. -/
structure NativeBoundedOutput where
  (stdoutEvidence stderrEvidence : NativeOutputEvidence)

/-- What `docker wait` and `docker logs` leave, with the signals at that moment. `exitCode` is
`parseExitCode` of what `docker wait` printed. -/
structure ContainerRun where
  (leaseLost externallyCancelled outputExceeded timedOut : Bool)
  exitCode : Option Nat
  (waitObserverExitCode logsObserverExitCode : Int)
  output : NativeBoundedOutput

/-- A private root that is planned, or that was created as a directory. -/
inductive NativeHostPrivateRootIdentity where
  | planned (rootId : String)
  | created (rootId device inode : String)

/-- The variables that the blocks of an executor share with its worker; `lease` is whether a lease was
started. -/
structure ExecutorVariables where
  privateRoot : NativeHostPrivateRootIdentity
  (containerCleanupArmed rootCleanupArmed lease : Bool)
  captured : NativeBoundedOutput

/-- How a claim may end: the request that reported its result, or the recovery of the claim, was accepted. -/
inductive Finish (ρ : Type) where
  | reported (result : ρ)
  | recovered (claimId : String)

/-- What tells the workers apart. `pending` is the request whose claim is not executed yet, `held` that
request with its claim where the journal has it, `claimOf` the claim that may have been started, and
`stored` its terminal result. -/
structure Worker where
  (Journal Request : Type)
  Response : Request → Type
  Result : Type
  pending : Journal → Option String
  held : Journal → Option (String × String)
  claimOf : Journal → Option String
  stored : Journal → Option Result
  recovers : Journal → Bool
  claimed : (request : Request) → Response request → Option (String × String)
  finished : (request : Request) → Response request → Option (Finish Result)
  pending_of_held : ∀ {j k c}, held j = some (k, c) → pending j = some k
  pending_of_claimOf : ∀ {j c}, claimOf j = some c → pending j = none
  stored_of_recovers : ∀ {j}, recovers j = true → stored j = none

inductive Effect (W : Worker) where
  | load
  | save (state : W.Journal)
  | clear
  | randomId
  | timestamp
  | now
  | request (request : W.Request)
  | run (claimId : String)
  | collect (claimId : String)
  | createRoot (rootId claimId : String)
  | cleanupContainer (claimId : String)
  | cleanupRoot (privateRoot : NativeHostPrivateRootIdentity) (claimId : String)
  | operation (operation : HostOperation)
  | observe (observation : Observation)
  | output
  | readVars
  | setVars (vars : ExecutorVariables)

/-- What an effect answers. An effect that may throw answers its error. -/
def Effect.Answer {W : Worker} : Effect W → Type
  | .load => Except NativeHostFailure (Option W.Journal)
  | .save _ | .clear | .operation _ => Except NativeHostFailure Unit
  | .randomId | .timestamp => String
  | .now => Int
  | .request q => Except NativeHostFailure (W.Response q)
  | .run _ => Except NativeHostFailure CommandResult
  | .collect _ => Except NativeHostFailure ContainerRun
  | .createRoot _ _ => Except NativeHostFailure (String × String)
  | .cleanupContainer _ | .cleanupRoot _ _ => Except NativeHostFailure Bool
  | .observe _ => Bool
  | .output => NativeBoundedOutput
  | .readVars => ExecutorVariables
  | .setVars _ => Unit

abbrev HostProgram (W : Worker) (α : Type) : Type := Program (Effect W) Effect.Answer NativeHostFailure α

/-! ## The world -/

/-- The journal and the executor's variables, with what happened so far: the random ids drawn, the claims
answered to a request, the containers started, and the ends of claims. -/
structure World (W : Worker) where
  journal : Option W.Journal
  vars : ExecutorVariables
  drawn : List String
  answered : List (String × String)
  starts : List String
  finishes : List (Finish W.Result)

namespace World

variable {W : Worker}

/-- Before the first process; `vars` are set by each executor first. -/
def initial (vars : ExecutorVariables) : World W :=
  { journal := none, vars, drawn := [], answered := [], starts := [], finishes := [] }

def save (w : World W) (journal : Option W.Journal) : World W := { w with journal }

def draw (w : World W) (id : String) : World W := { w with drawn := id :: w.drawn }

def setVars (w : World W) (vars : ExecutorVariables) : World W := { w with vars }

def start (w : World W) (claimId : String) : World W := { w with starts := claimId :: w.starts }

/-- A response that was received. -/
def receive (w : World W) (request : W.Request) (response : W.Response request) : World W :=
  { w with
    answered := (W.claimed request response).toList ++ w.answered
    finishes := (W.finished request response).toList ++ w.finishes }

/-- The request whose claim the journal waits for. -/
def pending (w : World W) : Option String := w.journal.bind W.pending

/-- The responses that may be received in this world. -/
abbrev Service (W : Worker) : Type := World W → (request : W.Request) → W.Response request → Prop

/-- How an effect changes the world. A random id was never drawn before; a failed write of the journal may
have been made, and so may the container of a failed start; a request that fails may have been served. -/
def performs (service : Service W) : (e : Effect W) → World W → e.Answer → World W → Prop
  | .load, w, (answer : Except NativeHostFailure (Option W.Journal)), w' =>
    w' = w ∧ (answer = .ok w.journal ∨ answer = .error .journal)
  | .save state, w, (answer : Except NativeHostFailure Unit), w' =>
    (answer = .ok () ∧ w' = w.save (some state)) ∨ (answer = .error .journal ∧ (w' = w ∨ w' = w.save (some state)))
  | .clear, w, (answer : Except NativeHostFailure Unit), w' =>
    (answer = .ok () ∧ w' = w.save none) ∨ (answer = .error .journal ∧ (w' = w ∨ w' = w.save none))
  | .randomId, w, (id : String), w' => id ∉ w.drawn ∧ w' = w.draw id
  | .request q, w, (answer : Except NativeHostFailure (W.Response q)), w' =>
    (∃ response, answer = .ok response ∧ service w q response ∧ w' = w.receive q response) ∨
      (w' = w ∧ ∃ failure, answer = .error failure)
  | .run claimId, w, (answer : Except NativeHostFailure CommandResult), w' =>
    w' = w.start claimId ∨ (w' = w ∧ ∃ failure, answer = .error failure)
  | .readVars, w, (answer : ExecutorVariables), w' => w' = w ∧ answer = w.vars
  | .setVars vars, w, _, w' => w' = w.setVars vars
  | .timestamp, w, _, w' | .now, w, _, w' | .collect _, w, _, w' | .createRoot _ _, w, _, w'
  | .cleanupContainer _, w, _, w' | .cleanupRoot _ _, w, _, w' | .operation _, w, _, w' | .observe _, w, _, w'
  | .output, w, _, w' => w' = w

end World

/-- An effect whose error is thrown. -/
def orThrow {W : Worker} {α : Type} (p : HostProgram W (Except NativeHostFailure α)) : HostProgram W α :=
  p.bind fun
    | .ok value => .done value
    | .error failure => .fail failure

section
variable {W : Worker}

def load : HostProgram W (Option W.Journal) := orThrow (Program.effect Effect.load)

def save (state : W.Journal) : HostProgram W Unit := orThrow (Program.effect (Effect.save state))

def clear : HostProgram W Unit := orThrow (Program.effect Effect.clear)

def randomId : HostProgram W String := Program.effect Effect.randomId

def timestamp : HostProgram W String := Program.effect Effect.timestamp

def now : HostProgram W Int := Program.effect Effect.now

def request (request : W.Request) : HostProgram W (W.Response request) := orThrow (Program.effect (Effect.request request))

def runContainer (claimId : String) : HostProgram W CommandResult := orThrow (Program.effect (Effect.run claimId))

def collect (claimId : String) : HostProgram W ContainerRun := orThrow (Program.effect (Effect.collect claimId))

def cleanupNativeContainer (claimId : String) : HostProgram W Bool :=
  orThrow (Program.effect (Effect.cleanupContainer claimId))

def createRoot (rootId claimId : String) : HostProgram W (String × String) :=
  orThrow (Program.effect (Effect.createRoot rootId claimId))

def cleanupPrivateRoot (privateRoot : NativeHostPrivateRootIdentity) (claimId : String) : HostProgram W Bool :=
  orThrow (Program.effect (Effect.cleanupRoot privateRoot claimId))

def operation (operation : HostOperation) : HostProgram W Unit := orThrow (Program.effect (Effect.operation operation))

def observe (observation : Observation) : HostProgram W Bool := Program.effect (Effect.observe observation)

/-- What a collector has of a command's output. -/
def readOutput : HostProgram W NativeBoundedOutput := Program.effect Effect.output

def readVars : HostProgram W ExecutorVariables := Program.effect Effect.readVars

def setVars (vars : ExecutorVariables) : HostProgram W Unit := Program.effect (Effect.setVars vars)

/-- `if (condition) throw failure`. -/
def throwIf (condition : Bool) (failure : NativeHostFailure) : HostProgram W Unit :=
  if condition then throw failure else pure ()

end

end Dim.Host
