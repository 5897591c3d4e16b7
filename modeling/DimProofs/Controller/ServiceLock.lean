/-
The lock that one development service is exposed under: `withDevelopmentServiceLock` makes a directory, writes the
process into its `owner.json`, and removes the directory again; others remove it when its owner is dead, or when it
has named nobody for a second. Any number of processes use the lock of one service, their file operations in any
order with any delays between them, and may crash at any point. A recursive removal looks at the directory, removes
the file in it and then the directory itself.
-/
import DimProofs.Lib.Calls
import DimProofs.Lib.Concurrent
import DimProofs.Lib.LockPath

namespace Dim.Controller.ServiceLock

open Effectful Relation

structure ProcessIdentity where
  pid : Nat
  startTime : String
deriving DecidableEq

/-- What a path that does not exist belongs to. -/
inductive Missing where
  | directory | owner | process
deriving DecidableEq

/-- The errors that are told apart; a text that is no JSON fails like one that is no identity. -/
inductive Failure where
  | eexist
  | enoent (path : Missing)
  | enotempty
  | lockError
  | timedOut
  | operation
  | other
  | unfinished
deriving DecidableEq

def Failure.isEnoent : Failure → Bool
  | .enoent _ => true
  | _ => false

/-- Another process has released the lock or cleaned it up: it was not there, or had been made again. -/
def Failure.isCleaned : Failure → Bool
  | .enoent .directory | .enoent .owner | .enotempty => true
  | _ => false

def lockWaitMilliseconds : Nat := 20000

def incompleteLockGraceMilliseconds : Nat := 1000

/-- The nanoseconds of a millisecond: the times of files are finer than `Date.now()`. -/
def nanoseconds : Nat := 1000000

/-! ## The world -/

/-- The `owner.json`: the call that created it, and the identity its text is. -/
structure OwnerFile where
  writer : Option Nat
  regular : Bool
  identity : Option ProcessIdentity

/-- What is at the path of the lock; only a real directory is no danger. -/
structure LockDirectory where
  directory : Bool
  mtimeNs : Nat
  owner : Option OwnerFile

structure Process where
  startTime : String
  zombie : Bool

/-- `began` are the processes of the calls, in the order these began in; the clock is in nanoseconds. -/
structure World where
  path : LockPath LockDirectory
  processes : Nat → Option Process
  began : List ProcessIdentity
  clock : Nat

structure Metadata where
  directory : Bool
  mtimeNs : Nat

/-- What a call asks of the system. The removals say whether what they remove is that of another, gone process. -/
inductive Request where
  | now
  | readProcess (pid : Nat)
  | mkdir
  | createOwner
  | writeOwner (identity : ProcessIdentity)
  | close
  | lstat
  | lstatOwner
  | readOwner
  | removeOwner (stale : Bool)
  | removeDirectory (stale : Bool)
  | sleep (milliseconds : Nat)
  | operation

@[reducible] def Value : Request → Type
  | .now => Nat
  | .readProcess _ => String
  | .lstat => Metadata
  | .lstatOwner => Bool
  | .readOwner => Option ProcessIdentity
  | _ => Unit

abbrev Answer (request : Request) : Type := Except Failure (Value request)

abbrev Action := Program Request Answer Failure

def ask (request : Request) : Action (Value request) := call request

/-! ## The code -/

def linuxProcessStartTime (pid : Nat) : Action String := ask (.readProcess pid)

def currentIdentity (pid : Nat) : Action ProcessIdentity := do
  let startTime ← linuxProcessStartTime pid
  pure ⟨pid, startTime⟩

def processMatches (identity : ProcessIdentity) : Action Bool :=
  tryCatch (do
    let startTime ← linuxProcessStartTime identity.pid
    pure (decide (startTime = identity.startTime)))
    fun failure => if failure.isEnoent then pure false else throw failure

def readLockIdentity : Action ProcessIdentity := do
  let regular ← ask .lstatOwner
  if regular then do
    match ← ask .readOwner with
    | some identity => pure identity
    | none => throw .lockError
  else throw .lockError

/-- `rm(lockDirectory, { recursive: true })`. -/
def removeLock (stale : Bool) : Action Unit := do
  let _ ← ask .lstat
  ask (.removeOwner stale)
  ask (.removeDirectory stale)

/-- Where the owner cannot be read the directory counts as active while it is young. -/
def youngLock (metadata : Metadata) (failure : Failure) : Action Bool :=
  if failure.isEnoent ∨ failure = .lockError then do
    let now : Nat ← ask .now
    pure (decide (now * nanoseconds - metadata.mtimeNs < incompleteLockGraceMilliseconds * nanoseconds))
  else throw failure

def lockOwnerIsActive : Action Bool := do
  let metadata : Metadata ← ask .lstat
  if metadata.directory then
    tryCatch (do
      let identity ← readLockIdentity
      processMatches identity)
      (youngLock metadata)
  else throw .lockError

/-- `writeFile` with the flag `wx`. -/
def writeOwnerFile (identity : ProcessIdentity) : Action Unit := do
  ask .createOwner
  Program.tryFinally (ask (.writeOwner identity)) (ask .close)

/-- Whether the directory and its owner could be created. -/
def createLock (identity : ProcessIdentity) : Action Bool :=
  tryCatch (do
    ask .mkdir
    writeOwnerFile identity
    pure true)
    fun failure => if failure = .eexist then pure false else throw failure

def cleanUp : Action Unit := do
  let active ← lockOwnerIsActive
  if active then pure () else removeLock true

def tryAcquire (identity : ProcessIdentity) : Action Bool := do
  let created ← createLock identity
  if created then pure true
  else do
    cleanUp
    pure false

def releaseOwnedLock (expected : ProcessIdentity) : Action Unit :=
  tryCatch (do
    let current ← readLockIdentity
    if current = expected then removeLock false else pure ())
    fun failure => if failure.isEnoent then pure () else throw failure

/-- The loop, for so many rounds: nothing but the time bounds their number. -/
def attempts (identity : ProcessIdentity) (deadline : Nat) : Nat → Action Unit
  | 0 => throw .unfinished
  | rounds + 1 => do
    let acquired ← tryAcquire identity
    if acquired then pure ()
    else do
      let now : Nat ← ask .now
      if deadline ≤ now then throw .timedOut
      else do
        ask (.sleep 50)
        attempts identity deadline rounds

def withDevelopmentServiceLock (pid rounds : Nat) : Action Unit := do
  let identity ← currentIdentity pid
  let now : Nat ← ask .now
  attempts identity (now + lockWaitMilliseconds) rounds
  Program.tryFinally (ask .operation) (releaseOwnedLock identity)

/-! ## What the system does -/

/-- The environment: the time that has passed, whether the call fails, whether a dead process has been reaped. -/
structure Choice where
  elapsed : Nat
  (fails reaped : Bool)

def Request.failure : Request → Option Failure
  | .now | .sleep _ => none
  | .operation => some .operation
  | _ => some .other

def World.later (elapsed : Nat) (w : World) : World := { w with clock := elapsed + w.clock }

/-- The `owner.json` at the path. -/
def World.owner (w : World) : Option OwnerFile := w.path.entry.bind (·.content.owner)

def World.onPath (f : LockPath LockDirectory → LockPath LockDirectory) (w : World) : World := { w with path := f w.path }

/-- A failed request leaves the lock as it is; where one of those fails that make or remove it, the call does not go on
with it. A directory whose owner is written is its own until its process ends. -/
def World.failed (i : Nat) (request : Request) (w : World) : World :=
  match request with
  | .operation => w.onPath (.use i)
  | .createOwner | .writeOwner _ | .removeOwner false | .removeDirectory false => w.onPath (.leave i)
  | _ => w

/-- A text that is written to the handle of call `i`, whose file may have been removed. -/
def written (i : Nat) (identity : ProcessIdentity) (file : OwnerFile) : OwnerFile :=
  if file.writer = some i then { file with identity := some identity } else file

def removed (stale : Bool) (i : Nat) (p : LockPath LockDirectory) : LockPath LockDirectory :=
  if stale then p.remove else p.remove.leave i

/-- What a request does that the system lets through. -/
def answer (i : Nat) (reaped : Bool) (request : Request) (w : World) : Answer request × World :=
  match request with
  | .now => (.ok (w.clock / nanoseconds), w)
  | .readProcess pid =>
    match w.processes pid with
    | none => (.error (.enoent .process), w)
    | some process => if process.zombie ∧ reaped then (.error (.enoent .process), w) else (.ok process.startTime, w)
  | .mkdir =>
    match w.path.entry with
    | some _ => (.error .eexist, w)
    | none => (.ok (), w.onPath (.create i ⟨true, w.clock, none⟩))
  | .createOwner =>
    match w.path.entry with
    | none => (.error (.enoent .directory), w.onPath (.leave i))
    | some e =>
      match e.content.owner with
      | some _ => (.error .eexist, w.onPath (.leave i))
      | none =>
        (.ok (), w.onPath (.rewrite fun d => { d with mtimeNs := w.clock, owner := some ⟨some i, true, none⟩ }))
  | .writeOwner identity => (.ok (), w.onPath (.rewrite fun d => { d with owner := d.owner.map (written i identity) }))
  | .close => (.ok (), w)
  | .lstat =>
    match w.path.entry with
    | none => (.error (.enoent .directory), w)
    | some e => (.ok ⟨e.content.directory, e.content.mtimeNs⟩, w)
  | .lstatOwner =>
    match w.owner with
    | none => (.error (.enoent .owner), w)
    | some file => (.ok file.regular, w)
  | .readOwner =>
    match w.owner with
    | none => (.error (.enoent .owner), w)
    | some file => (.ok file.identity, w)
  | .removeOwner _ =>
    (.ok (), w.onPath (.rewrite fun d =>
      { d with mtimeNs := if d.owner.isSome then w.clock else d.mtimeNs, owner := none }))
  | .removeDirectory stale =>
    match w.owner with
    | none => (.ok (), w.onPath (removed stale i))
    | some _ => (.error .enotempty, w.failed i request)
  | .sleep milliseconds => (.ok (), w.later (milliseconds * nanoseconds))
  | .operation => (.ok (), w.onPath (.use i))

def perform (choice : Choice) (i : Nat) (request : Request) (w : World) : Answer request × World :=
  let w := w.later choice.elapsed
  match if choice.fails then request.failure else none with
  | some failure => (.error failure, w.failed i request)
  | none => answer i choice.reaped request w

def Performs (i : Nat) (request : Request) (w : World) (answer : Answer request) (w' : World) : Prop :=
  ∃ choice, perform choice i request w = (answer, w')

/-- A process that exposes the service, or another, which may be given the PID of a dead one. -/
inductive Operation where
  | expose (identity : ProcessIdentity) (rounds : Nat)
  | other (identity : ProcessIdentity)

def Operation.identity : Operation → ProcessIdentity
  | .expose identity _ => identity
  | .other identity => identity

def Operation.run : Operation → Action Unit
  | .expose identity rounds => withDevelopmentServiceLock identity.pid rounds
  | .other _ => pure ()

def begins (op : Operation) (w : World) : World :=
  { w with
    processes := fun pid => if pid = op.identity.pid then some ⟨op.identity.startTime, false⟩ else w.processes pid
    began := w.began ++ [op.identity] }

/-- The process is dead, and the call with it. -/
def crashes (i : Nat) (w : World) : World :=
  { w with
    processes := fun pid =>
      if (w.began[i]?).any (·.pid = pid) then (w.processes pid).map fun process => { process with zombie := true }
      else w.processes pid
    path := w.path.leave i }

def system : Concurrent World Request Answer Failure Operation Unit := ⟨Operation.run, begins, Performs, crashes⟩

abbrev State := Concurrent.State World Request Answer Failure Operation Unit

/-- No call has begun; there may be a lock from before. -/
structure Initial (s : State) : Prop where
  calls : s.calls = []
  began : s.world.began = []
  users : s.world.path.users = []
  trespassed : s.world.path.trespassed = false
  before : ∀ e, s.world.path.entry = some e → e.creator = none

/-- The call runs the locked operation. -/
def operates : Action Unit → Bool
  | .perform .operation _ => true
  | _ => false

/-- The call has failed, and only because the lock was not there any more. -/
def failsCleaned : Action Unit → Bool
  | .fail failure => failure.isCleaned
  | _ => false

/-- The process of call `i` lives, and this is said of what is left of the call. -/
def At (said : Action Unit → Bool) (s : State) (i : Nat) : Prop := ∃ op p, s.calls[i]? = some ⟨op, some p⟩ ∧ said p = true

def Runs (s : State) (i : Nat) : Prop := At operates s i

def Cleaned (s : State) (i : Nat) : Prop := At failsCleaned s i

end Dim.Controller.ServiceLock
