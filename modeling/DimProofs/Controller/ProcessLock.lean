/-
The lock that one managed proxy is started under: `acquireProcessLock` creates a file that names the process, and
others move it aside when that process is dead, or when the file has named nobody for a while. Any number of
processes acquire, use and release the lock of one path, their file operations in any order with any delays between
them; a process may crash at any point and its PID be used again. A call that fails leaves the world as it was.
-/
import DimProofs.Lib.Calls
import DimProofs.Lib.Concurrent
import DimProofs.Lib.LockPath

namespace Dim.Controller.ProcessLock

open Effectful Relation

structure ProcessIdentity where
  pid : Nat
  startTime : String
deriving DecidableEq

inductive ProcessIdentityStatus where
  | dead | matching | mismatched
deriving DecidableEq

/-- The fields of `/proc/<pid>/stat` that are read. -/
structure ProcessSnapshot where
  (state startTime : String)

/-- The errors that are told apart: those with a code, and the `ProcessIdentityError`s. -/
inductive Failure where
  | eexist | enotempty | enoent | esrch | other
  | noCurrentIdentity
  | timedOut
  | unfinished
deriving DecidableEq

def isMissingProcess (failure : Failure) : Bool := failure = .enoent ∨ failure = .esrch

def isLockContended (failure : Failure) : Bool := failure = .eexist ∨ failure = .enotempty

def ownerlessLockGraceMs : Nat := 100

/-- Those of a millisecond. -/
def nanoseconds : Nat := 1000000

/-! ## The world -/

/-- What is at the path of the lock; `owner` is what its text parses as, or that of the `owner.json` in a directory. -/
structure LockFile where
  directory : Bool
  owner : Option ProcessIdentity
  mtimeNs : Nat

/-- `began` are the processes of the calls, in the order these began in; `clock` counts nanoseconds. -/
structure World where
  path : LockPath LockFile
  processes : Nat → Option ProcessSnapshot
  began : List ProcessIdentity
  clock : Nat

structure Stat where
  directory : Bool
  mtimeNs : Nat

/-- What a call asks of the system; `operation` is all that a caller does while it has the lock. -/
inductive Request where
  | now
  | open
  | readProcess (pid : Nat)
  | writeFile (owner : ProcessIdentity)
  | close
  | remove
  | stat
  | readFile (directory : Bool)
  | rename
  | removeStale
  | sleep (milliseconds : Nat)
  | operation
  | release
deriving DecidableEq

@[reducible] def Value : Request → Type
  | .now => Nat
  | .readProcess _ => Option ProcessSnapshot
  | .stat => Stat
  | .readFile _ => Option ProcessIdentity
  | _ => Unit

abbrev Answer (request : Request) : Type := Except Failure (Value request)

abbrev Action := Program Request Answer Failure

def ask (request : Request) : Action (Value request) := call request

/-! ## The code -/

def processSnapshot (pid : Nat) : Action (Option ProcessSnapshot) := ask (.readProcess pid)

def currentProcessIdentity (pid : Nat) : Action ProcessIdentity := do
  match ← processSnapshot pid with
  | some snapshot => pure ⟨pid, snapshot.startTime⟩
  | none => throw .noCurrentIdentity

/-- `processIdentityStatus` without a command marker. -/
def processIdentityStatus (identity : ProcessIdentity) : Action ProcessIdentityStatus := do
  match ← processSnapshot identity.pid with
  | none => pure .dead
  | some snapshot =>
    if snapshot.state = "Z" then pure .dead
    else if snapshot.startTime ≠ identity.startTime then pure .mismatched
    else pure .matching

def readLockOwner : Action (Option ProcessIdentity) :=
  tryCatch (do
    let lockStat : Stat ← ask .stat
    ask (.readFile lockStat.directory))
    fun failure => if isMissingProcess failure then pure none else throw failure

def recoverLock : Action Unit :=
  tryCatch (do
    ask .rename
    ask .removeStale)
    fun failure => if isMissingProcess failure then pure () else throw failure

/-- In nanoseconds: `mtimeMs` has fractions, and `Date.now` has none. A file from after the clock's millisecond is new. -/
def lockAge : Action Nat :=
  tryCatch (do
    let now : Nat ← ask .now
    let lockStat : Stat ← ask .stat
    pure (now * nanoseconds - lockStat.mtimeNs))
    fun failure => if isMissingProcess failure then pure 0 else throw failure

/-- What follows once the file is created: it is removed again where its owner cannot be written. -/
def writeOwner (pid : Nat) : Action Unit :=
  tryCatch
    (Program.tryFinally (do
      let identity ← currentProcessIdentity pid
      ask (.writeFile identity))
      (ask .close))
    fun failure => do
      ask .remove
      throw failure

/-- Whether the file could be created. -/
def openLock : Action Bool :=
  tryCatch (do
    ask .open
    pure true)
    fun failure => if isLockContended failure then pure false else throw failure

def recoverOrWait (pollIntervalMs : Nat) : Action Unit := do
  match ← readLockOwner with
  | some owner => do
    let status ← processIdentityStatus owner
    if status = .dead then recoverLock else ask (.sleep pollIntervalMs)
  | none => do
    let age ← lockAge
    if ownerlessLockGraceMs * nanoseconds ≤ age then recoverLock else ask (.sleep pollIntervalMs)

/-- The loop, for so many rounds: nothing but the time bounds their number. -/
def attempts (pid deadline pollIntervalMs : Nat) : Nat → Action Unit
  | 0 => throw .unfinished
  | rounds + 1 => do
    let now : Nat ← ask .now
    if now < deadline then do
      let acquired ← openLock
      if acquired then writeOwner pid
      else do
        recoverOrWait pollIntervalMs
        attempts pid deadline pollIntervalMs rounds
    else throw .timedOut

def acquireProcessLock (pid timeoutMs pollIntervalMs rounds : Nat) : Action Unit := do
  let now : Nat ← ask .now
  attempts pid (now + timeoutMs) pollIntervalMs rounds

/-- A process that acquires the lock, does its work and releases it. -/
def useLock (pid timeoutMs pollIntervalMs rounds : Nat) : Action Unit := do
  acquireProcessLock pid timeoutMs pollIntervalMs rounds
  ask .operation
  ask .release

/-! ## What the system does -/

/-- The environment: the time that has passed, whether the call fails, whether a dead process has been reaped. -/
structure Choice where
  elapsed : Nat
  (fails reaped : Bool)

def Request.mayFail : Request → Bool
  | .now | .sleep _ | .operation => false
  | _ => true

/-- After these the call has done with its file, even where they fail. -/
def Request.ends : Request → Bool
  | .remove | .release => true
  | _ => false

def World.later (elapsed : Nat) (w : World) : World := { w with clock := w.clock + elapsed }

def World.onPath (f : LockPath LockFile → LockPath LockFile) (w : World) : World := { w with path := f w.path }

/-- `writeFile` on the handle of call `i`: its file may have been moved aside. -/
def written (i : Nat) (owner : ProcessIdentity) (clock : Nat) (p : LockPath LockFile) : LockPath LockFile :=
  if p.createdBy i then p.rewrite fun file => { file with owner := some owner, mtimeNs := clock } else p

def perform (choice : Choice) (i : Nat) (request : Request) (w : World) : Answer request × World :=
  let w := w.later choice.elapsed
  if choice.fails && request.mayFail then (.error .other, if request.ends then w.onPath (.leave i) else w)
  else
    match request with
    | .now => (.ok (w.clock / nanoseconds), w)
    | .open =>
      match w.path.entry with
      | some _ => (.error .eexist, w)
      | none => (.ok (), w.onPath (.create i ⟨false, none, w.clock⟩))
    | .readProcess pid =>
      match w.processes pid with
      | none => (.ok none, w)
      | some snapshot => (.ok (if choice.reaped ∧ snapshot.state = "Z" then none else some snapshot), w)
    | .writeFile owner => (.ok (), w.onPath (written i owner w.clock))
    | .close => (.ok (), w)
    | .remove =>
      match w.path.entry with
      | some e =>
        if e.content.directory then (.error .other, w.onPath (.leave i))
        else (.ok (), w.onPath fun p => p.remove.leave i)
      | none => (.ok (), w.onPath (.leave i))
    | .stat =>
      match w.path.entry with
      | some e => (.ok ⟨e.content.directory, e.content.mtimeNs⟩, w)
      | none => (.error .enoent, w)
    | .readFile directory =>
      match w.path.entry with
      | some e => if e.content.directory = directory then (.ok e.content.owner, w) else (.error .other, w)
      | none => (.error .enoent, w)
    | .rename =>
      match w.path.entry with
      | some _ => (.ok (), w.onPath .remove)
      | none => (.error .enoent, w)
    | .removeStale => (.ok (), w)
    | .sleep milliseconds => (.ok (), w.later (nanoseconds * milliseconds))
    | .operation => (.ok (), w.onPath (.use i))
    | .release => (.ok (), w.onPath fun p => (p.use i).remove.leave i)

def Performs (i : Nat) (request : Request) (w : World) (answer : Answer request) (w' : World) : Prop :=
  ∃ choice, perform choice i request w = (answer, w')

/-- The processes: those that acquire the lock, and others, which may be given the PID of a dead one. -/
inductive Operation where
  | lock (identity : ProcessIdentity) (timeoutMs pollIntervalMs rounds : Nat)
  | other (identity : ProcessIdentity)

def Operation.identity : Operation → ProcessIdentity
  | .lock identity _ _ _ => identity
  | .other identity => identity

def Operation.run : Operation → Action Unit
  | .lock identity timeoutMs pollIntervalMs rounds => useLock identity.pid timeoutMs pollIntervalMs rounds
  | .other _ => pure ()

def begins (op : Operation) (w : World) : World :=
  { w with
    processes := fun pid => if pid = op.identity.pid then some ⟨"S", op.identity.startTime⟩ else w.processes pid
    began := w.began ++ [op.identity] }

/-- The process is gone, and the call with it. -/
def crashes (i : Nat) (w : World) : World :=
  { w with
    processes := fun pid => if (w.began[i]?).any (·.pid = pid) then none else w.processes pid
    path := w.path.leave i }

def system : Concurrent World Request Answer Failure Operation Unit := ⟨Operation.run, begins, Performs, crashes⟩

abbrev State := Concurrent.State World Request Answer Failure Operation Unit

/-- No call has begun; there may be a lock from before. -/
structure Initial (s : State) : Prop where
  calls : s.calls = []
  began : s.world.began = []
  users : s.world.path.users = []
  trespassed : s.world.path.trespassed = false
  dated : ∀ e, s.world.path.entry = some e → e.creator = none ∧ e.content.mtimeNs ≤ s.world.clock

/-- The call has acquired the lock and not released it. -/
def inside : Action Unit → Bool
  | .perform .operation _ | .perform .release _ => true
  | _ => false

/-- Call `i` is a live process between its successful acquire and its release. -/
def Holds (s : State) (i : Nat) : Prop := ∃ op p, s.calls[i]? = some ⟨op, some p⟩ ∧ inside p = true

end Dim.Controller.ProcessLock
