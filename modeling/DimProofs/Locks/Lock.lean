/-
Lifecycle locks: the requests that `LifecycleState` makes, the `locks` directory with the kernel guards on its files,
and the programs that acquire and release a lock. Any file operation may fail; the guard's child process stands as the
lock on its file, and the wait between two attempts as their number. The JSON text of an owner record, and its fields
`version` and `acquiredAt`, are left out.
-/
import DimProofs.Lib.Directory
import DimProofs.Lifecycle.State

namespace Dim.Locks

open Effectful

/-! ## Requests -/

/-- The `acquire…Lock` methods of `LifecycleState`, with their arguments. -/
inductive Request where
  | host
  | registryCache
  | qemuProjectHookPublication (projectId : String)
  | workspace (name : String)
  | workspaceSetup (name : String)
  | workspaceAuthority (name : String)
  | project (name : String)
deriving DecidableEq

/-- `^[A-Za-z0-9-]+$`. -/
def validProjectId (projectId : String) : Bool :=
  0 < projectId.toList.length && projectId.toList.all fun c => Pattern.alphanumeric c || c = '-'

namespace Request

/-- The requests that are not refused before a lock is tried. -/
def admitted : Request → Bool
  | .host => true
  | .registryCache => true
  | .qemuProjectHookPublication projectId => validProjectId projectId
  | .workspace name => Lifecycle.validLifecycleName name
  | .workspaceSetup name => Lifecycle.validLifecycleName name
  | .workspaceAuthority name => Lifecycle.validLifecycleName name
  | .project name => Lifecycle.validLifecycleName name

/-- `request.name`. -/
def name : Request → List Char
  | .host => "host-lifecycle".toList
  | .registryCache => "registry-cache".toList
  | .qemuProjectHookPublication projectId => "qemu-project-hook-".toList ++ projectId.toList
  | .workspace name => "workspace-".toList ++ name.toList
  | .workspaceSetup name => "workspace-".toList ++ name.toList ++ "-setup".toList
  | .workspaceAuthority name => "workspace-".toList ++ name.toList ++ "-authority".toList
  | .project name => "project-".toList ++ name.toList

/-- `request.description`. -/
def description : Request → String
  | .host => "host lifecycle reconciliation"
  | .registryCache => "registry cache reconciliation"
  | .qemuProjectHookPublication projectId => "QEMU Project hook '" ++ projectId ++ "' publication"
  | .workspace name => "workspace '" ++ name ++ "' reconciliation"
  | .workspaceSetup name => "workspace '" ++ name ++ "' setup"
  | .workspaceAuthority name => "workspace '" ++ name ++ "' authority"
  | .project name => "project '" ++ name ++ "' reconciliation"

end Request

/-! ## Files -/

abbrev FileName := List Char

abbrev Nonce := List Char

/-- `^[A-Za-z0-9_-]{43}$`. -/
def validNonce (nonce : Nonce) : Bool := nonce.length = 43 && nonce.all Lifecycle.idChar

def ownerFile (name : List Char) : FileName := name ++ ".lock".toList

def guardFile (name : List Char) : FileName := name ++ ".guard".toList

/-- What the names of the staging files of a lock begin with. -/
def stagingStem (name : List Char) : FileName := ownerFile name ++ ".tmp-".toList

theorem stagingStem_length (name : List Char) : (stagingStem name).length = name.length + 10 := by
  rw [stagingStem, ownerFile, List.length_append, List.length_append]
  rfl

def stagingFile (name : List Char) (nonce : Nonce) : FileName := stagingStem name ++ nonce

/-- A call of `acquireLifecycleLock`, by its process and its nonce. -/
structure Call where
  pid : Nat
  nonce : Nonce
deriving DecidableEq

/-- `LifecycleLockOwner`. -/
structure Owner where
  call : Call
  (bootId processStartTicks : String)
deriving DecidableEq

/-- The text of a file: an owner record that `parseOwner` accepts, other JSON, or anything else. -/
inductive Content where
  | owner (owner : Owner)
  | json
  | text
deriving DecidableEq

/-- The `locks` directory, the files that a guard has locked, the calls whose `release` is still `active`, and the
processes with their start ticks. -/
structure World where
  files : List (FileName × Content)
  guards : List (FileName × Call)
  active : List Call
  bootId : String
  processes : List (Nat × String)
deriving DecidableEq

/-! ## Effects -/

inductive Errno where
  | noEntry
  | access
  | notPermitted
  | other (code : String)
deriving DecidableEq

/-- The file operations that answer nothing. -/
inductive Operation where
  | mkdir
  | openGuard (file : FileName)
  | closeGuard (file : FileName)
  | remove (file : FileName)
  | create (file : FileName)
  | writeFile (file : FileName) (owner : Owner)
  | sync (file : FileName)
  | close (file : FileName)
  | rename (source target : FileName)
  | openDirectory
  | syncDirectory
  | closeDirectory
  | removeOwner (file : FileName)
deriving DecidableEq

/-- The end of a `flock` process: it has the lock, another has it (exit code 1), or it failed. -/
inductive Flock where
  | locked
  | busy
  | failed

inductive Effect where
  | operate (operation : Operation)
  | readBootId
  | readStat (pid : Nat)
  | flock (file : FileName) (call : Call)
  | releaseGuard (call : Call)
  | readFile (file : FileName)
  | readdir
  | sleep
  | activate (call : Call)
  | isActive (call : Call)
  | deactivate (call : Call)

@[reducible] def Answer : Effect → Type
  | .operate _ => Except Errno Unit
  | .readBootId => Except Errno String
  | .readStat _ => Except Errno (Option String)
  | .flock _ _ => Flock
  | .releaseGuard _ => Bool
  | .readFile _ => Except Errno Content
  | .readdir => Except Errno (List FileName)
  | .sleep => Unit
  | .activate _ => Unit
  | .isActive _ => Bool
  | .deactivate _ => Unit

namespace World

def lookup (w : World) (file : FileName) : Option Content := w.files.lookup file

/-- The call whose guard holds a file. -/
def guard (w : World) (file : FileName) : Option Call := w.guards.lookup file

def put (w : World) (file : FileName) (content : Content) : World :=
  { w with files := Directory.put file content w.files }

/-- A guard on a removed file excludes nobody any more. -/
def remove (w : World) (file : FileName) : World :=
  { w with files := Directory.remove file w.files, guards := Directory.remove file w.guards }

/-- The error of an operation that cannot be done. -/
def refusal (w : World) : Operation → Option Errno
  | .create file => if (w.lookup file).isSome then some (.other "EEXIST") else none
  | .rename source _ => if (w.lookup source).isSome then none else some .noEntry
  | .removeOwner file => if (w.lookup file).isSome then none else some .noEntry
  | _ => none

/-- A file that was removed while it was open takes the text with it. -/
def write (w : World) (file : FileName) (content : Content) : World :=
  if (w.lookup file).isSome then w.put file content else w

/-- A file that is opened with `a` is created where it is missing. -/
def touch (w : World) (file : FileName) : World := if (w.lookup file).isSome then w else w.put file .text

def rename (w : World) (source target : FileName) : World :=
  match w.lookup source with
  | some content => (w.remove source).put target content
  | none => w

def operated (w : World) : Operation → World
  | .openGuard file => w.touch file
  | .remove file => w.remove file
  | .create file => w.put file .text
  | .writeFile file owner => w.write file (.owner owner)
  | .rename source target => w.rename source target
  | .removeOwner file => w.remove file
  | _ => w

/-- What an operation leaves where it fails: a file may have been written in part. -/
def failed (w : World) : Operation → World
  | .writeFile file _ => w.write file .text
  | _ => w

def locked (w : World) (file : FileName) (call : Call) : World :=
  { w.touch file with guards := (file, call) :: w.guards }

def unlocked (w : World) (call : Call) : World := { w with guards := w.guards.filter (·.2 ≠ call) }

section

variable {w : World} {file other : FileName} {content : Content} {c : Call}

theorem lookup_put : (w.put file content).lookup other = if other = file then some content else w.lookup other :=
  Directory.lookup_put

theorem lookup_remove : (w.remove file).lookup other = if other = file then none else w.lookup other :=
  Directory.lookup_remove

theorem guard_remove : (w.remove file).guard other = if other = file then none else w.guard other :=
  Directory.lookup_remove

@[simp] theorem guards_touch : (w.touch file).guards = w.guards := by
  rw [touch]
  split <;> rfl

@[simp] theorem guards_write : (w.write file content).guards = w.guards := by
  rw [write]
  split <;> rfl

end

end World

/-- What an effect does where no operation fails but one that cannot be done. -/
def step : (e : Effect) → World → Answer e × World
  | .operate operation, w =>
    match w.refusal operation with
    | some code => (.error code, w.failed operation)
    | none => (.ok (), w.operated operation)
  | .readBootId, w => (.ok w.bootId, w)
  | .readStat pid, w =>
    match w.processes.lookup pid with
    | some startTicks => (.ok (some startTicks), w)
    | none => (.error .noEntry, w)
  | .flock file call, w =>
    match w.guard file with
    | some _ => (.busy, w)
    | none => (.locked, w.locked file call)
  | .releaseGuard call, w => (true, w.unlocked call)
  | .readFile file, w =>
    match w.lookup file with
    | some content => (.ok content, w)
    | none => (.error .noEntry, w)
  | .readdir, w => (.ok (w.files.map (·.1)), w)
  | .sleep, w => ((), w)
  | .activate call, w => ((), { w with active := call :: w.active })
  | .isActive call, w => (decide (call ∈ w.active), w)
  | .deactivate call, w => ((), { w with active := w.active.filter (· ≠ call) })

/-- The answer of an operation that fails. -/
inductive Fails : (e : Effect) → World → Answer e → World → Prop
  | operation {w : World} (operation : Operation) (code : Errno) :
      Fails (.operate operation) w (.error code) (w.failed operation)
  | bootId {w : World} (code : Errno) : Fails .readBootId w (.error code) w
  | stat {w : World} (pid : Nat) (code : Errno) (h : code ≠ .noEntry) : Fails (.readStat pid) w (.error code) w
  | flock {w : World} (file : FileName) (call : Call) : Fails (.flock file call) w .failed w
  | guard {w : World} (call : Call) : Fails (.releaseGuard call) w false (w.unlocked call)
  | read {w : World} (file : FileName) (code : Errno) (h : code ≠ .noEntry) : Fails (.readFile file) w (.error code) w
  | readdir {w : World} (code : Errno) : Fails .readdir w (.error code) w

/-- Any effect may go well, and any file operation may fail. -/
def performs (e : Effect) (w : World) (a : Answer e) (w' : World) : Prop := (a, w') = step e w ∨ Fails e w a w'

/-! ## The programs -/

/-- What is thrown: an error of the file system, or a `UserError` with its message. -/
inductive Failure where
  | io (code : Errno)
  | user (message : String)
deriving DecidableEq

abbrev Lock (α : Type) : Type := Program Effect Answer Failure α

def call (e : Effect) : Lock (Answer e) := Program.effect e

/-- The answer of a file operation, whose error is thrown. -/
def answered {α : Type} : Except Errno α → Lock α
  | .ok value => pure value
  | .error code => throw (.io code)

def operate (operation : Operation) : Lock Unit := call (.operate operation) >>= answered

/-- `ProcessStat`. -/
inductive ProcessStat where
  | found (startTicks : String)
  | missing
  | unknown

def readProcessStat (pid : Nat) : Lock ProcessStat := do
  match ← call (.readStat pid) with
  | .ok (some startTicks) => pure (.found startTicks)
  | .ok none => pure .unknown
  | .error .noEntry => pure .missing
  | .error .access => pure .unknown
  | .error .notPermitted => pure .unknown
  | .error code => throw (.io code)

/-- `CANONICAL_LOWERCASE_UUID_PATTERN`. -/
def canonicalUuid (bootId : String) : Bool :=
  let hex := fun n => List.replicate n Pattern.hex
  Pattern.sequence (hex 8 ++ [Pattern.only '-'] ++ hex 4 ++ [Pattern.only '-'] ++ hex 4 ++ [Pattern.only '-'] ++ hex 4 ++
    [Pattern.only '-'] ++ hex 12) bootId.toList

def currentProcessIdentity (pid : Nat) : Lock (String × String) := do
  let bootId ← call .readBootId >>= answered
  let stat ← readProcessStat pid
  match stat with
  | .found startTicks =>
    if canonicalUuid bootId then pure (bootId, startTicks)
    else throw (.user "cannot identify the current Linux process instance for lifecycle locking")
  | _ => throw (.user "cannot identify the current Linux process instance for lifecycle locking")

/-- `ProcessProbeResult`. -/
inductive Probe where
  | live
  | dead
  | reused
  | unknown

def probeStat (owner : Owner) : Lock Probe :=
  tryCatch
    (do
      match ← readProcessStat owner.call.pid with
      | .found startTicks => pure (if startTicks = owner.processStartTicks then .live else .reused)
      | .missing => pure .dead
      | .unknown => pure .unknown)
    fun _ => pure .unknown

def probeProcess (owner : Owner) : Lock Probe := do
  match ← call .readBootId with
  | .error _ => pure .unknown
  | .ok bootId => if bootId ≠ owner.bootId then pure .reused else probeStat owner

/-- `OwnerRead`. -/
inductive OwnerRead where
  | missing
  | malformed (detail : String)
  | unreadable (detail : String)
  | valid (owner : Owner)

def readOwner (file : FileName) : Lock OwnerRead := do
  match ← call (.readFile file) with
  | .ok (.owner owner) => pure (.valid owner)
  | .ok .json => pure (.malformed "record fields are invalid")
  | .ok .text => pure (.malformed "record is not valid JSON")
  | .error .noEntry => pure .missing
  | .error .access => pure (.unreadable "EACCES")
  | .error .notPermitted => pure (.unreadable "EPERM")
  | .error code => throw (.io code)

def syncDirectory : Lock Unit := do
  operate .openDirectory
  Program.tryFinally (operate .syncDirectory) (operate .closeDirectory)

/-- The staging files that the calls before have left. -/
def removeEntries (stem : FileName) : List FileName → Lock Unit
  | [] => pure ()
  | entry :: rest =>
    if stem.isPrefixOf entry then do
      operate (.remove entry)
      removeEntries stem rest
    else removeEntries stem rest

def publishOwner (name : List Char) (owner : Owner) : Lock Unit := do
  let entries ← call .readdir >>= answered
  removeEntries (stagingStem name) entries
  let temporary := stagingFile name owner.call.nonce
  operate (.create temporary)
  Program.tryFinally
    (do
      operate (.writeFile temporary owner)
      operate (.sync temporary))
    (operate (.close temporary))
  Program.tryFinally
    (do
      operate (.rename temporary (ownerFile name))
      syncDirectory)
    (operate (.remove temporary))

/-- `tryAcquireKernelGuard`. -/
def tryAcquireKernelGuard (name : List Char) (c : Call) : Lock Bool := do
  operate (.openGuard (guardFile name))
  operate (.closeGuard (guardFile name))
  match ← call (.flock (guardFile name) c) with
  | .locked => pure true
  | .busy => pure false
  | .failed => throw (.user "Linux flock lifecycle guard failed")

/-- `guard.release`. -/
def releaseGuard (c : Call) : Lock Unit := do
  match ← call (.releaseGuard c) with
  | true => pure ()
  | false => throw (.user "Linux flock lifecycle guard exited with an error")

/-- A `finally` block that runs unless the ownership was transferred. -/
def unlessTransferred (c : Call) (body : Lock (Option String)) : Lock (Option String) := do
  let waiting ← tryCatch body fun failure => do
    releaseGuard c
    throw failure
  match waiting with
  | none => pure none
  | some diagnostic => do
    releaseGuard c
    pure (some diagnostic)

/-- What an attempt that has the guard does: it publishes its owner, or says why it waits. -/
def attemptOwner (request : Request) (owner : Owner) : Lock (Option String) := do
  match ← readOwner (ownerFile request.name) with
  | .missing => do
    publishOwner request.name owner
    pure none
  | .malformed detail => pure (some ("malformed owner record for " ++ request.description ++ ": " ++ detail))
  | .unreadable detail => pure (some ("unreadable owner record for " ++ request.description ++ ": " ++ detail))
  | .valid existing =>
    match ← probeProcess existing with
    | .dead => do
      publishOwner request.name owner
      pure none
    | .reused => do
      publishOwner request.name owner
      pure none
    | .live => pure (some (request.description ++ " lock is owned by live process instance " ++ toString existing.call.pid))
    | .unknown => pure (some (request.description ++ " owner process instance cannot be verified"))

/-- One round of the loop. -/
def attempt (request : Request) (owner : Owner) (diagnostic : String) : Lock (Option String) := do
  if ← tryAcquireKernelGuard request.name owner.call then
    unlessTransferred owner.call (attemptOwner request owner)
  else pure (some diagnostic)

/-- The loop, for as many further rounds as the waiting time admits. -/
def attempts (request : Request) (owner : Owner) : Nat → String → Lock Unit
  | rounds, diagnostic => do
    match ← attempt request owner diagnostic with
    | none => call (.activate owner.call)
    | some diagnostic =>
      match rounds with
      | 0 => throw (.user (diagnostic ++ "; timed out waiting for " ++ request.description ++ " lock"))
      | rounds + 1 => do
        call .sleep
        attempts request owner rounds diagnostic

def acquireLifecycleLock (request : Request) (c : Call) (rounds : Nat) : Lock Unit := do
  let identity ← currentProcessIdentity c.pid
  operate .mkdir
  attempts request ⟨c, identity.1, identity.2⟩ rounds "lock is held by another process"

/-- The function that `releaseOwner` returns. -/
def release (request : Request) (c : Call) : Lock Unit := do
  if ← call (.isActive c) then do
    call (.deactivate c)
    Program.tryFinally
      (do
        match ← readOwner (ownerFile request.name) with
        | .valid owner =>
          if owner.call.nonce = c.nonce then do
            operate (.removeOwner (ownerFile request.name))
            syncDirectory
          else throw (.user ("lifecycle lock ownership changed before nonce " ++ String.ofList c.nonce ++
            " could release it"))
        | _ => throw (.user ("lifecycle lock ownership changed before nonce " ++ String.ofList c.nonce ++
            " could release it")))
      (releaseGuard c)
  else pure ()

end Dim.Locks
