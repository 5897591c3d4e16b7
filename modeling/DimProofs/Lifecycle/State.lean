/-
The state directory: the records of Projects and workspaces and the grants of workspaces, one file each, and the
effects through which the calls of several processes read and change them. A file is written one character at a
time, so that another call may read any part of it, and a crash leaves any part. A directory that was never made
is an empty one. Only creating a name that exists, and opening or renaming one that does not, fails.
-/
import DimProofs.Lib.Base64
import DimProofs.Lib.Concurrent
import DimProofs.Lib.Files
import DimProofs.Lib.Pattern

namespace Dim.Lifecycle

open Effectful Files

inductive Kind where
  | project | workspace
deriving DecidableEq

def Kind.text : Kind → String
  | .project => "project"
  | .workspace => "workspace"

inductive GrantAudience where
  | workspace | agent | nativeGit
deriving DecidableEq

inductive Directory where
  | records (kind : Kind)
  | grants (audience : GrantAudience)
deriving DecidableEq

/-! ## Records -/

/-- `/^[a-z0-9][a-z0-9_.-]{0,47}$/`. -/
def validLifecycleName (value : String) : Bool :=
  Pattern.bounded (fun c => Pattern.lower c || Pattern.digit c) Pattern.identifierRest 47 value.toList

/-- `[A-Za-z0-9_-]`. -/
def idChar : Pattern.CharClass := fun c => Pattern.alphanumeric c || c = '_' || c = '-'

/-- `/^[A-Za-z0-9_-]{43}$/`: 32 bytes in Base64. -/
def validWorkspaceId (value : String) : Bool := Pattern.sequence (List.replicate 43 idChar) value.toList

inductive WorkspacePhase where
  | creating | settingUp | ready | stopped | setupError | error | discarding
deriving DecidableEq

inductive WorkspaceEnvironment where
  | recommended | custom
deriving DecidableEq

structure WorkspaceRecord where
  (name workspaceId : String)
  environment : WorkspaceEnvironment
  phase : WorkspacePhase
  named : validLifecycleName name = true
  identified : validWorkspaceId workspaceId = true

structure ProjectRecord where
  (name readyAt : String)
  named : validLifecycleName name = true

def Record : Kind → Type
  | .project => ProjectRecord
  | .workspace => WorkspaceRecord

def Record.name : {kind : Kind} → Record kind → String
  | .project, record => ProjectRecord.name record
  | .workspace, record => WorkspaceRecord.name record

/-- The text of a record, and what `JSON.parse` and the checks of a record make of a text. -/
class Format where
  stringify : {kind : Kind} → Record kind → String
  parse : (kind : Kind) → String → Option (Record kind)
  parse_stringify : ∀ {kind : Kind} (record : Record kind), parse kind (stringify record ++ "\n") = some record

/-- What is stored for a record. -/
def stored [Format] {kind : Kind} (record : Record kind) : String := Format.stringify record ++ "\n"

@[simp] theorem parse_stored [Format] {kind : Kind} (record : Record kind) :
    Format.parse kind (stored record) = some record :=
  Format.parse_stringify record

/-! ## Names of files -/

def recordFile (name : String) : String := name ++ ".json"

/-- `entry.endsWith(".json")`. -/
def isRecordFile (entry : String) : Bool := ".json".toList.isSuffixOf entry.toList

/-- `${target}.tmp-${process.pid}-${Date.now()}`. -/
def temporaryFile (target : String) (pid now : Nat) : String := target ++ ".tmp-" ++ toString pid ++ "-" ++ toString now

def grantFile (name workspaceId : String) : String := name ++ "." ++ workspaceId

theorem isRecordFile_recordFile (name : String) : isRecordFile (recordFile name) = true := by
  rw [isRecordFile, List.isSuffixOf_iff_suffix, recordFile, String.toList_append]
  exact List.suffix_append _ _

theorem recordFile_injective {name name' : String} (h : recordFile name = recordFile name') : name = name' := by
  have htext := congrArg String.toList h
  rw [recordFile, recordFile, String.toList_append, String.toList_append] at htext
  exact String.toList_inj.mp (List.append_cancel_right htext)

/-- A temporary name ends with a digit. -/
theorem isRecordFile_temporaryFile (target : String) (pid now : Nat) :
    isRecordFile (temporaryFile target pid now) = false := by
  rw [Bool.eq_false_iff]
  intro h
  rw [isRecordFile, List.isSuffixOf_iff_suffix] at h
  obtain ⟨before, hbefore⟩ := h
  have hdigits : (toString now).toList = Nat.toDigits 10 now := by
    rw [Nat.toString_eq_ofList_toDigits, String.toList_ofList]
  have hlast : Nat.toDigits 10 now ≠ [] := Nat.toDigits_ne_nil
  have hend := congrArg List.getLast? hbefore
  rw [temporaryFile, String.toList_append, hdigits, List.getLast?_append_of_ne_nil _ hlast,
    List.getLast?_append_of_ne_nil _ (by decide), List.getLast?_eq_some_getLast hlast] at hend
  have hdigit := Nat.isDigit_of_mem_toDigits (by decide) (by decide) (List.getLast_mem hlast)
  rw [← Option.some.inj hend] at hdigit
  exact absurd hdigit (by decide)

/-! ## Calls -/

inductive Operation where
  | claim {kind : Kind} (record : Record kind)
  | write {kind : Kind} (record : Record kind)
  | remove (kind : Kind) (name : String)
  | list (kind : Kind)
  | readWorkspace (name : String)
  | ensureGrant (audience : GrantAudience) (name : String)
  | authenticate (audience : GrantAudience) (token : String)
  | removeGrant (audience : GrantAudience) (name workspaceId : String)
  | discard (name : String) (keepVolume : Bool)

inductive Outcome where
  | done
  | records {kind : Kind} (records : List (Record kind))
  | workspace (record : WorkspaceRecord)
  | granted (record : WorkspaceRecord) (token : String)
  | authenticated (record : Option WorkspaceRecord)

inductive Failure where
  | user (message : String)
  | missing (message : String)
  | syntaxError
  | noEntry

/-! ## The world -/

structure World where
  files : FileSystem Directory
  /-- The files that a call has open for writing. -/
  handles : List (Nat × Nat)
  /-- The temporary names that a call has made up. -/
  temporaries : List (Nat × Directory × String)
  /-- The random texts that were drawn, and the grants they were drawn for. -/
  drawn : List (String × GrantAudience × String × String)
  locks : List (String × Nat)
  /-- The calls that have begun. -/
  begun : List Operation

namespace World

def empty : World := ⟨⟨[], fun _ => []⟩, [], [], [], [], []⟩

/-- `open` with the flag `wx`. -/
def create (w : World) (call : Nat) (directory : Directory) (name : String) : Option Nat × World :=
  match w.files.create directory name 0 0o600 with
  | .ok (ino, files) => (some ino, { w with files, handles := (call, ino) :: w.handles })
  | .error _ => (none, w)

/-- `open` with the flag `w`, which empties a file that exists. -/
def truncate (w : World) (call : Nat) (directory : Directory) (name : String) : Option Nat × World :=
  match w.files.lookup directory name with
  | none => w.create call directory name
  | some ino =>
    (some ino, { w with
      files := w.files.modify ino fun i => { i with text := "" }
      handles := (call, ino) :: w.handles })

def append (w : World) (ino : Nat) (c : Char) : World :=
  { w with files := w.files.modify ino fun i => { i with text := i.text.push c } }

def close (w : World) (call ino : Nat) : World :=
  { w with handles := w.handles.filter (· ≠ (call, ino)) }

def rename (w : World) (directory : Directory) (name name' : String) : Bool × World :=
  match w.files.rename directory name directory name' with
  | .ok files => (true, { w with files })
  | .error _ => (false, w)

/-- `rm` with `force`. -/
def remove (w : World) (directory : Directory) (name : String) : World :=
  match w.files.unlink directory name with
  | .ok files => { w with files }
  | .error _ => w

def read (w : World) (ino : Nat) : String := (w.files.inodes[ino]?.map (·.text)).getD ""

/-- A crash closes the files of a call and gives its locks back. -/
def crash (w : World) (call : Nat) : World :=
  { w with
    handles := w.handles.filter (·.1 ≠ call)
    locks := w.locks.filter (·.2 ≠ call) }

end World

/-! ## Effects -/

/-- What an inspection tells of a workspace's container. -/
structure Container where
  (running sameRoot : Bool)

inductive Effect where
  | create (directory : Directory) (name : String)
  | truncate (directory : Directory) (name : String)
  | append (ino : Nat) (c : Char)
  | close (ino : Nat)
  | rename (directory : Directory) (name name' : String)
  | remove (directory : Directory) (name : String)
  | readdir (directory : Directory)
  | openFile (directory : Directory) (name : String)
  | readFile (ino : Nat)
  | temporary (directory : Directory) (target : String)
  | randomBytes (audience : GrantAudience) (name workspaceId : String)
  | schedule (waiting : List Nat)
  | acquire (lock : String)
  | release (lock : String)
  | inspectContainer
  | command

@[reducible] def Answer : Effect → Type
  | .create _ _ => Option Nat
  | .truncate _ _ => Option Nat
  | .append _ _ => Unit
  | .close _ => Unit
  | .rename _ _ _ => Bool
  | .remove _ _ => Unit
  | .readdir _ => List String
  | .openFile _ _ => Option Nat
  | .readFile _ => String
  | .temporary _ _ => String
  | .randomBytes _ _ _ => String
  | .schedule _ => Nat
  | .acquire _ => Bool
  | .release _ => Unit
  | .inspectContainer => Option (Option Container)
  | .command => Bool

/-- What is not determined by the world: the process and its clock, random bytes, which of several reads goes on,
whether a lock is waited for in vain, and how commands and hooks end. -/
structure Choice where
  pid : Nat := 0
  now : Nat := 0
  random : String := ""
  index : Nat := 0
  success : Bool := true
  container : Option (Option Container) := some none

/-- An answer and the world after it, unless the effect cannot happen so. -/
def perform (choice : Choice) (call : Nat) : (e : Effect) → World → Option (Answer e × World)
  | .create directory name, w => some (w.create call directory name)
  | .truncate directory name, w => some (w.truncate call directory name)
  | .append ino c, w => some ((), w.append ino c)
  | .close ino, w => some ((), w.close call ino)
  | .rename directory name name', w => some (w.rename directory name name')
  | .remove directory name, w => some ((), w.remove directory name)
  | .readdir directory, w => some ((w.files.entries directory).map (·.1), w)
  | .openFile directory name, w => some (w.files.lookup directory name, w)
  | .readFile ino, w => some (w.read ino, w)
  | .temporary directory target, w =>
    let name := temporaryFile target choice.pid choice.now
    some (name, { w with temporaries := (call, directory, name) :: w.temporaries })
  | .randomBytes audience name workspaceId, w =>
    if validWorkspaceId choice.random ∧ ∀ draw ∈ w.drawn, draw.1 ≠ choice.random then
      some (choice.random, { w with drawn := (choice.random, audience, name, workspaceId) :: w.drawn })
    else none
  | .schedule waiting, w => if choice.index ∈ waiting then some (choice.index, w) else none
  | .acquire lock, w =>
    if choice.success then
      if (w.locks.lookup lock).isSome then none else some (true, { w with locks := (lock, call) :: w.locks })
    else some (false, w)
  | .release lock, w => some ((), { w with locks := w.locks.filter (· ≠ (lock, call)) })
  | .inspectContainer, w => some (choice.container, w)
  | .command, w => some (choice.success, w)

def Performs (call : Nat) (e : Effect) (w : World) (a : Answer e) (w' : World) : Prop :=
  ∃ choice, perform choice call e w = some (a, w')

abbrev Action (α : Type) := Program Effect Answer Failure α

end Dim.Lifecycle
