/-
Records in the state directory: a record is claimed by making its file and filling it, changed by renaming a
complete file over it, and read or listed without a lock. A listing reads the directory and then all files at
once, so the reads come in any order.
-/
import DimProofs.Lifecycle.State

namespace Dim.Lifecycle

open Effectful

def effect (e : Effect) : Action (Answer e) := Program.effect e

/-- `handle.writeFile`. -/
def writeText (ino : Nat) : List Char → Action Unit
  | [] => pure ()
  | c :: rest => do
    effect (.append ino c)
    writeText ino rest

def readFile (directory : Directory) (name : String) : Action String := do
  match ← effect (.openFile directory name) with
  | none => throw .noEntry
  | some ino => effect (.readFile ino)

def validateLifecycleName (value : String) (kind : Kind) : Action String :=
  if validLifecycleName value then pure value
  else throw (.user (kind.text ++ " name must match [a-z0-9][a-z0-9_.-]\x7b0,47\x7d"))

section Records

variable [Format] {kind : Kind}

/-! ## Changing a record -/

/-- `claimProject`, `claimWorkspace`. -/
def claimRecord (record : Record kind) : Action Unit := do
  match ← effect (.create (.records kind) (recordFile record.name)) with
  | none => throw (.user (kind.text ++ " '" ++ record.name ++ "' already exists"))
  | some ino =>
    writeText ino (stored record).toList
    effect (.close ino)

def renameFile (directory : Directory) (name name' : String) : Action Unit := do
  match ← effect (.rename directory name name') with
  | true => pure ()
  | false => throw .noEntry

/-- `writeProject`, `writeWorkspace`. -/
def atomicWrite (record : Record kind) : Action Unit := do
  let temporary ← effect (.temporary (.records kind) (recordFile record.name))
  match ← effect (.truncate (.records kind) temporary) with
  | none => throw .noEntry
  | some ino =>
    writeText ino (stored record).toList
    effect (.close ino)
    renameFile (.records kind) temporary (recordFile record.name)

/-- `removeProject`, `removeWorkspace`. -/
def removeRecord (kind : Kind) (name : String) : Action Unit := do
  let name ← validateLifecycleName name kind
  effect (.remove (.records kind) (recordFile name))

/-! ## Reading records -/

def parseRecord (kind : Kind) (text : String) : Action (Record kind) :=
  match Format.parse kind text with
  | none => throw .syntaxError
  | some record => pure record

def readJson (kind : Kind) (entry missingMessage : String) : Action (Record kind) := do
  match ← effect (.openFile (.records kind) entry) with
  | none => throw (.missing missingMessage)
  | some ino =>
    let text ← effect (.readFile ino)
    parseRecord kind text

def readWorkspace (name : String) : Action WorkspaceRecord := do
  let name ← validateLifecycleName name .workspace
  readJson .workspace (recordFile name) ("workspace '" ++ name ++ "' not found")

/-- One of the reads of a listing. -/
inductive Task (kind : Kind) where
  | named (entry : String)
  | opened (ino : Nat)
  | ended (record : Record kind)

def Task.record? : Task kind → Option (Record kind)
  | .ended record => some record
  | _ => none

def Task.advance : Task kind → Action (Task kind)
  | .named entry => do
    match ← effect (.openFile (.records kind) entry) with
    | none => throw (.missing ("invalid " ++ kind.text ++ " record: " ++ entry))
    | some ino => pure (.opened ino)
  | .opened ino => do
    let text ← effect (.readFile ino)
    let record ← parseRecord kind text
    pure (.ended record)
  | .ended record => pure (.ended record)

def waiting (tasks : List (Task kind)) : List Nat :=
  (List.range tasks.length).filter fun i => (tasks[i]?.bind Task.record?).isNone

/-- `Promise.all`, with the number of steps that are left. -/
def readRecords : Nat → List (Task kind) → Action (List (Record kind))
  | 0, tasks => pure (tasks.filterMap Task.record?)
  | steps + 1, tasks => do
    let i ← effect (.schedule (waiting tasks))
    match tasks[i]? with
    | none => throw .noEntry
    | some task =>
      let task ← task.advance
      readRecords steps (tasks.set i task)

/-- `listProjects`, `listWorkspaces`. Every read is two steps. -/
def listRecords (kind : Kind) : Action (List (Record kind)) := do
  let entries ← effect (.readdir (.records kind))
  let tasks := (entries.filter isRecordFile).map Task.named
  readRecords (2 * tasks.length) tasks

end Records

end Dim.Lifecycle
