/-
Writing the tree of a candidate: into a staging directory, while its objects are read, and then renamed to the destination;
what fails removes the staging directory. Every call may fail, and a failed write leaves some of what it wrote.
-/
import DimProofs.Candidate.Objects
import DimProofs.Lib.Calls

namespace Dim.Candidate

open Effectful
open Snapshot (Bytes Digest Repository Path Content FileTree)

/-- The destination and the staging directory; whether a removal has failed. -/
structure World where
  (destination staging : Option FileTree)
  removalFailed : Bool
deriving DecidableEq

inductive Call where
  /-- The destination is normal, and its parent a private directory. -/
  | assertPrivateParent
  | assertAbsent
  | mkdtemp
  | readTree (objectId : Bytes) (maximumBytes : Nat)
  | readBlob (objectId : Bytes) (maximumBytes : Nat)
  | mkdir (path : Path)
  | writeFile (path : Path) (bytes : Bytes) (executable : Bool)
  | chmod (path : Path) (executable : Bool)
  | rename
  | rm

@[reducible] def Call.Value : Call → Type
  | .readTree _ _ => Listing
  | .readBlob _ _ => Bytes
  | _ => Unit

def setMode (executable : Bool) : Content → Content
  | .file _ bytes => .file executable bytes
  | content => content

/-- `chmod`. -/
def chmod (fs : FileTree) (path : Path) (executable : Bool) : FileTree where
  entries := fs.entries.map fun entry => (entry.1, if entry.1 = path then setMode executable entry.2 else entry.2)
  distinct := by
    rw [List.map_map]
    exact fs.distinct
  legal := by
    intro entry hentry
    obtain ⟨old, hold, rfl⟩ := List.mem_map.1 hentry
    exact fs.legal old hold

namespace World

def add (w : World) (path : Path) (content : Content) : Except String Unit × World :=
  match w.staging.bind fun fs => fs.add path content with
  | none => (.error "EEXIST", w)
  | some fs => (.ok (), { w with staging := some fs })

def rename (w : World) : Except String Unit × World :=
  match w.destination with
  | none => (.ok (), { w with destination := w.staging, staging := none })
  | some _ => (.error "ENOTEMPTY", w)

end World

section Program

variable (d : Digest) (git : Repository)

/-- What a call does where nothing goes wrong; the process' mask may take the executable bit from a new file. -/
def perform (masked : Bool) : (c : Call) → World → Except String c.Value × World
  | .assertPrivateParent, w => (.ok (), w)
  | .assertAbsent, w => (if w.destination.isSome then .error "candidate destination already exists" else .ok (), w)
  | .mkdtemp, w => (.ok (), { w with staging := some .empty })
  | .readTree objectId maximumBytes, w => (Candidate.readTree d git objectId maximumBytes, w)
  | .readBlob objectId maximumBytes, w => (Candidate.readBlob d git objectId maximumBytes, w)
  | .mkdir path, w => w.add path .directory
  | .writeFile path bytes executable, w => w.add path (.file (executable && !masked) bytes)
  | .chmod path executable, w => (.ok (), { w with staging := w.staging.map (Candidate.chmod · path executable) })
  | .rename, w => w.rename
  | .rm, w => (.ok (), { w with staging := none })

/-- What a call leaves that fails. -/
def left : Call → World → World → Prop
  | .mkdir _, w, w' => ∃ fs, w' = { w with staging := some fs }
  | .writeFile _ _ _, w, w' => ∃ fs, w' = { w with staging := some fs }
  | .chmod _ _, w, w' => ∃ fs, w' = { w with staging := some fs }
  | .rm, w, w' => ∃ fs, w' = { w with staging := some fs, removalFailed := true }
  | _, w, w' => w' = w

abbrev Action (α : Type) := Program Call (fun c => Except String c.Value) String α

def run (c : Call) : Action c.Value := call c

/-- The calls of a materialization. -/
abbrev Acts := Performs (perform d git) left True

/-- `MaterializeState`. -/
structure MaterializeState where
  entries : Nat := 0
  bytes : Nat := 0
  treeBytes : Nat := 0

variable (limits : CandidateObjectLimits)

/-- A file of the candidate. -/
def materializeFile (entry : Entry) (path : Path) (state : MaterializeState) : Action MaterializeState :=
  if limits.maximumMaterializedBytes < state.bytes then throw "candidate tree exceeds its byte limit"
  else do
    let bytes ← run (.readBlob entry.objectId (min limits.maximumBlobBytes (limits.maximumMaterializedBytes - state.bytes)))
    run (.writeFile path bytes (entry.mode = .executable))
    run (.chmod path (entry.mode = .executable))
    pure { state with bytes := state.bytes + bytes.length }

def materializeEntry (recurse : Bytes → Path → MaterializeState → Action MaterializeState) (entry : Entry)
    (destination : Path) (state : MaterializeState) : Action MaterializeState :=
  if limits.maximumEntries < state.entries + 1 then throw "candidate tree exceeds its entry limit"
  else if entry.mode = .directory then do
    run (.mkdir (destination ++ [entry.name]))
    recurse entry.objectId (destination ++ [entry.name]) { state with entries := state.entries + 1 }
  else materializeFile limits entry (destination ++ [entry.name]) { state with entries := state.entries + 1 }

/-- The loop of `materializeDirectory`. -/
def materializeEntries (recurse : Bytes → Path → MaterializeState → Action MaterializeState) (destination : Path) :
    List Entry → MaterializeState → Action MaterializeState
  | [], state => pure state
  | entry :: rest, state => do
    let state ← materializeEntry limits recurse entry destination state
    materializeEntries recurse destination rest state

/-- `materializeDirectory`, at the depth from which `levels` more directories may be entered. -/
def materializeDirectory : Nat → Bytes → Path → MaterializeState → Action MaterializeState
  | 0, _, _, _ => throw "candidate tree exceeds its depth limit"
  | levels + 1, tree, destination, state => do
    let listing ← run (.readTree tree limits.maximumTreeBytes)
    if limits.maximumTreeBytes < state.treeBytes + listing.byteLength then
      throw "candidate tree metadata exceeds its byte limit"
    else
      materializeEntries limits (materializeDirectory levels) destination listing.entries
        { state with treeBytes := state.treeBytes + listing.byteLength }

/-- The body of the `try` block. -/
def materializeStaged (tree : Bytes) : Action Unit := do
  let _ ← materializeDirectory limits (limits.maximumDepth + 1) tree [] {}
  run .assertAbsent
  run .rename

def removeStaging (error : String) : Action Unit := do
  run .rm
  throw error

def materializeVerifiedTree (tree : Bytes) : Action Unit := do
  run .assertPrivateParent
  run .assertAbsent
  run .mkdtemp
  tryCatch (materializeStaged limits tree) removeStaging

end Program

end Dim.Candidate
