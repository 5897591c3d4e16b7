/-
`NativeHostPrivateRoot`: the directory of a claim, which is made under a staging name with a marker of its
claim and then renamed, and which is removed only with a marker that names the claim. The two directories of
one root id are modelled in their parent; other users of the host write in neither. `parse` is `JSON.parse` on a
marker's text.
-/
import DimProofs.Host.Worker
import DimProofs.Lib.Files
import DimProofs.Lib.Pattern

namespace Dim.Host

open Effectful Files

/-! ## Files -/

structure Attributes where
  (uid mode nlink device inode : Nat)

/-- What is not a directory. -/
inductive FileKind where
  | regular
  | symlink
  | special

def FileKind.kind : FileKind → Kind
  | .regular => .regular
  | .symlink => .symlink
  | .special => .special

/-- What `lstat` answers. -/
structure Metadata extends Attributes where
  kind : Kind

inductive Node where
  | file (kind : FileKind) (attributes : Attributes) (text : String)
  | directory (attributes : Attributes) (entries : List (String × Node))

def Node.metadata : Node → Metadata
  | .file kind attributes _ => { attributes with kind := kind.kind }
  | .directory attributes _ => { attributes with kind := .directory }

/-- The names of one root id. -/
inductive Place where
  | staging
  | final

/-- The parent directory, and what the two names of the root id stand for. -/
structure RootFiles where
  parent : Option Metadata
  (staging final : Option Node)
  nextInode : Nat

def RootFiles.at (w : RootFiles) : Place → Option Node
  | .staging => w.staging
  | .final => w.final

def markerName : String := ".dim-native-ordinary-owner.json"

/-- One step of a recursive removal: it removes a file or an empty directory, anywhere below. -/
inductive RemoveStep : List (String × Node) → List (String × Node) → Prop
  | file {before after : List (String × Node)} {name text : String} {kind : FileKind} {attributes : Attributes} :
    RemoveStep (before ++ (name, .file kind attributes text) :: after) (before ++ after)
  | directory {before after : List (String × Node)} {name : String} {attributes : Attributes} :
    RemoveStep (before ++ (name, .directory attributes []) :: after) (before ++ after)
  | inside {before after entries entries' : List (String × Node)} {name : String} {attributes : Attributes}
    (h : RemoveStep entries entries') :
    RemoveStep (before ++ (name, .directory attributes entries) :: after)
      (before ++ (name, .directory attributes entries') :: after)

/-- What an interrupted removal may leave. -/
def Shrinks : List (String × Node) → List (String × Node) → Prop := Relation.ReflTransGen RemoveStep

/-- What it leaves where it has not removed the marker. -/
def ShrinksMarked (entries entries' : List (String × Node)) : Prop :=
  Shrinks entries entries' ∧ entries'.lookup markerName = entries.lookup markerName

/-! ## System calls -/

inductive RootCall where
  | lstatParent
  | lstat (place : Place)
  | mkdir
  | chmod
  | createMarker
  | chmodMarker
  | writeMarker (text : String)
  | sync
  | close
  | openMarker (place : Place)
  | lstatMarker (place : Place)
  | readdir
  | rename
  | unlinkMarker
  | rmdir
  | rm

/-- What a call returns where it does not fail. -/
@[reducible] def RootCall.Value : RootCall → Type
  | .lstatParent | .lstat _ | .lstatMarker _ => Metadata
  | .openMarker _ => Metadata × String
  | .readdir => List String
  | _ => Unit

@[reducible] def RootCall.Answer (call : RootCall) : Type := Except Errno call.Value

namespace RootFiles

def answer {α : Type} (w : RootFiles) : Option α → Except Errno α × RootFiles
  | some value => (.ok value, w)
  | none => (.error .missing, w)

def stagingDirectory (serviceUid : Nat) (parent : Metadata) (w : RootFiles) : Attributes :=
  { uid := serviceUid, mode := 0o700, nlink := 2, device := parent.device, inode := w.nextInode }

def markerFile (serviceUid : Nat) (directory : Attributes) (w : RootFiles) : Attributes :=
  { uid := serviceUid, mode := 0o600, nlink := 1, device := directory.device, inode := w.nextInode }

/-- A change of the marker in the staging directory, through its open handle. -/
def withMarker (w : RootFiles) (f : Attributes → String → Attributes × String) : RootFiles :=
  match w.staging with
  | some (.directory attributes entries) =>
    { w with
      staging := some (.directory attributes (entries.map fun entry =>
        match entry with
        | (name, .file kind attributes text) =>
          if name = markerName then (name, .file kind (f attributes text).1 (f attributes text).2) else entry
        | (name, .directory attributes entries) => (name, .directory attributes entries))) }
  | _ => w

def appendMarker (w : RootFiles) (text : String) : RootFiles :=
  w.withMarker fun attributes before => (attributes, before ++ text)

/-- The marker of the directory at a place. -/
def marker (w : RootFiles) (place : Place) : Option Node :=
  match w.at place with
  | some (.directory _ entries) => entries.lookup markerName
  | _ => none

end RootFiles

/-- A call that meets no other failure than those of its arguments. Modes are those that `mkdir` and `open` are
given, as no umask takes the owner's bits. -/
def perform (serviceUid : Nat) : (call : RootCall) → RootFiles → call.Answer × RootFiles
  | .lstatParent, w => w.answer w.parent
  | .lstat place, w => w.answer ((w.at place).map Node.metadata)
  | .mkdir, w =>
    match w.parent, w.staging with
    | none, _ => (.error .missing, w)
    | some _, some _ => (.error .alreadyExists, w)
    | some parent, none =>
      (.ok (), { w with
        staging := some (.directory (w.stagingDirectory serviceUid parent) []), nextInode := w.nextInode + 1 })
  | .chmod, w =>
    match w.staging with
    | some (.directory attributes entries) =>
        (.ok (), { w with staging := some (.directory { attributes with mode := 0o700 } entries) })
    | some (.file _ _ _) => (.error .other, w)
    | none => (.error .missing, w)
  | .createMarker, w =>
    match w.staging with
    | some (.directory attributes entries) =>
      if (entries.lookup markerName).isSome then (.error .alreadyExists, w)
      else
        (.ok (), { w with
          staging := some (.directory attributes
            (entries ++ [(markerName, .file .regular (w.markerFile serviceUid attributes) "")]))
          nextInode := w.nextInode + 1 })
    | some (.file _ _ _) => (.error .other, w)
    | none => (.error .missing, w)
  | .chmodMarker, w => (.ok (), w.withMarker fun attributes text => ({ attributes with mode := 0o600 }, text))
  | .writeMarker text, w => (.ok (), w.appendMarker text)
  | .sync, w | .close, w => (.ok (), w)
  | .openMarker place, w =>
    match w.marker place with
    | none => (.error .missing, w)
    | some (.file .symlink _ _) => (.error .other, w)
    | some (.file kind attributes text) => (.ok ({ attributes with kind := kind.kind }, text), w)
    | some (.directory attributes _) => (.ok ({ attributes with kind := .directory }, ""), w)
  | .lstatMarker place, w => w.answer ((w.marker place).map Node.metadata)
  | .readdir, w =>
    match w.staging with
    | some (.directory _ entries) => (.ok (entries.map (·.1)), w)
    | some (.file _ _ _) => (.error .other, w)
    | none => (.error .missing, w)
  | .rename, w =>
    match w.staging, w.final with
    | none, _ => (.error .missing, w)
    | some node, none | some node, some (.directory _ []) => (.ok (), { w with staging := none, final := some node })
    | some _, some _ => (.error .alreadyExists, w)
  | .unlinkMarker, w =>
    match w.staging with
    | some (.directory attributes entries) =>
      match entries.lookup markerName with
      | some (.file _ _ _) =>
        (.ok (), { w with staging := some (.directory attributes (entries.filter (·.1 ≠ markerName))) })
      | some (.directory _ _) => (.error .other, w)
      | none => (.error .missing, w)
    | some (.file _ _ _) => (.error .other, w)
    | none => (.error .missing, w)
  | .rmdir, w =>
    match w.staging with
    | some (.directory _ []) => (.ok (), { w with staging := none })
    | some _ => (.error .other, w)
    | none => (.error .missing, w)
  | .rm, w =>
    match w.final with
    | some _ => (.ok (), { w with final := none })
    | none => (.error .missing, w)

/-- What a call that fails may have done: a write writes a part, and a recursive removal, as `left` says,
removes a part. -/
def FailedAfter (left : List (String × Node) → List (String × Node) → Prop) (call : RootCall) (w w' : RootFiles) : Prop :=
  match call with
  | .writeMarker text => ∃ part : String, part.toList <+: text.toList ∧ w' = w.appendMarker part
  | .rm => w' = w ∨ ∃ attributes entries entries', w.final = some (.directory attributes entries) ∧ left entries entries' ∧
      w' = { w with final := some (.directory attributes entries') }
  | _ => w' = w

/-- Any call may also fail for a reason that is not its arguments'. -/
def performs (serviceUid : Nat) (left : List (String × Node) → List (String × Node) → Prop) (call : RootCall)
    (w : RootFiles) (answer : call.Answer) (w' : RootFiles) : Prop :=
  (answer, w') = perform serviceUid call w ∨ (answer = .error .other ∧ FailedAfter left call w w')

/-! ## Programs -/

inductive RootFailure where
  | errno (errno : Errno)
  | privateRoot (message : String)
deriving DecidableEq

abbrev RootProgram (α : Type) : Type := Program RootCall RootCall.Answer RootFailure α

def call (c : RootCall) : RootProgram c.Value :=
  (Program.effect c).bind fun
    | .ok value => .done value
    | .error errno => .fail (.errno errno)

def isPrivateDirectory (serviceUid : Nat) (metadata : Metadata) : Bool :=
  metadata.kind = .directory && metadata.uid = serviceUid && metadata.mode % 0o1000 = 0o700

def sameDirectory (left right : Metadata) : Bool :=
  left.device = right.device && left.inode = right.inode && left.uid = right.uid && left.mode = right.mode

def matchesCreatedIdentity (metadata : Metadata) : NativeHostPrivateRootIdentity → Bool
  | .planned _ => true
  | .created _ device inode => toString metadata.device = device && toString metadata.inode = inode

def pathExists (place : Place) : RootProgram Bool :=
  tryCatch (do let _ ← call (.lstat place); pure true) fun failure =>
    if failure = .errno .missing then pure false else throw failure

def safeLstatParent : RootProgram (Option Metadata) :=
  tryCatch (do let metadata ← call .lstatParent; pure (some metadata)) fun _ => pure none

def safeLstat (place : Place) : RootProgram (Option Metadata) :=
  tryCatch (do let metadata ← call (.lstat place); pure (some metadata)) fun _ => pure none

/-- `/^[0-9a-f]{8}-[0-9a-f]{4}-[0-9a-f]{4}-[0-9a-f]{4}-[0-9a-f]{12}$/`. -/
def rootIdPattern (s : String) : Bool :=
  let hex n := List.replicate n Pattern.hex
  let dash := [Pattern.only '-']
  Pattern.sequence (hex 8 ++ dash ++ hex 4 ++ dash ++ hex 4 ++ dash ++ hex 4 ++ dash ++ hex 12) s.toList

/-- A root id with the claim it is made for. -/
structure ClaimRoot where
  (rootId claimId : String)
  rootIdValid : rootIdPattern rootId = true
  claimIdValid : Pattern.uuid claimId = true

/-- What a marker says, where it is an object of exactly these members. -/
structure MarkerRecord where
  (rootId claimId : String)
deriving DecidableEq

def ClaimRoot.record (root : ClaimRoot) : MarkerRecord := { rootId := root.rootId, claimId := root.claimId }

/-- `JSON.stringify({ schemaVersion: 1, rootId, claimId })`. -/
def ClaimRoot.markerBytes (root : ClaimRoot) : String :=
  Json.object [("schemaVersion", "1"), ("rootId", Json.string root.rootId), ("claimId", Json.string root.claimId)]

section
variable (serviceUid : Nat) (parse : String → Option MarkerRecord)

def isPrivateMarker (metadata : Metadata) : Bool :=
  metadata.kind = .regular && metadata.uid = serviceUid && metadata.mode % 0o1000 = 0o600 && metadata.nlink = 1

/-- What `markerMatches` asks of an open marker. -/
def matchingMarker (root : ClaimRoot) (marker : Metadata × String) : Bool :=
  isPrivateMarker serviceUid marker.1 && 1 ≤ marker.2.utf8ByteSize && marker.2.utf8ByteSize ≤ 1024
    && parse marker.2 = some root.record

/-- The open marker of a place, which is closed whatever happens. -/
def withOpenMarker (place : Place) (body : Metadata × String → RootProgram Bool) : RootProgram Bool := do
  match ← tryCatch (do let marker ← call (.openMarker place); pure (some marker)) fun _ => pure none with
  | none => return false
  | some marker => Program.tryFinally (tryCatch (body marker) fun _ => pure false) (call .close)

def markerMatches (place : Place) (root : ClaimRoot) : RootProgram Bool :=
  withOpenMarker place fun marker => pure (matchingMarker serviceUid parse root marker)

/-- `removableStagingMarker` of the file that was opened, against the name's file at the end. -/
def removableMarker (expected : String) (marker : Metadata × String) (current : Metadata) : Bool :=
  isPrivateMarker serviceUid marker.1 && marker.2.utf8ByteSize ≤ expected.length
    && marker.2.toList.isPrefixOf expected.toList && sameDirectory marker.1 current

def removableStagingMarker (expected : String) : RootProgram Bool :=
  withOpenMarker .staging fun marker => do
    let current ← call (.lstatMarker .staging)
    return removableMarker serviceUid expected marker current

/-! ## Creation -/

def throwUnless (condition : Bool) (message : String) : RootProgram Unit :=
  if condition then pure () else throw (.privateRoot message)

/-- The staging directory with its marker. -/
def stageRoot (root : ClaimRoot) : RootProgram Unit := do
  call .mkdir
  call .chmod
  call .createMarker
  let markerBytes := root.markerBytes
  let split := (markerBytes.length + 1) / 2
  Program.tryFinally (do
      call .chmodMarker
      call (.writeMarker (String.ofList (markerBytes.toList.take split)))
      call (.writeMarker (String.ofList (markerBytes.toList.drop split)))
      call .sync)
    (call .close)
  call .sync

def privateAndMarked (staged : Metadata) (root : ClaimRoot) : RootProgram Bool :=
  if isPrivateDirectory serviceUid staged then markerMatches serviceUid parse .staging root else pure false

/-- The staging directory gets its name. -/
def publishRoot (root : ClaimRoot) (parent : Metadata) : RootProgram NativeHostPrivateRootIdentity := do
  let currentParent ← call .lstatParent
  throwUnless (sameDirectory parent currentParent) "native ordinary private root parent changed during creation"
  let staged ← call (.lstat .staging)
  let marked ← privateAndMarked serviceUid parse staged root
  throwUnless marked "native ordinary private root ownership or mode is invalid"
  let finalExists ← pathExists .final
  throwUnless (!finalExists) "native ordinary private root already exists"
  call .rename
  call .sync
  let metadata ← call (.lstat .final)
  let publishedParent ← call .lstatParent
  throwUnless (sameDirectory staged metadata && sameDirectory parent publishedParent)
    "native ordinary private root changed during publication"
  return .created root.rootId (toString metadata.device) (toString metadata.inode)

/-- `create` of a planned root, with the identity it has then. -/
def createRootDirectory (root : ClaimRoot) : RootProgram NativeHostPrivateRootIdentity := do
  let parent ← call .lstatParent
  throwUnless (isPrivateDirectory serviceUid parent) "native ordinary private root parent ownership or mode is invalid"
  stageRoot root
  publishRoot serviceUid parse root parent

/-- `create`. -/
def create (identity : NativeHostPrivateRootIdentity) (root : ClaimRoot) : RootProgram NativeHostPrivateRootIdentity :=
  match identity with
  | .planned _ => createRootDirectory serviceUid parse root
  | .created _ _ _ => throw (.privateRoot "native ordinary private root was already created")

/-! ## Cleanup -/

/-- The staging directory holds nothing, or a file under the marker's name. -/
def stagingNames (entries : List String) : Bool := entries = [] || entries = [markerName]

def removableEntries (expectedMarker : String) (entries : List String) : RootProgram Bool :=
  if entries = [] then pure true else removableStagingMarker serviceUid expectedMarker

def removeStaging (entries : List String) : RootProgram Bool := do
  if entries = [] then pure () else call .unlinkMarker
  call .rmdir
  call .sync
  return true

def cleanupStaging (parent : Metadata) (expectedMarker : String) : RootProgram Bool :=
  tryCatch (do
      let metadata ← call (.lstat .staging)
      if !isPrivateDirectory serviceUid metadata then return false
      else
        let entries : List String ← call .readdir
        if !stagingNames entries then return false
        else
          let removable ← removableEntries serviceUid expectedMarker entries
          if !removable then return false
          else
            let current ← call (.lstat .staging)
            let currentParent ← call .lstatParent
            if !(sameDirectory metadata current && sameDirectory parent currentParent) then return false
            else removeStaging entries)
    fun _ => pure false

def cleanupFinal (identity : NativeHostPrivateRootIdentity) (root : ClaimRoot) (parent : Metadata) : RootProgram Bool := do
  match ← safeLstat .final with
  | none => return false
  | some metadata =>
    if !(isPrivateDirectory serviceUid metadata && matchesCreatedIdentity metadata identity) then return false
    else
      let matching ← markerMatches serviceUid parse .final root
      if !matching then return false
      else
        match ← safeLstat .final, ← safeLstatParent with
        | some current, some currentParent =>
          if !(sameDirectory metadata current && sameDirectory parent currentParent) then return false
          else tryCatch (do call .rm; call .sync; pure true) fun _ => pure false
        | _, _ => return false

def cleanup (identity : NativeHostPrivateRootIdentity) (root : ClaimRoot) : RootProgram Bool := do
  match ← safeLstatParent with
  | none => return false
  | some parent =>
    if !isPrivateDirectory serviceUid parent then return false
    else
      let stagingExists ← pathExists .staging
      let finalExists ← pathExists .final
      if stagingExists && finalExists then return false
      else if stagingExists then cleanupStaging serviceUid parent root.markerBytes
      else if !finalExists then return true
      else cleanupFinal serviceUid parse identity root parent

end

end Dim.Host
