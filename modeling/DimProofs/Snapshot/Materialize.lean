/-
Writing the tree of a root commit to a directory: the tree objects are read and checked one by one, then the files and
directories are written, and last the symbolic links. What Git's commands answer, and where the links lead, is given.
-/
import DimProofs.Snapshot.Files

namespace Dim.Snapshot

/-- `nativeRootSnapshotTreeLimits`. -/
structure Limits where
  maximumBlobBytes : Nat := 16 * 1024 * 1024
  maximumMaterializedBytes : Nat := 256 * 1024 * 1024
  maximumTreeBytes : Nat := 16 * 1024 * 1024
  maximumEntries : Nat := 100000
  maximumDepth : Nat := 64
  maximumLinkBytes : Nat := 4096

def limits : Limits := {}

/-- `createHash`. -/
structure Digest where
  digest : GitObjectFormat → Bytes → Bytes
  length : ∀ format bytes, (digest format bytes).length = rawObjectIdLength format

/-- A repository that has been fetched, as Git's commands show it. -/
structure Repository where
  objectFormat : GitObjectFormat
  catFile : ObjectType → Bytes → Option Bytes
  catFileSize : Bytes → Option Nat
  (remoteRef remoteRefAfter fetch fsck : Bool)
  fetched : Bytes
  commitTree : Option Bytes

/-- The destination, and where a path below it leads once all links are followed. -/
structure Host where
  root : Path
  realpath : FileTree → Path → Option Path

/-- `RootEntry`: the path as its names. -/
structure RootEntry where
  mode : Mode
  path : Path
  objectId : Bytes

/-- `ReadState`, and the `HashState` of the check. -/
structure ReadState where
  entries : Nat := 0
  bytes : Nat := 0
  treeBytes : Nat := 0

/-! ## Objects -/

section Read

variable (d : Digest) (git : Repository)

def assertObjectId (type : ObjectType) (bytes expected : Bytes) : Except String Unit :=
  if hashObject (d.digest git.objectFormat) type bytes ≠ expected then
    throw "native Git object identity does not match its bytes"
  else pure ()

def readVerifiedTreeBytes (objectId : Bytes) (maximumBytes : Nat) : Except String Bytes := do
  match git.catFile .tree objectId with
  | none => throw "git cat-file failed"
  | some bytes =>
    if maximumBytes < bytes.length then throw "git output exceeds its limit"
    else do
      assertObjectId d git .tree bytes objectId
      pure bytes

def readVerifiedBlobObject (objectId : Bytes) (maximumBytes : Nat) : Except String Bytes :=
  match git.catFileSize objectId with
  | none => throw "native Git blob exceeds its byte limit"
  | some size =>
    if maximumBytes < size then throw "native Git blob exceeds its byte limit"
    else match git.catFile .blob objectId with
      | none => throw "git cat-file failed"
      | some bytes =>
        if bytes.length ≠ size then throw "native Git blob size changed"
        else do
          assertObjectId d git .blob bytes objectId
          pure bytes

/-! ## Reading -/

/-- `toString("ascii")` clears the highest bit of every byte. -/
def asciiText (bytes : Bytes) : Bytes := bytes.map fun byte => byte &&& 0x7F

def rootMode (value : Bytes) : Except String Mode :=
  if value = Mode.directory.text then pure .directory
  else if value = Mode.regular.text then pure .regular
  else if value = Mode.executable.text then pure .executable
  else if value = Mode.link.text then pure .link
  else throw "native root tree contains an unsafe entry mode"

def decodeName (bytes : Bytes) : Except String Bytes := do
  let name ← decodeUtf8 bytes "native root tree name is not UTF-8"
  if name = [] ∨ name = ascii "." ∨ name = ascii ".." ∨ name = ascii ".git" ∨ name.contains slash ∨ name.contains 0x5C ∨
      name.contains 0 then throw "native root tree name is unsafe"
  else pure name

/-- The first entry of a tree object, and the bytes after it. -/
def takeEntry (rawLength : Nat) (bytes : Bytes) : Except String (TreeEntry × Bytes) :=
  match splitAt? space bytes with
  | none => throw "native root tree encoding is invalid"
  | some (mode, rest) =>
    match splitAt? 0 rest with
    | none => throw "native root tree encoding is invalid"
    | some (name, rest) =>
      if rest.length < rawLength then throw "native root tree encoding is invalid"
      else pure (⟨mode, name, rest.take rawLength⟩, rest.drop rawLength)

/-- What an entry adds to the state, and its name in the directory `parent`. -/
def checkEntry (parent : Path) (names : List Bytes) (state : ReadState) (entry : TreeEntry) :
    Except String (RootEntry × Bytes × ReadState) := do
  let mode ← rootMode (asciiText entry.mode)
  let name ← decodeName entry.name
  if names.contains name then throw "native root tree contains duplicate names"
  else if limits.maximumEntries < state.entries + 1 then throw "native root tree exceeds its entry limit"
  else pure (⟨mode, parent ++ [name], entry.objectId⟩, name, { state with entries := state.entries + 1 })

/-- What is below an entry. -/
def readBelow (recurse : Bytes → Path → ReadState → Except String (List RootEntry × ReadState)) (entry : RootEntry)
    (state : ReadState) : Except String (List RootEntry × ReadState) :=
  if entry.mode = .directory then recurse entry.objectId entry.path state else pure ([], state)

/-- The loop of `readRootEntries`: `fuel` bounds the entries, of which each takes a byte at least. -/
def readEntries (recurse : Bytes → Path → ReadState → Except String (List RootEntry × ReadState)) (rawLength : Nat)
    (parent : Path) : Nat → Bytes → List Bytes → ReadState → Except String (List RootEntry × ReadState)
  | _, [], _, state => pure ([], state)
  | 0, _ :: _, _, _ => throw "native root tree encoding is invalid"
  | fuel + 1, byte :: bytes, names, state => do
    let (treeEntry, rest) ← takeEntry rawLength (byte :: bytes)
    let (entry, name, state) ← checkEntry parent names state treeEntry
    let (below, state) ← readBelow recurse entry state
    let (others, state) ← readEntries recurse rawLength parent fuel rest (name :: names) state
    pure (entry :: below ++ others, state)

/-- `readRootEntries`, `fuel - 1` levels above the deepest that is read. -/
def readRootEntries : Nat → Bytes → Path → ReadState → Except String (List RootEntry × ReadState)
  | 0, _, _, _ => throw "native root tree exceeds its depth limit"
  | fuel + 1, tree, parent, state => do
    let bytes ← readVerifiedTreeBytes d git tree limits.maximumTreeBytes
    if limits.maximumTreeBytes < state.treeBytes + bytes.length then throw "native root tree metadata exceeds its byte limit"
    else
      readEntries (readRootEntries fuel) (rawObjectIdLength git.objectFormat) parent bytes.length bytes []
        { state with treeBytes := state.treeBytes + bytes.length }

end Read

/-! ## Writing -/

section Write

variable (d : Digest) (git : Repository) (host : Host)

def addFile (fs : FileTree) (path : Path) (content : Content) : Except String FileTree :=
  match fs.add path content with
  | none => throw "file already exists"
  | some fs => pure fs

/-- The first loop of `writeRootEntries`. -/
def writeFiles : List RootEntry → FileTree → ReadState → Except String (FileTree × ReadState)
  | [], fs, state => pure (fs, state)
  | entry :: rest, fs, state => do
    match entry.mode with
    | .directory =>
      let fs ← addFile fs entry.path .directory
      writeFiles rest fs state
    | .link => writeFiles rest fs state
    | mode =>
      let bytes ← readVerifiedBlobObject d git entry.objectId
        (min limits.maximumBlobBytes (limits.maximumMaterializedBytes - state.bytes))
      let fs ← addFile fs entry.path (.file (mode = .executable) bytes)
      writeFiles rest fs { state with bytes := state.bytes + bytes.length }

/-- The names of a path text. -/
def segments (path : Bytes) : List Bytes := path.splitOn slash

/-- `resolve`, from the names of a directory on. -/
def resolvePath : Path → List Bytes → Path
  | directory, [] => directory
  | directory, segment :: rest =>
    if segment = [] ∨ segment = ascii "." then resolvePath directory rest
    else if segment = ascii ".." then resolvePath directory.dropLast rest
    else resolvePath (directory ++ [segment]) rest

def reservedLinks : List Path :=
  [[ascii ".dim"], [ascii ".dim", ascii "setup.sh"], [ascii ".dim", ascii "entrypoint.sh"],
    [ascii ".dim", ascii "teardown.sh"], [ascii ".dim", ascii "docker-compose.yml"]]

def decodeLink (bytes : Bytes) : Except String Bytes := do
  let value ← decodeUtf8 bytes "native root symbolic link target is not UTF-8"
  if value = [] ∨ value.contains 0 then throw "native root symbolic link target is invalid"
  else pure value

/-- The target of a link stays below the root. -/
def checkLink (path : Path) (link : Bytes) : Except String Unit :=
  if link.head? = some slash ∨ ¬host.root <+: resolvePath (host.root ++ path.dropLast) (segments link) then
    throw "native root tree contains an escaping symbolic link"
  else pure ()

/-- The second loop of `writeRootEntries`. -/
def writeLinks : List RootEntry → FileTree → ReadState → Except String (FileTree × ReadState)
  | [], fs, state => pure (fs, state)
  | entry :: rest, fs, state =>
    if entry.mode ≠ .link then writeLinks rest fs state
    else if reservedLinks.contains entry.path then
      throw "native root tree has a symbolic link at a reserved lifecycle path"
    else do
      let bytes ← readVerifiedBlobObject d git entry.objectId limits.maximumLinkBytes
      if limits.maximumMaterializedBytes < state.bytes + bytes.length then throw "native root tree exceeds its byte limit"
      else do
        let link ← decodeLink bytes
        checkLink host entry.path link
        let fs ← addFile fs entry.path (.link link)
        writeLinks rest fs { state with bytes := state.bytes + bytes.length }

/-- The last loop of `writeRootEntries`. -/
def checkLinks (fs : FileTree) : List RootEntry → Except String Unit
  | [] => pure ()
  | entry :: rest =>
    if entry.mode ≠ .link then checkLinks fs rest
    else if (host.realpath fs entry.path).any fun resolved => host.root <+: resolved then checkLinks fs rest
    else throw "native root tree contains a dangling or escaping symbolic link"

def writeRootEntries (entries : List RootEntry) (state : ReadState) : Except String FileTree := do
  let (fs, state) ← writeFiles d git entries .empty state
  let (fs, _) ← writeLinks d git host entries fs state
  checkLinks host fs entries
  pure fs

def throwUnless (condition : Bool) (message : String) : Except String Unit := if condition then pure () else throw message

/-- `materializeNativeRootSnapshotTree`: the files below a destination that was empty. -/
def materializeNativeRootSnapshotTree (commit tree : Bytes) : Except String FileTree := do
  throwUnless (objectFormatOf commit = some git.objectFormat && objectFormatOf tree = some git.objectFormat)
    "native root snapshot object identities are invalid"
  throwUnless git.remoteRef "native root protected ref changed"
  throwUnless git.fetch "git fetch failed"
  throwUnless git.fsck "git fsck failed"
  throwUnless (git.fetched = commit) "native Git returned a different root commit"
  throwUnless (git.commitTree = some tree) "native root commit tree conflicts with the draft"
  let (entries, state) ← readRootEntries d git (limits.maximumDepth + 1) tree [] {}
  let fs ← writeRootEntries d git host entries state
  throwUnless git.remoteRefAfter "native root protected ref changed"
  pure fs

end Write

end Dim.Snapshot
