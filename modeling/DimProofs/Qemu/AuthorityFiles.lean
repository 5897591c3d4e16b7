/-
The file of native Git's QEMU authority: a state is written to a staging file, linked to a publication name,
and the publication is renamed to `state.json`. A read finishes what it can prove to be an interrupted
publication, and refuses any other file. The order of a directory's names decides nothing here, as no more than
one name of each kind is accepted; `umask` is left out, and so are the faults that tests inject.
-/
import DimProofs.Lib.Calls
import DimProofs.Lib.Files
import DimProofs.Lib.Pattern
import DimProofs.Ordinary.Protocol

namespace Dim.Qemu.Authority

open Effectful Files

/-- A digest is 64 hexadecimal digits. -/
class HexSha256 extends Ordinary.Sha256 where
  pattern : ∀ text, Pattern.hexString 64 (hex text) = true

def maximumStateBytes : Nat := 4 * 1024 * 1024

inductive AuthorityFailure where
  | errno (errno : Errno)
  | files (message : String)
  | state (message : String)
  | schema

/-! ## Names -/

def publicationPrefix : String := ".state.json."

def stateName : String := "state.json"

/-- The digest and the identity in `.state.json.<digest>.<identity><suffix>`. -/
def namePattern (suffix name : String) : Option (String × String) :=
  let chars := name.toList
  let digest := String.ofList ((chars.drop 12).take 64)
  let identity := String.ofList ((chars.drop 77).take 36)
  if chars.take 12 = publicationPrefix.toList ∧ Pattern.hexString 64 digest = true ∧ (chars.drop 76).take 1 = ['.'] ∧
      Pattern.uuid identity = true ∧ chars.drop 113 = suffix.toList then some (digest, identity)
  else none

def stagingPattern : String → Option (String × String) := namePattern ".tmp"

def publicationPattern : String → Option (String × String) := namePattern ".publish"

def publicationName (suffix digest identity : String) : String :=
  publicationPrefix ++ digest ++ "." ++ identity ++ suffix

/-! ## The store -/

/-- The directory `dim-authoritative-qemu`. -/
structure Directory where
  (uid mode : Nat)

/-- The store, with the texts that were linked to a publication name and the answers that were given. -/
structure World (Response : Type) where
  directory : Option Directory
  files : FileSystem Unit
  published : List String
  acknowledged : List Response

/-! ## Calls -/

inductive AuthorityCall (Response : Type) where
  | pathExists
  | lstatDirectory
  | mkdir
  | chmodDirectory
  | readdir
  | openFile (name : String)
  | randomUUID
  | now
  | create (name : String)
  | write (file : Nat) (text : String)
  | chmod (file : Nat)
  | sync
  | close
  | link (name name' : String)
  | rename (name name' : String)
  | unlink (name : String)
  | syncDirectory
  | request
  | respond (response : Response)

@[reducible] def AuthorityCall.Value {Response : Type} (Request : Type) : AuthorityCall Response → Type
  | .pathExists => Bool
  | .lstatDirectory => Directory
  | .readdir => List (String × Kind)
  | .openFile _ => Nat × Inode
  | .create _ => Nat
  | .randomUUID | .now => String
  | .request => Request
  | _ => Unit

abbrev AuthorityProgram (Request Response : Type) (α : Type) : Type :=
  Program (AuthorityCall Response) (fun c => Except AuthorityFailure (c.Value Request)) AuthorityFailure α

/-- What the environment chooses: an identity, the time and a request. -/
structure Choice (Request : Type) where
  uuid : String
  valid : Pattern.uuid uuid = true
  now : String
  request : Request

section
variable {Request Response : Type}

/-- A call, with its error thrown. -/
def ask (c : AuthorityCall Response) : AuthorityProgram Request Response (c.Value Request) := call c

def World.fileSystem (w : World Response) : Except Errno (FileSystem Unit) → Except AuthorityFailure Unit × World Response
  | .ok files => (.ok (), { w with files })
  | .error errno => (.error (.errno errno), w)

/-- The text of the file that a link publishes. -/
def World.link (w : World Response) (name name' : String) : Except AuthorityFailure Unit × World Response :=
  match w.files.link () name () name' with
  | .ok files => (.ok (), { w with files, published := w.published ++ ((w.files.read () name).toList) })
  | .error errno => (.error (.errno errno), w)

def perform (serviceUid : Nat) (choice : Choice Request) : (c : AuthorityCall Response) → World Response →
    Except AuthorityFailure (c.Value Request) × World Response
  | .pathExists, w => (.ok w.directory.isSome, w)
  | .lstatDirectory, w =>
    match w.directory with
    | some directory => (.ok directory, w)
    | none => (.error (.errno .missing), w)
  | .mkdir, w => (.ok (), { w with directory := some (w.directory.getD { uid := serviceUid, mode := 0o700 }) })
  | .chmodDirectory, w => (.ok (), { w with directory := w.directory.map fun d => { d with mode := 0o700 } })
  | .readdir, w => (.ok ((w.files.entries ()).filterMap fun e => (w.files.inodes[e.2]?).map fun i => (e.1, i.kind)), w)
  | .openFile name, w =>
    match w.files.lookup () name with
    | none => (.error (.errno .missing), w)
    | some file =>
      match w.files.inodes[file]? with
      | none => (.error (.errno .other), w)
      | some inode => if inode.kind = .symlink then (.error (.errno .other), w) else (.ok (file, inode), w)
  | .randomUUID, w => (.ok choice.uuid, w)
  | .now, w => (.ok choice.now, w)
  | .create name, w =>
    match w.files.create () name serviceUid 0o600 with
    | .ok (file, files) => (.ok file, { w with files })
    | .error errno => (.error (.errno errno), w)
  | .write file text, w => (.ok (), { w with files := w.files.modify file fun i => { i with text := i.text ++ text } })
  | .chmod file, w => (.ok (), { w with files := w.files.modify file fun i => { i with mode := 0o600 } })
  | .sync, w | .close, w | .syncDirectory, w => (.ok (), w)
  | .link name name', w => w.link name name'
  | .rename name name', w => w.fileSystem (w.files.rename () name () name')
  | .unlink name, w => w.fileSystem (w.files.unlink () name)
  | .request, w => (.ok choice.request, w)
  | .respond response, w => (.ok (), { w with acknowledged := w.acknowledged ++ [response] })

/-- A failed call changes nothing, but that a write may stop after a part of its text. -/
def left : AuthorityCall Response → World Response → World Response → Prop
  | .write file text, w, w' => ∃ part : String, part.toList <+: text.toList ∧
      w' = { w with files := w.files.modify file fun i => { i with text := i.text ++ part } }
  | _, w, w' => w' = w

/-! ## Reading -/

structure StateCodec (State : Type) where
  parse : String → Option State
  isSuccessor : Option State → State → Bool

/-- A file that was read, whose text is `metadata.text`. -/
structure StateFile (State : Type) where
  file : Nat
  metadata : Inode
  state : State

variable {State : Type} (serviceUid : Nat) (codec : StateCodec State)

def failFiles {α : Type} (message : String) : AuthorityProgram Request Response α := throw (.files message)

def assertPrivateFile (metadata : Inode) : AuthorityProgram Request Response Unit :=
  if metadata.kind = .regular ∧ metadata.uid = serviceUid ∧ metadata.mode % 0o1000 = 0o600 then pure ()
  else failFiles "QEMU authority state must be a caller-owned mode-0600 regular file"

def assertSingleLink (metadata : Inode) : AuthorityProgram Request Response Unit :=
  if metadata.nlink = 1 then pure () else failFiles "QEMU authority state must have one owner"

def assertPrivateDirectory : AuthorityProgram Request Response Unit := do
  let metadata : Directory ← ask .lstatDirectory
  if metadata.uid = serviceUid ∧ metadata.mode % 0o1000 = 0o700 then pure ()
  else failFiles "QEMU authority store must be a caller-owned mode-0700 directory"

def parsed (metadata : Inode) : AuthorityProgram Request Response State :=
  match codec.parse metadata.text with
  | some state => pure state
  | none => failFiles "QEMU authority state is invalid"

def readState (name : String) : AuthorityProgram Request Response (StateFile State) := do
  let (file, metadata) : Nat × Inode ← ask (.openFile name)
  assertPrivateFile serviceUid metadata
  if metadata.text.utf8ByteSize > maximumStateBytes then failFiles "QEMU authority state exceeds the storage bound"
  else do
    let state ← parsed codec metadata
    return { file, metadata, state }

def readFinal (entries : List (String × Kind)) : AuthorityProgram Request Response (Option (StateFile State)) :=
  if entries.any (·.1 = stateName) then some <$> readState serviceUid codec stateName else pure none

def removeStaging (stagingName : String) : AuthorityProgram Request Response Unit := do
  ask .syncDirectory
  ask (.unlink stagingName)
  ask .syncDirectory

/-- The publication has its name still to be renamed. -/
def recoverBeforeRename (stagingName publicationName : String) (staged : StateFile State)
    (final : Option (StateFile State)) : AuthorityProgram Request Response Unit := do
  if stagingPattern stagingName ≠ publicationPattern publicationName then
    failFiles "QEMU authority publication identity conflicts"
  else do
    let publication ← readState serviceUid codec publicationName
    if staged.file ≠ publication.file ∨ staged.metadata.nlink ≠ 2 ∨ publication.metadata.nlink ≠ 2 ∨
        staged.metadata.text ≠ publication.metadata.text ∨ codec.isSuccessor (final.map (·.state)) staged.state = false then
      failFiles "QEMU authority rename intent is not proved"
    else do
      match final with
      | some final => assertSingleLink final.metadata
      | none => pure ()
      ask (.rename publicationName stateName)
      removeStaging stagingName

/-- The publication was renamed, and the staging file is its other name. -/
def recoverAfterRename (stagingName : String) (staged : StateFile State) (final : Option (StateFile State)) :
    AuthorityProgram Request Response Unit :=
  match final with
  | some final =>
    if staged.file = final.file ∧ staged.metadata.nlink = 2 ∧ final.metadata.nlink = 2 ∧
        staged.metadata.text = final.metadata.text then removeStaging stagingName
    else failFiles "QEMU authority staging is not a proved publication"
  | none => failFiles "QEMU authority staging is not a proved publication"

def isStaging (name : String) : Bool := (stagingPattern name).isSome

def isPublication (name : String) : Bool := (publicationPattern name).isSome

variable [HexSha256]

def assertDigest (stagingName : String) (metadata : Inode) : AuthorityProgram Request Response Unit :=
  if (stagingPattern stagingName).map (·.1) = some (Ordinary.Sha256.hex metadata.text) then pure ()
  else failFiles "QEMU authority staging digest conflicts"

/-- The state of a layout with at most one staging file and one publication: what `state.json` holds, or the
one staging file there is. -/
def readLayout (entries : List (String × Kind)) (staging publication : Option String) :
    AuthorityProgram Request Response State := do
  let final ← readFinal serviceUid codec entries
  match staging, publication with
  | none, none =>
    match final with
    | none => failFiles "QEMU authority state file is missing"
    | some final => do
      assertSingleLink final.metadata
      return final.state
  | none, some _ => failFiles "QEMU authority publication has no staging evidence"
  | some stagingName, publication => do
    let staged ← readState serviceUid codec stagingName
    assertDigest stagingName staged.metadata
    match publication with
    | some publicationName => recoverBeforeRename serviceUid codec stagingName publicationName staged final
    | none => recoverAfterRename stagingName staged final
    return staged.state

def readEntries (entries : List (String × Kind)) : AuthorityProgram Request Response State :=
  let staging := (entries.map (·.1)).filter isStaging
  let publications := (entries.map (·.1)).filter isPublication
  if entries.any (fun e => e.2 ≠ .regular ∨ (e.1 ≠ stateName ∧ isStaging e.1 = false ∧ isPublication e.1 = false)) ∨
      1 < staging.length ∨ 1 < publications.length then
    failFiles "QEMU authority store layout is invalid"
  else readLayout serviceUid codec entries staging.head? publications.head?

def readNativeQemuAuthorityStateFile : AuthorityProgram Request Response (Option State) := do
  let present : Bool ← ask .pathExists
  if present then do
    assertPrivateDirectory serviceUid
    let entries : List (String × Kind) ← ask .readdir
    some <$> readEntries serviceUid codec entries
  else return none

/-! ## Publication -/

def ensurePrivateDirectory : AuthorityProgram Request Response Unit := do
  ask .mkdir
  ask .chmodDirectory
  assertPrivateDirectory serviceUid

def publishNativeQemuAuthorityState (serialized : String) : AuthorityProgram Request Response Unit := do
  if serialized.utf8ByteSize > maximumStateBytes then failFiles "QEMU authority state exceeds the storage bound"
  else do
    ensurePrivateDirectory serviceUid
    let digest := Ordinary.Sha256.hex serialized
    let identity : String ← ask .randomUUID
    let stagingName := publicationName ".tmp" digest identity
    let publicationName := publicationName ".publish" digest identity
    let file : Nat ← ask (.create stagingName)
    Program.tryFinally (do
      ask (.write file serialized)
      ask (.chmod file)
      ask .sync) (ask .close)
    ask (.link stagingName publicationName)
    ask (.rename publicationName stateName)
    ask .syncDirectory
    ask (.unlink stagingName)
    ask .syncDirectory

end

end Dim.Qemu.Authority
