/-
The storage of review records: a record is written to a staging file, and published at its name by a link
that replaces nothing or by a rename that may. The store's two directories are of one device. Programs are
written over the system calls they make; the faults that tests inject are left out.
-/
import DimProofs.Lib.Files
import DimProofs.Lib.Pattern
import DimProofs.Lib.Program

namespace Dim.NativeGit

open Effectful Files

/-- The directories of a store. -/
inductive Area where
  | staging
  | records
deriving DecidableEq

abbrev RecordStore := FileSystem Area

/-! ## Names -/

/-- `^[0-9a-f]{64}(?:\.[0-9a-f]{64})?\.json$`. -/
def recordName (name : String) : Bool :=
  let id := List.replicate 64 Pattern.hex
  let json := ".json".toList.map Pattern.only
  Pattern.sequence (id ++ json) name.toList || Pattern.sequence (id ++ Pattern.only '.' :: id ++ json) name.toList

/-- `.<uuid>.tmp`. -/
def stagingSuffix : List Char → Bool
  | '.' :: rest => Pattern.uuid (String.ofList (rest.take 36)) && rest.drop 36 = ".tmp".toList
  | _ => false

/-- The record name that the pattern of a staging entry captures. -/
def finalName (name : String) : Option String :=
  let chars := name.toList
  let final := String.ofList (chars.take (chars.length - 41))
  if stagingSuffix (chars.drop (chars.length - 41)) && recordName final then some final else none

/-- A publication of a caller, all of which name records by hexadecimal ids. -/
structure ReviewPublication where
  (name serialized : String)
  named : recordName name = true

/-! ## System calls -/

inductive Call where
  | randomUUID
  | create (name : String)
  | write (file : Nat) (text : String)
  | chmod (file : Nat)
  | sync
  | close
  | link (staged name : String)
  | rename (staged name : String)
  | unlink (staged : String)

def Call.Answer : Call → Type
  | .randomUUID => String
  | .create _ => Except Errno Nat
  | _ => Except Errno Unit

abbrev StorageProgram (α : Type) : Type := Program Call Call.Answer Errno α

/-- What a call answers and does. Any call may fail, which leaves the store as it was but for a write that
may stop after a part of its text. -/
def performs (serviceUid : Nat) : (call : Call) → RecordStore → call.Answer → RecordStore → Prop
  | .randomUUID, s, (uuid : String), s' => Pattern.uuid uuid = true ∧ s' = s
  | .create name, s, (answer : Except Errno Nat), s' =>
    (∃ file, answer = .ok file ∧ s.create .staging name serviceUid 0o600 = .ok (file, s')) ∨
      (∃ errno, answer = .error errno ∧ s' = s)
  | .write file text, s, (answer : Except Errno Unit), s' =>
    (answer = .ok () ∧ s' = s.modify file fun i => { i with text := i.text ++ text }) ∨
      (∃ errno part, answer = .error errno ∧ part.toList <+: text.toList ∧
        s' = s.modify file fun i => { i with text := i.text ++ part })
  | .chmod file, s, (answer : Except Errno Unit), s' =>
    (answer = .ok () ∧ s' = s.modify file fun i => { i with mode := 0o600 }) ∨ (∃ errno, answer = .error errno ∧ s' = s)
  | .sync, s, _, s' | .close, s, _, s' => s' = s
  | .link staged name, s, (answer : Except Errno Unit), s' =>
    (answer = .ok () ∧ s.link .staging staged .records name = .ok s') ∨ (∃ errno, answer = .error errno ∧ s' = s)
  | .rename staged name, s, (answer : Except Errno Unit), s' =>
    (answer = .ok () ∧ s.rename .staging staged .records name = .ok s') ∨ (∃ errno, answer = .error errno ∧ s' = s)
  | .unlink staged, s, (answer : Except Errno Unit), s' =>
    (answer = .ok () ∧ s.unlink .staging staged = .ok s') ∨
      (∃ errno, answer = .error errno ∧ s' = s ∧ (errno = .missing → s.lookup .staging staged = none))

/-- A call whose error is thrown. -/
def orThrow {α : Type} (p : StorageProgram (Except Errno α)) : StorageProgram α :=
  p.bind fun
    | .ok value => .done value
    | .error errno => .fail errno

def randomUUID : StorageProgram String := Program.effect Call.randomUUID

def openExclusive (name : String) : StorageProgram Nat := orThrow (Program.effect (Call.create name))

def writeFile (file : Nat) (text : String) : StorageProgram Unit := orThrow (Program.effect (Call.write file text))

def chmod (file : Nat) : StorageProgram Unit := orThrow (Program.effect (Call.chmod file))

def sync : StorageProgram Unit := orThrow (Program.effect Call.sync)

def close : StorageProgram Unit := orThrow (Program.effect Call.close)

def link (staged name : String) : StorageProgram Unit := orThrow (Program.effect (Call.link staged name))

def rename (staged name : String) : StorageProgram Unit := orThrow (Program.effect (Call.rename staged name))

def unlink (staged : String) : StorageProgram Unit := orThrow (Program.effect (Call.unlink staged))

/-! ## Publication -/

def removeStaged (staged : String) : StorageProgram Unit :=
  tryCatch (unlink staged) fun errno => if errno = .missing then pure () else throw errno

def stagedName (publication : ReviewPublication) (uuid : String) : String := publication.name ++ "." ++ uuid ++ ".tmp"

/-- The part of a publication that fills the staging file. -/
def stage (publication : ReviewPublication) : StorageProgram String := do
  let uuid ← randomUUID
  let staged := stagedName publication uuid
  let file ← openExclusive staged
  tryCatch (do writeFile file publication.serialized; chmod file; sync) fun errno => do
    close
    removeStaged staged
    throw errno
  close
  return staged

/-- A publication by the call that gives the staging file its name. -/
def publishBy (call : String → String → StorageProgram Unit) (publication : ReviewPublication) : StorageProgram Unit := do
  let staged ← stage publication
  Program.tryFinally (do call staged publication.name; sync) (removeStaged staged)
  sync

def publishReviewRecord : ReviewPublication → StorageProgram Unit := publishBy link

def replaceReviewRecord : ReviewPublication → StorageProgram Unit := publishBy rename

/-! ## Recovery -/

inductive RecoveryError where
  | storage (message : String)
  | errno (errno : Errno)
deriving DecidableEq

/-- `open` with `O_NOFOLLOW`, and `stat`. -/
def openNoFollow (s : RecordStore) (area : Area) (name : String) : Except RecoveryError (Nat × Inode) :=
  match s.lookup area name with
  | none => .error (.errno .missing)
  | some file =>
    match s.inodes[file]? with
    | none => .error (.errno .other)
    | some inode => if inode.kind = .symlink then .error (.errno .other) else .ok (file, inode)

def privateReviewFile (serviceUid : Nat) (inode : Inode) : Bool :=
  inode.kind = .regular && inode.uid = serviceUid && inode.mode % 0o1000 = 0o600

def assertPrivateReviewFile (serviceUid : Nat) (inode : Inode) : Except RecoveryError Unit :=
  if privateReviewFile serviceUid inode then .ok ()
  else .error (.storage "review staging records must be caller-owned mode-0600 regular files")

/-- The staging file and the record are one file, with these two names. -/
def assertPublished (staged final : Nat × Inode) : Except RecoveryError Unit :=
  if staged.1 = final.1 ∧ staged.2.nlink = 2 ∧ final.2.nlink = 2 then .ok ()
  else .error (.storage "review staging entry does not match its published review")

def entryFinalName (s : RecordStore) (name : String) (file : Nat) : Except RecoveryError String :=
  match finalName name with
  | some final =>
    if s.inodes[file]?.any (·.kind = .regular) then .ok final else .error (.storage "review staging entry is invalid")
  | none => .error (.storage "review staging entry is invalid")

/-- One round of the loop. -/
def recoverEntry (serviceUid : Nat) (entry : String × Nat) (s : RecordStore) : Except RecoveryError RecordStore := do
  let final ← entryFinalName s entry.1 entry.2
  let staged ← openNoFollow s .staging entry.1
  assertPrivateReviewFile serviceUid staged.2
  let published ← openNoFollow s .records final
  assertPrivateReviewFile serviceUid published.2
  assertPublished staged published
  (s.unlink .staging entry.1).mapError .errno

/-- A round that threw ends the loop, and the rounds before it stay done. -/
def thenRecover (round : Except RecoveryError RecordStore) (s : RecordStore)
    (rest : RecordStore → Except RecoveryError Unit × RecordStore) : Except RecoveryError Unit × RecordStore :=
  match round with
  | .error error => (.error error, s)
  | .ok s => rest s

def recoverEntries (serviceUid : Nat) : List (String × Nat) → RecordStore → Except RecoveryError Unit × RecordStore
  | [], s => (.ok (), s)
  | entry :: rest, s => thenRecover (recoverEntry serviceUid entry s) s (recoverEntries serviceUid rest)

def recoverPublishedReviewStaging (serviceUid : Nat) (s : RecordStore) : Except RecoveryError Unit × RecordStore :=
  recoverEntries serviceUid (s.entries .staging) s

end Dim.NativeGit
