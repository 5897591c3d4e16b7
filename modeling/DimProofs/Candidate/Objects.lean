/-
The trees and blobs of a candidate, as they are read from Git's objects and checked: the parser of a tree object, and the
reader of one blob by its path.
-/
import DimProofs.Snapshot.Checking

namespace Dim.Candidate

open Relational
open Snapshot (Bytes Digest Repository GitObjectFormat ObjectType Path Content FileTree TreeEntry Encodes ascii slash space
  rawObjectIdLength hashObject objectBytes asciiText withoutMark marked decodeUtf8 readVerifiedTreeBytes
    readVerifiedBlobObject)

structure CandidateObjectLimits where
  (maximumBlobBytes maximumMaterializedBytes maximumTreeBytes maximumEntries maximumDepth : Nat)

/-- The modes of a candidate's entries. -/
inductive Mode where
  | directory
  | regular
  | executable
deriving DecidableEq

def Mode.text : Mode → Bytes
  | .directory => ascii "40000"
  | .regular => ascii "100644"
  | .executable => ascii "100755"

/-- `TreeEntry`. -/
structure Entry where
  mode : Mode
  (name objectId : Bytes)

/-! ## Trees -/

def safeName (name : Bytes) : Bool :=
  name ≠ [] && name ≠ ascii "." && name ≠ ascii ".." && name ≠ ascii ".git" && !name.contains slash && !name.contains 0x5C &&
    !name.contains 0

def decodeName (bytes : Bytes) : Except String Bytes := do
  let name ← decodeUtf8 bytes "candidate tree name is not UTF-8"
  if safeName name then pure name else throw "candidate tree name is unsafe"

def entryMode (value : Bytes) : Except String Mode :=
  if value = Mode.directory.text then pure .directory
  else if value = Mode.regular.text then pure .regular
  else if value = Mode.executable.text then pure .executable
  else throw "candidate tree contains an unsafe entry mode"

/-- The first entry of a tree object, and the bytes after it. -/
def takeEntry (rawLength : Nat) (bytes : Bytes) : Except String (Entry × Bytes) :=
  match Snapshot.takeEntry rawLength bytes with
  | .error _ => throw "candidate tree encoding is invalid"
  | .ok (entry, rest) => do
    let mode ← entryMode (asciiText entry.mode)
    let name ← decodeName entry.name
    pure (⟨mode, name, entry.objectId⟩, rest)

/-- The loop of `readTree`: `fuel` bounds the entries, of which each takes a byte at least. -/
def readEntries (rawLength : Nat) : Nat → Bytes → List Bytes → Except String (List Entry)
  | _, [], _ => pure []
  | 0, _ :: _, _ => throw "candidate tree encoding is invalid"
  | fuel + 1, byte :: bytes, names => do
    let (entry, rest) ← takeEntry rawLength (byte :: bytes)
    if names.contains entry.name then throw "candidate tree contains duplicate names"
    else do
      let others ← readEntries rawLength fuel rest (entry.name :: names)
      pure (entry :: others)

/-- What `readTree` returns. -/
structure Listing where
  entries : List Entry
  byteLength : Nat

section Read

variable (d : Digest) (git : Repository)

def readTree (objectId : Bytes) (maximumBytes : Nat) : Except String Listing := do
  let bytes ← readVerifiedTreeBytes d git objectId maximumBytes
  let entries ← readEntries (rawObjectIdLength git.objectFormat) bytes.length bytes []
  pure ⟨entries, bytes.length⟩

def readBlob (objectId : Bytes) (maximumBytes : Nat) : Except String Bytes :=
  readVerifiedBlobObject d git objectId maximumBytes

/-! ## Blobs by their path -/

def candidatePath (path : Bytes) (maximumDepth : Nat) : Except String (List Bytes) :=
  let components := path.splitOn slash
  if components.length = 0 ∨ maximumDepth < components.length ∨ components.any (!safeName ·) then
    throw "candidate blob path is unsafe"
  else pure components

def findEntry (listing : Listing) (component : Bytes) : Except String Entry :=
  match listing.entries.find? (·.name = component) with
  | none => throw "candidate blob path is absent"
  | some entry => pure entry

/-- `NativeCandidateBlob`. -/
structure Blob where
  objectId : Bytes
  mode : Mode
  bytes : Bytes

variable (limits : CandidateObjectLimits)

/-- The loop of `readVerifiedBlob`. -/
def readComponents (maximumBytes : Nat) : List Bytes → Bytes → Except String Blob
  | [], _ => throw "candidate blob path is invalid"
  | component :: rest, tree => do
    let listing ← readTree d git tree limits.maximumTreeBytes
    let entry ← findEntry listing component
    if rest ≠ [] then
      if entry.mode ≠ .directory then throw "candidate blob path has a non-tree ancestor"
      else readComponents maximumBytes rest entry.objectId
    else if entry.mode = .directory then throw "candidate blob path is not a regular file"
    else do
      let bytes ← readBlob d git entry.objectId (min maximumBytes limits.maximumBlobBytes)
      pure ⟨entry.objectId, entry.mode, bytes⟩

def readVerifiedBlob (tree path : Bytes) (maximumBytes : Nat) : Except String Blob := do
  let components ← candidatePath path limits.maximumDepth
  readComponents d git limits maximumBytes components tree

end Read

/-! ## What a tree object says -/

/-- The entries of a tree object, unchecked. -/
def rawEntries (rawLength : Nat) : Nat → Bytes → List TreeEntry
  | 0, _ => []
  | fuel + 1, bytes =>
    match Snapshot.takeEntry rawLength bytes with
    | .error _ => []
    | .ok (entry, rest) => entry :: rawEntries rawLength fuel rest

def treeEntries (git : Repository) (tree : Bytes) : List TreeEntry :=
  match git.catFile .tree tree with
  | none => []
  | some bytes => rawEntries (rawObjectIdLength git.objectFormat) bytes.length bytes

/-- The mode that an entry is read with. -/
def modeOf (e : TreeEntry) : Mode :=
  match entryMode (asciiText e.mode) with
  | .ok mode => mode
  | .error _ => .regular

/-- The entry as `readTree` returns it. -/
def entryOf (e : TreeEntry) : Entry := ⟨modeOf e, withoutMark e.name, e.objectId⟩

/-- An entry that passes the checks. -/
structure Accepted (e : TreeEntry) : Prop where
  mode : asciiText e.mode = (modeOf e).text
  name : safeName (withoutMark e.name) = true

theorem entryMode_ok {value : Bytes} {mode : Mode} (h : entryMode value = .ok mode) : value = mode.text := by
  unfold entryMode at h
  split at h
  · cases h
    assumption
  split at h
  · cases h
    assumption
  split at h
  · cases h
    assumption
  · cases h

theorem entryMode_text (mode : Mode) : entryMode mode.text = .ok mode := by cases mode <;> decide

theorem text_injective {mode mode' : Mode} (h : mode.text = mode'.text) : mode = mode' :=
  Except.ok.inj ((entryMode_text mode).symm.trans (h ▸ entryMode_text mode'))

theorem decodeName_ok {bytes name : Bytes} (h : decodeName bytes = .ok name) :
    name = withoutMark bytes ∧ safeName name = true := by
  obtain ⟨value, hvalue, hrest⟩ := bind_ok.1 h
  split at hrest
  · rename_i hsafe
    cases hrest
    exact ⟨Snapshot.decodeUtf8_ok hvalue, hsafe⟩
  · cases hrest

/-- An entry is taken with its bytes, and it passes the checks. -/
theorem takeEntry_ok {rawLength : Nat} {bytes rest : Bytes} {entry : Entry}
    (h : takeEntry rawLength bytes = .ok (entry, rest)) :
    ∃ e, Snapshot.takeEntry rawLength bytes = .ok (e, rest) ∧ entry = entryOf e ∧ Accepted e := by
  unfold takeEntry at h
  split at h
  · cases h
  · rename_i e after htake
    obtain ⟨mode, hmode, h⟩ := bind_ok.1 h
    obtain ⟨name, hname, h⟩ := bind_ok.1 h
    cases h
    obtain ⟨rfl, hsafe⟩ := decodeName_ok hname
    have hof : modeOf e = mode := by rw [modeOf, hmode]
    exact ⟨e, htake, by rw [entryOf, hof], by rw [hof]; exact entryMode_ok hmode, hsafe⟩

/-- What the loop returns are the entries of the tree object. -/
theorem readEntries_ok {rawLength : Nat} : ∀ {fuel : Nat} {bytes : Bytes} {names : List Bytes} {entries : List Entry},
    readEntries rawLength fuel bytes names = .ok entries →
      Encodes rawLength bytes (rawEntries rawLength fuel bytes) ∧ entries = (rawEntries rawLength fuel bytes).map entryOf ∧
        (∀ e ∈ rawEntries rawLength fuel bytes, Accepted e) ∧ (entries.map (·.name)).Nodup ∧
        ∀ entry ∈ entries, entry.name ∉ names
  | 0, [], _, _, h => by
    cases h
    exact ⟨Snapshot.encodes_nil, rfl, nofun, List.nodup_nil, nofun⟩
  | fuel + 1, [], _, _, h => by
    cases h
    have hnil : rawEntries rawLength (fuel + 1) [] = [] := rfl
    rw [hnil]
    exact ⟨Snapshot.encodes_nil, rfl, nofun, List.nodup_nil, nofun⟩
  | 0, _ :: _, _, _, h => nomatch h
  | fuel + 1, byte :: bytes, names, entries, h => by
    obtain ⟨⟨entry, rest⟩, htake, h⟩ := bind_ok.1 h
    dsimp only at h
    split at h
    · cases h
    · rename_i hfresh
      obtain ⟨others, hothers, h⟩ := bind_ok.1 h
      cases h
      obtain ⟨e, hraw, rfl, haccepted⟩ := takeEntry_ok htake
      obtain ⟨hencodes, rfl, hall, hnodup, hapart⟩ := readEntries_ok hothers
      obtain ⟨hbytes, hmode, hname, hid⟩ := Snapshot.takeEntry_ok hraw
      have hcons : rawEntries rawLength (fuel + 1) (byte :: bytes) = e :: rawEntries rawLength fuel rest := by
        rw [rawEntries, hraw]
      rw [hcons, hbytes]
      refine ⟨hencodes.cons hmode hname hid, rfl, List.forall_mem_cons.2 ⟨haccepted, hall⟩, ?_, ?_⟩
      · refine List.nodup_cons.2 ⟨fun hmem => ?_, hnodup⟩
        obtain ⟨other, hother, hsame⟩ := List.mem_map.1 hmem
        exact hapart other hother (hsame ▸ List.mem_cons_self)
      · refine List.forall_mem_cons.2 ⟨by simpa using hfresh, fun other hother hmem => ?_⟩
        exact hapart other hother (List.mem_cons_of_mem _ hmem)

section ReadFacts

variable {d : Digest} {git : Repository} {tree objectId bytes : Bytes} {maximum : Nat}

/-- What a tree that is read was verified for. -/
structure TreeRead (d : Digest) (git : Repository) (tree bytes : Bytes) (listing : Listing) : Prop where
  hash : hashObject (d.digest git.objectFormat) .tree bytes = tree
  catFile : git.catFile .tree tree = some bytes
  encodes : Encodes (rawObjectIdLength git.objectFormat) bytes (treeEntries git tree)
  entries : listing.entries = (treeEntries git tree).map entryOf
  accepted : ∀ e ∈ treeEntries git tree, Accepted e
  nodup : (listing.entries.map (·.name)).Nodup

theorem readTree_ok {listing : Listing} (h : readTree d git tree maximum = .ok listing) :
    ∃ bytes, TreeRead d git tree bytes listing := by
  obtain ⟨bytes, hbytes, h⟩ := bind_ok.1 h
  obtain ⟨entries, hentries, h⟩ := bind_ok.1 h
  cases h
  obtain ⟨hfile, hhash, -⟩ := Snapshot.readVerifiedTreeBytes_ok hbytes
  have htree : treeEntries git tree = rawEntries (rawObjectIdLength git.objectFormat) bytes.length bytes := by
    rw [treeEntries, hfile]
  obtain ⟨hencodes, hmap, hall, hnodup, -⟩ := readEntries_ok hentries
  rw [← htree] at hencodes hmap hall
  exact ⟨bytes, hhash, hfile, hencodes, hmap, hall, hnodup⟩

/-- A blob that is read within a limit is read within a wider one. -/
theorem readBlob_mono {maximum' : Nat} (hle : maximum ≤ maximum') (h : readBlob d git objectId maximum = .ok bytes) :
    readBlob d git objectId maximum' = .ok bytes := by
  unfold readBlob readVerifiedBlobObject at h ⊢
  split at h
  · cases h
  · split at h
    · cases h
    · rename_i hsize
      rw [if_neg (fun hlt => hsize (Nat.lt_of_le_of_lt hle hlt))]
      exact h

end ReadFacts

end Dim.Candidate
