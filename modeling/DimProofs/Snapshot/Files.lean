/-
The directory of a root snapshot: a file system below one root, and the texts that are decoded from Git's bytes. A
decoded text is its UTF-8 bytes, which is what the file system is given.
-/
import DimProofs.Snapshot.Objects

namespace Dim.Snapshot

/-! ## Decoded texts -/

/-- The UTF-8 decoder: `needed` more bytes of a character, of which the next is between `lower` and `upper`. -/
def validUtf8 (needed : Nat) (lower upper : UInt8) : Bytes → Bool
  | [] => needed = 0
  | byte :: rest =>
    if needed = 0 then
      if byte ≤ 0x7F then validUtf8 0 0x80 0xBF rest
      else if 0xC2 ≤ byte && byte ≤ 0xDF then validUtf8 1 0x80 0xBF rest
      else if 0xE0 ≤ byte && byte ≤ 0xEF then
        validUtf8 2 (if byte = 0xE0 then 0xA0 else 0x80) (if byte = 0xED then 0x9F else 0xBF) rest
      else if 0xF0 ≤ byte && byte ≤ 0xF4 then
        validUtf8 3 (if byte = 0xF0 then 0x90 else 0x80) (if byte = 0xF4 then 0x8F else 0xBF) rest
      else false
    else if lower ≤ byte && byte ≤ upper then validUtf8 (needed - 1) 0x80 0xBF rest
    else false

/-- A decoder drops a byte order mark at the start. -/
def withoutMark : Bytes → Bytes
  | 0xEF :: 0xBB :: 0xBF :: rest => rest
  | bytes => bytes

/-- A text begins with a byte order mark. -/
def marked (bytes : Bytes) : Bool := [0xEF, 0xBB, 0xBF].isPrefixOf bytes

/-- `new TextDecoder("utf-8", ...).decode`. -/
def decodeUtf8 (bytes : Bytes) (message : String) : Except String Bytes :=
  if validUtf8 0 0x80 0xBF bytes then pure (withoutMark bytes) else throw message

theorem length_withoutMark (bytes : Bytes) : (withoutMark bytes).length = bytes.length - if marked bytes then 3 else 0 := by
  unfold withoutMark
  split
  · rename_i rest
    simp [marked]
  · rename_i hno
    have hmarked : marked bytes = false := by
      rw [Bool.eq_false_iff]
      intro h
      obtain ⟨rest, hrest⟩ := List.isPrefixOf_iff_prefix.1 h
      exact hno rest hrest.symm
    rw [hmarked]
    simp

theorem length_of_marked {bytes : Bytes} (h : marked bytes = true) : 3 ≤ bytes.length := by
  have hmark := List.isPrefixOf_iff_prefix.1 h
  exact hmark.length_le

/-- A text keeps its length only without a mark. -/
theorem length_withoutMark_lt {bytes : Bytes} (h : marked bytes = true) : (withoutMark bytes).length < bytes.length := by
  have hlength := length_of_marked h
  rw [length_withoutMark, if_pos h]
  omega

theorem length_withoutMark_le (bytes : Bytes) : (withoutMark bytes).length ≤ bytes.length := by
  rw [length_withoutMark]
  omega

theorem withoutMark_eq {bytes : Bytes} (h : marked bytes = false) : withoutMark bytes = bytes := by
  unfold withoutMark
  split
  · cases h
  · rfl

/-! ## The file system -/

/-- The names from the root to a file. -/
abbrev Path := List Bytes

/-- A name that the file system takes. -/
def legalName (name : Bytes) : Bool := name ≠ [] && !name.contains 0 && !name.contains slash

inductive Content where
  | directory
  | file (executable : Bool) (bytes : Bytes)
  | link (target : Bytes)
  | other
deriving DecidableEq

/-- What lies below a directory: no two files have one path. -/
structure FileTree where
  entries : List (Path × Content)
  distinct : (entries.map (·.1)).Nodup
  legal : ∀ entry ∈ entries, ∀ name ∈ entry.1, legalName name = true

namespace FileTree

instance : DecidableEq FileTree := fun fs fs' =>
  decidable_of_iff (fs.entries = fs'.entries) ⟨fun h => by cases fs; cases fs'; cases h; rfl, fun h => h ▸ rfl⟩

def empty : FileTree := ⟨[], List.nodup_nil, nofun⟩

def lookup (fs : FileTree) (path : Path) : Option Content := fs.entries.lookup path

/-- The last name of a path below `directory`, where it is directly below. -/
def below (directory path : Path) : Option Bytes :=
  match path.getLast? with
  | some name => if path = directory ++ [name] then some name else none
  | none => none

/-- The names in a directory. -/
def readdir (fs : FileTree) (directory : Path) : List Bytes := fs.entries.filterMap fun entry => below directory entry.1

/-- A file in a directory that exists, under a name that is free. -/
def add (fs : FileTree) (path : Path) (content : Content) : Option FileTree :=
  if h : path ∉ fs.entries.map (·.1) ∧ ∀ name ∈ path, legalName name = true then
    if path.dropLast = [] ∨ fs.lookup path.dropLast = some .directory then
      some {
        entries := fs.entries ++ [(path, content)]
        distinct := by
          rw [List.map_append, List.nodup_append]
          refine ⟨fs.distinct, List.nodup_singleton _, fun p hp q hq heq => ?_⟩
          obtain rfl : q = path := List.mem_singleton.1 hq
          exact h.1 (heq ▸ hp)
        legal := by
          intro entry hentry
          rcases List.mem_append.1 hentry with hold | hnew
          · exact fs.legal entry hold
          · rw [List.mem_singleton.1 hnew]
            exact h.2 }
    else none
  else none

variable {fs : FileTree} {path : Path} {content : Content}

theorem lookup_eq_some : fs.lookup path = some content ↔ (path, content) ∈ fs.entries := by
  constructor
  · intro h
    obtain ⟨l₁, l₂, hsplit, -⟩ := List.lookup_eq_some_iff.1 h
    rw [hsplit]
    exact List.mem_append_right _ List.mem_cons_self
  · intro h
    obtain ⟨l₁, l₂, hsplit⟩ := List.append_of_mem h
    refine List.lookup_eq_some_iff.2 ⟨l₁, l₂, hsplit, fun p hp => ?_⟩
    have hdistinct := fs.distinct
    rw [hsplit, List.map_append, List.nodup_append] at hdistinct
    have hne := hdistinct.2.2 p.1 (List.mem_map_of_mem hp) path (by simp)
    simpa using Ne.symm hne

theorem below_eq_some {directory : Path} {name : Bytes} : below directory path = some name ↔ path = directory ++ [name] := by
  unfold below
  constructor
  · intro h
    split at h
    · split at h
      · rename_i hpath
        cases h
        exact hpath
      · cases h
    · cases h
  · rintro rfl
    simp

theorem mem_readdir {directory : Path} {name : Bytes} :
    name ∈ fs.readdir directory ↔ ∃ content, (directory ++ [name], content) ∈ fs.entries := by
  rw [readdir, List.mem_filterMap]
  constructor
  · rintro ⟨⟨p, content⟩, hmem, hbelow⟩
    obtain rfl := below_eq_some.1 hbelow
    exact ⟨content, hmem⟩
  · rintro ⟨content, hmem⟩
    exact ⟨_, hmem, below_eq_some.2 rfl⟩

theorem nodup_readdir (directory : Path) : (fs.readdir directory).Nodup := by
  rw [readdir, List.Nodup, List.pairwise_filterMap]
  refine (List.pairwise_map.1 fs.distinct).imp fun hne name hname name' hname' heq => hne ?_
  rw [below_eq_some.1 hname, below_eq_some.1 hname', heq]

theorem add_eq_some {fs' : FileTree} (h : fs.add path content = some fs') :
    fs'.entries = fs.entries ++ [(path, content)] := by
  rw [add] at h
  split at h
  · split at h
    · cases h
      rfl
    · cases h
  · cases h

end FileTree

end Dim.Snapshot
