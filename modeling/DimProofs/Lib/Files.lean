/-
Files and their names: inodes that count their links, directories that name inodes, and the system calls that
make, link, rename and remove names. A call either fails and changes nothing or is done as a whole.
-/
import Mathlib

namespace Files

inductive Kind where
  | regular
  | directory
  | symlink
  | special
deriving DecidableEq

structure Inode where
  kind : Kind
  (uid mode nlink : Nat)
  text : String

/-- The error codes that a caller tells apart, and those it only passes on. -/
inductive Errno where
  | alreadyExists
  | missing
  | other
deriving DecidableEq

/-- The directories `D` of one device. An inode number is a position in `inodes`, and is never used again. -/
structure FileSystem (D : Type) where
  inodes : List Inode
  entries : D → List (String × Nat)

namespace FileSystem

variable {D : Type}

def lookup (fs : FileSystem D) (d : D) (name : String) : Option Nat := (fs.entries d).lookup name

/-- The inode of a name. -/
def stat (fs : FileSystem D) (d : D) (name : String) : Option Inode := (fs.lookup d name).bind (fs.inodes[·]?)

/-- The text of the file under a name. -/
def read (fs : FileSystem D) (d : D) (name : String) : Option String := (fs.stat d name).map (·.text)

def modify (fs : FileSystem D) (ino : Nat) (f : Inode → Inode) : FileSystem D :=
  { fs with inodes := fs.inodes.modify ino f }

variable [DecidableEq D]

/-- Names in `d`, in `readdir` order. -/
def setEntries (fs : FileSystem D) (d : D) (names : List (String × Nat)) : FileSystem D :=
  { fs with entries := Function.update fs.entries d names }

/-- `open` with `O_CREAT | O_EXCL`. -/
def create (fs : FileSystem D) (d : D) (name : String) (uid mode : Nat) : Except Errno (Nat × FileSystem D) :=
  if (fs.lookup d name).isSome then .error .alreadyExists
  else
    let fs' := fs.setEntries d (fs.entries d ++ [(name, fs.inodes.length)])
    .ok (fs.inodes.length, { fs' with inodes := fs.inodes ++ [{ kind := .regular, uid, mode, nlink := 1, text := "" }] })

def remove (fs : FileSystem D) (d : D) (name : String) : FileSystem D :=
  fs.setEntries d ((fs.entries d).filter (·.1 ≠ name))

def link (fs : FileSystem D) (d : D) (name : String) (d' : D) (name' : String) : Except Errno (FileSystem D) :=
  match fs.lookup d name with
  | none => .error .missing
  | some ino =>
    if (fs.lookup d' name').isSome then .error .alreadyExists
    else .ok ((fs.setEntries d' (fs.entries d' ++ [(name', ino)])).modify ino fun i => { i with nlink := i.nlink + 1 })

def unlink (fs : FileSystem D) (d : D) (name : String) : Except Errno (FileSystem D) :=
  match fs.lookup d name with
  | none => .error .missing
  | some ino => .ok ((fs.remove d name).modify ino fun i => { i with nlink := i.nlink - 1 })

/-- A rename takes the name from the file that had it, unless both names are links of one file. -/
def rename (fs : FileSystem D) (d : D) (name : String) (d' : D) (name' : String) : Except Errno (FileSystem D) :=
  match fs.lookup d name with
  | none => .error .missing
  | some ino =>
    match fs.lookup d' name' with
    | none =>
      let fs := fs.remove d name
      .ok (fs.setEntries d' (fs.entries d' ++ [(name', ino)]))
    | some old =>
      if old = ino then .ok fs
      else
        let fs := (fs.remove d name).remove d' name'
        .ok ((fs.setEntries d' (fs.entries d' ++ [(name', ino)])).modify old fun i => { i with nlink := i.nlink - 1 })

/-! ## Names and inodes after a call -/

section
variable {fs fs' : FileSystem D} {d d' e : D} {name name' x : String} {ino : Nat}

section
omit [DecidableEq D]

@[simp] theorem lookup_modify (f : Inode → Inode) : (fs.modify ino f).lookup d x = fs.lookup d x := rfl

@[simp] theorem entries_modify (f : Inode → Inode) : (fs.modify ino f).entries = fs.entries := rfl

theorem inodes_modify (f : Inode → Inode) (k : Nat) :
    (fs.modify ino f).inodes[k]? = if ino = k then fs.inodes[k]?.map f else fs.inodes[k]? := by
  simp only [modify, List.getElem?_modify]
  split <;> simp

end

@[simp] theorem inodes_setEntries (names : List (String × Nat)) : (fs.setEntries d names).inodes = fs.inodes := rfl

@[simp] theorem entries_setEntries (names : List (String × Nat)) : (fs.setEntries d names).entries d = names := by
  simp [setEntries]

theorem entries_setEntries_ne {names : List (String × Nat)} (h : e ≠ d) :
    (fs.setEntries d names).entries e = fs.entries e := by
  simp [setEntries, h]

theorem lookup_setEntries_ne {names : List (String × Nat)} (h : e ≠ d) :
    (fs.setEntries d names).lookup e x = fs.lookup e x := by
  rw [lookup, entries_setEntries_ne h, lookup]

/-- A name that is added where it was missing. -/
theorem lookup_append (h : fs.lookup d name = none) :
    (fs.setEntries d (fs.entries d ++ [(name, ino)])).lookup d x = if x = name then some ino else fs.lookup d x := by
  rw [lookup, entries_setEntries, List.lookup_append]
  split
  · subst x
    rw [show List.lookup name (fs.entries d) = none from h]
    simp
  · rename_i hne
    simp [List.lookup, beq_false_of_ne hne, lookup]

omit [DecidableEq D] in
theorem lookup_filter_ne (names : List (String × Nat)) :
    (names.filter (·.1 ≠ name)).lookup x = if x = name then none else names.lookup x := by
  induction names with
  | nil => simp
  | cons entry rest ih =>
    obtain ⟨key, k⟩ := entry
    by_cases hkey : key = name
    · subst key
      rw [List.filter_cons_of_neg (by simp), ih]
      split
      · rfl
      · rename_i hne
        simp [List.lookup, beq_false_of_ne hne]
    · rw [List.filter_cons_of_pos (by simpa using hkey)]
      by_cases hx : x = key
      · subst x
        simp [List.lookup, hkey]
      · simpa [List.lookup, beq_false_of_ne hx] using ih

theorem lookup_remove : (fs.remove d name).lookup d x = if x = name then none else fs.lookup d x := by
  rw [lookup, remove, entries_setEntries]
  exact lookup_filter_ne _

theorem lookup_remove_ne (h : e ≠ d) : (fs.remove d name).lookup e x = fs.lookup e x := lookup_setEntries_ne h

end

end FileSystem

end Files
