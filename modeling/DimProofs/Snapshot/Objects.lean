/-
Git's tree objects as bytes: how an entry is encoded, that the encoding of a list of entries can be decoded in one way
only, the order of the entries, and the object ids. Object ids are their bytes, without the hexadecimal text.
-/
import Mathlib

namespace Dim.Snapshot

abbrev Bytes := List UInt8

/-- A text of ASCII characters. -/
def ascii (text : String) : Bytes := text.toList.map fun c => UInt8.ofNat c.toNat

def space : UInt8 := 0x20

def slash : UInt8 := 0x2F

inductive GitObjectFormat where
  | sha1
  | sha256
deriving DecidableEq

def rawObjectIdLength : GitObjectFormat → Nat
  | .sha1 => 20
  | .sha256 => 32

def objectFormatOf (objectId : Bytes) : Option GitObjectFormat :=
  if objectId.length = 20 then some .sha1 else if objectId.length = 32 then some .sha256 else none

/-- The types of objects that are hashed here. -/
inductive ObjectType where
  | blob
  | tree
deriving DecidableEq

def ObjectType.text : ObjectType → Bytes
  | .blob => ascii "blob"
  | .tree => ascii "tree"

/-- The modes of a `RootEntry`. -/
inductive Mode where
  | directory
  | regular
  | executable
  | link
deriving DecidableEq

def Mode.text : Mode → Bytes
  | .directory => ascii "40000"
  | .regular => ascii "100644"
  | .executable => ascii "100755"
  | .link => ascii "120000"

/-! ## Splitting at a byte -/

/-- What precedes the first `b`, and what follows it. -/
def splitAt? (b : UInt8) : Bytes → Option (Bytes × Bytes)
  | [] => none
  | c :: rest =>
    if c = b then some ([], rest)
    else match splitAt? b rest with
      | none => none
      | some (before, after) => some (c :: before, after)

theorem splitAt?_eq_some {b : UInt8} : ∀ {bytes before after : Bytes},
    splitAt? b bytes = some (before, after) → bytes = before ++ b :: after ∧ b ∉ before
  | [], _, _, h => nomatch h
  | c :: rest, before, after, h => by
    rw [splitAt?] at h
    split at h
    · rename_i hc
      cases h
      exact ⟨by rw [hc]; rfl, List.not_mem_nil⟩
    · rename_i hc
      split at h
      · cases h
      · rename_i before' after' hrest
        cases h
        obtain ⟨hbytes, hno⟩ := splitAt?_eq_some hrest
        refine ⟨by rw [hbytes]; rfl, fun hmem => ?_⟩
        rcases List.mem_cons.1 hmem with heq | hmem
        · exact hc heq.symm
        · exact hno hmem

theorem splitAt?_append {b : UInt8} {after : Bytes} : ∀ {before : Bytes}, b ∉ before →
    splitAt? b (before ++ b :: after) = some (before, after)
  | [], _ => by simp [splitAt?]
  | c :: before, h => by
    have hc : c ≠ b := fun heq => h (heq ▸ List.mem_cons_self)
    have hbefore : b ∉ before := fun hmem => h (List.mem_cons_of_mem _ hmem)
    rw [List.cons_append, splitAt?, if_neg hc, splitAt?_append hbefore]

/-- A part without `b` ends where the first `b` is. -/
theorem append_cons_injective {b : UInt8} {before before' after after' : Bytes}
    (h : before ++ b :: after = before' ++ b :: after')
    (hno : b ∉ before) (hno' : b ∉ before') : before = before' ∧ after = after' := by
  have hsplit := @splitAt?_append b after before hno
  rw [h, splitAt?_append hno'] at hsplit
  cases hsplit
  exact ⟨rfl, rfl⟩

/-! ## Tree entries -/

/-- An entry of a tree object, as its bytes. -/
structure TreeEntry where
  (mode name objectId : Bytes)
deriving DecidableEq

def encodeTreeEntry (entry : TreeEntry) : Bytes := entry.mode ++ space :: (entry.name ++ 0 :: entry.objectId)

def TreeEntry.directory (entry : TreeEntry) : Bool := entry.mode = Mode.directory.text

def sortName (entry : TreeEntry) : Bytes := if entry.directory then entry.name ++ [slash] else entry.name

/-- The bytes of a tree object that has these entries. -/
structure Encodes (rawLength : Nat) (bytes : Bytes) (entries : List TreeEntry) : Prop where
  bytes : bytes = entries.flatMap encodeTreeEntry
  modes : ∀ entry ∈ entries, space ∉ entry.mode
  names : ∀ entry ∈ entries, 0 ∉ entry.name
  objectIds : ∀ entry ∈ entries, entry.objectId.length = rawLength

variable {rawLength : Nat} {bytes : Bytes} {entry : TreeEntry} {entries entries' : List TreeEntry}

theorem encodes_nil : Encodes rawLength [] [] := ⟨rfl, nofun, nofun, nofun⟩

theorem Encodes.cons (h : Encodes rawLength bytes entries) (hmode : space ∉ entry.mode) (hname : 0 ∉ entry.name)
    (hid : entry.objectId.length = rawLength) : Encodes rawLength (encodeTreeEntry entry ++ bytes) (entry :: entries) := by
  refine ⟨by rw [h.bytes]; rfl, ?_, ?_, ?_⟩
  · exact List.forall_mem_cons.2 ⟨hmode, h.modes⟩
  · exact List.forall_mem_cons.2 ⟨hname, h.names⟩
  · exact List.forall_mem_cons.2 ⟨hid, h.objectIds⟩

theorem Encodes.tail (h : Encodes rawLength bytes (entry :: entries)) :
    Encodes rawLength (entries.flatMap encodeTreeEntry) entries :=
  ⟨rfl, fun e he => h.modes e (List.mem_cons_of_mem _ he), fun e he => h.names e (List.mem_cons_of_mem _ he),
    fun e he => h.objectIds e (List.mem_cons_of_mem _ he)⟩

theorem encodeTreeEntry_ne_nil : encodeTreeEntry entry ≠ [] := by simp [encodeTreeEntry]

/-- The first entry can be read back. -/
theorem encodeTreeEntry_injective {entry' : TreeEntry} {rest rest' : Bytes}
    (h : encodeTreeEntry entry ++ rest = encodeTreeEntry entry' ++ rest') (hmode : space ∉ entry.mode)
    (hmode' : space ∉ entry'.mode)
    (hname : 0 ∉ entry.name) (hname' : 0 ∉ entry'.name) (hid : entry.objectId.length = entry'.objectId.length) :
    entry = entry' ∧ rest = rest' := by
  simp only [encodeTreeEntry, List.append_assoc, List.cons_append] at h
  obtain ⟨hm, h⟩ := append_cons_injective h hmode hmode'
  obtain ⟨hn, h⟩ := append_cons_injective h hname hname'
  obtain ⟨hi, hrest⟩ := List.append_inj h hid
  refine ⟨?_, hrest⟩
  cases entry
  cases entry'
  simp_all

/-- A tree object has one list of entries. -/
theorem Encodes.unique : ∀ {entries entries' : List TreeEntry} {bytes : Bytes}, Encodes rawLength bytes entries →
    Encodes rawLength bytes entries' → entries = entries'
  | [], [], _, _, _ => rfl
  | [], e :: rest, _, h, h' => by
    have hbytes := h.bytes.symm.trans h'.bytes
    rw [List.flatMap_nil, List.flatMap_cons] at hbytes
    exact absurd (List.append_eq_nil_iff.1 hbytes.symm).1 encodeTreeEntry_ne_nil
  | e :: rest, [], _, h, h' => by
    have hbytes := h'.bytes.symm.trans h.bytes
    rw [List.flatMap_nil, List.flatMap_cons] at hbytes
    exact absurd (List.append_eq_nil_iff.1 hbytes.symm).1 encodeTreeEntry_ne_nil
  | e :: rest, e' :: rest', _, h, h' => by
    have hbytes := h.bytes.symm.trans h'.bytes
    rw [List.flatMap_cons, List.flatMap_cons] at hbytes
    have hhead : e ∈ e :: rest := List.mem_cons_self
    have hhead' : e' ∈ e' :: rest' := List.mem_cons_self
    obtain ⟨he, hrest⟩ := encodeTreeEntry_injective hbytes (h.modes e hhead) (h'.modes e' hhead') (h.names e hhead)
      (h'.names e' hhead') ((h.objectIds e hhead).trans (h'.objectIds e' hhead').symm)
    rw [he, h.tail.unique (hrest ▸ h'.tail)]

/-- The number of bytes of an entry. -/
theorem length_encodeTreeEntry (hid : entry.objectId.length = rawLength) :
    (encodeTreeEntry entry).length = entry.mode.length + entry.name.length + rawLength + 2 := by
  simp only [encodeTreeEntry, List.length_append, List.length_cons, hid]
  omega

/-! ## Order -/

/-- The order of a directory's entries. -/
def before (left right : TreeEntry) : Bool := decide (sortName left ≤ sortName right)

/-- `entries.sort`. -/
def sortEntries (entries : List TreeEntry) : List TreeEntry := entries.insertionSort fun left right => before left right

theorem sortEntries_perm (entries : List TreeEntry) : (sortEntries entries).Perm entries := List.perm_insertionSort _ _

/-- Entries that are in order have one arrangement that is. -/
theorem sortEntries_eq (h : entries.Perm entries')
    (hsorted : entries'.Pairwise fun left right => sortName left < sortName right) :
    sortEntries entries = entries' := by
  have htotal : Std.Total fun left right : TreeEntry => before left right = true :=
    ⟨fun left right => by simpa [before] using List.le_total (sortName left) (sortName right)⟩
  have htrans : IsTrans TreeEntry fun left right => before left right = true :=
    ⟨fun a b c hab hbc => by simp only [before, decide_eq_true_eq] at *; exact List.le_trans hab hbc⟩
  have hperm : (sortEntries entries).Perm entries' := (sortEntries_perm entries).trans h
  have hinjective : ∀ a ∈ entries', ∀ b ∈ entries', sortName a = sortName b → a = b := by
    refine fun a ha b hb => List.inj_on_of_nodup_map (List.pairwise_map.2 (hsorted.imp fun hlt heq => ?_)) ha hb
    rw [heq] at hlt
    exact List.lt_irrefl _ hlt
  refine List.Perm.eq_of_pairwise (fun a b ha hb hab hba => ?_) (List.pairwise_insertionSort _ entries)
    (hsorted.imp fun hlt => ?_) hperm
  · simp only [before, decide_eq_true_eq] at hab hba
    exact hinjective a (hperm.mem_iff.1 ha) b hb (List.le_antisymm hab hba)
  · simp only [before, decide_eq_true_eq]
    exact List.le_of_lt hlt

/-! ## Object ids -/

/-- `hashObject`, before the digest is taken. -/
def objectBytes (type : ObjectType) (bytes : Bytes) : Bytes :=
  type.text ++ space :: (ascii (toString bytes.length) ++ 0 :: bytes)

def hashObject (digest : Bytes → Bytes) (type : ObjectType) (bytes : Bytes) : Bytes := digest (objectBytes type bytes)

theorem space_notMem_type (type : ObjectType) : space ∉ type.text := by cases type <;> decide

theorem digit_ne_zero {c : Char} (h : c.isDigit = true) : UInt8.ofNat c.toNat ≠ 0 := by
  simp only [Char.isDigit, Bool.and_eq_true, decide_eq_true_eq, UInt32.le_iff_toNat_le] at h
  have hbound : 48 ≤ c.toNat ∧ c.toNat ≤ 57 := h
  intro hzero
  have hnat := congrArg UInt8.toNat hzero
  simp only [UInt8.toNat_ofNat'] at hnat
  have : c.toNat % 2 ^ 8 = c.toNat := Nat.mod_eq_of_lt (by omega)
  have hz : (0 : UInt8).toNat = 0 := rfl
  omega

theorem zero_notMem_digits (n : Nat) : (0 : UInt8) ∉ ascii (toString n) := by
  rw [ascii, List.mem_map]
  rintro ⟨c, hc, hzero⟩
  rw [Nat.toString_eq_ofList_toDigits] at hc
  have hdigit : c ∈ Nat.toDigits 10 n := by simpa using hc
  exact digit_ne_zero (Nat.isDigit_of_mem_toDigits (by decide) (by decide) hdigit) hzero

/-- An object is told by the bytes that are hashed. -/
theorem objectBytes_injective {type type' : ObjectType} {bytes bytes' : Bytes}
    (h : objectBytes type bytes = objectBytes type' bytes') : type = type' ∧ bytes = bytes' := by
  obtain ⟨htype, hrest⟩ := append_cons_injective h (space_notMem_type type) (space_notMem_type type')
  obtain ⟨-, hbytes⟩ := append_cons_injective hrest (zero_notMem_digits _) (zero_notMem_digits _)
  refine ⟨?_, hbytes⟩
  cases type <;> cases type' <;> first | rfl | exact absurd htype (by decide)

end Dim.Snapshot
