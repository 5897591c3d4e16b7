/-
Texts as sequences of UTF-16 code units: how JavaScript measures strings, and orders them. A text is determined by its
code units, so that sorting by them gives one result for every order of the same texts.
-/
import Mathlib

namespace Utf16

/-- The code units of a character: one, or a surrogate pair. -/
def encode (c : Char) : List Nat :=
  if c.toNat < 0x10000 then [c.toNat] else [0xd800 + (c.toNat - 0x10000) / 0x400, 0xdc00 + (c.toNat - 0x10000) % 0x400]

def units (text : List Char) : List Nat := text.flatMap encode

/-- `text.length`. -/
def length (text : List Char) : Nat := (units text).length

/-- `a <= b`. -/
def Le (a b : List Char) : Prop := units a ≤ units b

instance : DecidableRel Le := fun a b => inferInstanceAs (Decidable (units a ≤ units b))

@[simp] theorem units_nil : units [] = [] := rfl

@[simp] theorem units_cons (c : Char) (text : List Char) : units (c :: text) = encode c ++ units text := rfl

/-- A character is no surrogate. -/
theorem toNat_valid (c : Char) : c.toNat < 0xd800 ∨ (0xdfff < c.toNat ∧ c.toNat < 0x110000) := by
  rcases c.valid with h | ⟨h, h'⟩
  · exact .inl h
  · exact .inr ⟨h, h'⟩

/-- A character is read back from its code units, whatever follows them. -/
theorem encode_cancels {c d : Char} {rest rest' : List Nat} (h : encode c ++ rest = encode d ++ rest') :
    c = d ∧ rest = rest' := by
  have hc := toNat_valid c
  have hd := toNat_valid d
  unfold encode at h
  split at h <;> split at h <;> simp only [List.cons_append, List.nil_append, List.cons.injEq] at h
  · exact ⟨Char.toNat_inj.mp h.1, h.2⟩
  · omega
  · omega
  · refine ⟨Char.toNat_inj.mp ?_, h.2.2⟩
    omega

theorem units_injective : Function.Injective units
  | [], [], _ => rfl
  | [], d :: b, h => by
    have hlength := congrArg List.length h
    rw [units_nil, units_cons] at hlength
    unfold encode at hlength
    split at hlength <;> simp at hlength
  | c :: a, [], h => by
    have hlength := congrArg List.length h
    rw [units_nil, units_cons] at hlength
    unfold encode at hlength
    split at hlength <;> simp at hlength
  | c :: a, d :: b, h => by
    obtain ⟨rfl, hrest⟩ := encode_cancels h
    rw [units_injective hrest]

section Order

variable {a b c : List Char}

theorem Le.trans (h : Le a b) (h' : Le b c) : Le a c := le_trans h h'

theorem Le.antisymm (h : Le a b) (h' : Le b a) : a = b := units_injective (le_antisymm h h')

theorem Le.total (a b : List Char) : Le a b ∨ Le b a := le_total (units a) (units b)

end Order

/-! ## Sorting -/

section Sorting

variable {α : Type} (key : α → List Char)

/-- A comparison by the texts of a key. -/
def By (a b : α) : Prop := Le (key a) (key b)

instance : DecidableRel (By key) := fun a b => inferInstanceAs (Decidable (Le (key a) (key b)))

instance : Std.Total (By key) := ⟨fun a b => Le.total (key a) (key b)⟩

instance : IsTrans α (By key) := ⟨fun _ _ _ => Le.trans⟩

/-- `[...items].sort(...)`, by the texts of a key. -/
def sortBy (items : List α) : List α := items.insertionSort (By key)

theorem sortBy_perm (items : List α) : (sortBy key items).Perm items := List.perm_insertionSort _ items

variable {key} {items items' : List α}

@[simp] theorem mem_sortBy {a : α} : a ∈ sortBy key items ↔ a ∈ items := (sortBy_perm key items).mem_iff

@[simp] theorem length_sortBy : (sortBy key items).length = items.length := (sortBy_perm key items).length_eq

/-- Where the key tells the items apart, the same items are sorted into the same list. -/
theorem sortBy_eq_of_perm (h : items.Perm items') (hkey : ∀ a ∈ items, ∀ b ∈ items, key a = key b → a = b) :
    sortBy key items = sortBy key items' := by
  have hperm : (sortBy key items).Perm (sortBy key items') :=
    ((sortBy_perm key items).trans h).trans (sortBy_perm key items').symm
  refine hperm.eq_of_pairwise (fun a b ha hb hab hba => ?_) (List.pairwise_insertionSort _ _)
    (List.pairwise_insertionSort _ _)
  exact hkey a (mem_sortBy.mp ha) b (h.mem_iff.mpr (mem_sortBy.mp hb)) (Le.antisymm hab hba)

/-- Sorting what is sorted changes nothing. -/
theorem sortBy_sortBy (hkey : ∀ a ∈ items, ∀ b ∈ items, key a = key b → a = b) :
    sortBy key (sortBy key items) = sortBy key items :=
  (sortBy_eq_of_perm (sortBy_perm key items).symm hkey).symm

end Sorting

end Utf16
