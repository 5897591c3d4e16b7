/-
A flat directory: the entries of one directory by name, in the order they are listed. Putting an entry replaces the
one of that name; what a change says of other names is that it leaves them alone.
-/
import Mathlib

namespace Directory

variable {κ ν : Type} [DecidableEq κ]

/-- The entries without those under `name`. -/
def remove (name : κ) (entries : List (κ × ν)) : List (κ × ν) := entries.filter (·.1 ≠ name)

def put (name : κ) (value : ν) (entries : List (κ × ν)) : List (κ × ν) := remove name entries ++ [(name, value)]

variable [BEq κ] [LawfulBEq κ] {name other : κ} {value : ν} {entries : List (κ × ν)}

theorem lookup_remove : (remove name entries).lookup other = if other = name then none else entries.lookup other := by
  induction entries with
  | nil => simp [remove]
  | cons entry rest ih =>
    obtain ⟨key, v⟩ := entry
    rw [remove] at ih ⊢
    by_cases hkey : key = name
    · subst key
      rw [List.filter_cons_of_neg (by simp), ih]
      split
      · rfl
      · rename_i hne
        simp [List.lookup, beq_false_of_ne hne]
    · rw [List.filter_cons_of_pos (by simpa using hkey)]
      by_cases hother : other = key
      · subst other
        simp [List.lookup, hkey]
      · rw [List.lookup_cons, beq_false_of_ne hother, ih]
        simp [List.lookup_cons, beq_false_of_ne hother]

@[simp] theorem lookup_remove_self : (remove name entries).lookup name = none := by
  rw [lookup_remove, if_pos rfl]

theorem lookup_remove_ne (h : other ≠ name) : (remove name entries).lookup other = entries.lookup other := by
  rw [lookup_remove, if_neg h]

theorem lookup_put : (put name value entries).lookup other = if other = name then some value else entries.lookup other := by
  rw [put, List.lookup_append, lookup_remove]
  split
  · rename_i h
    simp [h]
  · rename_i h
    simp [List.lookup, beq_false_of_ne h]

@[simp] theorem lookup_put_self : (put name value entries).lookup name = some value := by
  rw [lookup_put, if_pos rfl]

theorem lookup_put_ne (h : other ≠ name) : (put name value entries).lookup other = entries.lookup other := by
  rw [lookup_put, if_neg h]

omit [DecidableEq κ] in
theorem mem_of_lookup (h : entries.lookup name = some value) : (name, value) ∈ entries := by
  obtain ⟨before, after, rfl, -⟩ := List.lookup_eq_some_iff.mp h
  simp

end Directory
