/-
Prefixes that end in a doubled separator: where such a prefix of a text can end, when the text is put
together from parts that do not end in the separator themselves.
-/
import Mathlib

namespace Separator

variable {α : Type} {d : α} {u v w : List α}

/-- A doubled separator ends within the first part, or the first part is passed over. -/
theorem prefix_cases (h : u ++ [d, d] <+: w ++ v) (hlast : w.getLast? ≠ some d) :
    u ++ [d, d] <+: w ∨ ∃ u', u = w ++ u' ∧ u' ++ [d, d] <+: v := by
  obtain ⟨t, ht⟩ := h
  rcases List.append_eq_append_iff.mp ht with ⟨z, hw, -⟩ | ⟨z, hu, hv⟩
  · exact Or.inl ⟨z, hw.symm⟩
  · rcases List.eq_nil_or_concat z with rfl | ⟨z, e, rfl⟩
    · refine absurd ?_ hlast
      rw [List.append_nil] at hu
      rw [← hu]
      simp
    have hu' : (u ++ [d]) ++ [d] = (w ++ z) ++ [e] := by simpa using hu
    obtain ⟨hu₁, he⟩ := List.append_inj' hu' rfl
    obtain rfl : d = e := by simpa using he
    rcases List.eq_nil_or_concat z with rfl | ⟨z, e, rfl⟩
    · refine absurd ?_ hlast
      rw [List.append_nil] at hu₁
      rw [← hu₁]
      simp
    have hu'' : u ++ [d] = (w ++ z) ++ [e] := by simpa using hu₁
    obtain ⟨rfl, he⟩ := List.append_inj' hu'' rfl
    obtain rfl : d = e := by simpa using he
    exact Or.inr ⟨z, rfl, ⟨t, by simp [hv]⟩⟩

/-- No doubled separator ends past a part whose rest holds none and does not begin with the separator. -/
theorem prefix_of_free (h : u ++ [d, d] <+: w ++ v) (hfree : ¬ [d, d] <:+: v) (hhead : v.head? ≠ some d) :
    u ++ [d, d] <+: w := by
  obtain ⟨t, ht⟩ := h
  rcases List.append_eq_append_iff.mp ht with ⟨z, hw, -⟩ | ⟨z, hu, hv⟩
  · exact ⟨z, hw.symm⟩
  · rcases List.eq_nil_or_concat z with rfl | ⟨z, e, rfl⟩
    · exact ⟨[], by simpa using hu⟩
    have hu' : (u ++ [d]) ++ [d] = (w ++ z) ++ [e] := by simpa using hu
    obtain ⟨hu₁, he⟩ := List.append_inj' hu' rfl
    obtain rfl : d = e := by simpa using he
    rcases List.eq_nil_or_concat z with rfl | ⟨z, e, rfl⟩
    · exact absurd (by simp [hv]) hhead
    have hu'' : u ++ [d] = (w ++ z) ++ [e] := by simpa using hu₁
    obtain ⟨-, he⟩ := List.append_inj' hu'' rfl
    obtain rfl : d = e := by simpa using he
    exact absurd ⟨z, t, by simp [hv]⟩ hfree

/-- A doubled separator after one separator, when the rest does not begin with it. -/
theorem prefix_cons (h : u ++ [d, d] <+: d :: v) (hhead : v.head? ≠ some d) :
    ∃ u', u = d :: u' ∧ u' ++ [d, d] <+: v := by
  cases u with
  | nil =>
    obtain ⟨t, ht⟩ := h
    refine absurd ?_ hhead
    have hv : d :: t = v := by simpa using ht
    rw [← hv]
    rfl
  | cons c u =>
    rw [List.cons_append, List.cons_prefix_cons] at h
    exact ⟨u, by rw [h.1], h.2⟩

theorem not_prefix_of_not_mem (h : d ∉ v) : ¬ u ++ [d, d] <+: v := by
  rintro ⟨t, rfl⟩
  simp at h

end Separator
