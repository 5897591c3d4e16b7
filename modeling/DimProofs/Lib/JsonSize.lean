/-
How many bytes a JSON object takes, as a sum over its parts. Any size of texts that adds up does.
-/
import DimProofs.Lib.Json

namespace Json

/-- A size of texts that adds up. -/
structure Adds (size : String → Nat) : Prop where
  empty : size "" = 0
  append : ∀ a b, size (a ++ b) = size a + size b

theorem adds_utf8ByteSize : Adds String.utf8ByteSize := ⟨rfl, fun _ _ => String.utf8ByteSize_append⟩

section Adds

variable {size : String → Nat}

theorem Adds.intercalate (h : Adds size) (separator text : String) (texts : List String) :
    size (String.intercalate separator (text :: texts)) = size text + (texts.map fun t => size separator + size t).sum := by
  induction texts generalizing text with
  | nil => simp
  | cons next texts ih =>
    rw [String.intercalate_cons_cons, h.append, h.append, ih, List.map_cons, List.sum_cons]
    omega

/-- The bytes of an object's braces, names, colons and commas. -/
def frameBytes (size : String → Nat) (names : List String) : Nat :=
  size "\x7b" + size "\x7d" + (names.map fun name => size (Json.string name) + size ":").sum + (names.length - 1) * size ","

/-- An object: its frame and its values. -/
theorem Adds.object (h : Adds size) (members : List (String × String)) :
    size (object members) = frameBytes size (members.map Prod.fst) + (members.map fun m => size m.2).sum := by
  have hmember : ∀ m : String × String,
    size (Json.string m.1 ++ ":" ++ m.2) = size (Json.string m.1) + size ":" + size m.2 :=
    fun m => by rw [h.append, h.append]
  rw [Json.object, h.append, h.append]
  cases members with
  | nil =>
    simp only [frameBytes, List.map_nil, List.sum_nil, List.length_nil]
    have hnil : size (String.intercalate "," []) = 0 := h.empty
    omega
  | cons m members =>
    rw [List.map_cons, h.intercalate, List.map_map]
    have hsum : ∀ members : List (String × String),
        (members.map ((fun t => size "," + size t) ∘ fun m => Json.string m.1 ++ ":" ++ m.2)).sum =
          (members.map fun m => size (Json.string m.1) + size ":").sum + members.length * size "," +
            (members.map fun m => size m.2).sum := by
      intro members
      induction members with
      | nil => simp
      | cons m members ih =>
        simp only [List.map_cons, List.sum_cons, List.length_cons, Function.comp_apply, hmember, ih]
        rw [Nat.add_mul, Nat.one_mul]
        omega
    rw [hsum]
    simp only [frameBytes, List.map_cons, List.sum_cons, List.map_map, List.length_cons, List.length_map, hmember,
      Nat.add_sub_cancel, Function.comp_def]
    omega

end Adds

end Json
