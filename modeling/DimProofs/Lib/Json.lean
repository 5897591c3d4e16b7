/-
The text `JSON.stringify` gives for strings, arrays and objects whose members are rendered
already. A string, and an object with fixed member names, is read back in one way only.
-/
import Mathlib

namespace Json

/-- The four lowercase hexadecimal digits of `\uXXXX`. -/
def unicodeEscape (c : Char) : String :=
  String.ofList ['\\', 'u', Nat.digitChar (c.toNat / 4096 % 16), Nat.digitChar (c.toNat / 256 % 16),
    Nat.digitChar (c.toNat / 16 % 16), Nat.digitChar (c.toNat % 16)]

/-- One character inside a JSON string. -/
def escape (c : Char) : String :=
  if c.toNat = 0x22 then "\\\""
  else if c.toNat = 0x5c then "\\\\"
  else if c.toNat = 0x08 then "\\b"
  else if c.toNat = 0x0c then "\\f"
  else if c.toNat = 0x0a then "\\n"
  else if c.toNat = 0x0d then "\\r"
  else if c.toNat = 0x09 then "\\t"
  else if c.toNat < 0x20 then unicodeEscape c
  else String.ofList [c]

def string (s : String) : String :=
  "\"" ++ String.join (s.toList.map escape) ++ "\""

def bool (b : Bool) : String := if b then "true" else "false"

def array (items : List String) : String :=
  "[" ++ String.intercalate "," items ++ "]"

/-- An object with its members in insertion order. -/
def object (members : List (String × String)) : String :=
  "\x7b" ++ String.intercalate "," (members.map fun m => string m.1 ++ ":" ++ m.2) ++ "\x7d"

example : object [("a", string "x\"y"), ("b", array ["1", "2"])] = "\x7b\"a\":\"x\\\"y\",\"b\":[1,2]\x7d" := by
  decide +kernel

/-! ## Unique reading -/

/-- The value of a hexadecimal digit. -/
def digitValue (c : Char) : Nat := if c.isDigit then c.toNat - 0x30 else c.toNat - 0x57

/-- Reads back one character of a string. -/
def unescape : List Char → Option (Char × List Char)
  | '\\' :: 'u' :: _ :: _ :: high :: low :: rest => some (Char.ofNat (16 * digitValue high + digitValue low), rest)
  | '\\' :: '"' :: rest => some ('"', rest)
  | '\\' :: '\\' :: rest => some ('\\', rest)
  | '\\' :: 'b' :: rest => some (Char.ofNat 0x08, rest)
  | '\\' :: 'f' :: rest => some (Char.ofNat 0x0c, rest)
  | '\\' :: 'n' :: rest => some (Char.ofNat 0x0a, rest)
  | '\\' :: 'r' :: rest => some (Char.ofNat 0x0d, rest)
  | '\\' :: 't' :: rest => some (Char.ofNat 0x09, rest)
  | '\\' :: _ => none
  | '"' :: _ => none
  | c :: rest => some (c, rest)
  | [] => none

theorem char_ofNat {c : Char} {n : Nat} (h : c.toNat = n) : c = Char.ofNat n := by
  subst h
  exact (Char.ofNat_toNat c).symm

theorem digitValue_control : ∀ n < 0x20,
    16 * digitValue (Nat.digitChar (n / 16 % 16)) + digitValue (Nat.digitChar (n % 16)) = n := by decide

theorem unescape_escape (c : Char) (rest : List Char) : unescape ((escape c).toList ++ rest) = some (c, rest) := by
  unfold escape
  iterate 7
    split
    · rename_i h; rw [char_ofNat h]; rfl
  split
  · rename_i h
    simp only [unicodeEscape, String.toList_ofList, List.cons_append, List.nil_append, unescape, digitValue_control _ h]
    rw [Char.ofNat_toNat]
  · rename_i hquote hback _ _ _ _ _ _
    simp only [String.toList_ofList, List.cons_append, List.nil_append]
    unfold unescape
    split <;> simp_all
/-- The two texts are equal whenever they begin the same text. -/
def Cancels (a b : String) : Prop := ∀ r r' : List Char, a.toList ++ r = b.toList ++ r' → a = b ∧ r = r'

theorem Cancels.refl (a : String) : Cancels a a := fun _ _ h => ⟨rfl, List.append_cancel_left h⟩

theorem escaped_cancels : ∀ (s t r r' : List Char),
    s.flatMap (fun c => (escape c).toList) ++ '"' :: r = t.flatMap (fun c => (escape c).toList) ++ '"' :: r' →
      s = t ∧ r = r'
  | [], [], r, r', h => by simpa using h
  | [], c :: t, r, r', h => by
    have hread := congrArg unescape h
    simp only [List.flatMap_nil, List.nil_append, List.flatMap_cons, List.append_assoc, unescape_escape] at hread
    cases hread
  | c :: s, [], r, r', h => by
    have hread := congrArg unescape h
    simp only [List.flatMap_nil, List.nil_append, List.flatMap_cons, List.append_assoc, unescape_escape] at hread
    cases hread
  | c :: s, d :: t, r, r', h => by
    have hread := congrArg unescape h
    simp only [List.flatMap_cons, List.append_assoc, unescape_escape, Option.some.injEq, Prod.mk.injEq] at hread
    obtain ⟨hst, hr⟩ := escaped_cancels s t r r' hread.2
    exact ⟨by rw [hread.1, hst], hr⟩

theorem string_toList (s : String) :
    (string s).toList = '"' :: (s.toList.flatMap fun c => (escape c).toList) ++ ['"'] := by
  simp [string, String.toList_join, List.flatMap_map]

/-- A string is read in one way. -/
theorem string_cancels (s t : String) : Cancels (string s) (string t) := by
  intro r r' h
  rw [string_toList, string_toList] at h
  simp only [List.cons_append, List.append_assoc, List.nil_append, List.cons.injEq, true_and] at h
  obtain ⟨hst, hr⟩ := escaped_cancels s.toList t.toList r r' h
  exact ⟨by rw [String.toList_inj.mp hst], hr⟩

@[simp] theorem string_inj {s t : String} : string s = string t ↔ s = t := by
  constructor
  · intro h
    rw [← String.toList_inj, string_toList, string_toList] at h
    simp only [List.cons_append, List.cons.injEq, true_and] at h
    exact String.toList_inj.mp (escaped_cancels s.toList t.toList [] [] h).1
  · rintro rfl
    rfl

variable {ms ms' : List (String × String)}

/-- The members of an object, when the names are fixed and each value is read in one way. -/
theorem members_cancel
    (h : List.Forall₂ (fun m m' => m.1 = m'.1 ∧ Cancels m.2 m'.2) ms ms') : ∀ r r' : List Char,
      (String.intercalate "," (ms.map fun m => string m.1 ++ ":" ++ m.2)).toList ++ r =
        (String.intercalate "," (ms'.map fun m => string m.1 ++ ":" ++ m.2)).toList ++ r' → ms = ms' ∧ r = r' := by
  induction h with
  | nil => intro r r' h; exact ⟨rfl, by simpa using h⟩
  | @cons m m' ms ms' hm hms ih =>
    obtain ⟨k, v⟩ := m
    obtain ⟨k', v'⟩ := m'
    obtain ⟨rfl, hv⟩ := hm
    have hmember : ∀ r r' : List Char, (string k ++ ":" ++ v).toList ++ r = (string k ++ ":" ++ v').toList ++ r' →
        v = v' ∧ r = r' := by
      intro r r' h
      simp only [String.toList_append, List.append_assoc] at h
      exact hv r r' (List.append_cancel_left (List.append_cancel_left h))
    intro r r' h
    cases hms with
    | nil =>
      obtain ⟨rfl, hr⟩ := hmember r r' (by simpa using h)
      exact ⟨rfl, hr⟩
    | @cons n n' ns ns' hn hns =>
      simp only [List.map_cons, String.intercalate_cons_cons, String.toList_append (t := String.intercalate _ _),
        String.toList_append (t := ","), List.append_assoc] at h
      obtain ⟨rfl, hrest⟩ := hmember _ _ h
      obtain ⟨htail, hr⟩ := ih r r' (List.append_cancel_left hrest)
      exact ⟨by rw [htail], hr⟩

/-- An object with fixed member names is read in one way. -/
theorem object_injective
    (h : List.Forall₂ (fun m m' => m.1 = m'.1 ∧ Cancels m.2 m'.2) ms ms') (ho : object ms = object ms') : ms = ms' := by
  have htext := congrArg String.toList ho
  simp only [object, String.toList_append, List.append_assoc] at htext
  exact (members_cancel h _ _ (List.append_cancel_left htext)).1

theorem intercalate_cons (separator first : String) {rest : List String} (h : rest ≠ []) :
    String.intercalate separator (first :: rest) = first ++ separator ++ String.intercalate separator rest := by
  obtain ⟨second, rest, rfl⟩ := List.exists_cons_of_ne_nil h
  exact String.intercalate_cons_cons

/-- The first members of an object, whatever members follow them. -/
theorem members_prefix {m m' : String × String} {rest rest' : List (String × String)}
    (h : List.Forall₂ (fun m m' => m.1 = m'.1 ∧ Cancels m.2 m'.2) ms ms') : ∀ r r' : List Char,
      (String.intercalate "," ((ms ++ m :: rest).map fun m => string m.1 ++ ":" ++ m.2)).toList ++ r =
        (String.intercalate "," ((ms' ++ m' :: rest').map fun m => string m.1 ++ ":" ++ m.2)).toList ++ r' →
          ms = ms' := by
  induction h with
  | nil => exact fun _ _ _ => rfl
  | @cons first first' ms ms' hfirst hms ih =>
    obtain ⟨k, v⟩ := first
    obtain ⟨k', v'⟩ := first'
    obtain ⟨rfl, hv⟩ := hfirst
    intro r r' h
    simp only [List.cons_append, List.map_cons] at h
    rw [intercalate_cons _ _ (by simp), intercalate_cons _ _ (by simp)] at h
    simp only [String.toList_append, List.append_assoc] at h
    obtain ⟨rfl, hrest⟩ := hv _ _ (List.append_cancel_left (List.append_cancel_left h))
    rw [ih r r' (List.append_cancel_left hrest)]

theorem object_prefix {ms ms' : List (String × String)} {m m' : String × String} {rest rest' : List (String × String)}
    (h : List.Forall₂ (fun m m' => m.1 = m'.1 ∧ Cancels m.2 m'.2) ms ms')
    (ho : object (ms ++ m :: rest) = object (ms' ++ m' :: rest')) : ms = ms' := by
  have htext := congrArg String.toList ho
  simp only [object, String.toList_append, List.append_assoc] at htext
  exact members_prefix h _ _ (List.append_cancel_left htext)

/-- The items of an array of strings. -/
theorem strings_cancel : ∀ (xs ys : List String) (r r' : List Char),
    (String.intercalate "," (xs.map string)).toList ++ ']' :: r = (String.intercalate "," (ys.map string)).toList ++
      ']' :: r' → xs = ys ∧ r = r' := by
  have hrest : ∀ (xs : List String) (x : String) (r : List Char),
      (String.intercalate "," ((x :: xs).map string)).toList ++ ']' :: r = (string x).toList ++
        (if xs = [] then ']' :: r else ',' :: ((String.intercalate "," (xs.map string)).toList ++ ']' :: r)) := by
    intro xs x r
    cases xs with
    | nil => simp
    | cons y xs =>
      rw [List.map_cons, intercalate_cons _ _ (by simp), if_neg (List.cons_ne_nil _ _)]
      simp
  have hempty : ∀ (xs : List String) (x : String) (r r' : List Char),
      (String.intercalate "," ((x :: xs).map string)).toList ++ ']' :: r ≠ ']' :: r' := by
    intro xs x r r' h
    rw [hrest, string_toList] at h
    cases h
  intro xs
  induction xs with
  | nil =>
    intro ys r r' h
    cases ys with
    | nil => exact ⟨rfl, by simpa using h⟩
    | cons y ys => exact absurd h.symm (hempty ys y r' r)
  | cons x xs ih =>
    intro ys r r' h
    cases ys with
    | nil => exact absurd h (hempty xs x r r')
    | cons y ys =>
      rw [hrest, hrest] at h
      obtain ⟨hxy, htail⟩ := string_cancels x y _ _ h
      rw [string_inj] at hxy
      subst hxy
      by_cases hxs : xs = [] <;> by_cases hys : ys = []
      · subst hxs
        subst hys
        exact ⟨rfl, by simpa using htail⟩
      · rw [if_pos hxs, if_neg hys] at htail
        cases htail
      · rw [if_neg hxs, if_pos hys] at htail
        cases htail
      · rw [if_neg hxs, if_neg hys] at htail
        obtain ⟨rfl, hr⟩ := ih ys r r' (List.cons.inj htail).2
        exact ⟨rfl, hr⟩

/-- An array of strings is read in one way. -/
theorem strings_cancels (xs ys : List String) : Cancels (array (xs.map string)) (array (ys.map string)) := by
  intro r r' h
  simp only [array, String.toList_append, List.append_assoc] at h
  obtain ⟨rfl, hr⟩ := strings_cancel xs ys r r' (List.append_cancel_left h)
  exact ⟨rfl, hr⟩

theorem strings_injective {xs ys : List String} (h : array (xs.map string) = array (ys.map string)) : xs = ys := by
  have htext := congrArg String.toList h
  simp only [array, String.toList_append, List.append_assoc] at htext
  exact (strings_cancel xs ys [] [] (List.append_cancel_left htext)).1

end Json
