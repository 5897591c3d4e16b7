/-
The patterns that identifiers are checked against: fixed sequences of character classes, and words of a
bounded length whose first character is of one class and the others of another. A pattern whose classes are
narrower matches fewer texts, which is how one check implies another.
-/
import Mathlib

namespace Pattern

/-! ## Character classes -/

abbrev CharClass := Char → Bool

def within (low high : Char) : CharClass := fun c => low ≤ c && c ≤ high

def only (char : Char) : CharClass := fun c => c = char

def oneOf (chars : List Char) : CharClass := fun c => chars.contains c

def digit : CharClass := within '0' '9'

def lower : CharClass := within 'a' 'z'

def upper : CharClass := within 'A' 'Z'

/-- `[0-9a-f]`. -/
def hex : CharClass := fun c => digit c || within 'a' 'f' c

/-- `[A-Za-z0-9]`. -/
def alphanumeric : CharClass := fun c => upper c || lower c || digit c

/-- The class `p` is part of the class `q`. -/
def Narrows (p q : CharClass) : Prop := ∀ c, p c = true → q c = true

section
variable {p q r : CharClass}

theorem Narrows.refl (p : CharClass) : Narrows p p := fun _ h => h

theorem Narrows.left (h : Narrows p q) : Narrows p (fun c => q c || r c) := fun c hc => by simp [h c hc]

theorem Narrows.right (h : Narrows p r) : Narrows p (fun c => q c || r c) := fun c hc => by simp [h c hc]

theorem Narrows.or (h : Narrows p r) (h' : Narrows q r) : Narrows (fun c => p c || q c) r := by
  intro c hc
  rcases Bool.or_eq_true _ _ ▸ hc with hp | hq
  · exact h c hp
  · exact h' c hq

theorem Narrows.only {char : Char} (h : q char = true) : Narrows (only char) q := by
  intro c hc
  rw [of_decide_eq_true hc]
  exact h

theorem Narrows.within {low high low' high' : Char} (hlow : low' ≤ low) (hhigh : high ≤ high') :
    Narrows (within low high) (within low' high') := by
  intro c hc
  simp only [Pattern.within, Bool.and_eq_true, decide_eq_true_eq] at hc ⊢
  exact ⟨Char.le_trans hlow hc.1, Char.le_trans hc.2 hhigh⟩

theorem hex_alphanumeric : Narrows hex alphanumeric :=
  Narrows.or (Narrows.right (.refl digit))
    (Narrows.left (Narrows.right (Narrows.within (by decide) (by decide))))

end

/-! ## Patterns -/

/-- One character of each class. -/
def sequence : List CharClass → List Char → Bool
  | [], [] => true
  | p :: ps, c :: cs => p c && sequence ps cs
  | _, _ => false

/-- `^[first][rest]{0,max}$`. -/
def bounded (first rest : CharClass) (max : Nat) : List Char → Bool
  | [] => false
  | c :: cs => first c && cs.length ≤ max && cs.all rest

section
variable {first rest first' rest' : CharClass} {max max' : Nat}

theorem bounded_mono (hfirst : Narrows first first') (hrest : Narrows rest rest') (hmax : max ≤ max') :
    ∀ {cs : List Char}, bounded first rest max cs = true → bounded first' rest' max' cs = true
  | [], h => by cases h
  | c :: cs, h => by
    simp only [bounded, Bool.and_eq_true, decide_eq_true_eq] at h ⊢
    obtain ⟨⟨hc, hlength⟩, hall⟩ := h
    refine ⟨⟨hfirst c hc, Nat.le_trans hlength hmax⟩, ?_⟩
    rw [List.all_eq_true] at hall ⊢
    exact fun d hd => hrest d (hall d hd)

theorem sequence_all : ∀ {ps : List CharClass} {cs : List Char}, sequence ps cs = true → (∀ p ∈ ps, Narrows p rest) →
    cs.all rest = true ∧ cs.length = ps.length
  | [], [], _, _ => ⟨rfl, rfl⟩
  | [], _ :: _, h, _ => by cases h
  | _ :: _, [], h, _ => by cases h
  | p :: ps, c :: cs, h, hp => by
    simp only [sequence, Bool.and_eq_true] at h
    obtain ⟨hall, hlength⟩ := sequence_all h.2 fun q hq => hp q (List.mem_cons_of_mem p hq)
    constructor
    · rw [List.all_cons, hp p List.mem_cons_self c h.1, hall]
      rfl
    · rw [List.length_cons, List.length_cons, hlength]

theorem length_of_sequence {ps : List CharClass} {cs : List Char} (h : sequence ps cs = true) : cs.length = ps.length := by
  have hall : ∀ p ∈ ps, Narrows p fun _ => true := fun _ _ _ _ => rfl
  exact (sequence_all h hall).2

theorem sequence_append {qs : List CharClass} : ∀ {ps : List CharClass} {cs : List Char}, sequence (ps ++ qs) cs = true ↔
    ∃ a b, cs = a ++ b ∧ sequence ps a = true ∧ sequence qs b = true
  | [], cs => by
    constructor
    · intro h
      exact ⟨[], cs, rfl, rfl, h⟩
    · rintro ⟨a, b, rfl, ha, hb⟩
      cases a with
      | nil => exact hb
      | cons c a => cases ha
  | p :: ps, [] => by
    constructor
    · intro h
      cases h
    · rintro ⟨a, b, hab, ha, -⟩
      obtain ⟨rfl, rfl⟩ := List.append_eq_nil_iff.mp hab.symm
      cases ha
  | p :: ps, c :: cs => by
    simp only [List.cons_append, sequence, Bool.and_eq_true]
    rw [sequence_append]
    constructor
    · rintro ⟨hc, a, b, rfl, ha, hb⟩
      exact ⟨c :: a, b, rfl, by simp [sequence, hc, ha], hb⟩
    · rintro ⟨a, b, hab, ha, hb⟩
      cases a with
      | nil => cases ha
      | cons d a =>
        obtain ⟨rfl, rfl⟩ := List.cons.inj hab
        simp only [sequence, Bool.and_eq_true] at ha
        exact ⟨ha.1, a, b, rfl, ha.2, hb⟩

/-- The classes of a fixed text match that text. -/
theorem sequence_only : ∀ {text cs : List Char}, sequence (text.map only) cs = true ↔ cs = text
  | [], [] => by simp [sequence]
  | [], _ :: _ => by simp [sequence]
  | _ :: _, [] => by simp [sequence]
  | t :: text, c :: cs => by simp [sequence, only, sequence_only]

/-- A sequence of narrower classes is a bounded word. -/
theorem sequence_bounded {p : CharClass} {ps : List CharClass} (hfirst : Narrows p first) (hrest : ∀ q ∈ ps, Narrows q rest)
    (hmax : ps.length ≤ max) : ∀ {cs : List Char}, sequence (p :: ps) cs = true → bounded first rest max cs = true
  | [], h => by cases h
  | c :: cs, h => by
    simp only [sequence, Bool.and_eq_true] at h
    obtain ⟨hall, hlength⟩ := sequence_all h.2 hrest
    simp only [bounded, Bool.and_eq_true, decide_eq_true_eq]
    exact ⟨⟨hfirst c h.1, by omega⟩, hall⟩

end

/-! ## The patterns of identifiers -/

/-- `^[0-9a-f]{length}$`. -/
def hexString (length : Nat) (s : String) : Bool := sequence (List.replicate length hex) s.toList

/-- A UUID of version 4: `^[0-9a-f]{8}-[0-9a-f]{4}-4[0-9a-f]{3}-[89ab][0-9a-f]{3}-[0-9a-f]{12}$`. -/
def uuid (s : String) : Bool :=
  sequence (hex :: (List.replicate 7 hex ++ only '-' :: List.replicate 4 hex ++ only '-' :: only '4' :: List.replicate 3 hex
    ++ only '-' :: oneOf ['8', '9', 'a', 'b'] :: List.replicate 3 hex ++ only '-' :: List.replicate 12 hex)) s.toList

/-- `^sha256:[0-9a-f]{64}$`. -/
def digest (s : String) : Bool := sequence ("sha256:".toList.map only ++ List.replicate 64 hex) s.toList

/-- `[a-z0-9._-]`. -/
def identifierRest : CharClass := fun c => lower c || digit c || c = '.' || c = '_' || c = '-'

/-- `^[a-z0-9][a-z0-9._-]{0,127}$`. -/
def identifier (s : String) : Bool := bounded (fun c => lower c || digit c) identifierRest 127 s.toList

/-- `[A-Za-z0-9._-]`. -/
def generationRest : CharClass := fun c => alphanumeric c || c = '.' || c = '_' || c = '-'

/-- `^[A-Za-z0-9][A-Za-z0-9._-]{0,127}$`. -/
def generation (s : String) : Bool := bounded alphanumeric generationRest 127 s.toList

/-- `^[a-z][a-z0-9-]{0,62}$`. -/
def label (s : String) : Bool := bounded lower (fun c => lower c || digit c || c = '-') 62 s.toList

theorem alphanumeric_generationRest : Narrows alphanumeric generationRest :=
  Narrows.left (Narrows.left (Narrows.left (.refl alphanumeric)))

theorem generation_of_uuid {s : String} (h : uuid s = true) : generation s = true := by
  have hhex : Narrows hex generationRest := fun c hc => alphanumeric_generationRest c (hex_alphanumeric c hc)
  refine sequence_bounded hex_alphanumeric ?_ (by decide) h
  intro p hp
  simp only [List.mem_append, List.mem_cons, List.mem_replicate] at hp
  have hcases : p = hex ∨ p = only '-' ∨ p = only '4' ∨ p = oneOf ['8', '9', 'a', 'b'] := by tauto
  rcases hcases with rfl | rfl | rfl | rfl
  · exact hhex
  · exact Narrows.only (by decide)
  · exact Narrows.only (by decide)
  · intro c hc
    simp only [oneOf, List.contains_iff_mem, List.mem_cons, List.not_mem_nil, or_false] at hc
    rcases hc with rfl | rfl | rfl | rfl <;> decide

theorem identifier_of_label {s : String} (h : label s = true) : identifier s = true := by
  refine bounded_mono (Narrows.left (.refl lower)) ?_ (by decide) h
  intro c hc
  simp only [Bool.or_eq_true, decide_eq_true_eq] at hc
  simp only [identifierRest, Bool.or_eq_true, decide_eq_true_eq]
  tauto

/-! ## Texts of one byte a character -/

/-- The characters that UTF-8 encodes in one byte. -/
def ascii : CharClass := within (Char.ofNat 0) (Char.ofNat 127)

theorem utf8ByteSize_ascii (s : String) (h : s.toList.all ascii = true) : s.utf8ByteSize = s.length := by
  rw [← String.ofList_toList (s := s)]
  generalize s.toList = cs at h ⊢
  induction cs with
  | nil => rfl
  | cons c cs ih =>
    simp only [List.all_cons, Bool.and_eq_true] at h
    have hc : c.utf8Size = 1 := by
      rw [Char.utf8Size_eq_one_iff]
      simp only [ascii, within, Bool.and_eq_true, decide_eq_true_eq] at h
      exact h.1.2
    have hcons : String.ofList (c :: cs) = String.singleton c ++ String.ofList cs := by
      rw [← String.toList_inj]
      simp
    rw [hcons, String.utf8ByteSize_append, String.utf8ByteSize_singleton, hc, ih h.2]
    simp

/-- The characters of a UUID. -/
def uuidChar : CharClass := fun c => hex c || c = '-'

theorem uuidChar_ascii : Narrows uuidChar ascii :=
  Narrows.or (Narrows.or (Narrows.within (by decide) (by decide)) (Narrows.within (by decide) (by decide)))
    (Narrows.only (by decide))

theorem uuid_chars {s : String} (h : uuid s = true) : s.toList.all uuidChar = true ∧ s.toList.length = 36 := by
  refine sequence_all h ?_
  intro p hp
  simp only [List.mem_append, List.mem_cons, List.mem_replicate] at hp
  have hcases : p = hex ∨ p = only '-' ∨ p = only '4' ∨ p = oneOf ['8', '9', 'a', 'b'] := by tauto
  rcases hcases with rfl | rfl | rfl | rfl
  · exact Narrows.left (.refl hex)
  · exact Narrows.only (by decide)
  · exact Narrows.only (by decide)
  · intro c hc
    simp only [oneOf, List.contains_iff_mem, List.mem_cons, List.not_mem_nil, or_false] at hc
    rcases hc with rfl | rfl | rfl | rfl <;> decide

end Pattern
