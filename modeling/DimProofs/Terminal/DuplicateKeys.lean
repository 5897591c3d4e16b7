/-
`hasDuplicateJsonKeys`: one pass over a JSON text with a stack of the open objects and arrays, against the grammar of
JSON. Texts are sequences of UTF-16 code units, as JavaScript reads them. The proof follows the derivation of a text:
scanning what a value was read from either finds a repeated key in it or leaves the stack as it was.
-/
import Mathlib

namespace Dim.ControlPlaneJson

abbrev Text := List UInt16

/-- The code unit of an ASCII character. -/
def unit (c : Char) : UInt16 := c.toNat.toUInt16

/-! ## The grammar -/

def whitespace (c : UInt16) : Bool := c = unit ' ' || c = unit '\t' || c = unit '\n' || c = unit '\r'

def digit (c : UInt16) : Bool := unit '0' ≤ c && c ≤ unit '9'

def hexDigit (c : UInt16) : Option UInt16 :=
  if digit c then some (c - unit '0')
  else if unit 'a' ≤ c && c ≤ unit 'f' then some (c - unit 'a' + 10)
  else if unit 'A' ≤ c && c ≤ unit 'F' then some (c - unit 'A' + 10)
  else none

/-- What a backslash and one more character stand for. -/
def escaped (c : UInt16) : Option UInt16 :=
  if c = unit '"' ∨ c = unit '\\' ∨ c = unit '/' then some c
  else if c = unit 'b' then some 8
  else if c = unit 'f' then some 12
  else if c = unit 'n' then some 10
  else if c = unit 'r' then some 13
  else if c = unit 't' then some 9
  else none

/-- What is written for one code unit of a string. -/
inductive Piece : Text → UInt16 → Prop
  | plain {c : UInt16} (hcontrol : 0x20 ≤ c) (hquote : c ≠ unit '"') (hslash : c ≠ unit '\\') : Piece [c] c
  | escape {e v : UInt16} (h : escaped e = some v) : Piece [unit '\\', e] v
  | hex {a b c d w x y z : UInt16} (ha : hexDigit a = some w) (hb : hexDigit b = some x) (hc : hexDigit c = some y)
      (hd : hexDigit d = some z) : Piece [unit '\\', unit 'u', a, b, c, d] (((w * 16 + x) * 16 + y) * 16 + z)

/-- What is written between the quotes of a string. -/
inductive Body : Text → Text → Prop
  | nil : Body [] []
  | cons {piece raw text : Text} {v : UInt16} (h : Piece piece v) (hbody : Body raw text) : Body (piece ++ raw) (v :: text)

/-- The integer part of a number. -/
def Integer (t : Text) : Prop :=
  t = [unit '0'] ∨ ∃ first rest, t = first :: rest ∧ first ≠ unit '0' ∧ t.all digit

def Digits (t : Text) : Prop := t ≠ [] ∧ t.all digit

def Number (t : Text) : Prop :=
  ∃ minus integer fraction exponent, t = minus ++ integer ++ fraction ++ exponent ∧ (minus = [] ∨ minus = [unit '-'])
    ∧ Integer integer ∧ (fraction = [] ∨ ∃ digits, fraction = unit '.' :: digits ∧ Digits digits)
    ∧ (exponent = [] ∨ ∃ e sign digits, exponent = e :: sign ++ digits ∧ (e = unit 'e' ∨ e = unit 'E')
      ∧ (sign = [] ∨ sign = [unit '+'] ∨ sign = [unit '-']) ∧ Digits digits)

def Literal (t : Text) : Prop :=
  t = "true".toList.map unit ∨ t = "false".toList.map unit ∨ t = "null".toList.map unit

inductive Value where
  | scalar (text : Text)
  | string (text : Text)
  | array (items : List Value)
  | object (members : List (Text × Value))

def Space (t : Text) : Prop := t.all whitespace

/-- A string with its quotes. -/
def quoted (raw : Text) : Text := unit '"' :: raw ++ [unit '"']

mutual

/-- The texts that a value is parsed from. -/
inductive Parses : Text → Value → Prop
  | scalar {t : Text} (h : Number t ∨ Literal t) : Parses t (.scalar t)
  | string {raw text : Text} (h : Body raw text) : Parses (quoted raw) (.string text)
  | noItems {space : Text} (h : Space space) : Parses (unit '[' :: space ++ [unit ']']) (.array [])
  | array {t : Text} {items : List Value} (h : Items t items) : Parses (unit '[' :: t ++ [unit ']']) (.array items)
  | noMembers {space : Text} (h : Space space) : Parses (unit '{' :: space ++ [unit '}']) (.object [])
  | object {t : Text} {members : List (Text × Value)} (h : Members t members) :
      Parses (unit '{' :: t ++ [unit '}']) (.object members)

inductive Items : Text → List Value → Prop
  | one {before t after : Text} {value : Value} (hbefore : Space before) (h : Parses t value) (hafter : Space after) :
      Items (before ++ t ++ after) [value]
  | more {before t after rest : Text} {value : Value} {items : List Value} (hbefore : Space before) (h : Parses t value)
      (hafter : Space after) (hrest : Items rest items) : Items (before ++ t ++ after ++ unit ',' :: rest) (value :: items)

inductive Members : Text → List (Text × Value) → Prop
  | one {before raw key between space t after : Text} {value : Value} (hbefore : Space before) (hkey : Body raw key)
      (hbetween : Space between) (hspace : Space space) (h : Parses t value) (hafter : Space after) :
      Members (before ++ quoted raw ++ between ++ unit ':' :: space ++ t ++ after) [(key, value)]
  | more {before raw key between space t after rest : Text} {value : Value} {members : List (Text × Value)}
      (hbefore : Space before) (hkey : Body raw key) (hbetween : Space between) (hspace : Space space) (h : Parses t value)
      (hafter : Space after) (hrest : Members rest members) :
      Members (before ++ quoted raw ++ between ++ unit ':' :: space ++ t ++ after ++ unit ',' :: rest)
        ((key, value) :: members)

end

/-- `JSON.parse` accepts the text. -/
def Accepts (text : Text) (value : Value) : Prop :=
  ∃ before t after, text = before ++ t ++ after ∧ Space before ∧ Parses t value ∧ Space after

/-- Some object in the value has two members of one key. -/
inductive Repeats : Value → Prop
  | here {members : List (Text × Value)} (h : ¬ (members.map Prod.fst).Nodup) : Repeats (.object members)
  | member {members : List (Text × Value)} {key : Text} {value : Value} (hmem : (key, value) ∈ members) (h : Repeats value) :
      Repeats (.object members)
  | item {items : List Value} {value : Value} (hmem : value ∈ items) (h : Repeats value) : Repeats (.array items)

/-! ## The scanner -/

/-- An open object with the keys it had so far, or an open array. -/
structure Frame where
  keys : Option (List Text)
  keyExpected : Bool

/-- What is up to the closing quote of a string, and what follows it. -/
def stringEnd : Text → Option (Text × Text)
  | [] => none
  | c :: rest =>
    if c = unit '\\' then
      match rest with
      | [] => none
      | e :: rest => (stringEnd rest).map fun (raw, after) => (c :: e :: raw, after)
    else if c = unit '"' then some ([], rest)
    else (stringEnd rest).map fun (raw, after) => (c :: raw, after)

/-- `JSON.parse` of a string between its quotes. -/
def parseString : Text → Option Text
  | [] => some []
  | c :: rest =>
    if c = unit '\\' then
      match rest with
      | [] => none
      | e :: rest =>
        if e = unit 'u' then
          match rest with
          | a :: b :: c :: d :: rest => do
            let v := (((← hexDigit a) * 16 + (← hexDigit b)) * 16 + (← hexDigit c)) * 16 + (← hexDigit d)
            return v :: (← parseString rest)
          | _ => none
        else do return (← escaped e) :: (← parseString rest)
    else if c < 0x20 ∨ c = unit '"' then none
    else do return c :: (← parseString rest)

theorem length_stringEnd {t raw after : Text} (h : stringEnd t = some (raw, after)) : after.length < t.length := by
  fun_induction stringEnd t generalizing raw after with
  | case1 => cases h
  | case2 => cases h
  | case3 e rest ih =>
    obtain ⟨⟨raw', after'⟩, hend, heq⟩ := Option.map_eq_some_iff.mp h
    cases heq
    have := ih hend
    simp only [List.length_cons]
    omega
  | case4 rest =>
    cases h
    exact Nat.lt_succ_self _
  | case5 c rest hc hquote ih =>
    obtain ⟨⟨raw', after'⟩, hend, heq⟩ := Option.map_eq_some_iff.mp h
    cases heq
    have := ih hend
    simp only [List.length_cons]
    omega

/-- A comma in an object is followed by a key. -/
def expectKey : List Frame → List Frame
  | ⟨some keys, _⟩ :: below => ⟨some keys, true⟩ :: below
  | stack => stack

/-- A string of the text: the loop ends with an answer, or goes on after the string. Nothing is answered where
`JSON.parse` of a key throws. -/
def readString (rest : Text) (stack : List Frame) : Except (Option Bool) (Text × List Frame) :=
  match stack, stringEnd rest with
  | ⟨some keys, true⟩ :: below, some (raw, after) =>
    match parseString raw with
    | none => .error none
    | some key =>
      if key ∈ keys then .error (some true) else .ok (after, ⟨some (key :: keys), false⟩ :: below)
  | ⟨some _, true⟩ :: _, none => .error none
  | stack, some (_, after) => .ok (after, stack)
  | _, none => .error (some false)

theorem length_readString {rest after : Text} {stack stack' : List Frame} (h : readString rest stack = .ok (after, stack')) :
    after.length < rest.length := by
  unfold readString at h
  split at h
  · rename_i hend
    split at h
    · cases h
    · split at h
      · cases h
      · cases h
        exact length_stringEnd hend
  · cases h
  · rename_i hend
    cases h
    exact length_stringEnd hend
  · cases h

/-- The loop, from one place of the text on. -/
def scan (text : Text) (stack : List Frame) : Option Bool :=
  match text with
  | [] => some false
  | c :: rest =>
    if c = unit '{' then scan rest (⟨some [], true⟩ :: stack)
    else if c = unit '[' then scan rest (⟨none, false⟩ :: stack)
    else if c = unit '}' ∨ c = unit ']' then scan rest stack.tail
    else if c = unit ',' then scan rest (expectKey stack)
    else if c = unit '"' then
      match h : readString rest stack with
      | .error answer => answer
      | .ok (after, stack') =>
        have := length_readString h
        scan after stack'
    else scan rest stack
termination_by text.length

def hasDuplicateJsonKeys (text : Text) : Option Bool := scan text []

/-! ## What the scanner passes over -/

def structural (c : UInt16) : Bool :=
  c = unit '{' || c = unit '[' || c = unit '}' || c = unit ']' || c = unit ',' || c = unit '"'

theorem structural_cases {c : UInt16} (h : structural c = true) :
    c = unit '{' ∨ c = unit '[' ∨ c = unit '}' ∨ c = unit ']' ∨ c = unit ',' ∨ c = unit '"' := by
  simpa [structural, or_assoc] using h

theorem structural_of_whitespace {c : UInt16} (h : whitespace c = true) : structural c = false := by
  simp only [whitespace, Bool.or_eq_true, decide_eq_true_eq] at h
  rcases h with ((rfl | rfl) | rfl) | rfl <;> rfl

theorem structural_of_digit {c : UInt16} (h : digit c = true) : structural c = false := by
  by_contra hs
  rcases structural_cases (Bool.not_eq_false _ ▸ hs) with rfl | rfl | rfl | rfl | rfl | rfl <;> cases h

/-- No character of the text means anything to the scanner. -/
def Inert (t : Text) : Prop := ∀ c ∈ t, structural c = false

instance (t : Text) : Decidable (Inert t) := List.decidableBAll _ t

theorem Inert.append {s t : Text} (hs : Inert s) (ht : Inert t) : Inert (s ++ t) := by
  intro c hc
  exact (List.mem_append.mp hc).elim (hs c) (ht c)

theorem inert_of_all {p : UInt16 → Bool} (hp : ∀ c, p c = true → structural c = false) {t : Text} (h : t.all p) : Inert t :=
  fun c hc => hp c (List.all_eq_true.mp h c hc)

theorem Space.inert {t : Text} (h : Space t) : Inert t := inert_of_all (fun _ => structural_of_whitespace) h

theorem Digits.inert {t : Text} (h : Digits t) : Inert t := inert_of_all (fun _ => structural_of_digit) h.2

theorem Integer.inert {t : Text} (h : Integer t) : Inert t := by
  rcases h with rfl | ⟨first, rest, -, -, hall⟩
  · decide
  · exact inert_of_all (fun _ => structural_of_digit) hall

theorem Number.inert {t : Text} (h : Number t) : Inert t := by
  obtain ⟨minus, integer, fraction, exponent, rfl, hminus, hinteger, hfraction, hexponent⟩ := h
  refine Inert.append (Inert.append (Inert.append ?_ hinteger.inert) ?_) ?_
  · rcases hminus with rfl | rfl <;> decide
  · rcases hfraction with rfl | ⟨digits, rfl, hdigits⟩
    · decide
    · exact Inert.append (s := [unit '.']) (by decide) hdigits.inert
  · rcases hexponent with rfl | ⟨e, sign, digits, rfl, he, hsign, hdigits⟩
    · decide
    · refine Inert.append (s := e :: sign) ?_ hdigits.inert
      rcases he with rfl | rfl <;> rcases hsign with rfl | rfl | rfl <;> decide

theorem Literal.inert {t : Text} (h : Literal t) : Inert t := by
  rcases h with rfl | rfl | rfl <;> decide

variable {t rest raw text : Text} {stack below : List Frame} {keys : List Text}

theorem scan_inert (h : Inert t) : scan (t ++ rest) stack = scan rest stack := by
  induction t with
  | nil => rfl
  | cons c t ih =>
    have hc := h c List.mem_cons_self
    simp only [structural, Bool.or_eq_false_iff, decide_eq_false_iff_not] at hc
    obtain ⟨⟨⟨⟨⟨hopen, harray⟩, hclose⟩, hend⟩, hcomma⟩, hquote⟩ := hc
    rw [List.cons_append, scan, if_neg hopen, if_neg harray, if_neg (not_or.mpr ⟨hclose, hend⟩), if_neg hcomma,
      if_neg hquote, ih fun c hc => h c (List.mem_cons_of_mem _ hc)]

/-! ## Strings -/

theorem hexDigit_plain {c v : UInt16} (h : hexDigit c = some v) : c ≠ unit '\\' ∧ c ≠ unit '"' := by
  constructor <;> rintro rfl <;> cases h

theorem stringEnd_plain {c : UInt16} (h : c ≠ unit '\\' ∧ c ≠ unit '"') :
    stringEnd (c :: t) = (stringEnd t).map fun (raw, after) => (c :: raw, after) := by
  rw [stringEnd.eq_def]
  simp only [if_neg h.1, if_neg h.2]

theorem stringEnd_escape {e : UInt16} :
    stringEnd (unit '\\' :: e :: t) = (stringEnd t).map fun (raw, after) => (unit '\\' :: e :: raw, after) := by
  rw [stringEnd.eq_def]
  simp only [if_true]

theorem stringEnd_quote : stringEnd (unit '"' :: t) = some ([], t) := by
  rw [stringEnd.eq_def]
  simp only [if_true, if_neg (show unit '"' ≠ unit '\\' by decide)]

/-- A string ends at its closing quote. -/
theorem stringEnd_body (h : Body raw text) : stringEnd (raw ++ unit '"' :: rest) = some (raw, rest) := by
  induction h with
  | nil => exact stringEnd_quote
  | cons hpiece _ ih =>
    cases hpiece with
    | plain hcontrol hquote hslash => rw
        [List.append_assoc, List.singleton_append, stringEnd_plain ⟨hslash, hquote⟩, ih]; rfl
    | escape he => simp [stringEnd_escape, ih]
    | hex ha hb hc hd =>
      simp [stringEnd_escape, stringEnd_plain (hexDigit_plain ha), stringEnd_plain (hexDigit_plain hb),
        stringEnd_plain (hexDigit_plain hc), stringEnd_plain (hexDigit_plain hd), ih]

theorem parseString_body (h : Body raw text) : parseString raw = some text := by
  induction h with
  | nil => rfl
  | cons hpiece _ ih =>
    cases hpiece with
    | plain hcontrol hquote hslash =>
      rw [List.singleton_append, parseString.eq_def]
      simp only [if_neg hslash, if_neg (not_or.mpr ⟨UInt16.not_lt.mpr hcontrol, hquote⟩), ih]
      rfl
    | @escape e v he =>
      have hu : e ≠ unit 'u' := by
        rintro rfl
        cases he
      rw [List.cons_append, List.singleton_append, parseString.eq_def]
      simp [hu, he, ih]
    | hex ha hb hc hd =>
      rw [parseString.eq_def]
      simp [ha, hb, hc, hd, ih]

theorem scan_quote : scan (unit '"' :: rest) stack = match readString rest stack with
    | .error answer => answer
    | .ok (after, stack') => scan after stack' := by
  rw [scan, if_neg (by decide), if_neg (by decide), if_neg (by decide), if_neg (by decide), if_pos rfl]
  split <;> simp [*]

theorem quoted_append : quoted raw ++ rest = unit '"' :: (raw ++ unit '"' :: rest) := by
  simp [quoted]

/-- A string that is no key. -/
theorem scan_string (hbody : Body raw text) (hquiet : ∀ keys below, stack ≠ ⟨some keys, true⟩ :: below) :
    scan (quoted raw ++ rest) stack = scan rest stack := by
  have hread : readString (raw ++ unit '"' :: rest) stack = .ok (rest, stack) := by
    unfold readString
    rw [stringEnd_body hbody]
    split
    · exact absurd rfl (hquiet _ _)
    · exact absurd rfl (hquiet _ _)
    · rename_i heq
      cases heq
      rfl
    · rename_i heq
      cases heq
  rw [quoted_append, scan_quote, hread]

theorem scan_key (hbody : Body raw text) : scan (quoted raw ++ rest) (⟨some keys, true⟩ :: below) =
    if text ∈ keys then some true else scan rest (⟨some (text :: keys), false⟩ :: below) := by
  rw [quoted_append, scan_quote]
  simp only [readString, stringEnd_body hbody, parseString_body hbody]
  by_cases h : text ∈ keys
  · simp only [if_pos h]
  · simp only [if_neg h]

/-! ## Values -/

/-- A scan that finds a repeated key exactly when there is one, and otherwise goes on. -/
def Scans (repeats : Prop) (found next : Option Bool) : Prop := (repeats → found = some true) ∧ (¬ repeats → found = next)

theorem Scans.quiet {x y : Option Bool} (h : x = y) : Scans False x y := ⟨False.elim, fun _ => h⟩

theorem Scans.trans {p q : Prop} {x y z : Option Bool} (h : Scans p x y) (h' : Scans q y z) : Scans (p ∨ q) x z := by
  refine ⟨fun hpq => ?_, fun hno => ?_⟩
  · by_cases hp : p
    · exact h.1 hp
    · exact (h.2 hp).trans (h'.1 (hpq.resolve_left hp))
  · obtain ⟨hp, hq⟩ := not_or.mp hno
    exact (h.2 hp).trans (h'.2 hq)

theorem Scans.congr {p q : Prop} {x y : Option Bool} (h : Scans p x y) (hpq : p ↔ q) : Scans q x y := propext hpq ▸ h

theorem repeats_array {items : List Value} : (∃ value ∈ items, Repeats value) ↔ Repeats (.array items) := by
  constructor
  · rintro ⟨value, hmem, h⟩
    exact .item hmem h
  · rintro (_ | _ | ⟨hmem, h⟩)
    exact ⟨_, hmem, h⟩

/-- A key is repeated among the members or in one of them, or was there before them. -/
def RepeatsAmong (keys : List Text) (members : List (Text × Value)) : Prop :=
  ¬ (members.map Prod.fst).Nodup ∨ (∃ member ∈ members, member.1 ∈ keys) ∨ ∃ member ∈ members, Repeats member.2

theorem repeatsAmong_object {members : List (Text × Value)} : RepeatsAmong [] members ↔ Repeats (.object members) := by
  constructor
  · rintro (h | ⟨member, -, h⟩ | ⟨member, hmem, h⟩)
    · exact .here h
    · cases h
    · exact .member hmem h
  · rintro (h | ⟨hmem, h⟩)
    · exact .inl h
    · exact .inr (.inr ⟨_, hmem, h⟩)

theorem repeatsAmong_cons {key : Text} {value : Value} {members : List (Text × Value)} :
    key ∈ keys ∨ Repeats value ∨ RepeatsAmong (key :: keys) members ↔ RepeatsAmong keys ((key, value) :: members) := by
  unfold RepeatsAmong
  simp only [List.map_cons, List.nodup_cons, List.mem_cons, exists_eq_or_imp, List.mem_map]
  constructor
  · rintro (h | h | h | ⟨member, hmem, h | h⟩ | h)
    · exact .inr (.inl (.inl h))
    · exact .inr (.inr (.inl h))
    · exact .inl fun hnodup => h hnodup.2
    · exact .inl fun hnodup => hnodup.1 ⟨member, hmem, h⟩
    · exact .inr (.inl (.inr ⟨member, hmem, h⟩))
    · exact .inr (.inr (.inr h))
  · rintro (h | (h | ⟨member, hmem, h⟩) | h | h)
    · by_cases hkey : ∃ member ∈ members, member.1 = key
      · obtain ⟨member, hmem, h⟩ := hkey
        exact .inr (.inr (.inr (.inl ⟨member, hmem, .inl h⟩)))
      · exact .inr (.inr (.inl fun hnodup => h ⟨hkey, hnodup⟩))
    · exact .inl h
    · exact .inr (.inr (.inr (.inl ⟨member, hmem, .inr h⟩)))
    · exact .inr (.inl h)
    · exact .inr (.inr (.inr (.inr h)))

theorem scan_open : scan (unit '{' :: rest) stack = scan rest (⟨some [], true⟩ :: stack) := by
  rw [scan, if_pos rfl]

theorem scan_openArray : scan (unit '[' :: rest) stack = scan rest (⟨none, false⟩ :: stack) := by
  rw [scan, if_neg (by decide), if_pos rfl]

theorem scan_close {c : UInt16} (h : c = unit '}' ∨ c = unit ']') {frame : Frame} :
    scan (c :: rest) (frame :: stack) = scan rest stack := by
  rw [scan, if_neg (by rcases h with rfl | rfl <;> decide), if_neg (by rcases h with rfl | rfl <;> decide), if_pos h]
  rfl

theorem scan_comma : scan (unit ',' :: rest) stack = scan rest (expectKey stack) := by
  rw [scan, if_neg (by decide), if_neg (by decide), if_neg (by decide), if_pos rfl]

/-- A value with the white space after it. -/
theorem Scans.after {p : Prop} {space : Text} (hspace : Space space)
    (h : Scans p (scan (t ++ (space ++ rest)) stack) (scan (space ++ rest) stack)) :
    Scans p (scan (t ++ (space ++ rest)) stack) (scan rest stack) := by
  rwa [@scan_inert space rest stack hspace.inert] at h

/-- A value with the white space around it. -/
theorem Scans.around {p : Prop} {before space : Text} (hbefore : Space before) (hspace : Space space)
    (h : Scans p (scan (t ++ (space ++ rest)) stack) (scan (space ++ rest) stack)) :
    Scans p (scan (before ++ t ++ space ++ rest) stack) (scan rest stack) := by
  rw [List.append_assoc, List.append_assoc, scan_inert hbefore.inert]
  exact h.after hspace

/-- A member up to its value, where the key is new. -/
theorem scan_member {before between space : Text} (hbefore : Space before) (hkey : Body raw text) (hbetween : Space between)
    (hspace : Space space) :
    scan (before ++ quoted raw ++ between ++ unit ':' :: space ++ rest) (⟨some keys, true⟩ :: below) =
      if text ∈ keys then some true else scan rest (⟨some (text :: keys), false⟩ :: below) := by
  have hcolon : Inert (unit ':' :: space) := Inert.append (s := [unit ':']) (by decide) hspace.inert
  rw [List.append_assoc, List.append_assoc, List.append_assoc, scan_inert hbefore.inert, scan_key hkey, ← List.append_assoc,
    scan_inert (hbetween.inert.append hcolon)]

theorem Scans.key {p : Prop} {x y : Option Bool} (h : Scans p x y) :
    Scans (text ∈ keys ∨ p) (if text ∈ keys then some true else x) y := by
  by_cases hmem : text ∈ keys
  · rw [if_pos hmem]
    exact ⟨fun _ => rfl, fun hno => absurd (.inl hmem) hno⟩
  · rw [if_neg hmem]
    exact h.congr ⟨.inr, fun h => h.resolve_left hmem⟩

mutual

/-- What a value was read from. -/
theorem Parses.scans :
    ∀ {t : Text} {value : Value}, Parses t value → ∀ {rest stack}, (∀ keys below, stack ≠ ⟨some keys, true⟩ :: below) →
    Scans (Repeats value) (scan (t ++ rest) stack) (scan rest stack)
  | _, _, .scalar h, rest, stack, _ =>
    (Scans.quiet (scan_inert (h.elim Number.inert Literal.inert))).congr ⟨False.elim, fun h => by cases h⟩
  | _, _, .string h, rest, stack, hquiet => (Scans.quiet (scan_string h hquiet)).congr ⟨False.elim, fun h => by cases h⟩
  | _, _, .noItems h, rest, stack, _ => by
    refine (Scans.quiet ?_).congr ⟨False.elim, fun h => by obtain ⟨_, hmem, _⟩ := repeats_array.mpr h; cases hmem⟩
    rw [List.cons_append, List.cons_append, List.append_assoc, scan_openArray, scan_inert h.inert,
      List.singleton_append, scan_close (.inr rfl)]
  | _, _, .array h, rest, stack, _ => by
    rw [List.cons_append, List.cons_append, List.append_assoc, scan_openArray, List.singleton_append,
      ← @scan_close rest stack _ (.inr rfl) ⟨none, false⟩]
    exact (Items.scans h).congr repeats_array
  | _, _, .noMembers h, rest, stack, _ => by
    refine (Scans.quiet ?_).congr ⟨False.elim, fun h => ?_⟩
    · rw [List.cons_append, List.cons_append, List.append_assoc, scan_open, scan_inert h.inert, List.singleton_append,
        scan_close (.inl rfl)]
    · rcases repeatsAmong_object.mpr h with h | ⟨_, hmem, _⟩ | ⟨_, hmem, _⟩
      · exact h .nil
      · cases hmem
      · cases hmem
  | _, _, .object h, rest, stack, _ => by
    rw [List.cons_append, List.cons_append, List.append_assoc, scan_open, List.singleton_append]
    exact (Members.scans h).congr repeatsAmong_object

theorem Items.scans : ∀ {t : Text} {items : List Value}, Items t items → ∀ {rest below},
    Scans (∃ value ∈ items, Repeats value) (scan (t ++ rest) (⟨none, false⟩ :: below)) (scan rest (⟨none, false⟩ :: below))
  | _, _, .one hbefore h hafter, rest, below =>
    (Scans.around hbefore hafter (Parses.scans h (fun _ _ h => by cases h))).congr (by simp)
  | _, value :: items, @Items.more _ _ _ rest' _ _ hbefore h hafter hrest, rest, below => by
    have hnext : Scans (∃ value ∈ items, Repeats value) (scan (unit ',' :: rest' ++ rest) (⟨none, false⟩ :: below))
        (scan rest (⟨none, false⟩ :: below)) := by
      rw [List.cons_append, scan_comma]
      exact Items.scans hrest
    rw [List.append_assoc]
    exact ((Scans.around hbefore hafter (Parses.scans h (fun _ _ h => by cases h))).trans hnext).congr (by simp)

theorem Members.scans : ∀ {t : Text} {members : List (Text × Value)}, Members t members → ∀ {rest keys below},
    Scans (RepeatsAmong keys members) (scan (t ++ unit '}' :: rest) (⟨some keys, true⟩ :: below)) (scan rest below)
  | _, [(key, _)], .one hbefore hkey hbetween hspace h hafter, rest, keys, below => by
    have hclose : Scans (RepeatsAmong (key :: keys) []) (scan (unit '}' :: rest) (⟨some (key :: keys), false⟩ :: below))
        (scan rest below) := (Scans.quiet (scan_close (.inl rfl))).congr (by simp [RepeatsAmong])
    rw [List.append_assoc, List.append_assoc, scan_member hbefore hkey hbetween hspace]
    exact ((Scans.after hafter (Parses.scans h (fun _ _ h => by cases h))).trans hclose).key.congr repeatsAmong_cons
  | _, (key, value) :: members, @Members.more _ _ _ _ _ _ _ rest' _ _ hbefore hkey hbetween hspace h hafter hrest, rest,
      keys, below => by
    have hnext : Scans (RepeatsAmong (key :: keys) members)
        (scan (unit ',' :: rest' ++ unit '}' :: rest) (⟨some (key :: keys), false⟩ :: below)) (scan rest below) := by
      rw [List.cons_append, scan_comma]
      exact Members.scans hrest
    rw [List.append_assoc, List.append_assoc, List.append_assoc, scan_member hbefore hkey hbetween hspace]
    exact ((Scans.after hafter (Parses.scans h (fun _ _ h => by cases h))).trans hnext).key.congr repeatsAmong_cons

end

/-- The scanner answers for every text that `JSON.parse` accepts, and finds exactly the repeated keys: two members of one
object, at any depth, whose keys decode to one string. -/
theorem duplicate_keys_found {text : Text} {value : Value} (h : Accepts text value) :
    hasDuplicateJsonKeys text = some true ∧ Repeats value ∨ hasDuplicateJsonKeys text = some false ∧ ¬ Repeats value := by
  obtain ⟨before, t, after, rfl, hbefore, hparses, hafter⟩ := h
  have hscans : Scans (Repeats value) (scan (before ++ t ++ after ++ []) []) (scan [] []) :=
    Scans.around hbefore hafter (hparses.scans fun _ _ h => by cases h)
  rw [List.append_nil] at hscans
  by_cases hrepeats : Repeats value
  · exact .inl ⟨hscans.1 hrepeats, hrepeats⟩
  · exact .inr ⟨(hscans.2 hrepeats).trans (by rw [scan]), hrepeats⟩

namespace Sample

/-- Two members of one key, the second escaped, with a brace and a quote in a string. -/
def members : List (Text × Value) := [([unit 'a'], .scalar [unit '0']), ([unit 'a'], .string [unit '}', unit '"'])]

def sample : Text := "\x7b\"a\":0,\"\\u0061\": \"\x7d\\\"\"\x7d".toList.map unit

theorem second : Body ("\\u0061".toList.map unit) [unit 'a'] :=
  .cons (.hex (w := 0) (x := 0) (y := 6) (z := 1) rfl rfl rfl rfl) .nil

theorem punctuation : Body ("\x7d\\\"".toList.map unit) [unit '}', unit '"'] :=
  .cons (.plain (by decide) (by decide) (by decide)) (.cons (.escape rfl) .nil)

theorem accepts : Accepts sample (.object members) := by
  have first : Body [unit 'a'] [unit 'a'] := .cons (.plain (by decide) (by decide) (by decide)) .nil
  have zero : Number [unit '0'] := ⟨[], [unit '0'], [], [], rfl, .inl rfl, .inl rfl, .inl rfl, .inl rfl⟩
  have hmembers := @Members.more [] _ _ [] [] _ [] _ _ _ rfl first rfl rfl (.scalar (.inl zero)) rfl
    (@Members.one [] _ _ [] [unit ' '] _ [] _ rfl second rfl rfl (.string punctuation) rfl)
  exact ⟨[], _, [], by decide, rfl, .object hmembers, rfl⟩

end Sample

theorem duplicate_keys_found_escaped : hasDuplicateJsonKeys Sample.sample = some true :=
  (duplicate_keys_found Sample.accepts).elim And.left fun h => absurd (.here (by decide)) h.2

end Dim.ControlPlaneJson
