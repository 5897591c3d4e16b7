/-
The text of a token: its three parts are read back as they were written, and what is stored for it is the token
and a line break.
-/
import DimProofs.Lifecycle.Grants

namespace Dim.Lifecycle

/-! ## Characters -/

/-- The characters of a token besides its two dots. -/
def tokenChar : Pattern.CharClass := idChar

theorem tokenChar_of_alphabet : ∀ c ∈ Base64.alphabet, tokenChar c = true :=
  List.all_eq_true.mp (by decide +kernel)

theorem whitespace_of_ascii : ∀ n < 128, 0x2d ≤ n → whitespace (Char.ofNat n) = false := by decide

theorem tokenChar_range {c : Char} (h : tokenChar c = true) : 0x2d ≤ c.toNat ∧ c.toNat < 128 ∧ c ≠ '.' := by
  simp only [tokenChar, idChar, Pattern.alphanumeric, Pattern.upper, Pattern.lower, Pattern.digit, Pattern.within,
    Bool.or_eq_true, Bool.and_eq_true, decide_eq_true_eq] at h
  have hrange : ∀ {low high : Char}, low ≤ c → c ≤ high → low.toNat ≤ c.toNat ∧ c.toNat ≤ high.toNat :=
    fun hlow hhigh => ⟨hlow, hhigh⟩
  rcases h with (((⟨hlow, hhigh⟩ | ⟨hlow, hhigh⟩) | ⟨hlow, hhigh⟩) | rfl) | rfl
  iterate 3
    have hc := hrange hlow hhigh
    simp only [Char.reduceToNat] at hc
    exact ⟨by omega, by omega, fun heq => by subst heq; simp only [Char.reduceToNat] at hc; omega⟩
  · decide
  · decide

theorem not_whitespace {c : Char} (h : 0x2d ≤ c.toNat ∧ c.toNat < 128) : whitespace c = false := by
  have hc := whitespace_of_ascii c.toNat h.2 h.1
  rwa [Char.ofNat_toNat] at hc

section Ids

variable {id : String} (h : validWorkspaceId id = true)
include h

theorem idChars : ∀ c ∈ id.toList, tokenChar c = true := by
  have hall := Pattern.sequence_all h (fun p hp => by
    rw [List.eq_of_mem_replicate hp]
    exact Pattern.Narrows.refl idChar)
  exact List.all_eq_true.mp hall.1

theorem length_id : id.toList.length = 43 := (Pattern.length_of_sequence h).trans List.length_replicate

end Ids

/-- Two instances do not share a grant. -/
theorem grantFile_injective {name name' id id' : String} (h : validWorkspaceId id = true) (h' : validWorkspaceId id' = true)
    (heq : grantFile name id = grantFile name' id') : name = name' ∧ id = id' := by
  have htext := congrArg String.toList heq
  simp only [grantFile, String.toList_append] at htext
  obtain ⟨hname, hid⟩ := List.append_inj' htext ((length_id h).trans (length_id h').symm)
  exact ⟨String.toList_inj.mp (List.append_cancel_right hname), String.toList_inj.mp hid⟩

/-! ## Names -/

theorem nameChar_ascii {name : String} (h : validLifecycleName name = true) : ∀ c ∈ name.toList, c.toNat < 128 := by
  have hascii : ∀ p : Pattern.CharClass, Pattern.Narrows p Pattern.ascii → ∀ c, p c = true → c.toNat < 128 := by
    intro p hp c hc
    have hle := hp c hc
    simp only [Pattern.ascii, Pattern.within, Bool.and_eq_true, decide_eq_true_eq] at hle
    exact Nat.lt_succ_of_le hle.2
  have hfirst : Pattern.Narrows (fun c => Pattern.lower c || Pattern.digit c) Pattern.ascii :=
    Pattern.Narrows.or (Pattern.Narrows.within (by decide) (by decide)) (Pattern.Narrows.within (by decide) (by decide))
  have hrest : Pattern.Narrows Pattern.identifierRest Pattern.ascii :=
    Pattern.Narrows.or (Pattern.Narrows.or (Pattern.Narrows.or hfirst (Pattern.Narrows.only (by decide)))
      (Pattern.Narrows.only (by decide))) (Pattern.Narrows.only (by decide))
  rw [validLifecycleName] at h
  cases hname : name.toList with
  | nil => simp
  | cons c cs =>
    rw [hname] at h
    simp only [Pattern.bounded, Bool.and_eq_true, List.all_eq_true] at h
    intro d hd
    rcases List.mem_cons.mp hd with rfl | hd
    · exact hascii _ hfirst d h.1.1
    · exact hascii _ hrest d (h.2 d hd)

theorem decodeName_encodeName {name : String} (h : validLifecycleName name = true) :
    decodeName (encodeName name).toList = name := by
  have hascii := nameChar_ascii h
  have hbytes : ∀ b ∈ name.toList.map Char.toNat, b < 256 := by
    intro b hb
    obtain ⟨c, hc, rfl⟩ := List.mem_map.mp hb
    have := hascii c hc
    omega
  rw [decodeName, encodeName, String.toList_ofList, Base64.decode_encode hbytes, List.map_map, ← String.toList_inj,
    String.toList_ofList]
  refine (List.map_congr_left fun c hc => ?_).trans (List.map_id _)
  rw [Function.comp_apply, if_pos (hascii c hc), Char.ofNat_toNat]
  rfl

/-! ## Tokens -/

theorem toList_grantToken (name id random : String) :
    (grantToken name id random).toList = (encodeName name).toList ++ '.' :: (id.toList ++ '.' :: random.toList) := by
  simp [grantToken]

theorem encodeName_chars (name : String) : ∀ c ∈ (encodeName name).toList, tokenChar c = true := by
  intro c hc
  rw [encodeName, String.toList_ofList] at hc
  exact tokenChar_of_alphabet c (Base64.encode_mem _ c hc)

section Tokens

variable {name id random : String} (hid : validWorkspaceId id = true) (hrandom : validWorkspaceId random = true)
include hid hrandom

theorem splitOn_grantToken : (grantToken name id random).toList.splitOn '.' =
    [(encodeName name).toList, id.toList, random.toList] := by
  have hjoin : (grantToken name id random).toList =
      ['.'].intercalate [(encodeName name).toList, id.toList, random.toList] := by
    rw [toList_grantToken]
    simp [List.intercalate, List.intersperse]
  rw [hjoin]
  refine List.splitOn_intercalate '.' (fun part hpart hdot => ?_) (by simp)
  have hchar : tokenChar '.' = true := by
    simp only [List.mem_cons, List.not_mem_nil, or_false] at hpart
    rcases hpart with rfl | rfl | rfl
    · exact encodeName_chars name _ hdot
    · exact idChars hid _ hdot
    · exact idChars hrandom _ hdot
  exact (tokenChar_range hchar).2.2 rfl

theorem grantToken_chars : ∀ c ∈ (grantToken name id random).toList, whitespace c = false := by
  intro c hc
  rw [toList_grantToken] at hc
  simp only [List.mem_append, List.mem_cons] at hc
  have hchar : ∀ {c}, tokenChar c = true → whitespace c = false :=
    fun h => not_whitespace ⟨(tokenChar_range h).1, (tokenChar_range h).2.1⟩
  rcases hc with hc | rfl | hc | rfl | hc
  · exact hchar (encodeName_chars name c hc)
  · decide
  · exact hchar (idChars hid c hc)
  · decide
  · exact hchar (idChars hrandom c hc)

/-- What is stored for a token is read as the token. -/
theorem trim_grantToken : trim (grantToken name id random ++ "\n") = grantToken name id random := by
  have hchars := @grantToken_chars name _ _ hid hrandom
  rw [trim, ← String.toList_inj, String.toList_ofList, String.toList_append]
  generalize (grantToken name id random).toList = cs at hchars
  have hkeep : ∀ {cs : List Char}, (∀ c ∈ cs, whitespace c = false) → cs.dropWhile whitespace = cs := by
    intro cs hcs
    cases cs with
    | nil => rfl
    | cons c rest => rw [List.dropWhile_cons_of_neg (by rw [hcs c List.mem_cons_self]; exact Bool.false_ne_true)]
  cases cs with
  | nil => decide
  | cons c rest =>
    rw [List.cons_append, List.dropWhile_cons_of_neg (by rw [hchars c List.mem_cons_self]; exact Bool.false_ne_true),
      ← List.cons_append, List.reverse_append]
    rw [show "\n".toList.reverse = ['\n'] from rfl, List.singleton_append, List.dropWhile_cons_of_pos (by decide),
      hkeep fun d hd => hchars d (List.mem_reverse.mp hd), List.reverse_reverse]

end Tokens

end Dim.Lifecycle
