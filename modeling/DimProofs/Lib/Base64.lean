/-
Bytes as text of the URL-safe Base64 alphabet, without padding: three bytes are four characters. A decoder that
passes over characters outside the alphabet reads back what was written.
-/
import Mathlib

namespace Base64

def alphabet : List Char := "ABCDEFGHIJKLMNOPQRSTUVWXYZabcdefghijklmnopqrstuvwxyz0123456789-_".toList

/-- The character of six bits. -/
def digit (n : Nat) : Char := alphabet.getD n 'A'

/-- The six bits of a character, in either alphabet. -/
def value (c : Char) : Option Nat :=
  if c = '+' then some 62
  else if c = '/' then some 63
  else alphabet.findIdx? (· = c)

def encode : List Nat → List Char
  | a :: b :: c :: rest =>
    digit (a / 4) :: digit (a % 4 * 16 + b / 16) :: digit (b % 16 * 4 + c / 64) :: digit (c % 64) :: encode rest
  | [a, b] => [digit (a / 4), digit (a % 4 * 16 + b / 16), digit (b % 16 * 4)]
  | [a] => [digit (a / 4), digit (a % 4 * 16)]
  | [] => []

/-- The bytes of groups of six bits; one group that is left over is dropped. -/
def bytes : List Nat → List Nat
  | p :: q :: r :: s :: rest =>
    (p * 4 + q / 16) :: (q % 16 * 16 + r / 4) :: (r % 4 * 64 + s) :: bytes rest
  | [p, q, r] => [p * 4 + q / 16, q % 16 * 16 + r / 4]
  | [p, q] => [p * 4 + q / 16]
  | _ => []

def decode (text : List Char) : List Nat := bytes (text.filterMap value)

theorem value_digit : ∀ n < 64, value (digit n) = some n := by decide +kernel

/-- The text of bytes is of the alphabet. -/
theorem digit_mem (n : Nat) : digit n ∈ alphabet := by
  rw [digit, List.getD_eq_getElem?_getD]
  cases h : alphabet[n]? with
  | none => decide
  | some c => exact List.mem_of_getElem? h

theorem encode_mem : ∀ (bs : List Nat), ∀ c ∈ encode bs, c ∈ alphabet
  | [], _, h => nomatch h
  | [_], c, h => by
    simp only [encode, List.mem_cons, List.not_mem_nil, or_false] at h
    rcases h with rfl | rfl <;> exact digit_mem _
  | [_, _], c, h => by
    simp only [encode, List.mem_cons, List.not_mem_nil, or_false] at h
    rcases h with rfl | rfl | rfl <;> exact digit_mem _
  | _ :: _ :: _ :: rest, c, h => by
    simp only [encode, List.mem_cons] at h
    rcases h with rfl | rfl | rfl | rfl | h
    · exact digit_mem _
    · exact digit_mem _
    · exact digit_mem _
    · exact digit_mem _
    · exact encode_mem rest c h

theorem decode_encode : ∀ {bs : List Nat}, (∀ b ∈ bs, b < 256) → decode (encode bs) = bs
  | [], _ => rfl
  | [a], h => by
    have ha := h a (by simp)
    simp only [decode, encode, List.filterMap_cons, List.filterMap_nil, value_digit _ (show a / 4 < 64 by omega),
      value_digit _ (show a % 4 * 16 < 64 by omega), bytes]
    congr 1
    omega
  | [a, b], h => by
    have ha := h a (by simp)
    have hb := h b (by simp)
    simp only [decode, encode, List.filterMap_cons, List.filterMap_nil, value_digit _ (show a / 4 < 64 by omega),
      value_digit _ (show a % 4 * 16 + b / 16 < 64 by omega), value_digit _ (show b % 16 * 4 < 64 by omega), bytes]
    rw [show a / 4 * 4 + (a % 4 * 16 + b / 16) / 16 = a by omega,
      show (a % 4 * 16 + b / 16) % 16 * 16 + b % 16 * 4 / 4 = b by omega]
  | a :: b :: c :: rest, h => by
    have ha := h a (by simp)
    have hb := h b (by simp)
    have hc := h c (by simp)
    have ih := @decode_encode rest fun d hd => h d (by simp [hd])
    rw [decode] at ih
    simp only [decode, encode, List.filterMap_cons, value_digit _ (show a / 4 < 64 by omega),
      value_digit _ (show a % 4 * 16 + b / 16 < 64 by omega), value_digit _ (show b % 16 * 4 + c / 64 < 64 by omega),
      value_digit _ (show c % 64 < 64 by omega), bytes, ih]
    rw [show a / 4 * 4 + (a % 4 * 16 + b / 16) / 16 = a by omega,
      show (a % 4 * 16 + b / 16) % 16 * 16 + (b % 16 * 4 + c / 64) / 4 = b by omega,
      show (b % 16 * 4 + c / 64) % 4 * 64 + c % 64 = c by omega]

end Base64
