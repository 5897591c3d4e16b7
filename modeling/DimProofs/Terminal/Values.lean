/-
The values that terminal events are parsed from, and the patterns that the two services hold their texts to. Texts are
sequences of Unicode characters and numbers are rational, as the doubles of a JSON body are.
-/
import DimProofs.Lib.Decimal
import DimProofs.Lib.Pattern
import DimProofs.Lib.Table

namespace Dim.Terminal

open Relational (bind_ok pure_ok)

/-! ## Values -/

/-- A value of unknown type. -/
inductive Value where
  | undefined
  | null
  | boolean (b : Bool)
  | number (n : Rat)
  | string (text : String)
  | array (items : List Value)
  | object (entries : List (String × Value))

/-- The members of an object, in their order. -/
abbrev Members := List (String × Value)

/-- `input.key`. -/
def get (entries : Members) (key : String) : Value := (entries.lookup key).getD .undefined

namespace Value

def defined : Value → Bool
  | .undefined => false
  | _ => true

/-- `value === text`. -/
def is (value : Value) (text : String) : Bool :=
  match value with
  | .string s => s = text
  | _ => false

/-- `value === n`. -/
def isNumber (value : Value) (n : Rat) : Bool :=
  match value with
  | .number m => m = n
  | _ => false

def strings? : List Value → Option (List String)
  | [] => some []
  | .string text :: rest => (strings? rest).map (text :: ·)
  | _ :: _ => none

def ofTexts (texts : List String) : Value := .array (texts.map .string)

/-- A bounded whole number is a natural one. -/
theorem eq_natural {n : Rat} {minimum : Nat} (hint : n.isInt = true) (hbound : (minimum : Rat) ≤ n) :
    n = (n.num.toNat : Rat) := by
  have hnum : 0 ≤ n.num := Rat.num_nonneg.mpr (le_trans (Nat.cast_nonneg minimum) hbound)
  calc n = (n.num : Rat) := Rat.eq_num_of_isInt hint
    _ = (n.num.toNat : Int) := by rw [Int.toNat_of_nonneg hnum]
    _ = (n.num.toNat : Rat) := Int.cast_natCast _

end Value

end Dim.Terminal
