/-
The resource limits of a workspace: the texts that a request gives, how they are checked and read, and how the budget of
a recommended workspace is shared out between its two containers. Texts are sequences of characters; a number too small
for a double is `0` to `Number`.
-/
import DimProofs.Lib.Decimal
import DimProofs.Lifecycle.Grants

namespace Dim.Resources

abbrev Text := List Char

theorem lawful_text : LawfulBEq Text := inferInstance

attribute [local instance] lawful_text

/-- The errors that reach a caller: of the program itself, of `BigInt`, of the runner and the state directory, and of the
release of the setup lock. -/
inductive Failure where
  | userError (message : Text)
  | syntaxError (message : Text)
  | other (message : Text)
  | release (message : Text)
deriving DecidableEq

def Failure.message : Failure → Text
  | .userError message => message
  | .syntaxError message => message
  | .other message => message
  | .release message => message

/-! ## Numbers -/

/-- `String.prototype.trim`. -/
def trim (text : Text) : Text :=
  ((text.dropWhile Lifecycle.whitespace).reverse.dropWhile Lifecycle.whitespace).reverse

/-- The digits of a base up to sixteen. -/
def digitValue (c : Char) : Nat := if c.isDigit then c.toNat - '0'.toNat else c.toLower.toNat - 'a'.toNat + 10

/-- The base after a leading `0`. -/
def radixOf (c : Char) : Option Nat :=
  match c.toLower with
  | 'x' => some 16
  | 'o' => some 8
  | 'b' => some 2
  | _ => none

def radixDigits (radix : Nat) (digits : Text) : Option Nat :=
  if digits ≠ [] ∧ digits.all fun c => Pattern.alphanumeric c && decide (digitValue c < radix) then
    some (digits.foldl (fun n c => radix * n + digitValue c) 0)
  else none

/-- The texts that are more than digits. -/
def signedOrRadix : Text → Option Int
  | '-' :: digits => if digits ≠ [] ∧ digits.all Char.isDigit then some (-Decimal.value digits) else none
  | '+' :: digits => if digits ≠ [] ∧ digits.all Char.isDigit then some (Decimal.value digits) else none
  | '0' :: c :: digits => do return ((← radixDigits (← radixOf c) digits : Nat) : Int)
  | _ => none

/-- The grammar of `BigInt` on texts; the empty one is zero. -/
def stringToBigInt (text : Text) : Option Int :=
  if text.all Char.isDigit then some (Decimal.value text) else signedOrRadix text

/-- `BigInt(text)`. -/
def bigInt (text : Text) : Except Failure Int :=
  match stringToBigInt (trim text) with
  | some n => .ok n
  | none => .error (.syntaxError ("Cannot convert ".toList ++ text ++ " to a BigInt".toList))

/-- `n.toString()`. -/
def decimal (n : Int) : Text :=
  if n < 0 then '-' :: Nat.toDigits 10 n.natAbs else Nat.toDigits 10 n.natAbs

/-! ## Limits -/

/-- `WorkspaceResourceLimits`. -/
structure Limits where
  (cpuCount memory pidsLimit : Text)
deriving DecidableEq

def nanoCpusPerCpu : Int := 1000000000

def bytesPerGibibyte : Int := 1073741824

def recommendedMinimumPids : Int := 256

def cpuPlaces : Text := "recommended workspace CPU limit supports at most 9 decimal places".toList

def parseCpu (value : Text) : Except Failure Int :=
  let parts := value.splitOn '.'
  let whole := parts.getD 0 []
  let fraction := parts.getD 1 []
  if 9 < fraction.length then .error (.userError cpuPlaces)
  else do
    -- nine characters at least, so `|| "0"` never applies
    let cpus ← bigInt whole
    let nanoCpus ← bigInt (Decimal.padEnd 9 fraction)
    return cpus * nanoCpusPerCpu + nanoCpus

def formatCpu (value : Int) : Text :=
  let whole := value / nanoCpusPerCpu
  let fraction := Decimal.stripEnd (Decimal.padStart 9 (decimal (value % nanoCpusPerCpu)))
  if fraction.length = 0 then decimal whole else decimal whole ++ '.' :: fraction

def memoryPositive : Text := "workspace memory limit must be a positive container memory size".toList

/-- `[1-9][0-9]*`, and what follows it. -/
def amount (value : Text) : Option (Text × Text) :=
  let digits := value.takeWhile Char.isDigit
  if digits = [] ∨ digits.head? = some '0' then none else some (digits, value.dropWhile Char.isDigit)

/-- `([kmgt]?)(i?)(b?)$` without regard to case, as the power of 1024. -/
def unitOf (rest : Text) : Option Nat :=
  let unit : Text → Nat × Text
    | 'k' :: rest => (1, rest)
    | 'm' :: rest => (2, rest)
    | 'g' :: rest => (3, rest)
    | 't' :: rest => (4, rest)
    | rest => (0, rest)
  let (exponent, rest) := unit (rest.map Char.toLower)
  if rest ∈ ["".toList, "i".toList, "b".toList, "ib".toList] then some exponent else none

def parseMemory (value : Text) : Except Failure Int :=
  match amount value with
  | none => .error (.userError memoryPositive)
  | some (digits, rest) =>
    match unitOf rest with
    | none => .error (.userError memoryPositive)
    | some exponent => do return (← bigInt digits) * 1024 ^ exponent

/-! ## The checks of a request -/

def someDigits (text : Text) : Bool := text ≠ [] && text.all Char.isDigit

/-- `^[0-9]+(?:\.[0-9]+)?$`. -/
def cpuPattern (value : Text) : Bool :=
  match value.splitOn '.' with
  | [whole] => someDigits whole
  | [whole, fraction] => someDigits whole && someDigits fraction
  | _ => false

/-- `Number(value) > 0` for a decimal text: it is above half of the smallest double. -/
def numberPositive (value : Text) : Bool :=
  let parts := value.splitOn '.'
  let whole := parts.getD 0 []
  let fraction := parts.getD 1 []
  10 ^ fraction.length < Decimal.value (whole ++ fraction) * 2 ^ 1075

/-- `^[1-9][0-9]*(?:[kmgt]i?b?|[KMGT]i?B?)?$`. -/
def memoryPattern (value : Text) : Bool :=
  match amount value with
  | none => false
  | some (_, rest) =>
    match rest with
    | [] => true
    | c :: rest =>
      (c ∈ ['k', 'm', 'g', 't'] && rest ∈ ["".toList, "i".toList, "b".toList, "ib".toList])
        || (c ∈ ['K', 'M', 'G', 'T'] && rest ∈ ["".toList, "i".toList, "B".toList, "iB".toList])

/-- `^[1-9][0-9]*$`. -/
def pidsPattern (value : Text) : Bool :=
  match amount value with
  | some (_, []) => true
  | _ => false

def validateWorkspaceResources (resources : Limits) : Except Failure Unit :=
  if !cpuPattern resources.cpuCount || !numberPositive resources.cpuCount then
    .error (.userError "workspace CPU limit must be a positive number".toList)
  else if !memoryPattern resources.memory then .error (.userError memoryPositive)
  else if !pidsPattern resources.pidsLimit then
    .error (.userError "workspace PID limit must be a positive integer".toList)
  else .ok ()

/-! ## The budget -/

/-- `WorkspaceResourceAllocation`. -/
structure Allocation where
  outer : Limits
  agent : Option Limits

inductive Environment where
  | recommended
  | custom
deriving DecidableEq

def tooSmall : Text :=
  "recommended workspace resources require at least 1 CPU, 1 GiB memory, and 256 PIDs for two Linux containers".toList

/-- A budget in nano-CPUs, bytes and processes, shared out. -/
def share (cpu memory pids : Int) : Allocation :=
  let outerCpu := cpu / 4
  let outerMemory := memory / 4
  let outerPids := pids / 4
  { outer := ⟨formatCpu outerCpu, decimal outerMemory, decimal outerPids⟩
    agent := some ⟨formatCpu (cpu - outerCpu), decimal (memory - outerMemory), decimal (pids - outerPids)⟩ }

def allocateWorkspaceResourceBudget (environment : Environment) (recorded : Limits) : Except Failure Allocation :=
  match environment with
  | .custom => .ok ⟨recorded, none⟩
  | .recommended => do
    let cpu ← parseCpu recorded.cpuCount
    let memory ← parseMemory recorded.memory
    let pids ← bigInt recorded.pidsLimit
    if cpu < nanoCpusPerCpu ∨ memory < bytesPerGibibyte ∨ pids < recommendedMinimumPids then
      .error (.userError tooSmall)
    else .ok (share cpu memory pids)

/-! ## What a request asks for -/

namespace Limits

/-- The number that a decimal text denotes. -/
def cpus (limits : Limits) : ℚ :=
  let parts := limits.cpuCount.splitOn '.'
  Decimal.value (parts.getD 0 []) + (Decimal.value (parts.getD 1 []) : ℚ) / 10 ^ (parts.getD 1 []).length

/-- The bytes that a size denotes, which begins with its digits. -/
def bytes (limits : Limits) : Nat :=
  Decimal.value (limits.memory.takeWhile Char.isDigit) * 1024 ^ (unitOf (limits.memory.dropWhile Char.isDigit)).getD 0

def processes (limits : Limits) : Nat := Decimal.value limits.pidsLimit

end Limits

/-! ## Texts and numbers -/

theorem isDigit_not_whitespace {c : Char} (h : c.isDigit = true) : Lifecycle.whitespace c = false := by
  have hrange : 48 ≤ c.toNat ∧ c.toNat ≤ 57 := by
    simpa [Char.isDigit, UInt32.le_iff_toNat_le] using h
  have hn : ∀ n < 58, 48 ≤ n → Lifecycle.whitespace (Char.ofNat n) = false := by decide
  have hc := hn c.toNat (by omega) hrange.1
  rwa [Char.ofNat_toNat] at hc

theorem dropWhile_whitespace {text : Text} (h : ∀ c ∈ text, Lifecycle.whitespace c = false) :
    text.dropWhile Lifecycle.whitespace = text := by
  rw [List.dropWhile_eq_self_iff]
  intro hpos hspace
  rw [h _ (List.getElem_mem hpos)] at hspace
  cases hspace

theorem trim_eq_self {text : Text} (h : ∀ c ∈ text, Lifecycle.whitespace c = false) : trim text = text := by
  have hreverse : ∀ c ∈ text.reverse, Lifecycle.whitespace c = false := fun c hc => h c (List.mem_reverse.mp hc)
  rw [trim, dropWhile_whitespace h, dropWhile_whitespace hreverse, List.reverse_reverse]

/-- The end of the line is taken off. -/
theorem trim_line {text : Text} (h : ∀ c ∈ text, Lifecycle.whitespace c = false) : trim (text ++ ['\n']) = text := by
  cases text with
  | nil => rfl
  | cons c rest =>
    have hhead : (c :: rest ++ ['\n']).dropWhile Lifecycle.whitespace = c :: rest ++ ['\n'] := by
      rw [List.cons_append, List.dropWhile_cons_of_neg (by rw [h c List.mem_cons_self]; decide)]
    have hlast : ('\n' :: (c :: rest).reverse).dropWhile Lifecycle.whitespace = (c :: rest).reverse := by
      rw [List.dropWhile_cons_of_pos (by decide)]
      exact dropWhile_whitespace fun d hd => h d (List.mem_reverse.mp hd)
    rw [trim, hhead, List.reverse_append, List.reverse_singleton, List.singleton_append, hlast, List.reverse_reverse]

theorem bigInt_digits {text : Text} (h : Decimal.Digits text) : bigInt text = .ok (Decimal.value text) := by
  rw [bigInt, trim_eq_self fun c hc => isDigit_not_whitespace (h c hc), stringToBigInt, if_pos (List.all_eq_true.mpr h)]

theorem bigInt_minus {digits : Text} (h : Decimal.Digits digits) (hne : digits ≠ []) :
    bigInt ('-' :: digits) = .ok (-Decimal.value digits) := by
  have htrim : trim ('-' :: digits) = '-' :: digits := by
    refine trim_eq_self fun c hc => ?_
    rcases List.mem_cons.mp hc with rfl | hc
    · rfl
    · exact isDigit_not_whitespace (h c hc)
  have hall : ¬ ('-' :: digits).all Char.isDigit = true := fun h => by simp at h
  rw [bigInt, htrim, stringToBigInt, if_neg hall, signedOrRadix, if_pos ⟨hne, List.all_eq_true.mpr h⟩]

theorem stringToBigInt_of_bigInt {text : Text} {n : Int} (h : bigInt text = .ok n) :
    stringToBigInt (trim text) = some n := by
  unfold bigInt at h
  split at h
  · next hn => rw [hn, Except.ok.inj h]
  · cases h

/-- The text of a number is read back as the number. -/
theorem bigInt_decimal (n : Int) : bigInt (decimal n) = .ok n := by
  unfold decimal
  by_cases hn : n < 0
  · rw [if_pos hn, bigInt_minus (Decimal.digits_toDigits _) Nat.toDigits_ne_nil, Decimal.value_toDigits]
    congr 1
    omega
  · rw [if_neg hn, bigInt_digits (Decimal.digits_toDigits _), Decimal.value_toDigits]
    congr 1
    omega

theorem decimal_of_nonneg {n : Int} (h : 0 ≤ n) : decimal n = Nat.toDigits 10 n.natAbs := if_neg (by omega)

theorem digits_decimal {n : Int} (h : 0 ≤ n) : Decimal.Digits (decimal n) := by
  rw [decimal_of_nonneg h]
  exact Decimal.digits_toDigits _

/-! ## CPUs -/

theorem parseCpu_parts {value whole fraction : Text} {rest : List Text} (hsplit : value.splitOn '.' = whole :: rest)
    (hfraction : rest.getD 0 [] = fraction) (hwhole : Decimal.Digits whole) (hdigits : Decimal.Digits fraction)
    (hlength : fraction.length ≤ 9) :
    parseCpu value = .ok (Decimal.value whole * nanoCpusPerCpu +
      (10 ^ (9 - fraction.length) * Decimal.value fraction : Nat)) := by
  have hwhole' : (whole :: rest).getD 0 [] = whole := rfl
  have hfraction' : (whole :: rest).getD 1 [] = fraction := hfraction
  simp only [parseCpu, hsplit, hwhole', hfraction']
  rw [if_neg (by omega), bigInt_digits hwhole, bigInt_digits (hdigits.padEnd 9), Decimal.value_padEnd]
  rfl

/-- A formatted number of nano-CPUs is read back. -/
theorem parseCpu_formatCpu {n : Int} (h : 0 ≤ n) : parseCpu (formatCpu n) = .ok n := by
  have hpositive : (0 : Int) < nanoCpusPerCpu := by decide
  have hwhole : Decimal.Digits (decimal (n / nanoCpusPerCpu)) := digits_decimal (Int.ediv_nonneg h hpositive.le)
  have hmod := Int.emod_nonneg n hpositive.ne'
  have hlt := Int.emod_lt_of_pos n hpositive
  have hvalue : Decimal.value (decimal (n / nanoCpusPerCpu)) = n / nanoCpusPerCpu := by
    rw [decimal_of_nonneg (Int.ediv_nonneg h hpositive.le), Decimal.value_toDigits]
    exact Int.natAbs_of_nonneg (Int.ediv_nonneg h hpositive.le)
  -- the nine digits of the fraction, and what is left of them
  generalize hpadded : Decimal.padStart 9 (decimal (n % nanoCpusPerCpu)) = padded
  have hlength : padded.length = 9 := by
    rw [← hpadded, decimal_of_nonneg hmod]
    exact Decimal.length_padStart (by decide) (by simp only [nanoCpusPerCpu] at hmod hlt ⊢; omega)
  have hdigits : Decimal.Digits padded := hpadded ▸ (digits_decimal hmod).padStart 9
  have hfraction : (Decimal.value padded : Int) = n % nanoCpusPerCpu := by
    rw [← hpadded, Decimal.value_padStart, decimal_of_nonneg hmod, Decimal.value_toDigits]
    exact Int.natAbs_of_nonneg hmod
  have hstrip : 10 ^ (9 - (Decimal.stripEnd padded).length) * Decimal.value (Decimal.stripEnd padded) =
      Decimal.value padded := by
    rw [← hlength, ← Decimal.value_padEnd, Decimal.padEnd_stripEnd]
  have hshort : (Decimal.stripEnd padded).length ≤ 9 := hlength ▸ Decimal.length_stripEnd_le padded
  have hsum : n / nanoCpusPerCpu * nanoCpusPerCpu + n % nanoCpusPerCpu = n := Int.ediv_mul_add_emod n nanoCpusPerCpu
  have hparse : parseCpu (formatCpu n) = .ok (n / nanoCpusPerCpu * nanoCpusPerCpu + n % nanoCpusPerCpu) := by
    simp only [formatCpu, hpadded]
    by_cases hempty : (Decimal.stripEnd padded).length = 0
    · rw [if_pos hempty]
      have hnil : Decimal.stripEnd padded = [] := List.length_eq_zero_iff.mp hempty
      rw [parseCpu_parts (List.splitOn_eq_singleton (hwhole.notMem rfl)) hnil.symm hwhole hdigits.stripEnd hshort,
        hstrip, hvalue, hfraction]
    · rw [if_neg hempty]
      have hsplit : (decimal (n / nanoCpusPerCpu) ++ '.' :: Decimal.stripEnd padded).splitOn '.' =
          [decimal (n / nanoCpusPerCpu), Decimal.stripEnd padded] := by
        rw [List.splitOn_append_cons_self_of_not_mem (hwhole.notMem rfl),
          List.splitOn_eq_singleton (hdigits.stripEnd.notMem rfl)]
      have hfirst : [Decimal.stripEnd padded].getD 0 [] = Decimal.stripEnd padded := rfl
      rw [parseCpu_parts hsplit hfirst hwhole hdigits.stripEnd hshort, hstrip, hvalue, hfraction]
  rw [hparse, hsum]

theorem digits_of_someDigits {text : Text} (h : someDigits text = true) : Decimal.Digits text := by
  simp only [someDigits, Bool.and_eq_true, decide_eq_true_eq] at h
  exact List.all_eq_true.mp h.2

/-- The two parts of a decimal text. -/
theorem cpuPattern_parts {value : Text} (h : cpuPattern value = true) : ∃ whole rest, value.splitOn '.' = whole :: rest ∧
    Decimal.Digits whole ∧ Decimal.Digits (rest.getD 0 []) := by
  unfold cpuPattern at h
  split at h
  · next whole hsplit => exact ⟨whole, [], hsplit, digits_of_someDigits h, nofun⟩
  · next whole fraction hsplit =>
    simp only [Bool.and_eq_true] at h
    exact ⟨whole, [fraction], hsplit, digits_of_someDigits h.1, digits_of_someDigits h.2⟩
  · cases h

/-- What is read of a decimal text is the number that it denotes, in nano-CPUs. -/
theorem parseCpu_eq {limits : Limits} {n : Int} (hpattern : cpuPattern limits.cpuCount = true)
    (h : parseCpu limits.cpuCount = .ok n) : (n : ℚ) = limits.cpus * 10 ^ 9 := by
  obtain ⟨whole, rest, hsplit, hwhole, hfraction⟩ := cpuPattern_parts hpattern
  have hlength : (rest.getD 0 []).length ≤ 9 := by
    by_contra hlong
    have hcut : 9 < ((whole :: rest).getD 1 []).length := Nat.lt_of_not_le hlong
    rw [parseCpu, hsplit, if_pos hcut] at h
    cases h
  rw [parseCpu_parts hsplit rfl hwhole hfraction hlength] at h
  have hn := (Except.ok.inj h).symm
  have hcpus : limits.cpus = Decimal.value whole + (Decimal.value (rest.getD 0 []) : ℚ) / 10 ^ (rest.getD 0 []).length := by
    rw [Limits.cpus, hsplit]
    rfl
  have hpower : (10 : ℚ) ^ 9 = 10 ^ (9 - (rest.getD 0 []).length) * 10 ^ (rest.getD 0 []).length := by
    rw [← pow_add]
    congr 1
    omega
  have hnano : (nanoCpusPerCpu : ℚ) = 10 ^ 9 := by norm_num [nanoCpusPerCpu]
  have hscale : (Decimal.value (rest.getD 0 []) : ℚ) / 10 ^ (rest.getD 0 []).length * 10 ^ 9 =
      10 ^ (9 - (rest.getD 0 []).length) * Decimal.value (rest.getD 0 []) := by
    rw [hpower]
    field_simp
  rw [hn, hcpus, add_mul, hscale]
  push_cast
  rw [hnano]

/-! ## Memory and processes -/

theorem amount_decimal {n : Int} (h : 0 < n) : amount (decimal n) = some (decimal n, []) := by
  have hdigits := digits_decimal h.le
  have htake : (decimal n).takeWhile Char.isDigit = decimal n := List.takeWhile_eq_self_iff.mpr hdigits
  have hdrop : (decimal n).dropWhile Char.isDigit = [] := List.dropWhile_eq_nil_iff.mpr hdigits
  have hne : decimal n ≠ [] := by
    rw [decimal_of_nonneg h.le]
    exact Nat.toDigits_ne_nil
  have hhead : (decimal n).head? ≠ some '0' := by
    rw [decimal_of_nonneg h.le]
    exact Decimal.head_toDigits _ (by omega)
  simp only [amount, htake, hdrop]
  rw [if_neg fun h => h.elim hne hhead]

/-- A number of bytes is read back. -/
theorem parseMemory_decimal {n : Int} (h : 0 < n) : parseMemory (decimal n) = .ok n := by
  have hunit : unitOf [] = some 0 := by decide
  simp only [parseMemory, amount_decimal h, hunit, bigInt_decimal, pow_zero]
  exact congrArg Except.ok (mul_one n)

theorem amount_parts {value digits rest : Text} (h : amount value = some (digits, rest)) :
    digits = value.takeWhile Char.isDigit ∧ rest = value.dropWhile Char.isDigit := by
  unfold amount at h
  dsimp only at h
  split at h
  · cases h
  · cases h
    exact ⟨rfl, rfl⟩

theorem digits_takeWhile (text : Text) : Decimal.Digits (text.takeWhile Char.isDigit) := fun _ h => List.mem_takeWhile_imp h

/-- What is read of a size is the bytes that it denotes. -/
theorem parseMemory_eq {limits : Limits} {n : Int} (h : parseMemory limits.memory = .ok n) : n = limits.bytes := by
  unfold parseMemory at h
  cases hamount : amount limits.memory with
  | none =>
    rw [hamount] at h
    cases h
  | some parts =>
    obtain ⟨digits, rest⟩ := parts
    obtain ⟨hdigits, hrest⟩ := amount_parts hamount
    rw [hamount] at h
    dsimp only at h
    cases hunit : unitOf rest with
    | none =>
      rw [hunit] at h
      cases h
    | some exponent =>
      rw [hunit] at h
      dsimp only at h
      rw [bigInt_digits (hdigits ▸ digits_takeWhile _)] at h
      cases h
      rw [Limits.bytes, ← hrest, ← hdigits, hunit]
      push_cast
      rfl

/-- What is read of a number of processes. -/
theorem bigInt_pids {limits : Limits} {n : Int} (hpattern : pidsPattern limits.pidsLimit = true)
    (h : bigInt limits.pidsLimit = .ok n) : n = limits.processes := by
  unfold pidsPattern at hpattern
  split at hpattern
  · next digits hamount =>
    obtain ⟨-, hrest⟩ := amount_parts hamount
    have hdigits : Decimal.Digits limits.pidsLimit := List.dropWhile_eq_nil_iff.mp hrest.symm
    rw [bigInt_digits hdigits] at h
    exact (Except.ok.inj h).symm
  · cases hpattern

end Dim.Resources
