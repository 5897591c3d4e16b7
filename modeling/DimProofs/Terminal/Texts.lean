/-
The patterns of the texts in a terminal event, and the moments its timestamps name. The result intake of the ordinary
service and
the schema of native Git check refs, script paths, UUIDs and timestamps in different words.
-/
import DimProofs.Lib.Decimal
import DimProofs.Lib.Pattern
import DimProofs.Lib.Utf16

namespace Dim.Terminal

open Pattern (CharClass sequence only within oneOf digit lower alphanumeric generationRest bounded)

/-! ## Names, revisions and numbers -/

/-- `^[A-Za-z0-9](?:[A-Za-z0-9._-]{0,126}[A-Za-z0-9])?$`. -/
def revisionPattern (s : String) : Bool :=
  bounded alphanumeric generationRest 127 s.toList && s.toList.getLast?.any alphanumeric

/-- `^(?:[0-9a-f]{40}|[0-9a-f]{64})$`. -/
def objectIdPattern (s : String) : Bool := Pattern.hexString 40 s || Pattern.hexString 64 s

/-- `^[1-9][0-9]*$`. -/
def positivePattern (s : String) : Bool :=
  match s.toList with
  | [] => false
  | c :: cs => within '1' '9' c && cs.all digit

/-- `^(?:0|[1-9][0-9]*)$`. -/
def naturalPattern (s : String) : Bool := s = "0" || positivePattern s

/-- `BigInt(s)`. -/
def decimal (s : String) : Nat := Decimal.value s.toList

/-- `[0-9a-f]` of a pattern that ignores the case. -/
def anyHex : CharClass := fun c => Pattern.hex c || within 'A' 'F' c

/-- `^[0-9a-f]{8}-[0-9a-f]{4}-[1-8][0-9a-f]{3}-[89ab][0-9a-f]{3}-[0-9a-f]{12}$`, whatever the case. -/
def uuidPattern (s : String) : Bool :=
  sequence (List.replicate 8 anyHex ++ only '-' :: List.replicate 4 anyHex ++
    only '-' :: within '1' '8' :: List.replicate 3 anyHex
    ++ only '-' :: oneOf ['8', '9', 'a', 'b', 'A', 'B'] :: List.replicate 3 anyHex ++
      only '-' :: List.replicate 12 anyHex) s.toList

/-! ## Images -/

/-- `[a-z0-9]+(?:[separator][a-z0-9]+)*`. -/
def words (separator : CharClass) (text : List Char) : Bool :=
  (text.splitOnP separator).all fun word => word ≠ [] && word.all fun c => lower c || digit c

/-- `[a-z0-9]+(?:[.-][a-z0-9]+)*(?::[0-9]+)?`. -/
def registryPattern (text : List Char) : Bool :=
  match text.splitOn ':' with
  | [host] => words (oneOf ['.', '-']) host
  | [host, port] => words (oneOf ['.', '-']) host && port ≠ [] && port.all digit
  | _ => false

def imageComponent (text : List Char) : Bool := words (oneOf ['.', '_', '-']) text

/-- The components of an image name: the first of several may be a registry. -/
def imageName : List (List Char) → Bool
  | [] => false
  | [name] => imageComponent name
  | first :: rest => (registryPattern first || imageComponent first) && rest.all imageComponent

/-- `^(registry/)?name(/name)*@sha256:[0-9a-f]{64}$`. -/
def imagePattern (s : String) : Bool :=
  match s.toList.splitOn '@' with
  | [name, digest] => imageName (name.splitOn '/') && Pattern.digest (String.ofList digest)
  | _ => false

/-! ## Refs and paths -/

/-- `.` of a pattern: no line terminator. -/
def dot : CharClass := fun c => !([0x0a, 0x0d, 0x2028, 0x2029].contains c.toNat)

/-- `value.startsWith(start)`. -/
def startsWith (start value : String) : Bool := start.toList.isPrefixOf value.toList

/-- `value.endsWith(last)`. -/
def endsWith (last value : String) : Bool := last.toList.isSuffixOf value.toList

/-- `value.includes(part)`. -/
def includes (part value : String) : Bool := decide (part.toList <:+: value.toList)

/-- `[\x00-\x20\x7f~^:?*[\]]`. -/
def unsafeRefChar (c : Char) : Bool := c.toNat ≤ 0x20 || c.toNat = 0x7f || oneOf ['~', '^', ':', '?', '*', '[', ']'] c

/-- The components of a ref after `refs/heads/`. -/
def refComponents (ref : String) : List (List Char) := (ref.toList.drop 11).splitOn '/'

def safeComponent (component : List Char) : Bool := component ≠ [] && component.head? ≠ some '.'

/-- `^refs\/heads\/.+$`. -/
def headsPattern (ref : String) : Bool :=
  startsWith "refs/heads/" ref && ref.toList.drop 11 ≠ [] && (ref.toList.drop 11).all dot

/-- The endings, parts and characters that `headRef` refuses. -/
def unsafeRef (ref : String) : Bool :=
  endsWith "/" ref || endsWith "." ref || endsWith ".lock" ref || includes ".." ref || includes "@\x7b" ref ||
    ref.toList.any fun c => c = '\\' || unsafeRefChar c

/-- `^\.dim\/ci\/jobs\/.+\.bash$`. -/
def scriptPattern (path : String) : Bool :=
  startsWith ".dim/ci/jobs/" path && 18 < path.length && ".bash".toList.isSuffixOf (path.toList.drop 13) &&
    ((path.toList.drop 13).take (path.length - 18)).all dot

def pathComponents (path : String) : List (List Char) := path.toList.splitOn '/'

def plainComponent (component : List Char) : Bool := component ≠ [] && component ≠ ['.'] && component ≠ ['.', '.']

@[simp] theorem decimal_toString (n : Nat) : decimal (toString n) = n := by
  rw [decimal, Nat.toString_eq_ofList_toDigits, String.toList_ofList, Decimal.value_toDigits]

end Dim.Terminal
