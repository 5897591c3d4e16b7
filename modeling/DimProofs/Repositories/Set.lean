/-
Repository sets: a value that was parsed from a manifest, or stored, is read field by field into repositories and
upstreams by name, and the sharing of an upstream is checked. Whether the platform's URL parser accepts an HTTP URL, and
finds credentials in it, is a parameter.
-/
import DimProofs.Lib.PlainObject
import DimProofs.Lifecycle.State

namespace Dim.Repositories

abbrev Text := List Char

/-- An error of the program itself, or of the language. -/
inductive Failure where
  | userError (message : Text)
  | typeError
deriving DecidableEq

/-! ## Values -/

/-- A value of unknown type. -/
inductive Value where
  | undefined
  | null
  | boolean (b : Bool)
  | number (n : Int)
  | string (text : Text)
  | array (items : List Value)
  | object (entries : List (Text × Value))

namespace Value

def ofOption : Option Text → Value
  | some text => .string text
  | none => .undefined

def ofTexts (texts : List Text) : Value := .array (texts.map .string)

def ofMap (map : PlainObject Text) : Value := .object (map.entries.map fun entry => (entry.1, .string entry.2))

end Value

/-- `HTTP` URLs: whether `new URL(text)` throws, and whether it finds a user name or a password. -/
class UrlParser where
  hasCredentials : Text → Option Bool

def quote (text : Text) : Text := ['\''] ++ text ++ ['\'']

def require (condition : Bool) (message : Text) : Except Failure Unit :=
  if condition then .ok () else .error (.userError message)

/-- A `for` loop that may throw. -/
def each {α : Type} (f : α → Except Failure Unit) : List α → Except Failure Unit
  | [] => .ok ()
  | a :: rest => do
    f a
    each f rest

/-! ## Fields -/

def object (value : Value) (label : Text) : Except Failure (List (Text × Value)) :=
  match value with
  | .object entries => .ok entries
  | _ => .error (.userError (label ++ " must be an object".toList))

/-- The first unknown key is reported, unless it is the empty one. -/
def exactKeys (entries : List (Text × Value)) (allowed : List Text) (label : Text) : Except Failure Unit :=
  match (entries.map Prod.fst).find? (!allowed.contains ·) with
  | none => .ok ()
  | some key => require (key = []) (label ++ " contains unknown field ".toList ++ quote key)

def field (entries : List (Text × Value)) (name : Text) : Value := (entries.lookup name).getD .undefined

def validateLifecycleName (value kind : Text) : Except Failure Text := do
  require (Lifecycle.validLifecycleName (String.ofList value))
    (kind ++ " name must match [a-z0-9][a-z0-9_.-]\x7b0,47\x7d".toList)
  return value

def optionalString (value : Value) (label : Text) : Except Failure (Option Text) :=
  match value with
  | .undefined => .ok none
  | .string (c :: text) => .ok (some (c :: text))
  | _ => .error (.userError (label ++ " must be a non-empty string".toList))

/-- Applies a check to a text, if there is one. -/
def checkText (check : Text → Except Failure Unit) : Option Text → Except Failure (Option Text)
  | none => .ok none
  | some text => do
    check text
    return some text

def optionalLifecycleName (value : Value) (label : Text) : Except Failure (Option Text) := do
  checkText (fun text => (fun _ => ()) <$> validateLifecycleName text label) (← optionalString value label)

/-- `[-A-Za-z0-9._/]`. -/
def branchChar (c : Char) : Bool := Pattern.alphanumeric c || c = '.' || c = '_' || c = '/' || c = '-'

def includes (text part : Text) : Bool := decide (part <:+: text)

/-- The texts that neither prefixes nor branches contain. -/
def unsafeParts (text : Text) : Bool :=
  includes text "//".toList || includes text "..".toList || includes text "@\x7b".toList || includes text ['\\']

/-- `^[A-Za-z0-9][-A-Za-z0-9._/]*\/$`. -/
def prefixPattern : Text → Bool
  | [] => false
  | c :: rest => Pattern.alphanumeric c && rest.all branchChar && rest.getLast? = some '/'

def safePrefix (text : Text) : Bool :=
  text.getLast? = some '/' && text.head? ≠ some '/' && !unsafeParts text && prefixPattern text

def optionalRefPrefix (value : Value) (label : Text) : Except Failure (Option Text) := do
  checkText (fun text => require (safePrefix text) (label ++ " must be a safe ref-name prefix ending in '/'".toList))
    (← optionalString value label)

/-- `/^https?:\/\//i`. -/
def isHttp (text : Text) : Bool :=
  "http://".toList.isPrefixOf (text.map Char.toLower) || "https://".toList.isPrefixOf (text.map Char.toLower)

section Url

variable [UrlParser]

def checkGitUrl (label text : Text) : Except Failure Unit :=
  if isHttp text then
    match UrlParser.hasCredentials text with
    | none => .error (.userError (label ++ " must be a valid HTTP Git URL".toList))
    | some credentials => require (!credentials)
        (label ++ " must not contain credentials; use the host Git credential configuration".toList)
  else .ok ()

def optionalGitUrl (value : Value) (label : Text) : Except Failure (Option Text) := do
  checkText (checkGitUrl label) (← optionalString value label)

end Url

def boolean (value : Value) (label : Text) : Except Failure Bool :=
  match value with
  | .boolean b => .ok b
  | _ => .error (.userError (label ++ " must be a boolean".toList))

/-- `entry.x === undefined ? false : boolean(entry.x, label)`. -/
def optionalBoolean (value : Value) (label : Text) : Except Failure Bool :=
  match value with
  | .undefined => .ok false
  | value => boolean value label

/-- A non-empty text. -/
def itemText : Value → Option Text
  | .string (c :: text) => some (c :: text)
  | _ => none

def stringArray (value : Value) (label : Text) : Except Failure (List Text) :=
  match value with
  | .undefined => .ok []
  | .array items =>
    match items.mapM itemText with
    | none => .error (.userError (label ++ " must be an array of non-empty strings".toList))
    | some texts => do
      require texts.Nodup (label ++ " must not contain duplicates".toList)
      return texts
  | _ => .error (.userError (label ++ " must be an array of non-empty strings".toList))

/-- `^(?!\/|.*(?:\.\.|@\{|\\|\/\/))[A-Za-z0-9][-A-Za-z0-9._/]*$`. -/
def branchPattern : Text → Bool
  | [] => false
  | c :: rest => Pattern.alphanumeric c && rest.all branchChar && !unsafeParts (c :: rest)

def safeBranch (branch : Text) : Bool :=
  !"refs/".toList.isPrefixOf branch && branchPattern branch && branch.getLast? ≠ some '/' && branch.getLast? ≠ some '.' &&
    (branch.splitOn '/').all fun component => component.head? ≠ some '.' && !".lock".toList.isSuffixOf component

def checkBranch (branchLabel branch : Text) : Except Failure Unit :=
  require (safeBranch branch) (branchLabel ++ " must be a safe branch name without refs/heads/".toList)

def unsupportedNames : List Text := ["__proto__".toList, "constructor".toList, "prototype".toList]

/-- One entry of a branch map, after the entries `result`. -/
def readBranch (label verb : Text) (result : PlainObject Text) (source : Text) (value : Value) :
    Except Failure (Text × Text) := do
  let sourceLabel := label ++ ['.'] ++ source
  match ← optionalString value sourceLabel with
  | none => .error (.userError (sourceLabel ++ " must be a non-empty string".toList))
  | some destination =>
    checkBranch (label ++ " key".toList) source
    checkBranch sourceLabel destination
    require (!unsupportedNames.contains source) (label ++ " contains unsupported branch name ".toList ++ quote source)
    require (!result.values.contains destination)
      (label ++ " must not ".toList ++ verb ++ " multiple branches to ".toList ++ quote destination)
    return (source, destination)

def branchMap (value : Value) (label verb : Text) : Except Failure (PlainObject Text) :=
  match value with
  | .undefined => .ok .empty
  | value => do PlainObject.collect (readBranch label verb) .empty (← object value label)

/-- `^[0-9a-f]{40,64}$`. -/
def isObjectId (value : Text) : Bool := 40 ≤ value.length && value.length ≤ 64 && value.all Pattern.hex

/-- `^refs\/(?:heads|tags|pull)\/[A-Za-z0-9][-A-Za-z0-9._/]*$`. -/
def refPattern (ref : Text) : Bool :=
  ["refs/heads/".toList, "refs/tags/".toList, "refs/pull/".toList].any fun base =>
    base.isPrefixOf ref && match ref.drop base.length with
      | [] => false
      | c :: rest => Pattern.alphanumeric c && rest.all branchChar

def normalizeRepositoryRef (value : Text) : Except Failure Text :=
  if isObjectId value then .ok value
  else do
    let ref := if "refs/".toList.isPrefixOf value then value else "refs/heads/".toList ++ value
    require (refPattern ref && !includes ref "..".toList && ref.getLast? ≠ some '/')
      ("repository ref ".toList ++ quote value ++ " is invalid".toList)
    return ref

/-! ## Sets -/

/-- `RepositorySetEntry`. -/
structure Entry where
  (url upstream refPrefix : Option Text)
  (fallback root : Bool)
  ref : Option Text
  (protectedPatterns forcePushBlockedPatterns : List Text)
  (importBranches publishBranches : PlainObject Text)
deriving DecidableEq

structure Upstream where
  url : Text
deriving DecidableEq

structure RepositorySet where
  upstreams : PlainObject Upstream
  repositories : PlainObject Entry
deriving DecidableEq

/-- What a manifest and a stored set differ in: four names of fields, and whether a flag may be missing. -/
structure Form where
  (protectField blockForcePushField importField publishField : Text)
  flag : Value → Text → Except Failure Bool

def manifest : Form where
  protectField := "protect".toList
  blockForcePushField := "blockForcePush".toList
  importField := "import".toList
  publishField := "publish".toList
  flag := optionalBoolean

def stored : Form where
  protectField := "protectedPatterns".toList
  blockForcePushField := "forcePushBlockedPatterns".toList
  importField := "importBranches".toList
  publishField := "publishBranches".toList
  flag := boolean

def Form.fields (form : Form) : List Text :=
  ["url".toList, "upstream".toList, "refPrefix".toList, "fallback".toList, "root".toList, "ref".toList, form.protectField,
    form.blockForcePushField, form.importField, form.publishField]

section Reading

variable [UrlParser]

def readUpstream (label : Text) (_ : PlainObject Upstream) (nameInput : Text) (value : Value) :
    Except Failure (Text × Upstream) := do
  let name ← validateLifecycleName nameInput "upstream name".toList
  let itemLabel := label ++ ".upstreams.".toList ++ name
  let item ← object value itemLabel
  exactKeys item ["url".toList] itemLabel
  match ← optionalGitUrl (field item "url".toList) (itemLabel ++ ".url".toList) with
  | none => .error (.userError (itemLabel ++ ".url is required".toList))
  | some url => return (name, ⟨url⟩)

def readUpstreams (value : Value) (label : Text) : Except Failure (PlainObject Upstream) :=
  match value with
  | .undefined => .ok .empty
  | value => do PlainObject.collect (readUpstream label) .empty (← object value (label ++ ".upstreams".toList))

/-- `ref === undefined ? {} : { ref: normalizeRepositoryRef(ref) }`. -/
def readRef (value : Value) (label : Text) : Except Failure (Option Text) := do
  match ← optionalString value label with
  | none => return none
  | some ref => return some (← normalizeRepositoryRef ref)

def readEntry (form : Form) (label : Text) (_ : PlainObject Entry) (aliasInput : Text) (value : Value) :
    Except Failure (Text × Entry) := do
  let repoAlias ← validateLifecycleName aliasInput "repo alias".toList
  let entryLabel := label ++ ".repositories.".toList ++ repoAlias
  let entry ← object value entryLabel
  let pathOf (name : Text) := entryLabel ++ ['.'] ++ name
  exactKeys entry form.fields entryLabel
  let url ← optionalGitUrl (field entry "url".toList) (pathOf "url".toList)
  let upstream ← optionalLifecycleName (field entry "upstream".toList) (pathOf "upstream".toList)
  let refPrefix ← optionalRefPrefix (field entry "refPrefix".toList) (pathOf "refPrefix".toList)
  let fallback ← form.flag (field entry "fallback".toList) (pathOf "fallback".toList)
  let root ← form.flag (field entry "root".toList) (pathOf "root".toList)
  let ref ← readRef (field entry "ref".toList) (pathOf "ref".toList)
  let protectedPatterns ← stringArray (field entry form.protectField) (pathOf form.protectField)
  let forcePushBlockedPatterns ← stringArray (field entry form.blockForcePushField) (pathOf form.blockForcePushField)
  let importBranches ← branchMap (field entry form.importField) (pathOf form.importField) "import".toList
  let publishBranches ← branchMap (field entry form.publishField) (pathOf form.publishField) "publish".toList
  return (repoAlias, {
    url, upstream, refPrefix, fallback, root, ref, protectedPatterns, forcePushBlockedPatterns, importBranches,
    publishBranches })

end Reading

/-! ## Shared upstreams -/

/-- How many of the conditions hold. -/
def countTrue (conditions : List Bool) : Nat := (conditions.filter id).length

def Entry.hasImports (entry : Entry) : Bool := entry.importBranches.entries ≠ []

/-- `!set.upstreams[name]`, negated: an inherited property is as good as one of the set's own. -/
def RepositorySet.findsUpstream (set : RepositorySet) (name : Text) : Bool := set.upstreams.read name ≠ .undefined

def validateEntry (set : RepositorySet) (label : Text) (member : Text × Entry) : Except Failure Unit := do
  let entry := member.2
  let entryLabel := label ++ ".repositories.".toList ++ member.1
  require (entry.url = none || entry.upstream = none) (entryLabel ++ " cannot contain both url and upstream".toList)
  match entry.upstream with
  | none =>
    require (entry.refPrefix = none && !entry.fallback) (entryLabel ++ ".refPrefix and fallback require upstream".toList)
  | some upstream =>
    require (set.findsUpstream upstream) (entryLabel ++ ".upstream references unknown upstream ".toList ++ quote upstream)
    require (countTrue [entry.refPrefix.isSome, entry.fallback, entry.hasImports] = 1)
      (entryLabel ++ " must contain exactly one of refPrefix, fallback: true, or import".toList)

/-- The repositories of an upstream. -/
def RepositorySet.members (set : RepositorySet) (upstream : Text) : List (Text × Entry) :=
  set.repositories.entries.filter fun member => member.2.upstream = some upstream

/-- The prefixes of an upstream's repositories, with their aliases. -/
def prefixesOf (members : List (Text × Entry)) : List (Text × Text) :=
  members.filterMap fun member => member.2.refPrefix.map fun p => (member.1, p)

def startsWith (text start : Text) : Bool := start.isPrefixOf text

def validateOverlap (label : Text) (a b : Text × Text) : Except Failure Unit :=
  require (!(startsWith a.2 b.2 || startsWith b.2 a.2))
    (label ++ " has overlapping ref prefixes for ".toList ++ quote a.1 ++ " and ".toList ++ quote b.1)

/-- Two nested `for` loops over the pairs of a list. -/
def eachPair {α : Type} (f : α → α → Except Failure Unit) : List α → Except Failure Unit
  | [] => .ok ()
  | a :: rest => do
    each (f a) rest
    eachPair f rest

/-- The external branches that an upstream's repositories import, with their aliases. -/
def importsOf (members : List (Text × Entry)) : List (Text × Text) :=
  members.flatMap fun member => member.2.importBranches.values.map fun external => (member.1, external)

/-- Each external branch is imported once; `seen` are the imports before. -/
def validateImports (label upstream : Text) (seen : List (Text × Text)) : List (Text × Text) → Except Failure Unit
  | [] => .ok ()
  | (repoAlias, external) :: rest =>
    match seen.find? (·.2 = external) with
    | some existing => .error (.userError (label ++ ".upstreams.".toList ++ upstream ++ " maps external branch ".toList ++
        quote external ++ " to both ".toList ++ quote existing.1 ++ " and ".toList ++ quote repoAlias))
    | none => validateImports label upstream ((repoAlias, external) :: seen) rest

def validateUpstream (set : RepositorySet) (label upstream : Text) : Except Failure Unit := do
  let members := set.members upstream
  let upstreamLabel := label ++ ".upstreams.".toList ++ upstream
  let hasExplicitImports := members.any fun member => member.2.hasImports
  let hasNamespaceImports := members.any fun member => member.2.refPrefix.isSome || member.2.fallback
  require (!(hasExplicitImports && hasNamespaceImports))
    (upstreamLabel ++ " cannot mix explicit import mappings with refPrefix/fallback namespaces".toList)
  require ((members.filter fun member => member.2.fallback).length ≤ 1)
    (upstreamLabel ++ " has more than one fallback repository".toList)
  eachPair (validateOverlap label) (prefixesOf members)
  validateImports label upstream [] (importsOf members)

def validateSharedUpstreams (set : RepositorySet) (label : Text) : Except Failure Unit := do
  each (validateEntry set label) set.repositories.entries
  each (validateUpstream set label) set.upstreams.keys

def checkSchemaVersion (value : Value) (label : Text) : Except Failure Unit :=
  match value with
  | .number 1 => .ok ()
  | _ => .error (.userError (label ++ ".schemaVersion must be 1".toList))

section Sets

variable [UrlParser]

def readSet (form : Form) (value : Value) (label : Text) : Except Failure RepositorySet := do
  let root ← object value label
  exactKeys root ["schemaVersion".toList, "upstreams".toList, "repositories".toList] label
  checkSchemaVersion (field root "schemaVersion".toList) label
  let upstreams ← readUpstreams (field root "upstreams".toList) label
  let entries ← object (field root "repositories".toList) (label ++ ".repositories".toList)
  let repositories ← PlainObject.collect (readEntry form label) .empty entries
  require (repositories.entries ≠ []) (label ++ ".repositories must not be empty".toList)
  validateSharedUpstreams ⟨upstreams, repositories⟩ label
  return ⟨upstreams, repositories⟩

def normalizeRepositorySet (value : Value) : Except Failure RepositorySet := readSet manifest value "repository set".toList

def validateRepositorySet (value : Value) : Except Failure RepositorySet := readSet stored value "repositorySet".toList

end Sets

/-! ## A set as a value -/

def Entry.toValue (entry : Entry) : Value :=
  .object [("url".toList, .ofOption entry.url), ("upstream".toList, .ofOption entry.upstream),
    ("refPrefix".toList, .ofOption entry.refPrefix), ("fallback".toList, .boolean entry.fallback),
    ("root".toList, .boolean entry.root), ("ref".toList, .ofOption entry.ref),
    ("protectedPatterns".toList, .ofTexts entry.protectedPatterns),
    ("forcePushBlockedPatterns".toList, .ofTexts entry.forcePushBlockedPatterns),
    ("importBranches".toList, .ofMap entry.importBranches), ("publishBranches".toList, .ofMap entry.publishBranches)]

def Upstream.toValue (upstream : Upstream) : Value := .object [("url".toList, .string upstream.url)]

def RepositorySet.toValue (set : RepositorySet) : Value :=
  .object [("schemaVersion".toList, .number 1),
    ("upstreams".toList, .object (set.upstreams.entries.map fun entry => (entry.1, entry.2.toValue))),
    ("repositories".toList, .object (set.repositories.entries.map fun entry => (entry.1, entry.2.toValue)))]

end Dim.Repositories
