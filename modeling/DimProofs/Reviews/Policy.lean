/-
Review policies of native roots: a policy is compiled from the reviewers, jobs and path rules of a manifest, sorted, with
three revisions that are digests of their JSON texts. The YAML parser and SHA-256 are parameters.
-/
import DimProofs.Lib.Json
import DimProofs.Lib.Utf16
import DimProofs.Projects.Draft
import DimProofs.Repositories.Set

namespace Dim.Reviews

open Repositories (Text Value Failure UrlParser require field each validateLifecycleName normalizeRepositoryRef includes
  startsWith)
open Projects (Sha256)

/-! ## JSON -/

mutual

/-- `JSON.stringify`; nothing of `undefined`. -/
def stringify? : Value → Option String
  | .undefined => none
  | .null => some "null"
  | .boolean b => some (Json.bool b)
  | .number n => some (toString n)
  | .string text => some (Json.string (String.ofList text))
  | .array items => some (Json.array (stringifyItems items))
  | .object entries => some (Json.object (stringifyEntries entries))

def stringifyItems : List Value → List String
  | [] => []
  | item :: rest => (stringify? item).getD "null" :: stringifyItems rest

def stringifyEntries : List (Text × Value) → List (String × String)
  | [] => []
  | (key, value) :: rest =>
    match stringify? value with
    | none => stringifyEntries rest
    | some text => (String.ofList key, text) :: stringifyEntries rest

end

def stringify (value : Value) : String := (stringify? value).getD "undefined"

/-! ## Policies -/

inductive ExecutionKind where
  | ordinarySysbox
  | qemu
deriving DecidableEq

def ExecutionKind.text : ExecutionKind → Text
  | .ordinarySysbox => "ordinary-sysbox".toList
  | .qemu => "qemu".toList

def ExecutionKind.parse (text : Text) : Option ExecutionKind :=
  if text = "ordinary-sysbox".toList then some .ordinarySysbox else if text = "qemu".toList then some .qemu else none

structure RequiredJob where
  name : Text
  kind : ExecutionKind
deriving DecidableEq

structure PathReviewerRule where
  pathPrefix : Text
  reviewerIds : List Text
deriving DecidableEq

/-- `NativeRootBootstrapPolicy["reviewPolicy"]`. -/
structure ReviewPolicy where
  (protectedRef policyRevision requiredReviewRevision requiredJobSetRevision : Text)
  requiredJobs : List RequiredJob
  requiredReviewerIds : List Text
  pathReviewerRules : List PathReviewerRule
deriving DecidableEq

structure NativeRootBootstrapPolicy where
  (rootAlias protectedRef : Text)
  reviewPolicy : ReviewPolicy

def candidateControlled : Text := "candidate-controlled".toList

/-- `RequiredJob`. -/
def RequiredJob.toValue (job : RequiredJob) : Value :=
  .object [("name".toList, .string job.name), ("kind".toList, .string job.kind.text)]

/-- `ImportedRequiredJob`. -/
def RequiredJob.imported (job : RequiredJob) : Value :=
  .object [("name".toList, .string job.name), ("kind".toList, .string job.kind.text),
    ("evidenceClass".toList, .string candidateControlled)]

def PathReviewerRule.toValue (rule : PathReviewerRule) : Value :=
  .object [("pathPrefix".toList, .string rule.pathPrefix), ("reviewerIds".toList, .ofTexts rule.reviewerIds)]

def ReviewPolicy.toValue (policy : ReviewPolicy) : Value :=
  .object [("schemaVersion".toList, .number 1), ("protectedRef".toList, .string policy.protectedRef),
    ("policyRevision".toList, .string policy.policyRevision),
    ("requiredReviewRevision".toList, .string policy.requiredReviewRevision),
    ("requiredJobSetRevision".toList, .string policy.requiredJobSetRevision),
    ("requiredJobs".toList, .array (policy.requiredJobs.map RequiredJob.imported)),
    ("requiredReviewerIds".toList, .ofTexts policy.requiredReviewerIds),
    ("pathReviewerRules".toList, .array (policy.pathReviewerRules.map PathReviewerRule.toValue))]

/-- The JSON text of a policy, which its digest is of. -/
def ReviewPolicy.json (policy : ReviewPolicy) : String := stringify policy.toValue

/-! ## Revisions -/

section Revisions

variable [Sha256]

def revision (domain version : String) (input : Value) : Text :=
  (Sha256.hex ("dim-native-" ++ domain ++ "-v" ++ version ++ "\x00" ++ stringify input)).toList

/-- The value of `{ requiredReviewerIds, pathReviewerRules }`, after the entries `before`. -/
def reviewsValue (before : List (Text × Value)) (requiredReviewerIds : List Text)
    (pathReviewerRules : List PathReviewerRule) : Value :=
  .object (before ++ [("requiredReviewerIds".toList, .ofTexts requiredReviewerIds),
    ("pathReviewerRules".toList, .array (pathReviewerRules.map PathReviewerRule.toValue))])

def reviewRevisionOf (requiredReviewerIds : List Text) (pathReviewerRules : List PathReviewerRule) : Text :=
  revision "reviewers" "1" (reviewsValue [] requiredReviewerIds pathReviewerRules)

def jobSetRevisionOf (requiredJobs : List RequiredJob) : Text :=
  revision "jobs" "2" (.array (requiredJobs.map RequiredJob.imported))

def policyRevisionOf (protectedRef : Text) (requiredReviewerIds : List Text)
    (pathReviewerRules : List PathReviewerRule) : Text :=
  revision "policy" "3"
    (reviewsValue [("protectedRef".toList, .string protectedRef)] requiredReviewerIds pathReviewerRules)

end Revisions

/-! ## Compilation -/

/-- The fields of an object that has all the required ones and no unknown one. -/
def exactRecord (value : Value) (required optional : List Text) (label : Text) : Except Failure (List (Text × Value)) :=
  let failure := Failure.userError (label ++ " contains missing or unknown fields".toList)
  match value with
  | .object entries =>
    let keys := entries.map Prod.fst
    if required.all keys.contains && keys.all (fun key => required.contains key || optional.contains key) then .ok entries
    else .error failure
  | _ => .error failure

def entries (value : Value) (label : Text) (allowEmpty : Bool) : Except Failure (List Value) :=
  let failure := Failure.userError ("native ".toList ++ label ++ " must be ".toList ++
    (if allowEmpty then "an array".toList else "a nonempty array".toList))
  match value with
  | .array items => if !allowEmpty && items.isEmpty then .error failure else .ok items
  | _ => .error failure

/-- `^[a-z0-9](?:[a-z0-9-]{0,62}[a-z0-9])?$`. -/
def reviewerPattern (text : Text) : Bool := Projects.projectIdPattern (String.ofList text)

/-- `^[a-z][a-z0-9-]{0,62}$`. -/
def jobPattern (text : Text) : Bool := Pattern.label (String.ofList text)

/-- A text that a check accepts. -/
def textOf (check : Text → Bool) : Value → Option Text
  | .string text => if check text then some text else none
  | _ => none

def reviewerIds (value : Value) (label : Text) : Except Failure (List Text) := do
  let failure := Failure.userError ("native ".toList ++ label ++ " are invalid or duplicated".toList)
  match (← entries value label false).mapM (textOf reviewerPattern) with
  | none => .error failure
  | some ids => if ids.Nodup then .ok ids else .error failure

/-- `[\x00-\x20\x7f~^:?*[\]]`. -/
def unsafeRefChar (c : Char) : Bool := c.toNat ≤ 0x20 || c.toNat = 0x7f || ['~', '^', ':', '?', '*', '[', ']'].contains c

def heads : Text := "refs/heads/".toList

def safeHeadRef (ref : Text) : Bool :=
  startsWith ref heads && !startsWith ref "refs/heads/proposals/".toList && ref.getLast? ≠ some '/' &&
    ref.getLast? ≠ some '.' && !".lock".toList.isSuffixOf ref && !includes ref "..".toList &&
    !includes ref "@\x7b".toList && !ref.contains '\\' && !ref.any unsafeRefChar &&
    ((ref.drop heads.length).splitOn '/').all fun component => component ≠ [] && component.head? ≠ some '.'

def safePathPrefix (pathPrefix : Text) : Bool :=
  1 ≤ Utf16.length pathPrefix && Utf16.length pathPrefix ≤ 1024 && !startsWith pathPrefix ['/'] &&
    !pathPrefix.contains (Char.ofNat 0) && !includes pathPrefix "//".toList &&
    (pathPrefix.splitOn '/').all fun component => component ≠ ".".toList && component ≠ "..".toList

def readJob (value : Value) : Except Failure RequiredJob := do
  let job ← exactRecord value ["name".toList, "kind".toList] [] "required job".toList
  match textOf jobPattern (field job "name".toList),
      (textOf (fun _ => true) (field job "kind".toList)).bind ExecutionKind.parse with
  | some name, some kind => return { name, kind }
  | _, _ => .error (.userError "native required job name or execution kind is invalid".toList)

def readRule (value : Value) : Except Failure PathReviewerRule := do
  let rule ← exactRecord value ["pathPrefix".toList, "reviewerIds".toList] [] "path reviewer rule".toList
  match textOf safePathPrefix (field rule "pathPrefix".toList) with
  | none => .error (.userError "native path reviewer prefix is unsafe".toList)
  | some pathPrefix =>
    let ids ← reviewerIds (field rule "reviewerIds".toList) "path reviewers".toList
    return { pathPrefix, reviewerIds := Utf16.sortBy id ids }

/-- The text that rules are sorted by. -/
def PathReviewerRule.key (rule : PathReviewerRule) : Text := (stringify rule.toValue).toList

def readRules : Value → Except Failure (List PathReviewerRule)
  | .undefined => .ok []
  | value => do
    let rules ← (← entries value "path reviewer rules".toList true).mapM readRule
    return Utf16.sortBy PathReviewerRule.key rules

def readJobs (value : Value) : Except Failure (List RequiredJob) := do
  let jobs ← (← entries value "required jobs".toList true).mapM readJob
  let requiredJobs := Utf16.sortBy RequiredJob.name jobs
  require (requiredJobs.length ≤ 64 && (requiredJobs.map RequiredJob.name).Nodup)
    "native required jobs must be distinct and contain at most 64 entries".toList
  return requiredJobs

section Compilation

variable [Sha256]

/-- The policy of sorted reviewers, jobs and rules. -/
def policyOf (rootAlias protectedRef : Text) (requiredReviewerIds : List Text) (requiredJobs : List RequiredJob)
    (pathReviewerRules : List PathReviewerRule) : NativeRootBootstrapPolicy :=
  { rootAlias, protectedRef,
    reviewPolicy := {
      protectedRef
      policyRevision := policyRevisionOf protectedRef requiredReviewerIds pathReviewerRules
      requiredReviewRevision := reviewRevisionOf requiredReviewerIds pathReviewerRules
      requiredJobSetRevision := jobSetRevisionOf requiredJobs
      requiredJobs, requiredReviewerIds, pathReviewerRules } }

/-- The input of `compileNativeRootBootstrapPolicy`. -/
structure Input where
  (rootAlias protectedRef : Text)
  review : Value

def compileNativeRootBootstrapPolicy (input : Input) : Except Failure NativeRootBootstrapPolicy := do
  let rootAlias ← validateLifecycleName input.rootAlias "native root alias".toList
  let protectedRef ← normalizeRepositoryRef input.protectedRef
  require (protectedRef = input.protectedRef && safeHeadRef protectedRef)
    "native root protected ref must be a safe concrete branch outside proposals".toList
  let review ← exactRecord input.review ["requiredReviewerIds".toList, "requiredJobs".toList]
    ["pathReviewerRules".toList] "native root review policy".toList
  let ids ← reviewerIds (field review "requiredReviewerIds".toList) "required reviewers".toList
  let requiredJobs ← readJobs (field review "requiredJobs".toList)
  let pathReviewerRules ← readRules (field review "pathReviewerRules".toList)
  return policyOf rootAlias protectedRef (Utf16.sortBy id ids) requiredJobs pathReviewerRules

end Compilation

/-! ## Manifests -/

/-- The parser of YAML documents: the value of a document, or its first error. -/
class YamlParser where
  parseDocument : String → Except Text Value

def maximumManifestBytes : Nat := 64 * 1024

/-- What `.` does not match. -/
def lineTerminator (c : Char) : Bool := c.toNat = 0x0a || c.toNat = 0x0d || c.toNat = 0x2028 || c.toNat = 0x2029

/-- `*` matches any text, and `?` any character. -/
def matchesProtectionPattern : (branch pattern : Text) → Bool
  | branch, '*' :: pattern => matchesAfterAny branch pattern
  | c :: branch, '?' :: pattern => !lineTerminator c && matchesProtectionPattern branch pattern
  | c :: branch, p :: pattern => c = p && matchesProtectionPattern branch pattern
  | [], [] => true
  | _, _ => false
termination_by branch pattern => (pattern.length, branch.length)
where
  /-- Matches the rest of a pattern at the end of some text. -/
  matchesAfterAny : Text → Text → Bool
    | [], pattern => matchesProtectionPattern [] pattern
    | c :: branch, pattern =>
      matchesProtectionPattern (c :: branch) pattern || (!lineTerminator c && matchesAfterAny branch pattern)
  termination_by branch pattern => (pattern.length, branch.length + 1)

/-- `^[A-Za-z][A-Za-z0-9+.-]*:\/\/`. -/
def hasScheme : Text → Bool
  | [] => false
  | c :: rest => (Pattern.upper c || Pattern.lower c) &&
    startsWith (rest.dropWhile fun d => Pattern.alphanumeric d || d = '+' || d = '.' || d = '-') "://".toList

/-- `^(?:[^/@:]+@)?[^/:]+:.+`; what the optional group matches, `[^/:]+` matches too. -/
def isScpLike (url : Text) : Bool :=
  match url.takeWhile (fun c => c ≠ '/' && c ≠ ':'), url.dropWhile (fun c => c ≠ '/' && c ≠ ':') with
  | _ :: _, ':' :: c :: _ => !lineTerminator c
  | _, _ => false

def assertPortableGitUrl (label url : Text) : Except Failure Unit :=
  require (hasScheme url || isScpLike url || startsWith url ['/'])
    (label ++ " must not be a relative filesystem path in a managed root manifest".toList)

def assertRepositorySetUrlsArePortable (set : Repositories.RepositorySet) (label : Text) : Except Failure Unit := do
  each (fun (member : Text × Repositories.Upstream) =>
    assertPortableGitUrl (label ++ ".upstreams.".toList ++ member.1 ++ ".url".toList) member.2.url) set.upstreams.entries
  each (fun (member : Text × Repositories.Entry) =>
    match member.2.url with
    | none => .ok ()
    | some url => assertPortableGitUrl (label ++ ".repositories.".toList ++ member.1 ++ ".url".toList) url)
    set.repositories.entries

section Manifest

variable [Sha256] [UrlParser] [YamlParser]

def manifestLabel : Text := "native bootstrap manifest".toList

/-- The set of a manifest, and the value of its review policy. -/
def readManifest (source : String) : Except Failure (Repositories.RepositorySet × Value) := do
  require (source.utf8ByteSize ≤ maximumManifestBytes) "native bootstrap manifest exceeds 64 KiB".toList
  match YamlParser.parseDocument source with
  | .error message => .error (.userError ("native bootstrap manifest is invalid YAML: ".toList ++ message))
  | .ok document =>
    let manifest ← exactRecord document ["schemaVersion".toList, "repositories".toList, "nativeReview".toList]
      ["upstreams".toList] manifestLabel
    let set ← Repositories.readSet Repositories.manifest
      (.object [("schemaVersion".toList, field manifest "schemaVersion".toList),
      ("repositories".toList, field manifest "repositories".toList),
        ("upstreams".toList, field manifest "upstreams".toList)])
      manifestLabel
    assertRepositorySetUrlsArePortable set manifestLabel
    return (set, field manifest "nativeReview".toList)

def parseNativeRootBootstrapManifestYaml (source : String) (selectedRef : Text) :
    Except Failure NativeRootBootstrapPolicy := do
  let (set, review) ← readManifest source
  match set.repositories.entries.filter fun member => member.2.root with
  | [(rootAlias, entry)] =>
    let normalizedRef ← normalizeRepositoryRef selectedRef
    require (entry.ref.all (· = normalizedRef)) "native bootstrap selected ref conflicts with the reviewed root ref".toList
    let branch := normalizedRef.drop heads.length
    require (entry.protectedPatterns.any (matchesProtectionPattern branch))
      "native bootstrap root branch is not protected by the reviewed manifest".toList
    compileNativeRootBootstrapPolicy { rootAlias, protectedRef := normalizedRef, review }
  | _ => .error (.userError "native bootstrap manifest must have exactly one root".toList)

end Manifest

end Dim.Reviews
