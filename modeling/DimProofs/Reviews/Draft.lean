/-
Reading the draft of a native Project: its identity field by field, and its policy by compiling it again from its own
entries, which has to give the same JSON text.
-/
import DimProofs.Reviews.Policy

namespace Dim.Reviews

open Repositories (Text Value Failure field)
open Projects (Sha256 Identity Receipt objectIdPattern projectIdPattern maximumBundleBytes)

/-! ## Fields -/

/-- `isRecord`. -/
def fieldsOf : Value → Option (List (Text × Value))
  | .object fields => some fields
  | _ => none

/-- An object of exactly these fields. -/
def exactFields (fields : List Text) : Value → Option (List (Text × Value))
  | .object entries =>
    if entries.length = fields.length && fields.all (entries.map Prod.fst).contains then some entries else none
  | _ => none

def textField (record : List (Text × Value)) (name : Text) (pattern : String → Bool) : Option String :=
  (textOf (fun text => pattern (String.ofList text)) (field record name)).map String.ofList

def literalField (record : List (Text × Value)) (name text : Text) : Option Unit :=
  (textOf (· = text) (field record name)).map fun _ => ()

def numberField (record : List (Text × Value)) (name : Text) : Option Int :=
  match field record name with
  | .number n => some n
  | _ => none

/-! ## Drafts -/

def commonFields : List Text :=
  ["recordType".toList, "phase".toList, "name".toList, "projectId".toList, "serviceId".toList, "ownerHostId".toList,
    "generationId".toList, "rootRepositoryId".toList, "rootAlias".toList, "protectedRef".toList, "expectedCommit".toList,
    "expectedTree".toList, "reviewPolicy".toList, "bundleDigest".toList, "bundleSize".toList]

def modernFields : List Text := "schemaVersion".toList :: commonFields

def receiptFields : List Text :=
  ["schemaVersion".toList, "serviceId".toList, "projectId".toList, "rootRepositoryId".toList, "generationId".toList,
    "importNonce".toList, "protectedRef".toList, "expectedCommit".toList, "policyDigest".toList, "bundleDigest".toList,
    "bundleSize".toList, "resolvedTree".toList, "phase".toList]

/-- A draft of schema version 2: `import-pending` without a receipt, and `root-imported` with one. -/
structure Draft where
  identity : Identity ReviewPolicy
  importReceipt : Option Receipt

/-- `DraftIdentity`. -/
abbrev DraftIdentity := Identity Unit

def withPolicy (identity : DraftIdentity) (reviewPolicy : ReviewPolicy) : Identity ReviewPolicy where
  name := identity.name
  projectId := identity.projectId
  ownerHostId := identity.ownerHostId
  generationId := identity.generationId
  rootAlias := identity.rootAlias
  protectedRef := identity.protectedRef
  expectedCommit := identity.expectedCommit
  expectedTree := identity.expectedTree
  reviewPolicy := reviewPolicy
  bundleDigest := identity.bundleDigest
  bundleSize := identity.bundleSize

def parseIdentity (record : List (Text × Value)) : Option DraftIdentity := do
  literalField record "recordType".toList "native-project-draft".toList
  literalField record "serviceId".toList "native-main".toList
  literalField record "rootRepositoryId".toList "root".toList
  let name ← textField record "name".toList Lifecycle.validLifecycleName
  let expectedCommit ← textField record "expectedCommit".toList objectIdPattern
  let expectedTree ← textField record "expectedTree".toList objectIdPattern
  let bundleSize ← numberField record "bundleSize".toList
  guard (expectedTree.length = expectedCommit.length ∧ 1 ≤ bundleSize ∧ bundleSize ≤ (maximumBundleBytes : Int))
  let projectId ← textField record "projectId".toList projectIdPattern
  let ownerHostId ← textField record "ownerHostId".toList Pattern.identifier
  let generationId ← textField record "generationId".toList (Pattern.hexString 64)
  let rootAlias ← textField record "rootAlias".toList Pattern.label
  let protectedRef ← textField record "protectedRef".toList ("refs/heads/".toList.isPrefixOf ·.toList)
  let bundleDigest ← textField record "bundleDigest".toList (Pattern.hexString 64)
  return {
    name, projectId, ownerHostId, generationId, rootAlias, protectedRef, expectedCommit, expectedTree, reviewPolicy := (),
    bundleDigest, bundleSize := bundleSize.toNat }

/-- The entry of a job without its evidence class. -/
def withoutEvidence (value : Value) : Option Value := do
  let job ← exactFields ["name".toList, "kind".toList, "evidenceClass".toList] value
  literalField job "evidenceClass".toList candidateControlled
  return .object [("name".toList, field job "name".toList), ("kind".toList, field job "kind".toList)]

/-! ## Drafts as values -/

def textValue (text : String) : Value := .string text.toList

def receiptValue (receipt : Receipt) : Value :=
  .object [("schemaVersion".toList, .number 1), ("serviceId".toList, textValue "native-main"),
    ("projectId".toList, textValue receipt.projectId), ("rootRepositoryId".toList, textValue "root"),
    ("generationId".toList, textValue receipt.generationId), ("importNonce".toList, textValue receipt.importNonce),
    ("protectedRef".toList, textValue receipt.protectedRef), ("expectedCommit".toList, textValue receipt.expectedCommit),
    ("policyDigest".toList, textValue receipt.policyDigest), ("bundleDigest".toList, textValue receipt.bundleDigest),
    ("bundleSize".toList, .number receipt.bundleSize), ("resolvedTree".toList, textValue receipt.resolvedTree),
    ("phase".toList, textValue "root-imported")]

/-- What a draft has after its common fields. -/
def receiptEntry : Option Receipt → List (Text × Value)
  | none => []
  | some receipt => [("importReceipt".toList, receiptValue receipt)]

def phaseOf : Option Receipt → String
  | none => "import-pending"
  | some _ => "root-imported"

def Draft.toValue (draft : Draft) : Value :=
  let identity := draft.identity
  .object ([("schemaVersion".toList, .number 2), ("recordType".toList, textValue "native-project-draft"),
    ("phase".toList, textValue (phaseOf draft.importReceipt)), ("name".toList, textValue identity.name),
    ("projectId".toList, textValue identity.projectId), ("serviceId".toList, textValue "native-main"),
    ("ownerHostId".toList, textValue identity.ownerHostId), ("generationId".toList, textValue identity.generationId),
    ("rootRepositoryId".toList, textValue "root"), ("rootAlias".toList, textValue identity.rootAlias),
    ("protectedRef".toList, textValue identity.protectedRef), ("expectedCommit".toList, textValue identity.expectedCommit),
    ("expectedTree".toList, textValue identity.expectedTree), ("reviewPolicy".toList, identity.reviewPolicy.toValue),
    ("bundleDigest".toList, textValue identity.bundleDigest), ("bundleSize".toList, .number identity.bundleSize)] ++
    receiptEntry draft.importReceipt)

/-! ## Parsing -/

section Parsing

variable [Sha256]

/-- `compilePolicy`. -/
def compilePolicy (rootAlias protectedRef : Text) (requiredReviewerIds pathReviewerRules requiredJobs : Value) :
    Option ReviewPolicy :=
  match compileNativeRootBootstrapPolicy { rootAlias, protectedRef, review := .object [
      ("requiredReviewerIds".toList, requiredReviewerIds), ("pathReviewerRules".toList, pathReviewerRules),
      ("requiredJobs".toList, requiredJobs)] } with
  | .ok compiled => some compiled.reviewPolicy
  | .error _ => none

def parseModernPolicy (rootAlias protectedRef : Text) (value : Value) : Option ReviewPolicy := do
  let review ← exactFields ["schemaVersion".toList, "protectedRef".toList, "policyRevision".toList,
    "requiredReviewRevision".toList, "requiredJobSetRevision".toList, "requiredJobs".toList, "requiredReviewerIds".toList,
    "pathReviewerRules".toList] value
  match field review "requiredJobs".toList with
  | .array items =>
    let jobs ← items.mapM withoutEvidence
    let compiled ← compilePolicy rootAlias protectedRef (field review "requiredReviewerIds".toList)
      (field review "pathReviewerRules".toList) (.array jobs)
    guard (stringify value = compiled.json)
    return compiled
  | _ => none

/-- The policies of drafts: one that is compiled of its own entries, and its JSON text. -/
instance : Projects.Policies ReviewPolicy where
  compiles rootAlias protectedRef policy := parseModernPolicy rootAlias.toList protectedRef.toList policy.toValue =
    some policy
  stringify := ReviewPolicy.json

/-- `parseReceipt`: the policy's digest is that of its JSON text. -/
def parseReceipt (value : Value) (base : Identity ReviewPolicy) : Option Receipt := do
  let receipt ← exactFields receiptFields value
  let expect (name : Text) (text : String) : Option Unit := literalField receipt name text.toList
  guard (numberField receipt "schemaVersion".toList = some 1)
  expect "serviceId".toList "native-main"
  expect "projectId".toList base.projectId
  expect "rootRepositoryId".toList "root"
  expect "generationId".toList base.generationId
  expect "protectedRef".toList base.protectedRef
  expect "expectedCommit".toList base.expectedCommit
  expect "policyDigest".toList (Sha256.hex base.reviewPolicy.json)
  expect "bundleDigest".toList base.bundleDigest
  guard (numberField receipt "bundleSize".toList = some (base.bundleSize : Int))
  expect "resolvedTree".toList base.expectedTree
  expect "phase".toList "root-imported"
  let importNonce ← textField receipt "importNonce".toList Pattern.uuid
  return {
    projectId := base.projectId, generationId := base.generationId, importNonce, protectedRef := base.protectedRef,
    expectedCommit := base.expectedCommit, policyDigest := Sha256.hex base.reviewPolicy.json,
    bundleDigest := base.bundleDigest, bundleSize := base.bundleSize, resolvedTree := base.expectedTree }

/-- `Object.keys` of a draft, by its phase. -/
def draftFields (phase : Text) : List Text :=
  if phase = "root-imported".toList then modernFields ++ ["importReceipt".toList] else modernFields

/-- `parseNativeProjectDraft`, of schema version 2. -/
def parseNativeProjectDraft (input : Value) : Option Draft := do
  let fields ← fieldsOf input
  guard (numberField fields "schemaVersion".toList = some 2)
  let phase ← textOf (fun text => text = "import-pending".toList || text = "root-imported".toList)
    (field fields "phase".toList)
  let record ← exactFields (draftFields phase) input
  let base ← parseIdentity record
  let policy ← parseModernPolicy base.rootAlias.toList base.protectedRef.toList (field record "reviewPolicy".toList)
  if phase = "import-pending".toList then some ⟨withPolicy base policy, none⟩
  else do
    let receipt ← parseReceipt (field record "importReceipt".toList) (withPolicy base policy)
    return ⟨withPolicy base policy, some receipt⟩

end Parsing

end Dim.Reviews
