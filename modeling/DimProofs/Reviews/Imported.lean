/-
The policies that native Git imports with a root: a schema restates the grammar of compiled policies, what it accepts is
sorted again, and the three revisions have to be those of the sorted policy.
-/
import DimProofs.Reviews.Policy

namespace Dim.Reviews

open Repositories (Text Value Failure field startsWith)
open Projects (Sha256)

/-- `ZodError`, `ImportedRootPolicyError`. -/
inductive ImportFailure where
  | zod
  | importedRootPolicy

/-! ## The schema -/

/-- `z.object({...}).strict()`: the fields of an object without unknown ones. -/
def strict (fields : List Text) : Value → Option (List (Text × Value))
  | .object entries => if (entries.map Prod.fst).all fields.contains then some entries else none
  | _ => none

/-- `z.array(item)`, of a length within bounds. -/
def arrayOf {α : Type} (item : Value → Option α) (min : Nat) (max : Option Nat) : Value → Option (List α)
  | .array items =>
    if min ≤ items.length && max.all (items.length ≤ ·) then items.mapM item else none
  | _ => none

def literalText (text : Text) (value : Value) : Option Text := textOf (· = text) value

/-- `^[a-z0-9](?:[a-z0-9-]{0,62}[a-z0-9])?$`. -/
def identifier (value : Value) : Option Text := textOf reviewerPattern value

/-- `^[a-z][a-z0-9-]{0,62}$`. -/
def jobName (value : Value) : Option Text := textOf jobPattern value

/-- `^[A-Za-z0-9](?:[A-Za-z0-9._-]{0,126}[A-Za-z0-9])?$`. -/
def revisionPattern (text : Text) : Bool :=
  Pattern.bounded Pattern.alphanumeric Pattern.generationRest 127 text && text.getLast?.any Pattern.alphanumeric

def revisionValue (value : Value) : Option Text := textOf revisionPattern value

def protectedRef (value : Value) : Option Text := textOf (fun ref => Utf16.length ref ≤ 1024 && safeHeadRef ref) value

def pathRule (value : Value) : Option PathReviewerRule := do
  let rule ← strict ["pathPrefix".toList, "reviewerIds".toList] value
  let pathPrefix ← textOf safePathPrefix (field rule "pathPrefix".toList)
  let reviewerIds ← arrayOf identifier 1 none (field rule "reviewerIds".toList)
  return { pathPrefix, reviewerIds }

def importedJob (value : Value) : Option RequiredJob := do
  let job ← strict ["name".toList, "kind".toList, "evidenceClass".toList] value
  let name ← jobName (field job "name".toList)
  let kind ← (textOf (fun _ => true) (field job "kind".toList)).bind ExecutionKind.parse
  let _ ← literalText candidateControlled (field job "evidenceClass".toList)
  return { name, kind }

def literalOne : Value → Option Unit
  | .number 1 => some ()
  | _ => none

def nativeImportedRootPolicySchema (value : Value) : Option ReviewPolicy := do
  let policy ← strict ["schemaVersion".toList, "protectedRef".toList, "policyRevision".toList,
    "requiredReviewRevision".toList, "requiredJobSetRevision".toList, "requiredJobs".toList,
    "requiredReviewerIds".toList, "pathReviewerRules".toList] value
  literalOne (field policy "schemaVersion".toList)
  return {
    protectedRef := ← protectedRef (field policy "protectedRef".toList)
    policyRevision := ← revisionValue (field policy "policyRevision".toList)
    requiredReviewRevision := ← revisionValue (field policy "requiredReviewRevision".toList)
    requiredJobSetRevision := ← revisionValue (field policy "requiredJobSetRevision".toList)
    requiredJobs := ← arrayOf importedJob 0 (some 64) (field policy "requiredJobs".toList)
    requiredReviewerIds := ← arrayOf identifier 1 none (field policy "requiredReviewerIds".toList)
    pathReviewerRules := ← arrayOf pathRule 0 none (field policy "pathReviewerRules".toList) }

/-! ## Normal policies -/

def normalizeRules (rules : List PathReviewerRule) : List PathReviewerRule :=
  Utf16.sortBy PathReviewerRule.key (rules.map fun rule => { rule with reviewerIds := Utf16.sortBy id rule.reviewerIds })

def ReviewPolicy.normalized (policy : ReviewPolicy) : ReviewPolicy :=
  { policy with
    requiredJobs := Utf16.sortBy RequiredJob.name policy.requiredJobs
    requiredReviewerIds := Utf16.sortBy id policy.requiredReviewerIds
    pathReviewerRules := normalizeRules policy.pathReviewerRules }

/-- `assertUnique`, of every list of names. -/
def ReviewPolicy.unique (policy : ReviewPolicy) : Bool :=
  (policy.requiredJobs.map RequiredJob.name).Nodup && policy.requiredReviewerIds.Nodup &&
    policy.pathReviewerRules.all (·.reviewerIds.Nodup)

section Import

variable [Sha256]

/-- The revisions are those of the policy's own entries. -/
def ReviewPolicy.revised (policy : ReviewPolicy) : Bool :=
  policy.requiredReviewRevision = reviewRevisionOf policy.requiredReviewerIds policy.pathReviewerRules &&
    policy.requiredJobSetRevision = jobSetRevisionOf policy.requiredJobs &&
    policy.policyRevision = policyRevisionOf policy.protectedRef policy.requiredReviewerIds policy.pathReviewerRules

def parseAuthoritativeImportedRootPolicy (value : Value) : Except ImportFailure ReviewPolicy :=
  match nativeImportedRootPolicySchema value with
  | none => .error .zod
  | some policy =>
    if !policy.unique then .error .importedRootPolicy
    else if !policy.normalized.revised then .error .importedRootPolicy
    else .ok policy.normalized

/-- The digest of a policy, as the client and native Git compute it. -/
def ReviewPolicy.digest (policy : ReviewPolicy) : String := Sha256.hex policy.json

end Import

end Dim.Reviews
