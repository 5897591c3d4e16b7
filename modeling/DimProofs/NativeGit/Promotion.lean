/-
The promotion state of the native Git database: the intent that is open for a project, the transitions that
are finalized, and the head that they lead to from the imported root. A column that holds the JSON text of a
record holds the record itself. Only imports that an authoritative policy governs are kept.
-/
import DimProofs.Lib.Table
import DimProofs.NativeGit.Review

namespace Dim.NativeGit

open Relational Ordinary RootCi

/-! ## Transitions -/

structure PromotionApproval where
  (reviewerId approvalDigest : String)

structure PromotionJob where
  executionKind : ExecutionKind
  (jobName evidenceDigest : String)

structure NativeProjectRootPromotionEvidence where
  reviewId : String
  requiredReviewerIds : List String
  approvals : List PromotionApproval
  jobs : List PromotionJob

/-- A transition without its id and its evidence. -/
structure PromotionIdentity where
  (projectId importNonce : String)
  sequence : Nat
  (reviewId protectedRef proposalRef expectedCommit expectedTree candidateCommit : String)
  (candidateTree decisionGeneration policyDigest policyRevision requiredReviewRevision : String)
  (requiredJobSetRevision evidenceDigest : String)

structure NativeProjectRootPromotionTransition extends PromotionIdentity where
  transitionId : String
  evidence : NativeProjectRootPromotionEvidence

section
variable [Sha256]

def nativeProjectRootPromotionEvidenceDigest (evidence : NativeProjectRootPromotionEvidence) : String :=
  Sha256.hex ("dim-native-root-promotion-evidence-v1\x00" ++ Json.object
    [("approvals", Json.array (evidence.approvals.map fun approval => Json.object
        [("approvalDigest", Json.string approval.approvalDigest), ("reviewerId", Json.string approval.reviewerId)])),
      ("jobs", Json.array (evidence.jobs.map fun job => Json.object
        [("evidenceClass", Json.string "candidate-controlled"), ("evidenceDigest", Json.string job.evidenceDigest),
          ("executionKind", job.executionKind.json), ("jobName", Json.string job.jobName)])),
      ("requiredReviewerIds", Json.array (evidence.requiredReviewerIds.map Json.string)),
      ("reviewId", Json.string evidence.reviewId), ("schemaVersion", "1")])

/-- What the id of a transition is computed from, but for the sequence. -/
def PromotionIdentity.members (identity : PromotionIdentity) : List (String × String) :=
  [("candidateCommit", Json.string identity.candidateCommit), ("candidateTree", Json.string identity.candidateTree),
    ("decisionGeneration", Json.string identity.decisionGeneration),
    ("evidenceDigest", Json.string identity.evidenceDigest), ("expectedCommit", Json.string identity.expectedCommit),
    ("expectedTree", Json.string identity.expectedTree), ("importNonce", Json.string identity.importNonce),
    ("policyDigest", Json.string identity.policyDigest), ("policyRevision", Json.string identity.policyRevision),
    ("projectId", Json.string identity.projectId), ("proposalRef", Json.string identity.proposalRef),
    ("protectedRef", Json.string identity.protectedRef),
    ("requiredJobSetRevision", Json.string identity.requiredJobSetRevision),
    ("requiredReviewRevision", Json.string identity.requiredReviewRevision),
    ("reviewId", Json.string identity.reviewId)]

def nativeProjectRootPromotionTransitionId (identity : PromotionIdentity) : String :=
  Sha256.hex ("dim-native-root-promotion-transition-v1\x00" ++ Json.object
    (identity.members ++ [("sequence", toString identity.sequence)]))

end

/-! ## Ref names -/

/-- `includes`. -/
def includesPart (part chars : List Char) : Bool := chars.tails.any part.isPrefixOf

def proposalPrefix : List Char := "refs/heads/proposals/".toList

/-- The refinement of `protectedRef` in a policy. -/
def isProtectedRef (value : String) : Bool :=
  let chars := value.toList
  chars.length ≤ 1024 && "refs/heads/".toList.isPrefixOf chars && !proposalPrefix.isPrefixOf chars
    && !(['/'].isSuffixOf chars) && !(['.'].isSuffixOf chars) && !".lock".toList.isSuffixOf chars
    && !includesPart ['.', '.'] chars && !includesPart ['@', '\x7b'] chars && !chars.contains '\\'
    && chars.all (fun c => 0x20 < c.toNat && c.toNat ≠ 0x7f && !"~^:?*[]".toList.contains c)
    && ((chars.drop 11).splitOn '/').all fun part => part ≠ [] && part.head? ≠ some '.'

/-! ## Tables -/

/-- A row of `native_project_root_import` whose root is imported. `parsed` is what its parser asks of the
protected ref. -/
structure NativeProjectRootImport where
  (projectId importNonce protectedRef expectedCommit resolvedTree policyDigest : String)
  policy : NativeRootCiPolicy
  parsed : policy.protectedRef = protectedRef ∧ isProtectedRef protectedRef = true
deriving DecidableEq

/-- A row of `native_project_root_promotion_intent`. -/
structure PromotionIntentRow where
  transition : NativeProjectRootPromotionTransition

/-- A row of `native_project_root_promotion_finalized`. -/
structure PromotionFinalizedRow where
  transition : NativeProjectRootPromotionTransition

/-- The CHECK constraints on the columns that are not digests or object ids. -/
def transitionCheck (transition : NativeProjectRootPromotionTransition) : Bool :=
  1 ≤ transition.sequence && 1 ≤ transition.protectedRef.length && transition.protectedRef.length ≤ 1024
    && 1 ≤ transition.proposalRef.length && transition.proposalRef.length ≤ 1024

instance : Schema NativeProjectRootImport String where
  key := (·.projectId)
  clash a b := a.importNonce = b.importNonce
  check _ := true

instance : Schema PromotionIntentRow String where
  key r := r.transition.projectId
  clash a b := a.transition.transitionId = b.transition.transitionId
  check r := transitionCheck r.transition

instance : Schema PromotionFinalizedRow (String × Nat) where
  key r := (r.transition.projectId, r.transition.sequence)
  clash a b := a.transition.transitionId = b.transition.transitionId
    || (a.transition.projectId = b.transition.projectId && a.transition.reviewId = b.transition.reviewId)
  check r := transitionCheck r.transition

@[simp] theorem PromotionIntentRow.key_eq (r : PromotionIntentRow) : Schema.key r = r.transition.projectId := rfl

@[simp] theorem PromotionFinalizedRow.key_eq (r : PromotionFinalizedRow) :
    Schema.key r = (r.transition.projectId, r.transition.sequence) := rfl

/-- The failures of `NativeProjectRootPromotionStateError`, and a refused statement. -/
inductive PromotionStateError where
  | constraint (violation : Violation)
  | requiresImport
  | formatsConflict
  | chainInvalid
  | intentUnresolved
  | intentConflicts
  | intentMissing
deriving DecidableEq

instance : Refusal PromotionStateError := ⟨.constraint⟩

/-- `generations` are those of `bundle_activation`. -/
structure PromotionDatabase where
  imports : Table NativeProjectRootImport
  generations : List String
  intents : Table PromotionIntentRow
  finalized : Table PromotionFinalizedRow

structure NativeProjectRootCurrentHead where
  projectId : String
  sequence : Nat
  (protectedRef commit tree policyDigest : String)
deriving DecidableEq

/-! ## The head -/

/-- The required jobs in the order of the evidence. -/
def sortedJobs (localeCompare : String → String → Ordering) (jobs : List PromotionJob) : List PromotionJob :=
  jobs.insertionSort fun left right =>
    (match left.executionKind, right.executionKind with
      | .ordinarySysbox, .qemu => Ordering.lt
      | .qemu, .ordinarySysbox => Ordering.gt
      | _, _ => localeCompare left.jobName right.jobName) ≠ .gt

def requirePromotableImport (imported : Option NativeProjectRootImport) :
    Except PromotionStateError NativeProjectRootImport :=
  match imported with
  | none => throw .requiresImport
  | some imported => return imported

def initialHead (imported : NativeProjectRootImport) : Except PromotionStateError NativeProjectRootCurrentHead :=
  if imported.expectedCommit.length ≠ imported.resolvedTree.length then throw .formatsConflict
  else return { projectId := imported.projectId, sequence := 0, protectedRef := imported.protectedRef,
                commit := imported.expectedCommit, tree := imported.resolvedTree, policyDigest := imported.policyDigest }

/-- The condition of `assertNextTransition`, whose negation is an invalid chain. -/
def isNextTransition (localeCompare : String → String → Ordering) (imported : NativeProjectRootImport)
    (current : NativeProjectRootCurrentHead) (generations : List String)
    (transition : NativeProjectRootPromotionTransition) : Bool :=
  let expectedJobs := sortedJobs localeCompare (imported.policy.requiredJobs.map fun job =>
    { executionKind := job.kind, jobName := job.name, evidenceDigest := "" })
  transition.projectId = imported.projectId && transition.importNonce = imported.importNonce
    && transition.sequence = current.sequence + 1 && transition.expectedCommit = current.commit
    && transition.expectedTree = current.tree && transition.protectedRef = imported.protectedRef
    && transition.policyDigest = imported.policyDigest && transition.policyRevision = imported.policy.policyRevision
    && transition.requiredReviewRevision = imported.policy.requiredReviewRevision
    && transition.requiredJobSetRevision = imported.policy.requiredJobSetRevision
    && generations.contains transition.decisionGeneration
    && transition.evidence.jobs.map (fun job => (job.executionKind, job.jobName)) =
      expectedJobs.map (fun job => (job.executionKind, job.jobName))
    && imported.policy.requiredReviewerIds.all fun reviewer => transition.evidence.requiredReviewerIds.contains reviewer

def assertNextTransition (localeCompare : String → String → Ordering) (imported : NativeProjectRootImport)
    (current : NativeProjectRootCurrentHead) (generations : List String)
    (transition : NativeProjectRootPromotionTransition) : Except PromotionStateError Unit :=
  if isNextTransition localeCompare imported current generations transition then return () else throw .chainInvalid

/-- The head after a transition. -/
def NativeProjectRootCurrentHead.after (current : NativeProjectRootCurrentHead)
    (transition : NativeProjectRootPromotionTransition) : NativeProjectRootCurrentHead :=
  { current with sequence := transition.sequence, commit := transition.candidateCommit, tree := transition.candidateTree }

/-- The loop of `foldCurrentHead`. -/
def foldTransitions (localeCompare : String → String → Ordering) (imported : NativeProjectRootImport)
    (generations : List String) : NativeProjectRootCurrentHead → List NativeProjectRootPromotionTransition →
    Except PromotionStateError NativeProjectRootCurrentHead
  | current, [] => return current
  | current, transition :: rest => do
    assertNextTransition localeCompare imported current generations transition
    foldTransitions localeCompare imported generations (current.after transition) rest

def foldCurrentHead (localeCompare : String → String → Ordering) (imported : NativeProjectRootImport)
    (transitions : List NativeProjectRootPromotionTransition) (generations : List String) :
    Except PromotionStateError NativeProjectRootCurrentHead := do
  foldTransitions localeCompare imported generations (← initialHead imported) transitions

namespace PromotionDatabase

/-- The finalized transitions of a project: `ORDER BY sequence`. -/
def transitionsOf (db : PromotionDatabase) (projectId : String) : List NativeProjectRootPromotionTransition :=
  ((db.finalized.rows.filter fun r => r.transition.projectId = projectId).insertionSort fun a b =>
    a.transition.sequence ≤ b.transition.sequence).map (·.transition)

def intentOf (db : PromotionDatabase) (projectId : String) : Option NativeProjectRootPromotionTransition :=
  (db.intents.get? projectId).map (·.transition)

/-- `readNativeProjectRootCurrentHeadFromDatabase`. -/
def readCurrentHead (localeCompare : String → String → Ordering) (projectId : String) (db : PromotionDatabase) :
    Except PromotionStateError NativeProjectRootCurrentHead := do
  let imported ← requirePromotableImport (db.imports.get? projectId)
  let current ← foldCurrentHead localeCompare imported (db.transitionsOf projectId) db.generations
  match db.intentOf projectId with
  | some intent => do
    assertNextTransition localeCompare imported current db.generations intent
    throw .intentUnresolved
  | none => return current

/-- `readNativeProjectRootPromotionFinalized`. -/
def readFinalized (projectId : String) (db : PromotionDatabase) : List NativeProjectRootPromotionTransition :=
  db.transitionsOf projectId

/-- `readNativeProjectRootPromotionIntents`: `ORDER BY project_id`. -/
def readIntents (db : PromotionDatabase) : List NativeProjectRootPromotionTransition :=
  (db.intents.rows.insertionSort fun a b => a.transition.projectId ≤ b.transition.projectId).map (·.transition)

/-- The foreign keys of a row. -/
def assertReferences (transition : NativeProjectRootPromotionTransition) (db : PromotionDatabase) :
    Except PromotionStateError Unit :=
  if (db.imports.get? transition.projectId).isSome ∧ (db.imports.any fun r => r.importNonce = transition.importNonce)
      ∧ transition.decisionGeneration ∈ db.generations then return ()
  else throw (.constraint .foreignKey)

def saveIntent (transition : NativeProjectRootPromotionTransition) (db : PromotionDatabase) :
    Except PromotionStateError PromotionDatabase :=
  match db.intentOf transition.projectId with
  | some existing => if existing.transitionId ≠ transition.transitionId then throw .intentConflicts else return db
  | none => do
    db.assertReferences transition
    let intents ← db.intents.insert ⟨transition⟩
    return { db with intents }

def finalize (transition : NativeProjectRootPromotionTransition) (db : PromotionDatabase) :
    Except PromotionStateError PromotionDatabase :=
  match db.intentOf transition.projectId with
  | none => throw .intentMissing
  | some intent =>
    if intent.transitionId ≠ transition.transitionId then throw .intentMissing
    else do
      db.assertReferences transition
      let finalized ← db.finalized.insert ⟨transition⟩
      return { db with finalized, intents := db.intents.delete fun r => r.transition.projectId = transition.projectId }

end PromotionDatabase

end Dim.NativeGit
