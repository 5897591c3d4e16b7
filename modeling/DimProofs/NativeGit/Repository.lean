/-
What native Git keeps of its projects besides the promotion state: the refs of a root repository, its
reviews, the decisions of the reviewers, the attempts and their statuses. The objects of the repositories are
a parameter, since an object never changes. Reads of stored files are reads of the records in them; the
checks of registrations, of the activation and of the layout of a store are left out.
-/
import DimProofs.NativeGit.Promotion
import DimProofs.Qemu.NativeGit

namespace Dim.NativeGit

open Relational Ordinary RootCi Qemu

/-! ## Git -/

/-- What Git computes from objects: the tree of a commit, whether a commit is reachable from another, whether
the objects of a commit are sound, and the difference of two commits. Reachability orders the commits. -/
structure GitObjects where
  tree : String → Option String
  isAncestor : String → String → Bool
  fsck : String → Bool
  changes : String → String → List AuthoritativeNativeChangedPath
  patch : String → String → List UInt8
  refl : ∀ commit, isAncestor commit commit = true
  trans : ∀ a b c, isAncestor a b = true → isAncestor b c = true → isAncestor a c = true
  antisymm : ∀ a b, isAncestor a b = true → isAncestor b a = true → a = b

abbrev Refs := List (String × String)

/-- A ref takes a value, whether or not it exists. -/
def setRef (ref commit : String) (refs : Refs) : Refs := (ref, commit) :: refs.filter (·.1 ≠ ref)

/-- The workspace of a proposal ref, which `^refs\/heads\/proposals\/([A-Za-z0-9_-]{43})\//` captures. -/
def workspaceOf (ref : String) : Option String :=
  let chars := ref.toList
  if chars.take 21 = proposalPrefix ∧ (chars.drop 64).head? = some '/'
      ∧ ((chars.drop 21).take 43).all (fun c => c.isAlphanum || c = '_' || c = '-') then
    some (String.ofList ((chars.drop 21).take 43))
  else none

/-- A proposal name without the forms that Git refuses. -/
def safeName (name : List Char) : Bool :=
  name ≠ [] && name.all (fun c => c.isAlphanum || c = '.' || c = '_' || c = '/' || c = '-')
    && name.head? ≠ some '.' && !includesPart ['/', '.'] name && !includesPart ['.', '.'] name
    && !includesPart ['/', '/'] name && !(['/'].isSuffixOf name) && !(['.'].isSuffixOf name)
    && !(".lock".toList.isSuffixOf name)

def isWorkspaceProposalRef (ref : String) : Bool :=
  (workspaceOf ref).isSome && safeName (ref.toList.drop 65)

/-! ## Decisions -/

structure AuthoritativeNativeApproval where
  (approvalId reviewId reviewerId requestId approvedAt recordDigest : String)
deriving DecidableEq

/-- A record is a file under its id. -/
instance : Schema AuthoritativeNativeApproval String where
  key := (·.approvalId)
  clash _ _ := false
  check _ := true

structure AuthoritativeNativeRevocation where
  (revocationId reviewId reviewerId approvalId revokedAt : String)

/-! ## Ordinary attempts -/

/-- A terminal event as native Git keeps it. -/
structure AuthoritativeOrdinaryStatus where
  (statusId reviewId reporterUsername reportedAt : String)
  event : NativeTerminalEvent
deriving DecidableEq

structure CurrentAuthoritativeOrdinaryAttempt where
  attempt : NativeJobAttemptIssuance
  revocation : Option NativeJobAttemptRevocation
deriving DecidableEq

/-! ## The state -/

/-- A root repository with its stores. `moved` are the changes of value of the protected ref so far; only
statements read it. -/
structure ProjectRepository where
  refs : Refs
  moved : List (String × String)
  envelopes : List AuthoritativeNativeReviewEnvelope
  approvals : Table AuthoritativeNativeApproval
  revocations : List AuthoritativeNativeRevocation
  attempts : List NativeJobAttemptIssuance
  attemptRevocations : List NativeJobAttemptRevocation
  statuses : List AuthoritativeOrdinaryStatus
  qemu : NativeQemuAuthorityState

/-- One transaction of `git update-ref --stdin`. -/
structure RefUpdate where
  (projectId protectedRef proposalRef expectedHead candidateCommit : String)

/-- The database, the repositories, and the `git update-ref` processes that a server left running when it
crashed. -/
structure World where
  db : PromotionDatabase
  repository : String → ProjectRepository
  children : List RefUpdate

def World.refs (w : World) (projectId : String) : Refs := (w.repository projectId).refs

def World.setRepository (projectId : String) (repository : ProjectRepository) (w : World) : World :=
  { w with repository := Function.update w.repository projectId repository }

/-- The transaction is committed: both refs have the values it asks for. A protected ref that is its own
candidate does not change. -/
def World.commit (update : RefUpdate) (w : World) : Option World :=
  let repository := w.repository update.projectId
  if repository.refs.lookup update.protectedRef = some update.expectedHead
      ∧ repository.refs.lookup update.proposalRef = some update.candidateCommit then
    if update.expectedHead = update.candidateCommit then some w
    else some (w.setRepository update.projectId
      { repository with
        refs := setRef update.protectedRef update.candidateCommit repository.refs,
        moved := repository.moved ++ [(update.expectedHead, update.candidateCommit)] })
  else none

/-! ## Reads -/

/-- Why a read answers nothing: the state of the store refuses it, or Git or the disk failed. -/
inductive ReadError where
  | promotionState (error : PromotionStateError)
  | rootConflicts
  | refUnavailable
  | protectedRefChanged
  | objectFormatConflicts
  | unsound
  | revocationWithoutApproval
  | approvalDuplicated
  | approvalWithoutReview
  | attemptInvalid
  | revocationInvalid
  | statusInvalid
  | qemuAuthority (error : AuthorityStateError)
  | unavailable
deriving DecidableEq

structure AuthoritativeNativeRootTarget where
  imported : NativeProjectRootImport
  currentHead : NativeProjectRootCurrentHead
deriving DecidableEq

structure NativeReviewRefs where
  (protectedHead candidateCommit candidateTree : String)

structure AuthoritativeNativeGitReviewEvidence where
  (expectedProtectedHead candidateCommit candidateTree : String)
  changes : List AuthoritativeNativeChangedPath
  patchBytes : List UInt8

structure AuthoritativeNativeDecisions where
  approvals : List AuthoritativeNativeApproval
  revocations : List AuthoritativeNativeRevocation
  activeApprovals : List AuthoritativeNativeApproval

section
variable (localeCompare : String → String → Ordering) (git : GitObjects)

/-- `inspectImportedNativeRootReadOnly`. -/
def inspectRoot (imported : NativeProjectRootImport) (current : NativeProjectRootCurrentHead) (refs : Refs) : Bool :=
  refs.lookup imported.protectedRef = some current.commit
    && refs.all (fun ref => ref.1 = imported.protectedRef || isWorkspaceProposalRef ref.1)
    && git.tree current.commit = some current.tree && git.isAncestor imported.expectedCommit current.commit
    && git.tree imported.expectedCommit = some imported.resolvedTree && git.fsck current.commit

/-- `resolveAuthoritativeNativeRootTarget`. -/
def resolveTarget (projectId : String) (w : World) : Except ReadError AuthoritativeNativeRootTarget := do
  let imported ← (requirePromotableImport (w.db.imports.get? projectId)).mapError .promotionState
  let currentHead ← (w.db.readCurrentHead localeCompare projectId).mapError .promotionState
  if inspectRoot git imported currentHead (w.refs projectId) then return { imported, currentHead }
  else throw .rootConflicts

/-- `readAuthoritativeNativeReviewEnvelope`: the latest envelope of the review. -/
def readEnvelope (projectId reviewId : String) (w : World) : Option AuthoritativeNativeReviewEnvelope :=
  let named := ((w.repository projectId).envelopes.filter (·.review.reviewId = reviewId)).insertionSort
    fun left right => left.envelopeId ≤ right.envelopeId
  (named.insertionSort fun left right =>
    localeCompare right.review.createdAt left.review.createdAt ≠ .gt).head?

/-- `readAuthoritativeNativeReviewRefs`. -/
def readReviewRefs (projectId protectedRef proposalRef : String) (w : World) : Except ReadError NativeReviewRefs :=
  match (w.refs projectId).lookup protectedRef, (w.refs projectId).lookup proposalRef with
  | some protectedHead, some candidateCommit =>
    match git.tree candidateCommit with
    | some candidateTree => return { protectedHead, candidateCommit, candidateTree }
    | none => throw .refUnavailable
  | _, _ => throw .refUnavailable

/-- `inspectAuthoritativeNativeReviewGit`. -/
def inspectReview (projectId protectedRef expectedProtectedHead proposalRef : String) (w : World) :
    Except ReadError AuthoritativeNativeGitReviewEvidence := do
  let refs ← readReviewRefs git projectId protectedRef proposalRef w
  if refs.protectedHead ≠ expectedProtectedHead then throw .protectedRefChanged
  if refs.candidateCommit.length ≠ refs.protectedHead.length ∨ refs.candidateTree.length ≠ refs.protectedHead.length then
    throw .objectFormatConflicts
  if !git.fsck refs.candidateCommit then throw .unsound
  return { expectedProtectedHead := refs.protectedHead, candidateCommit := refs.candidateCommit,
           candidateTree := refs.candidateTree, changes := git.changes refs.protectedHead refs.candidateCommit,
           patchBytes := git.patch refs.protectedHead refs.candidateCommit }

/-- `readAuthoritativeNativeApprovals`: every approval is of a stored review that requires its reviewer. -/
def readApprovals (projectId : String) (w : World) : Except ReadError (List AuthoritativeNativeApproval) :=
  if (w.repository projectId).approvals.rows.all fun approval =>
      (readEnvelope localeCompare projectId approval.reviewId w).any
        (·.review.requiredReviewerIds.contains approval.reviewerId) then
    return (w.repository projectId).approvals.rows
  else throw .approvalWithoutReview

/-- `readAuthoritativeNativeRevocations`. -/
def readRevocations (projectId : String) (w : World) : Except ReadError (List AuthoritativeNativeRevocation) :=
  if ((w.repository projectId).revocations.map (·.approvalId)).Nodup then return (w.repository projectId).revocations
  else throw .approvalDuplicated

/-- `readAuthoritativeNativeDecisions`, of one review or of all, from what the two stores answered. -/
def decisionsOf (allApprovals : List AuthoritativeNativeApproval) (allRevocations : List AuthoritativeNativeRevocation)
    (reviewId : Option String) : Except ReadError AuthoritativeNativeDecisions :=
  if allRevocations.all fun revocation => allApprovals.any fun approval =>
      approval.approvalId = revocation.approvalId && approval.reviewId = revocation.reviewId
        && approval.reviewerId = revocation.reviewerId then
    let revocations := allRevocations.filter fun revocation => reviewId.all (revocation.reviewId = ·)
    let approvals := allApprovals.filter fun approval => reviewId.all (approval.reviewId = ·)
    let activeApprovals := approvals.filter fun approval =>
      !revocations.any fun revocation => revocation.approvalId = approval.approvalId
    if (activeApprovals.map fun approval : AuthoritativeNativeApproval =>
      (approval.reviewId, approval.reviewerId)).Nodup then
      return { approvals, revocations, activeApprovals }
    else throw .approvalDuplicated
  else throw .revocationWithoutApproval

/-- `revocationMatches`. -/
def revocationMatches (revocation : NativeJobAttemptRevocation) (attempt : NativeJobAttemptIssuance) : Bool :=
  revocation.attemptId = attempt.attemptId && revocation.reviewId = attempt.reviewId
    && revocation.jobName = attempt.descriptor.jobName && revocation.attempt = attempt.attempt
    && revocation.descriptorDigest = attempt.descriptorDigest && revocation.hostId = attempt.hostId
    && revocation.capacity = attempt.capacity

def maximumOrdinaryAttemptsPerJob : Nat := 256

/-- `readOrdinaryAttemptsForJob`: the files of a job are numbered from 1. -/
def attemptsForJob (projectId reviewId jobName : String) (w : World) :
    Except ReadError (List NativeJobAttemptIssuance) :=
  let attempts := ((w.repository projectId).attempts.filter fun attempt =>
    attempt.reviewId = reviewId && attempt.descriptor.jobName = jobName).insertionSort fun a b => a.attempt ≤ b.attempt
  if attempts.length ≤ maximumOrdinaryAttemptsPerJob
      ∧ attempts.map (·.attempt) = List.range' 1 attempts.length then return attempts
  else throw .attemptInvalid

/-- `current` of the attempt store. -/
def currentAttempt (projectId reviewId jobName : String) (w : World) :
    Except ReadError (Option CurrentAuthoritativeOrdinaryAttempt) := do
  match (← attemptsForJob projectId reviewId jobName w).getLast? with
  | none => return none
  | some attempt =>
    match (w.repository projectId).attemptRevocations.find? fun revocation =>
        revocation.reviewId = reviewId && revocation.jobName = jobName && revocation.attempt = attempt.attempt with
    | none => return some { attempt, revocation := none }
    | some revocation =>
      if revocationMatches revocation attempt then return some { attempt, revocation := some revocation }
      else throw .revocationInvalid

/-- `readCurrentAuthoritativeOrdinaryStatus`. -/
def currentStatus (projectId : String) (current : CurrentAuthoritativeOrdinaryAttempt) (reporterUsername : String)
    (w : World) : Except ReadError (Option AuthoritativeOrdinaryStatus) :=
  let attempt := current.attempt
  match (w.repository projectId).statuses.find? fun status =>
      status.event.payload.reviewId = attempt.reviewId
        && status.event.payload.descriptor.jobName = attempt.descriptor.jobName
        && status.event.payload.attempt = attempt.attempt with
  | none => return none
  | some status =>
    if status.reporterUsername = reporterUsername ∧ status.reviewId = attempt.reviewId
        ∧ status.event.payload.attemptId = attempt.attemptId ∧ status.event.payload.attempt = attempt.attempt
        ∧ status.event.payload.descriptorDigest = attempt.descriptorDigest
        ∧ status.event.payload.hostId = attempt.hostId ∧ status.event.payload.capacity = attempt.capacity
        ∧ status.event.payload.descriptor = attempt.descriptor then return some status
    else throw .statusInvalid

end

end Dim.NativeGit
