/-
`NativeQemuAuthorityState`: the attempts and statuses that native Git keeps for QEMU jobs, and the
three routes that change them. The routes are serialised. What a route reads from the Git
repository besides (the protected policy, the candidate's files) may refuse any request; the
execution descriptor it derives there is an argument.
-/
import DimProofs.Lib.Table
import DimProofs.Qemu.Protocol

namespace Dim.Qemu

open Relational

inductive AuthorityStateError where
  | constraint (violation : Violation)
  | issuanceConflicts
  | jobHasCurrentAttempt
  | attemptNotFound
  | otherStatus
  | statusNotCurrent
  | invalid
deriving DecidableEq

instance : Refusal AuthorityStateError := ⟨.constraint⟩

structure NativeQemuAttemptRecord where
  (issuanceRequestId attemptId reviewId : String)
  attempt : Nat
  descriptor : QemuExecutionDescriptor
  (descriptorDigest hostId capacity issuedAt : String)
  revokedAt : Option String
deriving DecidableEq

structure NativeQemuStatusRecord where
  (eventId attemptId descriptorDigest : String)
  result : QemuResult
  event : NativeQemuTerminalEvent
deriving DecidableEq

/-- Two attempts of one job. -/
def NativeQemuAttemptRecord.sameJob (a b : NativeQemuAttemptRecord) : Bool :=
  a.reviewId = b.reviewId && a.descriptor.jobName = b.descriptor.jobName

/-- The refinement of `stateSchema` on attempts: the numbers of a job's attempts are different and
at most one of them is not revoked. -/
instance : Schema NativeQemuAttemptRecord String where
  key := (·.attemptId)
  clash a b := a.issuanceRequestId = b.issuanceRequestId
    || (a.sameJob b && (a.attempt = b.attempt || (a.revokedAt.isNone && b.revokedAt.isNone)))
  check r := 0 < r.attempt

instance : Schema NativeQemuStatusRecord String where
  key := (·.attemptId)
  clash a b := a.eventId = b.eventId
  check _ := true

@[simp] theorem NativeQemuAttemptRecord.key_eq (r : NativeQemuAttemptRecord) : Schema.key r = r.attemptId := rfl

@[simp] theorem NativeQemuStatusRecord.key_eq (r : NativeQemuStatusRecord) : Schema.key r = r.attemptId := rfl

structure NativeQemuAuthorityState where
  attempts : Table NativeQemuAttemptRecord
  statuses : Table NativeQemuStatusRecord

/-- `emptyState`. -/
def NativeQemuAuthorityState.empty : NativeQemuAuthorityState := ⟨.empty, .empty⟩

namespace NativeQemuAuthorityState

structure IssueInput where
  (issuanceRequestId reviewId : String)
  descriptor : QemuExecutionDescriptor
  (descriptorDigest hostId capacity : String)

/-- `matches`. -/
def IssueInput.matchesAttempt (input : IssueInput) (attempt : NativeQemuAttemptRecord) : Bool :=
  attempt.reviewId = input.reviewId && attempt.descriptorDigest = input.descriptorDigest
    && attempt.hostId = input.hostId && attempt.capacity = input.capacity && attempt.descriptor = input.descriptor

def ofJob (reviewId jobName : String) (attempt : NativeQemuAttemptRecord) : Bool :=
  attempt.reviewId = reviewId && attempt.descriptor.jobName = jobName

def current (reviewId jobName : String) (state : NativeQemuAuthorityState) : Option NativeQemuAttemptRecord :=
  state.attempts.rows.reverse.find? fun attempt => ofJob reviewId jobName attempt && attempt.revokedAt.isNone

def issue (input : IssueInput) (uuid issuedAt : String) (state : NativeQemuAuthorityState) :
    Except AuthorityStateError (NativeQemuAttemptRecord × NativeQemuAuthorityState) :=
  match state.attempts.getBy (·.issuanceRequestId) input.issuanceRequestId with
  | some replay =>
    if replay.revokedAt.isNone && input.matchesAttempt replay then return (replay, state)
    else throw .issuanceConflicts
  | none =>
    if (state.current input.reviewId input.descriptor.jobName).isSome then throw .jobHasCurrentAttempt
    else do
      let attempt : NativeQemuAttemptRecord :=
        { issuanceRequestId := input.issuanceRequestId, attemptId := uuid, reviewId := input.reviewId,
          attempt := state.attempts.count (ofJob input.reviewId input.descriptor.jobName) + 1,
          descriptor := input.descriptor, descriptorDigest := input.descriptorDigest, hostId := input.hostId,
          capacity := input.capacity, issuedAt, revokedAt := none }
      let attempts ← state.attempts.insert attempt
      return (attempt, { state with attempts })

def revoke (reviewId jobName attemptId revokedAt : String) (state : NativeQemuAuthorityState) :
    Except AuthorityStateError NativeQemuAuthorityState :=
  match (state.attempts.get? attemptId).filter (ofJob reviewId jobName) with
  | none => throw .attemptNotFound
  | some selected =>
    if selected.revokedAt.isSome then return state
    else do
      let attempts ← state.attempts.update (fun a => a.attemptId = attemptId) fun a =>
        { a with revokedAt := some revokedAt }
      return { state with attempts }

def status (record : NativeQemuStatusRecord) (state : NativeQemuAuthorityState) :
    Except AuthorityStateError NativeQemuAuthorityState :=
  match state.statuses.get? record.attemptId with
  | some existing => if existing = record then return state else throw .otherStatus
  | none =>
    match state.attempts.get? record.attemptId with
    | none => throw .statusNotCurrent
    | some attempt =>
      if attempt.revokedAt.isSome ∨ attempt.descriptorDigest ≠ record.descriptorDigest then throw .statusNotCurrent
      else do
        let statuses ← state.statuses.insert record
        return { state with statuses }

/-- The route `qemu-statuses` of a review. -/
def qemuStatuses (reviewId : String) (event : NativeQemuTerminalEvent) (state : NativeQemuAuthorityState) :
    Except AuthorityStateError NativeQemuAuthorityState :=
  if event.payload.reviewId ≠ reviewId then throw .invalid
  else match state.current reviewId event.payload.descriptor.jobName with
  | none => throw .invalid
  | some current =>
    if current.attemptId ≠ event.payload.attemptId ∨ current.descriptor ≠ event.payload.descriptor then throw .invalid
    else state.status
      { eventId := event.eventId, attemptId := event.payload.attemptId,
        descriptorDigest := event.payload.descriptorDigest, result := event.payload.result, event }

/-- The attempt is recorded as revoked. -/
def revoked (attemptId : String) (state : NativeQemuAuthorityState) : Bool :=
  (state.attempts.get? attemptId).any (·.revokedAt.isSome)

/-- The attempt was issued for this claim. -/
def issuedFor (claimId : String) (attempt : NativeQemuAttempt) (state : NativeQemuAuthorityState) : Bool :=
  (state.attempts.get? attempt.attemptId).any fun record =>
    record.issuanceRequestId = claimId && record.descriptorDigest = attempt.descriptorDigest
      && record.descriptor = attempt.descriptor

end NativeQemuAuthorityState

end Dim.Qemu
