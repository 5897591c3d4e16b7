/-
`NativeQemuAuthorityState` over its file: the schema of a saved state, the relation between a state and the next
that recovery checks, and the operations, each of which loads the state, makes the next and saves it. What is
asked of the fields of one record (their patterns, and that a digest is its descriptor's) is a parameter, and
so are the values that a status event carries.
-/
import DimProofs.Qemu.AuthorityFiles
import DimProofs.Qemu.NativeGit

namespace Dim.Qemu.Authority

open Effectful Files

variable {Event : Type}

/-! ## The state and its schema -/

structure StatusRecord (Event : Type) where
  (eventId attemptId descriptorDigest : String)
  result : QemuResult
  event : Event
deriving DecidableEq

structure State (Event : Type) where
  attempts : List NativeQemuAttemptRecord
  statuses : List (StatusRecord Event)

def emptyState : State Event := ⟨[], []⟩

/-- What `attemptSchema` and `statusSchema` ask of one record. -/
structure RecordSchemas (Event : Type) where
  attempt : NativeQemuAttemptRecord → Bool
  status : StatusRecord Event → Bool

/-- The attempts of the job of `attempt`. -/
def State.jobAttempts (state : State Event) (attempt : NativeQemuAttemptRecord) : List NativeQemuAttemptRecord :=
  state.attempts.filter (attempt.sameJob ·)

/-- The numbers of a job's attempts are `1, 2, …` in their order, and at most one of them is not revoked. -/
def validSequence (attempts : List NativeQemuAttemptRecord) : Bool :=
  attempts.map (·.attempt) = List.range' 1 attempts.length && (attempts.filter (·.revokedAt.isNone)).length ≤ 1

/-- A status names an attempt of the state, and its descriptor. -/
def State.namesAttempt (state : State Event) (status : StatusRecord Event) : Bool :=
  (state.attempts.find? (·.attemptId = status.attemptId)).any (·.descriptorDigest = status.descriptorDigest)

def stateSchema (schemas : RecordSchemas Event) (state : State Event) : Bool :=
  state.attempts.all schemas.attempt && state.statuses.all schemas.status
    && (state.attempts.map (·.attemptId)).Nodup && (state.attempts.map (·.issuanceRequestId)).Nodup
    && state.attempts.all (fun attempt => validSequence (state.jobAttempts attempt))
    && state.statuses.all state.namesAttempt
    && (state.statuses.map (·.attemptId)).Nodup && (state.statuses.map (·.eventId)).Nodup

def isRevocation (previous candidate : NativeQemuAttemptRecord) : Bool :=
  previous.revokedAt.isNone && candidate.revokedAt.isSome
    && { previous with revokedAt := none } = { candidate with revokedAt := none }

def isSuccessor [DecidableEq Event] (current : Option (State Event)) (candidate : State Event) : Bool :=
  let previous := current.getD emptyState
  let issue := candidate.attempts.length = previous.attempts.length + 1
    && candidate.attempts.dropLast = previous.attempts && candidate.statuses = previous.statuses
  let status := candidate.statuses.length = previous.statuses.length + 1
    && candidate.statuses.dropLast = previous.statuses && candidate.attempts = previous.attempts
  let revocation := candidate.attempts.length = previous.attempts.length && candidate.statuses = previous.statuses
    && ((previous.attempts.zip candidate.attempts).filter fun pair => pair.2 ≠ pair.1).length = 1
    && (previous.attempts.zip candidate.attempts).any fun pair => isRevocation pair.1 pair.2
  issue || status || revocation

/-! ## The operations -/

abbrev IssueInput := NativeQemuAuthorityState.IssueInput

inductive Request (Event : Type) where
  | issue (input : IssueInput)
  | revoke (reviewId jobName attemptId : String)
  | status (record : StatusRecord Event)
  | snapshot

/-- What an operation acknowledged. -/
inductive Response (Event : Type) where
  | issued (attempt : NativeQemuAttemptRecord)
  | revoked (attempt : NativeQemuAttemptRecord)
  | recorded (status : StatusRecord Event)
  | loaded (state : State Event)

abbrev Operation (Event α : Type) : Type := AuthorityProgram (Request Event) (Response Event) α

/-- `JSON.stringify` and `JSON.parse` on states: what was written is read back. -/
class StateText (Event : Type) where
  stringify : State Event → String
  parse : String → Option (State Event)
  parse_stringify : ∀ state, parse (stringify state ++ "\n") = some state

/-- The text of the file that holds a state. -/
def serialized [StateText Event] (state : State Event) : String := StateText.stringify state ++ "\n"

section
variable [DecidableEq Event] [StateText Event]

/-- The codec that `load` passes to the file. -/
def stateCodec (schemas : RecordSchemas Event) : StateCodec (State Event) where
  parse text := (StateText.parse text).filter (stateSchema schemas)
  isSuccessor := isSuccessor

variable [HexSha256] (serviceUid : Nat) (schemas : RecordSchemas Event)

def load : Operation Event (State Event) := do
  let state ← readNativeQemuAuthorityStateFile serviceUid (stateCodec schemas)
  return state.getD emptyState

def save (state : State Event) : Operation Event Unit :=
  if stateSchema schemas state then publishNativeQemuAuthorityState serviceUid (serialized state)
  else throw .schema

def failState {α : Type} (message : String) : Operation Event α := throw (.state message)

def parseAttempt (attempt : NativeQemuAttemptRecord) : Operation Event NativeQemuAttemptRecord :=
  if schemas.attempt attempt then pure attempt else throw .schema

def State.currentAttempt (reviewId jobName : String) (state : State Event) : Option NativeQemuAttemptRecord :=
  state.attempts.reverse.find? fun attempt =>
    NativeQemuAuthorityState.ofJob reviewId jobName attempt && attempt.revokedAt.isNone

/-- The attempt that `issue` appends. -/
def nextAttempt (input : IssueInput) (uuid issuedAt : String) (state : State Event) : NativeQemuAttemptRecord :=
  { issuanceRequestId := input.issuanceRequestId, attemptId := uuid, reviewId := input.reviewId,
    attempt := (state.attempts.filter (NativeQemuAuthorityState.ofJob input.reviewId input.descriptor.jobName)).length + 1,
    descriptor := input.descriptor, descriptorDigest := input.descriptorDigest, hostId := input.hostId,
    capacity := input.capacity, issuedAt, revokedAt := none }

def issue (input : IssueInput) : Operation Event NativeQemuAttemptRecord := do
  let state ← load serviceUid schemas
  match state.attempts.find? (·.issuanceRequestId = input.issuanceRequestId) with
  | some replay =>
    if replay.revokedAt.isNone && input.matchesAttempt replay then return replay
    else failState "QEMU issuance request conflicts"
  | none =>
    if (state.currentAttempt input.reviewId input.descriptor.jobName).isSome then
      failState "QEMU job already has a current attempt"
    else do
      let uuid : String ← ask .randomUUID
      let issuedAt : String ← ask .now
      let attempt ← parseAttempt schemas (nextAttempt input uuid issuedAt state)
      save serviceUid schemas { state with attempts := state.attempts ++ [attempt] }
      return attempt

def revoke (reviewId jobName attemptId : String) : Operation Event NativeQemuAttemptRecord := do
  let state ← load serviceUid schemas
  match state.attempts.find? fun attempt =>
    NativeQemuAuthorityState.ofJob reviewId jobName attempt && attempt.attemptId = attemptId with
  | none => failState "current QEMU attempt was not found"
  | some selected =>
    if selected.revokedAt.isSome then return selected
    else do
      let revokedAt : String ← ask .now
      let revoked ← parseAttempt schemas { selected with revokedAt := some revokedAt }
      save serviceUid schemas
        { state with attempts := state.attempts.map fun attempt =>
          if attempt.attemptId = attemptId then revoked else attempt }
      return revoked

def status (record : StatusRecord Event) : Operation Event (StatusRecord Event) :=
  if schemas.status record = false then throw .schema
  else do
    let state ← load serviceUid schemas
    match state.statuses.find? (·.attemptId = record.attemptId) with
    | some existing =>
      if existing = record then return existing else failState "QEMU attempt already has another status"
    | none =>
      match state.attempts.find? (·.attemptId = record.attemptId) with
      | none => failState "QEMU status does not match a current attempt"
      | some attempt =>
        if attempt.revokedAt.isSome ∨ attempt.descriptorDigest ≠ record.descriptorDigest then
          failState "QEMU status does not match a current attempt"
        else do
          save serviceUid schemas { state with statuses := state.statuses ++ [record] }
          return record

def handle : Request Event → Operation Event (Response Event)
  | .issue input => .issued <$> issue serviceUid schemas input
  | .revoke reviewId jobName attemptId => .revoked <$> revoke serviceUid schemas reviewId jobName attemptId
  | .status record => .recorded <$> status serviceUid schemas record
  | .snapshot => .loaded <$> load serviceUid schemas

/-- A request is answered, or refused, before the next is taken. -/
def serve : Operation Event Unit := do
  let request : Request Event ← ask .request
  tryCatch (do
    let response ← handle serviceUid schemas request
    ask (.respond response)) fun _ => pure ()

/-- `assertNativeQemuAuthorityStore`, without which the service does not start. -/
def assertNativeQemuAuthorityStore : Operation Event Unit := do
  let _ ← load serviceUid schemas

end

end Dim.Qemu.Authority
