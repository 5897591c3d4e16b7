/-
`openNativeQemuSchedulerDatabase`: the file of the scheduler, and what `validateExisting` asks of it when it
is opened again. The file modes and SQLite's own checks of pages and constraints are left out. Every file that
the store wrote passes, provided that its creation was not interrupted and that every time it stored is a
safe integer.
-/
import DimProofs.Lib.Pattern
import DimProofs.Ordinary.Protocol
import DimProofs.Qemu.History

namespace Dim.Qemu

open Relational Pattern Dim.Ordinary

/-- `Date.parse`, where NaN is none. -/
class DateText where
  parse : String → Option Int

/-! ## Parsers -/

/-- `value.includes(…)`. -/
def includes (value text : List Char) : Bool := value.tails.any text.isPrefixOf

/-- `value.length`, in UTF-16 units. -/
def utf16Length (value : List Char) : Nat := (value.map fun c => if c.toNat < 0x10000 then 1 else 2).sum

/-- `/[\x00-\x20\x7f~^:?*[\]]/`. -/
def forbiddenInRef (c : Char) : Bool := c.toNat ≤ 0x20 || c.toNat = 0x7f || "~^:?*[]".toList.contains c

def headRef (text : String) : Bool :=
  let value := text.toList
  utf16Length value ≤ 1024 && "refs/heads/".toList.isPrefixOf value && !"/".toList.isSuffixOf value
    && !".".toList.isSuffixOf value && !".lock".toList.isSuffixOf value && !includes value "..".toList
    && !includes value "@\x7b".toList && !includes value "\\".toList && !value.any forbiddenInRef
    && ((value.drop "refs/heads/".length).splitOn '/').all fun part => !part.isEmpty && part.head? ≠ some '.'

/-- `/^[A-Za-z0-9](?:[A-Za-z0-9._-]{0,126}[A-Za-z0-9])?$/`. -/
def revision (text : String) : Bool :=
  bounded alphanumeric generationRest 127 text.toList && text.toList.getLast?.any alphanumeric

def objectId (text : String) : Bool := hexString 40 text || hexString 64 text

/-- What `parseNativeQemuReviewEvent` asks of the fields it does not fix. -/
def reviewEventValid [Sha256] (event : NativeQemuReviewEvent) : Bool :=
  event.executionKind = "qemu" && hexString 64 event.eventId && label event.projectId && headRef event.protectedRef
    && hexString 64 event.reviewId && hexString 64 event.envelopeId && objectId event.expectedProtectedHead
    && objectId event.candidateCommit && objectId event.candidateTree && revision event.policyRevision
    && revision event.requiredReviewRevision && revision event.qualityRevision && label event.jobName
    && event.eventId = Sha256.hex ("dim-native-authoritative-review-event-v3\x00" ++ Json.object
      [("envelopeId", Json.string event.envelopeId), ("executionKind", Json.string "qemu"),
        ("jobName", Json.string event.jobName)])

/-- `^\d{4}-\d{2}-\d{2}T\d{2}:\d{2}:\d{2}\.\d{3}Z$`, and a finite time. -/
def timestamp [DateText] (text : String) : Bool :=
  sequence (List.replicate 4 digit ++ only '-' :: List.replicate 2 digit ++ only '-' :: List.replicate 2 digit ++ only 'T' ::
    List.replicate 2 digit ++ only ':' :: List.replicate 2 digit ++ only ':' :: List.replicate 2 digit ++ only '.' ::
    List.replicate 3 digit ++ [only 'Z']) text.toList
    && (DateText.parse text).isSome

/-- The result that a completion calls for. -/
def QemuCompletion.result : QemuCompletion → QemuResult
  | .exited exitCode => if exitCode = 0 then .success else .failure
  | .cancelled => .cancelled
  | .signaled _ | .timedOut | .outputLimitExceeded => .failure

def QemuCompletion.bounded : QemuCompletion → Bool
  | .exited exitCode => exitCode ≤ 255
  | .signaled signal => 1 ≤ signal && signal ≤ 64
  | .timedOut | .outputLimitExceeded | .cancelled => true

/-- What `parseNativeQemuTerminalEvent` asks of the fields it does not fix. -/
def terminalEventValid [DateText] (event : NativeQemuTerminalEvent) : Bool :=
  let payload := event.payload
  payload.completion.bounded && payload.completion.result = payload.result && timestamp payload.startedAt
    && timestamp payload.finishedAt
    && (match DateText.parse payload.startedAt, DateText.parse payload.finishedAt with
      | some startedAt, some finishedAt => decide (startedAt ≤ finishedAt)
      | _, _ => false)
    && uuid event.eventId && timestamp event.occurredAt && hexString 64 payload.reviewId && uuid payload.attemptId
    && Pattern.digest payload.descriptorDigest && identifier payload.hostId && identifier payload.capacity
    && Pattern.digest payload.stdout.sha256 && Pattern.digest payload.stderr.sha256

/-! ## Rows -/

/-- `Number.isSafeInteger`. -/
def safeInteger (n : Int) : Bool := -9007199254740991 ≤ n && n ≤ 9007199254740991

def EligibilityRow.valid (r : EligibilityRow) : Bool :=
  identifier r.projectId && generation r.eligibilityGeneration && safeInteger r.leaseExpiresAt && safeInteger r.refreshedAt

def EventRow.valid [Sha256] (r : EventRow) : Bool :=
  reviewEventValid r.event && r.eventId = r.event.eventId && generation r.admissionGeneration && safeInteger r.createdAt

/-- The three columns of the attempt are set together, and not before the activation. -/
def ClaimRow.attemptValid (c : ClaimRow) : Bool :=
  match c.attemptId, c.descriptorDigest, c.attempt with
  | some attemptId, some descriptorDigest, some attempt =>
    c.state ≠ .reserved && uuid attemptId && Pattern.digest descriptorDigest && attempt.attemptId = attemptId
      && attempt.descriptorDigest = descriptorDigest
  | none, none, none => c.state ≠ .active
  | _, _, _ => false

def ClaimRow.resultValid [DateText] (c : ClaimRow) : Bool :=
  c.result.all fun completion => completion.claimId = c.claimId && completion.cleanupComplete
    && terminalEventValid completion.terminalEvent && uuid completion.eventId

def ClaimRow.valid [DateText] (c : ClaimRow) : Bool :=
  uuid c.claimId && uuid c.requestId && hexString 64 c.eventId && identifier c.hostId && identifier c.capacity
    && generation c.admissionGeneration && safeInteger c.leaseExpiresAt && c.attemptValid && c.resultValid

def ReportRow.valid [DateText] (r : ReportRow) : Bool :=
  uuid r.claimId && terminalEventValid r.terminalEvent && safeInteger r.createdAt && r.deliveredAt.all safeInteger
    && (match r.state with
      | .pending => r.deliveredAt.isNone
      | .delivered => r.deliveredAt.isSome)

/-- `PRAGMA foreign_key_check`. -/
def SchedulerDatabase.foreignKeys (db : SchedulerDatabase) : Bool :=
  (db.claims.rows.all fun c => (db.events.get? c.eventId).isSome)
    && db.reportOutbox.rows.all fun r => (db.claims.get? r.claimId).isSome

/-! ## The file -/

structure Metadata where
  (executionAuthorityJson schemaVersion serviceGenerationId : String)

/-- A file that `openSync` created, or one whose tables were committed by `initialize`. -/
inductive SchedulerFile where
  | created
  | initialized (metadata : Metadata) (db : SchedulerDatabase)

/-- The empty file has `user_version` 0. -/
def validateExisting [Sha256] [DateText] (executionAuthorityJson : String) : SchedulerFile → Bool
  | .created => false
  | .initialized metadata db =>
    metadata.executionAuthorityJson = executionAuthorityJson && metadata.schemaVersion = "3"
      && uuid metadata.serviceGenerationId && db.foreignKeys && db.eligibility.rows.all EligibilityRow.valid
      && db.events.rows.all EventRow.valid && db.claims.rows.all ClaimRow.valid && db.reportOutbox.rows.all ReportRow.valid

/-- The file and whether a process has it open. -/
structure SchedulerProcess where
  file : Option SchedulerFile
  opened : Bool

/-- `start` creates a missing file, where `interrupted` is a crash before the first commit; `close` is also the
end of the process between two transactions. -/
inductive ProcessStep where
  | start (serviceGenerationId : String) (interrupted : Bool)
  | call (call : Call)
  | close

def SchedulerProcess.apply [Sha256] [DateText] (executionAuthorityJson : String) (p : SchedulerProcess) :
    ProcessStep → SchedulerProcess
  | .start serviceGenerationId interrupted =>
    match p.file with
    | none =>
      if interrupted then ⟨some .created, false⟩
      else ⟨some (.initialized ⟨executionAuthorityJson, "3", serviceGenerationId⟩ .empty), true⟩
    | some file => ⟨some file, validateExisting executionAuthorityJson file⟩
  | .call call =>
    match p.opened, p.file with
    | true, some (.initialized metadata db) => ⟨some (.initialized metadata (db.apply call)), true⟩
    | _, _ => p
  | .close => { p with opened := false }

def SchedulerProcess.run [Sha256] [DateText] (executionAuthorityJson : String) (p : SchedulerProcess)
    (steps : List ProcessStep) : SchedulerProcess := steps.foldl (SchedulerProcess.apply executionAuthorityJson) p

/-- What the service passes to the store: parsed requests and events, names of its configuration, fresh UUIDs and
the attempts of native Git. The times, and the ends of the leases, are safe integers. -/
def Call.proper [Sha256] [DateText] : Call → Bool
  | .enqueue event eligibilityLeaseMilliseconds id now =>
    reviewEventValid event && uuid id && safeInteger now && safeInteger (now + eligibilityLeaseMilliseconds)
  | .reserve input claimId _ _ _ leasedAt =>
    uuid input.requestId && identifier input.hostId && identifier input.capacity && uuid claimId
      && safeInteger (leasedAt + input.leaseMilliseconds)
  | .activate _ attempt _ _ => uuid attempt.attemptId && Pattern.digest attempt.descriptorDigest
  | .renew _ _ _ leaseMilliseconds leasedAt _ => safeInteger (leasedAt + leaseMilliseconds)
  | .recordResult input now => uuid input.eventId && terminalEventValid input.terminalEvent && safeInteger now
  | .acknowledgeResult _ now => safeInteger now
  | .recover _ _ _ | .supersedeReservation _ | .expireClaims _ _ => true

/-- The condition on one step: the creation of the file is not interrupted, and a call of an open store is proper. -/
def SchedulerProcess.Proper [Sha256] [DateText] (p : SchedulerProcess) : ProcessStep → Prop
  | .start serviceGenerationId interrupted => p.file.isNone = true → interrupted = false ∧ uuid serviceGenerationId = true
  | .call call => p.opened = true → call.proper = true
  | .close => True

instance [Sha256] [DateText] (p : SchedulerProcess) : ∀ step, Decidable (p.Proper step)
  | .start _ _ | .call _ => inferInstanceAs (Decidable (_ → _))
  | .close => inferInstanceAs (Decidable True)

def ProperRun [Sha256] [DateText] (executionAuthorityJson : String) : SchedulerProcess → List ProcessStep → Prop :=
  Transition.Along (SchedulerProcess.apply executionAuthorityJson) SchedulerProcess.Proper

instance [Sha256] [DateText] (executionAuthorityJson : String) (p : SchedulerProcess) (steps : List ProcessStep) :
    Decidable (ProperRun executionAuthorityJson p steps) := inferInstanceAs (Decidable (Transition.Along _ _ p steps))

/-! ## What the store writes -/

section
variable [Sha256] [DateText]

/-- The rows pass their checks and refer to rows that are there. -/
structure Sound (db : SchedulerDatabase) : Prop where
  eligibility : ∀ r ∈ db.eligibility.rows, r.valid = true
  events : ∀ r ∈ db.events.rows, r.valid = true
  claims : ∀ r ∈ db.claims.rows, r.valid = true
  reports : ∀ r ∈ db.reportOutbox.rows, r.valid = true
  claimEvents : ∀ r ∈ db.claims.rows, (db.events.get? r.eventId).isSome = true
  reportClaims : ∀ r ∈ db.reportOutbox.rows, (db.claims.get? r.claimId).isSome = true

variable {executionAuthorityJson : String}

theorem validateExisting_initialized {serviceGenerationId : String} {db : SchedulerDatabase}
    (hid : uuid serviceGenerationId = true) (h : Sound db) :
    validateExisting executionAuthorityJson (.initialized ⟨executionAuthorityJson, "3", serviceGenerationId⟩ db) = true := by
  simp only [validateExisting, SchedulerDatabase.foreignKeys, decide_true, Bool.true_and, Bool.and_eq_true, List.all_eq_true]
  exact ⟨⟨⟨⟨⟨hid, h.claimEvents, h.reportClaims⟩, h.eligibility⟩, h.events⟩, h.claims⟩, h.reports⟩

theorem Sound.empty : Sound .empty := by
  constructor <;> intro r hr <;> cases hr

section
variable {db db' : SchedulerDatabase}

/-! ### One statement -/

theorem Sound.updateEvents {events : Table EventRow} {p : EventRow → Bool} {f : EventRow → EventRow} (h : Sound db)
    (hu : db.events.update (ε := SchedulerStoreError) p f = .ok events) (hk : ∀ r, (f r).eventId = r.eventId)
    (hf : ∀ r : EventRow, r.valid = true → (f r).valid = true) : Sound { db with events } where
  eligibility := h.eligibility
  events := Table.all_update hu h.events fun r hr _ => hf r (h.events r hr)
  claims := h.claims
  reports := h.reports
  claimEvents r hr := by
    rw [Table.isSome_update hu hk]
    exact h.claimEvents r hr
  reportClaims := h.reportClaims

theorem Sound.updateClaims {claims : Table ClaimRow} {p : ClaimRow → Bool} {f : ClaimRow → ClaimRow} (h : Sound db)
    (hu : db.claims.update (ε := SchedulerStoreError) p f = .ok claims) (hk : ∀ r, (f r).claimId = r.claimId)
    (he : ∀ r, (f r).eventId = r.eventId) (hf : ∀ r ∈ db.claims.rows, p r = true → (f r).valid = true) :
    Sound { db with claims } where
  eligibility := h.eligibility
  events := h.events
  claims := Table.all_update hu h.claims hf
  reports := h.reports
  claimEvents := Table.all_update hu h.claimEvents fun r hr _ => by
    rw [he]
    exact h.claimEvents r hr
  reportClaims r hr := by
    rw [Table.isSome_update hu hk]
    exact h.reportClaims r hr

theorem Sound.setEventState {state : EventState} {eventId : String} (h : Sound db)
    (ho : Qemu.setEventState state eventId db = .ok db') : Sound db' := by
  unfold Qemu.setEventState at ho
  obtain ⟨events, hu, ho⟩ := bind_ok.mp ho
  cases pure_ok.mp ho
  exact h.updateEvents hu (fun _ => rfl) fun _ hr => hr

omit [Sha256] [DateText] in
/-- Completion asks nothing more of the attempt's columns. -/
theorem ClaimRow.attemptValid_completed {c : ClaimRow} (h : c.attemptValid = true) :
    ClaimRow.attemptValid { c with state := .completed } = true := by
  obtain ⟨claimId, requestId, eventId, hostId, capacity, admissionGeneration, lease, attemptId, digest, attempt, state,
    result⟩ := c
  simp only [ClaimRow.attemptValid] at h ⊢
  split at h
  · simp only [Bool.and_eq_true] at h
    simp [h]
  · rfl
  · cases h

variable {claimId : String}

theorem Sound.setClaimState (h : Sound db) (ho : Qemu.setClaimState .completed claimId db = .ok db') :
    Sound db' := by
  unfold Qemu.setClaimState at ho
  obtain ⟨claims, hu, ho⟩ := bind_ok.mp ho
  cases pure_ok.mp ho
  refine h.updateClaims hu (fun _ => rfl) (fun _ => rfl) ?_
  intro r hr _
  have hv := h.claims r hr
  simp only [ClaimRow.valid, Bool.and_eq_true] at hv ⊢
  exact ⟨⟨hv.1.1, ClaimRow.attemptValid_completed hv.1.2⟩, hv.2⟩

/-- A claim that a report refers to is not deleted. -/
theorem Sound.deleteClaims {p : ClaimRow → Bool} (h : Sound db) (ho : Qemu.deleteClaims p db = .ok db') : Sound db' := by
  unfold Qemu.deleteClaims at ho
  obtain ⟨_, href, ho⟩ := bind_ok.mp ho
  cases pure_ok.mp ho
  have hfree := requireReference_ok.mp href
  rw [Bool.not_eq_true', Table.any_eq_false] at hfree
  refine ⟨h.eligibility, h.events, ?_, h.reports, ?_, ?_⟩
  · exact fun r hr => h.claims r (Table.mem_delete.mp hr).1
  · exact fun r hr => h.claimEvents r (Table.mem_delete.mp hr).1
  · intro r hr
    obtain ⟨c, hc⟩ := Option.isSome_iff_exists.mp (h.reportClaims r hr)
    have hkept : p c = false := by
      have hc' := hfree c (Table.get?_mem hc)
      have hid : c.claimId = r.claimId := Table.get?_key hc
      have hreport : db.reportOutbox.get? r.claimId = some r := Table.get?_of_mem hr
      rw [hid, hreport] at hc'
      simpa using hc'
    show ((db.claims.delete p).get? r.claimId).isSome = true
    rw [Table.get?_delete, hc]
    simp [hkept]

theorem Sound.insertClaim {row : ClaimRow} (h : Sound db) (hv : row.valid = true)
    (ho : Qemu.insertClaim row db = .ok db') : Sound db' := by
  unfold Qemu.insertClaim at ho
  obtain ⟨_, href, ho⟩ := bind_ok.mp ho
  obtain ⟨claims, hi, ho⟩ := bind_ok.mp ho
  cases pure_ok.mp ho
  refine ⟨h.eligibility, h.events, Table.all_insert hi h.claims hv, h.reports, ?_, ?_⟩
  · exact Table.all_insert hi h.claimEvents (requireReference_ok.mp href)
  · exact fun r hr => Table.isSome_insert hi (h.reportClaims r hr)

theorem Sound.insertReport {row : ReportRow} (h : Sound db) (hv : row.valid = true)
    (ho : Qemu.insertReport row db = .ok db') : Sound db' := by
  unfold Qemu.insertReport at ho
  obtain ⟨_, href, ho⟩ := bind_ok.mp ho
  obtain ⟨reportOutbox, hi, ho⟩ := bind_ok.mp ho
  cases pure_ok.mp ho
  exact ⟨h.eligibility, h.events, h.claims, Table.all_insert hi h.reports hv, h.claimEvents,
    Table.all_insert hi h.reportClaims (requireReference_ok.mp href)⟩

theorem Sound.upsertEligibility {row : EligibilityRow} (h : Sound db) (hv : row.valid = true)
    (ho : Qemu.upsertEligibility row db = .ok db') : Sound db' := by
  unfold Qemu.upsertEligibility at ho
  obtain ⟨eligibility, hu, ho⟩ := bind_ok.mp ho
  cases pure_ok.mp ho
  refine ⟨?_, h.events, h.claims, h.reports, h.claimEvents, h.reportClaims⟩
  split at hu
  · exact Table.all_update hu h.eligibility fun _ _ _ => hv
  · exact Table.all_insert hu h.eligibility hv

/-! ### The operations -/

variable {now : Int}

theorem Sound.enqueue {event : NativeQemuReviewEvent} {lease : Int} {id : String} {intake : NativeQemuIntake}
    (h : Sound db) (hp : (Call.enqueue event lease id now).proper = true)
    (ho : Qemu.enqueue event lease id now db = .ok (intake, db')) : Sound db' := by
  simp only [Call.proper, Bool.and_eq_true] at hp
  obtain ⟨⟨⟨hevent, hid⟩, hnow⟩, hexpires⟩ := hp
  unfold Qemu.enqueue at ho
  split at ho
  · cases ho
  obtain ⟨db₁, hu, ho⟩ := bind_ok.mp ho
  obtain ⟨events, he, ho⟩ := bind_ok.mp ho
  -- the generation is the stored one, or a fresh UUID
  have hgeneration : generation (((db.eligibility.get? event.projectId).map (·.eligibilityGeneration)).getD id) = true := by
    cases hg : db.eligibility.get? event.projectId with
    | none => exact generation_of_uuid hid
    | some r =>
      have hr := h.eligibility r (Table.get?_mem hg)
      simp only [EligibilityRow.valid, Bool.and_eq_true] at hr
      exact hr.1.1.2
  have hproject : identifier event.projectId = true := by
    simp only [reviewEventValid, Bool.and_eq_true] at hevent
    exact identifier_of_label hevent.1.1.1.1.1.1.1.1.1.1.1.2
  have h₁ : Sound db₁ := h.upsertEligibility (by simp [EligibilityRow.valid, hproject, hgeneration, hexpires, hnow]) hu
  have h₂ : Sound { db₁ with events } := by
    refine h₁.updateEvents he (fun _ => rfl) ?_
    intro r hr
    simp only [EventRow.valid, Bool.and_eq_true] at hr ⊢
    exact ⟨⟨hr.1.1, hgeneration⟩, hr.2⟩
  split at ho
  · split at ho
    · cases ho
    · cases pure_ok.mp ho
      exact h₂
  · obtain ⟨events', hi, ho⟩ := bind_ok.mp ho
    cases pure_ok.mp ho
    refine ⟨h₂.eligibility, ?_, h₂.claims, h₂.reports, ?_, h₂.reportClaims⟩
    · exact Table.all_insert hi h₂.events (by simp [EventRow.valid, hevent, hgeneration, hnow])
    · exact fun r hr => Table.isSome_insert hi (h₂.claimEvents r hr)

theorem Sound.expireClaims {deletedAt : Int} (h : Sound db) (ho : Qemu.expireClaims now deletedAt db = .ok db') :
    Sound db' := by
  unfold Qemu.expireClaims at ho
  obtain ⟨events, hu, ho⟩ := bind_ok.mp ho
  exact (h.updateEvents hu (fun _ => rfl) fun _ hr => hr).deleteClaims ho

variable {answer : Option NativeQemuClaim} {input : ReservationInput}

theorem Sound.reserveNext {leasedAt : Int}
    (h : Sound db) (hrequest : uuid input.requestId = true) (hhost : identifier input.hostId = true)
    (hcapacity : identifier input.capacity = true) (hid : uuid claimId = true)
    (hlease : safeInteger (leasedAt + input.leaseMilliseconds) = true)
    (ho : Qemu.reserveNext input claimId now leasedAt db = .ok (answer, db')) : Sound db' := by
  unfold Qemu.reserveNext at ho
  split at ho
  · cases pure_ok.mp ho; exact h
  split at ho
  · cases pure_ok.mp ho; exact h
  rename_i e hnext
  obtain ⟨db₁, hi, ho⟩ := bind_ok.mp ho
  obtain ⟨db₂, hs, ho⟩ := bind_ok.mp ho
  cases pure_ok.mp ho
  -- the reserved event passes its check, so its id and generation do
  have he := h.events e (Table.select_mem hnext).1
  simp only [EventRow.valid, reviewEventValid, Bool.and_eq_true, decide_eq_true_eq] at he
  obtain ⟨⟨⟨hevent, hkey⟩, hgeneration⟩, -⟩ := he
  have heventId : hexString 64 e.eventId = true := by
    rw [hkey]
    exact hevent.1.1.1.1.1.1.1.1.1.1.1.1.2
  have hrow : (reservation input claimId (leasedAt + input.leaseMilliseconds) e).valid = true := by
    simp [ClaimRow.valid, ClaimRow.attemptValid, ClaimRow.resultValid, reservation, hid, hrequest, heventId, hhost,
      hcapacity, hgeneration, hlease]
  exact (h.insertClaim hrow hi).setEventState hs

theorem Sound.reserve {t₁ t₂ t₃ t₄ : Int}
    (h : Sound db) (hp : (Call.reserve input claimId t₁ t₂ t₃ t₄).proper = true)
    (ho : Qemu.reserve input claimId t₁ t₂ t₃ t₄ db = .ok (answer, db')) : Sound db' := by
  simp only [Call.proper, Bool.and_eq_true] at hp
  obtain ⟨⟨⟨⟨hrequest, hhost⟩, hcapacity⟩, hid⟩, hlease⟩ := hp
  obtain ⟨db₁, he, ⟨rfl, -⟩ | ⟨-, hr⟩⟩ := reserve_ok ho
  · exact h.expireClaims he
  · exact (h.expireClaims he).reserveNext hrequest hhost hcapacity hid hlease hr

theorem Sound.activateClaim {attempt : NativeQemuAttempt} {crashed : Bool} (h : Sound db)
    (hp : (Call.activate claimId attempt now crashed).proper = true)
    (ho : Qemu.activateClaim claimId attempt now db = .ok db') : Sound db' := by
  simp only [Call.proper, Bool.and_eq_true] at hp
  unfold Qemu.activateClaim at ho
  obtain ⟨claims, hu, ho⟩ := bind_ok.mp ho
  split at ho
  · cases ho
  cases pure_ok.mp ho
  refine h.updateClaims hu (fun _ => rfl) (fun _ => rfl) ?_
  intro r hr _
  have hv := h.claims r hr
  simp only [ClaimRow.valid, Bool.and_eq_true] at hv ⊢
  refine ⟨⟨hv.1.1, ?_⟩, hv.2⟩
  simp [ClaimRow.attemptValid, hp]

theorem Sound.activateEvent (h : Sound db) (ho : Qemu.activateEvent claimId db = .ok db') : Sound db' := by
  obtain ⟨events, hu, ho⟩ := bind_ok.mp ho
  cases pure_ok.mp ho
  exact h.updateEvents hu (fun _ => rfl) fun _ hr => hr

theorem Sound.renew {claimId hostId capacity : String} {lease leasedAt now answer : Int} (h : Sound db)
    (hp : (Call.renew claimId hostId capacity lease leasedAt now).proper = true)
    (ho : Qemu.renew claimId hostId capacity lease leasedAt now db = .ok (answer, db')) : Sound db' := by
  unfold Qemu.renew at ho
  obtain ⟨claims, hu, ho⟩ := bind_ok.mp ho
  split at ho
  · cases ho
  cases pure_ok.mp ho
  refine h.updateClaims hu (fun _ => rfl) (fun _ => rfl) ?_
  intro r hr _
  have hv := h.claims r hr
  simp only [ClaimRow.valid, Bool.and_eq_true] at hv ⊢
  exact ⟨⟨⟨hv.1.1.1, hp⟩, hv.1.2⟩, hv.2⟩

omit [Sha256] [DateText] in
theorem recordResult_created {input : NativeQemuCompletion} {answer : Recorded}
    (h : recordResult input now db = .ok (answer, db')) : db' = db ∨ ∃ c claims, input.cleanupComplete = true ∧
      db.claims.get? input.claimId = some c ∧
      db.claims.update (ε := SchedulerStoreError) (fun c => c.claimId = input.claimId)
        (fun c => { c with result := some input }) = .ok claims ∧
      insertReport { claimId := input.claimId, terminalEvent := input.terminalEvent, state := .pending, createdAt := now,
                     deliveredAt := none } { db with claims } = .ok db' := by
  unfold recordResult at h
  split at h
  · cases h
  rename_i hcleanup
  split at h
  · cases h
  rename_i c hc
  split at h
  · cases h
  · split at h
    · cases h
    · cases pure_ok.mp h; exact Or.inl rfl
  · cases h
  · split at h
    · cases h
    · cases pure_ok.mp h; exact Or.inl rfl
  · obtain ⟨claims, hu, h⟩ := bind_ok.mp h
    obtain ⟨db₁, hr, h⟩ := bind_ok.mp h
    cases pure_ok.mp h
    exact Or.inr ⟨c, claims, by simpa using hcleanup, hc, hu, hr⟩

theorem Sound.recordResult {input : NativeQemuCompletion} {answer : Recorded} (h : Sound db)
    (hp : (Call.recordResult input now).proper = true) (ho : Qemu.recordResult input now db = .ok (answer, db')) :
    Sound db' := by
  simp only [Call.proper, Bool.and_eq_true] at hp
  obtain ⟨⟨hid, hterminal⟩, hnow⟩ := hp
  rcases recordResult_created ho with rfl | ⟨c, claims, hcleanup, hc, hu, hi⟩
  · exact h
  have hclaim := h.claims c (Table.get?_mem hc)
  simp only [ClaimRow.valid, Bool.and_eq_true] at hclaim
  have hkey : c.claimId = input.claimId := Table.get?_key hc
  have huuid : uuid input.claimId = true := by
    rw [← hkey]
    exact hclaim.1.1.1.1.1.1.1.1
  have h₁ : Sound { db with claims } := by
    refine h.updateClaims hu (fun _ => rfl) (fun _ => rfl) ?_
    intro r hr hsel
    have hv := h.claims r hr
    simp only [ClaimRow.valid, Bool.and_eq_true] at hv ⊢
    refine ⟨hv.1, ?_⟩
    have hselected : r.claimId = input.claimId := of_decide_eq_true hsel
    simp [ClaimRow.resultValid, hselected, hcleanup, hterminal, hid]
  exact h₁.insertReport (by simp [ReportRow.valid, huuid, hterminal, hnow]) hi

theorem Sound.acknowledgeResult (h : Sound db)
    (hp : (Call.acknowledgeResult claimId now).proper = true) (ho : Qemu.acknowledgeResult claimId now db = .ok db') :
    Sound db' := by
  unfold Qemu.acknowledgeResult at ho
  split at ho
  · cases ho
  split at ho
  · cases pure_ok.mp ho; exact h
  · cases ho
  obtain ⟨db₁, hclaim, ho⟩ := bind_ok.mp ho
  obtain ⟨db₂, hevent, ho⟩ := bind_ok.mp ho
  obtain ⟨reportOutbox, hu, ho⟩ := bind_ok.mp ho
  cases pure_ok.mp ho
  have h₂ : Sound db₂ := (h.setClaimState hclaim).setEventState hevent
  refine ⟨h₂.eligibility, h₂.events, h₂.claims, ?_, h₂.claimEvents, ?_⟩
  · refine Table.all_update hu h₂.reports fun r hr _ => ?_
    have hv := h₂.reports r hr
    simp only [ReportRow.valid, Bool.and_eq_true] at hv ⊢
    exact ⟨⟨hv.1.1, by simpa [Call.proper] using hp⟩, rfl⟩
  · exact Table.all_update hu h₂.reportClaims fun r hr _ => h₂.reportClaims r hr

theorem Sound.recover {hostId capacity : String} (h : Sound db)
    (ho : Qemu.recover claimId hostId capacity db = .ok db') : Sound db' := by
  rcases recover_ok ho with ⟨rfl, -⟩ | ⟨c, db₁, -, -, hclaim, hevent⟩
  · exact h
  · exact (h.setClaimState hclaim).setEventState hevent

theorem Sound.supersedeReservation (h : Sound db)
    (ho : Qemu.supersedeReservation claimId db = .ok db') : Sound db' := by
  unfold Qemu.supersedeReservation at ho
  split at ho
  · cases ho
  obtain ⟨db₁, hevent, ho⟩ := bind_ok.mp ho
  exact (h.setEventState hevent).deleteClaims ho

theorem Sound.apply (h : Sound db) (call : Call) (hp : call.proper = true) : Sound (db.apply call) := by
  have hleaves := db.apply_leaves call
  generalize db.apply call = db' at hleaves ⊢
  cases hleaves with
  | failed => exact h
  | enqueue hok => exact h.enqueue hp hok
  | reserve hok => exact h.reserve hp hok
  | claimed hok => exact h.activateClaim hp hok
  | activated hok hevent => exact (h.activateClaim hp hok).activateEvent hevent
  | renew hok => exact h.renew hp hok
  | recordResult hok => exact h.recordResult hp hok
  | acknowledgeResult hok => exact h.acknowledgeResult hp hok
  | recover hok => exact h.recover hok
  | supersedeReservation hok => exact h.supersedeReservation hok
  | expireClaims hok => exact h.expireClaims hok

end

/-! ## Processes -/

/-- A file that is there holds a sound database of this execution authority. -/
def SchedulerProcess.Sound (executionAuthorityJson : String) (p : SchedulerProcess) : Prop :=
  ∀ file, p.file = some file → ∃ id db, uuid id = true ∧ Qemu.Sound db ∧
    file = .initialized ⟨executionAuthorityJson, "3", id⟩ db

theorem SchedulerProcess.Sound.apply {p : SchedulerProcess}
    (h : p.Sound executionAuthorityJson) (step : ProcessStep) (hp : p.Proper step) :
    (p.apply executionAuthorityJson step).Sound executionAuthorityJson := by
  obtain ⟨file, opened⟩ := p
  intro file' hfile'
  cases step with
  | start id interrupted =>
    cases file with
    | none =>
      obtain ⟨hcommitted, hid⟩ := hp rfl
      rw [hcommitted] at hfile'
      cases hfile'
      exact ⟨id, .empty, hid, Sound.empty, rfl⟩
    | some found =>
      cases hfile'
      exact h file' rfl
  | call call =>
    cases opened with
    | false =>
      refine h file' ?_
      cases file with
      | none => cases hfile'
      | some found => cases found <;> exact hfile'
    | true =>
      cases file with
      | none => cases hfile'
      | some found =>
        obtain ⟨id, db, hid, hdb, rfl⟩ := h found rfl
        cases hfile'
        exact ⟨id, db.apply call, hid, hdb.apply call (hp rfl), rfl⟩
  | close => exact h file' hfile'

/-- Whatever the processes did, the next one accepts the file. -/
theorem scheduler_reopens (executionAuthorityJson : String) (steps : List ProcessStep)
    (h : ProperRun executionAuthorityJson ⟨none, false⟩ steps) : ∀ done, done <+: steps → ∀ file,
      (SchedulerProcess.run executionAuthorityJson ⟨none, false⟩ done).file = some file →
      validateExisting executionAuthorityJson file = true := by
  intro done hdone file hfile
  have hstep : ∀ (p : SchedulerProcess) step, p.Sound executionAuthorityJson → p.Proper step →
      (p.apply executionAuthorityJson step).Sound executionAuthorityJson := fun p step hs hp => hs.apply step hp
  have hstart : SchedulerProcess.Sound executionAuthorityJson ⟨none, false⟩ := by
    intro file hnone
    cases hnone
  obtain ⟨id, db, hid, hdb, rfl⟩ := Transition.Along.invariant_of_prefix hstep hstart h hdone file hfile
  exact validateExisting_initialized hid hdb

end

namespace Sample

@[reducible] def sha256 : Sha256 := ⟨fun _ => "00000000000000000000000000000000000000000000000000000000000000ff"⟩

@[reducible] def dateText : DateText := ⟨fun _ => some 0⟩

attribute [local instance] sha256 dateText

def hash : String := "00000000000000000000000000000000000000000000000000000000000000ff"

def id : String := "00000000-0000-4000-8000-000000000000"

def sha256Digest : String := "sha256:" ++ hash

def storedEvent : NativeQemuReviewEvent :=
  { eventId := hash, projectId := "project", protectedRef := "refs/heads/main", reviewId := hash, envelopeId := hash,
    expectedProtectedHead := hash, candidateCommit := hash, candidateTree := hash, policyRevision := "policy",
    requiredReviewRevision := "reviews", qualityRevision := "quality", executionKind := "qemu", jobName := "integration" }

def storedAttempt : NativeQemuAttempt := { attemptId := id, descriptorDigest := sha256Digest, descriptor }

def storedResult : NativeQemuCompletion where
  claimId := id
  cleanupComplete := true
  eventId := id
  result := .success
  terminalEvent :=
    { eventId := id, occurredAt := "2026-01-01T00:01:00.000Z"
      payload :=
        { reviewId := hash, attemptId := id, descriptor, descriptorDigest := sha256Digest, hostId := "node-a",
          capacity := "kvm", startedAt := "2026-01-01T00:00:00.000Z", finishedAt := "2026-01-01T00:01:00.000Z",
          result := .success, completion := .exited 0, stdout := { bytes := 0, sha256 := sha256Digest, truncated := false },
          stderr := { bytes := 0, sha256 := sha256Digest, truncated := false } } }

/-- A job from its event to its acknowledged result, over three processes. -/
def reopenedRun : List ProcessStep :=
  [.start id false, .call (.enqueue storedEvent 1000 id 1),
    .call (.reserve { requestId := id, hostId := "node-a", capacity := "kvm", leaseMilliseconds := 100 } id 2 2 2 2),
    .close, .start id false, .call (.activate id storedAttempt 3 true), .close, .start id false,
    .call (.renew id "node-a" "kvm" 100 4 4), .call (.recordResult storedResult 5), .call (.acknowledgeResult id 6), .close]

/-- Each of its steps is proper, whatever the state. -/
theorem reopenedRun_proper : ProperRun "[]" ⟨none, false⟩ reopenedRun := by
  have hid : uuid id = true := by decide +kernel
  have hhash : hexString 64 hash = true := by decide +kernel
  have hobject : objectId hash = true := by decide +kernel
  have hdigest : Pattern.digest sha256Digest = true := by decide +kernel
  simp only [ProperRun, Transition.Along, reopenedRun, SchedulerProcess.Proper]
  refine ⟨fun _ => ?_, fun _ => ?_, fun _ => ?_, trivial, fun _ => ?_, fun _ => ?_, trivial, fun _ => ?_, fun _ => ?_,
    fun _ => ?_, fun _ => ?_, trivial, trivial⟩
  all_goals
    simp only [Call.proper, reviewEventValid, terminalEventValid, storedEvent, storedAttempt, storedResult, hid, hhash,
      hobject, hdigest, Bool.and_true, Bool.true_and, and_self]
  all_goals decide +kernel

end Sample

theorem scheduler_reopens_reopenedRun :
    (@SchedulerProcess.run Sample.sha256 Sample.dateText "[]" ⟨none, false⟩ Sample.reopenedRun).file.all
      (@validateExisting Sample.sha256 Sample.dateText "[]") = true :=
  (Option.all_eq_true _ _).mpr
    (@scheduler_reopens Sample.sha256 Sample.dateText "[]" Sample.reopenedRun Sample.reopenedRun_proper Sample.reopenedRun
      List.prefix_rfl)

/-- The process ends after `openSync` created the file; or its configuration has the longest lease that its
parser accepts, and the end of the lease is no safe integer. -/
theorem scheduler_reopens_refused :
    ((@SchedulerProcess.run Sample.sha256 Sample.dateText "[]" ⟨none, false⟩ [.start Sample.id true]).file.map
      (@validateExisting Sample.sha256 Sample.dateText "[]")) = some false ∧
    ((@SchedulerProcess.run Sample.sha256 Sample.dateText "[]" ⟨none, false⟩
      [.start Sample.id false, .call (.enqueue Sample.storedEvent 9007199254740991 Sample.id 1)]).file.map
      (@validateExisting Sample.sha256 Sample.dateText "[]")) = some false := by
  constructor <;> decide +kernel

end Dim.Qemu
