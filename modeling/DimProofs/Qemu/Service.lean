/-
The result and recovery handlers of the QEMU scheduler, its result reporter, and native Git on the
other side of their requests. A handler and the reporter give up control only where they await
native Git; a request may take effect there after its caller gave up, and every part of the process
may crash. Requests of unknown hosts, foreign capacities and malformed bodies, which are answered
before the database is read, are left out.
-/
import DimProofs.Qemu.Agreement
import DimProofs.Qemu.NativeGit

namespace Dim.Qemu

open Relational

/-! ## Handlers -/

structure ResultRequest where
  (claimId capacity : String)
  terminalEvent : NativeQemuTerminalEvent

/-- `/v1/qemu-host-results`: the status of the answer. A throw is answered with 503. -/
def results (hostId : String) (request : ResultRequest) (now : Int) (db : SchedulerDatabase) :
    Except SchedulerStoreError (Nat × SchedulerDatabase) := do
  match ← finalization request.claimId hostId request.capacity db with
  | none => return (404, db)
  | some owned =>
    if !terminalEventMatchesClaim request.terminalEvent owned.claim owned.attempt then return (404, db)
    else if owned.state = .completed ∧ owned.result = none then return (404, db)
    else if owned.result.any (·.terminalEvent ≠ request.terminalEvent) then return (404, db)
    else do
      let (_, db) ← recordResult
        { claimId := owned.claim.claimId, cleanupComplete := true, eventId := request.terminalEvent.eventId,
          result := request.terminalEvent.payload.result, terminalEvent := request.terminalEvent } now db
      return (202, db)

/-- A recovery that waits for the revocation of its attempt. -/
structure Recovery where
  hostId : String
  claim : NativeQemuClaim
  attemptId : String

inductive RecoveryPhase where
  | answered (statusCode : Nat)
  | revoking (recovery : Recovery)

/-- `/v1/qemu-host-recoveries`, up to `authority.revoke`. -/
def recoveries (hostId claimId capacity : String) (db : SchedulerDatabase) :
    Except SchedulerStoreError RecoveryPhase := do
  match ← finalization claimId hostId capacity db with
  | none => return .answered 404
  | some owned =>
    if owned.result.isSome then return .answered 404
    else if owned.state = .completed then return .answered 204
    else return .revoking { hostId, claim := owned.claim, attemptId := owned.attempt.attemptId }

/-- `/v1/qemu-host-recoveries`, after the revocation was acknowledged. -/
def recoveryRevoked (recovery : Recovery) (db : SchedulerDatabase) : Except SchedulerStoreError SchedulerDatabase :=
  recover recovery.claim.claimId recovery.hostId recovery.claim.capacity db

/-! ## The reporter -/

structure Report where
  claim : NativeQemuClaim
  terminalEvent : NativeQemuTerminalEvent

/-- `#drain`: the report that native Git was sent, whether it was accepted, and those after it. -/
structure Drain where
  report : Report
  accepted : Bool
  rest : List Report

def Drain.next : List Report → Option Drain
  | [] => none
  | report :: rest => some { report, accepted := false, rest }

def Drain.start (db : SchedulerDatabase) : Option Drain :=
  match pendingReports db with
  | .ok reports => Drain.next (reports.map fun r => ⟨r.1, r.2⟩)
  | .error _ => none

/-! ## Runs -/

/-- The database, native Git, and what the process has under way. `revocations` and `reports` are
the requests sent to native Git so far. -/
structure ServiceState where
  scheduler : SchedulerState
  git : NativeQemuAuthorityState
  (recoveries revocations : List Recovery)
  drain : Option Drain
  reports : List Report

def ServiceState.initial (clock : Int) : ServiceState :=
  { scheduler := .initial clock, git := .empty, recoveries := [], revocations := [], drain := none, reports := [] }

/-- The operations of the other routes. -/
inductive OtherOperation where
  | enqueue (event : NativeQemuReviewEvent) (eligibilityLeaseMilliseconds : Int) (uuid : String) (elapsed : Nat)
  | reserve (input : ReservationInput) (claimId : String) (toExpiry toDelete toSelect toLease : Nat)
  | renew (claimId hostId capacity : String) (leaseMilliseconds : Int) (toLease toUpdate : Nat)
  | supersedeReservation (claimId : String)

def OtherOperation.operation : OtherOperation → Operation
  | .enqueue event eligibilityLeaseMilliseconds uuid elapsed =>
    .enqueue event eligibilityLeaseMilliseconds uuid elapsed
  | .reserve input claimId toExpiry toDelete toSelect toLease =>
    .reserve input claimId toExpiry toDelete toSelect toLease
  | .renew claimId hostId capacity leaseMilliseconds toLease toUpdate =>
    .renew claimId hostId capacity leaseMilliseconds toLease toUpdate
  | .supersedeReservation claimId => .supersedeReservation claimId

inductive ServiceAction where
  | other (operation : OtherOperation)
  /-- Native Git answers an issuance request. -/
  | issue (input : NativeQemuAuthorityState.IssueInput) (uuid issuedAt : String)
  /-- The claim handler resumes with the attempt issued for its reservation. -/
  | activate (claimId : String) (attempt : NativeQemuAttempt) (elapsed : Nat) (crashed : Bool)
  | result (hostId : String) (request : ResultRequest) (elapsed : Nat)
  | recovery (hostId claimId capacity : String)
  /-- Native Git performs a revocation that was sent. -/
  | revoke (request : Nat) (revokedAt : String)
  /-- A recovery handler resumes: its revocation was acknowledged, or its request failed. -/
  | recoveryAnswered (handler : Nat) (acknowledged : Bool)
  | drain
  /-- Native Git performs the report the reporter waits for. -/
  | report
  /-- Native Git performs a report whose sender gave up. -/
  | lateReport (request : Nat)
  /-- The reporter resumes: its report was acknowledged, or its request failed. -/
  | reportAnswered (acknowledged : Bool) (elapsed : Nat)
  | crash

namespace ServiceState

def withGit (s : ServiceState) (git : Except AuthorityStateError NativeQemuAuthorityState) : ServiceState :=
  match git with
  | .ok git => { s with git }
  | .error _ => s

/-- The reporter goes on to the next pending report. -/
def reportNext (s : ServiceState) (drain : Option Drain) : ServiceState :=
  { s with drain, reports := s.reports ++ (drain.map (·.report)).toList }

def apply (s : ServiceState) : ServiceAction → ServiceState
  | .other operation => { s with scheduler := s.scheduler.apply operation.operation }
  | .issue input uuid issuedAt => s.withGit ((s.git.issue input uuid issuedAt).map (·.2))
  | .activate claimId attempt elapsed crashed =>
    if s.git.issuedFor claimId attempt then
      { s with scheduler := s.scheduler.apply (.activate claimId attempt elapsed crashed) }
    else s
  | .result hostId request elapsed =>
    let now := s.scheduler.clock + elapsed
    { s with scheduler := s.scheduler.commit now ((results hostId request now s.scheduler.db).map (·.2)) }
  | .recovery hostId claimId capacity =>
    match Qemu.recoveries hostId claimId capacity s.scheduler.db with
    | .ok (.revoking recovery) =>
      { s with recoveries := s.recoveries ++ [recovery], revocations := s.revocations ++ [recovery] }
    | _ => s
  | .revoke request revokedAt =>
    match s.revocations[request]? with
    | none => s
    | some r => s.withGit (s.git.revoke r.claim.event.reviewId r.claim.event.jobName r.attemptId revokedAt)
  | .recoveryAnswered handler acknowledged =>
    match s.recoveries[handler]? with
    | none => s
    | some r =>
      if acknowledged then
        if s.git.revoked r.attemptId then
          { s with
            scheduler := s.scheduler.commit s.scheduler.clock (recoveryRevoked r s.scheduler.db)
            recoveries := s.recoveries.eraseIdx handler }
        else s
      else { s with recoveries := s.recoveries.eraseIdx handler }
  | .drain => if s.drain.isNone then s.reportNext (Drain.start s.scheduler.db) else s
  | .report =>
    match s.drain with
    | none => s
    | some d =>
      match s.git.qemuStatuses d.report.claim.event.reviewId d.report.terminalEvent with
      | .ok git => { s with git, drain := some { d with accepted := true } }
      | .error _ => s
  | .lateReport request =>
    match s.reports[request]? with
    | none => s
    | some r => s.withGit (s.git.qemuStatuses r.claim.event.reviewId r.terminalEvent)
  | .reportAnswered acknowledged elapsed =>
    match s.drain with
    | none => s
    | some d =>
      if acknowledged then
        if d.accepted then
          let now := s.scheduler.clock + elapsed
          match acknowledgeResult d.report.claim.claimId now s.scheduler.db with
          | .ok db => { s with scheduler := ⟨db, now⟩ }.reportNext (Drain.next d.rest)
          | .error _ => { s with scheduler := ⟨s.scheduler.db, now⟩, drain := none }
        else s
      else { s with drain := none }
  | .crash => { s with recoveries := [], drain := none }

def run (s : ServiceState) (actions : List ServiceAction) : ServiceState := actions.foldl apply s

end ServiceState

/-! ## Results and recoveries exclude each other -/

/-- The claim's result is recorded and was delivered by `acknowledgeResult`. -/
def Delivered (s : ServiceState) (c : ClaimRow) : Prop :=
  c.result.isSome = true ∧ (s.scheduler.db.reportOutbox.get? c.claimId).map (·.state) = some .delivered

/-- Native Git has revoked the claim's attempt. -/
def Revoked (s : ServiceState) (c : ClaimRow) : Prop := c.attemptId.any s.git.revoked = true

/-- A completed claim ended by its delivered result or by its revoked attempt, not by both, and has
no report pending. -/
def Exclusive (s : ServiceState) : Prop :=
  ∀ c ∈ s.scheduler.db.claims.rows, c.state = .completed →
    Xor (Delivered s c) (Revoked s c) ∧
      (s.scheduler.db.reportOutbox.get? c.claimId).map (·.state) ≠ some .pending

/-- The condition on one action. A revocation takes effect on no claim whose result was delivered; a
handler that resumes finds no undelivered result on its claim; the reporter's acknowledgement finds
the attempt of its claim not revoked. -/
def ServiceState.Orderly (s : ServiceState) : ServiceAction → Prop
  | .revoke request _ => ∀ r ∈ s.revocations[request]?, ∀ c ∈ s.scheduler.db.claims.rows,
    c.attemptId = some r.attemptId → c.state = .completed → c.result = none
  | .recoveryAnswered handler true => ∀ r ∈ s.recoveries[handler]?, s.git.revoked r.attemptId = true →
    ∀ c ∈ s.scheduler.db.claims.rows, c.claimId = r.claim.claimId → c.state = .completed ∨ c.result = none
  | .reportAnswered true _ => ∀ d ∈ s.drain, d.accepted = true →
    ∀ c ∈ s.scheduler.db.claims.rows, c.claimId = d.report.claim.claimId →
      c.state = .completed ∨ c.attemptId.any s.git.revoked = false
  | _ => True

def OrderlyRun : ServiceState → List ServiceAction → Prop := Transition.Along ServiceState.apply ServiceState.Orderly

instance (s : ServiceState) : ∀ action, Decidable (s.Orderly action)
  | .revoke request _ => inferInstanceAs (Decidable (∀ r ∈ s.revocations[request]?, ∀ c ∈ s.scheduler.db.claims.rows, _))
  | .recoveryAnswered handler true => inferInstanceAs (Decidable (∀ r ∈ s.recoveries[handler]?, _))
  | .reportAnswered true _ => inferInstanceAs (Decidable (∀ d ∈ s.drain, _))
  | .recoveryAnswered _ false | .reportAnswered false _ | .other _ | .issue _ _ _ | .activate _ _ _ _ | .result _ _ _
  | .recovery _ _ _ | .drain | .report | .lateReport _ | .crash => inferInstanceAs (Decidable True)

instance (s : ServiceState) (actions : List ServiceAction) : Decidable (OrderlyRun s actions) :=
  inferInstanceAs (Decidable (Transition.Along _ _ s actions))

/-! ## The invariant, one claim at a time -/

/-- What a claim row and its report say about each other. -/
structure Tracked (git : NativeQemuAuthorityState) (c : ClaimRow) (report : Option ReportRow) : Prop where
  attempted : c.attemptId = c.attempt.map (·.attemptId)
  reserved : c.state = .reserved → c.result = none
  unreported : c.state ≠ .completed → report.map (·.state) = c.result.map fun _ => .pending
  ended : c.state = .completed →
    (c.result.isSome = true ∧ report.map (·.state) = some .delivered ∧ c.attemptId.any git.revoked = false) ∨
      (c.result = none ∧ report = none ∧ c.attemptId.any git.revoked = true)

def TrackedAt (git : NativeQemuAuthorityState) (claim : Option ClaimRow) (report : Option ReportRow) : Prop :=
  match claim with
  | none => report = none
  | some c => Tracked git c report

/-- What the other routes do to one claim. -/
inductive Kept : Option ClaimRow → Option ClaimRow → Prop
  | released {c : ClaimRow} : c.state = .reserved → Kept (some c) none
  | reserved (input : ReservationInput) (claimId : String) (leaseExpiresAt : Int) (e : EventRow) :
    Kept none (some (reservation input claimId leaseExpiresAt e))
  | renewed (c : ClaimRow) (leaseExpiresAt : Int) : Kept (some c) (some { c with leaseExpiresAt })

variable {claim' : Option ClaimRow} {report : Option ReportRow}

theorem TrackedAt.kept {git : NativeQemuAuthorityState} {claim : Option ClaimRow}
    (h : TrackedAt git claim report) (hk : Kept claim claim') : TrackedAt git claim' report := by
  cases hk with
  | released hs =>
    have hreport := h.unreported (by rw [hs]; decide)
    rw [h.reserved hs] at hreport
    exact Option.map_eq_none_iff.mp hreport
  | reserved input claimId leaseExpiresAt e =>
    constructor
    · rfl
    · intro _; rfl
    · intro _
      have hnone : report = none := h
      rw [hnone]
      rfl
    · intro hs; cases hs
  | renewed c leaseExpiresAt => exact ⟨h.attempted, h.reserved, h.unreported, h.ended⟩

theorem TrackedAt.keptAll {git : NativeQemuAuthorityState} {claim : Option ClaimRow}
    (h : TrackedAt git claim report) (hk : Relation.ReflTransGen Kept claim claim') : TrackedAt git claim' report := by
  induction hk with
  | refl => exact h
  | tail _ hk ih => exact ih.kept hk

/-- A claim with an attempt stays one, with the same attempt. -/
def Persists (claim claim' : Option ClaimRow) : Prop :=
  ∀ c, claim = some c → c.state ≠ .reserved → ∃ c', claim' = some c' ∧ c'.state ≠ .reserved ∧ c'.attemptId = c.attemptId

theorem Persists.refl (claim : Option ClaimRow) : Persists claim claim := fun c hc hs => ⟨c, hc, hs, rfl⟩

theorem Persists.trans {claim claim'' : Option ClaimRow} (h : Persists claim claim')
    (h' : Persists claim' claim'') : Persists claim claim'' := by
  intro c hc hs
  obtain ⟨c', hc', hs', ha'⟩ := h c hc hs
  obtain ⟨c'', hc'', hs'', ha''⟩ := h' c' hc' hs'
  exact ⟨c'', hc'', hs'', ha''.trans ha'⟩

theorem Persists.kept {claim : Option ClaimRow} (hk : Relation.ReflTransGen Kept claim claim') :
    Persists claim claim' := by
  induction hk with
  | refl => exact .refl _
  | tail _ hk ih =>
    refine ih.trans ?_
    intro c hc hs
    cases hk with
    | released hr => cases hc; exact absurd hr hs
    | reserved input claimId leaseExpiresAt e => cases hc
    | renewed d leaseExpiresAt => cases hc; exact ⟨_, rfl, hs, rfl⟩

/-! ## The other routes -/

/-- An operation of another route: each claim is kept, and so is the report outbox. -/
structure KeptAll (db db' : SchedulerDatabase) : Prop where
  claims : ∀ k, Relation.ReflTransGen Kept (db.claims.get? k) (db'.claims.get? k)
  reportOutbox : db'.reportOutbox = db.reportOutbox

theorem KeptAll.refl (db : SchedulerDatabase) : KeptAll db db := ⟨fun _ => .refl, rfl⟩

variable {db db' : SchedulerDatabase}

theorem KeptAll.trans {db'' : SchedulerDatabase} (h : KeptAll db db') (h' : KeptAll db' db'') :
    KeptAll db db'' :=
  ⟨fun k => (h.claims k).trans (h'.claims k), h'.reportOutbox.trans h.reportOutbox⟩

theorem KeptAll.of_eq (hc : db'.claims = db.claims)
    (hr : db'.reportOutbox = db.reportOutbox) : KeptAll db db' :=
  ⟨fun k => by rw [hc], hr⟩

/-- Only reservations are deleted. -/
theorem KeptAll.deleteClaims {p : ClaimRow → Bool}
    (h : Qemu.deleteClaims p db = .ok db') (hp : ∀ c ∈ db.claims.rows, p c = true → c.state = .reserved) :
    KeptAll db db' := by
  cases deleteClaims_ok h
  refine ⟨?_, rfl⟩
  intro k
  show Relation.ReflTransGen Kept _ ((db.claims.delete p).get? k)
  rw [Table.get?_delete]
  rcases hg : db.claims.get? k with _ | c
  · exact .refl
  · rw [Option.filter_some]
    by_cases hpc : p c = true
    · simp only [hpc, Bool.not_true, Bool.false_eq_true, if_false]
      exact .single (.released (hp c (Table.get?_mem hg) hpc))
    · simp only [hpc, Bool.not_false, if_true]
      exact .refl

variable {claimId : String}

theorem KeptAll.insertClaim {input : ReservationInput} {leaseExpiresAt : Int} {e : EventRow}
    (h : Qemu.insertClaim (reservation input claimId leaseExpiresAt e) db = .ok db') :
    KeptAll db db' := by
  unfold Qemu.insertClaim at h
  obtain ⟨-, -, h⟩ := bind_ok.mp h
  obtain ⟨claims, hi, h⟩ := bind_ok.mp h
  cases pure_ok.mp h
  refine ⟨?_, rfl⟩
  intro k
  show Relation.ReflTransGen Kept _ (claims.get? k)
  rw [Table.get?_insert hi]
  split
  · rename_i hk
    rw [hk, Table.get?_insert_fresh hi]
    exact .single (.reserved input claimId leaseExpiresAt e)
  · exact .refl

theorem KeptAll.setEventState {state : EventState} {eventId : String}
    (h : Qemu.setEventState state eventId db = .ok db') : KeptAll db db' := by
  obtain ⟨hc, hr, -⟩ := setEventState_ok h
  exact .of_eq hc hr

theorem KeptAll.activateEvent (h : Qemu.activateEvent claimId db = .ok db') : KeptAll db db' := by
  unfold Qemu.activateEvent at h
  obtain ⟨events, -, h⟩ := bind_ok.mp h
  cases pure_ok.mp h
  exact .of_eq rfl rfl

variable {now : Int}

theorem KeptAll.enqueue {event : NativeQemuReviewEvent} {lease : Int} {uuid : String}
    {intake : NativeQemuIntake}
    (ho : Qemu.enqueue event lease uuid now db = .ok (intake, db')) : KeptAll db db' := by
  unfold Qemu.enqueue at ho
  split at ho
  · cases ho
  obtain ⟨db₁, hu, ho⟩ := bind_ok.mp ho
  obtain ⟨events, -, ho⟩ := bind_ok.mp ho
  have hkept : KeptAll db db₁ := by
    unfold upsertEligibility at hu
    obtain ⟨eligibility, -, hu⟩ := bind_ok.mp hu
    cases pure_ok.mp hu
    exact .of_eq rfl rfl
  refine hkept.trans ?_
  split at ho
  · split at ho
    · cases ho
    · cases pure_ok.mp ho
      exact .of_eq rfl rfl
  · obtain ⟨events', -, ho⟩ := bind_ok.mp ho
    cases pure_ok.mp ho
    exact .of_eq rfl rfl

theorem KeptAll.expireClaims {deletedAt : Int}
    (h : Qemu.expireClaims now deletedAt db = .ok db') : KeptAll db db' := by
  unfold Qemu.expireClaims at h
  obtain ⟨events, -, h⟩ := bind_ok.mp h
  have hevents : KeptAll db { db with events } := .of_eq rfl rfl
  refine hevents.trans (KeptAll.deleteClaims h ?_)
  intro c _ hp
  simp only [ClaimRow.lapsed, Bool.and_eq_true, decide_eq_true_eq] at hp
  exact hp.1

theorem KeptAll.reserve {input : ReservationInput} {t₁ t₂ t₃ t₄ : Int} {answer : Option NativeQemuClaim}
    (h : Qemu.reserve input claimId t₁ t₂ t₃ t₄ db = .ok (answer, db')) : KeptAll db db' := by
  obtain ⟨db₁, he, hcases⟩ := reserve_ok h
  refine (KeptAll.expireClaims he).trans ?_
  rcases hcases with ⟨rfl, -⟩ | ⟨-, hr⟩
  · exact .refl _
  · rcases reserveNext_ok hr with rfl | ⟨e, db₂, -, hi, hs⟩
    · exact .refl _
    · exact (KeptAll.insertClaim hi).trans (KeptAll.setEventState hs)

theorem KeptAll.renew {claimId hostId capacity : String} {lease leasedAt now answer : Int} {db db' : SchedulerDatabase}
    (ho : Qemu.renew claimId hostId capacity lease leasedAt now db = .ok (answer, db')) : KeptAll db db' := by
  unfold Qemu.renew at ho
  obtain ⟨claims, hu, ho⟩ := bind_ok.mp ho
  split at ho
  · cases ho
  cases pure_ok.mp ho
  refine ⟨?_, rfl⟩
  intro k
  show Relation.ReflTransGen Kept _ (claims.get? k)
  rw [Table.get?_update hu (fun _ => rfl)]
  rcases hg : db.claims.get? k with _ | c
  · exact .refl
  · simp only [Option.map_some, Table.updated]
    split
    · exact .single (.renewed c _)
    · exact .refl

theorem KeptAll.supersedeReservation
    (ho : Qemu.supersedeReservation claimId db = .ok db') : KeptAll db db' := by
  unfold Qemu.supersedeReservation at ho
  split at ho
  · cases ho
  rename_i c hfound
  obtain ⟨hc, hs⟩ := Option.filter_eq_some_iff.mp hfound
  obtain ⟨db₁, hevent, ho⟩ := bind_ok.mp ho
  refine (KeptAll.setEventState hevent).trans (KeptAll.deleteClaims ho ?_)
  intro d hd hp
  obtain ⟨hsame, -, -⟩ := setEventState_ok hevent
  rw [hsame] at hd
  have hid : d.claimId = claimId := by simpa using hp
  have hdc : d = c := db.claims.eq_of_conflict hd (Table.get?_mem hc) (conflict_of_key (hid.trans (Table.get?_key hc).symm))
  rw [hdc]
  simpa using hs

theorem OtherOperation.kept (s : SchedulerState) (operation : OtherOperation) :
    KeptAll s.db (s.apply operation.operation).db := by
  cases operation with
  | enqueue event lease uuid elapsed =>
    refine SchedulerState.commit_db (.refl _) fun db hdb => ?_
    obtain ⟨intake, hok⟩ := map_snd_ok hdb
    exact .enqueue hok
  | reserve input claimId toExpiry toDelete toSelect toLease =>
    refine SchedulerState.commit_db (.refl _) fun db hdb => ?_
    obtain ⟨answer, hok⟩ := map_snd_ok hdb
    exact .reserve hok
  | renew claimId hostId capacity lease toLease toUpdate =>
    refine SchedulerState.commit_db (.refl _) fun db hdb => ?_
    obtain ⟨answer, hok⟩ := map_snd_ok hdb
    exact .renew hok
  | supersedeReservation claimId => exact SchedulerState.commit_db (.refl _) fun db hdb => .supersedeReservation hdb

/-! ## The statements of the handlers and the reporter -/

/-- Every claim and its report agree, and every claim with an attempt keeps it. -/
structure Advances (git : NativeQemuAuthorityState) (db db' : SchedulerDatabase) : Prop where
  tracked : ∀ k, TrackedAt git (db'.claims.get? k) (db'.reportOutbox.get? k)
  persists : ∀ k, Persists (db.claims.get? k) (db'.claims.get? k)

def AllTracked (git : NativeQemuAuthorityState) (db : SchedulerDatabase) : Prop :=
  ∀ k, TrackedAt git (db.claims.get? k) (db.reportOutbox.get? k)

theorem AllTracked.refl {git : NativeQemuAuthorityState} (h : AllTracked git db) :
    Advances git db db :=
  ⟨h, fun _ => .refl _⟩

theorem Advances.trans {git : NativeQemuAuthorityState} {db'' : SchedulerDatabase} (h : Advances git db db')
    (h' : Advances git db' db'') : Advances git db db'' :=
  ⟨h'.tracked, fun k => (h.persists k).trans (h'.persists k)⟩

theorem AllTracked.kept {git : NativeQemuAuthorityState} (h : AllTracked git db)
    (hk : KeptAll db db') : Advances git db db' := by
  refine ⟨?_, fun k => .kept (hk.claims k)⟩
  intro k
  rw [hk.reportOutbox]
  exact (h k).keptAll (hk.claims k)

theorem AllTracked.claim {git : NativeQemuAuthorityState} {db : SchedulerDatabase} (h : AllTracked git db)
    {claimId : String} {c : ClaimRow} (hc : db.claims.get? claimId = some c) :
    Tracked git c (db.reportOutbox.get? claimId) := by
  have hk := h claimId
  rw [hc] at hk
  exact hk

/-- A step that touches the claim `c` and its report, and leaves them tracked. -/
theorem AllTracked.move {git : NativeQemuAuthorityState} (h : AllTracked git db)
    {c c' : ClaimRow} (hc : db.claims.get? claimId = some c)
    (hc' : db'.claims.get? claimId = some c') (ht : Tracked git c' (db'.reportOutbox.get? claimId))
    (ha : c.state ≠ .reserved → c'.state ≠ .reserved ∧ c'.attemptId = c.attemptId)
    (hother : ∀ k, k ≠ claimId → db'.claims.get? k = db.claims.get? k ∧
      db'.reportOutbox.get? k = db.reportOutbox.get? k) : Advances git db db' := by
  constructor
  · intro k
    by_cases hk : k = claimId
    · rw [hk, hc']; exact ht
    · rw [(hother k hk).1, (hother k hk).2]; exact h k
  · intro k
    by_cases hk : k = claimId
    · intro d hd hs
      rw [hk, hc] at hd
      cases hd
      rw [hk]
      exact ⟨c', hc', ha hs⟩
    · rw [(hother k hk).1]; exact .refl _

theorem AllTracked.activateClaim {git : NativeQemuAuthorityState} {attempt : NativeQemuAttempt}
    (h : AllTracked git db)
    (ho : Qemu.activateClaim claimId attempt now db = .ok db') : Advances git db db' := by
  obtain ⟨c, hc, hs, -, hdb, hc', -⟩ := activateClaim_ok ho
  have ht := h.claim hc
  have hreport : db'.reportOutbox = db.reportOutbox := by rw [hdb]
  refine h.move hc hc' ?_ (fun hne => absurd hs hne) ?_
  · rw [hreport]
    refine ⟨rfl, ?_, ?_, ?_⟩
    · intro he; cases he
    · intro _; exact ht.unreported (by rw [hs]; decide)
    · intro he; cases he
  · intro k hk
    rw [hreport]
    exact ⟨activateClaim_other ho hk, rfl⟩

theorem AllTracked.recordResult {git : NativeQemuAuthorityState} {input : NativeQemuCompletion}
    {answer : Recorded} (h : AllTracked git db)
    (ho : Qemu.recordResult input now db = .ok (answer, db')) : Advances git db db' := by
  rcases recordResult_ok ho with ⟨-, rfl⟩ | ⟨-, c, hc, hs, hresult, -, hu, hi⟩
  · exact h.refl
  have hid : c.claimId = input.claimId := Table.get?_key hc
  have ht := h.claim hc
  refine h.move hc (Table.get?_update_self hu (fun _ => rfl) hc (by simp [hid])) ?_ (fun hne => ⟨hne, rfl⟩) ?_
  · rw [Table.get?_insert hi, ReportRow.key_eq, if_pos rfl]
    refine ⟨ht.attempted, ?_, fun _ => rfl, ?_⟩
    · intro he
      rw [hs] at he
      cases he
    · intro he
      rw [hs] at he
      cases he
  · intro k hk
    rw [Table.get?_insert hi, ReportRow.key_eq, if_neg hk]
    exact ⟨Table.get?_update_ne hu (fun _ => rfl) (fun r hr => by simpa using hr) hk, rfl⟩

/-- The acknowledgement completes a claim whose attempt is not revoked. -/
theorem AllTracked.acknowledgeResult {git : NativeQemuAuthorityState} (h : AllTracked git db)
    (hn : ∀ c ∈ db.claims.rows, c.claimId = claimId → c.state = .completed ∨ c.attemptId.any git.revoked = false)
    (ho : Qemu.acknowledgeResult claimId now db = .ok db') : Advances git db db' := by
  rcases acknowledgeResult_ok ho with rfl | ⟨c, db₁, db₂, hc, hresult, hs, hclaim, hevent, hdb, hu⟩
  · exact h.refl
  have hid : c.claimId = claimId := Table.get?_key hc
  have hrevoked : c.attemptId.any git.revoked = false := by
    rcases hn c (Table.get?_mem hc) hid with hcompleted | hr
    · rw [hs] at hcompleted; cases hcompleted
    · exact hr
  obtain ⟨hsame, hreports, -⟩ := setEventState_ok hevent
  obtain ⟨-, hreports₁, hc₁, -⟩ := setClaimState_ok hc hclaim
  have hclaims : db'.claims = db₁.claims := by rw [hdb, hsame]
  have hreported : ∀ k, db₂.reportOutbox.get? k = db.reportOutbox.get? k := by
    intro k
    rw [hreports, hreports₁]
  have ht := h.claim hc
  have hc' : db'.claims.get? claimId = some { c with state := .completed } := by rw [hclaims]; exact hc₁
  refine h.move hc hc' ?_ (fun _ => ⟨by simp, rfl⟩) ?_
  · refine ⟨ht.attempted, ?_, fun he => absurd rfl he, ?_⟩
    · intro he; cases he
    · intro _
      refine Or.inl ⟨hresult, ?_, hrevoked⟩
      have hpending := ht.unreported (by rw [hs]; decide)
      obtain ⟨result, hr⟩ := Option.isSome_iff_exists.mp hresult
      rw [hr] at hpending
      obtain ⟨report, hreport, -⟩ := Option.map_eq_some_iff.mp hpending
      have hkey : report.claimId = claimId := Table.get?_key hreport
      rw [Table.get?_update hu (fun _ => rfl), hreported, hreport]
      simp [Table.updated, hkey]
  · intro k hk
    rw [hclaims, setClaimState_other hclaim hk, ← hreported k]
    exact ⟨rfl, Table.get?_update_ne hu (fun _ => rfl) (fun r hr => by simpa using hr) hk⟩

variable {attemptId capacity hostId : String}

/-- The recovery completes a claim whose attempt is revoked and which has no result. -/
theorem AllTracked.recover {git : NativeQemuAuthorityState} (h : AllTracked git db)
    (hn : ∀ c ∈ db.claims.rows, c.claimId = claimId → c.state = .completed ∨ c.result = none)
    (ha : ∀ c, db.claims.get? claimId = some c → c.attemptId = some attemptId)
    (hr : git.revoked attemptId = true) (ho : Qemu.recover claimId hostId capacity db = .ok db') :
    Advances git db db' := by
  rcases recover_ok ho with ⟨rfl, -⟩ | ⟨c, db₁, hc, hs, hclaim, hevent⟩
  · exact h.refl
  have hid : c.claimId = claimId := Table.get?_key hc
  have hresult : c.result = none := by
    rcases hn c (Table.get?_mem hc) hid with hcompleted | hresult
    · exact absurd hcompleted hs
    · exact hresult
  obtain ⟨hsame, hreports, -⟩ := setEventState_ok hevent
  obtain ⟨-, hreports₁, hc₁, -⟩ := setClaimState_ok hc hclaim
  have hreported : db'.reportOutbox = db.reportOutbox := by rw [hreports, hreports₁]
  have ht := h.claim hc
  have hc' : db'.claims.get? claimId = some { c with state := .completed } := by rw [hsame]; exact hc₁
  refine h.move hc hc' ?_ (fun _ => ⟨by simp, rfl⟩) ?_
  · refine ⟨ht.attempted, ?_, fun he => absurd rfl he, ?_⟩
    · intro he; cases he
    · intro _
      refine Or.inr ⟨hresult, ?_, ?_⟩
      · have hnone := ht.unreported hs
        rw [hresult] at hnone
        rw [hreported]
        exact Option.map_eq_none_iff.mp hnone
      · show c.attemptId.any git.revoked = true
        rw [ha c hc]
        simpa using hr
  · intro k hk
    rw [hsame, setClaimState_other hclaim hk, hreported]
    exact ⟨rfl, rfl⟩

/-! ## Native Git -/

variable {git' : NativeQemuAuthorityState} {reviewId : String}

/-- No revocation was undone, and the revocations that are new are the ones of `attemptId`. -/
theorem revoke_revoked {jobName revokedAt : String} {git : NativeQemuAuthorityState}
    (h : git.revoke reviewId jobName attemptId revokedAt = .ok git') (other : String) :
    (git.revoked other = true → git'.revoked other = true) ∧
      (other ≠ attemptId → git'.revoked other = git.revoked other) := by
  unfold NativeQemuAuthorityState.revoke at h
  split at h
  · cases h
  split at h
  · cases pure_ok.mp h
    exact ⟨id, fun _ => rfl⟩
  obtain ⟨attempts, hu, h⟩ := bind_ok.mp h
  cases pure_ok.mp h
  unfold NativeQemuAuthorityState.revoked
  constructor
  · intro hr
    show (attempts.get? other).any (·.revokedAt.isSome) = true
    rw [Table.get?_update hu (fun _ => rfl)]
    obtain ⟨record, hg, hsome⟩ := (Option.any_eq_true _ _).mp hr
    rw [hg]
    simp only [Option.map_some, Option.any_some, Table.updated]
    split
    · rfl
    · exact hsome
  · intro hne
    show (attempts.get? other).any (·.revokedAt.isSome) = _
    rw [Table.get?_update_ne hu (fun _ => rfl) (fun r hr => by simpa using hr) hne]

theorem issue_revoked {input : NativeQemuAuthorityState.IssueInput} {uuid issuedAt : String}
    {git : NativeQemuAuthorityState} {record : NativeQemuAttemptRecord}
    (h : git.issue input uuid issuedAt = .ok (record, git')) (other : String) :
    git'.revoked other = git.revoked other := by
  unfold NativeQemuAuthorityState.issue at h
  split at h
  · split at h
    · cases pure_ok.mp h; rfl
    · cases h
  split at h
  · cases h
  obtain ⟨attempts, hi, h⟩ := bind_ok.mp h
  cases pure_ok.mp h
  unfold NativeQemuAuthorityState.revoked
  show (attempts.get? other).any (·.revokedAt.isSome) = _
  rw [Table.get?_insert hi]
  split
  · rename_i hk
    rw [hk, Table.get?_insert_fresh hi]
    rfl
  · rfl

theorem qemuStatuses_attempts {event : NativeQemuTerminalEvent}
    {git : NativeQemuAuthorityState} (h : git.qemuStatuses reviewId event = .ok git') :
    git'.attempts = git.attempts := by
  unfold NativeQemuAuthorityState.qemuStatuses at h
  split at h
  · cases h
  split at h
  · cases h
  split at h
  · cases h
  unfold NativeQemuAuthorityState.status at h
  split at h
  · split at h
    · cases pure_ok.mp h; rfl
    · cases h
  split at h
  · cases h
  split at h
  · cases h
  obtain ⟨statuses, -, h⟩ := bind_ok.mp h
  cases pure_ok.mp h
  rfl

/-- Native Git may learn anything that revokes no attempt of a delivered claim. -/
theorem Tracked.git {git : NativeQemuAuthorityState} {c : ClaimRow} (h : Tracked git c report)
    (hr : c.state = .completed → c.result = none → ∀ a, git.revoked a = true → git'.revoked a = true)
    (hd : c.state = .completed → c.result.isSome = true → ∀ a ∈ c.attemptId, git'.revoked a = git.revoked a) :
    Tracked git' c report := by
  refine ⟨h.attempted, h.reserved, h.unreported, ?_⟩
  intro hs
  rcases h.ended hs with ⟨hresult, hreport, hrev⟩ | ⟨hresult, hreport, hrev⟩
  · refine Or.inl ⟨hresult, hreport, ?_⟩
    rcases ha : c.attemptId with _ | a
    · rfl
    · rw [ha] at hrev
      exact (hd hs hresult a ha).trans hrev
  · refine Or.inr ⟨hresult, hreport, ?_⟩
    rcases ha : c.attemptId with _ | a
    · rw [ha] at hrev; cases hrev
    · rw [ha] at hrev
      exact hr hs hresult a hrev

theorem AllTracked.git_congr {git : NativeQemuAuthorityState} (h : AllTracked git db)
    (hg : ∀ a, git'.revoked a = git.revoked a) : AllTracked git' db := by
  intro k
  have hk := h k
  unfold TrackedAt at *
  split
  · rename_i hnone
    rw [hnone] at hk
    exact hk
  · rename_i c hc
    rw [hc] at hk
    exact hk.git (fun _ _ a ha => by rw [hg]; exact ha) (fun _ _ a _ => hg a)

/-- A revocation of an attempt that no delivered claim has. -/
theorem AllTracked.revoke {jobName revokedAt : String} {git : NativeQemuAuthorityState}
    (h : AllTracked git db)
    (hn : ∀ c ∈ db.claims.rows, c.attemptId = some attemptId → c.state = .completed → c.result = none)
    (hr : git.revoke reviewId jobName attemptId revokedAt = .ok git') : AllTracked git' db := by
  intro k
  have hk := h k
  unfold TrackedAt at *
  split
  · rename_i hnone
    rw [hnone] at hk
    exact hk
  · rename_i c hc
    rw [hc] at hk
    refine hk.git (fun _ _ a => (revoke_revoked hr a).1) ?_
    intro hs hresult a ha
    refine (revoke_revoked hr a).2 ?_
    rintro rfl
    rw [hn c (Table.get?_mem hc) ha hs] at hresult
    cases hresult

/-! ## Steps -/

/-- The recovery's claim has an attempt, which is the one the recovery revokes. -/
def Recovery.Owned (db : SchedulerDatabase) (r : Recovery) : Prop :=
  ∃ c, db.claims.get? r.claim.claimId = some c ∧ c.state ≠ .reserved ∧ c.attemptId = some r.attemptId

theorem Recovery.Owned.persists {git : NativeQemuAuthorityState} {r : Recovery}
    (h : r.Owned db) (ha : Advances git db db') : r.Owned db' := by
  obtain ⟨c, hc, hs, hid⟩ := h
  obtain ⟨c', hc', hs', hid'⟩ := ha.persists _ c hc hs
  exact ⟨c', hc', hs', hid'.trans hid⟩

structure ServiceInv (s : ServiceState) : Prop where
  tracked : AllTracked s.git s.scheduler.db
  owned : ∀ r ∈ s.recoveries, r.Owned s.scheduler.db

theorem ServiceInv.initial (clock : Int) : ServiceInv (.initial clock) :=
  ⟨fun _ => rfl, fun r hr => by cases hr⟩

theorem ServiceInv.exclusive {s : ServiceState} (h : ServiceInv s) : Exclusive s := by
  intro c hc hs
  have hk : s.scheduler.db.claims.get? c.claimId = some c := Table.get?_of_mem hc
  rcases (h.tracked.claim hk).ended hs with ⟨hresult, hreport, hrevoked⟩ | ⟨hresult, hreport, hrevoked⟩
  · refine ⟨Or.inl ⟨⟨hresult, hreport⟩, ?_⟩, ?_⟩
    · unfold Revoked
      rw [hrevoked]
      decide
    · rw [hreport]
      decide
  · refine ⟨Or.inr ⟨hrevoked, ?_⟩, ?_⟩
    · rintro ⟨hsome, -⟩
      rw [hresult] at hsome
      cases hsome
    · rw [hreport]
      simp

variable {s : ServiceState}

/-- A statement of the process, with the handlers that still wait afterwards. -/
theorem ServiceInv.advance {s' : ServiceState} (h : ServiceInv s) (hgit : s'.git = s.git)
    (ha : Advances s.git s.scheduler.db s'.scheduler.db) (hr : ∀ r ∈ s'.recoveries, r ∈ s.recoveries) :
    ServiceInv s' := by
  constructor
  · rw [hgit]; exact ha.tracked
  · intro r hmem
    exact (h.owned r (hr r hmem)).persists ha

theorem ServiceInv.withGit (h : ServiceInv s) {git : Except AuthorityStateError NativeQemuAuthorityState}
    (hg : ∀ git', git = .ok git' → AllTracked git' s.scheduler.db) : ServiceInv (s.withGit git) := by
  cases git with
  | error e => exact h
  | ok git' => exact ⟨hg git' rfl, h.owned⟩

theorem results_advances {git : NativeQemuAuthorityState} {request : ResultRequest}
    {statusCode : Nat} (h : AllTracked git db)
    (ho : results hostId request now db = .ok (statusCode, db')) : Advances git db db' := by
  unfold results at ho
  obtain ⟨owned?, -, ho⟩ := bind_ok.mp ho
  split at ho
  · cases pure_ok.mp ho; exact h.refl
  split at ho
  · cases pure_ok.mp ho; exact h.refl
  split at ho
  · cases pure_ok.mp ho; exact h.refl
  split at ho
  · cases pure_ok.mp ho; exact h.refl
  obtain ⟨⟨recorded, db₁⟩, hr, ho⟩ := bind_ok.mp ho
  cases pure_ok.mp ho
  exact h.recordResult hr

theorem finalization_ok {owned : NativeQemuFinalization}
    (h : finalization claimId hostId capacity db = .ok (some owned)) :
    ∃ c, db.claims.get? claimId = some c ∧ c.state ≠ .reserved ∧ c.attempt = some owned.attempt ∧
      owned.claim.claimId = claimId := by
  unfold finalization at h
  split at h
  · cases h
  rename_i c hfound
  obtain ⟨hc, hp⟩ := Option.filter_eq_some_iff.mp hfound
  split at h
  · cases h
  rename_i attempt ha
  obtain ⟨view, hv, h⟩ := bind_ok.mp h
  cases pure_ok.mp h
  simp only [Bool.and_eq_true, decide_eq_true_eq] at hp
  refine ⟨c, hc, hp.2, ha, ?_⟩
  unfold claim at hv
  split at hv
  · cases hv
  · cases hv; exact Table.get?_key hc

theorem recoveries_owned {git : NativeQemuAuthorityState}
    {r : Recovery} (h : AllTracked git db) (ho : recoveries hostId claimId capacity db = .ok (.revoking r)) :
    r.Owned db := by
  unfold recoveries at ho
  obtain ⟨owned?, hf, ho⟩ := bind_ok.mp ho
  split at ho
  · cases ho
  split at ho
  · cases ho
  split at ho
  · cases ho
  cases pure_ok.mp ho
  obtain ⟨c, hc, hs, ha, hid⟩ := finalization_ok hf
  refine ⟨c, ?_, hs, ?_⟩
  · rw [← hid] at hc
    exact hc
  · rw [(h.claim hc).attempted, ha]
    rfl

/-- An orderly action keeps the invariant. -/
theorem ServiceInv.apply (h : ServiceInv s) (action : ServiceAction) (ho : s.Orderly action) :
    ServiceInv (s.apply action) := by
  cases action with
  | other operation =>
    exact h.advance rfl (h.tracked.kept (operation.kept s.scheduler)) fun _ hr => hr
  | issue input uuid issuedAt =>
    refine h.withGit fun git' hg => ?_
    obtain ⟨record, hok⟩ := map_snd_ok hg
    exact h.tracked.git_congr (issue_revoked hok)
  | activate claimId attempt elapsed crashed =>
    simp only [ServiceState.apply]
    split
    · refine h.advance rfl ?_ fun _ hr => hr
      show Advances s.git s.scheduler.db (s.scheduler.activate claimId attempt _ crashed).db
      unfold SchedulerState.activate
      split
      · exact h.tracked.refl
      · rename_i db hok
        have ha := h.tracked.activateClaim hok
        cases crashed with
        | true => exact ha
        | false =>
          simp only [Bool.false_eq_true, if_false]
          refine SchedulerState.commit_db ha fun db' he => ?_
          exact ha.trans (AllTracked.kept ha.tracked (KeptAll.activateEvent he))
    · exact h
  | result hostId request elapsed =>
    refine h.advance rfl ?_ fun _ hr => hr
    refine SchedulerState.commit_db h.tracked.refl fun db hdb => ?_
    obtain ⟨statusCode, hok⟩ := map_snd_ok hdb
    exact results_advances h.tracked hok
  | recovery hostId claimId capacity =>
    simp only [ServiceState.apply]
    split
    · rename_i r hr
      refine ⟨h.tracked, ?_⟩
      intro q hq
      rcases List.mem_append.mp hq with hq | hq
      · exact h.owned q hq
      · rw [List.mem_singleton.mp hq]
        exact recoveries_owned h.tracked hr
    · exact h
  | revoke request revokedAt =>
    simp only [ServiceState.apply]
    split
    · exact h
    · rename_i r hr
      exact h.withGit fun git' hg => h.tracked.revoke (ho r hr) hg
  | recoveryAnswered handler acknowledged =>
    simp only [ServiceState.apply]
    split
    · exact h
    rename_i r hr
    cases acknowledged with
    | false => exact ⟨h.tracked, fun q hq => h.owned q (List.mem_of_mem_eraseIdx hq)⟩
    | true =>
      simp only [if_true]
      split
      · rename_i hrevoked
        obtain ⟨c, hc, -, hid⟩ := h.owned r (List.mem_of_getElem? hr)
        refine h.advance rfl ?_ fun q hq => List.mem_of_mem_eraseIdx hq
        refine SchedulerState.commit_db h.tracked.refl fun db hdb => ?_
        refine h.tracked.recover (ho r hr hrevoked) ?_ hrevoked hdb
        intro d hd
        rw [hc] at hd
        cases hd
        exact hid
      · exact h
  | drain =>
    simp only [ServiceState.apply]
    split
    · exact ⟨h.tracked, h.owned⟩
    · exact h
  | report =>
    simp only [ServiceState.apply]
    split
    · exact h
    split
    · rename_i git' hg
      refine ⟨h.tracked.git_congr ?_, h.owned⟩
      intro a
      unfold NativeQemuAuthorityState.revoked
      rw [qemuStatuses_attempts hg]
    · exact h
  | lateReport request =>
    simp only [ServiceState.apply]
    split
    · exact h
    · refine h.withGit fun git' hg => h.tracked.git_congr ?_
      intro a
      unfold NativeQemuAuthorityState.revoked
      rw [qemuStatuses_attempts hg]
  | reportAnswered acknowledged elapsed =>
    simp only [ServiceState.apply]
    split
    · exact h
    rename_i d hd
    cases acknowledged with
    | false => exact ⟨h.tracked, h.owned⟩
    | true =>
      simp only [if_true]
      split
      · rename_i haccepted
        split
        · rename_i db hdb
          exact h.advance rfl (h.tracked.acknowledgeResult (ho d hd haccepted) hdb) fun _ hr => hr
        · exact ⟨h.tracked, h.owned⟩
      · exact h
  | crash => exact ⟨h.tracked, fun r hr => by cases hr⟩

/-- In every run whose actions are all orderly, results and recoveries exclude each other in every
state reached. -/
theorem result_recovery_exclusion (clock : Int) (actions : List ServiceAction)
    (ho : OrderlyRun (.initial clock) actions) :
    ∀ done, done <+: actions → Exclusive ((ServiceState.initial clock).run done) := by
  intro done hdone
  have hstep : ∀ (s : ServiceState) (action : ServiceAction), ServiceInv s → s.Orderly action →
      ServiceInv (s.apply action) := fun s action h => h.apply action
  exact (Transition.Along.invariant_of_prefix hstep (ServiceInv.initial clock) ho hdone).exclusive

namespace Sample

def issueInput : NativeQemuAuthorityState.IssueInput :=
  { issuanceRequestId := "claim", reviewId := "review", descriptor, descriptorDigest := "digest", hostId := "node-a",
    capacity := "kvm" }

def resultRequest : ResultRequest := { claimId := "claim", capacity := "kvm", terminalEvent }

/-- From an event to an activated claim. -/
def activated : List ServiceAction :=
  [.other (.enqueue reviewEvent 1000 "generation" 1), .other (.reserve reservationInput "claim" 1 1 1 1),
    .issue issueInput "attempt" "2026-01-01T00:00:00.000Z", .activate "claim" attempt 1 false]

/-- A result is recorded, reported and acknowledged. -/
def deliveredRun : List ServiceAction :=
  activated ++ [.result "node-a" resultRequest 1, .drain, .report, .reportAnswered true 1]

/-- A result is recorded while a recovery waits for the revocation. -/
def disputedRun : List ServiceAction :=
  activated ++ [.recovery "node-a" "claim" "kvm", .result "node-a" resultRequest 1,
    .revoke 0 "2026-01-01T00:02:00.000Z", .recoveryAnswered 0 true]

end Sample

theorem result_recovery_exclusion_delivered : Exclusive ((ServiceState.initial 0).run Sample.deliveredRun) :=
  result_recovery_exclusion 0 Sample.deliveredRun (by decide +kernel) Sample.deliveredRun List.prefix_rfl

/-- The recovery completes the claim, and its report stays pending. -/
theorem result_recovery_exclusion_disputed :
    ¬ ∀ clock actions done, done <+: actions → Exclusive ((ServiceState.initial clock).run done) := by
  intro h
  have hpending : ∃ c ∈ ((ServiceState.initial 0).run Sample.disputedRun).scheduler.db.claims.rows,
      c.state = .completed ∧ (((ServiceState.initial 0).run Sample.disputedRun).scheduler.db.reportOutbox.get?
        c.claimId).map (·.state) = some .pending := by decide +kernel
  obtain ⟨c, hc, hs, hp⟩ := hpending
  exact (h 0 Sample.disputedRun Sample.disputedRun List.prefix_rfl c hc hs).2 hp

end Dim.Qemu
