/-
Events and claims of the QEMU scheduler agree over every run in which no lease runs out between the
two readings of `expireClaims` and no crash falls between the two statements of `activate`.
-/
import DimProofs.Lib.Run
import DimProofs.Qemu.SchedulerStore

namespace Dim.Qemu

open Relational

/-! ## Runs -/

/-- One operation with the time that passes before each of its readings of the clock. A crash
between two transactions leaves the database as it is; `crashed` is one between the two statements
of `activate`. -/
inductive Operation where
  | enqueue (event : NativeQemuReviewEvent) (eligibilityLeaseMilliseconds : Int) (uuid : String) (elapsed : Nat)
  | reserve (input : ReservationInput) (claimId : String) (toExpiry toDelete toSelect toLease : Nat)
  | activate (claimId : String) (attempt : NativeQemuAttempt) (elapsed : Nat) (crashed : Bool)
  | renew (claimId hostId capacity : String) (leaseMilliseconds : Int) (toLease toUpdate : Nat)
  | recordResult (input : NativeQemuCompletion) (elapsed : Nat)
  | acknowledgeResult (claimId : String) (elapsed : Nat)
  | recover (claimId hostId capacity : String)
  | supersedeReservation (claimId : String)
  | expireClaims (toExpiry toDelete : Nat)

structure SchedulerState where
  db : SchedulerDatabase
  clock : Int

def SchedulerState.initial (clock : Int) : SchedulerState := ⟨.empty, clock⟩

/-- The end of a transaction: `COMMIT`, or `ROLLBACK` when its body threw. -/
def SchedulerState.commit (s : SchedulerState) (clock : Int) (body : Except SchedulerStoreError SchedulerDatabase) :
    SchedulerState :=
  match body with
  | .ok db => ⟨db, clock⟩
  | .error _ => ⟨s.db, clock⟩

/-- `activate` runs outside a transaction: its first statement is committed on its own. -/
def SchedulerState.activate (s : SchedulerState) (claimId : String) (attempt : NativeQemuAttempt) (clock : Int)
    (crashed : Bool) : SchedulerState :=
  match activateClaim claimId attempt clock s.db with
  | .error _ => ⟨s.db, clock⟩
  | .ok db => if crashed then ⟨db, clock⟩ else SchedulerState.commit ⟨db, clock⟩ clock (activateEvent claimId db)

def SchedulerState.apply (s : SchedulerState) : Operation → SchedulerState
  | .enqueue event eligibilityLeaseMilliseconds uuid elapsed =>
    let now := s.clock + elapsed
    s.commit now ((enqueue event eligibilityLeaseMilliseconds uuid now s.db).map (·.2))
  | .reserve input claimId toExpiry toDelete toSelect toLease =>
    let expiredAt := s.clock + toExpiry
    let deletedAt := expiredAt + toDelete
    let selectedAt := deletedAt + toSelect
    let leasedAt := selectedAt + toLease
    s.commit leasedAt ((reserve input claimId expiredAt deletedAt selectedAt leasedAt s.db).map (·.2))
  | .activate claimId attempt elapsed crashed => s.activate claimId attempt (s.clock + elapsed) crashed
  | .renew claimId hostId capacity leaseMilliseconds toLease toUpdate =>
    let leasedAt := s.clock + toLease
    let now := leasedAt + toUpdate
    s.commit now ((renew claimId hostId capacity leaseMilliseconds leasedAt now s.db).map (·.2))
  | .recordResult input elapsed => s.commit (s.clock + elapsed) ((recordResult input (s.clock + elapsed) s.db).map (·.2))
  | .acknowledgeResult claimId elapsed =>
    s.commit (s.clock + elapsed) (acknowledgeResult claimId (s.clock + elapsed) s.db)
  | .recover claimId hostId capacity => s.commit s.clock (recover claimId hostId capacity s.db)
  | .supersedeReservation claimId => s.commit s.clock (supersedeReservation claimId s.db)
  | .expireClaims toExpiry toDelete =>
    let expiredAt := s.clock + toExpiry
    let deletedAt := expiredAt + toDelete
    s.commit deletedAt (expireClaims expiredAt deletedAt s.db)

def SchedulerState.run (s : SchedulerState) (operations : List Operation) : SchedulerState :=
  operations.foldl SchedulerState.apply s

/-! ## The agreement of events and claims -/

/-- The event's state fits its claims: reserved, active or completed exactly when it has one claim in
that state, and queued or superseded exactly when it has no claim at all. -/
structure Agrees (db : SchedulerDatabase) (e : EventRow) : Prop where
  reserved : e.state = .reserved ↔ ∃! c, c ∈ db.claims.rows ∧ c.eventId = e.eventId ∧ c.state = .reserved
  active : e.state = .active ↔ ∃! c, c ∈ db.claims.rows ∧ c.eventId = e.eventId ∧ c.state = .active
  completed : e.state = .completed ↔ ∃! c, c ∈ db.claims.rows ∧ c.eventId = e.eventId ∧ c.state = .completed
  unclaimed : (e.state = .queued ∨ e.state = .superseded) ↔ ∀ c ∈ db.claims.rows, c.eventId ≠ e.eventId

def Agreement (db : SchedulerDatabase) : Prop := ∀ e ∈ db.events.rows, Agrees db e

/-- The claim state that an event's state calls for. -/
def EventState.claimState : EventState → Option ClaimState
  | .queued | .superseded => none
  | .reserved => some .reserved
  | .active => some .active
  | .completed => some .completed

namespace SchedulerDatabase

def claimOf (db : SchedulerDatabase) (eventId : String) : Option ClaimRow := db.claims.getBy (·.eventId) eventId

def claimState (db : SchedulerDatabase) (eventId : String) : Option ClaimState := (db.claimOf eventId).map (·.state)

def eventState (db : SchedulerDatabase) (eventId : String) : Option EventState :=
  (db.events.get? eventId).map (·.state)

end SchedulerDatabase

/-- The invariant: at every event id, the claim's state is the one the event calls for. -/
def Matched (db : SchedulerDatabase) : Prop :=
  ∀ x, db.claimState x = (db.eventState x).bind EventState.claimState

theorem ClaimRow.unique_event : Table.Unique (fun c : ClaimRow => c.eventId) :=
  fun a b (h : a.eventId = b.eventId) => conflict_of_clash (by simp [Schema.clash, h])

theorem ClaimRow.unique_request : Table.Unique (fun c : ClaimRow => c.requestId) :=
  fun a b (h : a.requestId = b.requestId) => conflict_of_clash (by simp [Schema.clash, h])

variable {c : ClaimRow} {db : SchedulerDatabase} {x : String}

theorem SchedulerDatabase.claimOf_eq_some :
    db.claimOf x = some c ↔ c ∈ db.claims.rows ∧ c.eventId = x :=
  Table.getBy_eq_some ClaimRow.unique_event

theorem SchedulerDatabase.claimOf_eq_none :
    db.claimOf x = none ↔ ∀ c ∈ db.claims.rows, c.eventId ≠ x :=
  Table.getBy_eq_none

variable {claimId : String}

theorem SchedulerDatabase.claimOf_of_get?
    (h : db.claims.get? claimId = some c) : db.claimOf c.eventId = some c :=
  claimOf_eq_some.mpr ⟨Table.get?_mem h, rfl⟩

variable {state : ClaimState}

/-- One claim row in a state is the state that `claimState` reads. -/
theorem SchedulerDatabase.existsUnique_claim :
    (∃! c, c ∈ db.claims.rows ∧ c.eventId = x ∧ c.state = state) ↔ db.claimState x = some state := by
  unfold claimState
  rw [Option.map_eq_some_iff]
  constructor
  · rintro ⟨c, ⟨hc, hx, hs⟩, -⟩
    exact ⟨c, claimOf_eq_some.mpr ⟨hc, hx⟩, hs⟩
  · rintro ⟨c, hc, hs⟩
    obtain ⟨hmem, hx⟩ := claimOf_eq_some.mp hc
    refine ⟨c, ⟨hmem, hx, hs⟩, ?_⟩
    rintro d ⟨hd, hdx, -⟩
    have hdc := claimOf_eq_some.mpr ⟨hd, hdx⟩
    rw [hc] at hdc
    exact (Option.some.inj hdc).symm

variable {e : EventRow}

theorem SchedulerDatabase.eventState_of_mem (h : e ∈ db.events.rows) :
    db.eventState e.eventId = some e.state := by
  unfold eventState
  have hg : db.events.get? e.eventId = some e := Table.get?_of_mem h
  rw [hg]
  rfl

theorem agrees_iff :
    Agrees db e ↔ db.claimState e.eventId = e.state.claimState := by
  have hnone : (∀ c ∈ db.claims.rows, c.eventId ≠ e.eventId) ↔ db.claimState e.eventId = none := by
    unfold SchedulerDatabase.claimState
    rw [Option.map_eq_none_iff, SchedulerDatabase.claimOf_eq_none]
  constructor
  · intro h
    rcases hs : e.state
    · exact hnone.mp (h.unclaimed.mp (Or.inl hs))
    · exact SchedulerDatabase.existsUnique_claim.mp (h.reserved.mp hs)
    · exact SchedulerDatabase.existsUnique_claim.mp (h.active.mp hs)
    · exact SchedulerDatabase.existsUnique_claim.mp (h.completed.mp hs)
    · exact hnone.mp (h.unclaimed.mp (Or.inr hs))
  · intro h
    constructor
    · rw [SchedulerDatabase.existsUnique_claim, h]; cases e.state <;> simp [EventState.claimState]
    · rw [SchedulerDatabase.existsUnique_claim, h]; cases e.state <;> simp [EventState.claimState]
    · rw [SchedulerDatabase.existsUnique_claim, h]; cases e.state <;> simp [EventState.claimState]
    · rw [hnone, h]; cases e.state <;> simp [EventState.claimState]

theorem Matched.agreement {db : SchedulerDatabase} (h : Matched db) : Agreement db := by
  intro e he
  rw [agrees_iff, h e.eventId, SchedulerDatabase.eventState_of_mem he]
  rfl

theorem Matched.empty : Matched .empty := fun _ => rfl

variable {db' : SchedulerDatabase}

/-- A step that touches one event id and leaves it matched keeps the invariant. -/
theorem Matched.move (h : Matched db) (x₀ : String)
    (h₀ : db'.claimState x₀ = (db'.eventState x₀).bind EventState.claimState)
    (hx : ∀ x, x ≠ x₀ → db'.eventState x = db.eventState x ∧ db'.claimState x = db.claimState x) : Matched db' := by
  intro x
  by_cases he : x = x₀
  · rw [he]; exact h₀
  · rw [(hx x he).1, (hx x he).2]; exact h x

/-- An event with a claim is there, in the state that fits it. -/
theorem Matched.eventState_of_claim (h : Matched db) (hc : db.claims.get? claimId = some c) :
    ∃ state, db.eventState c.eventId = some state ∧ state.claimState = some c.state := by
  have hs := h c.eventId
  unfold SchedulerDatabase.claimState at hs
  rw [SchedulerDatabase.claimOf_of_get? hc] at hs
  obtain ⟨state, hstate, hclaim⟩ := Option.bind_eq_some_iff.mp hs.symm
  exact ⟨state, hstate, hclaim⟩

/-! ## Statements -/

variable {p : ClaimRow → Bool}

variable {claims : Table ClaimRow} {f : ClaimRow → ClaimRow}

/-- An update of the claim `c` alone moves the claim state at its event only. -/
theorem SchedulerDatabase.claimState_update
    (hu : db.claims.update (ε := SchedulerStoreError) p f = .ok claims)
    (he : ∀ r, (f r).eventId = r.eventId) (hc : c ∈ db.claims.rows) (hp : p c = true)
    (hself : ∀ r ∈ db.claims.rows, p r = true → r = c) (x : String) :
    SchedulerDatabase.claimState { db with claims } x =
      if x = c.eventId then some (f c).state else db.claimState x := by
  unfold claimState claimOf
  rw [Table.getBy_update hu he, Option.map_map]
  split
  · rename_i hx
    have hg : db.claims.getBy (·.eventId) x = some c := claimOf_eq_some.mpr ⟨hc, hx.symm⟩
    rw [hg]
    simp [Table.updated, hp]
  · rename_i hx
    rcases hg : db.claims.getBy (·.eventId) x with _ | r
    · rfl
    · have hr : ¬ p r = true := by
        intro hpr
        have hrc := hself r (Table.getBy_mem hg) hpr
        exact hx ((Table.getBy_column hg).symm.trans (by rw [hrc]))
      simp [Table.updated, hr]

/-- An update that assigns neither the event nor the state of a claim. -/
theorem SchedulerDatabase.claimState_kept (hu : db.claims.update (ε := SchedulerStoreError) p f = .ok claims)
    (he : ∀ r, (f r).eventId = r.eventId) (hs : ∀ r, (f r).state = r.state) (x : String) :
    (claims.getBy (·.eventId) x).map (·.state) = db.claimState x := by
  unfold claimState claimOf
  rw [Table.getBy_update hu he, Option.map_map]
  congr 1
  funext r
  unfold Table.updated
  simp only [Function.comp]
  split
  · exact hs r
  · rfl

theorem requireReference_ok {present : Bool} {u : Unit} : requireReference present = .ok u ↔ present = true := by
  unfold requireReference
  split
  · rename_i h; simp [h]
  · rename_i h; simp [h]

variable {eventId : String}

theorem setEventState_ok {state : EventState} (h : setEventState state eventId db = .ok db') :
    db'.claims = db.claims ∧ db'.reportOutbox = db.reportOutbox ∧
      ∀ x, db'.eventState x = if x = eventId then (db.eventState x).map (fun _ => state) else db.eventState x := by
  unfold setEventState at h
  obtain ⟨events, hu, h⟩ := bind_ok.mp h
  cases pure_ok.mp h
  refine ⟨rfl, rfl, ?_⟩
  intro x
  unfold SchedulerDatabase.eventState
  rw [Table.get?_update hu (fun _ => rfl), Option.map_map]
  split
  · rename_i hx
    rw [Option.map_map]
    rcases hg : db.events.get? x with _ | e
    · rfl
    · have he : e.eventId = eventId := (Table.get?_key hg).trans hx
      simp [Table.updated, he]
  · rename_i hx
    rcases hg : db.events.get? x with _ | e
    · rfl
    · have he : e.eventId ≠ eventId := fun heq => hx ((Table.get?_key hg).symm.trans heq)
      simp [Table.updated, he]

theorem setClaimState_ok
    (hc : db.claims.get? claimId = some c) (h : setClaimState state claimId db = .ok db') :
    db'.events = db.events ∧ db'.reportOutbox = db.reportOutbox ∧
      db'.claims.get? claimId = some { c with state } ∧
      ∀ x, db'.claimState x = if x = c.eventId then some state else db.claimState x := by
  unfold setClaimState at h
  obtain ⟨claims, hu, h⟩ := bind_ok.mp h
  cases pure_ok.mp h
  have hid : c.claimId = claimId := Table.get?_key hc
  refine ⟨rfl, rfl, Table.get?_update_self hu (fun _ => rfl) hc (by simp [hid]), ?_⟩
  refine SchedulerDatabase.claimState_update hu (fun _ => rfl) (Table.get?_mem hc) (by simp [hid]) ?_
  intro r hr hp
  exact db.claims.eq_of_conflict hr (Table.get?_mem hc)
    (conflict_of_key ((by simpa using hp : r.claimId = claimId).trans hid.symm))

variable {k : String}

theorem setClaimState_other
    (h : setClaimState state claimId db = .ok db') (hk : k ≠ claimId) : db'.claims.get? k = db.claims.get? k := by
  unfold setClaimState at h
  obtain ⟨claims, hu, h⟩ := bind_ok.mp h
  cases pure_ok.mp h
  exact Table.get?_update_ne hu (fun _ => rfl) (fun r hr => by simpa using hr) hk

theorem deleteClaims_ok (h : deleteClaims p db = .ok db') :
    db' = { db with claims := db.claims.delete p } := by
  unfold deleteClaims at h
  obtain ⟨-, -, h⟩ := bind_ok.mp h
  exact (pure_ok.mp h).symm

theorem insertClaim_ok {row : ClaimRow} (h : insertClaim row db = .ok db') :
    db'.events = db.events ∧ db'.reportOutbox = db.reportOutbox ∧
      ∀ x, db'.claimState x = if x = row.eventId then some row.state else db.claimState x := by
  unfold insertClaim at h
  obtain ⟨-, -, h⟩ := bind_ok.mp h
  obtain ⟨claims, hi, h⟩ := bind_ok.mp h
  cases pure_ok.mp h
  refine ⟨rfl, rfl, ?_⟩
  intro x
  unfold SchedulerDatabase.claimState SchedulerDatabase.claimOf
  rw [Table.getBy_insert ClaimRow.unique_event hi]
  split <;> rfl

theorem insertReport_ok {row : ReportRow} (h : insertReport row db = .ok db') :
    db'.events = db.events ∧ db'.claims = db.claims ∧
      db.reportOutbox.insert (ε := SchedulerStoreError) row = .ok db'.reportOutbox := by
  unfold insertReport at h
  obtain ⟨-, -, h⟩ := bind_ok.mp h
  obtain ⟨reportOutbox, hi, h⟩ := bind_ok.mp h
  cases pure_ok.mp h
  exact ⟨rfl, rfl, hi⟩

/-! ## Operations -/

/-- A statement that leaves every event state and claim state alone keeps the invariant. -/
theorem Matched.congr (h : Matched db) (he : ∀ x, db'.eventState x = db.eventState x)
    (hc : ∀ x, db'.claimState x = db.claimState x) : Matched db' := by
  intro x
  rw [he, hc]
  exact h x

theorem upsertEligibility_ok {row : EligibilityRow}
    (h : upsertEligibility row db = .ok db') : db'.events = db.events ∧ db'.claims = db.claims := by
  unfold upsertEligibility at h
  obtain ⟨eligibility, -, h⟩ := bind_ok.mp h
  cases pure_ok.mp h
  exact ⟨rfl, rfl⟩

variable {now : Int}

theorem Matched.enqueue {event : NativeQemuReviewEvent} {lease : Int} {uuid : String}
    {intake : NativeQemuIntake} (h : Matched db)
    (ho : Qemu.enqueue event lease uuid now db = .ok (intake, db')) : Matched db' := by
  unfold Qemu.enqueue at ho
  split at ho
  · cases ho
  obtain ⟨db₁, hu, ho⟩ := bind_ok.mp ho
  obtain ⟨hevents, hclaims⟩ := upsertEligibility_ok hu
  obtain ⟨events, he, ho⟩ := bind_ok.mp ho
  rw [hevents] at he
  -- the refresh of the queued events leaves their states alone
  have hstate : ∀ x, (events.get? x).map (·.state) = db.eventState x := fun x =>
    Table.map_get?_update he (fun _ => rfl) (·.state) (fun _ => rfl) x
  split at ho
  · split at ho
    · cases ho
    · cases pure_ok.mp ho
      refine h.congr hstate ?_
      intro x
      unfold SchedulerDatabase.claimState SchedulerDatabase.claimOf
      rw [hclaims]
  · rename_i hfresh
    obtain ⟨events', hi, ho⟩ := bind_ok.mp ho
    cases pure_ok.mp ho
    have hnone : db.eventState event.eventId = none := by rw [← hstate, hfresh]; rfl
    refine h.move event.eventId ?_ ?_
    · have hclaim := h event.eventId
      rw [hnone] at hclaim
      unfold SchedulerDatabase.claimState SchedulerDatabase.claimOf SchedulerDatabase.eventState at *
      rw [hclaims, hclaim, Table.get?_insert hi, EventRow.key_eq, if_pos rfl]
      rfl
    · intro x hx
      unfold SchedulerDatabase.claimState SchedulerDatabase.claimOf SchedulerDatabase.eventState at *
      rw [hclaims, Table.get?_insert hi, EventRow.key_eq, if_neg hx]
      exact ⟨hstate x, rfl⟩

/-- The first statement of `activate` moves the claim of one reservation. -/
theorem activateClaim_ok {attempt : NativeQemuAttempt} (h : activateClaim claimId attempt now db = .ok db') :
    ∃ c, db.claims.get? claimId = some c ∧ c.state = .reserved ∧ now < c.leaseExpiresAt ∧
      db' = { db with claims := db'.claims } ∧
      db'.claims.get? claimId = some
        { c with state := .active, attemptId := some attempt.attemptId,
                 descriptorDigest := some attempt.descriptorDigest, attempt := some attempt } ∧
      ∀ x, db'.claimState x = if x = c.eventId then some .active else db.claimState x := by
  unfold activateClaim at h
  obtain ⟨claims, hu, h⟩ := bind_ok.mp h
  split at h
  · cases h
  · rename_i hcount
    obtain ⟨c, hc, hp, hself⟩ := Table.count_eq_one (not_not.mp hcount)
    have hselected : (c.claimId = claimId ∧ c.state = .reserved) ∧ now < c.leaseExpiresAt := by simpa using hp
    have hget : db.claims.get? claimId = some c := hselected.1.1 ▸ Table.get?_of_mem hc
    cases pure_ok.mp h
    refine ⟨c, hget, hselected.1.2, hselected.2, rfl, ?_, ?_⟩
    · exact Table.get?_update_self hu (fun _ => rfl) hget hp
    · exact SchedulerDatabase.claimState_update hu (fun _ => rfl) hc hp hself

theorem activateClaim_other {attempt : NativeQemuAttempt}
    (h : activateClaim claimId attempt now db = .ok db') (hk : k ≠ claimId) :
    db'.claims.get? k = db.claims.get? k := by
  unfold activateClaim at h
  obtain ⟨claims, hu, h⟩ := bind_ok.mp h
  split at h
  · cases h
  · cases pure_ok.mp h
    refine Table.get?_update_ne hu (fun _ => rfl) ?_ hk
    intro r hr
    simp only [Bool.and_eq_true, decide_eq_true_eq] at hr
    exact hr.1.1

theorem activateEvent_ok
    (hc : (db.claims.get? claimId).map (·.eventId) = some eventId) (h : activateEvent claimId db = .ok db') :
    setEventState .active eventId db = .ok db' := by
  unfold activateEvent at h
  rw [hc] at h
  simpa [setEventState] using h

/-- The statement breaks no constraint: the events have no UNIQUE column but their key. -/
theorem activateEvent_total (claimId : String) (db : SchedulerDatabase) :
    ∃ db', activateEvent claimId db = .ok db' := by
  obtain ⟨events, hu⟩ := Table.update_of (ε := SchedulerStoreError) (t := db.events)
    (p := fun e => some e.eventId = (db.claims.get? claimId).map (·.eventId)) (f := fun e => { e with state := .active })
    (fun _ _ _ => rfl) (by
      intro a _ b _ hab
      have hkey : ∀ e : EventRow, (Table.updated (fun e => some e.eventId = (db.claims.get? claimId).map (·.eventId))
          (fun e : EventRow => { e with state := .active }) e).eventId = e.eventId := by
        intro e; unfold Table.updated; split <;> rfl
      rcases hab with hab | hab | hab
      · exact Or.inl ((hkey a).symm.trans (hab.trans (hkey b)))
      · cases hab
      · cases hab)
  exact ⟨_, bind_ok.mpr ⟨events, hu, rfl⟩⟩

variable {db'' : SchedulerDatabase}

/-- The last statement of an operation sets the event of a claim to the state the claim has by then. -/
theorem Matched.settle (h : Matched db)
    (hc : db.claims.get? claimId = some c) {state : EventState} (hevents : db'.events = db.events)
    (ho : setEventState state c.eventId db' = .ok db'')
    (hclaims : ∀ x, db'.claimState x = if x = c.eventId then state.claimState else db.claimState x) : Matched db'' := by
  obtain ⟨hsame, -, hstate⟩ := setEventState_ok ho
  have hclaim : ∀ x, db''.claimState x = if x = c.eventId then state.claimState else db.claimState x := by
    intro x
    rw [← hclaims x]
    unfold SchedulerDatabase.claimState SchedulerDatabase.claimOf
    rw [hsame]
  have hevent : ∀ x, db'.eventState x = db.eventState x := by
    intro x
    unfold SchedulerDatabase.eventState
    rw [hevents]
  obtain ⟨before, hbefore, -⟩ := h.eventState_of_claim hc
  refine h.move c.eventId ?_ ?_
  · rw [hclaim, hstate, hevent, if_pos rfl, if_pos rfl, hbefore]
    rfl
  · intro x hx
    rw [hclaim, hstate, hevent, if_neg hx, if_neg hx]
    exact ⟨rfl, rfl⟩

/-- `recordResult` replays, or records the first result of an active claim with its pending report. -/
theorem recordResult_ok {input : NativeQemuCompletion} {answer : Recorded}
    (h : recordResult input now db = .ok (answer, db')) :
    (answer = .replay ∧ db' = db) ∨
    (answer = .created ∧ ∃ c, db.claims.get? input.claimId = some c ∧ c.state = .active ∧ c.result = none ∧
      db'.events = db.events ∧
      db.claims.update (ε := SchedulerStoreError) (fun c => c.claimId = input.claimId)
        (fun c => { c with result := some input }) = .ok db'.claims ∧
      db.reportOutbox.insert (ε := SchedulerStoreError)
        { claimId := input.claimId, terminalEvent := input.terminalEvent, state := .pending, createdAt := now,
          deliveredAt := none } = .ok db'.reportOutbox) := by
  unfold recordResult at h
  split at h
  · cases h
  split at h
  · cases h
  rename_i c hc
  split at h
  · cases h
  · split at h
    · cases h
    · cases pure_ok.mp h; exact Or.inl ⟨rfl, rfl⟩
  · cases h
  · split at h
    · cases h
    · cases pure_ok.mp h; exact Or.inl ⟨rfl, rfl⟩
  · rename_i hstate hresult
    obtain ⟨claims, hu, h⟩ := bind_ok.mp h
    obtain ⟨db₁, hr, h⟩ := bind_ok.mp h
    obtain ⟨hevents, hclaims, hinsert⟩ := insertReport_ok hr
    cases pure_ok.mp h
    refine Or.inr ⟨rfl, c, hc, hstate, hresult, hevents, ?_, hinsert⟩
    rw [hclaims]
    exact hu

/-- `acknowledgeResult` changes nothing, or completes an active claim with a result. -/
theorem acknowledgeResult_ok (h : acknowledgeResult claimId now db = .ok db') :
    db' = db ∨ ∃ c db₁ db₂, db.claims.get? claimId = some c ∧ c.result.isSome = true ∧ c.state = .active ∧
      setClaimState .completed claimId db = .ok db₁ ∧ setEventState .completed c.eventId db₁ = .ok db₂ ∧
      db' = { db₂ with reportOutbox := db'.reportOutbox } ∧
      db₂.reportOutbox.update (ε := SchedulerStoreError) (fun r => r.claimId = claimId)
        (fun r => { r with state := .delivered, deliveredAt := some now }) = .ok db'.reportOutbox := by
  unfold acknowledgeResult at h
  split at h
  · cases h
  rename_i c hfound
  obtain ⟨hc, hresult⟩ := Option.filter_eq_some_iff.mp hfound
  split at h
  · cases pure_ok.mp h; exact Or.inl rfl
  · cases h
  · rename_i hstate
    obtain ⟨db₁, hclaim, h⟩ := bind_ok.mp h
    obtain ⟨db₂, hevent, h⟩ := bind_ok.mp h
    obtain ⟨reportOutbox, hu, h⟩ := bind_ok.mp h
    cases pure_ok.mp h
    exact Or.inr ⟨c, db₁, db₂, hc, hresult, hstate, hclaim, hevent, rfl, hu⟩

variable {capacity hostId : String}

/-- `recover` changes nothing, or completes a claim whatever its result. -/
theorem recover_ok (h : recover claimId hostId capacity db = .ok db') :
    (db' = db ∧ ∃ c, db.claims.get? claimId = some c ∧ c.state = .completed) ∨
    ∃ c db₁, db.claims.get? claimId = some c ∧ c.state ≠ .completed ∧
      setClaimState .completed claimId db = .ok db₁ ∧ setEventState .completed c.eventId db₁ = .ok db' := by
  unfold recover at h
  split at h
  · cases h
  rename_i c hfound
  obtain ⟨hc, -⟩ := Option.filter_eq_some_iff.mp hfound
  split at h
  · rename_i hstate
    cases pure_ok.mp h
    exact Or.inl ⟨rfl, c, hc, hstate⟩
  · rename_i hstate
    obtain ⟨db₁, hclaim, h⟩ := bind_ok.mp h
    exact Or.inr ⟨c, db₁, hc, hstate, hclaim, h⟩

theorem Matched.activate {attempt : NativeQemuAttempt}
    (h : Matched db) (ho : activateClaim claimId attempt now db = .ok db') (he : activateEvent claimId db' = .ok db'') :
    Matched db'' := by
  obtain ⟨c, hc, -, -, hdb, hc', hclaims⟩ := activateClaim_ok ho
  have hevent : setEventState .active c.eventId db' = .ok db'' := activateEvent_ok (by rw [hc']; rfl) he
  exact h.settle hc (by rw [hdb]) hevent hclaims

theorem Matched.renew {claimId hostId capacity : String} {lease leasedAt now answer : Int} {db db' : SchedulerDatabase}
    (h : Matched db) (ho : Qemu.renew claimId hostId capacity lease leasedAt now db = .ok (answer, db')) :
    Matched db' := by
  unfold Qemu.renew at ho
  obtain ⟨claims, hu, ho⟩ := bind_ok.mp ho
  split at ho
  · cases ho
  · cases pure_ok.mp ho
    exact h.congr (fun _ => rfl) (SchedulerDatabase.claimState_kept hu (fun _ => rfl) (fun _ => rfl))

theorem Matched.recordResult {input : NativeQemuCompletion} {answer : Recorded}
    (h : Matched db) (ho : Qemu.recordResult input now db = .ok (answer, db')) : Matched db' := by
  rcases recordResult_ok ho with ⟨-, rfl⟩ | ⟨-, c, -, -, -, hevents, hu, -⟩
  · exact h
  · refine h.congr ?_ ?_
    · intro x
      unfold SchedulerDatabase.eventState
      rw [hevents]
    · intro x
      have hkept := SchedulerDatabase.claimState_kept hu (fun _ => rfl) (fun _ => rfl) x
      exact hkept

theorem Matched.acknowledgeResult
    (h : Matched db) (ho : Qemu.acknowledgeResult claimId now db = .ok db') : Matched db' := by
  rcases acknowledgeResult_ok ho with rfl | ⟨c, db₁, db₂, hc, -, -, hclaim, hevent, hdb, -⟩
  · exact h
  · obtain ⟨hevents, -, -, hclaims⟩ := setClaimState_ok hc hclaim
    have hm : Matched db₂ := h.settle hc hevents hevent hclaims
    rw [hdb]
    exact hm

theorem Matched.recover
    (h : Matched db) (ho : Qemu.recover claimId hostId capacity db = .ok db') : Matched db' := by
  rcases recover_ok ho with ⟨rfl, -⟩ | ⟨c, db₁, hc, -, hclaim, hevent⟩
  · exact h
  · obtain ⟨hevents, -, -, hclaims⟩ := setClaimState_ok hc hclaim
    exact h.settle hc hevents hevent hclaims

theorem Matched.supersedeReservation
    (h : Matched db) (ho : Qemu.supersedeReservation claimId db = .ok db') : Matched db' := by
  unfold Qemu.supersedeReservation at ho
  split at ho
  · cases ho
  · rename_i c hfound
    obtain ⟨hc, -⟩ := Option.filter_eq_some_iff.mp hfound
    obtain ⟨db₁, hevent, ho⟩ := bind_ok.mp ho
    cases deleteClaims_ok ho
    obtain ⟨hsame, -, hstate⟩ := setEventState_ok hevent
    obtain ⟨before, hbefore, -⟩ := h.eventState_of_claim hc
    have hclaimOf := SchedulerDatabase.claimOf_of_get? hc
    have hid : c.claimId = claimId := Table.get?_key hc
    have hclaim : ∀ x, SchedulerDatabase.claimOf { db₁ with claims := db₁.claims.delete fun c => c.claimId = claimId } x =
        (db.claimOf x).filter fun c => !decide (c.claimId = claimId) := by
      intro x
      unfold SchedulerDatabase.claimOf
      rw [hsame]
      exact Table.getBy_delete ClaimRow.unique_event _ _ _
    refine h.move c.eventId ?_ ?_
    · unfold SchedulerDatabase.claimState
      rw [hclaim, hclaimOf]
      have hs := hstate c.eventId
      unfold SchedulerDatabase.eventState at *
      rw [hs, if_pos rfl, hbefore]
      simp [hid, EventState.claimState]
    · intro x hx
      have hs := hstate x
      unfold SchedulerDatabase.eventState SchedulerDatabase.claimState at *
      rw [hs, if_neg hx, hclaim]
      refine ⟨rfl, ?_⟩
      rcases hg : db.claimOf x with _ | r
      · rfl
      · have hr : r.claimId ≠ claimId := by
          intro hr
          obtain ⟨hmem, hrx⟩ := SchedulerDatabase.claimOf_eq_some.mp hg
          have hrc : r = c := db.claims.eq_of_conflict hmem (Table.get?_mem hc) (conflict_of_key (hr.trans hid.symm))
          exact hx (by rw [← hrx, hrc])
        simp [hr]

/-! ## Expiry and reservation -/

variable {deletedAt : Int}

theorem expireClaims_ok (h : expireClaims now deletedAt db = .ok db') (x : String) :
    db'.eventState x = (if (db.claimOf x).any (·.lapsed now) then (db.eventState x).map (fun _ => .queued)
      else db.eventState x) ∧
    db'.claimOf x = (db.claimOf x).filter (fun c => !c.lapsed deletedAt) := by
  unfold expireClaims at h
  obtain ⟨events, hu, h⟩ := bind_ok.mp h
  cases deleteClaims_ok h
  refine ⟨?_, Table.getBy_delete ClaimRow.unique_event _ _ _⟩
  -- the subselect finds the event of `x` exactly when the claim at `x` has lapsed
  have hselect : (db.claims.any fun c => c.lapsed now && decide (c.eventId = x)) = (db.claimOf x).any (·.lapsed now) := by
    rw [Bool.eq_iff_iff, Table.any_eq_true, Option.any_eq_true]
    constructor
    · rintro ⟨c, hc, hp⟩
      have hp' : c.lapsed now = true ∧ c.eventId = x := by simpa using hp
      exact ⟨c, SchedulerDatabase.claimOf_eq_some.mpr ⟨hc, hp'.2⟩, hp'.1⟩
    · rintro ⟨c, hc, hp⟩
      obtain ⟨hmem, hx⟩ := SchedulerDatabase.claimOf_eq_some.mp hc
      exact ⟨c, hmem, by simp [hp, hx]⟩
  unfold SchedulerDatabase.eventState
  show (events.get? x).map (·.state) = _
  rw [Table.get?_update hu (fun _ => rfl), Option.map_map, Option.map_map, ← hselect]
  rcases hg : db.events.get? x with _ | e
  · simp
  · have he : e.eventId = x := Table.get?_key hg
    simp only [Option.map_some, Function.comp, Table.updated, he]
    split <;> rfl

/-- No reservation runs out between the two readings. -/
def NoLapse (now deletedAt : Int) (db : SchedulerDatabase) : Prop :=
  ∀ c ∈ db.claims.rows, c.state = .reserved → now < c.leaseExpiresAt → deletedAt < c.leaseExpiresAt

instance (now deletedAt : Int) (db : SchedulerDatabase) : Decidable (NoLapse now deletedAt db) :=
  inferInstanceAs (Decidable (∀ c ∈ db.claims.rows, _))

theorem NoLapse.lapsed_eq (h : NoLapse now deletedAt db)
    (hle : now ≤ deletedAt) (hc : c ∈ db.claims.rows) : c.lapsed deletedAt = c.lapsed now := by
  rw [Bool.eq_iff_iff]
  simp only [ClaimRow.lapsed, Bool.and_eq_true, decide_eq_true_eq]
  constructor
  · rintro ⟨hs, hl⟩
    refine ⟨hs, ?_⟩
    by_contra hlt
    have := h c hc hs (by omega)
    omega
  · rintro ⟨hs, hl⟩
    exact ⟨hs, by omega⟩

theorem Matched.expireClaims (h : Matched db)
    (hn : NoLapse now deletedAt db) (hle : now ≤ deletedAt) (ho : Qemu.expireClaims now deletedAt db = .ok db') :
    Matched db' := by
  intro x
  obtain ⟨hevent, hclaim⟩ := expireClaims_ok ho x
  have hx := h x
  unfold SchedulerDatabase.claimState at *
  rw [hevent, hclaim]
  rcases hg : db.claimOf x with _ | c
  · rw [hg] at hx
    simpa using hx
  · rw [hg] at hx
    have hlapsed := hn.lapsed_eq hle (SchedulerDatabase.claimOf_eq_some.mp hg).1
    by_cases hl : c.lapsed now = true
    · obtain ⟨state, hstate, -⟩ := Option.bind_eq_some_iff.mp hx.symm
      simp [hlapsed, hl, hstate, EventState.claimState]
    · simpa [hlapsed, hl, Option.filter_some] using hx

/-- An event left reserved with no claim. -/
def Lost (db : SchedulerDatabase) (x : String) : Prop :=
  db.eventState x = some .reserved ∧ db.claimState x = none

theorem Lost.not_agreement {db : SchedulerDatabase} {x : String} (h : Lost db x) : ¬ Agreement db := by
  intro hagree
  obtain ⟨e, he, hs⟩ := Option.map_eq_some_iff.mp h.1
  have hid : e.eventId = x := Table.get?_key he
  have hmatch := agrees_iff.mp (hagree e (Table.get?_mem he))
  rw [hid, h.2, hs] at hmatch
  cases hmatch

variable {answer : Option NativeQemuClaim} {input : ReservationInput}

variable {leasedAt : Int}

theorem reserveNext_ok (h : reserveNext input claimId now leasedAt db = .ok (answer, db')) :
    db' = db ∨ ∃ e db₁, db.eventState e.eventId = some .queued ∧
      insertClaim (reservation input claimId (leasedAt + input.leaseMilliseconds) e) db = .ok db₁ ∧
      setEventState .reserved e.eventId db₁ = .ok db' := by
  unfold reserveNext at h
  split at h
  · cases pure_ok.mp h; exact Or.inl rfl
  split at h
  · cases pure_ok.mp h; exact Or.inl rfl
  rename_i e hnext
  obtain ⟨db₁, hi, h⟩ := bind_ok.mp h
  obtain ⟨db₂, hs, h⟩ := bind_ok.mp h
  cases pure_ok.mp h
  obtain ⟨hmem, hp⟩ := Table.select_mem hnext
  have hqueued : e.state = .queued := by
    simp only [Bool.and_eq_true, decide_eq_true_eq] at hp
    exact hp.1
  exact Or.inr ⟨e, db₁, by rw [SchedulerDatabase.eventState_of_mem hmem, hqueued], hi, hs⟩

/-- What inserting a reservation does to the states. -/
theorem reserved_ok {leaseExpiresAt : Int}
    {db₁ : SchedulerDatabase} (hi : insertClaim (reservation input claimId leaseExpiresAt e) db = .ok db₁)
    (hs : setEventState .reserved e.eventId db₁ = .ok db') (x : String) :
    db'.eventState x = (if x = e.eventId then (db.eventState x).map (fun _ => .reserved) else db.eventState x) ∧
    db'.claimState x = if x = e.eventId then some .reserved else db.claimState x := by
  obtain ⟨hevents, -, hclaims⟩ := insertClaim_ok hi
  obtain ⟨hsame, -, hstate⟩ := setEventState_ok hs
  have hevent : db₁.eventState x = db.eventState x := by
    unfold SchedulerDatabase.eventState
    rw [hevents]
  have hclaim : db'.claimState x = db₁.claimState x := by
    unfold SchedulerDatabase.claimState SchedulerDatabase.claimOf
    rw [hsame]
  rw [hstate, hevent, hclaim, hclaims]
  exact ⟨rfl, rfl⟩

theorem Matched.reserveNext (h : Matched db)
    (ho : Qemu.reserveNext input claimId now leasedAt db = .ok (answer, db')) : Matched db' := by
  rcases reserveNext_ok ho with rfl | ⟨e, db₁, hqueued, hi, hs⟩
  · exact h
  · refine h.move e.eventId ?_ ?_
    · rw [(reserved_ok hi hs _).1, (reserved_ok hi hs _).2, if_pos rfl, if_pos rfl, hqueued]
      rfl
    · intro x hx
      rw [(reserved_ok hi hs x).1, (reserved_ok hi hs x).2, if_neg hx, if_neg hx]
      exact ⟨rfl, rfl⟩

variable {t₁ t₂ t₃ t₄ : Int}

theorem reserve_ok (h : reserve input claimId t₁ t₂ t₃ t₄ db = .ok (answer, db')) :
    ∃ db₁, expireClaims t₁ t₂ db = .ok db₁ ∧
      ((db' = db₁ ∧ ∃ replay, requestClaim input.requestId db₁ = some replay ∧ replay.hostId = input.hostId ∧
          replay.capacity = input.capacity) ∨
        (requestClaim input.requestId db₁ = none ∧ reserveNext input claimId t₃ t₄ db₁ = .ok (answer, db'))) := by
  unfold reserve at h
  obtain ⟨db₁, he, h⟩ := bind_ok.mp h
  refine ⟨db₁, he, ?_⟩
  split at h
  · rename_i replay hr
    split at h
    · cases h
    rename_i hmatch
    have hm : replay.hostId = input.hostId ∧ replay.capacity = input.capacity := by
      constructor
      · by_contra hne; exact hmatch (Or.inl hne)
      · by_contra hne; exact hmatch (Or.inr hne)
    split at h
    · cases pure_ok.mp h
      exact Or.inl ⟨rfl, replay, hr, hm⟩
    · obtain ⟨answered, -, h⟩ := bind_ok.mp h
      cases pure_ok.mp h
      exact Or.inl ⟨rfl, replay, hr, hm⟩
  · rename_i hr
    exact Or.inr ⟨hr, h⟩

theorem Matched.reserve (h : Matched db) (hn : NoLapse t₁ t₂ db)
    (hle : t₁ ≤ t₂) (ho : Qemu.reserve input claimId t₁ t₂ t₃ t₄ db = .ok (answer, db')) : Matched db' := by
  obtain ⟨db₁, he, ⟨rfl, -⟩ | ⟨-, hr⟩⟩ := reserve_ok ho
  · exact h.expireClaims hn hle he
  · exact (h.expireClaims hn hle he).reserveNext hr

/-! ## Steady runs -/

/-- The claim row of the request belongs to another host or capacity and outlives the expiry: the
reservation throws and everything it did is rolled back. -/
def ReserveRefused (input : ReservationInput) (deletedAt : Int) (db : SchedulerDatabase) : Prop :=
  ∃ replay ∈ db.claims.rows, replay.requestId = input.requestId ∧ replay.lapsed deletedAt = false ∧
    (replay.hostId ≠ input.hostId ∨ replay.capacity ≠ input.capacity)

/-- The activation finds a reservation within its lease. -/
def Activates (claimId : String) (now : Int) (db : SchedulerDatabase) : Prop :=
  ∃ c ∈ db.claims.rows, c.claimId = claimId ∧ c.state = .reserved ∧ now < c.leaseExpiresAt

/-- The condition on one operation: no reservation runs out between the two readings of an expiry
that is committed, and no crash follows the first statement of an activation that takes place. -/
def SchedulerState.Steady (s : SchedulerState) : Operation → Prop
  | .reserve input _ toExpiry toDelete _ _ =>
    NoLapse (s.clock + toExpiry) (s.clock + toExpiry + toDelete) s.db ∨
      ReserveRefused input (s.clock + toExpiry + toDelete) s.db
  | .expireClaims toExpiry toDelete => NoLapse (s.clock + toExpiry) (s.clock + toExpiry + toDelete) s.db
  | .activate claimId _ elapsed crashed => crashed = true → ¬ Activates claimId (s.clock + elapsed) s.db
  | _ => True

instance (input : ReservationInput) (deletedAt : Int) (db : SchedulerDatabase) :
    Decidable (ReserveRefused input deletedAt db) :=
  inferInstanceAs (Decidable (∃ replay ∈ db.claims.rows, _))

instance (claimId : String) (now : Int) (db : SchedulerDatabase) : Decidable (Activates claimId now db) :=
  inferInstanceAs (Decidable (∃ c ∈ db.claims.rows, _))

instance (s : SchedulerState) : ∀ operation, Decidable (s.Steady operation)
  | .reserve _ _ _ _ _ _ => inferInstanceAs (Decidable (_ ∨ _))
  | .expireClaims _ _ => inferInstanceAs (Decidable (NoLapse _ _ _))
  | .activate _ _ _ _ => inferInstanceAs (Decidable (_ → _))
  | .enqueue _ _ _ _ | .renew _ _ _ _ _ _ | .recordResult _ _ | .acknowledgeResult _ _ | .recover _ _ _
  | .supersedeReservation _ => inferInstanceAs (Decidable True)

def SteadyRun : SchedulerState → List Operation → Prop := Transition.Along SchedulerState.apply SchedulerState.Steady

instance (s : SchedulerState) (operations : List Operation) : Decidable (SteadyRun s operations) :=
  inferInstanceAs (Decidable (Transition.Along _ _ s operations))

variable {s : SchedulerState}

theorem SchedulerState.commit_db {P : SchedulerDatabase → Prop} {clock : Int}
    {body : Except SchedulerStoreError SchedulerDatabase} (hs : P s.db) (h : ∀ db, body = .ok db → P db) :
    P (s.commit clock body).db := by
  cases body with
  | error e => exact hs
  | ok db => exact h db rfl

theorem map_snd_ok {α β ε : Type} {x : Except ε (α × β)} {b : β} (h : x.map (·.2) = .ok b) :
    ∃ a, x = .ok (a, b) := by
  cases x with
  | error e => cases h
  | ok p => cases h; exact ⟨p.1, rfl⟩

/-- A refused reservation is rolled back whether or not its expiry would have lost an event. -/
theorem ReserveRefused.not_ok (h : ReserveRefused input t₂ db)
    (ho : reserve input claimId t₁ t₂ t₃ t₄ db = .ok (answer, db')) : False := by
  obtain ⟨replay, hmem, hrequest, hl, hne⟩ := h
  obtain ⟨db₁, he, hcases⟩ := reserve_ok ho
  -- the row is still the one that answers the request after the expiry
  have hclaim := (expireClaims_ok he replay.eventId).2
  have hg : db.claimOf replay.eventId = some replay := SchedulerDatabase.claimOf_eq_some.mpr ⟨hmem, rfl⟩
  rw [hg, Option.filter_some, hl] at hclaim
  have hmem₁ : replay ∈ db₁.claims.rows := (SchedulerDatabase.claimOf_eq_some.mp hclaim).1
  have hanswer : requestClaim input.requestId db₁ = some replay :=
    (Table.getBy_eq_some ClaimRow.unique_request).mpr ⟨hmem₁, hrequest⟩
  rcases hcases with ⟨-, found, hfound, hhost, hcapacity⟩ | ⟨hnone, -⟩
  · rw [hanswer] at hfound
    cases hfound
    rcases hne with hne | hne
    · exact hne hhost
    · exact hne hcapacity
  · rw [hanswer] at hnone
    cases hnone

/-- A steady operation keeps the invariant. -/
theorem Matched.apply (h : Matched s.db) (operation : Operation) (hs : s.Steady operation) :
    Matched (s.apply operation).db := by
  cases operation with
  | enqueue event lease uuid elapsed =>
    refine SchedulerState.commit_db h fun db hdb => ?_
    obtain ⟨intake, hok⟩ := map_snd_ok hdb
    exact h.enqueue hok
  | reserve input claimId toExpiry toDelete toSelect toLease =>
    refine SchedulerState.commit_db h fun db hdb => ?_
    obtain ⟨answer, hok⟩ := map_snd_ok hdb
    rcases hs with hn | hr
    · exact h.reserve hn (by omega) hok
    · exact absurd hok fun hok => hr.not_ok hok
  | activate claimId attempt elapsed crashed =>
    show Matched (s.activate claimId attempt _ crashed).db
    unfold SchedulerState.activate
    split
    · exact h
    · rename_i db hok
      cases crashed with
      | true =>
        obtain ⟨c, hc, hreserved, hlease, -⟩ := activateClaim_ok hok
        exact absurd ⟨c, Table.get?_mem hc, Table.get?_key hc, hreserved, hlease⟩ (hs rfl)
      | false =>
        simp only [Bool.false_eq_true, if_false]
        unfold SchedulerState.commit
        split
        · rename_i db' he
          exact h.activate hok he
        · rename_i e he
          obtain ⟨db', he'⟩ := activateEvent_total claimId db
          rw [he'] at he
          cases he
  | renew claimId hostId capacity lease toLease toUpdate =>
    refine SchedulerState.commit_db h fun db hdb => ?_
    obtain ⟨answer, hok⟩ := map_snd_ok hdb
    exact h.renew hok
  | recordResult input elapsed =>
    refine SchedulerState.commit_db h fun db hdb => ?_
    obtain ⟨answer, hok⟩ := map_snd_ok hdb
    exact h.recordResult hok
  | acknowledgeResult claimId elapsed => exact SchedulerState.commit_db h fun db hdb => h.acknowledgeResult hdb
  | recover claimId hostId capacity => exact SchedulerState.commit_db h fun db hdb => h.recover hdb
  | supersedeReservation claimId => exact SchedulerState.commit_db h fun db hdb => h.supersedeReservation hdb
  | expireClaims toExpiry toDelete =>
    exact SchedulerState.commit_db h fun db hdb => h.expireClaims hs (by omega) hdb

/-- In every run whose operations are all steady, events and claims agree in every state reached. -/
theorem scheduler_agreement (clock : Int) (operations : List Operation)
    (hs : SteadyRun (.initial clock) operations) :
    ∀ done, done <+: operations → Agreement ((SchedulerState.initial clock).run done).db := by
  intro done hdone
  have hstep : ∀ (s : SchedulerState) (operation : Operation), Matched s.db → s.Steady operation →
      Matched (s.apply operation).db := fun s operation h => h.apply operation
  exact (Transition.Along.invariant_of_prefix hstep Matched.empty hs hdone).agreement

namespace Sample

def reviewEvent : NativeQemuReviewEvent :=
  { eventId := "event", projectId := "project", protectedRef := "refs/heads/main", reviewId := "review",
    envelopeId := "envelope", expectedProtectedHead := "head", candidateCommit := "commit", candidateTree := "tree",
    policyRevision := "policy", requiredReviewRevision := "reviews", qualityRevision := "quality",
    executionKind := "qemu", jobName := "integration" }

def bounds : QemuBounds := { cpu := 1, memoryBytes := 1, pids := 1, wallClockSeconds := 1, outputBytes := 1 }

def descriptor : QemuExecutionDescriptor :=
  { admissionGeneration := "generation", jobName := "integration", runnerBaseImage := "runner", bounds,
    projectId := "project", repositoryId := "root", protectedRef := "refs/heads/main",
    expectedProtectedHead := "head", candidateCommit := "commit", candidateTree := "tree", policyRevision := "policy",
    requiredReviewRevision := "reviews", requiredJobSetRevision := "quality",
    configBlob := ⟨"config", "sha256"⟩, script := ⟨".dim/ci/jobs/integration.bash", "script", "sha256"⟩,
    jobImage := "job" }

def attempt : NativeQemuAttempt := { attemptId := "attempt", descriptorDigest := "digest", descriptor }

def output : QemuOutputEvidence := { bytes := 0, sha256 := "sha256", truncated := false }

def terminalEvent : NativeQemuTerminalEvent where
  eventId := "terminal"
  occurredAt := "2026-01-01T00:01:00.000Z"
  payload :=
    { reviewId := "review", attemptId := "attempt", descriptor, descriptorDigest := "digest", hostId := "node-a",
      capacity := "kvm", startedAt := "2026-01-01T00:00:00.000Z", finishedAt := "2026-01-01T00:01:00.000Z",
      result := .success, completion := .exited 0, stdout := output, stderr := output }

def completion : NativeQemuCompletion :=
  { claimId := "claim", cleanupComplete := true, eventId := "terminal", result := .success, terminalEvent }

def reservationInput : ReservationInput :=
  { requestId := "request", hostId := "node-a", capacity := "kvm", leaseMilliseconds := 10 }

/-- A job from its event to its acknowledged result. -/
def steadyRun : List Operation :=
  [.enqueue reviewEvent 1000 "generation" 1, .reserve reservationInput "claim" 1 1 1 1,
    .activate "claim" attempt 1 false, .renew "claim" "node-a" "kvm" 10 1 1, .recordResult completion 1,
    .acknowledgeResult "claim" 1]

/-- The lease ends at 15, between the readings 14 and 15 of a second reservation's expiry. -/
def lapsedRun : List Operation :=
  [.enqueue reviewEvent 1000 "generation" 1, .reserve reservationInput "claim" 1 1 1 1,
    .reserve { reservationInput with requestId := "second" } "other" 9 1 1 1]

end Sample

theorem scheduler_agreement_steadyRun : Agreement ((SchedulerState.initial 0).run Sample.steadyRun).db :=
  scheduler_agreement 0 Sample.steadyRun (by decide +kernel) Sample.steadyRun List.prefix_rfl

/-- The event is left reserved, and no claim has it. -/
theorem scheduler_agreement_lapsedRun :
    ¬ ∀ clock operations done, done <+: operations →
      Agreement ((SchedulerState.initial clock).run done).db := by
  intro h
  have hlost : Lost ((SchedulerState.initial 0).run Sample.lapsedRun).db "event" := by
    constructor
    · decide +kernel
    · decide +kernel
  exact hlost.not_agreement (h 0 Sample.lapsedRun Sample.lapsedRun List.prefix_rfl)

end Dim.Qemu
