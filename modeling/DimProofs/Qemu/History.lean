/-
Histories of the scheduler's store. Every operation takes its own readings of the clock, in any order. A
claim that was activated keeps its row for ever, so an event is executed under at most one claim, and only
a reservation gives its event back to the queue.
-/
import DimProofs.Qemu.Service

namespace Dim.Qemu

open Relational

/-! ## Calls -/

/-- One call of the store; `crashed` is a crash between the two statements of `activate`. -/
inductive Call where
  | enqueue (event : NativeQemuReviewEvent) (eligibilityLeaseMilliseconds : Int) (uuid : String) (now : Int)
  | reserve (input : ReservationInput) (claimId : String) (expiredAt deletedAt selectedAt leasedAt : Int)
  | activate (claimId : String) (attempt : NativeQemuAttempt) (now : Int) (crashed : Bool)
  | renew (claimId hostId capacity : String) (leaseMilliseconds leasedAt now : Int)
  | recordResult (input : NativeQemuCompletion) (now : Int)
  | acknowledgeResult (claimId : String) (now : Int)
  | recover (claimId hostId capacity : String)
  | supersedeReservation (claimId : String)
  | expireClaims (expiredAt deletedAt : Int)

namespace SchedulerDatabase

def commit (db : SchedulerDatabase) : Except SchedulerStoreError SchedulerDatabase → SchedulerDatabase
  | .ok db' => db'
  | .error _ => db

/-- `activate` runs outside a transaction: its first statement is committed on its own. -/
def activate (db : SchedulerDatabase) (claimId : String) (attempt : NativeQemuAttempt) (now : Int) (crashed : Bool) :
    SchedulerDatabase :=
  match activateClaim claimId attempt now db with
  | .error _ => db
  | .ok db => if crashed then db else db.commit (activateEvent claimId db)

def apply (db : SchedulerDatabase) : Call → SchedulerDatabase
  | .enqueue event eligibilityLeaseMilliseconds uuid now =>
    db.commit ((Qemu.enqueue event eligibilityLeaseMilliseconds uuid now db).map (·.2))
  | .reserve input claimId expiredAt deletedAt selectedAt leasedAt =>
    db.commit ((Qemu.reserve input claimId expiredAt deletedAt selectedAt leasedAt db).map (·.2))
  | .activate claimId attempt now crashed => db.activate claimId attempt now crashed
  | .renew claimId hostId capacity leaseMilliseconds leasedAt now =>
    db.commit ((Qemu.renew claimId hostId capacity leaseMilliseconds leasedAt now db).map (·.2))
  | .recordResult input now => db.commit ((Qemu.recordResult input now db).map (·.2))
  | .acknowledgeResult claimId now => db.commit (Qemu.acknowledgeResult claimId now db)
  | .recover claimId hostId capacity => db.commit (Qemu.recover claimId hostId capacity db)
  | .supersedeReservation claimId => db.commit (Qemu.supersedeReservation claimId db)
  | .expireClaims expiredAt deletedAt => db.commit (Qemu.expireClaims expiredAt deletedAt db)

def run (db : SchedulerDatabase) (calls : List Call) : SchedulerDatabase := calls.foldl apply db

theorem run_append (db : SchedulerDatabase) (calls rest : List Call) :
    db.run (calls ++ rest) = (db.run calls).run rest := List.foldl_append

theorem commit_cases {P : SchedulerDatabase → Prop} {db : SchedulerDatabase}
    {body : Except SchedulerStoreError SchedulerDatabase}
    (hs : P db) (h : ∀ db', body = .ok db' → P db') : P (db.commit body) := by
  cases body with
  | error e => exact hs
  | ok db' => exact h db' rfl

/-- What a call leaves: the outcome of its statements, or the database as it was where they fail. -/
inductive Leaves (db : SchedulerDatabase) : Call → SchedulerDatabase → Prop
  | failed {call} : Leaves db call db
  | enqueue {event lease uuid now intake db'} :
    Qemu.enqueue event lease uuid now db = .ok (intake, db') → Leaves db (.enqueue event lease uuid now) db'
  | reserve {input claimId t₁ t₂ t₃ t₄ answer db'} :
    Qemu.reserve input claimId t₁ t₂ t₃ t₄ db = .ok (answer, db') → Leaves db (.reserve input claimId t₁ t₂ t₃ t₄) db'
  | claimed {claimId attempt now db'} :
    activateClaim claimId attempt now db = .ok db' → Leaves db (.activate claimId attempt now true) db'
  | activated {claimId attempt now db₁ db'} : activateClaim claimId attempt now db = .ok db₁ →
    activateEvent claimId db₁ = .ok db' → Leaves db (.activate claimId attempt now false) db'
  | renew {claimId hostId capacity lease leasedAt now answer db'} :
    Qemu.renew claimId hostId capacity lease leasedAt now db = .ok (answer, db') →
      Leaves db (.renew claimId hostId capacity lease leasedAt now) db'
  | recordResult {input now answer db'} :
    Qemu.recordResult input now db = .ok (answer, db') → Leaves db (.recordResult input now) db'
  | acknowledgeResult {claimId now db'} :
    Qemu.acknowledgeResult claimId now db = .ok db' → Leaves db (.acknowledgeResult claimId now) db'
  | recover {claimId hostId capacity db'} :
    Qemu.recover claimId hostId capacity db = .ok db' → Leaves db (.recover claimId hostId capacity) db'
  | supersedeReservation {claimId db'} :
    Qemu.supersedeReservation claimId db = .ok db' → Leaves db (.supersedeReservation claimId) db'
  | expireClaims {t₁ t₂ db'} : Qemu.expireClaims t₁ t₂ db = .ok db' → Leaves db (.expireClaims t₁ t₂) db'

theorem apply_leaves (db : SchedulerDatabase) (call : Call) : Leaves db call (db.apply call) := by
  have answered : ∀ {α : Type} {call : Call} {body : Except SchedulerStoreError (α × SchedulerDatabase)},
      (∀ answer db', body = .ok (answer, db') → Leaves db call db') → Leaves db call (db.commit (body.map (·.2))) := by
    intro α call body h
    exact commit_cases .failed fun db' hdb => (map_snd_ok hdb).elim fun answer hok => h answer db' hok
  cases call with
  | enqueue => exact answered fun _ _ => .enqueue
  | reserve => exact answered fun _ _ => .reserve
  | activate claimId attempt now crashed =>
    show Leaves db _ (db.activate claimId attempt now crashed)
    unfold activate
    split
    · exact .failed
    · rename_i db₁ hok
      cases crashed with
      | true => exact .claimed hok
      | false =>
        obtain ⟨db', hevent⟩ := activateEvent_total claimId db₁
        simp only [Bool.false_eq_true, if_false, hevent]
        exact .activated hok hevent
  | renew => exact answered fun _ _ => .renew
  | recordResult => exact answered fun _ _ => .recordResult
  | acknowledgeResult => exact commit_cases .failed fun _ => .acknowledgeResult
  | recover => exact commit_cases .failed fun _ => .recover
  | supersedeReservation => exact commit_cases .failed fun _ => .supersedeReservation
  | expireClaims => exact commit_cases .failed fun _ => .expireClaims

end SchedulerDatabase

/-- The call that an operation makes when the clock stands at `clock`. -/
def Operation.call (clock : Int) : Operation → Call
  | .enqueue event eligibilityLeaseMilliseconds uuid elapsed => .enqueue event eligibilityLeaseMilliseconds uuid
      (clock + elapsed)
  | .reserve input claimId toExpiry toDelete toSelect toLease =>
    .reserve input claimId (clock + toExpiry) (clock + toExpiry + toDelete) (clock + toExpiry + toDelete + toSelect)
      (clock + toExpiry + toDelete + toSelect + toLease)
  | .activate claimId attempt elapsed crashed => .activate claimId attempt (clock + elapsed) crashed
  | .renew claimId hostId capacity leaseMilliseconds toLease toUpdate =>
    .renew claimId hostId capacity leaseMilliseconds (clock + toLease) (clock + toLease + toUpdate)
  | .recordResult input elapsed => .recordResult input (clock + elapsed)
  | .acknowledgeResult claimId elapsed => .acknowledgeResult claimId (clock + elapsed)
  | .recover claimId hostId capacity => .recover claimId hostId capacity
  | .supersedeReservation claimId => .supersedeReservation claimId
  | .expireClaims toExpiry toDelete => .expireClaims (clock + toExpiry) (clock + toExpiry + toDelete)

theorem SchedulerState.commit_db_eq (s : SchedulerState) (clock : Int)
    (body : Except SchedulerStoreError SchedulerDatabase) : (s.commit clock body).db = s.db.commit body := by
  cases body <;> rfl

/-- The runs of a service whose clock never goes back are histories of the store. -/
theorem SchedulerState.apply_db (s : SchedulerState) (operation : Operation) :
    (s.apply operation).db = s.db.apply (operation.call s.clock) := by
  cases operation with
  | activate claimId attempt elapsed crashed =>
    show (s.activate claimId attempt _ crashed).db = s.db.activate claimId attempt _ crashed
    unfold SchedulerState.activate SchedulerDatabase.activate
    generalize activateClaim claimId attempt (s.clock + elapsed) s.db = first
    cases first with
    | error e => rfl
    | ok db =>
      simp only
      split
      · rfl
      · exact SchedulerState.commit_db_eq _ _ _
  | _ => exact SchedulerState.commit_db_eq _ _ _

/-! ## What becomes of a claim -/

/-- One statement on the row of one claim. -/
inductive Turn : Option ClaimRow → Option ClaimRow → Prop
  | kept {claim claim' : Option ClaimRow} : Kept claim claim' → Turn claim claim'
  | activated (c : ClaimRow) (attempt : NativeQemuAttempt) : c.state = .reserved → Turn (some c) (some
      { c with state := .active, attemptId := some attempt.attemptId, descriptorDigest := some attempt.descriptorDigest,
               attempt := some attempt })
  | recorded (c : ClaimRow) (result : NativeQemuCompletion) : c.state = .active → Turn (some c) (some { c with result })
  | completed (c : ClaimRow) : c.state ≠ .completed → Turn (some c) (some { c with state := .completed })

/-- The statements on each claim, one after the other. -/
def Turns (db db' : SchedulerDatabase) : Prop := ∀ k, Relation.ReflTransGen Turn (db.claims.get? k) (db'.claims.get? k)

theorem Turns.refl (db : SchedulerDatabase) : Turns db db := fun _ => .refl

theorem Turns.trans {db db' db'' : SchedulerDatabase} (h : Turns db db') (h' : Turns db' db'') : Turns db db'' :=
  fun k => (h k).trans (h' k)

theorem Turns.of_eq {db db' : SchedulerDatabase} (h : db'.claims = db.claims) : Turns db db' := by
  intro k
  rw [h]

theorem KeptAll.turns {db db' : SchedulerDatabase} (h : KeptAll db db') : Turns db db' :=
  fun k => Relation.ReflTransGen.mono (fun _ _ => Turn.kept) _ _ (h.claims k)

variable {c : ClaimRow} {claimId : String} {db db' : SchedulerDatabase}

/-- A statement on the claim `c` alone. -/
theorem Turns.single {c' : ClaimRow} (hc : db.claims.get? claimId = some c)
    (hc' : db'.claims.get? claimId = some c') (ht : Turn (some c) (some c'))
    (hother : ∀ k, k ≠ claimId → db'.claims.get? k = db.claims.get? k) : Turns db db' := by
  intro k
  by_cases hk : k = claimId
  · rw [hk, hc, hc']
    exact .single ht
  · rw [hother k hk]

variable {eventId : String} {state : EventState}

theorem Turns.setEventState
    (h : Qemu.setEventState state eventId db = .ok db') : Turns db db' := .of_eq (setEventState_ok h).1

theorem Turns.complete (hc : db.claims.get? claimId = some c)
    (hs : c.state ≠ .completed) (h : setClaimState .completed claimId db = .ok db') : Turns db db' := by
  obtain ⟨-, -, hc', -⟩ := setClaimState_ok hc h
  exact .single hc hc' (.completed c hs) fun k hk => setClaimState_other h hk

variable {now : Int}

theorem Turns.activateClaim {attempt : NativeQemuAttempt}
    (h : Qemu.activateClaim claimId attempt now db = .ok db') : Turns db db' := by
  obtain ⟨c, hc, hs, -, -, hc', -⟩ := activateClaim_ok h
  exact .single hc hc' (.activated c attempt hs) fun k hk => activateClaim_other h hk

variable {answer : Recorded} {input : NativeQemuCompletion}

theorem Turns.recordResult (h : Qemu.recordResult input now db = .ok (answer, db')) : Turns db db' := by
  rcases recordResult_ok h with ⟨-, rfl⟩ | ⟨-, c, hc, hs, -, -, hu, -⟩
  · exact .refl _
  have hid : c.claimId = input.claimId := Table.get?_key hc
  refine .single hc ?_ (.recorded c input hs) ?_
  · exact Table.get?_update_self hu (fun _ => rfl) hc (by simp [hid])
  · intro k hk
    exact Table.get?_update_ne hu (fun _ => rfl) (fun r hr => by simpa using hr) hk

theorem Turns.acknowledgeResult (h : Qemu.acknowledgeResult claimId now db = .ok db') : Turns db db' := by
  rcases acknowledgeResult_ok h with rfl | ⟨c, db₁, db₂, hc, -, hs, hclaim, hevent, hdb, -⟩
  · exact .refl _
  have hstates : Turns db db₂ := (Turns.complete hc (by rw [hs]; decide) hclaim).trans (.setEventState hevent)
  refine hstates.trans (.of_eq ?_)
  rw [hdb]

variable {capacity hostId : String}

theorem Turns.recover (h : Qemu.recover claimId hostId capacity db = .ok db') : Turns db db' := by
  rcases recover_ok h with ⟨rfl, -⟩ | ⟨c, db₁, hc, hs, hclaim, hevent⟩
  · exact .refl _
  · exact (Turns.complete hc hs hclaim).trans (.setEventState hevent)

theorem apply_turns (db : SchedulerDatabase) (call : Call) : Turns db (db.apply call) := by
  have hleaves := db.apply_leaves call
  generalize db.apply call = db' at hleaves ⊢
  cases hleaves with
  | failed => exact .refl _
  | enqueue hok => exact (KeptAll.enqueue hok).turns
  | reserve hok => exact (KeptAll.reserve hok).turns
  | claimed hok => exact .activateClaim hok
  | activated hok hevent => exact (Turns.activateClaim hok).trans (KeptAll.activateEvent hevent).turns
  | renew hok => exact (KeptAll.renew hok).turns
  | recordResult hok => exact .recordResult hok
  | acknowledgeResult hok => exact .acknowledgeResult hok
  | recover hok => exact .recover hok
  | supersedeReservation hok => exact (KeptAll.supersedeReservation hok).turns
  | expireClaims hok => exact (KeptAll.expireClaims hok).turns

theorem run_turns (db : SchedulerDatabase) (calls : List Call) : Turns db (db.run calls) := by
  induction calls generalizing db with
  | nil => exact .refl db
  | cons call rest ih => exact (apply_turns db call).trans (ih (db.apply call))

/-! ## Activated claims -/

/-- The row `c'` that the started claim `c` became. -/
structure ClaimRow.Follows (c c' : ClaimRow) : Prop where
  started : c'.state ≠ .reserved
  event : c'.eventId = c.eventId
  attempt : c'.attempt = c.attempt
  completed : c.state = .completed → c'.state = .completed

theorem ClaimRow.Follows.trans {c c' c'' : ClaimRow} (h : c.Follows c') (h' : c'.Follows c'') : c.Follows c'' :=
  ⟨h'.started, h'.event.trans h.event, h'.attempt.trans h.attempt, h'.completed ∘ h.completed⟩

/-- A claim that has left its reservation keeps its row. -/
theorem Turn.follows {claim : Option ClaimRow} (h : Turn (some c) claim) (hs : c.state ≠ .reserved) :
    ∃ c', claim = some c' ∧ c.Follows c' := by
  cases h with
  | kept hk =>
    cases hk with
    | released hr => exact absurd hr hs
    | renewed _ leaseExpiresAt => exact ⟨_, rfl, hs, rfl, rfl, id⟩
  | activated _ attempt hr => exact absurd hr hs
  | recorded _ result ha => exact ⟨_, rfl, hs, rfl, rfl, id⟩
  | completed _ hne => exact ⟨_, rfl, by simp, rfl, rfl, fun _ => rfl⟩

variable {k : String}

theorem Turns.follows (h : Turns db db')
    (hc : db.claims.get? k = some c) (hs : c.state ≠ .reserved) : ∃ c', db'.claims.get? k = some c' ∧ c.Follows c' := by
  have hk := h k
  rw [hc] at hk
  generalize db'.claims.get? k = claim at hk
  induction hk with
  | refl => exact ⟨c, rfl, hs, rfl, rfl, id⟩
  | tail _ hturn ih =>
    obtain ⟨c', rfl, hf⟩ := ih
    obtain ⟨c'', hc'', hf'⟩ := hturn.follows hf.started
    exact ⟨c'', hc'', hf.trans hf'⟩

/-! ## Events that return to the queue -/

/-- No event becomes queued. -/
def NoneQueued (db db' : SchedulerDatabase) : Prop := ∀ x, db'.eventState x = some .queued → db.eventState x = some .queued

theorem NoneQueued.of_eq {db db' : SchedulerDatabase} (h : db'.events = db.events) : NoneQueued db db' := by
  intro x hx
  unfold SchedulerDatabase.eventState at *
  rw [h] at hx
  exact hx

theorem NoneQueued.trans {db'' : SchedulerDatabase} (h : NoneQueued db db') (h' : NoneQueued db' db'') :
    NoneQueued db db'' := fun x hx => h x (h' x hx)

theorem NoneQueued.setEventState
    (h : Qemu.setEventState state eventId db = .ok db') (hs : state ≠ .queued) : NoneQueued db db' := by
  intro x hx
  rw [(setEventState_ok h).2.2 x] at hx
  split at hx
  · obtain ⟨before, -, hstate⟩ := Option.map_eq_some_iff.mp hx
    exact absurd hstate hs
  · exact hx

theorem NoneQueued.reserveNext {input : ReservationInput} {leasedAt : Int} {answer : Option NativeQemuClaim}
    (h : Qemu.reserveNext input claimId now leasedAt db = .ok (answer, db')) : NoneQueued db db' := by
  rcases reserveNext_ok h with rfl | ⟨e, db₁, -, hi, hs⟩
  · exact .of_eq rfl
  · exact (NoneQueued.of_eq (insertClaim_ok hi).1).trans (.setEventState hs (by decide))

theorem NoneQueued.activateClaim {attempt : NativeQemuAttempt} (h : Qemu.activateClaim claimId attempt now db = .ok db') :
    NoneQueued db db' := by
  obtain ⟨c, -, -, -, hdb, -⟩ := activateClaim_ok h
  exact .of_eq (by rw [hdb])

theorem NoneQueued.activateEvent {attempt : NativeQemuAttempt} {db₁ : SchedulerDatabase}
    (h : Qemu.activateClaim claimId attempt now db = .ok db₁) (hevent : Qemu.activateEvent claimId db₁ = .ok db') :
    NoneQueued db₁ db' := by
  obtain ⟨c, -, -, -, -, hc, -⟩ := activateClaim_ok h
  exact .setEventState (activateEvent_ok (by rw [hc]; rfl) hevent) (by decide)

theorem NoneQueued.recordResult
    (h : Qemu.recordResult input now db = .ok (answer, db')) : NoneQueued db db' := by
  rcases recordResult_ok h with ⟨-, rfl⟩ | ⟨-, c, -, -, -, hevents, -, -⟩
  · exact .of_eq rfl
  · exact .of_eq hevents

theorem NoneQueued.acknowledgeResult
    (h : Qemu.acknowledgeResult claimId now db = .ok db') : NoneQueued db db' := by
  rcases acknowledgeResult_ok h with rfl | ⟨c, db₁, db₂, hc, -, -, hclaim, hevent, hdb, -⟩
  · exact .of_eq rfl
  have hevents : NoneQueued db db₂ :=
    (NoneQueued.of_eq (setClaimState_ok hc hclaim).1).trans (.setEventState hevent (by decide))
  refine hevents.trans (.of_eq ?_)
  rw [hdb]

theorem NoneQueued.recover (h : Qemu.recover claimId hostId capacity db = .ok db') : NoneQueued db db' := by
  rcases recover_ok h with ⟨rfl, -⟩ | ⟨c, db₁, hc, -, hclaim, hevent⟩
  · exact .of_eq rfl
  · exact (NoneQueued.of_eq (setClaimState_ok hc hclaim).1).trans (.setEventState hevent (by decide))

theorem NoneQueued.supersedeReservation
    (h : Qemu.supersedeReservation claimId db = .ok db') : NoneQueued db db' := by
  unfold Qemu.supersedeReservation at h
  split at h
  · cases h
  obtain ⟨db₁, hevent, h⟩ := bind_ok.mp h
  cases deleteClaims_ok h
  exact (NoneQueued.setEventState hevent (by decide)).trans (.of_eq rfl)

/-- An event becomes queued when it is new, or when it has a reservation. -/
def Requeues (db db' : SchedulerDatabase) : Prop := ∀ x, db'.eventState x = some .queued →
  db.eventState x = some .queued ∨ db.eventState x = none ∨ ∃ c, db.claimOf x = some c ∧ c.state = .reserved

theorem NoneQueued.requeues {db db' : SchedulerDatabase} (h : NoneQueued db db') : Requeues db db' :=
  fun x hx => Or.inl (h x hx)

/-- An expiry queues the events of lapsed reservations. -/
theorem Requeues.expireClaims {deletedAt : Int}
    (h : Qemu.expireClaims now deletedAt db = .ok db') : Requeues db db' := by
  intro x hx
  rw [(expireClaims_ok h x).1] at hx
  split at hx
  · rename_i hany
    obtain ⟨c, hc, hlapsed⟩ := (Option.any_eq_true _ _).mp hany
    simp only [ClaimRow.lapsed, Bool.and_eq_true, decide_eq_true_eq] at hlapsed
    exact Or.inr (Or.inr ⟨c, hc, hlapsed.1⟩)
  · exact Or.inl hx

theorem Requeues.reserve {input : ReservationInput} {t₁ t₂ t₃ t₄ : Int} {answer : Option NativeQemuClaim}
    (h : Qemu.reserve input claimId t₁ t₂ t₃ t₄ db = .ok (answer, db')) : Requeues db db' := by
  obtain ⟨db₁, he, hcases⟩ := reserve_ok h
  intro x hx
  refine Requeues.expireClaims he x ?_
  rcases hcases with ⟨rfl, -⟩ | ⟨-, hr⟩
  · exact hx
  · exact NoneQueued.reserveNext hr x hx

theorem Requeues.enqueue {event : NativeQemuReviewEvent} {lease : Int} {uuid : String}
    {intake : NativeQemuIntake}
    (h : Qemu.enqueue event lease uuid now db = .ok (intake, db')) : Requeues db db' := by
  intro x hx
  unfold Qemu.enqueue at h
  split at h
  · cases h
  obtain ⟨db₁, hu, h⟩ := bind_ok.mp h
  obtain ⟨hevents, -⟩ := upsertEligibility_ok hu
  obtain ⟨events, he, h⟩ := bind_ok.mp h
  rw [hevents] at he
  have hstate : ∀ y, (events.get? y).map (·.state) = db.eventState y := fun y =>
    Table.map_get?_update he (fun _ => rfl) (·.state) (fun _ => rfl) y
  split at h
  · split at h
    · cases h
    · cases pure_ok.mp h
      exact Or.inl ((hstate x).symm.trans hx)
  · rename_i hfresh
    obtain ⟨events', hi, h⟩ := bind_ok.mp h
    cases pure_ok.mp h
    unfold SchedulerDatabase.eventState at hx
    rw [Table.get?_insert hi, EventRow.key_eq] at hx
    split at hx
    · rename_i hxe
      right; left
      rw [hxe, ← hstate, hfresh]
      rfl
    · exact Or.inl ((hstate x).symm.trans hx)

theorem apply_requeues (db : SchedulerDatabase) (call : Call) : Requeues db (db.apply call) := by
  have hleaves := db.apply_leaves call
  generalize db.apply call = db' at hleaves ⊢
  cases hleaves with
  | failed => exact fun x => .inl
  | enqueue hok => exact .enqueue hok
  | reserve hok => exact .reserve hok
  | claimed hok => exact (NoneQueued.activateClaim hok).requeues
  | activated hok hevent => exact ((NoneQueued.activateClaim hok).trans (.activateEvent hok hevent)).requeues
  | renew hok =>
    unfold renew at hok
    obtain ⟨claims, -, hok⟩ := bind_ok.mp hok
    split at hok
    · cases hok
    · cases pure_ok.mp hok
      exact fun x => .inl
  | recordResult hok => exact (NoneQueued.recordResult hok).requeues
  | acknowledgeResult hok => exact (NoneQueued.acknowledgeResult hok).requeues
  | recover hok => exact (NoneQueued.recover hok).requeues
  | supersedeReservation hok => exact (NoneQueued.supersedeReservation hok).requeues
  | expireClaims hok => exact .expireClaims hok

/-! ## At most once -/

/-- The claim `k` of the event `x` was active in some state of the history. -/
def EverActivated (calls : List Call) (k x : String) : Prop :=
  ∃ done, done <+: calls ∧ ∃ c, (SchedulerDatabase.empty.run done).claims.get? k = some c ∧ c.state = .active ∧ c.eventId = x

/-- A claim that was ever activated is in every later state the claim of its event. -/
theorem EverActivated.claimOf {calls : List Call} {x : String} (h : EverActivated calls k x) :
    ∃ c, (SchedulerDatabase.empty.run calls).claims.get? k = some c ∧
      (SchedulerDatabase.empty.run calls).claimOf x = some c ∧ c.state ≠ .reserved := by
  obtain ⟨done, ⟨rest, rfl⟩, c, hc, hs, hx⟩ := h
  obtain ⟨c', hc', hf⟩ := (run_turns _ rest).follows hc (by rw [hs]; decide)
  rw [← SchedulerDatabase.run_append] at hc'
  refine ⟨c', hc', ?_, hf.started⟩
  rw [← hx, ← hf.event]
  exact SchedulerDatabase.claimOf_of_get? hc'

/-- In every history, an event is active under one claim at most, a host's capacity is held by one claim at
most, and an event returns to the queue only from a reservation, when none of its claims was ever activated. -/
theorem scheduled_once (calls : List Call) :
    (∀ x k₁ k₂, EverActivated calls k₁ x → EverActivated calls k₂ x → k₁ = k₂) ∧
    (∀ c₁ ∈ (SchedulerDatabase.empty.run calls).claims.rows, ∀ c₂ ∈ (SchedulerDatabase.empty.run calls).claims.rows,
      c₁.hostId = c₂.hostId → c₁.capacity = c₂.capacity → c₁.state.held = true → c₂.state.held = true → c₁ = c₂) ∧
    (∀ call x state, (SchedulerDatabase.empty.run calls).eventState x = some state → state ≠ .queued →
      (SchedulerDatabase.empty.run (calls ++ [call])).eventState x = some .queued →
      (∃ c, (SchedulerDatabase.empty.run calls).claimOf x = some c ∧ c.state = .reserved) ∧
        ∀ k, ¬ EverActivated calls k x) := by
  refine ⟨?_, ?_, ?_⟩
  · intro x k₁ k₂ h₁ h₂
    obtain ⟨c₁, hget₁, hof₁, -⟩ := h₁.claimOf
    obtain ⟨c₂, hget₂, hof₂, -⟩ := h₂.claimOf
    rw [hof₁] at hof₂
    cases hof₂
    exact (Table.get?_key hget₁).symm.trans (Table.get?_key hget₂)
  · intro c₁ h₁ c₂ h₂ hhost hcapacity hheld₁ hheld₂
    exact Table.eq_of_conflict _ h₁ h₂ (conflict_of_clash (by simp [Schema.clash, hhost, hcapacity, hheld₁, hheld₂]))
  · intro call x state hbefore hstate hafter
    rw [SchedulerDatabase.run_append] at hafter
    have hreserved : ∃ c, (SchedulerDatabase.empty.run calls).claimOf x = some c ∧ c.state = .reserved := by
      rcases apply_requeues _ call x hafter with h | h | h
      · rw [hbefore] at h
        exact absurd (Option.some.inj h) hstate
      · rw [hbefore] at h
        cases h
      · exact h
    refine ⟨hreserved, ?_⟩
    intro k hk
    obtain ⟨c, hc, hs⟩ := hreserved
    obtain ⟨c', -, hof, hs'⟩ := hk.claimOf
    rw [hc] at hof
    cases hof
    exact hs' hs

end Dim.Qemu
