/-
The answers of the QEMU claim route. A claim that was answered stays with the request that reserved it:
only a reservation makes a claim, under an id drawn for it, and only reservations are deleted. A handler
whose reservation is gone fails to activate it, so it answers no claim of another request.
-/
import DimProofs.Qemu.Issuance

namespace Dim.Qemu

open Relational

/-! ## Claims and their requests -/

/-- The request that reserved a claim. -/
def SchedulerDatabase.reservedFor (db : SchedulerDatabase) (claimId : String) : Option String :=
  (db.claims.get? claimId).map (·.requestId)

/-- The request of a claim that has left its reservation. -/
def SchedulerDatabase.answeredTo (db : SchedulerDatabase) (claimId : String) : Option String :=
  ((db.claims.get? claimId).filter fun c => c.state ≠ .reserved).map (·.requestId)

/-- No claim is new, and each has its request. -/
def Retains (db db' : SchedulerDatabase) : Prop :=
  ∀ k requestId, db'.reservedFor k = some requestId → db.reservedFor k = some requestId

theorem Retains.refl (db : SchedulerDatabase) : Retains db db := fun _ _ h => h

theorem Retains.trans {db db' db'' : SchedulerDatabase} (h : Retains db db') (h' : Retains db' db'') : Retains db db'' :=
  fun k requestId hk => h k requestId (h' k requestId hk)

theorem Retains.of_eq {db db' : SchedulerDatabase} (h : db'.claims = db.claims) : Retains db db' := by
  intro k requestId hk
  rwa [SchedulerDatabase.reservedFor, h] at hk

theorem Retains.of_update {p : ClaimRow → Bool} {f : ClaimRow → ClaimRow} {db db' : SchedulerDatabase}
    (h : db.claims.update (ε := SchedulerStoreError) p f = .ok db'.claims) (hid : ∀ c, (f c).claimId = c.claimId)
    (hrequest : ∀ c, (f c).requestId = c.requestId) : Retains db db' := by
  intro k requestId hk
  rwa [SchedulerDatabase.reservedFor, Table.map_get?_update h hid _ hrequest] at hk

variable {db db' : SchedulerDatabase}

theorem Retains.deleteClaims {p : ClaimRow → Bool} (h : Qemu.deleteClaims p db = .ok db') :
    Retains db db' := by
  cases deleteClaims_ok h
  intro k requestId hk
  unfold SchedulerDatabase.reservedFor at hk ⊢
  rw [Table.get?_delete, Option.map_eq_some_iff] at hk
  obtain ⟨c, hc, rfl⟩ := hk
  rw [(Option.filter_eq_some_iff.mp hc).1]
  rfl

theorem Retains.setEventState {state : EventState} {eventId : String}
    (h : Qemu.setEventState state eventId db = .ok db') : Retains db db' := .of_eq (setEventState_ok h).1

variable {claimId : String}

theorem Retains.setClaimState {state : ClaimState}
    (h : Qemu.setClaimState state claimId db = .ok db') : Retains db db' := by
  unfold Qemu.setClaimState at h
  obtain ⟨claims, hu, h⟩ := bind_ok.mp h
  cases pure_ok.mp h
  exact .of_update hu (fun _ => rfl) fun _ => rfl

variable {now : Int}

theorem enqueue_claims {event : NativeQemuReviewEvent} {lease : Int} {uuid : String}
    {intake : NativeQemuIntake}
    (h : enqueue event lease uuid now db = .ok (intake, db')) : db'.claims = db.claims := by
  unfold enqueue at h
  split at h
  · cases h
  obtain ⟨db₁, hu, h⟩ := bind_ok.mp h
  obtain ⟨-, hclaims⟩ := upsertEligibility_ok hu
  obtain ⟨events, -, h⟩ := bind_ok.mp h
  split at h
  · split at h
    · cases h
    · cases pure_ok.mp h
      exact hclaims
  · obtain ⟨events', -, h⟩ := bind_ok.mp h
    cases pure_ok.mp h
    exact hclaims

theorem Retains.renew {claimId hostId capacity : String} {lease leasedAt now answer : Int} {db db' : SchedulerDatabase}
    (h : Qemu.renew claimId hostId capacity lease leasedAt now db = .ok (answer, db')) : Retains db db' := by
  unfold Qemu.renew at h
  obtain ⟨claims, hu, h⟩ := bind_ok.mp h
  split at h
  · cases h
  · cases pure_ok.mp h
    exact .of_update hu (fun _ => rfl) fun _ => rfl

variable {attempt : NativeQemuAttempt}

theorem Retains.activateClaim (h : Qemu.activateClaim claimId attempt now db = .ok db') : Retains db db' := by
  unfold Qemu.activateClaim at h
  obtain ⟨claims, hu, h⟩ := bind_ok.mp h
  split at h
  · cases h
  · cases pure_ok.mp h
    exact .of_update hu (fun _ => rfl) fun _ => rfl

theorem activateEvent_claims (h : activateEvent claimId db = .ok db') :
    db'.claims = db.claims := by
  obtain ⟨events, -, h⟩ := bind_ok.mp h
  cases pure_ok.mp h
  rfl

theorem Retains.recordResult {input : NativeQemuCompletion} {answer : Recorded}
    (h : Qemu.recordResult input now db = .ok (answer, db')) : Retains db db' := by
  rcases recordResult_ok h with ⟨-, rfl⟩ | ⟨-, c, -, -, -, -, hu, -⟩
  · exact .refl _
  · exact .of_update hu (fun _ => rfl) fun _ => rfl

theorem Retains.acknowledgeResult (h : Qemu.acknowledgeResult claimId now db = .ok db') : Retains db db' := by
  rcases acknowledgeResult_ok h with rfl | ⟨c, db₁, db₂, -, -, -, hclaim, hevent, hdb, -⟩
  · exact .refl _
  · refine ((Retains.setClaimState hclaim).trans (.setEventState hevent)).trans (.of_eq ?_)
    rw [hdb]

theorem Retains.recover {hostId capacity : String}
    (h : Qemu.recover claimId hostId capacity db = .ok db') : Retains db db' := by
  rcases recover_ok h with ⟨rfl, -⟩ | ⟨c, db₁, -, -, hclaim, hevent⟩
  · exact .refl _
  · exact (Retains.setClaimState hclaim).trans (.setEventState hevent)

theorem Retains.supersedeReservation
    (h : Qemu.supersedeReservation claimId db = .ok db') : Retains db db' := by
  unfold Qemu.supersedeReservation at h
  split at h
  · cases h
  obtain ⟨db₁, hevent, h⟩ := bind_ok.mp h
  exact (Retains.setEventState hevent).trans (.deleteClaims h)

theorem Retains.expireClaims {deletedAt : Int}
    (h : Qemu.expireClaims now deletedAt db = .ok db') : Retains db db' := by
  unfold Qemu.expireClaims at h
  obtain ⟨events, -, h⟩ := bind_ok.mp h
  have hevents : Retains db { db with events } := .of_eq rfl
  exact hevents.trans (.deleteClaims h)

/-- The id that a call draws for a new claim. -/
def Call.draws : Call → Option String
  | .reserve _ claimId _ _ _ _ => some claimId
  | _ => none

theorem apply_retains (db : SchedulerDatabase) {call : Call} (h : call.draws = none) : Retains db (db.apply call) := by
  have hleaves := db.apply_leaves call
  generalize db.apply call = db' at hleaves ⊢
  cases hleaves with
  | failed => exact .refl _
  | enqueue hok => exact .of_eq (enqueue_claims hok)
  | reserve => cases h
  | claimed hok => exact .activateClaim hok
  | activated hok hevent => exact (Retains.activateClaim hok).trans (.of_eq (activateEvent_claims hevent))
  | renew hok => exact .renew hok
  | recordResult hok => exact .recordResult hok
  | acknowledgeResult hok => exact .acknowledgeResult hok
  | recover hok => exact .recover hok
  | supersedeReservation hok => exact .supersedeReservation hok
  | expireClaims hok => exact .expireClaims hok

/-! ## Reservations -/

/-- A reservation makes no claim but the one of its id, for its request, and the claim it answers is that
request's. -/
theorem reserve_requests {input : ReservationInput} {t₁ t₂ t₃ t₄ : Int} {answer : Option NativeQemuClaim}
    (h : reserve input claimId t₁ t₂ t₃ t₄ db = .ok (answer, db')) :
    (∀ k requestId, db'.reservedFor k = some requestId →
      db.reservedFor k = some requestId ∨ (k = claimId ∧ requestId = input.requestId)) ∧
    ∀ claim, answer = some claim → db'.reservedFor claim.claimId = some input.requestId := by
  unfold reserve at h
  obtain ⟨db₁, he, h⟩ := bind_ok.mp h
  have hexpired := Retains.expireClaims he
  split at h
  · -- the request has a claim
    rename_i replay hreplay
    split at h
    · cases h
    split at h
    · cases pure_ok.mp h
      exact ⟨fun k requestId hk => Or.inl (hexpired k requestId hk), fun claim hc => by cases hc⟩
    · obtain ⟨answered, ha, h⟩ := bind_ok.mp h
      cases pure_ok.mp h
      refine ⟨fun k requestId hk => Or.inl (hexpired k requestId hk), ?_⟩
      rintro claim hc
      cases hc
      obtain ⟨hmem, hrequest⟩ := (Table.getBy_eq_some ClaimRow.unique_request).mp hreplay
      unfold Qemu.claim at ha
      split at ha
      · cases ha
      · cases ha
        have hget : db'.claims.get? replay.claimId = some replay := Table.get?_of_mem hmem
        show (db'.claims.get? replay.claimId).map (·.requestId) = _
        rw [hget]
        exact congrArg some hrequest
  · unfold reserveNext at h
    split at h
    · cases pure_ok.mp h
      exact ⟨fun k requestId hk => Or.inl (hexpired k requestId hk), fun claim hc => by cases hc⟩
    split at h
    · cases pure_ok.mp h
      exact ⟨fun k requestId hk => Or.inl (hexpired k requestId hk), fun claim hc => by cases hc⟩
    rename_i e _
    obtain ⟨db₂, hi, h⟩ := bind_ok.mp h
    obtain ⟨db₃, hs, h⟩ := bind_ok.mp h
    cases pure_ok.mp h
    have hinserted : ∀ k, db'.reservedFor k = if k = claimId then some input.requestId else db₁.reservedFor k := by
      intro k
      unfold insertClaim at hi
      obtain ⟨-, -, hi⟩ := bind_ok.mp hi
      obtain ⟨claims, hins, hi⟩ := bind_ok.mp hi
      cases pure_ok.mp hi
      unfold SchedulerDatabase.reservedFor
      rw [(setEventState_ok hs).1]
      show (claims.get? k).map (·.requestId) = _
      rw [Table.get?_insert hins]
      show (if k = claimId then _ else _ : Option ClaimRow).map _ = _
      split <;> rfl
    refine ⟨?_, ?_⟩
    · intro k requestId hk
      rw [hinserted] at hk
      split at hk
      · rename_i hkey
        exact Or.inr ⟨hkey, (Option.some.inj hk).symm⟩
      · exact Or.inl (hexpired k requestId hk)
    · rintro claim hc
      cases hc
      rw [hinserted]
      exact if_pos rfl

/-! ## The claim route -/

/-- The id that an action draws for a new claim. -/
def IssuanceAction.draws : IssuanceAction → Option String
  | .claim _ claimId _ | .rejected _ claimId _ => some claimId
  | _ => none

/-- What an action answers on the claim route, but for an empty answer: the assignment of the request, or the
claim that its handler activated. -/
def IssuanceState.reply (s : IssuanceState) : IssuanceAction → Option (String × NativeQemuClaim × NativeQemuAttempt)
  | .claim input _ _ =>
    match assignment input.requestId input.hostId input.capacity s.db with
    | .ok (some answer) => some (input.requestId, answer)
    | _ => none
  | .issued handler attempt elapsed false =>
    match s.handlers[handler]? with
    | none => none
    | some h =>
      if h.descriptorDigest = some attempt.descriptorDigest ∧ s.service.git.issuedFor h.claim.claimId attempt then
        match activateClaim h.claim.claimId attempt (s.clock + elapsed) s.db with
        | .ok _ => some (h.input.requestId, h.claim, attempt)
        | .error _ => none
      else none
  | _ => none

/-- The service with the ids drawn for claims, and the answers of its claim route to each request. -/
structure RouteState where
  issuance : IssuanceState
  drawn : List String
  replies : List (String × NativeQemuClaim × NativeQemuAttempt)

def RouteState.initial (clock : Int) : RouteState := { issuance := .initial clock, drawn := [], replies := [] }

def RouteState.apply (s : RouteState) (action : IssuanceAction) : RouteState :=
  { issuance := s.issuance.apply action
    drawn := action.draws.toList ++ s.drawn
    replies := (s.issuance.reply action).toList ++ s.replies }

/-- An id is never drawn twice. -/
inductive RouteStep : RouteState → RouteState → Prop
  | act (s : RouteState) (action : IssuanceAction) (hnew : ∀ id, action.draws = some id → id ∉ s.drawn) :
    RouteStep s (s.apply action)

/-- A claim comes from the database before the action, or under the id that the action drew, and the handlers
hold claims of their requests. -/
structure Moves (draws : Option String) (s s' : IssuanceState) : Prop where
  turns : Turns s.db s'.db
  claims : ∀ k requestId, s'.db.reservedFor k = some requestId → s.db.reservedFor k = some requestId ∨ draws = some k
  handlers : ∀ h ∈ s'.handlers, (∃ h' ∈ s.handlers, h'.claim = h.claim ∧ h'.input = h.input) ∨
    s'.db.reservedFor h.claim.claimId = some h.input.requestId

variable {draws : Option String} {s s' : IssuanceState}

/-- A step that makes no claim, and no handler but those under way. -/
theorem Moves.of_retains (ht : Turns s.db s'.db) (hr : Retains s.db s'.db)
    (hh : ∀ h ∈ s'.handlers, ∃ h' ∈ s.handlers, h'.claim = h.claim ∧ h'.input = h.input) : Moves draws s s' :=
  ⟨ht, fun k requestId hk => Or.inl (hr k requestId hk), fun h hs => Or.inl (hh h hs)⟩

theorem Moves.of_handlers (hdb : s'.db = s.db)
    (hh : ∀ h ∈ s'.handlers, ∃ h' ∈ s.handlers, h'.claim = h.claim ∧ h'.input = h.input) : Moves draws s s' :=
  .of_retains (.of_eq (by rw [hdb])) (.of_eq (by rw [hdb])) hh

theorem ByCall.retains {db db' : SchedulerDatabase} (h : ByCall (·.draws = none) db db') : Retains db db' := by
  rcases h with rfl | ⟨call, hcall, rfl⟩
  · exact .refl _
  · exact apply_retains db hcall

theorem ByCall.mono {p q : Call → Prop} (hpq : ∀ call, p call → q call) (h : ByCall p db db') :
    ByCall q db db' :=
  h.imp id fun ⟨call, hp, hdb⟩ => ⟨call, hpq call hp, hdb⟩

theorem Call.draws_of_stays {call : Call} (h : call.deletes = false) : call.draws = none := by
  cases call <;> first | rfl | cases h

theorem ServiceState.activate_db (s : ServiceState) (elapsed : Nat)
    (crashed : Bool) (h : s.git.issuedFor claimId attempt = true) :
    (s.apply (.activate claimId attempt elapsed crashed)).scheduler.db =
      s.scheduler.db.activate claimId attempt (s.scheduler.clock + elapsed) crashed := by
  simp only [ServiceState.apply]
  rw [if_pos h]
  exact SchedulerState.apply_db _ _

/-- A reservation, by a new handler or by one that left its first. -/
theorem Moves.reserve (s : IssuanceState) (input : ReservationInput) (claimId : String) (t : Readings) :
    Moves (some claimId) s (s.reserve input claimId t) := by
  have hdb : (s.reserve input claimId t).db = s.db.commit ((Qemu.reserve input claimId (t.expiredAt s.clock)
      (t.deletedAt s.clock) (t.selectedAt s.clock) (t.leasedAt s.clock) s.db).map (·.2)) :=
    SchedulerState.commit_db_eq _ _ _
  have hhandlers : (s.reserve input claimId t).handlers = s.handlers ++ (((Qemu.reserve input claimId (t.expiredAt s.clock)
      (t.deletedAt s.clock) (t.selectedAt s.clock) (t.leasedAt s.clock) s.db).toOption.bind (·.1)).map
        fun claim => (⟨input, claim, none⟩ : ClaimHandler)).toList := rfl
  have hturns : Turns s.db (s.reserve input claimId t).db :=
    (OtherOperation.kept s.service.scheduler (.reserve input claimId t.toExpiry t.toDelete t.toSelect t.toLease)).turns
  generalize hreserve : Qemu.reserve input claimId (t.expiredAt s.clock) (t.deletedAt s.clock) (t.selectedAt s.clock)
    (t.leasedAt s.clock) s.db = reserved at hdb hhandlers
  rcases reserved with e | ⟨answer, db⟩
  · refine .of_retains hturns (.of_eq (by rw [hdb]; rfl)) fun h hh => ?_
    rw [hhandlers] at hh
    exact ⟨h, by simpa [Except.toOption] using hh, rfl, rfl⟩
  · obtain ⟨hclaims, hanswer⟩ := reserve_requests hreserve
    refine ⟨hturns, ?_, ?_⟩
    · intro k requestId hk
      rw [hdb] at hk
      exact (hclaims k requestId hk).imp id fun hnew => by rw [hnew.1]
    · intro h hh
      rw [hhandlers] at hh
      rcases List.mem_append.mp hh with hh | hh
      · exact Or.inl ⟨h, hh, rfl, rfl⟩
      · right
        cases answer with
        | none => simp [Except.toOption] at hh
        | some claim =>
          rw [List.mem_singleton.mp hh, hdb]
          exact hanswer claim rfl

theorem Moves.trans_reserve {s'' : IssuanceState} (ht : Turns s.db s'.db) (hr : Retains s.db s'.db)
    (hh : ∀ h ∈ s'.handlers, h ∈ s.handlers) (h : Moves (some claimId) s' s'') : Moves (some claimId) s s'' where
  turns := ht.trans h.turns
  claims k requestId hk := (h.claims k requestId hk).imp (hr k requestId) id
  handlers x hx := (h.handlers x hx).imp (fun ⟨x', hx', he⟩ => ⟨x', hh x' hx', he⟩) id

theorem IssuanceState.apply_moves (s : IssuanceState) (action : IssuanceAction) : Moves action.draws s (s.apply action) := by
  have herase : ∀ i, ∀ h ∈ s.handlers.eraseIdx i, ∃ h' ∈ s.handlers, h'.claim = h.claim ∧ h'.input = h.input :=
    fun i h hh => ⟨h, List.mem_of_mem_eraseIdx hh, rfl, rfl⟩
  cases action with
  | claim input claimId t =>
    simp only [IssuanceState.apply]
    split
    · exact .reserve s input claimId t
    · exact .of_handlers rfl fun h hh => ⟨h, hh, rfl, rfl⟩
  | described handler descriptorDigest =>
    simp only [IssuanceState.apply]
    split
    · exact .of_handlers rfl fun h hh => ⟨h, hh, rfl, rfl⟩
    rename_i x hx
    split
    · refine .of_handlers rfl fun h hh => ?_
      rcases List.mem_or_eq_of_mem_set hh with hh | rfl
      · exact ⟨h, hh, rfl, rfl⟩
      · exact ⟨x, List.mem_of_getElem? hx, rfl, rfl⟩
    · exact .of_handlers rfl fun h hh => ⟨h, hh, rfl, rfl⟩
  | issue request descriptor uuid issuedAt =>
    simp only [IssuanceState.apply]
    split
    · exact .of_handlers rfl fun h hh => ⟨h, hh, rfl, rfl⟩
    · refine .of_handlers ?_ fun h hh => ⟨h, hh, rfl, rfl⟩
      show (s.service.withGit _).scheduler.db = _
      rw [ServiceState.withGit_scheduler]
      rfl
  | issued handler attempt elapsed crashed =>
    simp only [IssuanceState.apply]
    split
    · exact .of_handlers rfl fun h hh => ⟨h, hh, rfl, rfl⟩
    rename_i x hx
    split
    · rename_i hguard
      have hdb := ServiceState.activate_db s.service elapsed crashed hguard.2
      have hactivated : Moves none s { s with
          service := s.service.apply (.activate x.claim.claimId attempt elapsed crashed)
          handlers := s.handlers.eraseIdx handler
          issued := s.issued ++ [(x.claim.claimId, attempt)] } := by
        refine .of_retains ?_ ?_ (herase handler)
        · show Turns s.db (s.service.apply _).scheduler.db
          rw [hdb]
          exact apply_turns s.db (.activate _ _ _ _)
        · show Retains s.db (s.service.apply _).scheduler.db
          rw [hdb]
          exact @apply_retains s.db (.activate _ _ _ _) rfl
      split
      · exact ⟨hactivated.turns, hactivated.claims, fun h hh => by cases hh⟩
      · exact hactivated
    · exact .of_handlers rfl fun h hh => ⟨h, hh, rfl, rfl⟩
  | rejected handler claimId t =>
    simp only [IssuanceState.apply]
    split
    · exact .of_handlers rfl fun h hh => ⟨h, hh, rfl, rfl⟩
    rename_i x hx
    split
    · exact .of_handlers rfl (herase handler)
    rename_i db hdb
    have hsuperseded : (s.service.apply (.other (.supersedeReservation x.claim.claimId))).scheduler.db = db := by
      show (s.service.scheduler.commit _ (supersedeReservation x.claim.claimId s.db)).db = db
      rw [hdb]
      rfl
    refine .trans_reserve ?_ ?_ (fun h hh => List.mem_of_mem_eraseIdx hh) (.reserve _ x.input claimId t)
    · exact (OtherOperation.kept s.service.scheduler (.supersedeReservation x.claim.claimId)).turns
    · show Retains s.db (s.service.apply _).scheduler.db
      rw [hsuperseded]
      exact .supersedeReservation hdb
  | failed handler => exact .of_handlers rfl (herase handler)
  | other route =>
    have hcall := route.byCall s.service
    exact .of_retains hcall.turns (hcall.mono fun _ => Call.draws_of_stays).retains fun h hh => ⟨h, hh, rfl, rfl⟩
  | crash => exact .of_handlers rfl fun h hh => by cases hh

/-! ## A claim is answered to one request -/

structure RouteInv (s : RouteState) : Prop where
  claims : ∀ k requestId, s.issuance.db.reservedFor k = some requestId → k ∈ s.drawn
  handlers : ∀ h ∈ s.issuance.handlers, h.claim.claimId ∈ s.drawn ∧
    ∀ requestId, s.issuance.db.reservedFor h.claim.claimId = some requestId → requestId = h.input.requestId
  replies : ∀ r ∈ s.replies, s.issuance.db.answeredTo r.2.1.claimId = some r.1

theorem RouteInv.initial (clock : Int) : RouteInv (.initial clock) where
  claims k requestId hk := by cases hk
  handlers h hh := by cases hh
  replies r hr := by cases hr

variable {k requestId : String}

theorem SchedulerDatabase.answeredTo_eq_some :
    db.answeredTo k = some requestId ↔
      ∃ c, db.claims.get? k = some c ∧ c.state ≠ .reserved ∧ c.requestId = requestId := by
  simp only [SchedulerDatabase.answeredTo, Option.map_eq_some_iff, Option.filter_eq_some_iff, decide_eq_true_eq, and_assoc]

theorem Moves.answeredTo (h : Moves draws s s')
    (hk : draws ≠ some k) (ha : s.db.answeredTo k = some requestId) : s'.db.answeredTo k = some requestId := by
  obtain ⟨c, hc, hs, hrequest⟩ := SchedulerDatabase.answeredTo_eq_some.mp ha
  obtain ⟨c', hc', hf⟩ := h.turns.follows hc hs
  refine SchedulerDatabase.answeredTo_eq_some.mpr ⟨c', hc', hf.started, ?_⟩
  have hold := (h.claims k c'.requestId (by rw [SchedulerDatabase.reservedFor, hc']; rfl)).resolve_right hk
  rw [SchedulerDatabase.reservedFor, hc, Option.map_some, Option.some.injEq] at hold
  rw [← hold, hrequest]

theorem assignment_ok {hostId capacity : String} {claim : NativeQemuClaim}
    (h : assignment requestId hostId capacity db = .ok (some (claim, attempt))) :
    ∃ row, requestClaim requestId db = some row ∧ row.state = .active ∧ row.claimId = claim.claimId := by
  unfold assignment at h
  split at h
  · cases h
  rename_i row hrow
  by_cases hmatch : row.hostId ≠ hostId ∨ row.capacity ≠ capacity
  · rw [if_pos hmatch] at h
    cases h
  rw [if_neg hmatch] at h
  by_cases hactive : row.state = .active
  · refine ⟨row, hrow, hactive, ?_⟩
    rw [if_neg (not_not.mpr hactive)] at h
    split at h
    · cases h
    obtain ⟨answered, ha, h⟩ := bind_ok.mp h
    cases pure_ok.mp h
    unfold Qemu.claim at ha
    split at ha
    · cases ha
    · cases ha
      rfl
  · rw [if_pos hactive] at h
    cases h

/-- What is answered is the claim of the request, and it has left its reservation. -/
theorem RouteInv.reply {s : RouteState} (h : RouteInv s) {action : IssuanceAction} {requestId : String}
    {claim : NativeQemuClaim} {attempt : NativeQemuAttempt}
    (hr : s.issuance.reply action = some (requestId, claim, attempt)) :
    (s.issuance.apply action).db.answeredTo claim.claimId = some requestId := by
  cases action with
  | claim input claimId t =>
    simp only [IssuanceState.reply] at hr
    split at hr
    · rename_i answer hassigned
      cases hr
      have hsame : s.issuance.apply (.claim input claimId t) = s.issuance := by
        simp only [IssuanceState.apply, hassigned]
      rw [hsame]
      obtain ⟨row, hrow, hactive, hid⟩ := assignment_ok hassigned
      obtain ⟨hmem, hrequest⟩ := (Table.getBy_eq_some ClaimRow.unique_request).mp hrow
      refine SchedulerDatabase.answeredTo_eq_some.mpr ⟨row, hid ▸ Table.get?_of_mem hmem, ?_, hrequest⟩
      rw [hactive]
      decide
    · cases hr
  | issued handler issued elapsed crashed =>
    cases crashed with
    | true => cases hr
    | false =>
      simp only [IssuanceState.reply] at hr
      split at hr
      · cases hr
      rename_i x hx
      split at hr
      · rename_i hguard
        split at hr
        · rename_i db hactivated
          cases hr
          -- the row that is activated is the one of the handler's request
          obtain ⟨c, hc, -, -, -, hc', -⟩ := activateClaim_ok hactivated
          obtain ⟨db', hevent⟩ := activateEvent_total x.claim.claimId db
          have hdb : (s.issuance.apply (.issued handler attempt elapsed false)).db.claims = db.claims := by
            simp only [IssuanceState.apply, hx, if_pos hguard]
            show (s.issuance.service.apply (.activate x.claim.claimId attempt elapsed false)).scheduler.db.claims = _
            rw [ServiceState.activate_db s.issuance.service elapsed false hguard.2]
            have hactivated : activateClaim x.claim.claimId attempt (s.issuance.service.scheduler.clock + elapsed)
                s.issuance.service.scheduler.db = .ok db := hactivated
            simp only [SchedulerDatabase.activate, hactivated, hevent, SchedulerDatabase.commit]
            exact activateEvent_claims hevent
          refine SchedulerDatabase.answeredTo_eq_some.mpr ⟨_, by rw [hdb]; exact hc', by simp, ?_⟩
          exact (h.handlers x (List.mem_of_getElem? hx)).2 c.requestId (by rw [SchedulerDatabase.reservedFor, hc]; rfl)
        · cases hr
      · cases hr
  | described | issue | rejected | failed | other | crash => cases hr

/-- The claim of an answer stays with its request. -/
theorem RouteInv.answeredTo {s : RouteState} (h : RouteInv s) {action : IssuanceAction}
    (hnew : ∀ id, action.draws = some id → id ∉ s.drawn)
    (ha : s.issuance.db.answeredTo k = some requestId) : (s.apply action).issuance.db.answeredTo k = some requestId := by
  obtain ⟨c, hc, -, -⟩ := SchedulerDatabase.answeredTo_eq_some.mp ha
  refine (s.issuance.apply_moves action).answeredTo (fun hd => ?_) ha
  exact hnew _ hd (h.claims _ c.requestId (by rw [SchedulerDatabase.reservedFor, hc]; rfl))

theorem RouteInv.apply {s : RouteState} (h : RouteInv s) {action : IssuanceAction}
    (hnew : ∀ id, action.draws = some id → id ∉ s.drawn) : RouteInv (s.apply action) := by
  have hm := s.issuance.apply_moves action
  have hdrawn : ∀ k, k ∈ (s.apply action).drawn ↔ action.draws = some k ∨ k ∈ s.drawn := by
    intro k
    simp only [RouteState.apply, List.mem_append, Option.mem_toList]
  have hclaims : ∀ k requestId, (s.apply action).issuance.db.reservedFor k = some requestId →
      k ∈ (s.apply action).drawn := by
    intro k requestId hk
    rw [hdrawn]
    exact (hm.claims k requestId hk).elim (fun hold => Or.inr (h.claims k requestId hold)) Or.inl
  refine ⟨hclaims, ?_, ?_⟩
  · intro x hx
    rcases hm.handlers x hx with ⟨x', hx', hclaim, hinput⟩ | hclaim
    · obtain ⟨hmem, hrequest⟩ := h.handlers x' hx'
      rw [hclaim] at hmem hrequest
      rw [hinput] at hrequest
      refine ⟨(hdrawn _).mpr (Or.inr hmem), fun requestId hk => hrequest requestId ?_⟩
      exact (hm.claims _ requestId hk).resolve_right fun hd => hnew _ hd hmem
    · refine ⟨hclaims _ _ hclaim, fun requestId hk => ?_⟩
      have hk : (s.issuance.apply action).db.reservedFor x.claim.claimId = some requestId := hk
      rw [hclaim, Option.some.injEq] at hk
      exact hk.symm
  · rintro ⟨requestId, claim, attempt⟩ hr
    rcases List.mem_append.mp hr with hr | hr
    · exact h.reply (Option.mem_toList.mp hr)
    · exact h.answeredTo hnew (h.replies _ hr)

end Dim.Qemu
