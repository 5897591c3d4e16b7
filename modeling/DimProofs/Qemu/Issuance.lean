/-
The claim handler of the QEMU scheduler. It reserves an event, asks native Git for an attempt and
activates the claim with it; in between, other handlers may expire or supersede the reservation. The
handler sends no revocation, so an attempt is settled only by a claim that holds it.
-/
import DimProofs.Qemu.History

namespace Dim.Qemu

open Relational

/-! ## Handlers -/

/-- A handler of `/v1/qemu-host-claims` that awaits `authority.issue`: first the descriptor, and once
it has the descriptor's digest, the attempt. -/
structure ClaimHandler where
  input : ReservationInput
  claim : NativeQemuClaim
  descriptorDigest : Option String

/-- A request for an attempt that was sent to native Git. -/
structure IssuanceRequest where
  claim : NativeQemuClaim
  descriptorDigest : String

/-- `claim.claimId` is the issuance request's id. -/
def IssuanceRequest.input (request : IssuanceRequest) (descriptor : QemuExecutionDescriptor) :
    NativeQemuAuthorityState.IssueInput :=
  { issuanceRequestId := request.claim.claimId, reviewId := request.claim.event.reviewId, descriptor,
    descriptorDigest := request.descriptorDigest, hostId := request.claim.hostId, capacity := request.claim.capacity }

/-- The time before each reading of the clock in `reserve`. -/
structure Readings where
  (toExpiry toDelete toSelect toLease : Nat)

def Readings.expiredAt (t : Readings) (clock : Int) : Int := clock + t.toExpiry

def Readings.deletedAt (t : Readings) (clock : Int) : Int := t.expiredAt clock + t.toDelete

def Readings.selectedAt (t : Readings) (clock : Int) : Int := t.deletedAt clock + t.toSelect

def Readings.leasedAt (t : Readings) (clock : Int) : Int := t.selectedAt clock + t.toLease

/-! ## Runs -/

/-- The service with the claim handlers under way, the requests they sent, and the attempts they were given. -/
structure IssuanceState where
  service : ServiceState
  handlers : List ClaimHandler
  requests : List IssuanceRequest
  issued : List (String × NativeQemuAttempt)

def IssuanceState.initial (clock : Int) : IssuanceState :=
  { service := .initial clock, handlers := [], requests := [], issued := [] }

/-- What the other handlers and the reporter do. -/
inductive OtherRoute where
  | enqueue (event : NativeQemuReviewEvent) (eligibilityLeaseMilliseconds : Int) (uuid : String) (elapsed : Nat)
  | renew (claimId hostId capacity : String) (leaseMilliseconds : Int) (toLease toUpdate : Nat)
  | result (hostId : String) (request : ResultRequest) (elapsed : Nat)
  | recovery (hostId claimId capacity : String)
  | revoke (request : Nat) (revokedAt : String)
  | recoveryAnswered (handler : Nat) (acknowledged : Bool)
  | drain
  | report
  | lateReport (request : Nat)
  | reportAnswered (acknowledged : Bool) (elapsed : Nat)

def OtherRoute.action : OtherRoute → ServiceAction
  | .enqueue event eligibilityLeaseMilliseconds uuid elapsed =>
    .other (.enqueue event eligibilityLeaseMilliseconds uuid elapsed)
  | .renew claimId hostId capacity leaseMilliseconds toLease toUpdate =>
    .other (.renew claimId hostId capacity leaseMilliseconds toLease toUpdate)
  | .result hostId request elapsed => .result hostId request elapsed
  | .recovery hostId claimId capacity => .recovery hostId claimId capacity
  | .revoke request revokedAt => .revoke request revokedAt
  | .recoveryAnswered handler acknowledged => .recoveryAnswered handler acknowledged
  | .drain => .drain
  | .report => .report
  | .lateReport request => .lateReport request
  | .reportAnswered acknowledged elapsed => .reportAnswered acknowledged elapsed

inductive IssuanceAction where
  /-- A claim request arrives; `claimId` is the random UUID of its reservation. -/
  | claim (input : ReservationInput) (claimId : String) (readings : Readings)
  /-- A handler resumes with the digest of the descriptor, and sends for the attempt. -/
  | described (handler : Nat) (descriptorDigest : String)
  /-- Native Git answers a request for an attempt; `descriptor` is what it derives. -/
  | issue (request : Nat) (descriptor : QemuExecutionDescriptor) (uuid issuedAt : String)
  /-- A handler resumes with the attempt issued to it. -/
  | issued (handler : Nat) (attempt : NativeQemuAttempt) (elapsed : Nat) (crashed : Bool)
  /-- A handler resumes after a 404 or 409 of native Git. -/
  | rejected (handler : Nat) (claimId : String) (readings : Readings)
  /-- A handler resumes after any other error, which it throws. -/
  | failed (handler : Nat)
  | other (route : OtherRoute)
  | crash

namespace IssuanceState

def db (s : IssuanceState) : SchedulerDatabase := s.service.scheduler.db

def clock (s : IssuanceState) : Int := s.service.scheduler.clock

/-- One turn of the handler's loop, up to `authority.issue`. -/
def reserve (s : IssuanceState) (input : ReservationInput) (claimId : String) (t : Readings) : IssuanceState :=
  let reserved := Qemu.reserve input claimId (t.expiredAt s.clock) (t.deletedAt s.clock) (t.selectedAt s.clock)
    (t.leasedAt s.clock) s.db
  { s with
    service := s.service.apply (.other (.reserve input claimId t.toExpiry t.toDelete t.toSelect t.toLease))
    handlers := s.handlers ++ ((reserved.toOption.bind (·.1)).map fun claim => ⟨input, claim, none⟩).toList }

def crash (s : IssuanceState) : IssuanceState := { s with service := s.service.apply .crash, handlers := [] }

def apply (s : IssuanceState) : IssuanceAction → IssuanceState
  | .claim input claimId t =>
    match assignment input.requestId input.hostId input.capacity s.db with
    | .ok none => s.reserve input claimId t
    | _ => s
  | .described handler descriptorDigest =>
    match s.handlers[handler]? with
    | none => s
    | some h =>
      if h.descriptorDigest.isNone then
        { s with
          handlers := s.handlers.set handler { h with descriptorDigest := some descriptorDigest }
          requests := s.requests ++ [⟨h.claim, descriptorDigest⟩] }
      else s
  | .issue request descriptor uuid issuedAt =>
    match s.requests[request]? with
    | none => s
    | some r => { s with service := s.service.apply (.issue (r.input descriptor) uuid issuedAt) }
  | .issued handler attempt elapsed crashed =>
    match s.handlers[handler]? with
    | none => s
    | some h =>
      if h.descriptorDigest = some attempt.descriptorDigest ∧ s.service.git.issuedFor h.claim.claimId attempt then
        let resumed : IssuanceState :=
          { s with
            service := s.service.apply (.activate h.claim.claimId attempt elapsed crashed)
            handlers := s.handlers.eraseIdx handler
            issued := s.issued ++ [(h.claim.claimId, attempt)] }
        if crashed then resumed.crash else resumed
      else s
  | .rejected handler claimId t =>
    match s.handlers[handler]? with
    | none => s
    | some h =>
      let resumed : IssuanceState := { s with handlers := s.handlers.eraseIdx handler }
      match Qemu.supersedeReservation h.claim.claimId s.db with
      | .error _ => resumed
      | .ok _ =>
        { resumed with service := s.service.apply (.other (.supersedeReservation h.claim.claimId)) }.reserve
          h.input claimId t
  | .failed handler => { s with handlers := s.handlers.eraseIdx handler }
  | .other route => { s with service := s.service.apply route.action }
  | .crash => s.crash

def run (s : IssuanceState) (actions : List IssuanceAction) : IssuanceState := actions.foldl apply s

end IssuanceState

/-! ## Settled attempts -/

/-- The claim was activated with the attempt. -/
def Activated (db : SchedulerDatabase) (claimId : String) (attempt : NativeQemuAttempt) : Prop :=
  ∃ c, db.claims.get? claimId = some c ∧ c.state ≠ .reserved ∧ c.attempt = some attempt

/-- Every attempt given to a claim handler is activated on its claim, and no attempt is live whose claim is gone. -/
structure Settled (s : IssuanceState) : Prop where
  activated : ∀ i ∈ s.issued, Activated s.db i.1 i.2
  live : ∀ r ∈ s.service.git.attempts.rows, r.revokedAt = none → (s.db.claims.get? r.issuanceRequestId).isSome

/-- The claim has an attempt that is not revoked. -/
def NativeQemuAuthorityState.live (claimId : String) (state : NativeQemuAuthorityState) : Bool :=
  state.attempts.any fun r => r.issuanceRequestId = claimId && r.revokedAt.isNone

/-- The condition on a reservation: no claim that it expires has a live attempt. -/
def IssuanceState.Expires (s : IssuanceState) (t : Readings) : Prop :=
  ∀ c ∈ s.db.claims.rows, c.lapsed (t.deletedAt s.clock) = true → s.service.git.live c.claimId = false

/-- The claim is reserved and unexpired, or it was activated with this attempt. -/
def Activatable (db : SchedulerDatabase) (claimId : String) (attempt : NativeQemuAttempt) (now : Int) : Prop :=
  ∃ c ∈ db.claims.rows, c.claimId = claimId ∧
    (c.state = .reserved ∧ now < c.leaseExpiresAt ∨ c.state ≠ .reserved ∧ c.attempt = some attempt)

/-- The condition on one action. Native Git issues an attempt while its claim exists, or the job has a current
attempt and none is issued. A handler that is given an attempt finds its claim reserved and unexpired, or
activated with this attempt. A reservation expires, and a rejection supersedes, no claim with a live attempt. -/
def IssuanceState.Steady (s : IssuanceState) : IssuanceAction → Prop
  | .claim input _ t => assignment input.requestId input.hostId input.capacity s.db = .ok none → s.Expires t
  | .issue request descriptor _ _ => ∀ r ∈ s.requests[request]?, (s.db.claims.get? r.claim.claimId).isSome ∨
    (s.service.git.current r.claim.event.reviewId descriptor.jobName).isSome
  | .issued handler attempt elapsed _ => ∀ h ∈ s.handlers[handler]?,
    Activatable s.db h.claim.claimId attempt (s.clock + elapsed)
  | .rejected handler _ t => ∀ h ∈ s.handlers[handler]?,
    ((s.db.claims.get? h.claim.claimId).any fun c => c.state = .reserved) = true →
      s.service.git.live h.claim.claimId = false ∧ s.Expires t
  | _ => True

def SteadyIssuance : IssuanceState → List IssuanceAction → Prop :=
  Transition.Along IssuanceState.apply IssuanceState.Steady

instance (db : SchedulerDatabase) (claimId : String) (attempt : NativeQemuAttempt) (now : Int) :
    Decidable (Activatable db claimId attempt now) :=
  inferInstanceAs (Decidable (∃ c ∈ db.claims.rows, _))

instance (s : IssuanceState) (t : Readings) : Decidable (s.Expires t) :=
  inferInstanceAs (Decidable (∀ c ∈ s.db.claims.rows, _))

instance (s : IssuanceState) : ∀ action, Decidable (s.Steady action)
  | .claim _ _ t => inferInstanceAs (Decidable (assignment _ _ _ s.db = .ok none → s.Expires t))
  | .issue request _ _ _ => inferInstanceAs (Decidable (∀ r ∈ s.requests[request]?, _))
  | .issued handler _ _ _ => inferInstanceAs (Decidable (∀ h ∈ s.handlers[handler]?, _))
  | .rejected handler _ _ => inferInstanceAs (Decidable (∀ h ∈ s.handlers[handler]?, _))
  | .described _ _ | .failed _ | .other _ | .crash => inferInstanceAs (Decidable True)

instance (s : IssuanceState) (actions : List IssuanceAction) : Decidable (SteadyIssuance s actions) :=
  inferInstanceAs (Decidable (Transition.Along _ _ s actions))

/-! ## Claims that stay -/

/-- No claim is deleted. -/
def ClaimsStay (db db' : SchedulerDatabase) : Prop := ∀ k, (db.claims.get? k).isSome → (db'.claims.get? k).isSome

theorem ClaimsStay.refl (db : SchedulerDatabase) : ClaimsStay db db := fun _ h => h

variable {db' : SchedulerDatabase}

theorem ClaimsStay.trans {db db'' : SchedulerDatabase} (h : ClaimsStay db db') (h' : ClaimsStay db' db'') :
    ClaimsStay db db'' := fun k hk => h' k (h k hk)

theorem ClaimsStay.of_eq {db db' : SchedulerDatabase} (h : db'.claims = db.claims) : ClaimsStay db db' := by
  intro k hk
  rw [h]
  exact hk

theorem ClaimsStay.of_update {p : ClaimRow → Bool} {f : ClaimRow → ClaimRow} {db db' : SchedulerDatabase}
    (h : db.claims.update (ε := SchedulerStoreError) p f = .ok db'.claims) (hf : ∀ c, (f c).claimId = c.claimId) :
    ClaimsStay db db' := by
  intro k hk
  rw [Table.isSome_update h hf]
  exact hk

theorem ClaimsStay.setEventState {state : EventState} {eventId : String} {db : SchedulerDatabase}
    (h : Qemu.setEventState state eventId db = .ok db') : ClaimsStay db db' := .of_eq (setEventState_ok h).1

variable {claimId : String}

theorem ClaimsStay.setClaimState {state : ClaimState} {db : SchedulerDatabase}
    (h : Qemu.setClaimState state claimId db = .ok db') : ClaimsStay db db' := by
  unfold Qemu.setClaimState at h
  obtain ⟨claims, hu, h⟩ := bind_ok.mp h
  cases pure_ok.mp h
  exact .of_update hu fun _ => rfl

variable {now : Int}

theorem ClaimsStay.enqueue {event : NativeQemuReviewEvent} {lease : Int} {uuid : String}
    {db : SchedulerDatabase} {intake : NativeQemuIntake}
    (h : Qemu.enqueue event lease uuid now db = .ok (intake, db')) : ClaimsStay db db' := by
  unfold Qemu.enqueue at h
  split at h
  · cases h
  obtain ⟨db₁, hu, h⟩ := bind_ok.mp h
  obtain ⟨-, hclaims⟩ := upsertEligibility_ok hu
  obtain ⟨events, -, h⟩ := bind_ok.mp h
  split at h
  · split at h
    · cases h
    · cases pure_ok.mp h
      exact .of_eq hclaims
  · obtain ⟨events', -, h⟩ := bind_ok.mp h
    cases pure_ok.mp h
    exact .of_eq hclaims

variable {hostId : String} {input : ReservationInput}

theorem ClaimsStay.renew {claimId capacity : String} {lease leasedAt now answer : Int} {db db' : SchedulerDatabase}
    (h : Qemu.renew claimId hostId capacity lease leasedAt now db = .ok (answer, db')) : ClaimsStay db db' := by
  unfold Qemu.renew at h
  obtain ⟨claims, hu, h⟩ := bind_ok.mp h
  split at h
  · cases h
  · cases pure_ok.mp h
    exact .of_update hu fun _ => rfl

theorem ClaimsStay.activateClaim {db : SchedulerDatabase} {attempt : NativeQemuAttempt}
    (h : Qemu.activateClaim claimId attempt now db = .ok db') : ClaimsStay db db' := by
  unfold Qemu.activateClaim at h
  obtain ⟨claims, hu, h⟩ := bind_ok.mp h
  split at h
  · cases h
  · cases pure_ok.mp h
    exact .of_update hu fun _ => rfl

theorem ClaimsStay.activateEvent {db : SchedulerDatabase} (h : Qemu.activateEvent claimId db = .ok db') :
    ClaimsStay db db' := by
  obtain ⟨events, -, h⟩ := bind_ok.mp h
  cases pure_ok.mp h
  exact .of_eq rfl

theorem ClaimsStay.recordResult {input : NativeQemuCompletion} {answer : Recorded} {db : SchedulerDatabase}
    (h : Qemu.recordResult input now db = .ok (answer, db')) : ClaimsStay db db' := by
  rcases recordResult_ok h with ⟨-, rfl⟩ | ⟨-, c, -, -, -, -, hu, -⟩
  · exact .refl _
  · exact .of_update hu fun _ => rfl

theorem ClaimsStay.acknowledgeResult {db : SchedulerDatabase}
    (h : Qemu.acknowledgeResult claimId now db = .ok db') : ClaimsStay db db' := by
  rcases acknowledgeResult_ok h with rfl | ⟨c, db₁, db₂, -, -, -, hclaim, hevent, hdb, -⟩
  · exact .refl _
  · refine ((ClaimsStay.setClaimState hclaim).trans (.setEventState hevent)).trans (.of_eq ?_)
    rw [hdb]

theorem ClaimsStay.recover {capacity : String} {db : SchedulerDatabase}
    (h : Qemu.recover claimId hostId capacity db = .ok db') : ClaimsStay db db' := by
  rcases recover_ok h with ⟨rfl, -⟩ | ⟨c, db₁, -, -, hclaim, hevent⟩
  · exact .refl _
  · exact (ClaimsStay.setClaimState hclaim).trans (.setEventState hevent)

/-- The calls that delete reservations. -/
def Call.deletes : Call → Bool
  | .reserve _ _ _ _ _ _ | .supersedeReservation _ | .expireClaims _ _ => true
  | .enqueue _ _ _ _ | .activate _ _ _ _ | .renew _ _ _ _ _ _ | .recordResult _ _ | .acknowledgeResult _ _ | .recover _
      _ _ =>
    false

theorem apply_claimsStay (db : SchedulerDatabase) {call : Call} (h : call.deletes = false) :
    ClaimsStay db (db.apply call) := by
  have hleaves := db.apply_leaves call
  generalize db.apply call = db' at hleaves ⊢
  cases hleaves with
  | failed => exact .refl _
  | enqueue hok => exact .enqueue hok
  | claimed hok => exact .activateClaim hok
  | activated hok hevent => exact (ClaimsStay.activateClaim hok).trans (.activateEvent hevent)
  | renew hok => exact .renew hok
  | recordResult hok => exact .recordResult hok
  | acknowledgeResult hok => exact .acknowledgeResult hok
  | recover hok => exact .recover hok
  | reserve | supersedeReservation | expireClaims => cases h

/-! ## The calls of the service -/

theorem results_ok {request : ResultRequest} {statusCode : Nat} {db : SchedulerDatabase}
    (h : results hostId request now db = .ok (statusCode, db')) :
    db' = db ∨ ∃ input answer, recordResult input now db = .ok (answer, db') := by
  unfold results at h
  obtain ⟨owned?, -, h⟩ := bind_ok.mp h
  split at h
  · cases pure_ok.mp h
    exact Or.inl rfl
  split at h
  · cases pure_ok.mp h
    exact Or.inl rfl
  split at h
  · cases pure_ok.mp h
    exact Or.inl rfl
  split at h
  · cases pure_ok.mp h
    exact Or.inl rfl
  obtain ⟨⟨recorded, db₁⟩, hr, h⟩ := bind_ok.mp h
  cases pure_ok.mp h
  exact Or.inr ⟨_, recorded, hr⟩


/-- The transition is one call of the store, or none. -/
def ByCall (p : Call → Prop) (db db' : SchedulerDatabase) : Prop := db' = db ∨ ∃ call, p call ∧ db' = db.apply call

theorem ByCall.commit {p : Call → Prop} {s : SchedulerState} {clock : Int} {call : Call}
    {body : Except SchedulerStoreError SchedulerDatabase} (hp : p call)
    (h : ∀ db, body = .ok db → db = s.db.apply call) : ByCall p s.db (s.commit clock body).db := by
  cases body with
  | error e => exact Or.inl rfl
  | ok db => exact Or.inr ⟨call, hp, h db rfl⟩

theorem ServiceState.withGit_scheduler (s : ServiceState) (git : Except AuthorityStateError NativeQemuAuthorityState) :
    (s.withGit git).scheduler = s.scheduler := by
  cases git <;> rfl

/-- The other handlers and the reporter make calls that delete nothing. -/
theorem OtherRoute.byCall (s : ServiceState) (route : OtherRoute) :
    ByCall (·.deletes = false) s.scheduler.db (s.apply route.action).scheduler.db := by
  cases route with
  | enqueue event lease uuid elapsed =>
    exact Or.inr ⟨.enqueue event lease uuid (s.scheduler.clock + elapsed), rfl, SchedulerState.apply_db _ _⟩
  | renew claimId hostId capacity lease toLease toUpdate =>
    exact Or.inr ⟨.renew claimId hostId capacity lease (s.scheduler.clock + toLease)
      (s.scheduler.clock + toLease + toUpdate), rfl, SchedulerState.apply_db _ _⟩
  | result hostId request elapsed =>
    simp only [OtherRoute.action, ServiceState.apply]
    generalize hbody : results hostId request (s.scheduler.clock + elapsed) s.scheduler.db = body
    rcases body with e | ⟨statusCode, db⟩
    · exact Or.inl rfl
    rcases results_ok hbody with rfl | ⟨input, answer, hr⟩
    · exact Or.inl rfl
    · refine Or.inr ⟨.recordResult input (s.scheduler.clock + elapsed), rfl, ?_⟩
      simp only [SchedulerDatabase.apply, hr]
      rfl
  | recovery hostId claimId capacity =>
    simp only [OtherRoute.action, ServiceState.apply]
    split
    · exact Or.inl rfl
    · exact Or.inl rfl
  | revoke request revokedAt =>
    simp only [OtherRoute.action, ServiceState.apply]
    split
    · exact Or.inl rfl
    · exact Or.inl (by rw [ServiceState.withGit_scheduler])
  | recoveryAnswered handler acknowledged =>
    simp only [OtherRoute.action, ServiceState.apply]
    split
    · exact Or.inl rfl
    rename_i r _
    split
    · split
      · refine @ByCall.commit _ _ _ (.recover r.claim.claimId r.hostId r.claim.capacity) _ rfl fun db hdb => ?_
        exact (congrArg s.scheduler.db.commit hdb).symm
      · exact Or.inl rfl
    · exact Or.inl rfl
  | drain =>
    simp only [OtherRoute.action, ServiceState.apply]
    split
    · exact Or.inl rfl
    · exact Or.inl rfl
  | report =>
    simp only [OtherRoute.action, ServiceState.apply]
    split
    · exact Or.inl rfl
    split
    · exact Or.inl rfl
    · exact Or.inl rfl
  | lateReport request =>
    simp only [OtherRoute.action, ServiceState.apply]
    split
    · exact Or.inl rfl
    · exact Or.inl (by rw [ServiceState.withGit_scheduler])
  | reportAnswered acknowledged elapsed =>
    simp only [OtherRoute.action, ServiceState.apply]
    split
    · exact Or.inl rfl
    rename_i d _
    split
    · split
      · split
        · rename_i db hdb
          refine Or.inr ⟨.acknowledgeResult d.report.claim.claimId (s.scheduler.clock + elapsed), rfl, ?_⟩
          exact (congrArg s.scheduler.db.commit hdb).symm
        · exact Or.inl rfl
      · exact Or.inl rfl
    · exact Or.inl rfl

theorem SchedulerState.apply_turns (s : SchedulerState) (operation : Operation) : Turns s.db (s.apply operation).db := by
  rw [SchedulerState.apply_db]
  exact Qemu.apply_turns s.db (operation.call s.clock)

theorem SchedulerState.apply_claimsStay (s : SchedulerState) {operation : Operation}
    (h : (operation.call s.clock).deletes = false) : ClaimsStay s.db (s.apply operation).db := by
  rw [SchedulerState.apply_db]
  exact Qemu.apply_claimsStay s.db h

theorem ByCall.turns {p : Call → Prop} {db db' : SchedulerDatabase} (h : ByCall p db db') : Turns db db' := by
  rcases h with rfl | ⟨call, -, rfl⟩
  · exact .refl _
  · exact apply_turns db call

theorem ByCall.claimsStay {db db' : SchedulerDatabase} (h : ByCall (·.deletes = false) db db') : ClaimsStay db db' := by
  rcases h with rfl | ⟨call, hcall, rfl⟩
  · exact .refl _
  · exact apply_claimsStay db hcall

/-! ## Reservations that are deleted -/

/-- A reservation deletes the claims that have lapsed. -/
theorem reserve_stays {t₁ t₂ t₃ t₄ : Int}
    {answer : Option NativeQemuClaim} {db : SchedulerDatabase}
    (h : reserve input claimId t₁ t₂ t₃ t₄ db = .ok (answer, db')) {k : String} {c : ClaimRow}
    (hc : db.claims.get? k = some c) (hlapsed : c.lapsed t₂ = false) : (db'.claims.get? k).isSome := by
  obtain ⟨db₁, he, hcases⟩ := reserve_ok h
  have hexpired : (db₁.claims.get? k).isSome := by
    unfold expireClaims at he
    obtain ⟨events, -, he⟩ := bind_ok.mp he
    cases deleteClaims_ok he
    show ((db.claims.delete _).get? k).isSome = true
    rw [Table.get?_delete, hc]
    simp [Option.filter, hlapsed]
  rcases hcases with ⟨rfl, -⟩ | ⟨-, hr⟩
  · exact hexpired
  rcases reserveNext_ok hr with rfl | ⟨e, db₂, -, hi, hs⟩
  · exact hexpired
  refine ClaimsStay.setEventState hs k ?_
  unfold insertClaim at hi
  obtain ⟨-, -, hi⟩ := bind_ok.mp hi
  obtain ⟨claims, hins, hi⟩ := bind_ok.mp hi
  cases pure_ok.mp hi
  exact Table.isSome_insert hins hexpired

/-- A supersession deletes the claim it names. -/
theorem supersede_stays {db : SchedulerDatabase} (h : supersedeReservation claimId db = .ok db') :
    (db.claims.get? claimId).any (fun c => c.state = .reserved) = true ∧
      ∀ k, k ≠ claimId → db'.claims.get? k = db.claims.get? k := by
  unfold supersedeReservation at h
  split at h
  · cases h
  rename_i c hfound
  obtain ⟨hc, hs⟩ := Option.filter_eq_some_iff.mp hfound
  obtain ⟨db₁, hevent, h⟩ := bind_ok.mp h
  cases deleteClaims_ok h
  refine ⟨by rw [hc]; exact hs, ?_⟩
  intro k hk
  show (db₁.claims.delete _).get? k = _
  rw [Table.get?_delete, (setEventState_ok hevent).1]
  rcases hg : db.claims.get? k with _ | d
  · rfl
  · have hd : d.claimId = k := Table.get?_key hg
    simp [Option.filter, hd, hk]

/-! ## Live attempts -/

variable {git : NativeQemuAuthorityState}

theorem NativeQemuAuthorityState.live_eq_false
    (h : git.live claimId = false) : ∀ r ∈ git.attempts.rows, r.revokedAt = none → r.issuanceRequestId ≠ claimId := by
  rintro r hr hlive rfl
  have hrow := Table.any_eq_false.mp h r hr
  simp [hlive] at hrow

/-- No attempt became live. -/
def NoneIssued (git git' : NativeQemuAuthorityState) : Prop :=
  ∀ r ∈ git'.attempts.rows, r.revokedAt = none → r ∈ git.attempts.rows

variable {git' : NativeQemuAuthorityState}

theorem NoneIssued.of_eq (h : git'.attempts = git.attempts) :
    NoneIssued git git' := by
  intro r hr _
  rw [← h]
  exact hr

theorem NoneIssued.revoke {reviewId jobName attemptId revokedAt : String}
    (h : git.revoke reviewId jobName attemptId revokedAt = .ok git') : NoneIssued git git' := by
  unfold NativeQemuAuthorityState.revoke at h
  split at h
  · cases h
  split at h
  · cases pure_ok.mp h
    exact .of_eq rfl
  obtain ⟨attempts, hu, h⟩ := bind_ok.mp h
  cases pure_ok.mp h
  intro r hr hlive
  obtain ⟨q, hq, rfl⟩ := List.mem_map.mp (Table.update_rows hu ▸ hr)
  unfold Table.updated at hlive ⊢
  split at hlive
  · cases hlive
  · rename_i hother
    rw [if_neg hother]
    exact hq

theorem NoneIssued.withGit {s : ServiceState} {git : Except AuthorityStateError NativeQemuAuthorityState}
    (h : ∀ git', git = .ok git' → NoneIssued s.git git') : NoneIssued s.git (s.withGit git).git := by
  cases git with
  | error e => exact .of_eq rfl
  | ok git' => exact h git' rfl

theorem OtherRoute.noneIssued (s : ServiceState) (route : OtherRoute) :
    NoneIssued s.git (s.apply route.action).git := by
  cases route with
  | revoke request revokedAt =>
    simp only [OtherRoute.action, ServiceState.apply]
    split
    · exact .of_eq rfl
    · exact .withGit fun git' hgit => .revoke hgit
  | lateReport request =>
    simp only [OtherRoute.action, ServiceState.apply]
    split
    · exact .of_eq rfl
    · exact .withGit fun git' hgit => .of_eq (qemuStatuses_attempts hgit)
  | report =>
    simp only [OtherRoute.action, ServiceState.apply]
    split
    · exact .of_eq rfl
    split
    · exact .of_eq (qemuStatuses_attempts ‹_›)
    · exact .of_eq rfl
  | enqueue event lease uuid elapsed => exact .of_eq rfl
  | renew claimId hostId capacity lease toLease toUpdate => exact .of_eq rfl
  | result hostId request elapsed => exact .of_eq rfl
  | recovery hostId claimId capacity =>
    simp only [OtherRoute.action, ServiceState.apply]
    split <;> exact .of_eq rfl
  | recoveryAnswered handler acknowledged =>
    simp only [OtherRoute.action, ServiceState.apply]
    split
    · exact .of_eq rfl
    split
    · split <;> exact .of_eq rfl
    · exact .of_eq rfl
  | drain =>
    simp only [OtherRoute.action, ServiceState.apply]
    split <;> exact .of_eq rfl
  | reportAnswered acknowledged elapsed =>
    simp only [OtherRoute.action, ServiceState.apply]
    split
    · exact .of_eq rfl
    split
    · split
      · split <;> exact .of_eq rfl
      · exact .of_eq rfl
    · exact .of_eq rfl

/-- Native Git issues the attempt that is asked for, when its job has no current one. -/
theorem issue_live {input : NativeQemuAuthorityState.IssueInput} {uuid issuedAt : String}
    {record : NativeQemuAttemptRecord}
    (h : git.issue input uuid issuedAt = .ok (record, git')) :
    NoneIssued git git' ∨ (git.current input.reviewId input.descriptor.jobName).isSome = false ∧
      ∀ r ∈ git'.attempts.rows, r ∈ git.attempts.rows ∨ r.issuanceRequestId = input.issuanceRequestId := by
  unfold NativeQemuAuthorityState.issue at h
  split at h
  · split at h
    · cases pure_ok.mp h
      exact Or.inl (.of_eq rfl)
    · cases h
  split at h
  · cases h
  rename_i hfree
  obtain ⟨attempts, hi, h⟩ := bind_ok.mp h
  cases pure_ok.mp h
  refine Or.inr ⟨by simpa using hfree, ?_⟩
  intro r hr
  rw [Table.insert_rows hi] at hr
  rcases List.mem_append.mp hr with hr | hr
  · exact Or.inl hr
  · rw [List.mem_singleton.mp hr]
    exact Or.inr rfl

/-! ## Steps -/

theorem Activated.turns {db : SchedulerDatabase} {attempt : NativeQemuAttempt}
    (h : Activated db claimId attempt) (ht : Turns db db') : Activated db' claimId attempt := by
  obtain ⟨c, hc, hs, ha⟩ := h
  obtain ⟨c', hc', hf⟩ := ht.follows hc hs
  exact ⟨c', hc', hf.started, hf.attempt.trans ha⟩

/-- A step that gives no handler an attempt. -/
theorem Settled.step {s s' : IssuanceState} (h : Settled s) (hissued : s'.issued = s.issued) (ht : Turns s.db s'.db)
    (hlive : ∀ r ∈ s'.service.git.attempts.rows, r.revokedAt = none → (s'.db.claims.get? r.issuanceRequestId).isSome) :
    Settled s' := by
  refine ⟨?_, hlive⟩
  rw [hissued]
  exact fun i hi => (h.activated i hi).turns ht

variable {s : IssuanceState}

/-- A step that deletes no claim and issues no attempt. -/
theorem Settled.stay {s' : IssuanceState} (h : Settled s) (hissued : s'.issued = s.issued) (ht : Turns s.db s'.db)
    (hstay : ClaimsStay s.db s'.db) (hgit : NoneIssued s.service.git s'.service.git) : Settled s' :=
  h.step hissued ht fun r hr hlive => hstay _ (h.live r (hgit r hr hlive) hlive)

theorem Settled.initial (clock : Int) : Settled (.initial clock) :=
  ⟨fun i hi => (by cases hi), fun r hr => (by cases hr)⟩

theorem Settled.crash {s : IssuanceState} (h : Settled s) : Settled s.crash :=
  h.stay rfl (.refl _) (.refl _) (.of_eq rfl)

theorem Settled.handlers {s : IssuanceState} (h : Settled s) (handlers : List ClaimHandler)
    (requests : List IssuanceRequest) : Settled { s with handlers, requests } :=
  h.stay rfl (.refl _) (.refl _) (.of_eq rfl)

theorem Settled.reserve (h : Settled s) {t : Readings}
    (hexpires : s.Expires t) : Settled (s.reserve input claimId t) := by
  refine h.step rfl (OtherOperation.kept s.service.scheduler _).turns ?_
  intro r hr hlive
  obtain ⟨c, hc⟩ := Option.isSome_iff_exists.mp (h.live r hr hlive)
  refine SchedulerState.commit_db (s := s.service.scheduler)
    (P := fun db => (db.claims.get? r.issuanceRequestId).isSome) (h.live r hr hlive) ?_
  intro db hdb
  obtain ⟨answer, hok⟩ := map_snd_ok hdb
  refine reserve_stays hok hc ?_
  show c.lapsed (t.deletedAt s.clock) = false
  by_contra hlapsed
  have hgone := hexpires c (Table.get?_mem hc) (by simpa using hlapsed)
  exact NativeQemuAuthorityState.live_eq_false hgone r hr hlive (Table.get?_key hc).symm

/-- The first statement of `activate` succeeds on an unexpired reservation. -/
theorem activateClaim_of {attempt : NativeQemuAttempt} {db : SchedulerDatabase}
    {c : ClaimRow} (hc : c ∈ db.claims.rows) (hid : c.claimId = claimId) (hs : c.state = .reserved)
    (hlease : now < c.leaseExpiresAt) : ∃ db', activateClaim claimId attempt now db = .ok db' := by
  have hself : ∀ d ∈ db.claims.rows, (d.claimId = claimId && d.state = .reserved && now < d.leaseExpiresAt) = true →
      d = c := by
    intro d hd hp
    simp only [Bool.and_eq_true, decide_eq_true_eq] at hp
    exact Table.eq_of_conflict _ hd hc (conflict_of_key (hp.1.1.trans hid.symm))
  obtain ⟨claims, hu⟩ := Table.update_one_of (ε := SchedulerStoreError) (f := fun c : ClaimRow =>
    { c with state := .active, attemptId := some attempt.attemptId, descriptorDigest := some attempt.descriptorDigest,
             attempt := some attempt }) hself rfl (by
      rintro d - (hkey | hclash | hclash)
      · exact conflict_of_key hkey
      · exact conflict_of_clash (by simpa [Schema.clash, hs, ClaimState.held] using hclash)
      · exact (conflict_of_clash (by simpa [Schema.clash, hs, ClaimState.held] using hclash)).symm)
  unfold activateClaim
  simp only
  rw [hu, Table.count_of_mem hc (by simp [hid, hs, hlease]) hself]
  exact ⟨_, rfl⟩

theorem Activatable.activate {s : SchedulerState} {attempt : NativeQemuAttempt}
    (h : Activatable s.db claimId attempt now) (crashed : Bool) :
    Activated (s.activate claimId attempt now crashed).db claimId attempt := by
  obtain ⟨c, hc, hid, hcases⟩ := h
  have hget : s.db.claims.get? claimId = some c := hid ▸ Table.get?_of_mem hc
  rcases hcases with ⟨hs, hlease⟩ | ⟨hs, ha⟩
  · obtain ⟨db, hok⟩ : ∃ db', activateClaim claimId attempt now s.db = .ok db' := activateClaim_of hc hid hs hlease
    obtain ⟨d, -, -, -, -, hd, -⟩ := activateClaim_ok hok
    have hfirst : Activated db claimId attempt := ⟨_, hd, by simp, rfl⟩
    unfold SchedulerState.activate
    rw [hok]
    simp only
    split
    · exact hfirst
    · exact SchedulerState.commit_db hfirst fun db' hevent => hfirst.turns (KeptAll.activateEvent hevent).turns
  · -- a repeated activation is refused
    unfold SchedulerState.activate
    split
    · exact ⟨c, hget, hs, ha⟩
    · rename_i db hok
      obtain ⟨d, hd, hreserved, -⟩ := activateClaim_ok hok
      rw [hget] at hd
      cases hd
      exact absurd hreserved hs

/-- A handler that is given an attempt activates its claim. -/
theorem Settled.issued {s : IssuanceState} (h : Settled s) (handlers : List ClaimHandler) {claimId : String}
    {attempt : NativeQemuAttempt} {elapsed : Nat} (ha : Activatable s.db claimId attempt (s.clock + elapsed))
    (hgit : s.service.git.issuedFor claimId attempt = true) (crashed : Bool) :
    Settled { s with
      service := s.service.apply (.activate claimId attempt elapsed crashed)
      handlers
      issued := s.issued ++ [(claimId, attempt)] } := by
  have happly : s.service.apply (.activate claimId attempt elapsed crashed) =
      { s.service with scheduler := s.service.scheduler.apply (.activate claimId attempt elapsed crashed) } := by
    simp only [ServiceState.apply]
    rw [if_pos hgit]
  rw [happly]
  have hturns := SchedulerState.apply_turns s.service.scheduler (.activate claimId attempt elapsed crashed)
  have hstay := @SchedulerState.apply_claimsStay s.service.scheduler (.activate claimId attempt elapsed crashed) rfl
  constructor
  · intro i hi
    rcases List.mem_append.mp hi with hi | hi
    · exact (h.activated i hi).turns hturns
    · rw [List.mem_singleton.mp hi]
      exact ha.activate crashed
  · exact fun r hr hlive => hstay _ (h.live r hr hlive)

/-- A handler whose request was rejected gives its reservation up and reserves again. -/
theorem Settled.rejected (h : Settled s) {superseded : String}
    {t : Readings} {db : SchedulerDatabase} (hdb : supersedeReservation superseded s.db = .ok db)
    (hlive : s.service.git.live superseded = false) (hexpires : s.Expires t) :
    Settled ({ s with service := s.service.apply (.other (.supersedeReservation superseded)) }.reserve input claimId t) := by
  have hcommit : (s.service.apply (.other (.supersedeReservation superseded))).scheduler = ⟨db, s.clock⟩ := by
    show s.service.scheduler.commit _ (supersedeReservation superseded s.db) = _
    rw [hdb]
    rfl
  obtain ⟨-, hother⟩ := supersede_stays hdb
  refine Settled.reserve ?_ ?_
  · refine h.step rfl (OtherOperation.kept s.service.scheduler (.supersedeReservation superseded)).turns ?_
    intro r hr hrevoked
    have hne := NativeQemuAuthorityState.live_eq_false hlive r hr hrevoked
    show ((s.service.apply _).scheduler.db.claims.get? _).isSome = true
    rw [hcommit, hother _ hne]
    exact h.live r hr hrevoked
  · intro c hc hlapsed
    have hc : c ∈ (s.service.apply (.other (.supersedeReservation superseded))).scheduler.db.claims.rows := hc
    have hlapsed : c.lapsed (t.deletedAt
      (s.service.apply (.other (.supersedeReservation superseded))).scheduler.clock) = true :=
      hlapsed
    rw [hcommit] at hc hlapsed
    by_cases hid : c.claimId = superseded
    · rw [hid]
      exact hlive
    · have hget : db.claims.get? c.claimId = some c := Table.get?_of_mem hc
      rw [hother _ hid] at hget
      exact hexpires c (Table.get?_mem hget) hlapsed

/-- A steady action settles what it issues. -/
theorem Settled.apply (h : Settled s) (action : IssuanceAction) (hs : s.Steady action) :
    Settled (s.apply action) := by
  cases action with
  | claim input claimId t =>
    simp only [IssuanceState.apply]
    split
    · exact h.reserve (hs ‹_›)
    · exact h
  | described handler descriptorDigest =>
    simp only [IssuanceState.apply]
    split
    · exact h
    split
    · exact h.handlers _ _
    · exact h
  | issue request descriptor uuid issuedAt =>
    simp only [IssuanceState.apply]
    split
    · exact h
    rename_i r hr
    refine h.step rfl ?_ ?_
    · exact .of_eq (by
        show ((s.service.withGit _).scheduler.db).claims = _
        rw [ServiceState.withGit_scheduler]
        rfl)
    intro q hq hlive
    show (((s.service.withGit _).scheduler.db).claims.get? q.issuanceRequestId).isSome = true
    rw [ServiceState.withGit_scheduler]
    have hq : q ∈ (s.service.withGit _).git.attempts.rows := hq
    generalize hissue : s.service.git.issue (r.input descriptor) uuid issuedAt = answer at hq
    rcases answer with e | ⟨record, git⟩
    · exact h.live q hq hlive
    rcases issue_live hissue with hnone | ⟨hfree, hrows⟩
    · exact h.live q (hnone q hq hlive) hlive
    rcases hrows q hq with hold | hnew
    · exact h.live q hold hlive
    -- the attempt is new, and its claim is there
    rcases hs r hr with hclaim | hcurrent
    · rw [hnew]
      exact hclaim
    · have hnone : (s.service.git.current r.claim.event.reviewId descriptor.jobName).isSome = false := hfree
      rw [hnone] at hcurrent
      cases hcurrent
  | issued handler attempt elapsed crashed =>
    simp only [IssuanceState.apply]
    split
    · exact h
    rename_i ch hch
    split
    · rename_i hguard
      have hresumed := h.issued (s.handlers.eraseIdx handler) (hs ch hch) hguard.2 crashed
      split
      · exact hresumed.crash
      · exact hresumed
    · exact h
  | rejected handler claimId t =>
    simp only [IssuanceState.apply]
    split
    · exact h
    rename_i ch hch
    split
    · exact h.handlers _ _
    rename_i db hdb
    obtain ⟨hlive, hexpires⟩ := hs ch hch (supersede_stays hdb).1
    exact (h.handlers (s.handlers.eraseIdx handler) s.requests).rejected hdb hlive hexpires
  | failed handler => exact h.handlers _ _
  | other route =>
    exact h.stay rfl (route.byCall s.service).turns (route.byCall s.service).claimsStay (route.noneIssued s.service)
  | crash => exact h.crash

/-- In every run whose actions are all steady, every attempt is settled in every state reached. -/
theorem attempts_settled (clock : Int) (actions : List IssuanceAction) (hs : SteadyIssuance (.initial clock) actions) :
    ∀ done, done <+: actions → Settled ((IssuanceState.initial clock).run done) := by
  intro done hdone
  have hstep : ∀ (s : IssuanceState) (action : IssuanceAction), Settled s → s.Steady action → Settled (s.apply action) :=
    fun s action h => h.apply action
  exact Transition.Along.invariant_of_prefix hstep (Settled.initial clock) hs hdone

namespace Sample

def readings : Readings := ⟨1, 1, 1, 1⟩

/-- An event is reserved, and native Git issues an attempt for the claim. -/
def issuedRun : List IssuanceAction :=
  [.other (.enqueue reviewEvent 1000 "generation" 1), .claim reservationInput "claim" readings, .described 0 "digest",
    .issue 0 descriptor "attempt" "2026-01-01T00:00:00.000Z"]

def activatedRun : List IssuanceAction := issuedRun ++ [.issued 0 attempt 1 false]

/-- The attempt arrives when the lease is over. A second request expires the reservation, and is refused
an attempt because the first is current. -/
def orphanedRun : List IssuanceAction :=
  issuedRun ++ [.issued 0 attempt 20 false, .claim { reservationInput with requestId := "second" } "other" readings,
    .described 0 "digest", .issue 1 descriptor "unused" "2026-01-01T00:01:00.000Z", .rejected 0 "third" readings]

end Sample

theorem attempts_settled_activatedRun : Settled ((IssuanceState.initial 0).run Sample.activatedRun) :=
  attempts_settled 0 Sample.activatedRun (by decide +kernel) Sample.activatedRun List.prefix_rfl

/-- The attempt that was given to the handler is still live, and its claim is gone. -/
theorem attempts_settled_orphanedRun :
    ((IssuanceState.initial 0).run Sample.orphanedRun).issued = [("claim", Sample.attempt)] ∧
      ((IssuanceState.initial 0).run Sample.orphanedRun).service.git.live "claim" = true ∧
      ¬ Settled ((IssuanceState.initial 0).run Sample.orphanedRun) := by
  have hgone : ((IssuanceState.initial 0).run Sample.orphanedRun).db.claims.rows = [] := by decide +kernel
  have hissued : ((IssuanceState.initial 0).run Sample.orphanedRun).issued = [("claim", Sample.attempt)] := by
    decide +kernel
  refine ⟨hissued, by decide +kernel, fun h => ?_⟩
  obtain ⟨c, hc, -⟩ := h.activated ("claim", Sample.attempt) (by rw [hissued]; exact List.mem_singleton_self _)
  have hmem := Table.get?_mem hc
  rw [hgone] at hmem
  cases hmem

end Dim.Qemu
