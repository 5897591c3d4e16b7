/-
`NativeOrdinaryClaimService.claim` as the code between its awaits: a call reserves, waits for the
descriptor, the issued attempt and its proof, and then activates the claim or revokes the attempt.
Any number of calls are suspended at once while the database takes other steps and native Git
answers as it likes. A revocation destroys evidence unless the claim was never activated or its
lease is lost; `claim_revocations` says in which runs that never happens. An answer that its parser
refuses counts as a failed answer.
-/
import DimProofs.Ordinary.EpochFence

namespace Dim.Ordinary

open Relational

/-! ## The handler -/

inductive NativeHostClaimResult where
  | active (claim : NativeHostClaim)
  | empty
  | conflict

/-- What an awaited request to native Git ends with: a value, the client's rejected error, or any
other error. -/
inductive GitAnswer (α : Type) where
  | ok (value : α)
  | rejected
  | failed
deriving DecidableEq

/-- Where a call of `claim` stands: at one of its awaits, or at its end. -/
inductive ClaimPhase where
  | loadingDescriptor (reservation : PreparingReservation)
  | issuingAttempt (reservation : PreparingReservation) (descriptor : NativeExecutionDescriptor)
  | assertingAttempt (reservation : PreparingReservation) (issuance : NativeJobAttemptIssuance)
  | revokingAttempt (reservation : PreparingReservation) (issuance : NativeJobAttemptIssuance)
  | returned (result : NativeHostClaimResult)
  | threw

/-- The reservation that a suspended call holds. -/
def ClaimPhase.reservation? : ClaimPhase → Option PreparingReservation
  | .loadingDescriptor r | .issuingAttempt r _ | .assertingAttempt r _ | .revokingAttempt r _ => some r
  | .returned _ | .threw => none

/-- `revokeAttempt` is called on the way into `revokingAttempt`. -/
def ClaimPhase.revokes : ClaimPhase → Bool
  | .revokingAttempt .. => true
  | _ => false

namespace ClaimService

/-- `releaseStaleClaim` and the `conflict` that every caller returns after it. -/
def releaseStaleClaim (request : NativeHostClaimRequest) (claimId : String) (now : Int) (db : AuthorityDatabase) :
    ClaimPhase × AuthorityDatabase :=
  match ClaimStore.releaseStale request claimId now db with
  | .ok (_, db') => (.returned .conflict, db')
  | .error _ => (.threw, db)

/-- The assignment that the proof of an issued attempt is asked for. -/
def requestedAssignment (reservation : PreparingReservation) (issuance : NativeJobAttemptIssuance) :
    NativeAttemptAssignment :=
  { reviewId := issuance.reviewId, attemptId := issuance.attemptId, descriptor := issuance.descriptor,
    descriptorDigest := issuance.descriptorDigest, admissionGeneration := reservation.admissionGeneration,
    hostId := issuance.hostId, capacity := issuance.capacity }

/-- After `loadDescriptor`. -/
def descriptorLoaded (request : NativeHostClaimRequest) (reservation : PreparingReservation)
    (answer : GitAnswer NativeExecutionDescriptor) (now : Int) (db : AuthorityDatabase) : ClaimPhase × AuthorityDatabase :=
  match answer with
  | .ok descriptor => (.issuingAttempt reservation descriptor, db)
  | .rejected => releaseStaleClaim request reservation.claimId now db
  | .failed => (.threw, db)

/-- After `issueAttempt`. -/
def attemptIssued (request : NativeHostClaimRequest) (reservation : PreparingReservation)
    (answer : GitAnswer NativeJobAttemptIssuance) (now : Int) (db : AuthorityDatabase) : ClaimPhase × AuthorityDatabase :=
  match answer with
  | .ok issuance => (.assertingAttempt reservation issuance, db)
  | .rejected => releaseStaleClaim request reservation.claimId now db
  | .failed => (.threw, db)

/-- After `revokeAttempt`. -/
def attemptRevoked (request : NativeHostClaimRequest) (reservation : PreparingReservation)
    (answer : GitAnswer NativeJobAttemptRevocation) (now : Int) (db : AuthorityDatabase) : ClaimPhase × AuthorityDatabase :=
  match answer with
  | .ok _ => releaseStaleClaim request reservation.claimId now db
  | .rejected | .failed => (.threw, db)

variable [Sha256]

/-- `reserveClaim`, up to the first await. -/
def claim (store : NativeOrdinaryAuthorityStore) (request : NativeHostClaimRequest) (claimId : String)
    (expiredAt reservedAt : Int) (db : AuthorityDatabase) : ClaimPhase × AuthorityDatabase :=
  match AuthorityStore.expire store expiredAt db with
  | .error _ => (.threw, db)
  | .ok (_, expired) =>
    match ClaimStore.reserve (AuthorityStore.claimStore store) request claimId reservedAt expired with
    | .error _ => (.threw, expired)
    | .ok (.empty, db') => (.returned .empty, db')
    | .ok (.conflict, db') => (.returned .conflict, db')
    | .ok (.active claim, db') => (.returned (.active claim), db')
    | .ok (.preparing reservation, db') => (.loadingDescriptor reservation, db')

/-- After `assertIssuedAttempt`. -/
def attemptAsserted (store : NativeOrdinaryAuthorityStore) (request : NativeHostClaimRequest)
    (reservation : PreparingReservation) (issuance : NativeJobAttemptIssuance) (answer : GitAnswer NativeAttemptAssignment)
    (now : Int) (db : AuthorityDatabase) : ClaimPhase × AuthorityDatabase :=
  match answer with
  | .failed => (.threw, db)
  | .rejected => (.revokingAttempt reservation issuance, db)
  | .ok assignment =>
    if assignment ≠ requestedAssignment reservation issuance then (.revokingAttempt reservation issuance, db)
    else
      match ClaimStore.activate (AuthorityStore.claimStore store) request reservation { assignment, issuance } now db with
      | .error _ => (.threw, db)
      | .ok (.active claim, db') => (.returned (.active claim), db')
      | .ok (.conflict, db') => (.revokingAttempt reservation issuance, db')

end ClaimService

/-! ## Concurrent calls -/

structure ClaimCall where
  store : NativeOrdinaryAuthorityStore
  request : NativeHostClaimRequest
  phase : ClaimPhase

/-- A call of `revokeAttempt`, with the database at that moment. -/
structure RevokeCall where
  claimId : String
  issuance : NativeJobAttemptIssuance
  calledAt : Int
  before : AuthorityDatabase

structure ServiceState where
  db : AuthorityDatabase
  calls : List ClaimCall
  revocations : List RevokeCall

def ServiceState.initial : ServiceState := { db := .empty, calls := [], revocations := [] }

/-- A new call, native Git's answer to a suspended one, or any other step of the database. -/
inductive ServiceAction where
  | authority (action : Action)
  | claim (store : NativeOrdinaryAuthorityStore) (request : NativeHostClaimRequest) (claimId : String)
      (expiredAt reservedAt : Int)
  | descriptor (call : Nat) (answer : GitAnswer NativeExecutionDescriptor) (now : Int)
  | issued (call : Nat) (answer : GitAnswer NativeJobAttemptIssuance) (now : Int)
  | asserted (call : Nat) (answer : GitAnswer NativeAttemptAssignment) (now : Int)
  | revoked (call : Nat) (answer : GitAnswer NativeJobAttemptRevocation) (now : Int)

section
variable [Sha256]

/-- The call takes up its work again and suspends at the next await or ends. -/
def ServiceState.resume (s : ServiceState) (i : Nat) (call : ClaimCall) (next : ClaimPhase × AuthorityDatabase) :
    ServiceState :=
  { s with db := next.2, calls := s.calls.set i { call with phase := next.1 } }

def ServiceState.apply (s : ServiceState) : ServiceAction → ServiceState
  | .authority action => { s with db := action.apply s.db }
  | .claim store request claimId expiredAt reservedAt =>
    let (phase, db) := ClaimService.claim store request claimId expiredAt reservedAt s.db
    { s with db, calls := s.calls ++ [{ store, request, phase }] }
  | .descriptor i answer now =>
    match s.calls[i]? with
    | some call@⟨_, request, .loadingDescriptor reservation⟩ =>
      s.resume i call (ClaimService.descriptorLoaded request reservation answer now s.db)
    | _ => s
  | .issued i answer now =>
    match s.calls[i]? with
    | some call@⟨_, request, .issuingAttempt reservation _⟩ =>
      s.resume i call (ClaimService.attemptIssued request reservation answer now s.db)
    | _ => s
  | .asserted i answer now =>
    match s.calls[i]? with
    | some call@⟨store, request, .assertingAttempt reservation issuance⟩ =>
      let next := ClaimService.attemptAsserted store request reservation issuance answer now s.db
      { s.resume i call next with
        revocations := if next.1.revokes then
          s.revocations ++ [{ claimId := reservation.claimId, issuance, calledAt := now, before := s.db }]
        else s.revocations }
    | _ => s
  | .revoked i answer now =>
    match s.calls[i]? with
    | some call@⟨_, request, .revokingAttempt reservation _⟩ =>
      s.resume i call (ClaimService.attemptRevoked request reservation answer now s.db)
    | _ => s

/-- The state after the actions of a run. -/
def serve (s : ServiceState) (actions : List ServiceAction) : ServiceState :=
  actions.foldl ServiceState.apply s

/-! ## Lawful revocations -/

/-- The claim was never activated, or its lease ran out, or it is fenced, or it was recovered. -/
def RevokeCall.Lawful (call : RevokeCall) : Prop :=
  ∀ c, call.before.claims.get? call.claimId = some c → c.state = .recovering ∨
    (c.state = .active ∧ c.leaseExpiresAt ≤ call.calledAt) ∨
    (c.state = .released ∧ call.before.hostResults.get? call.claimId = none)

/-- A call may resume from the proof of its attempt: the claim is not there, fenced, recovered or
past its lease; or the answer ends the call without a revocation, which an error does, the exact
proof of an active claim, and the exact proof given to a superseded instance. -/
def QuietAssertion (store : NativeOrdinaryAuthorityStore) (reservation : PreparingReservation)
    (issuance : NativeJobAttemptIssuance) (answer : GitAnswer NativeAttemptAssignment) (now : Int)
    (db : AuthorityDatabase) : Prop :=
  answer = .failed ∨ ∀ c, db.claims.get? reservation.claimId = some c →
    match c.state with
    | .recovering => True
    | .active => c.leaseExpiresAt ≤ now ∨ answer = .ok (ClaimService.requestedAssignment reservation issuance)
    | .released => db.hostResults.get? reservation.claimId = none ∨
        (answer = .ok (ClaimService.requestedAssignment reservation issuance) ∧
          db.ownsActiveEpoch store.ownedEpochId = false)
    | .reported => answer = .ok (ClaimService.requestedAssignment reservation issuance) ∧
        db.ownsActiveEpoch store.ownedEpochId = false

/-- The condition on one action of a run. -/
def ServiceState.Quiet (s : ServiceState) : ServiceAction → Prop
  | .asserted i answer now => ∀ store request reservation issuance,
    s.calls[i]? = some ⟨store, request, .assertingAttempt reservation issuance⟩ →
      QuietAssertion store reservation issuance answer now s.db
  | _ => True

/-- Every action of a run meets the condition where it happens. -/
def QuietService (s : ServiceState) : List ServiceAction → Prop
  | [] => True
  | action :: rest => s.Quiet action ∧ QuietService (s.apply action) rest

/-! ## What the calls do to the database -/

namespace ClaimService

theorem releaseStaleClaim_refines (request : NativeHostClaimRequest) (claimId : String) (now : Int)
    (db : AuthorityDatabase) : Refines db (releaseStaleClaim request claimId now db).2 := by
  unfold releaseStaleClaim
  split
  · rename_i h; exact (releaseStale_writes h).refines
  · exact Refines.refl _

theorem descriptorLoaded_refines (request : NativeHostClaimRequest) (reservation : PreparingReservation)
    (answer : GitAnswer NativeExecutionDescriptor) (now : Int) (db : AuthorityDatabase) :
    Refines db (descriptorLoaded request reservation answer now db).2 := by
  cases answer with
  | rejected => exact releaseStaleClaim_refines _ _ _ _
  | _ => exact Refines.refl _

theorem attemptIssued_refines (request : NativeHostClaimRequest) (reservation : PreparingReservation)
    (answer : GitAnswer NativeJobAttemptIssuance) (now : Int) (db : AuthorityDatabase) :
    Refines db (attemptIssued request reservation answer now db).2 := by
  cases answer with
  | rejected => exact releaseStaleClaim_refines _ _ _ _
  | _ => exact Refines.refl _

theorem attemptRevoked_refines (request : NativeHostClaimRequest) (reservation : PreparingReservation)
    (answer : GitAnswer NativeJobAttemptRevocation) (now : Int) (db : AuthorityDatabase) :
    Refines db (attemptRevoked request reservation answer now db).2 := by
  cases answer with
  | ok => exact releaseStaleClaim_refines _ _ _ _
  | _ => exact Refines.refl _

theorem attemptAsserted_refines (store : NativeOrdinaryAuthorityStore) (request : NativeHostClaimRequest)
    (reservation : PreparingReservation) (issuance : NativeJobAttemptIssuance) (answer : GitAnswer NativeAttemptAssignment)
    (now : Int) (db : AuthorityDatabase) :
    Refines db (attemptAsserted store request reservation issuance answer now db).2 := by
  unfold attemptAsserted
  split
  · exact Refines.refl _
  · exact Refines.refl _
  · split
    · exact Refines.refl _
    · split
      · exact Refines.refl _
      · rename_i h; exact Writes.refines (activate_writes h).to_reflTransGen
      · rename_i h; exact Writes.refines (activate_writes h).to_reflTransGen

theorem claim_refines (store : NativeOrdinaryAuthorityStore) (request : NativeHostClaimRequest) (claimId : String)
    (expiredAt reservedAt : Int) (db : AuthorityDatabase) :
    Refines db (claim store request claimId expiredAt reservedAt db).2 := by
  unfold claim
  split
  · exact Refines.refl _
  · rename_i he
    have hexp := (AuthorityStore.expire_writes he).refines
    split
    · exact hexp
    all_goals
      rename_i h
      exact hexp.trans ((reserve_writes h).refines)

end ClaimService

theorem Action.apply_step (db : AuthorityDatabase) (action : Action) : Step db (action.apply db) := by
  cases action with
  | start store now => exact .start store now db
  | call store t => exact .run store t db

/-- A resumed call leaves the database that its code left. -/
theorem ServiceState.apply_refines (s : ServiceState) (action : ServiceAction) : Refines s.db (s.apply action).db := by
  cases action with
  | authority action => exact (action.apply_step s.db).refines
  | claim store request claimId expiredAt reservedAt => exact ClaimService.claim_refines _ _ _ _ _ _
  | descriptor i answer now =>
    simp only [ServiceState.apply]
    split
    · exact ClaimService.descriptorLoaded_refines _ _ _ _ _
    · exact Refines.refl _
  | issued i answer now =>
    simp only [ServiceState.apply]
    split
    · exact ClaimService.attemptIssued_refines _ _ _ _ _
    · exact Refines.refl _
  | asserted i answer now =>
    simp only [ServiceState.apply]
    split
    · exact ClaimService.attemptAsserted_refines _ _ _ _ _ _ _
    · exact Refines.refl _
  | revoked i answer now =>
    simp only [ServiceState.apply]
    split
    · exact ClaimService.attemptRevoked_refines _ _ _ _ _
    · exact Refines.refl _

/-! ## The receipt of a suspended call -/

/-- The receipt of a suspended call's reservation is there, under the request of the call. -/
def ClaimCall.Linked (call : ClaimCall) (db : AuthorityDatabase) : Prop :=
  ∀ reservation, call.phase.reservation? = some reservation →
    (ClaimStore.requestReceipt call.request reservation.claimId db).isSome = true

variable {claimId : String} {db db' : AuthorityDatabase} {request : NativeHostClaimRequest}

omit [Sha256] in
theorem requestReceipt_evolves
    (h : Evolves db db') (hr : (ClaimStore.requestReceipt request claimId db).isSome = true) :
    (ClaimStore.requestReceipt request claimId db').isSome = true := by
  obtain ⟨r, hr⟩ := Option.isSome_iff_exists.mp hr
  obtain ⟨hget, hh, hc, hq⟩ := ClaimStore.requestReceipt_some hr
  obtain ⟨r', hget', hid⟩ := h.receipts claimId r hget
  simp only [ClaimReceipt.identity, Prod.mk.injEq] at hid
  unfold ClaimStore.requestReceipt
  rw [hget']
  simp [Option.filter, hid.1, hid.2.1, hid.2.2.1, hh, hc, hq]

variable {now : Int} {options : ClaimStoreOptions} {reservation : PreparingReservation}

omit [Sha256] in
/-- The reservation that `reserve` answers has its receipt. -/
theorem ClaimStore.reserve_linked
    (h : ClaimStore.reserve options request claimId now db = .ok (.preparing reservation, db')) :
    (ClaimStore.requestReceipt request reservation.claimId db').isSome = true := by
  unfold ClaimStore.reserve at h
  split at h
  · cases h
  · simp only [bind_ok] at h
    obtain ⟨-, -, h⟩ := h
    split at h
    · rename_i row hrow
      simp only [bind_ok, pure_ok, Prod.mk.injEq] at h
      obtain ⟨answer, ha, rfl, rfl⟩ := h
      have hid : reservation.claimId = row.claimId := by
        unfold ClaimStore.existing at ha
        split at ha
        · cases ha
        · simp only [bind_ok, pure_ok] at ha
          obtain ⟨_, -, ha⟩ := ha
          cases ha
        · simp only [bind_ok, pure_ok] at ha
          obtain ⟨_, -, _, -, _, -, ha⟩ := ha
          cases ha; rfl
        all_goals cases ha
      have hget : db.claimReceipts.get? row.claimId = some row := Table.get?_of_mem (List.mem_of_find?_eq_some hrow)
      have hmatch := List.find?_some hrow
      unfold ClaimStore.requestReceipt
      rw [hid, hget, Option.filter_some, if_pos hmatch]
      rfl
    · split at h
      · cases h
      · split at h
        · simp only [bind_ok, pure_ok, Prod.mk.injEq] at h
          obtain ⟨_, -, h, -⟩ := h
          cases h
        · simp only [ClaimStore.insertReceipt, bind_ok, pure_ok, Prod.mk.injEq] at h
          obtain ⟨_, -, _, ⟨receipts, hr, rfl⟩, demands, -, hres, rfl⟩ := h
          cases hres
          unfold ClaimStore.requestReceipt
          rw [Table.get?_insert hr, if_pos (by simp)]
          simp [Option.filter]

/-- Every suspended call has its receipt. -/
def ServiceState.Linked (s : ServiceState) : Prop := ∀ call ∈ s.calls, call.Linked s.db

variable {s : ServiceState}

omit [Sha256] in
theorem ServiceState.Linked.resume (h : s.Linked) {i : Nat} {call : ClaimCall}
    {next : ClaimPhase × AuthorityDatabase} (hcall : s.calls[i]? = some call) (he : Evolves s.db next.2)
    (hnext : ∀ reservation, next.1.reservation? = some reservation → call.phase.reservation? = some reservation) :
    (s.resume i call next).Linked := by
  intro other hother reservation hres
  rcases List.mem_or_eq_of_mem_set hother with hother | rfl
  · exact requestReceipt_evolves he (h other hother reservation hres)
  · exact requestReceipt_evolves he (h call (List.mem_of_getElem? hcall) reservation (hnext reservation hres))

omit [Sha256] in
theorem ClaimService.releaseStaleClaim_phase (request : NativeHostClaimRequest) (claimId : String) (now : Int)
    (db : AuthorityDatabase) : (ClaimService.releaseStaleClaim request claimId now db).1.reservation? = none := by
  unfold ClaimService.releaseStaleClaim
  split <;> rfl

variable {issuance : NativeJobAttemptIssuance} {other : PreparingReservation}
variable {store : NativeOrdinaryAuthorityStore}

theorem ClaimService.attemptAsserted_phase {answer : GitAnswer NativeAttemptAssignment}
    (h : (ClaimService.attemptAsserted store request reservation issuance answer now db).1.reservation? = some other) :
    other = reservation := by
  unfold ClaimService.attemptAsserted at h
  split at h
  · cases h
  · cases h; rfl
  · split at h
    · cases h; rfl
    · split at h <;> cases h
      rfl

section
omit [Sha256]

theorem ClaimService.descriptorLoaded_phase {answer : GitAnswer NativeExecutionDescriptor}
    (h : (ClaimService.descriptorLoaded request reservation answer now db).1.reservation? = some other) :
    other = reservation := by
  cases answer with
  | ok descriptor => cases h; rfl
  | rejected => rw [ClaimService.descriptorLoaded, ClaimService.releaseStaleClaim_phase] at h; cases h
  | failed => cases h

theorem ClaimService.attemptIssued_phase {answer : GitAnswer NativeJobAttemptIssuance}
    (h : (ClaimService.attemptIssued request reservation answer now db).1.reservation? = some other) :
    other = reservation := by
  cases answer with
  | ok issuance => cases h; rfl
  | rejected => rw [ClaimService.attemptIssued, ClaimService.releaseStaleClaim_phase] at h; cases h
  | failed => cases h

theorem ClaimService.attemptRevoked_phase (request : NativeHostClaimRequest) (reservation : PreparingReservation)
    (answer : GitAnswer NativeJobAttemptRevocation) (now : Int) (db : AuthorityDatabase) :
    (ClaimService.attemptRevoked request reservation answer now db).1.reservation? = none := by
  cases answer with
  | ok revocation => exact ClaimService.releaseStaleClaim_phase _ _ _ _
  | rejected => rfl
  | failed => rfl

end

theorem ClaimService.claim_linked {expiredAt reservedAt : Int}
    (h : (ClaimService.claim store request claimId expiredAt reservedAt db).1.reservation? = some reservation) :
    (ClaimStore.requestReceipt request reservation.claimId
      (ClaimService.claim store request claimId expiredAt reservedAt db).2).isSome = true := by
  unfold ClaimService.claim at h ⊢
  split at h
  · cases h
  · split at h
    case h_5 r db' heq =>
      cases h
      exact ClaimStore.reserve_linked heq
    all_goals cases h

/-- Calls keep their receipts over every action. -/
theorem ServiceState.Linked.apply (hc : Coherent s.db) (h : s.Linked) (action : ServiceAction) :
    (s.apply action).Linked := by
  cases action with
  | authority action =>
    intro call hcall reservation hres
    exact requestReceipt_evolves ((action.apply_step s.db).refines hc).2 (h call hcall reservation hres)
  | claim store request claimId expiredAt reservedAt =>
    intro call hcall reservation hres
    rcases List.mem_append.mp hcall with hcall | hcall
    · have he := (ClaimService.claim_refines store request claimId expiredAt reservedAt s.db hc).2
      exact requestReceipt_evolves he (h call hcall reservation hres)
    · rw [List.mem_singleton] at hcall
      subst hcall
      exact ClaimService.claim_linked hres
  | descriptor i answer now =>
    simp only [ServiceState.apply]
    split
    · rename_i reservation hcall
      refine h.resume hcall (ClaimService.descriptorLoaded_refines _ _ _ _ _ hc).2 fun other hother => ?_
      rw [ClaimService.descriptorLoaded_phase hother]
      rfl
    · exact h
  | issued i answer now =>
    simp only [ServiceState.apply]
    split
    · rename_i reservation descriptor hcall
      refine h.resume hcall (ClaimService.attemptIssued_refines _ _ _ _ _ hc).2 fun other hother => ?_
      rw [ClaimService.attemptIssued_phase hother]
      rfl
    · exact h
  | asserted i answer now =>
    simp only [ServiceState.apply]
    split
    · rename_i store request reservation issuance hcall
      refine h.resume hcall (ClaimService.attemptAsserted_refines _ _ _ _ _ _ _ hc).2 fun other hother => ?_
      rw [ClaimService.attemptAsserted_phase hother]
      rfl
    · exact h
  | revoked i answer now =>
    simp only [ServiceState.apply]
    split
    · rename_i reservation issuance hcall
      refine h.resume hcall (ClaimService.attemptRevoked_refines _ _ _ _ _ hc).2 fun other hother => ?_
      rw [ClaimService.attemptRevoked_phase] at hother
      cases hother
    · exact h

/-! ## The answer of an activation -/

variable {proof : NativeClaimActivationProof}

section
omit [Sha256]

theorem ClaimStore.activate_active
    {receipt : ClaimReceipt} (hr : ClaimStore.requestReceipt request reservation.claimId db = some receipt)
    (hs : receipt.state = .active) :
    ClaimStore.activate options request reservation proof now db ≠ .ok (.conflict, db') := by
  intro h
  simp only [ClaimStore.activate, bind_ok, hr, hs, if_true, pure_ok, Prod.mk.injEq] at h
  obtain ⟨-, -, _, -, h, -⟩ := h
  cases h

theorem ClaimStore.activate_ended
    {receipt : ClaimReceipt} (ho : db.ownsActiveEpoch options.ownedEpochId = true)
    (hr : ClaimStore.requestReceipt request reservation.claimId db = some receipt)
    (ha : receipt.state ≠ .active) (hp : receipt.state ≠ .preparing) :
    ClaimStore.activate options request reservation proof now db = .ok (.conflict, db) := by
  have hn : ClaimStore.activatable options reservation proof now receipt db = none := by
    unfold ClaimStore.activatable
    rw [if_pos (Or.inl hp)]
  simp only [ClaimStore.activate, assertOwnedEpoch, ho, if_true, bind, Except.bind, hr, ha, if_false, hn]
  rfl

theorem ClaimStore.activate_stale (ho : db.ownsActiveEpoch options.ownedEpochId = false) :
    ClaimStore.activate options request reservation proof now db = .error .staleAuthority := by
  unfold ClaimStore.activate
  rw [assertOwnedEpoch_stale ho]
  rfl

/-- In a coherent database the receipt of a claim is active when the claim is. -/
theorem Coherent.receipt_state (h : Coherent db) {k : String} {c : Claim} {r : ClaimReceipt}
    (hc : db.claims.get? k = some c) (hr : db.claimReceipts.get? k = some r) :
    (r.state = .active ↔ c.state = .active) ∧ r.state ≠ .preparing := by
  obtain ⟨stage, hv, hclaim⟩ := h.stage_of_claim hc
  have hreceipt : stage.view.receipt = some r.state := by rw [← hv]; simp [view, hr]
  cases stage <;> simp only [Stage.view, Option.some.injEq, reduceCtorEq] at hclaim hreceipt
  all_goals
    rw [← hclaim, ← hreceipt]
    simp

end

/-- The exact proof of an attempt ends in a revocation when the claim is no longer active and the
instance still is. -/
theorem ClaimService.attemptAsserted_exact
    (hc : Coherent db) {c : Claim} (hcl : db.claims.get? reservation.claimId = some c)
    (hl : (ClaimStore.requestReceipt request reservation.claimId db).isSome = true) :
    (ClaimService.attemptAsserted store request reservation issuance (.ok (requestedAssignment reservation issuance))
      now db).1.revokes = true ↔ c.state ≠ .active ∧ db.ownsActiveEpoch store.ownedEpochId = true := by
  obtain ⟨receipt, hr⟩ := Option.isSome_iff_exists.mp hl
  obtain ⟨hget, -⟩ := ClaimStore.requestReceipt_some hr
  obtain ⟨hactive, hpreparing⟩ := hc.receipt_state hcl hget
  unfold ClaimService.attemptAsserted
  simp only [ne_eq, not_true_eq_false, if_false]
  by_cases ho : db.ownsActiveEpoch (AuthorityStore.claimStore store).ownedEpochId = true
  · by_cases ha : c.state = .active
    · split
      · simp [ClaimPhase.revokes, ha]
      · simp [ClaimPhase.revokes, ha]
      · rename_i h; exact absurd h (ClaimStore.activate_active hr (hactive.mpr ha))
    · rw [ClaimStore.activate_ended ho hr (fun h => ha (hactive.mp h)) hpreparing]
      simp only [ClaimPhase.revokes, true_iff]
      exact ⟨ha, ho⟩
  · rw [ClaimStore.activate_stale (by simpa using ho)]
    simp only [ClaimPhase.revokes, Bool.false_eq_true, false_iff, not_and]
    exact fun _ => ho

/-- Any other proof, and a rejection, ends in a revocation. -/
theorem ClaimService.attemptAsserted_differs {answer : GitAnswer NativeAttemptAssignment}
    (hs : answer ≠ .ok (requestedAssignment reservation issuance)) :
    (ClaimService.attemptAsserted store request reservation issuance answer now db).1.revokes = true ↔
      answer ≠ .failed := by
  cases answer with
  | failed => simp [ClaimService.attemptAsserted, ClaimPhase.revokes]
  | rejected => simp [ClaimService.attemptAsserted, ClaimPhase.revokes]
  | ok assignment =>
    have hne : assignment ≠ requestedAssignment reservation issuance := fun h => hs (by rw [h])
    simp [ClaimService.attemptAsserted, hne, ClaimPhase.revokes]

/-- A resumed call revokes lawfully exactly under the condition on its answer and the claim's row. -/
theorem ClaimService.attemptAsserted_lawful_iff (store : NativeOrdinaryAuthorityStore)
    (issuance : NativeJobAttemptIssuance) (answer : GitAnswer NativeAttemptAssignment)
    (now : Int) (hc : Coherent db)
    (hl : (ClaimStore.requestReceipt request reservation.claimId db).isSome = true) :
    ((ClaimService.attemptAsserted store request reservation issuance answer now db).1.revokes = true →
      RevokeCall.Lawful ⟨reservation.claimId, issuance, now, db⟩) ↔
      QuietAssertion store reservation issuance answer now db := by
  unfold QuietAssertion RevokeCall.Lawful
  rcases hcl : db.claims.get? reservation.claimId with _ | c
  · simp
  by_cases hs : answer = .ok (requestedAssignment reservation issuance)
  · subst hs
    rw [ClaimService.attemptAsserted_exact hc hcl hl]
    simp only [Option.some.injEq, forall_eq', reduceCtorEq, false_or]
    rcases hstate : c.state <;> simp [or_comm, imp_iff_not_or]
  · rw [ClaimService.attemptAsserted_differs hs]
    simp only [Option.some.injEq, forall_eq', hs, false_and, or_false]
    rcases hstate : c.state <;> simp [imp_iff_not_or]

/-! ## Runs of concurrent calls -/

/-- One action adds a lawful revocation, an unlawful one, or none. -/
theorem ServiceState.apply_lawful_iff (hc : Coherent s.db) (hl : s.Linked) (action : ServiceAction) :
    (∀ call ∈ (s.apply action).revocations, call.Lawful) ↔
      (∀ call ∈ s.revocations, call.Lawful) ∧ s.Quiet action := by
  cases action with
  | authority action => simp [ServiceState.apply, ServiceState.Quiet]
  | claim store request claimId expiredAt reservedAt => simp [ServiceState.apply, ServiceState.Quiet]
  | descriptor i answer now =>
    simp only [ServiceState.apply, ServiceState.Quiet, and_true]
    split <;> rfl
  | issued i answer now =>
    simp only [ServiceState.apply, ServiceState.Quiet, and_true]
    split <;> rfl
  | revoked i answer now =>
    simp only [ServiceState.apply, ServiceState.Quiet, and_true]
    split <;> rfl
  | asserted i answer now =>
    simp only [ServiceState.apply, ServiceState.Quiet]
    split
    · rename_i store request reservation issuance hcall
      have hiff := ClaimService.attemptAsserted_lawful_iff store issuance answer now hc
        (hl _ (List.mem_of_getElem? hcall) reservation rfl)
      have hquiet : (∀ store' request' reservation' issuance',
          s.calls[i]? = some ⟨store', request', .assertingAttempt reservation' issuance'⟩ →
            QuietAssertion store' reservation' issuance' answer now s.db) ↔
          QuietAssertion store reservation issuance answer now s.db := by
        constructor
        · intro h
          exact h store request reservation issuance hcall
        · intro h store' request' reservation' issuance' hcall'
          rw [hcall] at hcall'
          cases hcall'
          exact h
      rw [hquiet, ← hiff]
      split
      · rename_i hrev
        simp [hrev, or_imp, forall_and]
      · rename_i hrev
        simp [hrev]
    · rename_i hno
      simp only [iff_self_and]
      intro _ store request reservation issuance hcall
      exact absurd hcall (hno store request reservation issuance)

theorem serve_lawful_iff : ∀ (actions : List ServiceAction) {s : ServiceState}, Coherent s.db → s.Linked →
    ((∀ call ∈ (serve s actions).revocations, call.Lawful) ↔
      (∀ call ∈ s.revocations, call.Lawful) ∧ QuietService s actions)
  | [], s, _, _ => by simp [serve, QuietService]
  | action :: rest, s, hc, hl => by
    have ih := serve_lawful_iff rest (s.apply_refines action hc).1 (hl.apply hc action)
    show (∀ call ∈ (serve (s.apply action) rest).revocations, call.Lawful) ↔ _
    rw [ih, s.apply_lawful_iff hc hl action, and_assoc]
    rfl

/-- In every run of concurrent calls, interleaved with anything else that the instances do to the
database, every revocation is lawful exactly when every call that resumes from the proof of its
attempt meets the condition. -/
theorem claim_revocations (actions : List ServiceAction) :
    (∀ call ∈ (serve .initial actions).revocations, call.Lawful) ↔ QuietService .initial actions := by
  rw [serve_lawful_iff actions Coherent.empty (by intro call hcall; cases hcall)]
  simp [ServiceState.initial]

end

namespace Sample

attribute [local instance] sha256

def execution : NativeExecutionDescriptor :=
  { reviewId := "review", descriptor, digest := nativeDescriptorDigest descriptor }

def output : NativeOutputEvidence := { bytes := 0, sha256 := "", truncated := false }

def payload : NativeTerminalPayload :=
  { reviewId := "review", attemptId := "attempt", attempt := 1, descriptor,
    descriptorDigest := nativeDescriptorDigest descriptor, hostId := "host", capacity := "small",
    startedAt := "2024-01-01T00:00:00Z", finishedAt := "2024-01-01T00:01:00Z", result := .success,
    completion := .exited 0, stdout := output, stderr := output }

def terminalEvent : NativeTerminalEvent :=
  { eventId := "terminal", occurredAt := "2024-01-01T00:01:00Z", payload }

def result : NativeHostResultRequest := { requestId := "result", claimId := "claim", terminalEvent }

/-- Two calls for one request: the first activates the claim, whose result is accepted before the
second resumes. -/
def duplicateCall : List ServiceAction :=
  [.authority (.start store 1), .authority (.call store (.admitPolicy policy "generation" 2)),
    .authority (.call store (.acceptEvent event "demand" 3)), .claim store request "claim" 4 4,
    .claim store request "other" 4 4, .descriptor 0 (.ok execution) 4, .descriptor 1 (.ok execution) 4,
    .issued 0 (.ok issuance) 4, .issued 1 (.ok issuance) 4, .asserted 0 (.ok assignment) 5,
    .authority (.call store (.acceptResult "host" result 6)), .asserted 1 (.ok assignment) 7]

end Sample

/-- The second call revokes the attempt whose result waits to be reported. -/
theorem claim_revocations_duplicateCall :
    ¬ ∀ actions, ∀ call ∈ (@serve Sample.sha256 .initial actions).revocations, call.Lawful := by
  intro h
  have hrevoked : ∃ call ∈ (@serve Sample.sha256 .initial Sample.duplicateCall).revocations,
      (call.before.claims.get? call.claimId).map (·.state) = some .reported := by decide +kernel
  obtain ⟨call, hcall, hstate⟩ := hrevoked
  obtain ⟨c, hc, hs⟩ := Option.map_eq_some_iff.mp hstate
  rcases h Sample.duplicateCall call hcall c hc with h | ⟨h, -⟩ | ⟨h, -⟩ <;> rw [hs] at h <;> cases h

end Dim.Ordinary
