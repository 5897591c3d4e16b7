/-
The answers of the ordinary claim service. The receipt of a claim names the request it was made for and is
never removed, and a call answers only a claim whose receipt names its own request.
-/
import DimProofs.Ordinary.ClaimService

namespace Dim.Ordinary

open Relational

/-- The claim that a call has answered. -/
def ClaimPhase.answered? : ClaimPhase → Option String
  | .returned (.active claim) => some claim.claimId
  | _ => none

/-- The request of a claim's receipt. -/
def AuthorityDatabase.answeredTo (db : AuthorityDatabase) (claimId : String) : Option String :=
  (db.claimReceipts.get? claimId).map (·.requestId)

variable {claimId : String} {db : AuthorityDatabase} {request : NativeHostClaimRequest}

theorem answeredTo_of_receipt
    (h : (ClaimStore.requestReceipt request claimId db).isSome = true) : db.answeredTo claimId = some request.requestId := by
  obtain ⟨r, hr⟩ := Option.isSome_iff_exists.mp h
  obtain ⟨hget, -, -, hrequest⟩ := ClaimStore.requestReceipt_some hr
  rw [AuthorityDatabase.answeredTo, hget, Option.map_some, hrequest]

theorem answeredTo_evolves {requestId : String} {db' : AuthorityDatabase} (h : Evolves db db')
    (ha : db.answeredTo claimId = some requestId) : db'.answeredTo claimId = some requestId := by
  obtain ⟨r, hr, rfl⟩ := Option.map_eq_some_iff.mp ha
  obtain ⟨r', hr', hid⟩ := h.receipts claimId r hr
  simp only [ClaimReceipt.identity, Prod.mk.injEq] at hid
  rw [AuthorityDatabase.answeredTo, hr', Option.map_some, hid.2.2.1]

/-! ## The claims that a call answers -/

theorem loadActive_claimId {serviceId : String}
    {claim : NativeHostClaim} (h : loadActiveNativeHostClaim serviceId request claimId db = .ok claim) :
    claim.claimId = claimId := by
  unfold loadActiveNativeHostClaim at h
  obtain ⟨row, -, h⟩ := bind_ok.mp h
  dsimp only at h
  split at h
  · cases h
  · cases h
    rfl

namespace ClaimStore

variable {db db' : AuthorityDatabase} {now : Int} {options : ClaimStoreOptions}
variable {request : NativeHostClaimRequest}

/-- A claim that `reserve` answers has its receipt. -/
theorem reserve_answered {claimId : String} {claim : NativeHostClaim}
    (h : reserve options request claimId now db = .ok (.active claim, db')) :
    (requestReceipt request claim.claimId db').isSome = true := by
  unfold reserve at h
  split at h
  · cases h
  · simp only [bind_ok] at h
    obtain ⟨-, -, h⟩ := h
    split at h
    · rename_i row hrow
      simp only [bind_ok, pure_ok, Prod.mk.injEq] at h
      obtain ⟨answer, ha, rfl, rfl⟩ := h
      have hid : claim.claimId = row.claimId := by
        unfold existing at ha
        split at ha
        · cases ha
        · obtain ⟨loaded, hload, ha⟩ := bind_ok.mp ha
          cases pure_ok.mp ha
          exact loadActive_claimId hload
        · simp only [bind_ok, pure_ok] at ha
          obtain ⟨_, -, _, -, _, -, ha⟩ := ha
          cases ha
        all_goals cases ha
      have hget : db.claimReceipts.get? row.claimId = some row := Table.get?_of_mem (List.mem_of_find?_eq_some hrow)
      unfold requestReceipt
      rw [hid, hget, Option.filter_some, if_pos (List.find?_some hrow)]
      rfl
    · split at h
      · cases h
      · split at h
        · simp only [bind_ok, pure_ok, Prod.mk.injEq] at h
          obtain ⟨_, -, h, -⟩ := h
          cases h
        · simp only [bind_ok, pure_ok, Prod.mk.injEq] at h
          obtain ⟨_, -, _, -, _, -, h, -⟩ := h
          cases h

/-- A claim that `activate` answers has its receipt. -/
theorem activate_answered {reservation : PreparingReservation} {proof : NativeClaimActivationProof}
    {claim : NativeHostClaim} (h : activate options request reservation proof now db = .ok (.active claim, db')) :
    (requestReceipt request reservation.claimId db).isSome = true ∧ claim.claimId = reservation.claimId := by
  unfold activate at h
  obtain ⟨-, -, h⟩ := bind_ok.mp h
  split at h
  · cases h
  rename_i receipt hreceipt
  refine ⟨by rw [hreceipt]; rfl, ?_⟩
  split at h
  · obtain ⟨loaded, hload, h⟩ := bind_ok.mp h
    cases pure_ok.mp h
    exact loadActive_claimId hload
  · split at h
    · cases h
    · obtain ⟨inserted, -, h⟩ := bind_ok.mp h
      obtain ⟨loaded, hload, h⟩ := bind_ok.mp h
      cases pure_ok.mp h
      exact loadActive_claimId hload

end ClaimStore

namespace ClaimService

theorem releaseStaleClaim_answered (request : NativeHostClaimRequest) (claimId : String) (now : Int)
    (db : AuthorityDatabase) : (releaseStaleClaim request claimId now db).1.answered? = none := by
  unfold releaseStaleClaim
  split <;> rfl

theorem descriptorLoaded_answered (request : NativeHostClaimRequest) (reservation : PreparingReservation)
    (answer : GitAnswer NativeExecutionDescriptor) (now : Int) (db : AuthorityDatabase) :
    (descriptorLoaded request reservation answer now db).1.answered? = none := by
  cases answer with
  | rejected => exact releaseStaleClaim_answered _ _ _ _
  | ok _ | failed => rfl

theorem attemptIssued_answered (request : NativeHostClaimRequest) (reservation : PreparingReservation)
    (answer : GitAnswer NativeJobAttemptIssuance) (now : Int) (db : AuthorityDatabase) :
    (attemptIssued request reservation answer now db).1.answered? = none := by
  cases answer with
  | rejected => exact releaseStaleClaim_answered _ _ _ _
  | ok _ | failed => rfl

theorem attemptRevoked_answered (request : NativeHostClaimRequest) (reservation : PreparingReservation)
    (answer : GitAnswer NativeJobAttemptRevocation) (now : Int) (db : AuthorityDatabase) :
    (attemptRevoked request reservation answer now db).1.answered? = none := by
  cases answer with
  | ok _ => exact releaseStaleClaim_answered _ _ _ _
  | rejected | failed => rfl

variable [Sha256]

variable {db : AuthorityDatabase} {k : String} {request : NativeHostClaimRequest}
variable {store : NativeOrdinaryAuthorityStore}

theorem claim_answered {claimId : String} {expiredAt reservedAt : Int}
    (h : (claim store request claimId expiredAt reservedAt db).1.answered? = some k) :
    (ClaimStore.requestReceipt request k (claim store request claimId expiredAt reservedAt db).2).isSome = true := by
  unfold claim at h ⊢
  split at h
  · cases h
  · split at h
    case h_4 c db' heq =>
      cases h
      exact ClaimStore.reserve_answered heq
    all_goals cases h

theorem attemptAsserted_answered
    {reservation : PreparingReservation} {issuance : NativeJobAttemptIssuance} {answer : GitAnswer NativeAttemptAssignment}
    {now : Int}
    (h : (attemptAsserted store request reservation issuance answer now db).1.answered? = some k) :
    (ClaimStore.requestReceipt request k db).isSome = true := by
  unfold attemptAsserted at h
  split at h
  · cases h
  · cases h
  · split at h
    · cases h
    · split at h
      · cases h
      · rename_i c db' heq
        cases h
        obtain ⟨hreceipt, hid⟩ := ClaimStore.activate_answered heq
        rwa [hid]
      · cases h

end ClaimService

/-! ## Runs -/

/-- The receipt of every claim that was answered names the request of its call. -/
def ServiceState.Answered (s : ServiceState) : Prop :=
  ∀ call ∈ s.calls, ∀ k, call.phase.answered? = some k → s.db.answeredTo k = some call.request.requestId

variable {s : ServiceState}

theorem ServiceState.Answered.resume (h : s.Answered) {i : Nat} {call : ClaimCall}
    {next : ClaimPhase × AuthorityDatabase} (he : Evolves s.db next.2)
    (hnext : ∀ k, next.1.answered? = some k → (ClaimStore.requestReceipt call.request k s.db).isSome = true) :
    (s.resume i call next).Answered := by
  intro other hother k hk
  rcases List.mem_or_eq_of_mem_set hother with hother | rfl
  · exact answeredTo_evolves he (h other hother k hk)
  · exact answeredTo_evolves he (answeredTo_of_receipt (hnext k hk))

variable [Sha256]

theorem ServiceState.Answered.apply (hc : Coherent s.db) (h : s.Answered) (action : ServiceAction) :
    (s.apply action).Answered := by
  have hrefines := (s.apply_refines action hc).2
  cases action with
  | authority action => exact fun call hcall k hk => answeredTo_evolves hrefines (h call hcall k hk)
  | claim store request claimId expiredAt reservedAt =>
    intro call hcall k hk
    rcases List.mem_append.mp hcall with hcall | hcall
    · exact answeredTo_evolves hrefines (h call hcall k hk)
    · rw [List.mem_singleton] at hcall
      subst hcall
      exact answeredTo_of_receipt (ClaimService.claim_answered hk)
  | descriptor i answer now =>
    simp only [ServiceState.apply]
    split
    · refine h.resume (ClaimService.descriptorLoaded_refines _ _ _ _ _ hc).2 fun k hk => ?_
      rw [ClaimService.descriptorLoaded_answered] at hk
      cases hk
    · exact h
  | issued i answer now =>
    simp only [ServiceState.apply]
    split
    · refine h.resume (ClaimService.attemptIssued_refines _ _ _ _ _ hc).2 fun k hk => ?_
      rw [ClaimService.attemptIssued_answered] at hk
      cases hk
    · exact h
  | asserted i answer now =>
    simp only [ServiceState.apply]
    split
    · exact h.resume (ClaimService.attemptAsserted_refines _ _ _ _ _ _ _ hc).2 fun k hk =>
        ClaimService.attemptAsserted_answered hk
    · exact h
  | revoked i answer now =>
    simp only [ServiceState.apply]
    split
    · refine h.resume (ClaimService.attemptRevoked_refines _ _ _ _ _ hc).2 fun k hk => ?_
      rw [ClaimService.attemptRevoked_answered] at hk
      cases hk
    · exact h

end Dim.Ordinary
