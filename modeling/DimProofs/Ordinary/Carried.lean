/-
What the transactions outside the lease store do to the claims: none of them writes a renewal or a
recovery, and none moves a claim that waits for its recovery or was released.
-/
import DimProofs.Ordinary.Instances

namespace Dim.Ordinary

open Relational

/-- What renewals and recoveries alone write to a claim. -/
def Claim.marks (c : Claim) : Option String × Option String × Option String × Option NativeJobAttemptRevocation :=
  (c.renewalRequestId, c.recoveryRequestId, c.recoveryResourceId, c.nativeRevocation)

/-- A claim after any other transaction. One that waits for its recovery, or is released, stays so. -/
structure Claim.Carried (c c' : Claim) : Prop where
  identity : c'.identity = c.identity
  marks : c'.marks = c.marks
  state : c'.state = c.state ∨ c.state = .active ∨ c.state = .reported

theorem Claim.Carried.refl (c : Claim) : c.Carried c := ⟨rfl, rfl, Or.inl rfl⟩

theorem Claim.Carried.trans {c c' c'' : Claim} (h : c.Carried c') (h' : c'.Carried c'') : c.Carried c'' := by
  refine ⟨h'.identity.trans h.identity, h'.marks.trans h.marks, ?_⟩
  rcases h.state with he | hlive
  · rw [← he]
    exact h'.state
  · exact Or.inr hlive

/-- The effect of any other transaction on one claim id. -/
def CarriesAt (db db' : AuthorityDatabase) (k : String) : Prop :=
  (∃ c c', db.claims.get? k = some c ∧ db'.claims.get? k = some c' ∧ c.Carried c') ∨
    db.claims.get? k = none ∧ ∀ c', db'.claims.get? k = some c' → c'.renewalRequestId = none

def Carries (db db' : AuthorityDatabase) : Prop := ∀ k, CarriesAt db db' k

theorem Carries.of_eq {db db' : AuthorityDatabase} (h : db'.claims = db.claims) : Carries db db' := by
  intro k
  unfold CarriesAt
  rw [h]
  cases hget : db.claims.get? k with
  | none => exact Or.inr ⟨rfl, fun _ hc => by cases hc⟩
  | some c => exact Or.inl ⟨c, c, rfl, rfl, .refl c⟩

theorem Carries.refl (db : AuthorityDatabase) : Carries db db := .of_eq rfl

theorem Carries.of_update {db db' : AuthorityDatabase} {p : Claim → Bool} {f : Claim → Claim}
    (h : db.claims.update (ε := AuthorityError) p f = .ok db'.claims) (hk : ∀ c, (f c).claimId = c.claimId)
    (hf : ∀ c ∈ db.claims.rows, p c = true → c.Carried (f c)) : Carries db db' := by
  intro k
  cases hget : db.claims.get? k with
  | none =>
    refine Or.inr ⟨hget, ?_⟩
    intro c' hc'
    rw [Table.get?_update h hk, hget] at hc'
    cases hc'
  | some c =>
    obtain ⟨c', hc', hcarried⟩ := Table.Grows.update Claim.Carried.refl h hk hf k c hget
    exact Or.inl ⟨c, c', hget, hc', hcarried⟩

variable {db db' : AuthorityDatabase}

theorem Carries.trans {db'' : AuthorityDatabase} (h : Carries db db') (h' : Carries db' db'') :
    Carries db db'' := by
  intro k
  rcases h k with ⟨c, c', hc, hc', hcarried⟩ | ⟨hnone, hnew⟩
  · rcases h' k with ⟨d, d', hd, hd', hcarried'⟩ | ⟨hnone', -⟩
    · rw [hc', Option.some.injEq] at hd
      subst hd
      exact Or.inl ⟨c, d', hc, hd', hcarried.trans hcarried'⟩
    · rw [hc'] at hnone'
      cases hnone'
  · refine Or.inr ⟨hnone, ?_⟩
    rcases h' k with ⟨d, d', hd, hd', hcarried'⟩ | ⟨-, hnew'⟩
    · intro c'' hc''
      rw [hd', Option.some.injEq] at hc''
      subst hc''
      have hmarks := hcarried'.marks
      simp only [Claim.marks, Prod.mk.injEq] at hmarks
      exact hmarks.1.trans (hnew d hd)
    · exact hnew'

/-- An update of the row of a claim id that holds one claim. -/
theorem Carries.of_update_one {k : String} {c : Claim} {f : Claim → Claim}
    (h : db.claims.update (ε := AuthorityError) (fun c => c.claimId = k) f = .ok db'.claims)
    (hk : ∀ c, (f c).claimId = c.claimId) (hget : db.claims.get? k = some c) (hf : c.Carried (f c)) : Carries db db' := by
  refine .of_update h hk fun c' hc' hp => ?_
  have hsame := Table.get?_of_mem hc'
  rw [Claim.key_eq, (by simpa using hp : c'.claimId = k), hget, Option.some.injEq] at hsame
  exact hsame ▸ hf

theorem insertActiveClaim_carries {options : ClaimStoreOptions} {request : NativeHostClaimRequest}
    {reservation : PreparingReservation} {proof : NativeClaimActivationProof} {demandId : String} {now : Int}
    (h : ClaimStore.insertActiveClaim options request reservation proof demandId now db = .ok db') : Carries db db' := by
  simp only [ClaimStore.insertActiveClaim, bind_ok, pure_ok] at h
  obtain ⟨-, -, claims, hcl, _, -, _, -, _, -, rfl⟩ := h
  intro k
  by_cases hk : k = reservation.claimId
  · refine Or.inr ⟨by rw [hk]; exact Table.get?_insert_fresh hcl, ?_⟩
    intro c' hc'
    rw [Table.get?_insert hcl] at hc'
    split at hc'
    · cases hc'
      rfl
    · rename_i hne
      exact absurd hk hne
  · have hsame : claims.get? k = db.claims.get? k := by
      rw [Table.get?_insert hcl]
      exact if_neg hk
    cases hget : db.claims.get? k with
    | none => exact Or.inr ⟨hget, fun c' hc' => by rw [show claims.get? k = some c' from hc', hget] at hsame; cases hsame⟩
    | some c => exact Or.inl ⟨c, c, hget, hsame.trans hget, .refl c⟩

/-- The parts of the lease store. -/
def Part.leases : Part → Bool
  | .renewal _ | .recovery => true
  | _ => false

section
variable [Sha256] {now : Int} {part : Part}

theorem Write.carries (hpart : part.leases = false) (h : Write now part db db') : Carries db db' := by
  cases h with
  | fence _ hp h =>
    simp only [fenceClaims, bind_ok, pure_ok] at h
    obtain ⟨_, -, claims, hcl, rfl⟩ := h
    exact .of_update hcl (fun _ => rfl) fun c _ hc => ⟨rfl, rfl, Or.inr (Or.inl (hp c hc))⟩
  | @settle _ _ c _ _ _ _ _ hs h =>
    obtain ⟨hget, hreported, -⟩ := ResultStore.settleable_some hs
    simp only [ResultStore.settle, bind_ok, pure_ok] at h
    obtain ⟨_, -, _, hcl, _, -, _, -, _, -, rfl⟩ := h
    have hkey : db.claims.get? c.claimId = some c := Table.get?_of_mem (Table.get?_mem hget)
    exact .of_update_one hcl (fun _ => rfl) hkey ⟨rfl, rfl, Or.inr (Or.inr hreported)⟩
  | restart _ h =>
    simp only [fenceRestartedClaims, bind_ok, pure_ok] at h
    obtain ⟨claims, hcl, _, -, rfl⟩ := h
    exact .of_update hcl (fun _ => rfl) fun c _ hc => ⟨rfl, rfl, Or.inr (Or.inl (by simpa [Claim.isActive] using hc))⟩
  | withdraw | endEpochs | beginEpoch | renewAdmission | replay | releaseStale | deliver | retry => exact .of_eq rfl
  | insertAdmission h =>
    simp only [AuthorityStore.insertAdmission, bind_ok, pure_ok] at h
    obtain ⟨_, -, rfl⟩ := h
    exact .of_eq rfl
  | intake h =>
    simp only [EventStore.insertAccepted, bind_ok, pure_ok] at h
    obtain ⟨_, -, _, -, _, -, _, -, _, -, rfl⟩ := h
    exact .of_eq rfl
  | answerEmpty _ h | reserve _ _ h =>
    simp only [ClaimStore.insertReceipt, bind_ok, pure_ok] at h
    obtain ⟨_, -, rfl⟩ := h
    exact .of_eq rfl
  | activate _ _ h => exact insertActiveClaim_carries h
  | renew | fenceForRecovery | recordRecovery | releaseRecovered => cases hpart
  | result hc hcur h =>
    simp only [ResultStore.currentClaim, Bool.and_eq_true, decide_eq_true_eq] at hcur
    simp only [ResultStore.recordResult, bind_ok, pure_ok] at h
    obtain ⟨_, -, _, -, _, hcl, _, -, _, -, rfl⟩ := h
    exact .of_update_one hcl (fun _ => rfl) hc ⟨rfl, rfl, Or.inr (Or.inl (by tauto))⟩

theorem Writes.carries (hpart : part.leases = false) (h : Writes now part db db') : Carries db db' :=
  h.keep Carries.refl (fun _ _ _ => Carries.trans) fun _ _ => Write.carries hpart

theorem Transaction.body_carries {store : NativeOrdinaryAuthorityStore} {t : Transaction}
    (ht : (t.part store).leases = false) (h : t.body store db = .ok db') : Carries db db' :=
  let ⟨_, hw⟩ := body_writes h
  hw.carries ht

end

end Dim.Ordinary
