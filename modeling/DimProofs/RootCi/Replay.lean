/-
Requests of the root CI service that are sent again. What an accepted reservation, activation, recovery or
result wrote is never altered, so an exact replay gets its stored answer in every later state, and another
request under the same id is refused and changes nothing. A renewal writes no answer: each one is decided
on its own.
-/
import DimProofs.RootCi.Effect

namespace Dim.RootCi

open Relational Dim.Ordinary

section
variable [Sha256]

/-! ## What later operations keep -/

/-- A claim receipt `r'` that `r` became. -/
structure ClaimReceiptRow.Follows (r r' : ClaimReceiptRow) : Prop where
  record : r'.toClaimReceiptRecord = r.toClaimReceiptRecord
  recovery : r.state = .recovering ∨ r.state = .released →
    (r'.state = .recovering ∨ r'.state = .released) ∧ r'.recoveryRequestId = r.recoveryRequestId
  released : r.state = .released → r'.state = .released

/-- The rows `w` that the rows `v` of one claim became. -/
structure View.Follows (v w : View) : Prop where
  claim : w.claim.toClaimRecord = v.claim.toClaimRecord
  started : v.claim.state ≠ .preparing → w.claim.state ≠ .preparing
  receipt : ∀ r, v.receipt = some r → ∃ r', w.receipt = some r' ∧ r.Follows r'
  result : ∀ h, v.result = some h → w.result = some h

section
variable {context : ServiceContext} {db db' : RootDatabase} {k : String} {u v w : View} {r r' r'' : ClaimReceiptRow}

section
omit [Sha256]

theorem ClaimReceiptRow.Follows.refl (r : ClaimReceiptRow) : r.Follows r := ⟨rfl, fun h => ⟨h, rfl⟩, id⟩

theorem ClaimReceiptRow.Follows.trans (h : r.Follows r') (h' : r'.Follows r'') : r.Follows r'' := by
  refine ⟨h'.record.trans h.record, ?_, h'.released ∘ h.released⟩
  intro hs
  obtain ⟨hs', hid⟩ := h.recovery hs
  obtain ⟨hs'', hid'⟩ := h'.recovery hs'
  exact ⟨hs'', hid'.trans hid⟩

theorem View.Follows.refl (v : View) : v.Follows v := ⟨rfl, id, fun r hr => ⟨r, hr, .refl r⟩, fun _ hh => hh⟩

theorem View.Follows.trans (h : u.Follows v) (h' : v.Follows w) : u.Follows w := by
  refine ⟨h'.claim.trans h.claim, h'.started ∘ h.started, ?_, fun x hx => h'.result x (h.result x hx)⟩
  intro r hr
  obtain ⟨r', hr', hf⟩ := h.receipt r hr
  obtain ⟨r'', hr'', hf'⟩ := h'.receipt r' hr'
  exact ⟨r'', hr'', hf.trans hf'⟩

theorem Moves.follows (hm : Moves k v w db db') (hf : v.Follows w) :
    ∀ x u, db.view x = some u → ∃ u', db'.view x = some u' ∧ u.Follows u' := by
  intro x u hu
  by_cases hx : x = k
  · rw [hx] at hu ⊢
    cases hm.before.symm.trans hu
    exact ⟨w, hm.after, hf⟩
  · refine ⟨u, ?_, .refl u⟩
    rw [hm.touches.view_ne hx fun c hc => Touches.of_claim (view_eq_some.mp hm.before).1 x c hx hc]
    exact hu

theorem Supersedes.follows {selected : String → Bool} {now : Int} (hs : Supersedes selected now db db') :
    ∀ x u, db.view x = some u → ∃ u', db'.view x = some u' ∧ u.Follows u' := by
  intro x u hu
  refine ⟨u.superseded selected now, by rw [hs.view, hu]; rfl, ?_⟩
  exact ⟨rfl, id, fun r hr => ⟨r, hr, .refl r⟩, fun _ hh => hh⟩

end

/-- An operation replaces no receipt and no result, and takes no claim back to its reservation. -/
theorem apply_follows (hi : Inv db) (action : Action) :
    ∀ x u, db.view x = some u → ∃ u', (db.apply action).view x = some u' ∧ u.Follows u' := by
  rcases apply_cases hi.recorded action with hsame | ⟨-, he⟩
  · rw [hsame]
    exact fun x u hu => ⟨u, hu, .refl u⟩
  generalize action.operation = operation at he
  cases he with
  | activateAdmissions hs => exact hs.follows
  | activateEpoch epochs he => rw [he]; exact fun x u hu => ⟨u, hu, .refl u⟩
  | register hr => exact hr.supersedes.follows
  | revoke row hrow hs => exact hs.follows
  | commitEvent admission row hready hproof hc =>
    intro x u hu
    exact ⟨u, by rw [hc.view hi.recorded]; exact hu, .refl u⟩
  | reserve capacity d r a howns hd horigin hp hfresh hnone hview ht =>
    rename_i request uuid selectedAt updatedAt createdAt claimedAt
    intro x u hu
    have hx : x ≠ uuid := by
      rintro rfl
      rw [(view_eq_some.mp hu).1] at hfresh
      cases hfresh
    exact ⟨u, by rw [ht.view_ne hx fun c hc => hnone x c hc]; exact hu, .refl u⟩
  | activate assignment v e a ha hact hnone hm =>
    refine hm.follows ⟨rfl, fun _ => by simp [View.activated], ?_, fun _ hh => hh⟩
    intro r hr
    rw [hnone] at hr
    cases hr
  | renew v hactive hm =>
    refine hm.follows ⟨rfl, id, ?_, fun _ hh => hh⟩
    intro r hr
    exact ⟨_, Option.map_eq_some_iff.mpr ⟨r, hr, rfl⟩, rfl, fun h => ⟨h, rfl⟩, id⟩
  | prepareRecovery assignment v ha helig hrecoverable hm =>
    refine hm.follows ⟨rfl, fun _ => by simp [View.prepared], ?_, fun _ hh => hh⟩
    intro r hr
    have hrec := hrecoverable r hr
    refine ⟨_, rfl, ?_⟩
    rw [hr]
    refine ⟨rfl, ?_, fun hs => absurd hs hrec.state⟩
    rintro (hs | hs)
    · exact ⟨Or.inl rfl, (hrec.same hs).symm⟩
    · exact absurd hs hrec.state
  | completeRecovery v r demand hcomp hm hend =>
    refine hm.follows ⟨rfl, fun _ => by simp [View.revoked], ?_, fun _ hh => hh⟩
    intro r' hr'
    refine ⟨_, Option.map_eq_some_iff.mpr ⟨r', hr', rfl⟩, rfl, fun _ => ⟨Or.inr rfl, rfl⟩, fun _ => rfl⟩
  | acceptResult row hrow hadmits hm =>
    have hactive := (CurrentClaim.admitted hadmits).receipt
    refine hm.follows ⟨rfl, fun _ => by simp [View.reported], ?_, fun _ hh => by cases hh⟩
    intro r hr
    cases hr
    refine ⟨_, rfl, rfl, ?_, ?_⟩
    · rintro (hs | hs) <;> rw [hactive] at hs <;> cases hs
    · intro hs
      rw [hactive] at hs
      cases hs
  | acknowledge v r o hack hclaim hreceipt hstate hreport hpending hevent hm =>
    refine hm.follows ⟨rfl, fun _ => by simp [View.delivered], ?_, fun _ hh => hh⟩
    intro r' hr'
    cases hreceipt.symm.trans hr'
    refine ⟨_, Option.map_eq_some_iff.mpr ⟨r, hreceipt, rfl⟩, rfl, ?_, fun _ => rfl⟩
    rintro (hs | hs) <;> rw [hstate] at hs <;> cases hs

theorem run_follows (hi : Inv db) : ∀ (actions : List Action) x u, db.view x = some u →
    ∃ u', (db.run actions).view x = some u' ∧ u.Follows u' := by
  intro actions
  induction actions generalizing db with
  | nil => exact fun x u hu => ⟨u, hu, .refl u⟩
  | cons action rest ih =>
    intro x u hu
    obtain ⟨u', hu', hf⟩ := apply_follows hi action x u hu
    obtain ⟨u'', hu'', hf'⟩ := ih (hi.apply action) x u' hu'
    exact ⟨u'', hu'', hf.trans hf'⟩

end

/-! ## Uniqueness -/

omit [Sha256] in
theorem ClaimRow.unique_request : Table.Unique (fun c : ClaimRow => (c.hostId, c.capacity, c.requestId)) := by
  intro a b h
  simp only [Prod.mk.injEq] at h
  exact conflict_of_clash (by simp [Schema.clash, h])

/-- One claim for each demand and for each occupied capacity, and one result for each claim. -/
structure Distinct (db : RootDatabase) : Prop where
  capacity : ∀ c₁ ∈ db.claims.rows, ∀ c₂ ∈ db.claims.rows, c₁.hostId = c₂.hostId → c₁.capacity = c₂.capacity →
    c₁.state ≠ .released → c₂.state ≠ .released → c₁ = c₂
  demand : ∀ c₁ ∈ db.claims.rows, ∀ c₂ ∈ db.claims.rows, c₁.demandId = c₂.demandId → c₁ = c₂
  result : ∀ h₁ ∈ db.hostResults.rows, ∀ h₂ ∈ db.hostResults.rows, h₁.claimId = h₂.claimId → h₁ = h₂

omit [Sha256] in
theorem distinct_of_constraints (db : RootDatabase) : Distinct db where
  capacity c₁ h₁ c₂ h₂ hhost hcap hs₁ hs₂ :=
    db.claims.eq_of_conflict h₁ h₂ (conflict_of_clash (by simp [Schema.clash, hhost, hcap, hs₁, hs₂]))
  demand c₁ h₁ c₂ h₂ h := db.claims.eq_of_conflict h₁ h₂ (ClaimRow.unique_demand c₁ c₂ h)
  result r₁ h₁ r₂ h₂ h := db.hostResults.eq_of_conflict h₁ h₂ (conflict_of_key h)

/-! ## Reservations -/

section
variable {context : ServiceContext} {db db' : RootDatabase}

variable {hostId : String}

omit [Sha256] in
theorem capacity?_spec {capacity : String} {policy : NativeCapacityPolicy}
    (h : context.capacity? hostId capacity = some policy) : policy.hostId = hostId ∧ policy.capacity = capacity := by
  simpa using List.find?_some h

/-- The stored claim answers its request, and refuses another one of the same host, capacity and id. -/
def ReservationKept (request : NativeRootCiClaimRequest) (claim : NativeRootCiClaim) (db : RootDatabase) : Prop :=
  ∀ (context : ServiceContext) (uuid : String) (selectedAt updatedAt createdAt claimedAt : Int),
    ownsActiveEpoch context db = true →
    reserve context request uuid selectedAt updatedAt createdAt claimedAt db = .ok (.replay claim, db) ∧
    ∀ other : NativeRootCiClaimRequest, other.hostId = request.hostId → other.capacity = request.capacity →
      other.requestId = request.requestId → other ≠ request →
      reserve context other uuid selectedAt updatedAt createdAt claimedAt db = .ok (.conflict, db)

theorem reserve_known {request : NativeRootCiClaimRequest} {row : ClaimRow} (uuid : String)
    (selectedAt updatedAt createdAt claimedAt : Int) (howns : ownsActiveEpoch context db = true)
    (hrow : db.requestClaim request = some row) :
    reserve context request uuid selectedAt updatedAt createdAt claimedAt db =
      .ok (if row.generationId ≠ request.generationId then .conflict else .replay row.response, db) := by
  unfold reserve
  rw [howns, hrow]
  simp only [Bool.not_true, Bool.false_eq_true, if_false]
  split <;> rfl

theorem reservation_kept {request : NativeRootCiClaimRequest} {uuid : String}
    {selectedAt updatedAt createdAt claimedAt : Int}
    {claim : NativeRootCiClaim} (hi : Inv db) (hgen : request.generationId = context.generationId)
    (h : reserve context request uuid selectedAt updatedAt createdAt claimedAt db = .ok (.created claim, db'))
    (after : List Action) : ReservationKept request claim (db'.run after) := by
  rcases reserve_cases hi.recorded h with ⟨-, hne⟩ | ⟨capacity, d, r, a, hanswer, -, hcap, -, -, -, -, -, hview, -, -⟩
  · exact absurd rfl (hne claim)
  cases hanswer
  obtain ⟨hhost, hname⟩ := capacity?_spec hcap
  obtain ⟨w, hw, hf⟩ := run_follows (hi.reserve h) after uuid _ hview
  obtain ⟨hclaim, -⟩ := view_eq_some.mp hw
  have hkey : (w.claim.hostId, w.claim.capacity, w.claim.requestId) =
      (request.hostId, request.capacity, request.requestId) := by
    rw [hf.claim]
    simp only [reservedView, claimRow, newClaim, hhost, hname]
  have hrow : ∀ other : NativeRootCiClaimRequest, other.hostId = request.hostId → other.capacity = request.capacity →
      other.requestId = request.requestId → (db'.run after).requestClaim other = some w.claim := by
    intro other h₁ h₂ h₃
    unfold RootDatabase.requestClaim
    rw [h₁, h₂, h₃, ← hkey]
    exact Table.getBy_of_mem ClaimRow.unique_request (Table.get?_mem hclaim)
  have hgeneration : w.claim.generationId = request.generationId := by
    rw [hf.claim, hgen]
    rfl
  intro context' uuid' t₁ t₂ t₃ t₄ howns
  constructor
  · rw [reserve_known uuid' t₁ t₂ t₃ t₄ howns (hrow request rfl rfl rfl), if_neg (not_not.mpr hgeneration), hf.claim]
    rfl
  · intro other h₁ h₂ h₃ hne
    have hother : w.claim.generationId ≠ other.generationId := by
      intro he
      apply hne
      obtain ⟨requestId, generationId, hostId, capacity⟩ := other
      simp only at h₁ h₂ h₃ he
      rw [h₁, h₂, h₃, ← he, hgeneration]
    rw [reserve_known uuid' t₁ t₂ t₃ t₄ howns (hrow other h₁ h₂ h₃), if_pos hother]

/-! ## Activations -/

/-- The stored activation answers its request and issuance. Another request id or issuance for its claim is
refused, and no request activates its claim again or another claim under its id. -/
structure ActivationKept (request : NativeRootCiClaimActivationRequest) (response : NativeRootCiActiveClaim)
    (db : RootDatabase) : Prop where
  replay : activationReplay request db = .replay response
  conflict : ∀ other : NativeRootCiClaimActivationRequest, other.claim.claimId = request.claim.claimId →
    other.requestId ≠ request.requestId ∨ other.issuance ≠ request.issuance → activationReplay other db = .conflict
  unchanged : ∀ (context : ServiceContext) (other : NativeRootCiClaimActivationRequest) (checkedAt now : Int),
    other.claim.claimId = request.claim.claimId ∨ other.requestId = request.requestId →
    db.apply ⟨context, .activate other checkedAt now⟩ = db

omit [Sha256] in
/-- Two claims never hold one request id. -/
theorem claimReceipt_of_sameValue {r r' : ClaimReceiptRow} {k k' : String} (hr : db.claimReceipts.get? k = some r)
    (hr' : db.claimReceipts.get? k' = some r') (h : sameValue r.activationRequestId r'.activationRequestId = true ∨
      sameValue r.recoveryRequestId r'.recoveryRequestId = true) : k = k' := by
  have he := db.claimReceipts.eq_of_conflict (Table.get?_mem hr) (Table.get?_mem hr')
    (conflict_of_clash (by simpa [Schema.clash] using h))
  rw [he] at hr
  exact (Table.get?_key hr).symm.trans (Table.get?_key hr')

variable {assignment : NativeAttemptAssignment} {checkedAt now : Int}

theorem activation_kept {request : NativeRootCiClaimActivationRequest}
    {response : NativeRootCiActiveClaim} (hi : Inv db)
    (ha : nativeRootCiAttemptAssignment request.claim request.issuance = some assignment)
    (h : activate context request assignment checkedAt now db = .ok (.created response, db')) (after : List Action) :
    ActivationKept request response (db'.run after) := by
  have hi' : Inv db' := hi.activate ha h
  rcases activate_cases hi.recorded h with ⟨-, hne⟩ | ⟨v, e, a, hanswer, -, -, hm, -⟩
  · cases hne
  cases hanswer
  obtain ⟨w, hw, hf⟩ := run_follows hi' after _ _ hm.after
  obtain ⟨hclaim, -, hget, -⟩ := view_eq_some.mp hw
  obtain ⟨r, hr, hfr⟩ := hf.receipt _ rfl
  rw [hr] at hget
  have hrec := hfr.record
  refine ⟨?_, ?_, ?_⟩
  · unfold activationReplay
    simp only [hget, hrec]
    simp [activeReceipt]
  · intro other hsame hdiffers
    unfold activationReplay
    simp only [hsame, hget, hrec, activeReceipt]
    rw [if_pos]
    rcases hdiffers with hid | hiss
    · exact Or.inl fun he => hid (Option.some.inj he).symm
    · exact Or.inr fun he => hiss he.symm
  · intro context' other checkedAt' now' hid
    have hi'' := hi'.run after
    rcases apply_cases hi''.recorded ⟨context', .activate other checkedAt' now'⟩ with hsame | ⟨-, he⟩
    · exact hsame
    -- a second activation would find the claim started, or its id taken
    cases he with
    | activate assignment' v' e' a' ha' hact hnone hm' =>
      have hne : other.claim.claimId ≠ request.claim.claimId := by
        intro hk
        have hbefore := hact.before
        rw [hk, hw] at hbefore
        cases hbefore
        exact hf.started (by simp [View.activated]) hact.claim
      have htaken := hid.resolve_left hne
      have hstored := hm'.touches.claimReceipts request.claim.claimId (Ne.symm hne)
      rw [hget] at hstored
      refine absurd (claimReceipt_of_sameValue (view_eq_some.mp hm'.after).2.2.1 hstored (Or.inl ?_)) hne
      simp [sameValue, activeReceipt, hrec, htaken]

/-! ## Recoveries -/

/-- A recovery is pending until it is released, and both are answered by its request and issuance. Another
request id or issuance for its claim is refused, and changes neither its claim nor, under its id, another one. -/
structure RecoveryKept (request : NativeRootCiClaimRecoveryRequest) (db : RootDatabase) : Prop where
  replay : ∃ r, db.claimReceipts.get? request.claimId = some r ∧
    (r.state = .recovering ∧ recoveryReplay request db = .pending ∨ r.state = .released ∧
      recoveryReplay request db = .released)
  conflict : ∀ other : NativeRootCiClaimRecoveryRequest, other.claimId = request.claimId →
    other.requestId ≠ request.requestId ∨ other.issuance ≠ request.issuance → recoveryReplay other db = .conflict
  unchanged : ∀ (context : ServiceContext) (other : NativeRootCiClaimRecoveryRequest),
    (other.claimId = request.claimId ∧ (other.requestId ≠ request.requestId ∨ other.issuance ≠ request.issuance)) ∨
      (other.claimId ≠ request.claimId ∧ other.requestId = request.requestId) →
    (∀ now, db.apply ⟨context, .prepareRecovery other now⟩ = db) ∧
      ∀ revocation now, db.apply ⟨context, .completeRecovery other revocation now⟩ = db

theorem recovery_kept {request : NativeRootCiClaimRecoveryRequest}
    (hi : Inv db) (ha : nativeRootCiAttemptAssignment request.claim request.issuance = some assignment)
    (h : prepareRecovery context request assignment now db = .ok (.pending, db')) (after : List Action) :
    RecoveryKept request (db'.run after) := by
  have hi' : Inv db' := hi.prepareRecovery ha h
  rcases prepareRecovery_cases hi.recorded h with ⟨-, hne⟩ | ⟨v, -, -, hrecoverable, hm, -⟩
  · exact absurd rfl hne
  have hprepared : (preparedReceipt request assignment now v.receipt).state = .recovering ∧
      (preparedReceipt request assignment now v.receipt).recoveryRequestId = some request.requestId ∧
      (preparedReceipt request assignment now v.receipt).issuance = request.issuance := by
    cases hv : v.receipt with
    | none => exact ⟨rfl, rfl, rfl⟩
    | some r => exact ⟨rfl, rfl, (hrecoverable r hv).issuance⟩
  obtain ⟨hstate, hid, hissuance⟩ := hprepared
  obtain ⟨w, hw, hf⟩ := run_follows hi' after _ _ hm.after
  obtain ⟨-, -, hget, -⟩ := view_eq_some.mp hw
  obtain ⟨r, hr, hfr⟩ := hf.receipt _ rfl
  rw [hr] at hget
  obtain ⟨hrs, hrid⟩ := hfr.recovery (Or.inl hstate)
  rw [hid] at hrid
  have hri : r.issuance = request.issuance := (congrArg ClaimReceiptRecord.issuance hfr.record).trans hissuance
  have hopen : ¬ (r.state = .active ∨ r.state = .reported) := by
    rcases hrs with hs | hs <;> rw [hs] <;> decide
  have hi'' := hi'.run after
  refine ⟨⟨r, hget, ?_⟩, ?_, ?_⟩
  · unfold recoveryReplay
    simp only [hget, hri, hrid]
    rcases hrs with hs | hs
    · exact Or.inl ⟨hs, by simp [hs]⟩
    · exact Or.inr ⟨hs, by simp [hs]⟩
  · intro other hsame hdiffers
    unfold recoveryReplay
    simp only [hsame, hget, hri, hrid]
    rw [if_neg hopen, if_pos]
    rcases hdiffers with hid | hiss
    · exact Or.inl fun he => hid (Option.some.inj he).symm
    · exact Or.inr fun he => hiss he.symm
  · intro context' other hother
    -- a recovery of the claim in question has the stored id and issuance
    have hforeign : ∀ u x, (db'.run after).view other.claimId = some u → u.receipt = some x →
        x.recoveryRequestId = some other.requestId → x.issuance ≠ other.issuance := by
      intro u x hu hx hxid hxiss
      have hxget := (view_eq_some.mp hu).2.2.1
      rw [hx] at hxget
      rcases hother with ⟨hsame, hdiffers⟩ | ⟨hne, htaken⟩
      · rw [hsame, hget] at hxget
        cases hxget
        rw [hrid] at hxid
        rcases hdiffers with h₁ | h₁
        · exact h₁ (Option.some.inj hxid).symm
        · exact h₁ (hxiss.symm.trans hri)
      · refine hne (claimReceipt_of_sameValue hxget hget (Or.inr ?_))
        simp [sameValue, hxid, hrid, htaken]
    constructor
    · intro now'
      rcases apply_cases hi''.recorded ⟨context', .prepareRecovery other now'⟩ with hsame | ⟨-, he⟩
      · exact hsame
      cases he with
      | prepareRecovery assignment' u ha' helig hrecoverable' hm' =>
        exfalso
        rcases hother with ⟨hsame, hdiffers⟩ | ⟨hne, htaken⟩
        · have hbefore := hm'.before
          rw [hsame, hw] at hbefore
          cases hbefore
          have hrec := hrecoverable' r hr
          rcases hrs with hs | hs
          · exact hforeign w r (by rw [hsame]; exact hw) hr (hrec.same hs) hrec.issuance
          · exact hrec.state hs
        · have hstored := hm'.touches.claimReceipts request.claimId (Ne.symm hne)
          rw [hget] at hstored
          refine hne (claimReceipt_of_sameValue (view_eq_some.mp hm'.after).2.2.1 hstored (Or.inr ?_))
          have hprepared : (preparedReceipt other assignment' now' u.receipt).recoveryRequestId = some other.requestId := by
            cases u.receipt <;> rfl
          simp [sameValue, hprepared, hrid, htaken]
    · intro revocation now'
      rcases apply_cases hi''.recorded ⟨context', .completeRecovery other revocation now'⟩ with hsame | ⟨-, he⟩
      · exact hsame
      cases he with
      | completeRecovery u x demand hcomp hm' hend =>
        exact absurd hcomp.issuance (hforeign u x hcomp.before hcomp.receipt hcomp.requestId)

/-! ## Results -/

omit [Sha256] in
theorem HostResultRow.unique_request : Table.Unique (fun h : HostResultRow => (h.hostId, h.requestId)) := by
  intro a b h
  simp only [Prod.mk.injEq] at h
  exact conflict_of_clash (by simp [Schema.clash, h])

/-- The stored result answers its request, and refuses any other one for its claim or under its id. -/
def ResultKept (hostId : String) (request : NativeRootCiHostResultRequest) (db : RootDatabase) : Prop :=
  ∀ (context : ServiceContext) (checkedAt now : Int),
    acceptResult context hostId request checkedAt now db = .ok (.accepted, db) ∧
    ∀ (otherHost : String) (other : NativeRootCiHostResultRequest), otherHost ≠ hostId ∨ other ≠ request →
      other.claimId = request.claimId ∨ (otherHost = hostId ∧ other.requestId = request.requestId) →
      acceptResult context otherHost other checkedAt now db = .ok (.conflict, db)

variable {request : NativeRootCiHostResultRequest}

/-- The answer of `accept` once a result stands in the way. -/
theorem acceptResult_existing {existing : HostResultRow}
    (checkedAt now : Int) (h : db.existingResult hostId request = some existing) :
    acceptResult context hostId request checkedAt now db = .ok (if existing.claimId = request.claimId ∧
      existing.hostId = hostId ∧ existing.requestId = request.requestId ∧ existing.request = request then .accepted
      else .conflict, db) := by
  unfold acceptResult acceptWith
  rw [h]
  rfl

/-- A stored result keeps its request, whichever row the query of `accept` meets first. -/
theorem resultKept_of_row {row : HostResultRow}
    (hmem : row ∈ db.hostResults.rows) (hclaim : row.claimId = request.claimId) (hhost : row.hostId = hostId)
    (hid : row.requestId = request.requestId) (hrequest : row.request = request) : ResultKept hostId request db := by
  have hdistinct := (distinct_of_constraints db).result
  have hsame : ∀ s ∈ db.hostResults.rows, s.claimId = row.claimId ∨ (s.hostId = row.hostId ∧ s.requestId = row.requestId) →
      s = row := by
    rintro s hs (h | ⟨h₁, h₂⟩)
    · exact hdistinct s hs row hmem h
    · exact db.hostResults.eq_of_conflict hs hmem (HostResultRow.unique_request s row (by simp [h₁, h₂]))
  have hfound : ∀ otherHost (other : NativeRootCiHostResultRequest), other.claimId = request.claimId ∨
      (otherHost = hostId ∧ other.requestId = request.requestId) → ∃ s, db.existingResult otherHost other = some s ∧
        s ∈ db.hostResults.rows ∧ (s.claimId = other.claimId ∨ (s.hostId = otherHost ∧ s.requestId = other.requestId)) := by
    intro otherHost other hother
    have hsome : (db.existingResult otherHost other).isSome := by
      unfold RootDatabase.existingResult
      rw [List.find?_isSome]
      refine ⟨row, hmem, ?_⟩
      rcases hother with h | ⟨h₁, h₂⟩
      · simp [hclaim, h]
      · simp [hhost, hid, h₁, h₂]
    obtain ⟨s, hs⟩ := Option.isSome_iff_exists.mp hsome
    have hp := List.find?_some hs
    exact ⟨s, hs, List.mem_of_find?_eq_some hs, by simpa using hp⟩
  intro context' checkedAt now
  constructor
  · obtain ⟨s, hs, hsmem, hkey⟩ := hfound hostId request (Or.inl rfl)
    have heq : s = row := by
      apply hsame s hsmem
      rw [hclaim, hhost, hid]
      exact hkey
    rw [acceptResult_existing checkedAt now hs, heq, if_pos ⟨hclaim, hhost, hid, hrequest⟩]
  · intro otherHost other hdiffers hother
    obtain ⟨s, hs, hsmem, -⟩ := hfound otherHost other hother
    rw [acceptResult_existing checkedAt now hs, if_neg]
    rintro ⟨h₁, h₂, h₃, h₄⟩
    -- the row that answers `other` shares a key with the stored one
    have heq : s = row := by
      apply hsame s hsmem
      rw [h₁, h₂, h₃, hclaim, hhost, hid]
      exact hother
    rw [heq] at h₂ h₄
    rcases hdiffers with hne | hne
    · exact hne (h₂.symm.trans hhost)
    · exact hne (h₄.symm.trans hrequest)

theorem result_kept (hi : Inv db)
    (h : acceptResult context hostId request checkedAt now db = .ok (.accepted, db')) (after : List Action) :
    ResultKept hostId request (db'.run after) := by
  have hi' : Inv db' := hi.acceptResult h
  have hstored : ∃ row v, db'.view request.claimId = some v ∧ v.result = some row ∧ row.claimId = request.claimId ∧
      row.hostId = hostId ∧ row.requestId = request.requestId ∧ row.request = request := by
    rcases acceptResult_cases h with ⟨rfl, hexisting⟩ | ⟨row, -, -, -, hm, -⟩
    · obtain ⟨existing, hfind, hclaim, hhost, hid, hrequest⟩ := hexisting rfl
      have hget := Table.get?_of_mem (List.mem_of_find?_eq_some hfind)
      rw [HostResultRow.key_eq, hclaim] at hget
      obtain ⟨-, c, -, -, hc, -, -⟩ := hi.recorded.result request.claimId existing hget
      obtain ⟨row, hrow, -⟩ := Option.map_eq_some_iff.mp hc
      obtain ⟨d, -, hview⟩ := view_of_claim hi.recorded hrow
      exact ⟨existing, _, hview, hget, hclaim, hhost, hid, hrequest⟩
    · exact ⟨_, _, hm.after, rfl, rfl, rfl, rfl, rfl⟩
  obtain ⟨row, v, hv, hresult, hclaim, hhost, hid, hrequest⟩ := hstored
  obtain ⟨w, hw, hf⟩ := run_follows hi' after _ _ hv
  obtain ⟨-, -, -, hget, -⟩ := view_eq_some.mp hw
  rw [hf.result row hresult] at hget
  exact resultKept_of_row (Table.get?_mem hget) hclaim hhost hid hrequest

end

/-! ## Every history -/

/-- The requests that a state accepts are kept in all later states. -/
structure RequestsKept (db : RootDatabase) : Prop where
  distinct : Distinct db
  follows : ∀ (after : List Action) k v, db.view k = some v → ∃ w, (db.run after).view k = some w ∧ v.Follows w
  reservation : ∀ context request uuid selectedAt updatedAt createdAt claimedAt claim db',
    request.generationId = context.generationId →
    reserve context request uuid selectedAt updatedAt createdAt claimedAt db = .ok (.created claim, db') →
    ∀ after : List Action, ReservationKept request claim (db'.run after)
  activation : ∀ context request assignment checkedAt now response db',
    nativeRootCiAttemptAssignment request.claim request.issuance = some assignment →
    activate context request assignment checkedAt now db = .ok (.created response, db') →
    ∀ after : List Action, ActivationKept request response (db'.run after)
  recovery : ∀ context request assignment now db',
    nativeRootCiAttemptAssignment request.claim request.issuance = some assignment →
    prepareRecovery context request assignment now db = .ok (.pending, db') →
    ∀ after : List Action, RecoveryKept request (db'.run after)
  result : ∀ context hostId request checkedAt now db',
    acceptResult context hostId request checkedAt now db = .ok (.accepted, db') →
    ∀ after : List Action, ResultKept hostId request (db'.run after)

/-- In every state of every history there is one claim for each occupied capacity and for each demand and one
result for each claim, and accepted reservations, activations, recoveries and results are kept. -/
theorem requests_kept (actions : List Action) : RequestsKept (RootDatabase.empty.run actions) := by
  have hi : Inv (RootDatabase.empty.run actions) := Inv.empty.run actions
  constructor
  · exact distinct_of_constraints _
  · exact fun after k v hv => run_follows hi after k v hv
  · intro context request uuid selectedAt updatedAt createdAt claimedAt claim db' hgen h after
    exact reservation_kept hi hgen h after
  · intro context request assignment checkedAt now response db' ha h after
    exact activation_kept hi ha h after
  · intro context request assignment now db' ha h after
    exact recovery_kept hi ha h after
  · intro context hostId request checkedAt now db' h after
    exact result_kept hi h after

/-- The tables agree on every claim: its rows are in one of the combinations that `Fits` lists, and no receipt, result or
report is there without its claim. -/
structure Joint (db : RootDatabase) : Prop where
  fits : ∀ claim ∈ db.claims.rows, ∃ v, db.view claim.claimId = some v ∧ v.claim = claim ∧ v.Fits
  receipts : ∀ r ∈ db.claimReceipts.rows, (db.claims.get? r.claimId).isSome
  results : ∀ h ∈ db.hostResults.rows, (db.claims.get? h.claimId).isSome
  reports : ∀ o ∈ db.reportOutbox.rows, (db.hostResults.get? o.claimId).isSome

/-- The tables agree in every state of every history, whether a start accepts it or not. -/
theorem claims_joint (actions : List Action) : Joint (RootDatabase.empty.run actions) := by
  have hi : Inv (RootDatabase.empty.run actions) := Inv.empty.run actions
  constructor
  · intro claim hclaim
    have hget := Table.get?_of_mem hclaim
    obtain ⟨d, -, hview⟩ := view_of_claim hi.recorded hget
    exact ⟨_, hview, rfl, hi.fits _ _ hview⟩
  · intro r hr
    obtain ⟨c, hc, -⟩ := hi.recorded.claimReceipt _ _ (Option.map_eq_some_iff.mpr ⟨r, Table.get?_of_mem hr, rfl⟩)
    exact Option.isSome_map.symm.trans (Option.isSome_of_mem hc)
  · intro h hh
    obtain ⟨-, c, -, -, hc, -⟩ := hi.recorded.result _ _ (Table.get?_of_mem hh)
    exact Option.isSome_map.symm.trans (Option.isSome_of_mem hc)
  · intro o ho
    obtain ⟨h, hh⟩ := hi.recorded.report _ _ (Option.map_eq_some_iff.mpr ⟨o, Table.get?_of_mem ho, rfl⟩)
    exact Option.isSome_of_mem hh

end

namespace Sample

attribute [local instance] sha256

def activated : List Action := reservation ++ [step (.activate activation 4 4)]

def renewal : NativeRootCiClaimLeaseRequest :=
  { requestId := "renewal", generationId := "generation", hostId := "host", capacity := "small", claimId := "claim",
    attemptId := "attempt", descriptorDigest := nativeDescriptorDigest descriptor }

/-- The answer to a renewal at `now`, and what it leaves. -/
def renewed (now : Int) (db : RootDatabase) : Option Int × RootDatabase :=
  match renew context renewal now now now db with
  | .ok (answer, db') => (answer.map (·.leaseExpiresAt), db')
  | .error _ => (none, db)

/-- A second capacity of the host, for a request id that the first one has used. -/
def wide : ServiceContext := { context with capacities := [capacity, { capacity with capacity := "large" }] }

/-- An accepted renewal sent again while its claim is active gets another lease; the id of the reservation is
free on another capacity of the host; and a superseded instance refuses the exact reservation. -/
theorem renewal_sentAgain :
    (renewed 10 (RootDatabase.empty.run activated)).1 = some 110 ∧
    (renewed 20 (renewed 10 (RootDatabase.empty.run activated)).2).1 = some 120 ∧
    (reserve wide { claimRequest with capacity := "large" } "other" 5 5 5 5
      (RootDatabase.empty.run reservation)).toOption.map (·.1) = some .empty ∧
    (reserve { context with serviceEpochId := "epoch-0" } claimRequest "other" 5 5 5 5
      (RootDatabase.empty.run reservation)).toOption.map (·.1) = none := by
  decide +kernel

end Sample

end Dim.RootCi
