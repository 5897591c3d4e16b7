/-
What each operation does to the rows of its claim. An operation either leaves the state as it is or
replaces the rows of one claim, and its lemma says which rows it finds and which it leaves.
-/
import DimProofs.RootCi.Status

namespace Dim.RootCi

open Relational Dim.Ordinary

section
variable [Sha256]

/-- The rows `v` of claim `k` become `v'`, and nothing else changes. -/
structure Moves (k : String) (v v' : View) (db db' : RootDatabase) : Prop where
  before : db.view k = some v
  after : db'.view k = some v'
  touches : Touches k v.claim.demandId db db'

variable {P : String → View → Prop} {w : View}

omit [Sha256] in
/-- A property of the rows of every claim, after an operation on one claim. -/
theorem views_touched {k d₀ : String} {db db' : RootDatabase}
    (h : ∀ x v, db.view x = some v → P x v) (ht : Touches k d₀ db db')
    (hd : ∀ x c, x ≠ k → db.claims.get? x = some c → c.demandId ≠ d₀) (hw : db'.view k = some w) (hP : P k w) :
    ∀ x v, db'.view x = some v → P x v := by
  intro x v hv
  by_cases hx : x = k
  · rw [hx] at hv ⊢
    cases hw.symm.trans hv
    exact hP
  · rw [ht.view_ne hx fun c hc => hd x c hx hc] at hv
    exact h x v hv

omit [Sha256] in
theorem Moves.views {k : String} {v : View} {db db' : RootDatabase} (hm : Moves k v w db db')
    (h : ∀ x v, db.view x = some v → P x v) (hP : P k w) : ∀ x v, db'.view x = some v → P x v :=
  views_touched h hm.touches (Touches.of_claim (view_eq_some.mp hm.before).1) hm.after hP

/-! ## Reading a valid ledger -/

section
variable {db db' : RootDatabase} {k : String} {c : ClaimRow} {context : ServiceContext}

theorem columns_of_claim (h : db.records.Valid) (hc : db.claims.get? k = some c) : ClaimColumns c.toClaimRecord :=
  h.columns (k := k) (by simp [RootDatabase.records, hc])

theorem view_of_claim (h : db.records.Valid) (hc : db.claims.get? k = some c) :
    ∃ d, db.demands.get? c.demandId = some d ∧
      db.view k = some ⟨c, d, db.claimReceipts.get? k, db.hostResults.get? k, db.reportOutbox.get? k⟩ := by
  have hrec : db.records.claim k = some c.toClaimRecord := by simp [RootDatabase.records, hc]
  obtain ⟨d, -, -, hd, -⟩ := h.claim k _ hrec
  obtain ⟨row, hrow, -⟩ := Option.map_eq_some_iff.mp hd
  exact ⟨row, hrow, view_eq_some.mpr ⟨hc, hrow, rfl, rfl, rfl⟩⟩

/-- The rows that reference a claim. -/
theorem unclaimed (h : db.records.Valid) (hk : db.claims.get? k = none) : db.claimReceipts.get? k = none ∧
    db.hostResults.get? k = none ∧ db.reportOutbox.get? k = none := by
  have hrec : db.records.claim k = none := by simp [RootDatabase.records, hk]
  have hresult : db.hostResults.get? k = none := by
    cases hh : db.hostResults.get? k with
    | none => rfl
    | some row =>
      obtain ⟨-, c, -, -, hc, -⟩ := h.result k row hh
      rw [hrec] at hc; cases hc
  refine ⟨?_, hresult, ?_⟩
  · cases hr : db.claimReceipts.get? k with
    | none => rfl
    | some row =>
      obtain ⟨c, hc, -⟩ := h.claimReceipt k row.toClaimReceiptRecord (by simp [RootDatabase.records, hr])
      rw [hrec] at hc; cases hc
  · cases ho : db.reportOutbox.get? k with
    | none => rfl
    | some row =>
      obtain ⟨row', hh⟩ := h.report k row.toReportRecord (by simp [RootDatabase.records, ho])
      rw [show db.records.result k = db.hostResults.get? k from rfl, hresult] at hh
      cases hh

omit [Sha256] in
theorem ownsActiveEpoch_epoch (h : ownsActiveEpoch context db = true) :
    ∃ e, db.epochs.get? context.serviceEpochId = some e ∧ e.generationId = context.generationId ∧ e.active = true := by
  obtain ⟨e, he, hp⟩ := (Option.any_eq_true _ _).mp h
  simp only [Bool.and_eq_true, decide_eq_true_eq] at hp
  exact ⟨e, he, hp⟩

variable {a : AdmissionRow} {d : DemandRow}

omit [Sha256] in
theorem origin_eq_some {r : EventReceiptRow} : db.origin d = some (r, a) ↔
    db.receiptOf d = some r ∧ db.admissions.get? d.admissionGeneration = some a := by
  unfold RootDatabase.origin
  cases db.receiptOf d <;> cases db.admissions.get? d.admissionGeneration <;> simp

omit [Sha256] in
theorem joined_eq_some {e : EventReceiptRow} : db.joined c = some (d, e, a) ↔
    db.demands.get? c.demandId = some d ∧ db.receiptOf d = some e ∧ db.admissions.get? c.admissionGeneration = some a := by
  unfold RootDatabase.joined
  cases hd : db.demands.get? c.demandId with
  | none => simp
  | some d₁ => cases hr : db.receiptOf d₁ <;> cases db.admissions.get? c.admissionGeneration <;> simp <;> grind

end

/-! ## Reservation -/

section
variable {context : ServiceContext} {db db' : RootDatabase}

/-- The rows of a new claim. -/
def reservedView (context : ServiceContext) (request : NativeRootCiClaimRequest) (capacity : NativeCapacityPolicy)
    (d : DemandRow) (r : EventReceiptRow) (a : AdmissionRow) (uuid : String) (updatedAt createdAt claimedAt : Int) :
    View where
  claim := claimRow (newClaim context request capacity d r a uuid) createdAt claimedAt
  demand := { d with state := .preparing, updatedAt }
  receipt := none
  result := none
  report := none

theorem reserve_cases {request : NativeRootCiClaimRequest} {uuid : String} {selectedAt updatedAt createdAt claimedAt : Int}
    {answer : ClaimReservationResult} (hv : db.records.Valid)
    (h : reserve context request uuid selectedAt updatedAt createdAt claimedAt db = .ok (answer, db')) :
    (db' = db ∧ ∀ claim, answer ≠ .created claim) ∨
    ∃ capacity d r a, answer = .created (newClaim context request capacity d r a uuid) ∧
      ownsActiveEpoch context db = true ∧ context.capacity? request.hostId request.capacity = some capacity ∧
      db.demands.get? d.demandId = some d ∧ db.origin d = some (r, a) ∧ db.reservable context selectedAt d = true ∧
      db.claims.get? uuid = none ∧
      (∀ x c, db.claims.get? x = some c → c.demandId ≠ d.demandId) ∧
      db'.view uuid = some (reservedView context request capacity d r a uuid updatedAt createdAt claimedAt) ∧
      Touches uuid d.demandId db db' ∧ db'.records = { db.records with
        claim := put db.records.claim uuid
          (claimRow (newClaim context request capacity d r a uuid) createdAt claimedAt).toClaimRecord } := by
  unfold reserve at h
  split at h
  · cases h
  rename_i howns
  rw [Bool.not_eq_true, Bool.not_eq_false'] at howns
  split at h
  · split at h <;> cases pure_ok.mp h <;> exact Or.inl ⟨rfl, by simp⟩
  · split at h
    · cases pure_ok.mp h; exact Or.inl ⟨rfl, by simp⟩
    · rename_i capacity hcap
      split at h
      · cases pure_ok.mp h
        refine Or.inl ⟨rfl, ?_⟩
        intro claim
        split <;> simp
      · -- the capacity is free
        unfold reserveOldest at h
        split at h
        · cases pure_ok.mp h; exact Or.inl ⟨rfl, by simp⟩
        · rename_i d hsel
          split at h
          · cases pure_ok.mp h; exact Or.inl ⟨rfl, by simp⟩
          · rename_i r a horigin
            right
            obtain ⟨db₁, hmove, h⟩ := bind_ok.mp h
            obtain ⟨db₂, hins, h⟩ := bind_ok.mp h
            cases pure_ok.mp h
            obtain ⟨hmem, hp⟩ := Table.select_mem hsel
            obtain ⟨d₁, demands, rfl, hd₁, -, hget, htd, hrd⟩ := moveDemand_ok hmove uuid
            have hd : db.demands.get? d.demandId = some d := Table.get?_of_mem hmem
            rw [hd] at hd₁
            cases hd₁
            obtain ⟨claims, rfl, hfresh, hclaim, hnone, htc, -, hrc⟩ := insertClaim_ok hins d.demandId
            obtain ⟨hr, hh, ho⟩ := unclaimed hv hfresh
            refine ⟨capacity, d, r, a, rfl, howns, hcap, hd, horigin, hp, hfresh, hnone, ?_, htd.trans htc, ?_⟩
            · exact view_eq_some.mpr ⟨hclaim, hget, hr, hh, ho⟩
            · rw [hrc, hrd]
              rfl

end

/-! ## Activation and renewal -/

section
variable {context : ServiceContext} {db db' : RootDatabase}

def View.activated (request : NativeRootCiClaimActivationRequest) (context : ServiceContext)
    (assignment : NativeAttemptAssignment) (now : Int) (v : View) : View where
  claim := { v.claim with state := .active, updatedAt := now }
  demand := { v.demand with state := .active, updatedAt := now }
  receipt := some (activeReceipt context request assignment now)
  result := v.result
  report := v.report

/-- A claim that may be activated, with its event and admission. -/
structure Activatable (context : ServiceContext) (request : NativeRootCiClaimActivationRequest) (now : Int)
    (db : RootDatabase) (v : View) (e : EventReceiptRow) (a : AdmissionRow) : Prop where
  before : db.view request.claim.claimId = some v
  generation : request.generationId = context.generationId
  epoch : request.claim.serviceEpochId = context.serviceEpochId
  owns : ownsActiveEpoch context db = true
  response : v.claim.response = request.claim
  claim : v.claim.state = .preparing
  demand : v.demand.state = .preparing
  event : db.receiptOf v.demand = some e
  admission : db.admissions.get? v.claim.admissionGeneration = some a
  active : a.state = .active
  lease : now < a.leaseExpiresAt
  stands : a.standsFor v.claim e = true

variable {now : Int}

omit [Sha256] in
theorem activationEligible_iff {request : NativeRootCiClaimActivationRequest} :
    activationEligible context request now db = true ↔ ∃ v e a, Activatable context request now db v e a := by
  unfold activationEligible currentReservation
  simp only [Bool.and_eq_true, decide_eq_true_eq, Option.any_eq_true]
  constructor
  · rintro ⟨⟨⟨⟨hg, he⟩, ho⟩, c, hc, hcs, hresp⟩, c', hc', ⟨d, e, a⟩, hj, ⟨⟨⟨hs, hds⟩, has⟩, hlease⟩, hstands⟩
    rw [hc] at hc'
    cases hc'
    obtain ⟨hd, hr, ha⟩ := joined_eq_some.mp hj
    exact ⟨⟨c, d, _, _, _⟩, e, a, view_eq_some.mpr ⟨hc, hd, rfl, rfl, rfl⟩, hg, he, ho, hresp, hcs, hds, hr, ha, has,
      hlease, hstands⟩
  · rintro ⟨v, e, a, h⟩
    obtain ⟨hc, hd, -⟩ := view_eq_some.mp h.before
    exact ⟨⟨⟨⟨h.generation, h.epoch⟩, h.owns⟩, v.claim, hc, h.claim, h.response⟩, v.claim, hc, (v.demand, e, a),
      joined_eq_some.mpr ⟨hd, h.event, h.admission⟩, ⟨⟨⟨h.claim, h.demand⟩, h.active⟩, h.lease⟩, h.stands⟩

variable {checkedAt : Int}

theorem activate_cases {request : NativeRootCiClaimActivationRequest} {assignment : NativeAttemptAssignment}
    {answer : ActivationResult} (hv : db.records.Valid)
    (h : activate context request assignment checkedAt now db = .ok (answer, db')) : (db' = db ∧ answer = .conflict) ∨
    ∃ v e a, answer = .created (activeClaim context request.requestId request.claim.claimId assignment request.issuance
        (now + context.claimLeaseMilliseconds)) ∧ Activatable context request checkedAt db v e a ∧ v.receipt = none ∧
      Moves request.claim.claimId v (v.activated request context assignment now) db db' ∧ db'.records = { db.records with
        claimReceipt := put db.records.claimReceipt request.claim.claimId
          (activeReceipt context request assignment now).toClaimReceiptRecord } := by
  unfold activate at h
  split at h
  · cases pure_ok.mp h; exact Or.inl ⟨rfl, rfl⟩
  rename_i helig
  split at h
  · cases pure_ok.mp h; exact Or.inl ⟨rfl, rfl⟩
  rename_i hnone
  right
  rw [Bool.not_eq_true, Bool.not_eq_false'] at helig
  obtain ⟨v, e, a, hact⟩ := activationEligible_iff.mp helig
  obtain ⟨hc, hd, hr, hh, ho⟩ := view_eq_some.mp hact.before
  have hdem : request.claim.demandId = v.claim.demandId := by
    rw [← hact.response]
    exact (columns_of_claim hv hc).demandId
  obtain ⟨db₁, hins, h⟩ := bind_ok.mp h
  obtain ⟨claimReceipts, rfl, hfresh, hget, htr, hrr⟩ := insertClaimReceipt_ok hins v.claim.demandId
  obtain ⟨claims, huc, h⟩ := bind_ok.mp h
  obtain ⟨demands, hud, h⟩ := bind_ok.mp h
  cases pure_ok.mp h
  have hgc := Table.get?_update_at (x := request.claim.claimId) huc (fun _ => rfl) (by simp)
  have hgd := Table.get?_update_at (x := request.claim.demandId) hud (fun _ => rfl) (by simp)
  refine ⟨v, e, a, rfl, hact, hr.symm.trans hfresh, ⟨hact.before, ?_, ?_⟩, ?_⟩
  · refine view_eq_some.mpr ⟨?_, ?_, hget, hh, ho⟩
    · simp only [hgc, if_pos, hc]
      rfl
    · simp only [View.activated, hgd, hdem, if_pos, hd]
      rfl
  · refine ⟨rfl, rfl, rfl, Table.update_length hud, fun x hx => ?_, fun y hy => ?_, htr.claimReceipts, fun _ _ => rfl,
      fun _ _ => rfl⟩
    · rw [hgc, if_neg hx]
    · rw [hgd, if_neg (by rw [hdem]; exact hy)]
  · have hrc : (fun x => (claims.get? x).map (·.toClaimRecord)) = fun x => (db.claims.get? x).map (·.toClaimRecord) :=
      funext fun x => Table.map_get?_update huc (fun _ => rfl) _ (fun _ => rfl) x
    have hrd : (fun x => (demands.get? x).map (·.toDemandRecord)) = fun x => (db.demands.get? x).map (·.toDemandRecord) :=
      funext fun x => Table.map_get?_update hud (fun _ => rfl) _ (fun _ => rfl) x
    refine Eq.trans ?_ hrr
    unfold RootDatabase.records
    simp only [hrc, hrd]

def View.renewed (leaseExpiresAt updatedAt : Int) (v : View) : View :=
  { v with receipt := v.receipt.map fun r => { r with leaseExpiresAt, updatedAt } }

omit [Sha256] in
theorem renew_cases {request : NativeRootCiClaimLeaseRequest} {leasedAt updatedAt : Int}
    {answer : Option NativeRootCiActiveClaim}
    (h : renew context request checkedAt leasedAt updatedAt db = .ok (answer, db')) : db' = db ∨
    ∃ v, v.claim.state = .active ∧
      Moves request.claimId v (v.renewed (leasedAt + context.claimLeaseMilliseconds) updatedAt) db db' ∧
      db'.records = db.records := by
  unfold renew at h
  split at h
  · cases pure_ok.mp h; exact Or.inl rfl
  rename_i row hrow
  right
  unfold renewable at hrow
  obtain ⟨c, hc, hrow⟩ := Option.bind_eq_some_iff.mp hrow
  obtain ⟨r, hr, hrow⟩ := Option.bind_eq_some_iff.mp hrow
  obtain ⟨⟨d, e, a⟩, hj, hrow⟩ := Option.bind_eq_some_iff.mp hrow
  simp only at hrow
  split at hrow
  · rename_i hcond
    cases hrow
    obtain ⟨claimReceipts, hu, h⟩ := bind_ok.mp h
    cases pure_ok.mp h
    obtain ⟨hd, -, -⟩ := joined_eq_some.mp hj
    have hbefore : db.view request.claimId = some ⟨c, d, some row, _, _⟩ := view_eq_some.mpr ⟨hc, hd, hr, rfl, rfl⟩
    obtain ⟨ht, hrec⟩ := receipt_update_ok (k := request.claimId) hu (fun _ => rfl) (by simp) c.demandId
    refine ⟨_, ?_, ⟨hbefore, ?_, ht⟩, hrec⟩
    · simp only [Bool.and_eq_true, decide_eq_true_eq] at hcond
      tauto
    · refine view_eq_some.mpr ⟨hc, hd, ?_, rfl, rfl⟩
      exact Table.get?_update_self hu (fun _ => rfl) hr (by simpa using Table.get?_key hr)
  · cases hrow

end

/-! ## Recovery -/

section
variable {context : ServiceContext} {db db' : RootDatabase} {request : NativeRootCiClaimRecoveryRequest}

omit [Sha256] in
theorem recoveryEligible_iff : recoveryEligible context request db = true ↔
    request.generationId = context.generationId ∧ request.resourceId = request.claimId ∧
      ∃ c, db.claims.get? request.claimId = some c ∧ c.response = request.claim ∧ c.hostId = request.hostId ∧
        c.capacity = request.capacity := by
  unfold recoveryEligible
  simp only [Bool.and_eq_true, decide_eq_true_eq, Option.any_eq_true]
  tauto

/-- The receipt after `prepareRecovery`. -/
def preparedReceipt (request : NativeRootCiClaimRecoveryRequest) (assignment : NativeAttemptAssignment) (now : Int) :
    Option ClaimReceiptRow → ClaimReceiptRow
  | none => recoveringReceipt request assignment now
  | some r => { r with state := .recovering, recoveryRequestId := some request.requestId, updatedAt := now }

def View.prepared (request : NativeRootCiClaimRecoveryRequest) (assignment : NativeAttemptAssignment) (now : Int)
    (v : View) : View :=
  { v with claim := { v.claim with state := .recovering, updatedAt := now },
           receipt := some (preparedReceipt request assignment now v.receipt) }

/-- A receipt that may be taken into recovery. -/
structure Recoverable (request : NativeRootCiClaimRecoveryRequest) (assignment : NativeAttemptAssignment)
    (r : ClaimReceiptRow) (o : Option ReportRow) : Prop where
  state : r.state ≠ .released
  assignment : r.assignment = assignment
  issuance : r.issuance = request.issuance
  same : r.state = .recovering → r.recoveryRequestId = some request.requestId
  reported : r.state = .reported → (o.any fun o => o.state = .pending) = true

variable {assignment : NativeAttemptAssignment}

omit [Sha256] in
theorem recoveryConflicts_iff {r : ClaimReceiptRow} (hs : r.state ≠ .released) :
    recoveryConflicts request assignment r db = false ↔
      Recoverable request assignment r (db.reportOutbox.get? request.claimId) := by
  unfold recoveryConflicts
  simp only [Bool.or_eq_false_iff, Bool.and_eq_false_imp, decide_eq_false_iff_not, decide_eq_true_eq, not_not,
    Bool.not_eq_false']
  constructor
  · rintro ⟨⟨⟨ha, hi⟩, hsame⟩, hrep⟩
    exact ⟨hs, ha, hi, hsame, hrep⟩
  · intro h
    exact ⟨⟨⟨h.assignment, h.issuance⟩, h.same⟩, h.reported⟩

variable {now : Int}

theorem prepareRecovery_cases {answer : RecoveryPreparation}
    (hv : db.records.Valid) (h : prepareRecovery context request assignment now db = .ok (answer, db')) :
    (db' = db ∧ answer ≠ .pending) ∨ ∃ v, answer = .pending ∧ recoveryEligible context request db = true ∧
      (∀ r, v.receipt = some r → Recoverable request assignment r v.report) ∧
      Moves request.claimId v (v.prepared request assignment now) db db' ∧
      db'.records = match v.receipt with
        | none =>
          { db.records with
            claimReceipt := put db.records.claimReceipt request.claimId
              (recoveringReceipt request assignment now).toClaimReceiptRecord }
        | some _ => db.records := by
  unfold prepareRecovery at h
  split at h
  · cases pure_ok.mp h; exact Or.inl ⟨rfl, by simp⟩
  rename_i helig
  rw [Bool.not_eq_true, Bool.not_eq_false'] at helig
  obtain ⟨-, -, c, hc, -, -, -⟩ := recoveryEligible_iff.mp helig
  obtain ⟨d, hd, hview⟩ := view_of_claim hv hc
  split at h
  · rename_i hnone
    right
    obtain ⟨db₁, hins, h⟩ := bind_ok.mp h
    obtain ⟨claimReceipts, rfl, -, hget, htr, hrr⟩ := insertClaimReceipt_ok hins c.demandId
    obtain ⟨db₂, hmove, h⟩ := bind_ok.mp h
    cases pure_ok.mp h
    obtain ⟨c', claims, rfl, hc', -, hclaim, htc, hrc⟩ := moveClaim_ok hmove c.demandId
    rw [hc] at hc'
    cases hc'
    refine ⟨_, rfl, helig, ?_, ⟨hview, ?_, htr.trans htc⟩, ?_⟩
    · intro r hr
      rw [hnone] at hr
      cases hr
    · refine view_eq_some.mpr ⟨hclaim, hd, ?_, rfl, rfl⟩
      simp only [View.prepared, hnone]
      exact hget
    · simp only [hnone]
      exact hrc.trans hrr
  · rename_i r hr
    split at h
    · cases pure_ok.mp h
      refine Or.inl ⟨rfl, ?_⟩
      split <;> simp
    rename_i hstate
    split at h
    · cases pure_ok.mp h; exact Or.inl ⟨rfl, by simp⟩
    rename_i hconf
    right
    rw [Bool.not_eq_true, recoveryConflicts_iff hstate] at hconf
    obtain ⟨claimReceipts, hu, h⟩ := bind_ok.mp h
    obtain ⟨r', hr', -, hget, htr, hrr⟩ :=
      receipt_updateOne_ok (k := request.claimId) hu (fun _ => rfl) (by simp; tauto) c.demandId
    rw [hr] at hr'
    cases hr'
    obtain ⟨db₂, hmove, h⟩ := bind_ok.mp h
    cases pure_ok.mp h
    obtain ⟨c', claims, rfl, hc', -, hclaim, htc, hrc⟩ := moveClaim_ok hmove c.demandId
    rw [hc] at hc'
    cases hc'
    refine ⟨_, rfl, helig, ?_, ⟨hview, ?_, htr.trans htc⟩, ?_⟩
    · intro r' hr'
      rw [hr] at hr'
      cases hr'
      exact hconf
    · refine view_eq_some.mpr ⟨hclaim, hd, ?_, rfl, rfl⟩
      simp only [View.prepared, hr]
      exact hget
    · simp only [hr]
      exact hrc.trans hrr

/-- The receipt after `releaseRecovered`. -/
def revokedReceipt (revocation : NativeJobAttemptRevocation) (now : Int) (r : ClaimReceiptRow) : ClaimReceiptRow :=
  { r with state := .released, revocation := some revocation, updatedAt := now, releasedAt := some now }

/-- The rows after `completeRecovery`: the demand is settled, and with it the report of a result. -/
def View.revoked (revocation : NativeJobAttemptRevocation) (demand : DemandState) (now : Int) (v : View) : View where
  claim := { v.claim with state := .released, updatedAt := now }
  demand := { v.demand with state := demand, updatedAt := now, terminalAt := some now }
  receipt := v.receipt.map (revokedReceipt revocation now)
  result := v.result
  report := v.report.map fun o => { o with state := .denied }

/-- A recovery that may be completed. -/
structure Completable (context : ServiceContext) (request : NativeRootCiClaimRecoveryRequest)
    (revocation : NativeJobAttemptRevocation) (db : RootDatabase) (v : View) (r : ClaimReceiptRow) : Prop where
  eligible : recoveryEligible context request db = true
  before : db.view request.claimId = some v
  receipt : v.receipt = some r
  state : r.state = .recovering
  requestId : r.recoveryRequestId = some request.requestId
  issuance : r.issuance = request.issuance
  revocation : revocationMatches request revocation = true
  claim : v.claim.state = .recovering

variable {revocation : NativeJobAttemptRevocation}

omit [Sha256] in
theorem releaseRecovered_ok (h : releaseRecovered request revocation now db = .ok db') (d₀ : String) :
    ∃ c r claims claimReceipts, db' = { db with claims, claimReceipts } ∧
      db.claims.get? request.claimId = some c ∧ c.state = .recovering ∧
      db.claimReceipts.get? request.claimId = some r ∧ r.state = .recovering ∧
      claims.get? request.claimId = some { c with state := .released, updatedAt := now } ∧
      claimReceipts.get? request.claimId = some (revokedReceipt revocation now r) ∧
      Touches request.claimId d₀ db db' ∧ db'.records = db.records := by
  unfold releaseRecovered at h
  obtain ⟨claimReceipts, hu, h⟩ := bind_ok.mp h
  obtain ⟨r, hr, hp, hget, htr, hrr⟩ := receipt_updateOne_ok (k := request.claimId) hu (fun _ => rfl) (by simp; tauto) d₀
  obtain ⟨c, claims, rfl, hc, hs, hclaim, htc, hrc⟩ := moveClaim_ok h d₀
  simp only [Bool.and_eq_true, decide_eq_true_eq] at hp hs
  exact ⟨c, r, claims, claimReceipts, rfl, hc, hs, hr, hp.2, hclaim, hget, htr.trans htc, hrc.trans hrr⟩

theorem completeRecovery_cases {done : Bool}
    (hv : db.records.Valid) (h : completeRecovery context request revocation now db = .ok (done, db')) : db' = db ∨
    ∃ v r demand, Completable context request revocation db v r ∧
      Moves request.claimId v (v.revoked revocation demand now) db db' ∧ db'.records = db.records ∧
      ((demand = .completed ∧ v.demand.state = .reported ∧ v.result.isSome = true ∧ ∃ o, v.report = some o ∧
        o.state = .pending) ∨
        (demand = .superseded ∧ (v.demand.state = .preparing ∨ v.demand.state = .active) ∧ v.result = none ∧
          v.report = none)) := by
  unfold completeRecovery at h
  split at h
  · cases pure_ok.mp h; exact Or.inl rfl
  rename_i helig
  rw [Bool.not_eq_true, Bool.not_eq_false'] at helig
  split at h
  · cases pure_ok.mp h; exact Or.inl rfl
  rename_i r hr
  split at h
  · cases pure_ok.mp h; exact Or.inl rfl
  rename_i hcond
  simp only [not_or, not_not, Bool.not_eq_true, Bool.not_eq_false'] at hcond
  obtain ⟨hstate, hreq, hiss, hrev⟩ := hcond
  obtain ⟨-, -, c, hc, hresp, -, -⟩ := recoveryEligible_iff.mp helig
  obtain ⟨d, hd, hview⟩ := view_of_claim hv hc
  have hdem : request.claim.demandId = c.demandId := by
    rw [← hresp]
    exact (columns_of_claim hv hc).demandId
  split at h
  · rename_i result o hh ho
    split at h
    · cases pure_ok.mp h; exact Or.inl rfl
    rename_i hpending
    right
    obtain ⟨db₁, hrel, h⟩ := bind_ok.mp h
    obtain ⟨c', r', claims, claimReceipts, rfl, hc', hcs, hr', -, hclaim, hreceipt, ht₁, hrec₁⟩ :=
      releaseRecovered_ok hrel c.demandId
    rw [hc] at hc'
    cases hc'
    rw [hr] at hr'
    cases hr'
    obtain ⟨db₂, hdeny, h⟩ := bind_ok.mp h
    cases pure_ok.mp h
    unfold denyReport at hdeny
    obtain ⟨reportOutbox, hu, hmove⟩ := bind_ok.mp hdeny
    obtain ⟨ht₂, hrec₂⟩ := report_update_ok (k := request.claimId) hu (fun _ => rfl) (by simp; tauto) c.demandId
    have hreport : reportOutbox.get? request.claimId = some { o with state := .denied } :=
      Table.get?_update_self hu (fun _ => rfl) ho (by simpa [not_not.mp hpending] using Table.get?_key ho)
    rw [hdem] at hmove
    obtain ⟨d', demands, rfl, hd', hds, hdemand, ht₃, hrec₃⟩ := moveDemand_ok hmove request.claimId
    rw [hd] at hd'
    cases hd'
    refine ⟨_, r, .completed, ⟨helig, hview, hr, hstate, hreq, hiss, hrev, hcs⟩,
      ⟨hview, ?_, (ht₁.trans ht₂).trans ht₃⟩, (hrec₃.trans hrec₂).trans hrec₁,
        Or.inl ⟨rfl, ?_, by rw [hh]; rfl, o, ho, not_not.mp hpending⟩⟩
    · refine view_eq_some.mpr ⟨hclaim, hdemand, ?_, rfl, ?_⟩
      · rw [hreceipt, View.revoked, hr]
        rfl
      · rw [View.revoked, ho]
        exact hreport
    · simpa using hds
  · rename_i hh ho
    right
    obtain ⟨db₁, hrel, h⟩ := bind_ok.mp h
    obtain ⟨c', r', claims, claimReceipts, rfl, hc', hcs, hr', -, hclaim, hreceipt, ht₁, hrec₁⟩ :=
      releaseRecovered_ok hrel c.demandId
    rw [hc] at hc'
    cases hc'
    rw [hr] at hr'
    cases hr'
    obtain ⟨db₂, hmove, h⟩ := bind_ok.mp h
    cases pure_ok.mp h
    rw [hdem] at hmove
    obtain ⟨d', demands, rfl, hd', hds, hdemand, ht₂, hrec₂⟩ := moveDemand_ok hmove request.claimId
    rw [hd] at hd'
    cases hd'
    refine ⟨_, r, .superseded, ⟨helig, hview, hr, hstate, hreq, hiss, hrev, hcs⟩, ⟨hview, ?_, ht₁.trans ht₂⟩,
      hrec₂.trans hrec₁, Or.inr ⟨rfl, ?_, hh, ho⟩⟩
    · refine view_eq_some.mpr ⟨hclaim, hdemand, ?_, rfl, ?_⟩
      · rw [hreceipt, View.revoked, hr]
        rfl
      · rw [View.revoked, ho]
        rfl
    · simpa using hds
  · cases pure_ok.mp h; exact Or.inl rfl

end

/-! ## Results and reports -/

section
variable {context : ServiceContext} {db db' : RootDatabase}

omit [Sha256] in
theorem currentClaim_eq_some {claimId hostId : String} {row : CurrentClaim} : currentClaim claimId hostId db = some row ↔
    db.claims.get? claimId = some row.c ∧ row.c.hostId = hostId ∧ db.claimReceipts.get? claimId = some row.r ∧
      db.joined row.c = some (row.d, row.e, row.a) := by
  unfold currentClaim
  constructor
  · intro h
    obtain ⟨c, hc, h⟩ := Option.bind_eq_some_iff.mp h
    obtain ⟨r, hr, h⟩ := Option.bind_eq_some_iff.mp h
    obtain ⟨j, hj, h⟩ := Option.bind_eq_some_iff.mp h
    cases h
    obtain ⟨hc, hhost⟩ := Option.filter_eq_some_iff.mp hc
    exact ⟨hc, by simpa using hhost, hr, hj⟩
  · rintro ⟨hc, hhost, hr, hj⟩
    simp [hc, hhost, hr, hj, Option.filter]

/-- The rows after `accept`. -/
def View.reported (authenticatedHost : String) (request : NativeRootCiHostResultRequest) (now : Int) (v : View) : View where
  claim := { v.claim with state := .reported, updatedAt := now }
  demand := { v.demand with state := .reported, updatedAt := now }
  receipt := v.receipt.map fun r => { r with state := .reported, updatedAt := now }
  result := some (hostResult authenticatedHost request now)
  report := some (pendingReport request now)

variable {now : Int}

theorem acceptResult_cases {authenticatedHost : String} {request : NativeRootCiHostResultRequest} {checkedAt : Int}
    {answer : NativeRootCiResultIntake}
    (h : acceptResult context authenticatedHost request checkedAt now db = .ok (answer, db')) :
    (db' = db ∧ (answer = .accepted → ∃ existing, db.existingResult authenticatedHost request = some existing ∧
      existing.claimId = request.claimId ∧ existing.hostId = authenticatedHost ∧
      existing.requestId = request.requestId ∧ existing.request = request)) ∨
    ∃ row, answer = .accepted ∧ currentClaim request.claimId authenticatedHost db = some row ∧
      row.admits context request checkedAt db = true ∧
      Moves request.claimId ⟨row.c, row.d, some row.r, none, none⟩
        (View.reported authenticatedHost request now ⟨row.c, row.d, some row.r, none, none⟩) db db' ∧
      db'.records = { db.records with
        result := put db.records.result request.claimId (hostResult authenticatedHost request now)
        report := put db.records.report request.claimId (pendingReport request now).toReportRecord } := by
  unfold acceptResult acceptWith at h
  split at h
  · rename_i existing hexisting
    cases pure_ok.mp h
    refine Or.inl ⟨rfl, ?_⟩
    intro hanswer
    split at hanswer
    · rename_i hsame
      exact ⟨existing, hexisting, hsame⟩
    · cases hanswer
  rename_i hexisting
  split at h
  · cases pure_ok.mp h; exact Or.inl ⟨rfl, by simp⟩
  rename_i row hrow
  split at h
  · cases pure_ok.mp h; exact Or.inl ⟨rfl, by simp⟩
  rename_i hadmits
  right
  rw [Bool.not_eq_true, Bool.not_eq_false'] at hadmits
  obtain ⟨hc, -, hr, hj⟩ := currentClaim_eq_some.mp hrow
  obtain ⟨hd, -, -⟩ := joined_eq_some.mp hj
  have hh : db.hostResults.get? request.claimId = none := by
    rw [Table.get?_eq_none]
    intro s hs hkey
    have hne := List.find?_eq_none.mp hexisting s hs
    simp only [HostResultRow.key_eq] at hkey
    simp [hkey] at hne
  obtain ⟨_, hstore, h⟩ := bind_ok.mp h
  cases pure_ok.mp h
  obtain ⟨db₁, hres, hstore⟩ := bind_ok.mp hstore
  obtain ⟨db₂, hrep, hmark⟩ := bind_ok.mp hstore
  obtain ⟨hostResults, rfl, hresult, ht₁, hrec₁⟩ := insertHostResult_ok hres row.c.demandId
  obtain ⟨reportOutbox, rfl, ho, hreport, ht₂, hrec₂⟩ := insertReport_ok hrep row.c.demandId
  unfold markReported at hmark
  obtain ⟨db₄, hmove, hmark⟩ := bind_ok.mp hmark
  obtain ⟨c', claims, rfl, hc', -, hclaim, ht₃, hrec₃⟩ := moveClaim_ok hmove row.c.demandId
  rw [hc] at hc'
  cases hc'
  obtain ⟨claimReceipts, hu, hmark⟩ := bind_ok.mp hmark
  obtain ⟨r', hr', -, hreceipt, ht₄, hrec₄⟩ :=
    receipt_updateOne_ok (k := request.claimId) hu (fun _ => rfl) (by simp; tauto) row.c.demandId
  rw [hr] at hr'
  cases hr'
  obtain ⟨d', demands, rfl, hd', -, hdemand, ht₅, hrec₅⟩ := moveDemand_ok hmark request.claimId
  rw [hd] at hd'
  cases hd'
  refine ⟨row, rfl, hrow, hadmits, ⟨?_, ?_, (((ht₁.trans ht₂).trans ht₃).trans ht₄).trans ht₅⟩, ?_⟩
  · exact view_eq_some.mpr ⟨hc, hd, hr, hh, ho⟩
  · exact view_eq_some.mpr ⟨hclaim, hdemand, hreceipt, hresult, hreport⟩
  · refine (((hrec₅.trans hrec₄).trans hrec₃).trans hrec₂).trans ?_
    rw [hrec₁]
    rfl

variable {delivery : Delivery}

omit [Sha256] in
theorem acknowledgeable_eq_some {demandId : String} :
    acknowledgeable delivery now db = some demandId ↔ ∃ o c d e a, db.reportOutbox.get? delivery.claimId = some o ∧
      db.claims.get? delivery.claimId = some c ∧ db.joined c = some (d, e, a) ∧ db.reportable o = true ∧
      o.terminalEvent = delivery.terminalEvent ∧ d.state = .reported ∧ a.authorizes c e now = true ∧
        demandId = c.demandId := by
  unfold acknowledgeable
  constructor
  · intro h
    obtain ⟨o, ho, h⟩ := Option.bind_eq_some_iff.mp h
    obtain ⟨c, hc, h⟩ := Option.bind_eq_some_iff.mp h
    obtain ⟨⟨d, e, a⟩, hj, h⟩ := Option.bind_eq_some_iff.mp h
    simp only at h
    split at h
    · rename_i hcond
      simp only [Bool.and_eq_true, decide_eq_true_eq] at hcond
      exact ⟨o, c, d, e, a, ho, hc, hj, hcond.1.1.1, hcond.1.1.2, hcond.1.2, hcond.2, (Option.some.inj h).symm⟩
    · cases h
  · rintro ⟨o, c, d, e, a, ho, hc, hj, hrep, hevent, hds, hauth, rfl⟩
    simp [ho, hc, hj, hrep, hevent, hds, hauth]

/-- The report after `deliver`. -/
def deliveredReport (body : AcknowledgementBody) (now : Int) (o : ReportRow) : ReportRow :=
  { o with state := .delivered, acknowledgement := some body,
           acknowledgementDigest := some ("sha256:" ++ Sha256.hex body.text), deliveredAt := some now }

def View.delivered (body : AcknowledgementBody) (now : Int) (v : View) : View where
  claim := { v.claim with state := .released, updatedAt := now }
  demand := { v.demand with state := .completed, updatedAt := now, terminalAt := some now }
  receipt := v.receipt.map fun r => { r with state := .released, updatedAt := now, releasedAt := some now }
  result := v.result
  report := v.report.map (deliveredReport body now)

theorem acknowledge_cases {body : AcknowledgementBody}
    (h : acknowledge context delivery body now db = .ok db') :
    ∃ v r o, acknowledges body.value delivery.terminalEvent context.reporterUsername = true ∧
      v.claim.state = .reported ∧ v.demand.state = .reported ∧ v.receipt = some r ∧ r.state = .reported ∧
      v.report = some o ∧ o.state = .pending ∧ o.terminalEvent = delivery.terminalEvent ∧
      Moves delivery.claimId v (v.delivered body now) db db' ∧ db'.records = db.records := by
  unfold acknowledge at h
  split at h
  · cases h
  rename_i hack
  rw [Bool.not_eq_true, Bool.not_eq_false'] at hack
  split at h
  · cases h
  rename_i demandId hdemand
  obtain ⟨o, c, d, e, a, ho, hc, hj, hrep, hevent, hds, hauth, rfl⟩ := acknowledgeable_eq_some.mp hdemand
  obtain ⟨hd, -, -⟩ := joined_eq_some.mp hj
  unfold deliver at h
  obtain ⟨reportOutbox, huo, h⟩ := bind_ok.mp h
  obtain ⟨o', ho', hpo, hgo⟩ := Table.get?_updateOne huo (fun _ => rfl)
  simp only [Bool.and_eq_true, decide_eq_true_eq] at hpo
  have hko : Schema.key o' = delivery.claimId := hpo.1.1
  rw [hko] at ho' hgo
  rw [ho] at ho'
  cases ho'
  obtain ⟨ht₁, hrec₁⟩ :=
    report_update_ok (k := delivery.claimId) (Table.updateOne_update huo) (fun _ => rfl) (by simp; tauto) c.demandId
  obtain ⟨claimReceipts, hur, h⟩ := bind_ok.mp h
  obtain ⟨r, hr, hpr, hreceipt, ht₂, hrec₂⟩ :=
    @receipt_updateOne_ok { db with reportOutbox } delivery.claimId _ _ _ _ hur (fun _ => rfl) (by simp; tauto) c.demandId
  simp only [Bool.and_eq_true, decide_eq_true_eq] at hpr
  obtain ⟨db₁, hmove, h⟩ := bind_ok.mp h
  obtain ⟨c', claims, rfl, hc', hcs, hclaim, ht₃, hrec₃⟩ := moveClaim_ok hmove c.demandId
  rw [hc] at hc'
  cases hc'
  obtain ⟨d', demands, rfl, hd', hds, hdem, ht₄, hrec₄⟩ := moveDemand_ok h delivery.claimId
  rw [hd] at hd'
  cases hd'
  refine ⟨⟨c, d, some r, db.hostResults.get? delivery.claimId, some o⟩, r, o, hack, ?_, ?_, rfl, hpr.1.1.2, rfl,
    hpo.1.2, hevent,
    ⟨?_, ?_, ((ht₁.trans ht₂).trans ht₃).trans ht₄⟩, ((hrec₄.trans hrec₃).trans hrec₂).trans hrec₁⟩
  · simpa using hcs
  · simpa using hds
  · exact view_eq_some.mpr ⟨hc, hd, hr, rfl, ho⟩
  · refine view_eq_some.mpr ⟨hclaim, hdem, hreceipt, rfl, ?_⟩
    show reportOutbox.get? delivery.claimId = _
    rw [hgo, if_pos rfl]
    rfl

end

end

end Dim.RootCi
