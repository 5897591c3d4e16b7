/-
The states of one claim and of its demand, receipt, result and report, as one record, and the table of
the combinations that the operations produce. An operation on a claim touches the rows of that claim
and of its demand only.
-/
import DimProofs.RootCi.Records

namespace Dim.RootCi

open Relational Dim.Ordinary

/-! ## The status of a claim -/

/-- A claim receipt's state, and which columns of its recovery and release are set. -/
structure ReceiptStatus where
  state : ClaimReceiptState
  (recovery revoked released : Bool)
deriving DecidableEq

def ClaimReceiptRow.status (r : ClaimReceiptRow) : ReceiptStatus :=
  ⟨r.state, r.recoveryRequestId.isSome, r.revocation.isSome, r.releasedAt.isSome⟩

structure Status where
  claim : ClaimState
  demand : DemandState
  receipt : Option ReceiptStatus
  result : Bool
  report : Option ReportState
deriving DecidableEq

/-- The rows of one claim. -/
structure View where
  claim : ClaimRow
  demand : DemandRow
  receipt : Option ClaimReceiptRow
  result : Option HostResultRow
  report : Option ReportRow

def View.status (v : View) : Status where
  claim := v.claim.state
  demand := v.demand.state
  receipt := v.receipt.map (·.status)
  result := v.result.isSome
  report := v.report.map (·.state)

def RootDatabase.view (db : RootDatabase) (k : String) : Option View := do
  let claim ← db.claims.get? k
  let demand ← db.demands.get? claim.demandId
  return { claim, demand, receipt := db.claimReceipts.get? k, result := db.hostResults.get? k,
           report := db.reportOutbox.get? k }

/-- The combinations that the operations produce. -/
inductive Status.Fits : Status → Prop
  | preparing {d : DemandState} (h : d = .preparing ∨ d = .superseded) : Fits ⟨.preparing, d, none, false, none⟩
  | active : Fits ⟨.active, .active, some ⟨.active, false, false, false⟩, false, none⟩
  | reported : Fits ⟨.reported, .reported, some ⟨.reported, false, false, false⟩, true, some .pending⟩
  | recovering {d : DemandState} (h : d = .preparing ∨ d = .superseded ∨ d = .active) :
    Fits ⟨.recovering, d, some ⟨.recovering, true, false, false⟩, false, none⟩
  | recoveringResult : Fits ⟨.recovering, .reported, some ⟨.recovering, true, false, false⟩, true, some .pending⟩
  | delivered : Fits ⟨.released, .completed, some ⟨.released, false, false, true⟩, true, some .delivered⟩
  | denied : Fits ⟨.released, .completed, some ⟨.released, true, true, true⟩, true, some .denied⟩
  | abandoned : Fits ⟨.released, .superseded, some ⟨.released, true, true, true⟩, false, none⟩

/-- A waiting demand may be superseded under any of its claims. -/
theorem Status.Fits.supersede {s : Status} (h : s.Fits) (hw : s.demand.waiting = true) :
    Status.Fits { s with demand := .superseded } := by
  cases h with
  | preparing => exact .preparing (Or.inr rfl)
  | recovering => exact .recovering (Or.inr (Or.inl rfl))
  | active => cases hw
  | reported => cases hw
  | recoveringResult => cases hw
  | delivered => cases hw
  | denied => cases hw
  | abandoned => cases hw

section
variable {s : Status} {r : ReceiptStatus}

/-- Recovery takes any claim that is not released. -/
theorem Status.Fits.prepare (h : s.Fits) (hr : s.receipt = some r) (hs : r.state ≠ .released) :
    Status.Fits { s with claim := .recovering, receipt := some { r with state := .recovering, recovery := true } } := by
  cases h with
  | preparing => cases hr
  | active => cases hr; exact .recovering (Or.inr (Or.inr rfl))
  | reported => cases hr; exact .recoveringResult
  | recovering hd => cases hr; exact .recovering hd
  | recoveringResult => cases hr; exact .recoveringResult
  | delivered => cases hr; exact absurd rfl hs
  | denied => cases hr; exact absurd rfl hs
  | abandoned => cases hr; exact absurd rfl hs

theorem Status.Fits.of_preparing (h : s.Fits) (hc : s.claim = .preparing) :
    (s.demand = .preparing ∨ s.demand = .superseded) ∧ s.receipt = none ∧ s.result = false ∧ s.report = none := by
  cases h with
  | preparing hd => exact ⟨hd, rfl, rfl, rfl⟩
  | _ => cases hc

theorem Status.Fits.of_active (h : s.Fits) (hc : s.claim = .active) : s.demand = .active ∧
    s.receipt = some ⟨.active, false, false, false⟩ ∧ s.result = false ∧ s.report = none := by
  cases h with
  | active => exact ⟨rfl, rfl, rfl, rfl⟩
  | _ => cases hc

theorem Status.Fits.of_reported (h : s.Fits) (hc : s.claim = .reported) : s.demand = .reported ∧
    s.receipt = some ⟨.reported, false, false, false⟩ ∧ s.result = true ∧ s.report = some .pending := by
  cases h with
  | reported => exact ⟨rfl, rfl, rfl, rfl⟩
  | _ => cases hc

theorem Status.Fits.of_recovering (h : s.Fits) (hc : s.claim = .recovering) :
    s.receipt = some ⟨.recovering, true, false, false⟩ ∧
    (((s.demand = .preparing ∨ s.demand = .superseded ∨ s.demand = .active) ∧ s.result = false ∧ s.report = none) ∨
      (s.demand = .reported ∧ s.result = true ∧ s.report = some .pending)) := by
  cases h with
  | recovering hd => exact ⟨rfl, Or.inl ⟨hd, rfl, rfl⟩⟩
  | recoveringResult => exact ⟨rfl, Or.inr ⟨rfl, rfl, rfl⟩⟩
  | _ => cases hc

/-- A claim without a receipt was never activated. -/
theorem Status.Fits.of_unactivated (h : s.Fits) (hr : s.receipt = none) : s.claim = .preparing := by
  cases h with
  | preparing => rfl
  | _ => cases hr

/-- The claim is in the state of its receipt. -/
theorem Status.Fits.of_receipt (h : s.Fits) (hr : s.receipt = some r) :
    (r.state = .active → s.claim = .active) ∧ (r.state = .reported → s.claim = .reported) ∧
      (r.state = .recovering → s.claim = .recovering) ∧ (r.state = .released → s.claim = .released) := by
  cases h <;> cases hr <;> simp

end

theorem ClaimRow.unique_demand : Table.Unique (fun c : ClaimRow => c.demandId) :=
  fun a b (h : a.demandId = b.demandId) => conflict_of_clash (by simp [Schema.clash, h])

section
variable {db db' db'' : RootDatabase} {k x d₀ : String} {c : ClaimRow} {v : View}

theorem view_eq_some : db.view k = some v ↔
    db.claims.get? k = some v.claim ∧ db.demands.get? v.claim.demandId = some v.demand ∧
      db.claimReceipts.get? k = v.receipt ∧ db.hostResults.get? k = v.result ∧ db.reportOutbox.get? k = v.report := by
  unfold RootDatabase.view
  constructor
  · intro h
    obtain ⟨c, hc, h⟩ := Option.bind_eq_some_iff.mp h
    obtain ⟨d, hd, h⟩ := Option.bind_eq_some_iff.mp h
    cases h
    exact ⟨hc, hd, rfl, rfl, rfl⟩
  · rintro ⟨hc, hd, hr, hh, ho⟩
    simp [hc, hd, hr, hh, ho]

/-- Two claims of one demand are one claim. -/
theorem claim_of_demand {c' : ClaimRow} (hc : db.claims.get? k = some c) (hc' : db.claims.get? x = some c')
    (h : c'.demandId = c.demandId) : x = k := by
  have he := db.claims.eq_of_conflict (Table.get?_mem hc') (Table.get?_mem hc) (ClaimRow.unique_demand _ _ h)
  rw [he] at hc'
  exact (Table.get?_key hc').symm.trans (Table.get?_key hc)

/-! ## What an operation on a claim touches -/

structure Touches (k d₀ : String) (db db' : RootDatabase) : Prop where
  epochs : db'.epochs = db.epochs
  admissions : db'.admissions = db.admissions
  eventReceipts : db'.eventReceipts = db.eventReceipts
  demandCount : db'.demands.rows.length = db.demands.rows.length
  claims : ∀ x, x ≠ k → db'.claims.get? x = db.claims.get? x
  demands : ∀ y, y ≠ d₀ → db'.demands.get? y = db.demands.get? y
  claimReceipts : ∀ x, x ≠ k → db'.claimReceipts.get? x = db.claimReceipts.get? x
  hostResults : ∀ x, x ≠ k → db'.hostResults.get? x = db.hostResults.get? x
  reportOutbox : ∀ x, x ≠ k → db'.reportOutbox.get? x = db.reportOutbox.get? x

theorem Touches.trans (h : Touches k d₀ db db') (h' : Touches k d₀ db' db'') : Touches k d₀ db db'' where
  epochs := h'.epochs.trans h.epochs
  admissions := h'.admissions.trans h.admissions
  eventReceipts := h'.eventReceipts.trans h.eventReceipts
  demandCount := h'.demandCount.trans h.demandCount
  claims x hx := (h'.claims x hx).trans (h.claims x hx)
  demands y hy := (h'.demands y hy).trans (h.demands y hy)
  claimReceipts x hx := (h'.claimReceipts x hx).trans (h.claimReceipts x hx)
  hostResults x hx := (h'.hostResults x hx).trans (h.hostResults x hx)
  reportOutbox x hx := (h'.reportOutbox x hx).trans (h.reportOutbox x hx)

/-- Another claim keeps its rows, as its demand is another one. -/
theorem Touches.view_ne (h : Touches k d₀ db db') (hx : x ≠ k)
    (hd : ∀ c, db.claims.get? x = some c → c.demandId ≠ d₀) : db'.view x = db.view x := by
  unfold RootDatabase.view
  rw [h.claims x hx, h.claimReceipts x hx, h.hostResults x hx, h.reportOutbox x hx]
  cases hc : db.claims.get? x with
  | none => rfl
  | some c =>
    simp only [Option.bind_eq_bind, Option.bind_some]
    rw [h.demands _ (hd c hc)]

theorem Touches.of_claim (hc : db.claims.get? k = some c) :
    ∀ x c', x ≠ k → db.claims.get? x = some c' → c'.demandId ≠ c.demandId :=
  fun _ _ hx hc' he => hx (claim_of_demand hc hc' he)

end

/-! ## Statements -/

section
variable {db db' : RootDatabase} {k : String}

theorem requireReference_ok {present : Bool} {u : Unit} : requireReference present = .ok u ↔ present = true := by
  unfold requireReference
  split
  · rename_i h; simp [h]
  · rename_i h; simp [h]

theorem moveClaim_ok {error : RootCiError} {source : ClaimState → Bool} {state : ClaimState} {now : Int}
    (h : moveClaim error k source state now db = .ok db') (d₀ : String) :
    ∃ c claims, db' = { db with claims } ∧ db.claims.get? k = some c ∧ source c.state = true ∧
      claims.get? k = some { c with state, updatedAt := now } ∧ Touches k d₀ db db' ∧ db'.records = db.records := by
  unfold moveClaim at h
  obtain ⟨claims, hu, h⟩ := bind_ok.mp h
  cases pure_ok.mp h
  obtain ⟨c, hc, hp, hget⟩ := Table.get?_updateOne hu (fun _ => rfl)
  have hsel : c.claimId = k ∧ source c.state = true := by simpa using hp
  have hk : Schema.key c = k := hsel.1
  rw [hk] at hc hget
  refine ⟨c, claims, rfl, hc, hsel.2, by rw [hget, if_pos rfl], ?_, ?_⟩
  · refine ⟨rfl, rfl, rfl, rfl, fun x hx => ?_, fun _ _ => rfl, fun _ _ => rfl, fun _ _ => rfl, fun _ _ => rfl⟩
    show claims.get? x = _
    rw [hget, if_neg hx]
  · have hrec : (fun x => (claims.get? x).map (·.toClaimRecord)) = fun x => (db.claims.get? x).map (·.toClaimRecord) :=
      funext fun x => Table.map_get?_update (Table.updateOne_update hu) (fun _ => rfl) _ (fun _ => rfl) x
    unfold RootDatabase.records
    simp only [hrec]

theorem moveDemand_ok {error : RootCiError} {d₀ : String} {source : DemandState → Bool} {state : DemandState} {now : Int}
    {terminal : Bool} (h : moveDemand error d₀ source state now terminal db = .ok db') (k : String) :
    ∃ d demands, db' = { db with demands } ∧ db.demands.get? d₀ = some d ∧ source d.state = true ∧
      demands.get? d₀ = some
        { d with state, updatedAt := now, terminalAt := if terminal then some now else d.terminalAt } ∧
      Touches k d₀ db db' ∧ db'.records = db.records := by
  unfold moveDemand at h
  obtain ⟨demands, hu, h⟩ := bind_ok.mp h
  cases pure_ok.mp h
  obtain ⟨d, hd, hp, hget⟩ := Table.get?_updateOne hu (fun _ => rfl)
  have hsel : d.demandId = d₀ ∧ source d.state = true := by simpa using hp
  have hk : Schema.key d = d₀ := hsel.1
  rw [hk] at hd hget
  refine ⟨d, demands, rfl, hd, hsel.2, by rw [hget, if_pos rfl], ?_, ?_⟩
  · refine ⟨rfl, rfl, rfl, Table.updateOne_length hu, fun _ _ => rfl, fun y hy => ?_, fun _ _ => rfl, fun _ _ => rfl,
      fun _ _ => rfl⟩
    show demands.get? y = _
    rw [hget, if_neg hy]
  · have hrec : (fun x => (demands.get? x).map (·.toDemandRecord)) = fun x => (db.demands.get? x).map (·.toDemandRecord) :=
      funext fun x => Table.map_get?_update (Table.updateOne_update hu) (fun _ => rfl) _ (fun _ => rfl) x
    unfold RootDatabase.records
    simp only [hrec]

/-- An update of the claim receipt of `k` that leaves its record alone. -/
theorem receipt_update_ok {p : ClaimReceiptRow → Bool} {f : ClaimReceiptRow → ClaimReceiptRow}
    {claimReceipts : Table ClaimReceiptRow} (hu : db.claimReceipts.update (ε := RootCiError) p f = .ok claimReceipts)
    (hf : ∀ r, (f r).toClaimReceiptRecord = r.toClaimReceiptRecord) (hp : ∀ r, p r = true → r.claimId = k) (d₀ : String) :
    Touches k d₀ db { db with claimReceipts } ∧ RootDatabase.records { db with claimReceipts } = db.records := by
  have hkey : ∀ r, Schema.key (f r) = Schema.key r := fun r => congrArg ClaimReceiptRecord.claimId (hf r)
  constructor
  · refine ⟨rfl, rfl, rfl, rfl, fun _ _ => rfl, fun _ _ => rfl, fun x hx => ?_, fun _ _ => rfl, fun _ _ => rfl⟩
    exact Table.get?_update_ne hu hkey hp hx
  · have hrec : (fun x => (claimReceipts.get? x).map (·.toClaimReceiptRecord)) =
        fun x => (db.claimReceipts.get? x).map (·.toClaimReceiptRecord) :=
      funext fun x => Table.map_get?_update hu hkey _ hf x
    unfold RootDatabase.records
    simp only [hrec]

theorem receipt_updateOne_ok {error : RootCiError} {p : ClaimReceiptRow → Bool} {f : ClaimReceiptRow → ClaimReceiptRow}
    {claimReceipts : Table ClaimReceiptRow} (hu : db.claimReceipts.updateOne error p f = .ok claimReceipts)
    (hf : ∀ r, (f r).toClaimReceiptRecord = r.toClaimReceiptRecord) (hp : ∀ r, p r = true → r.claimId = k) (d₀ : String) :
    ∃ r, db.claimReceipts.get? k = some r ∧ p r = true ∧ claimReceipts.get? k = some (f r) ∧
      Touches k d₀ db { db with claimReceipts } ∧ RootDatabase.records { db with claimReceipts } = db.records := by
  have hkey : ∀ r, Schema.key (f r) = Schema.key r := fun r => congrArg ClaimReceiptRecord.claimId (hf r)
  obtain ⟨r, hr, hpr, hget⟩ := Table.get?_updateOne hu hkey
  have hk : Schema.key r = k := hp r hpr
  rw [hk] at hr hget
  exact ⟨r, hr, hpr, by rw [hget, if_pos rfl], receipt_update_ok (Table.updateOne_update hu) hf hp d₀⟩

/-- An update of the report of `k` that leaves its record alone. -/
theorem report_update_ok {p : ReportRow → Bool} {f : ReportRow → ReportRow} {reportOutbox : Table ReportRow}
    (hu : db.reportOutbox.update (ε := RootCiError) p f = .ok reportOutbox)
    (hf : ∀ o, (f o).toReportRecord = o.toReportRecord) (hp : ∀ o, p o = true → o.claimId = k) (d₀ : String) :
    Touches k d₀ db { db with reportOutbox } ∧ RootDatabase.records { db with reportOutbox } = db.records := by
  have hkey : ∀ o, Schema.key (f o) = Schema.key o := fun o => congrArg ReportRecord.claimId (hf o)
  constructor
  · refine ⟨rfl, rfl, rfl, rfl, fun _ _ => rfl, fun _ _ => rfl, fun _ _ => rfl, fun _ _ => rfl, fun x hx => ?_⟩
    exact Table.get?_update_ne hu hkey hp hx
  · have hrec : (fun x => (reportOutbox.get? x).map (·.toReportRecord)) =
        fun x => (db.reportOutbox.get? x).map (·.toReportRecord) :=
      funext fun x => Table.map_get?_update hu hkey _ hf x
    unfold RootDatabase.records
    simp only [hrec]

theorem insertClaimReceipt_ok {row : ClaimReceiptRow} (h : insertClaimReceipt row db = .ok db') (d₀ : String) :
    ∃ claimReceipts, db' = { db with claimReceipts } ∧ db.claimReceipts.get? row.claimId = none ∧
      claimReceipts.get? row.claimId = some row ∧ Touches row.claimId d₀ db db' ∧
      db'.records = { db.records with
        claimReceipt := put db.records.claimReceipt row.claimId row.toClaimReceiptRecord } := by
  unfold insertClaimReceipt at h
  obtain ⟨-, -, h⟩ := bind_ok.mp h
  obtain ⟨claimReceipts, hi, h⟩ := bind_ok.mp h
  cases pure_ok.mp h
  refine ⟨claimReceipts, rfl, Table.get?_insert_fresh hi, ?_, ?_, ?_⟩
  · rw [Table.get?_insert hi, ClaimReceiptRow.key_eq, if_pos rfl]
  · refine ⟨rfl, rfl, rfl, rfl, fun _ _ => rfl, fun _ _ => rfl, fun x hx => ?_, fun _ _ => rfl, fun _ _ => rfl⟩
    show claimReceipts.get? x = _
    rw [Table.get?_insert hi, ClaimReceiptRow.key_eq, if_neg hx]
  · have hput := put_of_insert (g := fun r : ClaimReceiptRow => r.toClaimReceiptRecord) hi
    unfold RootDatabase.records
    simp only [hput]
    rfl

theorem insertClaim_ok {row : ClaimRow} (h : insertClaim row db = .ok db') (d₀ : String) :
    ∃ claims, db' = { db with claims } ∧ db.claims.get? row.claimId = none ∧ claims.get? row.claimId = some row ∧
      (∀ x c, db.claims.get? x = some c → c.demandId ≠ row.demandId) ∧ Touches row.claimId d₀ db db' ∧
      (∃ e, db.epochs.get? row.serviceEpochId = some e) ∧
      db'.records = { db.records with claim := put db.records.claim row.claimId row.toClaimRecord } := by
  unfold insertClaim at h
  obtain ⟨_, href, h⟩ := bind_ok.mp h
  obtain ⟨claims, hi, h⟩ := bind_ok.mp h
  cases pure_ok.mp h
  rw [requireReference_ok, Bool.and_eq_true, Bool.and_eq_true] at href
  refine ⟨claims, rfl, Table.get?_insert_fresh hi, ?_, ?_, ?_, Option.isSome_iff_exists.mp href.1.2, ?_⟩
  · rw [Table.get?_insert hi, ClaimRow.key_eq, if_pos rfl]
  · intro x c hc he
    exact Table.insert_fresh hi c (Table.get?_mem hc) (ClaimRow.unique_demand _ _ he)
  · refine ⟨rfl, rfl, rfl, rfl, fun x hx => ?_, fun _ _ => rfl, fun _ _ => rfl, fun _ _ => rfl, fun _ _ => rfl⟩
    show claims.get? x = _
    rw [Table.get?_insert hi, ClaimRow.key_eq, if_neg hx]
  · have hput := put_of_insert (g := fun r : ClaimRow => r.toClaimRecord) hi
    unfold RootDatabase.records
    simp only [hput]
    rfl

theorem insertHostResult_ok {row : HostResultRow} (h : insertHostResult row db = .ok db') (d₀ : String) :
    ∃ hostResults, db' = { db with hostResults } ∧ hostResults.get? row.claimId = some row ∧
      Touches row.claimId d₀ db db' ∧
      db'.records = { db.records with result := put db.records.result row.claimId row } := by
  unfold insertHostResult at h
  obtain ⟨-, -, h⟩ := bind_ok.mp h
  obtain ⟨hostResults, hi, h⟩ := bind_ok.mp h
  cases pure_ok.mp h
  refine ⟨hostResults, rfl, ?_, ?_, ?_⟩
  · rw [Table.get?_insert hi, HostResultRow.key_eq, if_pos rfl]
  · refine ⟨rfl, rfl, rfl, rfl, fun _ _ => rfl, fun _ _ => rfl, fun _ _ => rfl, fun x hx => ?_, fun _ _ => rfl⟩
    show hostResults.get? x = _
    rw [Table.get?_insert hi, HostResultRow.key_eq, if_neg hx]
  · have hput := put_of_insert (g := fun r : HostResultRow => r) hi
    simp only [Option.map_id'] at hput
    unfold RootDatabase.records
    simp only [hput]
    rfl

theorem insertReport_ok {row : ReportRow} (h : insertReport row db = .ok db') (d₀ : String) :
    ∃ reportOutbox, db' = { db with reportOutbox } ∧ db.reportOutbox.get? row.claimId = none ∧
      reportOutbox.get? row.claimId = some row ∧ Touches row.claimId d₀ db db' ∧
      db'.records = { db.records with report := put db.records.report row.claimId row.toReportRecord } := by
  unfold insertReport at h
  obtain ⟨-, -, h⟩ := bind_ok.mp h
  obtain ⟨reportOutbox, hi, h⟩ := bind_ok.mp h
  cases pure_ok.mp h
  refine ⟨reportOutbox, rfl, Table.get?_insert_fresh hi, ?_, ?_, ?_⟩
  · rw [Table.get?_insert hi, ReportRow.key_eq, if_pos rfl]
  · refine ⟨rfl, rfl, rfl, rfl, fun _ _ => rfl, fun _ _ => rfl, fun _ _ => rfl, fun _ _ => rfl, fun x hx => ?_⟩
    show reportOutbox.get? x = _
    rw [Table.get?_insert hi, ReportRow.key_eq, if_neg hx]
  · have hput := put_of_insert (g := fun r : ReportRow => r.toReportRecord) hi
    unfold RootDatabase.records
    simp only [hput]
    rfl

end

end Dim.RootCi
