/-
What the root CI database never changes: the columns that an INSERT sets for good. They form a ledger
to which the operations only append, and the checks of a start that read nothing else are checks of
that ledger.
-/
import DimProofs.RootCi.Integrity

namespace Dim.RootCi

open Relational Dim.Ordinary

/-- The ledger: for each key the columns that stay. -/
structure Records where
  epoch : String → Option String
  receipt : String × String → Option EventReceiptRow
  demand : String → Option DemandRecord
  claim : String → Option ClaimRecord
  claimReceipt : String → Option ClaimReceiptRecord
  result : String → Option HostResultRow
  report : String → Option ReportRecord

def RootDatabase.records (db : RootDatabase) : Records where
  epoch k := (db.epochs.get? k).map (·.generationId)
  receipt k := db.eventReceipts.get? k
  demand k := (db.demands.get? k).map (·.toDemandRecord)
  claim k := (db.claims.get? k).map (·.toClaimRecord)
  claimReceipt k := (db.claimReceipts.get? k).map (·.toClaimReceiptRecord)
  result k := db.hostResults.get? k
  report k := (db.reportOutbox.get? k).map (·.toReportRecord)

/-- A column of the ledger with one more entry. -/
def put {κ α : Type} [DecidableEq κ] (f : κ → Option α) (k : κ) (v : α) : κ → Option α :=
  fun x => if x = k then some v else f x

section
variable {κ α : Type} [DecidableEq κ] {f : κ → Option α} {k x : κ} {v w : α}

@[simp] theorem put_self : put f k v k = some v := if_pos rfl

theorem put_ne (h : x ≠ k) : put f k v x = f x := if_neg h

theorem put_cases (h : put f k v x = some w) : (x = k ∧ w = v) ∨ f x = some w := by
  unfold put at h
  split at h
  · cases h; exact Or.inl ⟨‹_›, rfl⟩
  · exact Or.inr h

/-- A fresh entry hides no entry. -/
theorem put_of_some (hfresh : f k = none) (h : f x = some w) : put f k v x = some w := by
  by_cases hx : x = k
  · rw [hx, hfresh] at h; cases h
  · rw [put_ne hx, h]

/-- An insert reads back as one more entry. -/
theorem put_of_insert {ρ κ' α' : Type} [DecidableEq κ'] [Schema ρ κ'] {t t' : Table ρ} {r : ρ} {g : ρ → α'}
    (h : t.insert (ε := RootCiError) r = .ok t') :
    (fun k => (t'.get? k).map g) = put (fun k => (t.get? k).map g) (Schema.key r) (g r) := by
  funext k
  unfold put
  rw [Table.get?_insert h]
  split <;> rfl

end

section
variable [Sha256]

/-! ## The checks of the ledger -/

/-- A claim agrees with its demand, its event receipt and its epoch. -/
def ClaimRecorded (R : Records) (c : ClaimRecord) : Prop :=
  ∃ d r g, R.demand c.demandId = some d ∧ R.receipt (d.admissionGeneration, d.eventId) = some r ∧
    R.epoch c.serviceEpochId = some g ∧ assertClaim c d r g = true

/-- A claim receipt holds the assignment of its claim and issuance. -/
structure ReceiptBound (c : ClaimRecord) (r : ClaimReceiptRecord) : Prop where
  assignment : nativeRootCiAttemptAssignment c.response r.issuance = some r.assignment
  attemptId : r.attemptId = r.issuance.attemptId
  descriptorDigest : r.descriptorDigest = r.issuance.descriptorDigest

structure Records.Valid (R : Records) : Prop where
  claim : ∀ k c, R.claim k = some c → ClaimRecorded R c
  claimReceipt : ∀ k r, R.claimReceipt k = some r → ∃ c, R.claim k = some c ∧ ReceiptBound c r
  result : ∀ k h, R.result k = some h → ∃ o c r, R.report k = some o ∧ R.claim k = some c ∧
    R.claimReceipt k = some r ∧ resultColumns h o c r = true
  report : ∀ k o, R.report k = some o → ∃ h, R.result k = some h

variable {issuance : NativeJobAttemptIssuance}

theorem attemptAssignment_some {claim : NativeRootCiClaim}
    {assignment : NativeAttemptAssignment} (h : nativeRootCiAttemptAssignment claim issuance = some assignment) :
    issuanceBound claim issuance = true ∧ assignmentValid assignment = true ∧
      assignment.attemptId = issuance.attemptId ∧ assignment.descriptorDigest = issuance.descriptorDigest ∧
      assignment.hostId = issuance.hostId ∧ assignment.capacity = issuance.capacity := by
  unfold nativeRootCiAttemptAssignment at h
  simp only at h
  split at h
  · rename_i hb
    cases h
    rw [Bool.and_eq_true] at hb
    exact ⟨hb.1, hb.2, rfl, rfl, rfl, rfl⟩
  · cases h

omit [Sha256] in
theorem issuanceBound_claim {claim : NativeRootCiClaim} (h : issuanceBound claim issuance = true) :
    issuance.issuanceRequestId = claim.claimId ∧ issuance.hostId = claim.hostId ∧ issuance.capacity = claim.capacity := by
  simp only [issuanceBound, Bool.and_eq_true, decide_eq_true_eq] at h
  tauto

/-- The columns of a claim that its stored response repeats. -/
structure ClaimColumns (c : ClaimRecord) : Prop where
  claimId : c.response.claimId = c.claimId
  requestId : c.response.requestId = c.requestId
  demandId : c.response.demandId = c.demandId
  admissionGeneration : c.response.admissionGeneration = c.admissionGeneration
  hostId : c.response.hostId = c.hostId
  capacity : c.response.capacity = c.capacity
  serviceEpochId : c.response.serviceEpochId = c.serviceEpochId
  generationId : c.response.generationId = c.generationId

variable {c : ClaimRecord}

variable {d : DemandRecord}

omit [Sha256] in
theorem assertClaim_columns {r : EventReceiptRow} {g : String}
    (h : assertClaim c d r g = true) : ClaimColumns c := by
  simp only [assertClaim, Bool.and_eq_true, decide_eq_true_eq] at h
  constructor <;> tauto

variable {R : Records}

theorem Records.Valid.columns (hv : R.Valid) {k : String} (h : R.claim k = some c) :
    ClaimColumns c := by
  obtain ⟨d, r, g, -, -, -, hc⟩ := hv.claim k c h
  exact assertClaim_columns hc

variable {r : ClaimReceiptRecord}

/-- What `assertClaimLifecycle` asks of the columns of a claim receipt. -/
theorem ReceiptBound.columns (h : ReceiptBound c r)
    (hc : c.response.claimId = c.claimId) : receiptColumns c r = true := by
  obtain ⟨hb, hv, ha, hd, -, -⟩ := attemptAssignment_some h.assignment
  obtain ⟨hi, -, -⟩ := issuanceBound_claim hb
  simp only [receiptColumns, Bool.and_eq_true, decide_eq_true_eq]
  exact ⟨⟨⟨⟨⟨hv, ha⟩, ha.trans h.attemptId.symm⟩, hd⟩, hd.trans h.descriptorDigest.symm⟩, hi.trans hc⟩

variable {h : HostResultRow} {o : ReportRecord}

/-- A result, its request and its report hold one event. -/
theorem resultColumns_event
    (hcols : resultColumns h o c r = true) : h.request.terminalEvent = h.terminalEvent ∧ o.terminalEvent = h.terminalEvent ∧
      o.terminalEventDigest = h.terminalEventDigest ∧
      h.terminalEventDigest = nativeRootCiTerminalEventDigest h.terminalEvent := by
  simp only [resultColumns, Bool.and_eq_true, decide_eq_true_eq] at hcols
  grind

/-! ## Appending -/

/-- The ledger `R'` keeps every entry of `R` that a claim refers to. -/
structure Records.Extends (R R' : Records) : Prop where
  epoch : ∀ k g, R.epoch k = some g → R'.epoch k = some g
  receipt : ∀ k r, R.receipt k = some r → R'.receipt k = some r
  demand : ∀ k d, R.demand k = some d → R'.demand k = some d

variable {R' : Records}

omit [Sha256] in
theorem ClaimRecorded.mono (hx : R.Extends R') (h : ClaimRecorded R c) :
    ClaimRecorded R' c := by
  obtain ⟨d, r, g, hd, hr, hg, hc⟩ := h
  exact ⟨d, r, g, hx.demand _ _ hd, hx.receipt _ _ hr, hx.epoch _ _ hg, hc⟩

theorem Records.Valid.of_extends (hv : R.Valid) (hx : R.Extends R') (hc : R'.claim = R.claim)
    (hr : R'.claimReceipt = R.claimReceipt) (hh : R'.result = R.result) (ho : R'.report = R.report) : R'.Valid where
  claim k c h := (hv.claim k c (by rwa [hc] at h)).mono hx
  claimReceipt := by rw [hc, hr]; exact hv.claimReceipt
  result := by rw [hc, hr, hh, ho]; exact hv.result
  report := by rw [hh, ho]; exact hv.report

theorem Records.Valid.putDemand (hv : R.Valid) {k : String × String} {r : EventReceiptRow} {x : String}
    (hr : R.receipt k = none) (hd : R.demand x = none) :
    Records.Valid { R with receipt := put R.receipt k r, demand := put R.demand x d } :=
  hv.of_extends ⟨fun _ _ h => h, fun _ _ h => put_of_some hr h, fun _ _ h => put_of_some hd h⟩ rfl rfl rfl rfl

theorem Records.Valid.putClaim (hv : R.Valid) {k : String} (hfresh : R.claim k = none)
    (hc : ClaimRecorded R c) : Records.Valid { R with claim := put R.claim k c } where
  claim x c' h := by
    rcases put_cases h with ⟨-, rfl⟩ | h
    · exact hc.mono ⟨fun _ _ h => h, fun _ _ h => h, fun _ _ h => h⟩
    · exact (hv.claim x c' h).mono ⟨fun _ _ h => h, fun _ _ h => h, fun _ _ h => h⟩
  claimReceipt x r h := by
    obtain ⟨c', hc', hb⟩ := hv.claimReceipt x r h
    exact ⟨c', put_of_some hfresh hc', hb⟩
  result x h hh := by
    obtain ⟨o, c', r, ho, hc', hr, hcols⟩ := hv.result x h hh
    exact ⟨o, c', r, ho, put_of_some hfresh hc', hr, hcols⟩
  report := hv.report

theorem Records.Valid.putReceipt (hv : R.Valid) {k : String}
    (hfresh : R.claimReceipt k = none) (hc : R.claim k = some c) (hb : ReceiptBound c r) :
    Records.Valid { R with claimReceipt := put R.claimReceipt k r } where
  claim x c' h := (hv.claim x c' h).mono ⟨fun _ _ h => h, fun _ _ h => h, fun _ _ h => h⟩
  claimReceipt x r' h := by
    rcases put_cases h with ⟨rfl, rfl⟩ | h
    · exact ⟨c, hc, hb⟩
    · exact hv.claimReceipt x r' h
  result x h hh := by
    obtain ⟨o, c', r', ho, hc', hr', hcols⟩ := hv.result x h hh
    exact ⟨o, c', r', ho, hc', put_of_some hfresh hr', hcols⟩
  report := hv.report

theorem Records.Valid.putResult (hv : R.Valid) {k : String}
    (hfresh : R.report k = none) (hc : R.claim k = some c)
    (hr : R.claimReceipt k = some r) (hcols : resultColumns h o c r = true) :
    Records.Valid { R with result := put R.result k h, report := put R.report k o } where
  claim x c' h' := (hv.claim x c' h').mono ⟨fun _ _ h => h, fun _ _ h => h, fun _ _ h => h⟩
  claimReceipt := hv.claimReceipt
  result x h' hh := by
    rcases put_cases hh with ⟨rfl, rfl⟩ | hh
    · exact ⟨o, c, r, put_self, hc, hr, hcols⟩
    · obtain ⟨o', c', r', ho', hc', hr', hcols'⟩ := hv.result x h' hh
      exact ⟨o', c', r', put_of_some hfresh ho', hc', hr', hcols'⟩
  report x o' ho := by
    by_cases hx : x = k
    · exact ⟨h, by rw [hx]; exact put_self⟩
    · obtain ⟨h', hh'⟩ := hv.report x o' ((put_ne hx).symm.trans ho)
      exact ⟨h', (put_ne hx).trans hh'⟩

end

end Dim.RootCi
