/-
The demands, the event receipts they come from and the admissions these were received under. A waiting
demand stands at the current root of an active admission: whatever moves the root or ends the admission
supersedes the demand in the same transaction.
-/
import DimProofs.RootCi.Status

namespace Dim.RootCi

open Relational Dim.Ordinary

section
variable [Sha256]

/-! ## One event receipt -/

/-- A receipt fits the admission it was received under, whose root may have moved on since. -/
@[mk_iff]
structure EventSourced (r : EventReceiptRow) (a : AdmissionRow) : Prop where
  digest : eventDigest r.event = r.eventDigest
  eventId : r.event.eventId = r.eventId
  projectId : r.event.projectId = r.projectId
  protectedRef : r.event.protectedRef = r.rootProtectedRef
  head : r.event.expectedProtectedHead = r.rootCommit
  parsed : a.currentRoot.matchesPolicy a.policy = true
  serviceId : r.ordinaryServiceId = a.ordinaryServiceId
  generationId : r.controlPlaneGenerationId = a.controlPlaneGenerationId
  admissionProject : r.event.projectId = a.projectId
  importNonce : r.importNonce = a.importNonce
  policyDigest : r.policyDigest = a.policyDigest
  capacityConfigDigest : r.capacityConfigDigest = a.capacityConfigDigest
  admissionRef : r.rootProtectedRef = a.protectedRef
  tree : isObjectId r.rootTree = true
  lengths : r.rootTree.length = r.rootCommit.length
  policyRevision : r.event.policyRevision = a.policy.policyRevision
  requiredReviewRevision : r.event.requiredReviewRevision = a.policy.requiredReviewRevision
  qualityRevision : r.event.qualityRevision = a.policy.requiredJobSetRevision
  sequence : r.rootSequence ≤ a.rootSequence
  atRoot : r.rootSequence = a.rootSequence → r.rootCommit = a.rootCommit ∧ r.rootTree = a.rootTree

theorem assertRow_iff {r : EventReceiptRow} {a : AdmissionRow} : assertRow r a = true ↔ EventSourced r a := by
  unfold assertRow AdmissionRow.proof?
  by_cases hp : a.currentRoot.matchesPolicy a.policy = true
  · rw [dif_pos hp]
    simp only [eventSourced_iff, hp, true_and]
    simp only [Option.any_some, AdmissionRow.currentRoot, Bool.and_eq_true, Bool.or_eq_true, decide_eq_true_eq, and_assoc,
      ne_eq, imp_iff_not_or]
  · rw [dif_neg hp, eventSourced_iff]
    simp [hp]

/-- The admission `a'` is `a` at its root or at a later one. -/
structure Succeeds (a a' : AdmissionRow) : Prop where
  binding : a'.toAdmissionRecord = a.toAdmissionRecord
  parsed : a.currentRoot.matchesPolicy a.policy = true → a'.currentRoot.matchesPolicy a'.policy = true
  root : a.rootSequence < a'.rootSequence ∨
    (a'.rootSequence = a.rootSequence ∧ a'.rootCommit = a.rootCommit ∧ a'.rootTree = a.rootTree)

theorem Succeeds.refl (a : AdmissionRow) : Succeeds a a := ⟨rfl, id, Or.inr ⟨rfl, rfl, rfl⟩⟩

/-- The end of an admission leaves its root alone. -/
theorem Succeeds.ended (a : AdmissionRow) (state : AdmissionState) (now : Int) :
    Succeeds a { a with state, endedAt := some now } := ⟨rfl, id, Or.inr ⟨rfl, rfl, rfl⟩⟩

variable {a a' : AdmissionRow}

theorem EventSourced.succeed {r : EventReceiptRow} (h : EventSourced r a) (hs : Succeeds a a') :
    EventSourced r a' := by
  have hb := hs.binding
  have hsequence : r.rootSequence ≤ a'.rootSequence := by
    have := h.sequence
    rcases hs.root with hlt | ⟨he, -, -⟩ <;> omega
  obtain ⟨binding, sequence, commit, tree, lease, state, refreshed, ended⟩ := a'
  simp only at hb
  subst hb
  refine { h with parsed := hs.parsed h.parsed, sequence := hsequence, atRoot := ?_ }
  intro he
  rcases hs.root with hlt | ⟨hseq, hcommit, htree⟩
  · have hle := h.sequence
    simp only at he hlt
    omega
  · have hat := h.atRoot (he.trans hseq)
    exact ⟨hat.1.trans hcommit.symm, hat.2.trans htree.symm⟩

/-! ## Demands -/

structure Sourced (db : RootDatabase) : Prop where
  receipt : ∀ k r, db.eventReceipts.get? k = some r →
    ∃ a, db.admissions.get? r.admissionGeneration = some a ∧ EventSourced r a
  demand : ∀ k d, db.demands.get? k = some d → ∃ r a, db.receiptOf d = some r ∧
    db.admissions.get? d.admissionGeneration = some a ∧ assertDemand d r a = true
  counted : db.demands.rows.length = db.eventReceipts.rows.length
  limited : db.eventReceipts.rows.length ≤ receiptLimit

variable {d : DemandRow}

omit [Sha256] in
/-- The check of a demand reads its record, and its state against the admission. -/
theorem assertDemand_congr {d' : DemandRow} {r : EventReceiptRow}
    (hrec : d'.toDemandRecord = d.toDemandRecord) (hs : demandStateValid d a = true → demandStateValid d' a' = true)
    (h : assertDemand d r a = true) : assertDemand d' r a' = true := by
  unfold assertDemand at h ⊢
  rw [Bool.and_eq_true] at h ⊢
  exact ⟨by rw [hrec]; exact h.1, hs h.2⟩

theorem Sourced.empty : Sourced .empty where
  receipt _ _ h := by cases h
  demand _ _ h := by cases h
  counted := rfl
  limited := Nat.zero_le _

variable {db db' : RootDatabase}

/-- What keeps the invariant: admissions that succeed the old ones, and demands whose states fit them. -/
theorem Sourced.succeed (h : Sourced db) (hr : db'.eventReceipts = db.eventReceipts)
    (hcount : db'.demands.rows.length = db.demands.rows.length)
    (ha : ∀ g a, db.admissions.get? g = some a → ∃ a', db'.admissions.get? g = some a' ∧ Succeeds a a')
    (hd : ∀ k d', db'.demands.get? k = some d' → ∃ d, db.demands.get? k = some d ∧
      d'.toDemandRecord = d.toDemandRecord ∧ ∀ a a', db.admissions.get? d.admissionGeneration = some a →
        db'.admissions.get? d.admissionGeneration = some a' → demandStateValid d a = true → demandStateValid d' a' = true) :
    Sourced db' where
  receipt k r hk := by
    rw [hr] at hk
    obtain ⟨a, hg, hs⟩ := h.receipt k r hk
    obtain ⟨a', hg', hs'⟩ := ha _ a hg
    exact ⟨a', hg', hs.succeed hs'⟩
  demand k d' hk := by
    obtain ⟨d, hk', hrec, hstate⟩ := hd k d' hk
    obtain ⟨r, a, hrd, hg, hok⟩ := h.demand k d hk'
    obtain ⟨a', hg', -⟩ := ha _ a hg
    refine ⟨r, a', ?_, by rw [hrec]; exact hg', assertDemand_congr hrec (hstate a a' hg hg') hok⟩
    unfold RootDatabase.receiptOf at hrd ⊢
    rw [hr, hrec]
    exact hrd
  counted := by rw [hcount, hr]; exact h.counted
  limited := by rw [hr]; exact h.limited

/-- An operation on a claim moves the state of one demand. -/
theorem Sourced.touch {k d₀ : String} (h : Sourced db) (ht : Touches k d₀ db db')
    (hd : ∀ d', db'.demands.get? d₀ = some d' → ∃ d, db.demands.get? d₀ = some d ∧
      d'.toDemandRecord = d.toDemandRecord ∧ ∀ a, demandStateValid d a = true → demandStateValid d' a = true) :
    Sourced db' := by
  refine h.succeed ht.eventReceipts ht.demandCount ?_ ?_
  · intro g a hg
    exact ⟨a, by rw [ht.admissions]; exact hg, Succeeds.refl a⟩
  · intro y d' hy
    rw [ht.admissions]
    by_cases he : y = d₀
    · rw [he] at hy
      obtain ⟨d, hd₀, hrec, hstate⟩ := hd d' hy
      refine ⟨d, by rw [he]; exact hd₀, hrec, ?_⟩
      rintro a a' hg hg' hv
      rw [hg] at hg'
      cases hg'
      exact hstate a hv
    · rw [ht.demands y he] at hy
      refine ⟨d', hy, rfl, ?_⟩
      rintro a a' hg hg' hv
      rw [hg] at hg'
      cases hg'
      exact hv

/-! ## Supersession -/

/-- A demand after `supersede`. -/
def DemandRow.superseded (selected : String → Bool) (now : Int) (d : DemandRow) : DemandRow :=
  if selected d.admissionGeneration && d.state.waiting then
    { d with state := .superseded, updatedAt := now, terminalAt := some now }
  else d

omit [Sha256] in
theorem DemandRow.superseded_record (selected : String → Bool) (now : Int) (d : DemandRow) :
    (d.superseded selected now).toDemandRecord = d.toDemandRecord := by
  unfold DemandRow.superseded
  split <;> rfl

omit [Sha256] in
/-- A demand that is not waiting any more does not depend on its admission. -/
theorem demandStateValid_settled (hw : d.state.waiting = false)
    (h : demandStateValid d a = true) : demandStateValid d a' = true := by
  unfold demandStateValid at h ⊢
  split <;> simp_all [DemandState.waiting]

/-- What a waiting demand depends on. -/
def AdmissionRow.sameRoot (a a' : AdmissionRow) : Prop :=
  a'.state = a.state ∧ a'.rootSequence = a.rootSequence ∧ a'.rootCommit = a.rootCommit

variable {now : Int} {selected : String → Bool}

omit [Sha256] in
theorem demandStateValid_superseded
    (ha : selected d.admissionGeneration = false → a.sameRoot a') (h : demandStateValid d a = true) :
    demandStateValid (d.superseded selected now) a' = true := by
  unfold DemandRow.superseded
  by_cases hs : selected d.admissionGeneration = true
  · by_cases hw : d.state.waiting = true
    · rw [hs, hw]
      rfl
    · rw [Bool.not_eq_true] at hw
      rw [hw, Bool.and_false]
      exact demandStateValid_settled hw h
  · rw [Bool.not_eq_true] at hs
    obtain ⟨hstate, hsequence, hcommit⟩ := ha hs
    rw [hs]
    unfold demandStateValid at h ⊢
    rw [hstate, hsequence, hcommit]
    exact h

omit [Sha256] in
theorem endAdmissions_ok {selected : AdmissionRow → Bool} {state : AdmissionState}
    (h : endAdmissions selected state now db = .ok db') : ∃ admissions, db' = { db with admissions } ∧
      ∀ g, admissions.get? g = (db.admissions.get? g).map fun a =>
        if selected a then { a with state, endedAt := some now } else a := by
  unfold endAdmissions at h
  obtain ⟨admissions, hu, h⟩ := bind_ok.mp h
  cases pure_ok.mp h
  exact ⟨admissions, rfl, fun g => Table.get?_update hu (fun _ => rfl) g⟩

/-- Waiting demands of the selected admissions are superseded, and the admissions may change. -/
structure Supersedes (selected : String → Bool) (now : Int) (db db' : RootDatabase) : Prop where
  epochs : db'.epochs = db.epochs
  eventReceipts : db'.eventReceipts = db.eventReceipts
  claims : db'.claims = db.claims
  claimReceipts : db'.claimReceipts = db.claimReceipts
  hostResults : db'.hostResults = db.hostResults
  reportOutbox : db'.reportOutbox = db.reportOutbox
  demands : ∀ k, db'.demands.get? k = (db.demands.get? k).map (DemandRow.superseded selected now)
  demandCount : db'.demands.rows.length = db.demands.rows.length

section
omit [Sha256]

theorem supersede_ok
    (h : supersede selected now db = .ok db') : ∃ demands, db' = { db with demands } ∧ Supersedes selected now db db' := by
  unfold supersede at h
  obtain ⟨demands, hu, h⟩ := bind_ok.mp h
  cases pure_ok.mp h
  exact ⟨demands, rfl, rfl, rfl, rfl, rfl, rfl, rfl, fun k => Table.get?_update hu (fun _ => rfl) k, Table.update_length hu⟩

theorem Supersedes.none (now : Int) (db : RootDatabase) (admissions : Table AdmissionRow) :
    Supersedes (fun _ => false) now db { db with admissions } where
  epochs := rfl
  eventReceipts := rfl
  claims := rfl
  claimReceipts := rfl
  hostResults := rfl
  reportOutbox := rfl
  demands k := by
    show db.demands.get? k = _
    cases db.demands.get? k <;> rfl
  demandCount := rfl

theorem Supersedes.withAdmissions (h : Supersedes selected now db db') (admissions : Table AdmissionRow) :
    Supersedes selected now db { db' with admissions } :=
  ⟨h.epochs, h.eventReceipts, h.claims, h.claimReceipts, h.hostResults, h.reportOutbox, h.demands, h.demandCount⟩

theorem Supersedes.records {selected : String → Bool} {now : Int} {db db' : RootDatabase}
    (h : Supersedes selected now db db') : db'.records = db.records := by
  have hd : (fun k => (db'.demands.get? k).map (·.toDemandRecord)) = fun k =>
      (db.demands.get? k).map (·.toDemandRecord) := by
    funext k
    rw [h.demands, Option.map_map]
    congr 1
    funext d
    exact d.superseded_record selected now
  unfold RootDatabase.records
  simp only [hd, h.epochs, h.eventReceipts, h.claims, h.claimReceipts, h.hostResults, h.reportOutbox]

end

/-- The rows of a claim after its demand may have been superseded. -/
def View.superseded (selected : String → Bool) (now : Int) (v : View) : View :=
  { v with demand := v.demand.superseded selected now }

omit [Sha256] in
theorem Supersedes.view (h : Supersedes selected now db db')
    (k : String) : db'.view k = (db.view k).map (View.superseded selected now) := by
  unfold RootDatabase.view
  rw [h.claims, h.claimReceipts, h.hostResults, h.reportOutbox]
  cases db.claims.get? k with
  | none => rfl
  | some c =>
    simp only [Option.bind_eq_bind, Option.bind_some, h.demands]
    cases db.demands.get? c.demandId <;> rfl

/-- An admission that is not selected stays at its root, so its waiting demands stay valid. -/
theorem Sourced.supersedes (h : Sourced db) (hs : Supersedes selected now db db')
    (ha : ∀ g a, db.admissions.get? g = some a → ∃ a', db'.admissions.get? g = some a' ∧ Succeeds a a' ∧
      (selected g = false → a.sameRoot a')) : Sourced db' := by
  refine h.succeed hs.eventReceipts hs.demandCount ?_ ?_
  · intro g a hg
    obtain ⟨a', hg', hsucc, -⟩ := ha g a hg
    exact ⟨a', hg', hsucc⟩
  · intro k d' hk
    rw [hs.demands] at hk
    obtain ⟨d, hd, rfl⟩ := Option.map_eq_some_iff.mp hk
    refine ⟨d, hd, d.superseded_record selected now, ?_⟩
    intro a a' hg hg'
    obtain ⟨a'', hg'', -, hsame⟩ := ha _ a hg
    rw [hg'] at hg''
    cases hg''
    exact demandStateValid_superseded hsame

end

end Dim.RootCi
