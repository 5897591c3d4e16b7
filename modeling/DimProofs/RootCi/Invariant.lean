/-
The invariant of a root CI database over every history: the demands fit their admissions, the ledger is
valid, and the status of every claim is in the table.
-/
import DimProofs.RootCi.Admissions
import DimProofs.RootCi.Run

namespace Dim.RootCi

open Relational Dim.Ordinary

/-- The rows of a claim are in the table, and its recovery revoked its own attempt. -/
structure View.Fits (v : View) : Prop where
  status : v.status.Fits
  revocation : ∀ r rev, v.receipt = some r → r.revocation = some rev →
    rev.attemptId = r.issuance.attemptId ∧ rev.descriptorDigest = r.issuance.descriptorDigest

section
variable [Sha256]

structure Inv (db : RootDatabase) : Prop where
  sourced : Sourced db
  recorded : db.records.Valid
  fits : ∀ k v, db.view k = some v → v.Fits

theorem Inv.empty : Inv .empty where
  sourced := Sourced.empty
  recorded := by constructor <;> intro _ _ h <;> cases h
  fits _ _ h := by cases h

section
variable {db db' : RootDatabase} {k : String} {v v' : View}

/-- What an operation on one claim has to show. -/
theorem Inv.move (h : Inv db) (hm : Moves k v v' db db') (hd : v'.demand.toDemandRecord = v.demand.toDemandRecord)
    (hc : v'.claim.toClaimRecord = v.claim.toClaimRecord)
    (hstate : ∀ a, demandStateValid v.demand a = true → demandStateValid v'.demand a = true)
    (hfits : v'.Fits) (hrec : db'.records.Valid) : Inv db' where
  sourced := by
    obtain ⟨hcb, hdb, -⟩ := view_eq_some.mp hm.before
    obtain ⟨-, hda, -⟩ := view_eq_some.mp hm.after
    rw [hc] at hda
    refine h.sourced.touch hm.touches ?_
    intro d' hd'
    rw [hda] at hd'
    cases hd'
    exact ⟨v.demand, hdb, hd, hstate⟩
  recorded := hrec
  fits := hm.views h.fits hfits

/-! ## Operations on claims -/

variable {context : ServiceContext}

variable {a : AdmissionRow}

variable {d : DemandRow}

omit [Sha256] in
/-- A demand that starts to wait, or stops waiting, in place of one that waits. -/
theorem demandStateValid_moved {d' : DemandRow} (hd : d'.toDemandRecord = d.toDemandRecord)
    (ht : d'.terminalAt = d.terminalAt) (hw : d.state.waiting = true ∨ d.state = .active)
    (hs : d'.state = .preparing ∧ d.state = .queued ∨ d'.state = .active ∨ d'.state = .reported)
    (h : demandStateValid d a = true) : demandStateValid d' a = true := by
  unfold demandStateValid at h ⊢
  rw [hd, ht]
  rcases hs with ⟨hs, hq⟩ | hs | hs
  · rw [hq] at h
    rw [hs]
    exact h
  all_goals
    rw [hs]
    cases he : d.state <;> simp_all [DemandState.waiting]

variable {uuid : String}

variable {claimedAt createdAt selectedAt : Int}

/-- The claim that `reserve` makes agrees with its event, its admission and its epoch. -/
theorem assertClaim_newClaim {request : NativeRootCiClaimRequest} {capacity : NativeCapacityPolicy}
    {r : EventReceiptRow} (hs : EventSourced r a)
    (hr : db.receiptOf d = some r) (ha : db.admissions.get? d.admissionGeneration = some a)
    (hp : db.reservable context selectedAt d = true) : assertClaim
      (claimRow (newClaim context request capacity d r a uuid) createdAt claimedAt).toClaimRecord d.toDemandRecord r
      context.generationId = true := by
  have hkeys := Table.get?_key hr
  simp only [EventReceiptRow.key_eq, Prod.mk.injEq] at hkeys
  have hparsed := hs.parsed
  simp only [NativeRootCiCurrentRoot.matchesPolicy, AdmissionRow.currentRoot, Bool.and_eq_true] at hparsed
  obtain ⟨⟨⟨⟨href, hcommit⟩, htree⟩, hlen⟩, hdigest⟩ := hparsed
  simp only [RootDatabase.reservable, origin_eq_some.mpr ⟨hr, ha⟩, Option.any_some, AdmissionRow.current,
    AdmissionRow.atRoot, Bool.and_eq_true, decide_eq_true_eq] at hp
  obtain ⟨-, ⟨⟨⟨⟨hactive, hlease⟩, hgen⟩, hcap⟩, hsvc⟩, ⟨hseq, hroot⟩, hrootTree⟩ := hp
  have h₁ := hs.serviceId
  have h₂ := hs.generationId
  have h₃ := hs.eventId
  have h₄ := hs.importNonce
  have h₅ := hs.policyDigest
  have h₆ := hs.capacityConfigDigest
  have h₇ := hs.admissionRef
  have h₈ := hs.admissionProject
  have h₉ := hs.projectId
  simp only [assertClaim, claimRow, newClaim, claimRootValid, hcommit, htree, Bool.and_eq_true, decide_eq_true_eq,
    and_true, true_and]
  grind

theorem Inv.reserve {request : NativeRootCiClaimRequest} {updatedAt : Int}
    {answer : ClaimReservationResult} (h : Inv db)
    (hr : RootCi.reserve context request uuid selectedAt updatedAt createdAt claimedAt db = .ok (answer, db')) :
    Inv db' := by
  rcases reserve_cases h.recorded hr with ⟨rfl, -⟩ |
    ⟨capacity, d, r, a, -, howns, -, hd, horigin, hp, hfresh, hnone, hview, ht, hrec⟩
  · exact h
  obtain ⟨hreceipt, hadm⟩ := origin_eq_some.mp horigin
  have hkeys := Table.get?_key hreceipt
  simp only [EventReceiptRow.key_eq, Prod.mk.injEq] at hkeys
  obtain ⟨a', ha', hs⟩ := h.sourced.receipt _ r hreceipt
  rw [hkeys.1, hadm] at ha'
  cases ha'
  have hqueued : d.state = .queued := by
    simp only [RootDatabase.reservable, Bool.and_eq_true, decide_eq_true_eq] at hp
    exact hp.1
  refine ⟨?_, ?_, ?_⟩
  · refine h.sourced.touch ht ?_
    intro d' hd'
    cases (view_eq_some.mp hview).2.1.symm.trans hd'
    exact ⟨d, hd, rfl, fun a' => demandStateValid_moved rfl rfl (Or.inl (by rw [hqueued]; rfl)) (Or.inl ⟨rfl, hqueued⟩)⟩
  · rw [hrec]
    refine h.recorded.putClaim (by simp [RootDatabase.records, hfresh]) ?_
    obtain ⟨e, he, hgen, -⟩ := ownsActiveEpoch_epoch howns
    refine ⟨d.toDemandRecord, r, context.generationId, ?_, hreceipt, ?_, assertClaim_newClaim hs hreceipt hadm hp⟩
    · show (db.demands.get? d.demandId).map _ = _
      rw [hd]
      rfl
    · show (db.epochs.get? context.serviceEpochId).map _ = _
      rw [he, ← hgen]
      rfl
  · exact views_touched h.fits ht (fun x c _ hc => hnone x c hc) hview
      ⟨.preparing (Or.inl rfl), fun r rev hr => by cases hr⟩

variable {checkedAt now : Int}

variable {assignment : NativeAttemptAssignment}

theorem Inv.activate {request : NativeRootCiClaimActivationRequest} {answer : ActivationResult} (h : Inv db)
    (ha : nativeRootCiAttemptAssignment request.claim request.issuance = some assignment)
    (hr : RootCi.activate context request assignment checkedAt now db = .ok (answer, db')) : Inv db' := by
  rcases activate_cases h.recorded hr with ⟨rfl, -⟩ | ⟨v, e, a, -, hact, hnone, hm, hrec⟩
  · exact h
  have hfits := (h.fits _ v hm.before).status.of_preparing hact.claim
  obtain ⟨hc, -, -, hh, ho⟩ := view_eq_some.mp hm.before
  have hresult : v.result = none := by simpa [View.status] using hfits.2.2.1
  have hreport : v.report = none := by simpa [View.status] using hfits.2.2.2
  refine h.move hm rfl rfl ?_ ⟨?_, ?_⟩ ?_
  · intro a
    exact demandStateValid_moved rfl rfl (Or.inl (by rw [hact.demand]; rfl)) (Or.inr (Or.inl rfl))
  · simp only [View.status, View.activated, hresult, hreport]
    exact .active
  · intro r rev hreceipt hrev
    cases hreceipt
    cases hrev
  · rw [hrec]
    refine h.recorded.putReceipt ?_ (c := v.claim.toClaimRecord) ?_ ⟨?_, rfl, rfl⟩
    · simp [RootDatabase.records, (view_eq_some.mp hm.before).2.2.1, hnone]
    · simp [RootDatabase.records, hc]
    · rw [hact.response]
      exact ha

theorem Inv.renew {request : NativeRootCiClaimLeaseRequest} {checkedAt leasedAt updatedAt : Int}
    {answer : Option NativeRootCiActiveClaim} (h : Inv db)
    (hr : RootCi.renew context request checkedAt leasedAt updatedAt db = .ok (answer, db')) : Inv db' := by
  rcases renew_cases hr with rfl | ⟨v, -, hm, hrec⟩
  · exact h
  have hfits := h.fits _ v hm.before
  refine h.move hm rfl rfl (fun _ hv => hv) ⟨?_, ?_⟩ (by rw [hrec]; exact h.recorded)
  · cases hv : v.receipt <;> simpa [View.status, View.renewed, hv, ClaimReceiptRow.status] using hfits.status
  · intro r rev hreceipt hrev
    obtain ⟨r₀, hr₀, rfl⟩ := Option.map_eq_some_iff.mp hreceipt
    exact hfits.revocation r₀ rev hr₀ hrev

theorem Inv.prepareRecovery {request : NativeRootCiClaimRecoveryRequest}
    {answer : RecoveryPreparation} (h : Inv db)
    (ha : nativeRootCiAttemptAssignment request.claim request.issuance = some assignment)
    (hr : RootCi.prepareRecovery context request assignment now db = .ok (answer, db')) : Inv db' := by
  rcases prepareRecovery_cases h.recorded hr with ⟨rfl, -⟩ | ⟨v, -, helig, hrecoverable, hm, hrec⟩
  · exact h
  have hfits := h.fits _ v hm.before
  obtain ⟨hc, -, hreceipt, -⟩ := view_eq_some.mp hm.before
  obtain ⟨-, -, c, hc', hresp, -, -⟩ := recoveryEligible_iff.mp helig
  rw [hc] at hc'
  cases hc'
  cases hv : v.receipt with
  | none =>
    have hprep := hfits.status.of_preparing (hfits.status.of_unactivated (by simp [View.status, hv]))
    have hresult : v.result = none := by simpa [View.status] using hprep.2.2.1
    have hreport : v.report = none := by simpa [View.status] using hprep.2.2.2
    refine h.move hm rfl rfl (fun _ hv => hv) ⟨?_, ?_⟩ ?_
    · simp only [View.status, View.prepared, hv, hresult, hreport]
      exact .recovering (hprep.1.imp_right Or.inl)
    · intro r rev hr hrev
      simp only [View.prepared, hv] at hr
      cases hr
      cases hrev
    · rw [hrec, hv]
      have hparsed := request.parsed
      simp only [recoveryIdentity, Bool.and_eq_true, decide_eq_true_eq] at hparsed
      refine h.recorded.putReceipt ?_ (c := v.claim.toClaimRecord) ?_ ⟨?_, ?_, ?_⟩
      · simp [RootDatabase.records, hreceipt, hv]
      · simp [RootDatabase.records, hc]
      · rw [hresp]
        exact ha
      · exact hparsed.1.2
      · exact hparsed.2
  | some r =>
    refine h.move hm rfl rfl (fun _ hv => hv) ⟨?_, ?_⟩ ?_
    · have hprepared := hfits.status.prepare (r := r.status) (by simp [View.status, hv]) (hrecoverable r hv).state
      simpa [View.status, View.prepared, hv, preparedReceipt, ClaimReceiptRow.status] using hprepared
    · intro r' rev hr' hrev'
      simp only [View.prepared, hv, preparedReceipt] at hr'
      cases hr'
      exact hfits.revocation r rev hv hrev'
    · rw [hrec, hv]
      exact h.recorded

theorem Inv.completeRecovery {request : NativeRootCiClaimRecoveryRequest} {revocation : NativeJobAttemptRevocation}
    {done : Bool} (h : Inv db) (hr : RootCi.completeRecovery context request revocation now db = .ok (done, db')) :
    Inv db' := by
  rcases completeRecovery_cases h.recorded hr with rfl | ⟨v, r, demand, hcomp, hm, hrec, hend⟩
  · exact h
  have hfits := h.fits _ v hm.before
  have hrecovering := hfits.status.of_recovering hcomp.claim
  have hstatus : r.status = ⟨.recovering, true, false, false⟩ := by
    have hs := hrecovering.1
    simp only [View.status, hcomp.receipt, Option.map_some, Option.some.injEq] at hs
    exact hs
  have hrecovery : r.recoveryRequestId.isSome = true := congrArg ReceiptStatus.recovery hstatus
  have hrevoked : (revokedReceipt revocation now r).status = ⟨.released, true, true, true⟩ := by
    simp [ClaimReceiptRow.status, revokedReceipt, hrecovery]
  refine h.move hm rfl rfl ?_ ⟨?_, ?_⟩ (by rw [hrec]; exact h.recorded)
  · intro a _
    rcases hend with ⟨rfl, -⟩ | ⟨rfl, -⟩ <;> rfl
  · rcases hend with ⟨rfl, -, hresult, o, ho, -⟩ | ⟨rfl, -, hresult, ho⟩
    · simp only [View.status, View.revoked, hcomp.receipt, Option.map_some, hrevoked, hresult, ho]
      exact .denied
    · simp only [View.status, View.revoked, hcomp.receipt, Option.map_some, hrevoked, hresult, ho]
      exact .abandoned
  · intro r' rev hr' hrev
    simp only [View.revoked, hcomp.receipt, Option.map_some, Option.some.injEq] at hr'
    cases hr'
    cases hrev
    have hmatch := hcomp.revocation
    have hparsed := request.parsed
    simp only [revocationMatches, recoveryIdentity, Bool.and_eq_true, decide_eq_true_eq] at hmatch hparsed
    simp only [revokedReceipt, hcomp.issuance]
    exact ⟨hmatch.1.1.1.trans hparsed.1.2, hmatch.1.1.2.trans hparsed.2⟩

variable {authenticatedHost : String}

/-- The result that `accept` stores agrees with its report, claim and receipt. -/
theorem resultColumns_hostResult {c : ClaimRecord} {r : ClaimReceiptRecord}
    {request : NativeRootCiHostResultRequest} (hb : ReceiptBound c r) (hcols : ClaimColumns c)
    (hgen : request.generationId = c.generationId) (hhost : c.hostId = authenticatedHost)
    (hmatch : resultMatches request.terminalEvent.payload r.assignment r.issuance = true) :
    resultColumns (hostResult authenticatedHost request now) (pendingReport request now).toReportRecord c r = true := by
  obtain ⟨hbound, hvalid, -⟩ := attemptAssignment_some hb.assignment
  obtain ⟨-, hissued, -⟩ := issuanceBound_claim hbound
  have hfields := hmatch
  simp only [resultMatches, Bool.and_eq_true, decide_eq_true_eq] at hfields
  have h₁ := hcols.hostId
  have h₂ := hb.attemptId
  have h₃ := hb.descriptorDigest
  simp only [resultColumns, hostResult, pendingReport, hvalid, hmatch, Bool.and_eq_true, decide_eq_true_eq, and_true,
    true_and]
  grind

theorem Inv.acceptResult {request : NativeRootCiHostResultRequest}
    {answer : NativeRootCiResultIntake} (h : Inv db)
    (hr : RootCi.acceptResult context authenticatedHost request checkedAt now db = .ok (answer, db')) : Inv db' := by
  rcases acceptResult_cases hr with ⟨rfl, -⟩ | ⟨row, -, hrow, hadmits, hm, hrec⟩
  · exact h
  have hfits := h.fits _ _ hm.before
  obtain ⟨hc, hhost, hr, hj⟩ := currentClaim_eq_some.mp hrow
  obtain ⟨hgen, hcs, -, hds, hmatch⟩ := row.admitted hadmits
  have hactive := (hfits.status.of_active hcs).2.1
  simp only [View.status, Option.map_some, Option.some.injEq, ClaimReceiptRow.status, ReceiptStatus.mk.injEq] at hactive
  refine h.move hm rfl rfl ?_ ⟨?_, ?_⟩ ?_
  · intro a
    exact demandStateValid_moved rfl rfl (Or.inr hds) (Or.inr (Or.inr rfl))
  · simp only [View.status, View.reported, Option.map_some, ClaimReceiptRow.status, hactive.2.1, hactive.2.2.1,
      hactive.2.2.2]
    exact .reported
  · intro r' rev hr' hrev
    simp only [View.reported, Option.map_some, Option.some.injEq] at hr'
    cases hr'
    exact hfits.revocation row.r rev rfl hrev
  · rw [hrec]
    obtain ⟨c', hc', hb⟩ :=
      h.recorded.claimReceipt request.claimId row.r.toClaimReceiptRecord (by simp [RootDatabase.records, hr])
    have hcrec : db.records.claim request.claimId = some row.c.toClaimRecord := by simp [RootDatabase.records, hc]
    rw [hcrec] at hc'
    cases hc'
    refine h.recorded.putResult (r := row.r.toClaimReceiptRecord) ?_ hcrec (by simp [RootDatabase.records, hr]) ?_
    · simp [RootDatabase.records, (view_eq_some.mp hm.before).2.2.2.2]
    · exact resultColumns_hostResult hb (columns_of_claim h.recorded hc) hgen hhost hmatch

theorem Inv.acknowledge {delivery : Delivery} {body : AcknowledgementBody} (h : Inv db)
    (hr : RootCi.acknowledge context delivery body now db = .ok db') : Inv db' := by
  obtain ⟨v, r, o, -, hclaim, hdemand, hreceipt, hstate, hreport, -, -, hm, hrec⟩ := acknowledge_cases hr
  have hfits := h.fits _ v hm.before
  obtain ⟨-, hs, hresult, -⟩ := hfits.status.of_reported hclaim
  refine h.move hm rfl rfl (fun _ _ => rfl) ⟨?_, ?_⟩ (by rw [hrec]; exact h.recorded)
  · simp only [View.status, hreceipt, Option.map_some, Option.some.injEq] at hs
    simp only [ClaimReceiptRow.status, ReceiptStatus.mk.injEq] at hs
    have hresult' : v.result.isSome = true := hresult
    simp only [View.status, View.delivered, hreceipt, hreport, hresult', Option.map_some, ClaimReceiptRow.status,
      hs.2.1, hs.2.2.1]
    exact .delivered
  · intro r' rev hr' hrev
    simp only [View.delivered, hreceipt, Option.map_some, Option.some.injEq] at hr'
    cases hr'
    exact hfits.revocation r rev hreceipt hrev

/-! ## Operations on admissions -/

omit [Sha256] in
theorem View.Fits.superseded (h : v.Fits) (selected : String → Bool) (now : Int) : (v.superseded selected now).Fits := by
  refine ⟨?_, h.revocation⟩
  unfold View.superseded DemandRow.superseded
  split
  · rename_i hsel
    rw [Bool.and_eq_true] at hsel
    exact h.status.supersede hsel.2
  · exact h.status

theorem Inv.supersedes {selected : String → Bool} (h : Inv db) (hs : Supersedes selected now db db')
    (ha : ∀ g a, db.admissions.get? g = some a → ∃ a', db'.admissions.get? g = some a' ∧ Succeeds a a' ∧
      (selected g = false → a.sameRoot a')) : Inv db' where
  sourced := h.sourced.supersedes hs ha
  recorded := by rw [hs.records]; exact h.recorded
  fits k w hw := by
    rw [hs.view] at hw
    obtain ⟨v, hv, rfl⟩ := Option.map_eq_some_iff.mp hw
    exact (h.fits k v hv).superseded selected now

theorem AdmissionRow.ended_succeeds (selected : Bool) (state : AdmissionState) (now : Int) (a : AdmissionRow) :
    Succeeds a (a.ended selected state now) := by
  unfold AdmissionRow.ended
  split
  · exact Succeeds.ended a state now
  · exact Succeeds.refl a

omit [Sha256] in
theorem AdmissionRow.sameRoot_refl (a : AdmissionRow) : a.sameRoot a := ⟨rfl, rfl, rfl⟩

omit [Sha256] in
theorem AdmissionRow.ended_sameRoot {selected : Bool} {state : AdmissionState}
    (h : selected = false) : a.sameRoot (a.ended selected state now) := by
  rw [h]
  exact a.sameRoot_refl

/-- A later root under the same binding. -/
theorem AdmissionRow.advanced_succeeds {proof : NativeRootCiPolicyProof} {expiresAt : Int}
    (hc : a.conflicts proof.currentRoot = false) : Succeeds a (a.advanced proof.currentRoot expiresAt now) := by
  simp only [AdmissionRow.conflicts, Bool.or_eq_false_iff, decide_eq_false_iff_not, Bool.and_eq_false_imp, decide_eq_true_eq,
    Bool.not_eq_false', Bool.and_eq_true] at hc
  obtain ⟨hle, hsame⟩ := hc
  refine ⟨rfl, ?_, ?_⟩
  · intro ha
    have hp := proof.parsed
    simp only [NativeRootCiCurrentRoot.matchesPolicy, Bool.and_eq_true, decide_eq_true_eq] at ha hp ⊢
    exact ⟨⟨⟨⟨ha.1.1.1.1, hp.1.1.1.2⟩, hp.1.1.2⟩, hp.1.2⟩, ha.2⟩
  · by_cases hseq : proof.currentRoot.sequence = a.rootSequence
    · obtain ⟨hcommit, htree⟩ := hsame hseq
      exact Or.inr ⟨hseq, hcommit.symm, htree.symm⟩
    · left
      show a.rootSequence < proof.currentRoot.sequence
      omega

theorem Inv.registered {proof : NativeRootCiPolicyProof} (h : Inv db)
    (hr : Registered context proof uuid now db db') : Inv db' := by
  cases hr with
  | inserted hactive hs hfresh hget =>
    refine h.supersedes hs ?_
    intro g a hg
    refine ⟨a, ?_, Succeeds.refl a, fun _ => a.sameRoot_refl⟩
    rw [hget, if_neg (by rintro rfl; rw [hfresh] at hg; cases hg)]
    exact hg
  | refreshed active hactive hbinding hconflicts hs hget =>
    refine h.supersedes hs ?_
    intro g a hg
    rw [hget]
    by_cases he : g = active.admissionGeneration
    · obtain ⟨hrow, -, -⟩ := activeAdmission_spec hactive
      rw [he, hrow] at hg
      cases hg
      rw [if_pos he]
      have hsucc : Succeeds active (active.advanced proof.currentRoot (now + context.eligibilityLeaseMilliseconds) now) :=
        AdmissionRow.advanced_succeeds hconflicts
      refine ⟨_, rfl, hsucc, ?_⟩
      -- the demands are left waiting only where the root stays
      intro hsel
      rw [he] at hsel
      simp only [decide_true, Bool.true_and, decide_eq_false_iff_not] at hsel
      rcases hsucc.root with hlt | ⟨hseq, hcommit, -⟩
      · exact absurd hlt hsel
      · exact ⟨rfl, hseq, hcommit⟩
    · rw [if_neg he]
      exact ⟨a, hg, Succeeds.refl a, fun _ => a.sameRoot_refl⟩
  | replaced active hactive hbinding hs hfresh hget =>
    refine h.supersedes hs ?_
    intro g a hg
    have hkey : a.admissionGeneration = g := Table.get?_key hg
    rw [hget, if_neg (by rintro rfl; rw [hfresh] at hg; cases hg), hg]
    refine ⟨_, rfl, a.ended_succeeds _ _ _, ?_⟩
    intro hsel
    exact AdmissionRow.ended_sameRoot (by rw [hkey]; exact hsel)

theorem Inv.register {proof : NativeRootCiPolicyProof} {answer : RegistrationResult} (h : Inv db)
    (hr : registerMutation context proof uuid now db = .ok (answer, db')) : Inv db' := by
  rcases registerMutation_cases hr with rfl | hreg
  · exact h
  · exact h.registered hreg

theorem Inv.revoke {projectId admissionGeneration : String} {supersededAt endedAt : Int}
    {answer : Option AdmissionRow} (h : Inv db)
    (hr : revokeMutation context projectId admissionGeneration checkedAt supersededAt endedAt db = .ok (answer, db')) :
    Inv db' := by
  rcases revokeMutation_cases hr with rfl | ⟨row, -, hs, hget⟩
  · exact h
  refine h.supersedes hs ?_
  intro g a hg
  have hkey : a.admissionGeneration = g := Table.get?_key hg
  rw [hget, hg]
  refine ⟨_, rfl, a.ended_succeeds _ _ _, ?_⟩
  intro hsel
  exact AdmissionRow.ended_sameRoot (by rw [hkey]; exact hsel)

theorem Inv.activateAdmissions {now : Int} (h : Inv db) (hr : RootCi.activateAdmissions context now db = .ok db') :
    Inv db' := by
  obtain ⟨hs, hget⟩ := activateAdmissions_ok hr
  refine h.supersedes hs ?_
  intro g a hg
  rw [hget, hg]
  refine ⟨_, rfl, a.ended_succeeds _ _ _, ?_⟩
  intro hsel
  exact AdmissionRow.ended_sameRoot hsel

/-! ## Epochs and events -/

theorem Inv.activateEpoch {now : Int} (h : Inv db) (hr : RootCi.activateEpoch context now db = .ok db') : Inv db' := by
  obtain ⟨epochs, rfl, hget⟩ := activateEpoch_ok hr
  refine ⟨?_, ?_, h.fits⟩
  · exact ⟨h.sourced.receipt, h.sourced.demand, h.sourced.counted, h.sourced.limited⟩
  · refine h.recorded.of_extends ⟨?_, fun _ _ h => h, fun _ _ h => h⟩ rfl rfl rfl rfl
    intro e g he
    obtain ⟨row, hrow, rfl⟩ := Option.map_eq_some_iff.mp he
    show (epochs.get? e).map _ = _
    rw [hget, hrow]
    split <;> rfl

variable {admission : ReceiptAdmission} {evaluatedAt receivedAt : Int} {proof : NativeRootCiReviewEventProof}
variable {request : NativeRootCiEventReceiptRequest}

variable {row : AdmissionRow}

/-- A committed event stands at the root of its admission. -/
theorem EventSourced.committed
    (hready : Ready context request evaluatedAt db admission row)
    (hproof : proofMatches admission request.event proof = true) :
    EventSourced (eventReceipt request admission proof receivedAt) row := by
  obtain ⟨hparsed, h₁, h₂, h₃, h₄⟩ := proof?_eq_some hready.proof
  obtain ⟨-, hproject⟩ := Option.filter_eq_some_iff.mp hready.eligible
  simp only [Bool.and_eq_true, decide_eq_true_eq] at hproject
  have hroot := hparsed
  simp only [NativeRootCiCurrentRoot.matchesPolicy, Bool.and_eq_true, decide_eq_true_eq] at hroot
  simp only [proofMatches, eventMatches, Bool.and_eq_true, decide_eq_true_eq] at hproof
  obtain ⟨⟨⟨⟨⟨⟨⟨⟨⟨e₁, e₂⟩, e₃⟩, e₄⟩, e₅⟩, p₁⟩, p₂⟩, p₃⟩, p₄⟩, p₅⟩ := hproof
  rw [h₃] at p₂ e₁ e₂
  have hcap := hready.capacityConfigDigest
  have hsvc := hready.serviceId
  constructor <;> simp only [eventReceipt, p₂, AdmissionRow.currentRoot] at * <;> grind

/-- The demand of a committed event agrees with its receipt and waits at the root of its admission. -/
theorem assertDemand_committed
    (hready : Ready context request evaluatedAt db admission row)
    (hproof : proofMatches admission request.event proof = true)
    (hs : EventSourced (eventReceipt request admission proof receivedAt) row) (hactive : row.state = .active) :
    assertDemand (demand request admission proof uuid now) (eventReceipt request admission proof receivedAt) row = true := by
  obtain ⟨-, -, -, hroot, -⟩ := proof?_eq_some hready.proof
  simp only [proofMatches, Bool.and_eq_true, decide_eq_true_eq] at hproof
  have hcurrent : proof.currentRoot = row.currentRoot := hproof.1.1.1.2.trans hroot
  have hproject : proof.projectId = request.event.projectId := hs.projectId.symm
  have href : request.event.protectedRef = row.currentRoot.protectedRef := by rw [← hcurrent]; exact hs.protectedRef
  have hhead : request.event.expectedProtectedHead = row.currentRoot.commit := by rw [← hcurrent]; exact hs.head
  simp [assertDemand, demand, eventReceipt, demandStateValid, hcurrent, hproject, href, hhead, hactive,
    AdmissionRow.currentRoot]

theorem Committed.records {request : NativeRootCiEventReceiptRequest} {proof : NativeRootCiReviewEventProof} {uuid : String}
    {receivedAt now : Int} {admission : ReceiptAdmission}
    (hc : Committed request proof uuid receivedAt now admission db db') :
    db'.records = { db.records with
      receipt := put db.records.receipt (request.admissionGeneration, request.event.eventId)
        (eventReceipt request admission proof receivedAt)
      demand := put db.records.demand uuid (RootCi.demand request admission proof uuid now).toDemandRecord } := by
  have hreceipt : (fun k => db'.eventReceipts.get? k) = put (fun k => db.eventReceipts.get? k)
      (request.admissionGeneration, request.event.eventId)
        (eventReceipt request admission proof receivedAt) := funext hc.receipt
  have hdemand : (fun k => (db'.demands.get? k).map (·.toDemandRecord)) =
      put (fun k => (db.demands.get? k).map (·.toDemandRecord)) uuid
        (RootCi.demand request admission proof uuid now).toDemandRecord := by
    funext k
    unfold put
    rw [hc.demand]
    split <;> rfl
  unfold RootDatabase.records
  simp only [hreceipt, hdemand, hc.epochs, hc.claims, hc.claimReceipts, hc.hostResults, hc.reportOutbox]

/-- The rows of a claim stay, as its demand was there before. -/
theorem Committed.view (hc : Committed request proof uuid receivedAt now admission db db')
    (hv : db.records.Valid) (k : String) : db'.view k = db.view k := by
  unfold RootDatabase.view
  rw [hc.claims, hc.claimReceipts, hc.hostResults, hc.reportOutbox]
  cases hclaim : db.claims.get? k with
  | none => rfl
  | some c =>
    obtain ⟨d, hd, -⟩ := view_of_claim hv hclaim
    have hne : c.demandId ≠ uuid := by
      intro he
      rw [he, hc.fresh] at hd
      cases hd
    simp only [Option.bind_eq_bind, Option.bind_some]
    rw [hc.demand, if_neg hne]

theorem Inv.commitEvent {answer : ReceiptPreflight} (h : Inv db)
    (hr : RootCi.commitEvent context request proof uuid evaluatedAt receivedAt now db = .ok (answer, db')) : Inv db' := by
  rcases commitEvent_cases hr with rfl | ⟨admission, row, hready, hproof, hc⟩
  · exact h
  have hsourced : EventSourced (eventReceipt request admission proof receivedAt) row := EventSourced.committed hready hproof
  obtain ⟨hadm, heligible⟩ := Option.filter_eq_some_iff.mp hready.eligible
  simp only [AdmissionRow.current, Bool.and_eq_true, decide_eq_true_eq] at heligible
  obtain ⟨⟨-, ⟨⟨hactive, -⟩, -⟩, -⟩, -⟩ := heligible
  have hreceipt : ∀ d r, db.receiptOf d = some r → db'.receiptOf d = some r := by
    intro d r hr
    unfold RootDatabase.receiptOf at hr ⊢
    rw [hc.receipt, if_neg (by intro he; rw [he, hready.fresh] at hr; cases hr)]
    exact hr
  refine ⟨⟨?_, ?_, ?_, ?_⟩, ?_, ?_⟩
  · intro k r hr
    rw [hc.receipt] at hr
    rw [hc.admissions]
    split at hr
    · cases hr
      exact ⟨row, hadm, hsourced⟩
    · exact h.sourced.receipt k r hr
  · intro k d hd
    rw [hc.demand] at hd
    rw [hc.admissions]
    split at hd
    · cases hd
      refine ⟨eventReceipt request admission proof receivedAt, row, ?_, hadm, ?_⟩
      · show db'.eventReceipts.get? (request.admissionGeneration, request.event.eventId) = _
        rw [hc.receipt, if_pos rfl]
      · exact assertDemand_committed hready hproof hsourced hactive
    · obtain ⟨r, a, hr, ha, hok⟩ := h.sourced.demand k d hd
      exact ⟨r, a, hreceipt d r hr, ha, hok⟩
  · have := h.sourced.counted
    have hr := hc.receiptCount
    have hd := hc.demandCount
    omega
  · have hr := hc.receiptCount
    have hlimit := hready.limit
    omega
  · rw [hc.records]
    exact h.recorded.putDemand hready.fresh (by simp [RootDatabase.records, hc.fresh])
  · intro k w hw
    rw [hc.view h.recorded] at hw
    exact h.fits k w hw

/-! ## Histories -/

theorem Inv.apply (h : Inv db) (action : Action) : Inv (db.apply action) := by
  unfold RootDatabase.apply RootDatabase.commit
  split
  · rename_i db' hr
    obtain ⟨context, operation⟩ := action
    cases operation with
    | activateAdmissions now => exact h.activateAdmissions hr
    | activateEpoch now => exact h.activateEpoch hr
    | register proof uuid now =>
      obtain ⟨answer, hr⟩ := map_snd_ok hr
      exact h.register hr
    | revoke projectId admissionGeneration checkedAt supersededAt endedAt =>
      obtain ⟨answer, hr⟩ := map_snd_ok hr
      exact h.revoke hr
    | commitEvent request proof uuid evaluatedAt receivedAt now =>
      obtain ⟨answer, hr⟩ := map_snd_ok hr
      exact h.commitEvent hr
    | reserve request uuid selectedAt updatedAt createdAt claimedAt =>
      obtain ⟨answer, hr⟩ := map_snd_ok hr
      exact h.reserve hr
    | activate request checkedAt now =>
      rcases withAssignment_ok hr with rfl | ⟨assignment, ha, hr⟩
      · exact h
      · obtain ⟨answer, hr⟩ := map_snd_ok hr
        exact h.activate ha hr
    | renew request checkedAt leasedAt updatedAt =>
      obtain ⟨answer, hr⟩ := map_snd_ok hr
      exact h.renew hr
    | prepareRecovery request now =>
      rcases withAssignment_ok hr with rfl | ⟨assignment, ha, hr⟩
      · exact h
      · obtain ⟨answer, hr⟩ := map_snd_ok hr
        exact h.prepareRecovery ha hr
    | completeRecovery request revocation now =>
      obtain ⟨answer, hr⟩ := map_snd_ok hr
      exact h.completeRecovery hr
    | acceptResult authenticatedHost request checkedAt now =>
      obtain ⟨answer, hr⟩ := map_snd_ok hr
      exact h.acceptResult hr
    | acknowledge delivery body now => exact h.acknowledge hr
  · exact h

theorem Inv.run (h : Inv db) : ∀ actions : List Action, Inv (db.run actions) := by
  intro actions
  induction actions generalizing db with
  | nil => exact h
  | cons action rest ih => exact ih (h.apply action)

end

end

end Dim.RootCi
