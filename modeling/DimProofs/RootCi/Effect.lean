/-
What one action of a history does, for every operation at once: either nothing, or what the lemma of its
operation says. A property of histories is a case analysis of this table.
-/
import DimProofs.RootCi.Invariant

namespace Dim.RootCi

open Relational Dim.Ordinary

section
variable [Sha256]

inductive Effect (context : ServiceContext) (db db' : RootDatabase) : Operation → Prop
  | activateAdmissions {now : Int}
    (hs : Supersedes (fun g => (db.admissions.get? g).any (·.rotated context)) now db db')
    (hget : ∀ g, db'.admissions.get? g = (db.admissions.get? g).map fun a => a.ended (a.rotated context) .replaced now) :
    Effect context db db' (.activateAdmissions now)
  | activateEpoch {now : Int} (epochs : Table EpochRow) (he : db' = { db with epochs })
    (hget : ∀ e, epochs.get? e = if e = context.serviceEpochId then
        match db.epochs.get? e with
        | some row => some { row with active := true }
        | none => some { epochId := e, generationId := context.generationId, startedAt := now, active := true }
      else (db.epochs.get? e).map fun row => { row with active := false }) :
    Effect context db db' (.activateEpoch now)
  | register {proof : NativeRootCiPolicyProof} {uuid : String} {now : Int}
    (h : Registered context proof uuid now db db') : Effect context db db' (.register proof uuid now)
  | revoke {projectId admissionGeneration : String} {checkedAt supersededAt endedAt : Int} (row : AdmissionRow)
    (hrow : currentAdmission context projectId admissionGeneration checkedAt db = some row)
    (hs : Supersedes (fun g => g = admissionGeneration) supersededAt db db')
    (hget : ∀ g, db'.admissions.get? g =
      (db.admissions.get? g).map fun a => a.ended (a.admissionGeneration = admissionGeneration) .revoked endedAt) :
    Effect context db db' (.revoke projectId admissionGeneration checkedAt supersededAt endedAt)
  | commitEvent {request : NativeRootCiEventReceiptRequest} {proof : NativeRootCiReviewEventProof} {uuid : String}
    {evaluatedAt receivedAt now : Int} (admission : ReceiptAdmission) (row : AdmissionRow)
    (hready : Ready context request evaluatedAt db admission row)
    (hproof : proofMatches admission request.event proof = true)
    (hc : Committed request proof uuid receivedAt now admission db db') :
    Effect context db db' (.commitEvent request proof uuid evaluatedAt receivedAt now)
  | reserve {request : NativeRootCiClaimRequest} {uuid : String} {selectedAt updatedAt createdAt claimedAt : Int}
    (capacity : NativeCapacityPolicy) (d : DemandRow) (r : EventReceiptRow) (a : AdmissionRow)
    (howns : ownsActiveEpoch context db = true) (hd : db.demands.get? d.demandId = some d)
    (horigin : db.origin d = some (r, a)) (hp : db.reservable context selectedAt d = true)
    (hfresh : db.claims.get? uuid = none) (hnone : ∀ x c, db.claims.get? x = some c → c.demandId ≠ d.demandId)
    (hview : db'.view uuid = some (reservedView context request capacity d r a uuid updatedAt createdAt claimedAt))
    (ht : Touches uuid d.demandId db db') :
    Effect context db db' (.reserve request uuid selectedAt updatedAt createdAt claimedAt)
  | activate {request : NativeRootCiClaimActivationRequest} {checkedAt now : Int} (assignment : NativeAttemptAssignment)
    (v : View) (e : EventReceiptRow) (a : AdmissionRow)
    (ha : nativeRootCiAttemptAssignment request.claim request.issuance = some assignment)
    (hact : Activatable context request checkedAt db v e a) (hnone : v.receipt = none)
    (hm : Moves request.claim.claimId v (v.activated request context assignment now) db db') :
    Effect context db db' (.activate request checkedAt now)
  | renew {request : NativeRootCiClaimLeaseRequest} {checkedAt leasedAt updatedAt : Int} (v : View)
    (hactive : v.claim.state = .active)
    (hm : Moves request.claimId v (v.renewed (leasedAt + context.claimLeaseMilliseconds) updatedAt) db db') :
    Effect context db db' (.renew request checkedAt leasedAt updatedAt)
  | prepareRecovery {request : NativeRootCiClaimRecoveryRequest} {now : Int} (assignment : NativeAttemptAssignment)
      (v : View)
    (ha : nativeRootCiAttemptAssignment request.claim request.issuance = some assignment)
    (helig : recoveryEligible context request db = true)
    (hrecoverable : ∀ r, v.receipt = some r → Recoverable request assignment r v.report)
    (hm : Moves request.claimId v (v.prepared request assignment now) db db') :
    Effect context db db' (.prepareRecovery request now)
  | completeRecovery {request : NativeRootCiClaimRecoveryRequest} {revocation : NativeJobAttemptRevocation} {now : Int}
    (v : View) (r : ClaimReceiptRow) (demand : DemandState) (hcomp : Completable context request revocation db v r)
    (hm : Moves request.claimId v (v.revoked revocation demand now) db db')
    (hend : (demand = .completed ∧ v.demand.state = .reported ∧ v.result.isSome = true ∧
        ∃ o, v.report = some o ∧ o.state = .pending) ∨
      (demand = .superseded ∧ (v.demand.state = .preparing ∨ v.demand.state = .active) ∧ v.result = none ∧
        v.report = none)) :
    Effect context db db' (.completeRecovery request revocation now)
  | acceptResult {authenticatedHost : String} {request : NativeRootCiHostResultRequest} {checkedAt now : Int}
    (row : CurrentClaim) (hrow : currentClaim request.claimId authenticatedHost db = some row)
    (hadmits : row.admits context request checkedAt db = true)
    (hm : Moves request.claimId ⟨row.c, row.d, some row.r, none, none⟩
      (View.reported authenticatedHost request now ⟨row.c, row.d, some row.r, none, none⟩) db db') :
    Effect context db db' (.acceptResult authenticatedHost request checkedAt now)
  | acknowledge {delivery : Delivery} {body : AcknowledgementBody} {now : Int} (v : View) (r : ClaimReceiptRow)
      (o : ReportRow)
    (hack : acknowledges body.value delivery.terminalEvent context.reporterUsername = true)
    (hclaim : v.claim.state = .reported) (hreceipt : v.receipt = some r) (hstate : r.state = .reported)
    (hreport : v.report = some o) (hpending : o.state = .pending) (hevent : o.terminalEvent = delivery.terminalEvent)
    (hm : Moves delivery.claimId v (v.delivered body now) db db') :
    Effect context db db' (.acknowledge delivery body now)

/-- A transaction that changes the state committed. -/
theorem apply_cases {db : RootDatabase} (hv : db.records.Valid) (action : Action) : db.apply action = db ∨
    (action.operation.body action.context db = .ok (db.apply action) ∧
      Effect action.context db (db.apply action) action.operation) := by
  unfold RootDatabase.apply RootDatabase.commit
  split
  · rename_i db' hr
    rw [hr]
    obtain ⟨context, operation⟩ := action
    suffices h : db' = db ∨ Effect context db db' operation from h.imp_right fun h => ⟨rfl, h⟩
    cases operation with
    | activateAdmissions now =>
      obtain ⟨hs, hget⟩ := activateAdmissions_ok hr
      exact Or.inr (.activateAdmissions hs hget)
    | activateEpoch now =>
      obtain ⟨epochs, he, hget⟩ := activateEpoch_ok hr
      exact Or.inr (.activateEpoch epochs he hget)
    | register proof uuid now =>
      obtain ⟨answer, hr⟩ := map_snd_ok hr
      exact (registerMutation_cases hr).imp_right .register
    | revoke projectId admissionGeneration checkedAt supersededAt endedAt =>
      obtain ⟨answer, hr⟩ := map_snd_ok hr
      rcases revokeMutation_cases hr with rfl | ⟨row, hrow, hs, hget⟩
      · exact Or.inl rfl
      · exact Or.inr (.revoke row hrow hs hget)
    | commitEvent request proof uuid evaluatedAt receivedAt now =>
      obtain ⟨answer, hr⟩ := map_snd_ok hr
      rcases commitEvent_cases hr with rfl | ⟨admission, row, hready, hproof, hc⟩
      · exact Or.inl rfl
      · exact Or.inr (.commitEvent admission row hready hproof hc)
    | reserve request uuid selectedAt updatedAt createdAt claimedAt =>
      obtain ⟨answer, hr⟩ := map_snd_ok hr
      rcases reserve_cases hv hr with ⟨rfl, -⟩ |
        ⟨capacity, d, r, a, -, howns, -, hd, horigin, hp, hfresh, hnone, hview, ht, -⟩
      · exact Or.inl rfl
      · exact Or.inr (.reserve capacity d r a howns hd horigin hp hfresh hnone hview ht)
    | activate request checkedAt now =>
      rcases withAssignment_ok hr with rfl | ⟨assignment, ha, hr⟩
      · exact Or.inl rfl
      obtain ⟨answer, hr⟩ := map_snd_ok hr
      rcases activate_cases hv hr with ⟨rfl, -⟩ | ⟨v, e, a, -, hact, hnone, hm, -⟩
      · exact Or.inl rfl
      · exact Or.inr (.activate assignment v e a ha hact hnone hm)
    | renew request checkedAt leasedAt updatedAt =>
      obtain ⟨answer, hr⟩ := map_snd_ok hr
      rcases renew_cases hr with rfl | ⟨v, hactive, hm, -⟩
      · exact Or.inl rfl
      · exact Or.inr (.renew v hactive hm)
    | prepareRecovery request now =>
      rcases withAssignment_ok hr with rfl | ⟨assignment, ha, hr⟩
      · exact Or.inl rfl
      obtain ⟨answer, hr⟩ := map_snd_ok hr
      rcases prepareRecovery_cases hv hr with ⟨rfl, -⟩ | ⟨v, -, helig, hrecoverable, hm, -⟩
      · exact Or.inl rfl
      · exact Or.inr (.prepareRecovery assignment v ha helig hrecoverable hm)
    | completeRecovery request revocation now =>
      obtain ⟨answer, hr⟩ := map_snd_ok hr
      rcases completeRecovery_cases hv hr with rfl | ⟨v, r, demand, hcomp, hm, -, hend⟩
      · exact Or.inl rfl
      · exact Or.inr (.completeRecovery v r demand hcomp hm hend)
    | acceptResult authenticatedHost request checkedAt now =>
      obtain ⟨answer, hr⟩ := map_snd_ok hr
      rcases acceptResult_cases hr with ⟨rfl, -⟩ | ⟨row, -, hrow, hadmits, hm, -⟩
      · exact Or.inl rfl
      · exact Or.inr (.acceptResult row hrow hadmits hm)
    | acknowledge delivery body now =>
      obtain ⟨v, r, o, hack, hclaim, -, hreceipt, hstate, hreport, hpending, hevent, hm, -⟩ := acknowledge_cases hr
      exact Or.inr (.acknowledge v r o hack hclaim hreceipt hstate hreport hpending hevent hm)
  · exact Or.inl rfl

/-- The admissions whose waiting demands an operation supersedes. -/
def Operation.withdraws (context : ServiceContext) (db : RootDatabase) : Operation → String → Bool
  | .activateAdmissions _, g => (db.admissions.get? g).any (·.rotated context)
  | .register proof _ _, g => (db.activeAdmission proof.projectId).any fun active =>
    g = active.admissionGeneration && (active.bindingDigest ≠ ServiceContext.bindingDigest context proof
      || (!active.conflicts proof.currentRoot && active.rootSequence < proof.currentRoot.sequence))
  | .revoke projectId admissionGeneration checkedAt _ _, g =>
    g = admissionGeneration && (currentAdmission context projectId admissionGeneration checkedAt db).isSome
  | _, _ => false

theorem Registered.supersedes {context : ServiceContext} {proof : NativeRootCiPolicyProof} {uuid : String} {now : Int}
    {db db' : RootDatabase} (h : Registered context proof uuid now db db') :
    Supersedes (Operation.withdraws context db (.register proof uuid now)) now db db' := by
  cases h with
  | inserted hactive hs =>
    convert hs using 1
    funext g
    simp [Operation.withdraws, hactive]
  | refreshed active hactive hbinding hconflicts hs =>
    convert hs using 1
    funext g
    simp [Operation.withdraws, hactive, hbinding, hconflicts]
  | replaced active hactive hbinding hs =>
    convert hs using 1
    funext g
    simp [Operation.withdraws, hactive, hbinding]

omit [Sha256] in
/-- A property of the rows of every claim, after an operation that supersedes demands. -/
theorem Supersedes.views {P : String → View → Prop} {selected : String → Bool} {now : Int} {db db' : RootDatabase}
    (hs : Supersedes selected now db db') (h : ∀ x v, db.view x = some v → P x v)
    (hP : ∀ x v, db.view x = some v → selected v.demand.admissionGeneration = true → v.demand.state.waiting = true →
      P x { v with demand := { v.demand with state := .superseded, updatedAt := now, terminalAt := some now } }) :
    ∀ x v, db'.view x = some v → P x v := by
  intro x w hw
  rw [hs.view] at hw
  obtain ⟨v, hv, rfl⟩ := Option.map_eq_some_iff.mp hw
  unfold View.superseded DemandRow.superseded
  split
  · rename_i hsel
    rw [Bool.and_eq_true] at hsel
    exact hP x v hv hsel.1 hsel.2
  · exact h x v hv

end

end Dim.RootCi
