/-
Which histories leave a database that the next start accepts. The table of `assertClaimLifecycle` has no
row for a claim in recovery whose demand is superseded, and two orders of the operations make one: the
recovery of a claim that was never activated after its demand was superseded, and the supersession of a
demand that waits under a claim in recovery. All other histories are accepted.
-/
import DimProofs.RootCi.Effect

namespace Dim.RootCi

open Relational Transition Dim.Ordinary

section
variable [Sha256]

/-! ## What a start needs besides the invariant -/

/-- A delivered report holds an acknowledgement of its result by this reporter. -/
structure Acknowledged (reporterUsername : String) (h : HostResultRow) (o : ReportRow) : Prop where
  body : ∃ body, o.acknowledgement = some body ∧
    acknowledges body.value h.request.terminalEvent reporterUsername = true ∧
    o.acknowledgementDigest = some ("sha256:" ++ Sha256.hex body.text)
  deliveredAt : ∃ t, o.deliveredAt = some t ∧ o.createdAt ≤ t

structure View.Clean (reporterUsername : String) (v : View) : Prop where
  recovering : v.claim.state = .recovering → v.demand.state ≠ .superseded
  delivered : ∀ o h, v.report = some o → o.state = .delivered → v.result = some h → Acknowledged reporterUsername h o

def Clean (reporterUsername : String) (db : RootDatabase) : Prop :=
  ∀ k v, db.view k = some v → v.Clean reporterUsername

/-! ## The checks -/

section
variable {reporterUsername : String} {db : RootDatabase} {k : String} {v : View}

omit [Sha256] in
theorem stateTable_accepted {r : ClaimReceiptRow} (hf : v.Fits) (hr : v.receipt = some r)
    (hclean : v.claim.state = .recovering → v.demand.state ≠ .superseded) (hp : v.claim.state ≠ .preparing) :
    stateTable v.claim v.demand r v.report = true := by
  have hfits := hf.status
  have hrevocation : ∀ rev, r.revocation = some rev → rev.attemptId = r.issuance.attemptId ∧
      rev.descriptorDigest = r.issuance.descriptorDigest := fun rev h => hf.revocation r rev hr h
  generalize hs : v.status = s at hfits
  simp only [View.status, hr, Option.map_some, ClaimReceiptRow.status] at hs
  unfold stateTable
  cases hfits <;> simp only [Status.mk.injEq, Option.some.injEq, ReceiptStatus.mk.injEq, reduceCtorEq] at hs
  · exact absurd hs.1 hp
  · obtain ⟨hc, hd, ⟨hrs, -⟩, -, ho⟩ := hs
    simp only [hc, hd, hrs]
    simpa using ho
  · obtain ⟨hc, hd, ⟨hrs, -⟩, -, ho⟩ := hs
    obtain ⟨o, ho, hos⟩ := Option.map_eq_some_iff.mp ho
    simp [hc, hd, hrs, ho, hos]
  · rename_i d hcases
    obtain ⟨hc, hd, ⟨hrs, hrec, -⟩, -, ho⟩ := hs
    have hne := hclean hc
    rw [hd] at hne
    rcases hcases with rfl | rfl | rfl
    · simp [hc, hd, hrs, hrec]
    · exact absurd rfl hne
    · simp [hc, hd, hrs, hrec]
  · obtain ⟨hc, hd, ⟨hrs, hrec, -⟩, -, ho⟩ := hs
    obtain ⟨o, ho, hos⟩ := Option.map_eq_some_iff.mp ho
    simp [hc, hd, hrs, hrec, ho, hos]
  · obtain ⟨hc, hd, ⟨hrs, hrec, hrev, hrel⟩, -, ho⟩ := hs
    obtain ⟨o, ho, hos⟩ := Option.map_eq_some_iff.mp ho
    simp only [Option.isSome_eq_false_iff, Option.isNone_iff_eq_none] at hrec hrev
    simp [hc, hd, hrs, hrec, hrev, hrel, releaseValid, ho, hos]
  · obtain ⟨hc, hd, ⟨hrs, hrec, hrev, hrel⟩, -, ho⟩ := hs
    obtain ⟨o, ho, hos⟩ := Option.map_eq_some_iff.mp ho
    obtain ⟨rev, hrev⟩ := Option.isSome_iff_exists.mp hrev
    simp [hc, hd, hrs, hrec, hrev, hrel, releaseValid, ho, hos, hrevocation rev hrev]
  · obtain ⟨hc, hd, ⟨hrs, hrec, hrev, hrel⟩, -, ho⟩ := hs
    have ho : v.report = none := by simpa using ho
    obtain ⟨rev, hrev⟩ := Option.isSome_iff_exists.mp hrev
    simp [hc, hd, hrs, hrec, hrev, hrel, releaseValid, ho, hrevocation rev hrev]

theorem lifecycle_accepted (hf : v.Fits)
    (hcols : ∀ r, v.receipt = some r → receiptColumns v.claim.toClaimRecord r.toClaimReceiptRecord = true)
    (hclean : v.claim.state = .recovering → v.demand.state ≠ .superseded) :
    assertClaimLifecycle v.claim v.demand v.receipt v.report = true := by
  unfold assertClaimLifecycle
  by_cases hp : v.claim.state = .preparing
  · obtain ⟨hd, hr, -⟩ := hf.status.of_preparing hp
    have hnone : v.receipt = none := by simpa [View.status] using hr
    rw [hp, hnone]
    rcases hd with hd | hd
    · simp [show v.demand.state = .preparing from hd]
    · simp [show v.demand.state = .superseded from hd]
  · cases hr : v.receipt with
    | none =>
      refine absurd (hf.status.of_unactivated ?_) hp
      simp [View.status, hr]
    | some r =>
      have htable := stateTable_accepted hf hr hclean hp
      split
      · exact absurd ‹_› hp
      · contradiction
      · rename_i r' he _
        cases he
        rw [hcols r hr, htable]
        rfl

omit [Sha256] in
/-- A report that is not delivered holds no acknowledgement. -/
theorem ReportRow.unsettled {o : ReportRow} (h : Schema.check o = true) (hs : o.state ≠ .delivered) :
    o.acknowledgement = none ∧ o.acknowledgementDigest = none ∧ o.deliveredAt = none := by
  simp only [Schema.check, Bool.and_eq_true] at h
  have hnone := h.2
  split at hnone
  · simpa [and_assoc] using hnone
  · simpa [and_assoc] using hnone
  · contradiction

/-- The report of a result is in the state of its claim. -/
theorem result_accepted {reporter : Option String} {h : HostResultRow} {o : ReportRow} {r : ClaimReceiptRow}
    (hf : v.Fits) (hh : v.result = some h) (ho : v.report = some o) (hr : v.receipt = some r)
    (hcheck : Schema.check o = true)
    (hcols : resultColumns h o.toReportRecord v.claim.toClaimRecord r.toClaimReceiptRecord = true)
    (hack : o.state = .delivered → Acknowledged reporterUsername h o)
    (hreporter : reporter.getD reporterUsername = reporterUsername) :
    assertResult reporter h o v.claim r v.demand = true := by
  have hfits := hf.status
  have hunsettled := ReportRow.unsettled hcheck
  generalize hs : v.status = s at hfits
  simp only [View.status, hr, hh, ho, Option.map_some, Option.isSome_some, ClaimReceiptRow.status] at hs
  unfold assertResult
  rw [hcols, Bool.true_and]
  cases hfits <;> simp only [Status.mk.injEq, Option.some.injEq, ReceiptStatus.mk.injEq, reduceCtorEq, and_false,
    Bool.true_eq_false] at hs
  · -- pending and reported
    obtain ⟨hc, hd, ⟨hrs, hrec, hrev, hrel⟩, -, hos⟩ := hs
    obtain ⟨ha, hdig, hat⟩ := hunsettled (by rw [hos]; decide)
    simp only [Option.isSome_eq_false_iff] at hrec hrev hrel
    simp [hos, pendingValid, hc, hd, hrs, hrec, hrev, hrel, ha, hdig, hat]
  · -- pending and in recovery
    obtain ⟨hc, hd, ⟨hrs, hrec, hrev, hrel⟩, -, hos⟩ := hs
    obtain ⟨ha, hdig, hat⟩ := hunsettled (by rw [hos]; decide)
    simp only [Option.isSome_eq_false_iff] at hrev hrel
    simp [hos, pendingValid, hc, hd, hrs, hrec, hrev, hrel, ha, hdig, hat]
  · obtain ⟨hc, hd, ⟨hrs, hrec, hrev, hrel⟩, -, hos⟩ := hs
    simp only [Option.isSome_eq_false_iff] at hrec hrev
    obtain ⟨⟨body, hbody, hok, hdigest⟩, t, ht, hle⟩ := hack hos
    have hname : reporter.getD body.value.reporterUsername = reporterUsername := by
      cases reporter with
      | none =>
        simp only [acknowledges, Bool.and_eq_true, decide_eq_true_eq] at hok
        exact hok.1.1.1
      | some name => exact hreporter
    simp [hos, settledValid, deliveredValid, hc, hd, hrs, hrec, hrev, hrel, hbody, hdigest, ht, hle, hname, hok]
  · obtain ⟨hc, hd, ⟨hrs, hrec, hrev, hrel⟩, -, hos⟩ := hs
    obtain ⟨ha, hdig, hat⟩ := hunsettled (by rw [hos]; decide)
    simp [hos, settledValid, deniedValid, hc, hd, hrs, hrec, hrev, hrel, ha, hdig, hat]

/-! ## The start -/

theorem resultAccepted_of_clean {reporter : Option String} {h : HostResultRow} (hi : Inv db)
    (hc : Clean reporterUsername db) (hreporter : reporter.getD reporterUsername = reporterUsername)
    (hmem : h ∈ db.hostResults.rows) : db.resultAccepted reporter h = true := by
  have hh : db.hostResults.get? h.claimId = some h := Table.get?_of_mem hmem
  obtain ⟨o', c', r', ho', hcl', hr', hcols⟩ := hi.recorded.result h.claimId h hh
  obtain ⟨o, ho, rfl⟩ := Option.map_eq_some_iff.mp ho'
  obtain ⟨c, hcl, rfl⟩ := Option.map_eq_some_iff.mp hcl'
  obtain ⟨r, hr, rfl⟩ := Option.map_eq_some_iff.mp hr'
  obtain ⟨d, hd, hview⟩ := view_of_claim hi.recorded hcl
  rw [hr, hh, ho] at hview
  have hok := @result_accepted _ _ _ reporter _ _ _ (hi.fits _ _ hview) rfl rfl rfl
    (db.reportOutbox.checked o (Table.get?_mem ho))
    hcols (fun hs => (hc _ _ hview).delivered o h rfl hs rfl) hreporter
  unfold RootDatabase.resultAccepted
  simp only [Option.bind_eq_bind, Option.bind_some, Option.getD_some, pure, ho, hcl, hr, hd]
  exact hok

theorem claimAccepted_of_clean {c : ClaimRow} (hi : Inv db) (hc : Clean reporterUsername db) (hmem : c ∈ db.claims.rows) :
    db.claimAccepted c = true := by
  have hcl : db.claims.get? c.claimId = some c := Table.get?_of_mem hmem
  obtain ⟨d', r, g, hd', hr, hg, hok⟩ := hi.recorded.claim c.claimId c.toClaimRecord (by simp [RootDatabase.records, hcl])
  obtain ⟨d, hd, rfl⟩ := Option.map_eq_some_iff.mp hd'
  obtain ⟨e, he, rfl⟩ := Option.map_eq_some_iff.mp hg
  have hview : db.view c.claimId = some ⟨c, d, _, _, _⟩ := view_eq_some.mpr ⟨hcl, hd, rfl, rfl, rfl⟩
  have hlife := lifecycle_accepted (hi.fits _ _ hview) ?_ (hc _ _ hview).recovering
  · unfold RootDatabase.claimAccepted
    have hreceipt : db.receiptOf d = some r := hr
    simp only [Option.bind_eq_bind, Option.bind_some, Option.getD_some, pure, hd, hreceipt, he, hok, Bool.true_and]
    exact hlife
  · intro receipt hreceipt
    obtain ⟨c', hc', hb⟩ := hi.recorded.claimReceipt c.claimId receipt.toClaimReceiptRecord
      (by simp only [RootDatabase.records]; exact congrArg _ hreceipt)
    have hcl' : db.records.claim c.claimId = some c.toClaimRecord := by simp [RootDatabase.records, hcl]
    rw [hcl'] at hc'
    cases hc'
    exact hb.columns (assertClaim_columns hok).claimId

/-- Every result has a report, and every report a result. -/
theorem Inv.reportCount (hi : Inv db) : db.hostResults.rows.length = db.reportOutbox.rows.length := by
  apply Nat.le_antisymm
  · refine Table.length_le_of_reference Table.unique_key ?_
    intro h hmem
    obtain ⟨o, -, -, ho, -⟩ := hi.recorded.result h.claimId h (Table.get?_of_mem hmem)
    obtain ⟨row, hrow, -⟩ := Option.map_eq_some_iff.mp ho
    exact Option.isSome_iff_exists.mpr ⟨row, hrow⟩
  · refine Table.length_le_of_reference Table.unique_key ?_
    intro o hmem
    have hget : db.reportOutbox.get? o.claimId = some o := Table.get?_of_mem hmem
    obtain ⟨h, hh⟩ := hi.recorded.report o.claimId o.toReportRecord (by simp [RootDatabase.records, hget])
    exact Option.isSome_iff_exists.mpr ⟨h, hh⟩

/-- Every claim has a demand of its own. -/
theorem Inv.claimCount (hi : Inv db) : db.claims.rows.length ≤ receiptLimit := by
  have hle : db.claims.rows.length ≤ db.demands.rows.length := by
    refine Table.length_le_of_reference ClaimRow.unique_demand ?_
    intro c hmem
    obtain ⟨d, hd, -⟩ := view_of_claim hi.recorded (Table.get?_of_mem hmem)
    exact Option.isSome_iff_exists.mpr ⟨d, hd⟩
  have hcount := hi.sourced.counted
  have hlimit := hi.sourced.limited
  omega

theorem Inv.resultCount (hi : Inv db) : db.hostResults.rows.length ≤ receiptLimit := by
  have hle : db.hostResults.rows.length ≤ db.claims.rows.length := by
    refine Table.length_le_of_reference Table.unique_key ?_
    intro h hmem
    obtain ⟨-, c, -, -, hc, -⟩ := hi.recorded.result h.claimId h (Table.get?_of_mem hmem)
    obtain ⟨row, hrow, -⟩ := Option.map_eq_some_iff.mp hc
    exact Option.isSome_iff_exists.mpr ⟨row, hrow⟩
  exact hle.trans hi.claimCount

theorem resultIntegrity_of_clean {reporter : Option String} (hi : Inv db) (hc : Clean reporterUsername db)
    (hreporter : reporter.getD reporterUsername = reporterUsername) :
    assertNativeRootCiResultIntegrity reporter db = true := by
  simp only [assertNativeRootCiResultIntegrity, Bool.and_eq_true, decide_eq_true_eq, List.all_eq_true]
  exact ⟨⟨hi.resultCount, hi.reportCount⟩, fun h hmem => resultAccepted_of_clean hi hc hreporter hmem⟩

theorem start_of_clean (hi : Inv db) (hc : Clean reporterUsername db) : startAccepted reporterUsername db = true := by
  simp only [startAccepted, assertNativeRootCiEventReceiptIntegrity, Bool.and_eq_true, decide_eq_true_eq, List.all_eq_true]
  refine ⟨⟨⟨⟨⟨⟨⟨hi.sourced.limited, ?_⟩, hi.sourced.counted⟩, ?_⟩, hi.claimCount⟩, ?_⟩, ?_⟩, ?_⟩
  · intro r hmem
    obtain ⟨a, ha, hs⟩ := hi.sourced.receipt _ r (Table.get?_of_mem hmem)
    unfold RootDatabase.eventReceiptAccepted
    rw [ha]
    exact assertRow_iff.mpr hs
  · intro d hmem
    obtain ⟨r, a, hr, ha, hok⟩ := hi.sourced.demand _ d (Table.get?_of_mem hmem)
    unfold RootDatabase.demandAccepted
    rw [origin_eq_some.mpr ⟨hr, ha⟩]
    exact hok
  · exact fun c hmem => claimAccepted_of_clean hi hc hmem
  · exact resultIntegrity_of_clean hi hc rfl
  · exact resultIntegrity_of_clean hi hc rfl

end

/-! ## Histories that keep the start -/

/-- No demand waits under a claim in recovery and an admission that the operation withdraws. -/
def Operation.sparesRecovering (context : ServiceContext) (db : RootDatabase) (operation : Operation) : Bool :=
  db.claims.rows.all fun c => c.state ≠ .recovering || (db.demands.get? c.demandId).all fun d =>
    d.state ≠ .preparing || !operation.withdraws context db d.admissionGeneration

/-- A claim that was never activated is taken into recovery only while its demand waits. -/
def Operation.recoversWaiting (context : ServiceContext) (db : RootDatabase) : Operation → Bool
  | .prepareRecovery request _ =>
    !recoveryEligible context request db || (nativeRootCiAttemptAssignment request.claim request.issuance).isNone
      || (db.claimReceipts.get? request.claimId).isSome
      || (db.demands.get? request.claim.demandId).all fun d => d.state ≠ .superseded
  | _ => true

/-- A report is acknowledged by this reporter, and not before it was made. -/
def Operation.acknowledgesAs (reporterUsername : String) (context : ServiceContext) (db : RootDatabase) : Operation → Bool
  | .acknowledge delivery _ now => context.reporterUsername = reporterUsername
      && (db.reportOutbox.get? delivery.claimId).all fun o => o.createdAt ≤ now
  | _ => true

/-- The condition on an action, which is on actions that commit only. -/
def restartable (reporterUsername : String) (db : RootDatabase) (action : Action) : Bool :=
  match action.operation.body action.context db with
  | .ok _ => action.operation.sparesRecovering action.context db && action.operation.recoversWaiting action.context db
      && action.operation.acknowledgesAs reporterUsername action.context db
  | .error _ => true

section
variable {reporterUsername : String} {context : ServiceContext} {db db' : RootDatabase}

theorem Clean.empty : Clean reporterUsername .empty := fun _ _ h => by cases h

theorem Clean.supersedes {operation : Operation} {selected : String → Bool} {now : Int} (hi : Inv db)
    (h : Clean reporterUsername db) (hs : Supersedes selected now db db')
    (hok : operation.sparesRecovering context db = true)
    (hsel : ∀ g, selected g = true → operation.withdraws context db g = true) : Clean reporterUsername db' := by
  refine hs.views h ?_
  intro k v hv hwithdrawn hw
  refine ⟨?_, (h k v hv).delivered⟩
  intro hc
  obtain ⟨hcl, hd, -⟩ := view_eq_some.mp hv
  have hpreparing : v.demand.state = .preparing := by
    rcases ((hi.fits k v hv).status.of_recovering hc).2 with ⟨hd | hd | hd, -⟩ | ⟨hd, -⟩
    · exact hd
    all_goals
      rw [show v.demand.state = _ from hd] at hw
      cases hw
  have hspared := List.all_eq_true.mp hok v.claim (Table.get?_mem hcl)
  rw [hd] at hspared
  simp [show v.claim.state = .recovering from hc, hpreparing, hsel _ hwithdrawn] at hspared

/-- Of the steps that meet the condition, the recovery of a claim is the one that has to look at the demand. -/
theorem Clean.prepared {request : NativeRootCiClaimRecoveryRequest} {assignment : NativeAttemptAssignment} {now : Int}
    {v : View} (hi : Inv db) (h : Clean reporterUsername db)
    (ha : nativeRootCiAttemptAssignment request.claim request.issuance = some assignment)
    (helig : recoveryEligible context request db = true)
    (hm : Moves request.claimId v (v.prepared request assignment now) db db')
    (hrecoverable : ∀ r, v.receipt = some r → Recoverable request assignment r v.report)
    (hok : Operation.recoversWaiting context db (.prepareRecovery request now) = true) :
    (v.prepared request assignment now).Clean reporterUsername := by
  refine ⟨?_, (h _ v hm.before).delivered⟩
  intro _
  obtain ⟨hcl, hd, hreceipt, -⟩ := view_eq_some.mp hm.before
  show v.demand.state ≠ .superseded
  cases hr : v.receipt with
  | none =>
    obtain ⟨-, -, c, hc, hresp, -⟩ := recoveryEligible_iff.mp helig
    rw [hcl] at hc
    cases hc
    have hdem : request.claim.demandId = v.claim.demandId := by
      rw [← hresp]
      exact (columns_of_claim hi.recorded hcl).demandId
    simpa [Operation.recoversWaiting, helig, ha, hreceipt, hr, hdem, hd] using hok
  | some r =>
    have hfits := (hi.fits _ v hm.before).status
    have hstates := hfits.of_receipt (r := r.status) (by simp [View.status, hr])
    cases hs : r.state with
    | active =>
      have hdemand := (hfits.of_active (hstates.1 hs)).1
      rw [show v.demand.state = _ from hdemand]
      decide
    | reported =>
      have hdemand := (hfits.of_reported (hstates.2.1 hs)).1
      rw [show v.demand.state = _ from hdemand]
      decide
    | recovering => exact (h _ v hm.before).recovering (hstates.2.2.1 hs)
    | released => exact absurd hs (hrecoverable r hr).state

theorem Clean.apply {action : Action} (hi : Inv db) (h : Clean reporterUsername db)
    (hok : restartable reporterUsername db action = true) : Clean reporterUsername (db.apply action) := by
  rcases apply_cases hi.recorded action with hsame | ⟨hcommit, he⟩
  · rw [hsame]
    exact h
  have hcond : action.operation.sparesRecovering action.context db = true ∧
      action.operation.recoversWaiting action.context db = true ∧
      action.operation.acknowledgesAs reporterUsername action.context db = true := by
    simpa [restartable, hcommit, and_assoc] using hok
  obtain ⟨hspares, hwaiting, hname⟩ := hcond
  generalize action.operation = operation at he hspares hwaiting hname
  cases he with
  | activateAdmissions hs => exact h.supersedes hi hs hspares fun _ hg => hg
  | activateEpoch epochs he => rw [he]; exact h
  | register hr => exact h.supersedes hi hr.supersedes hspares fun _ hg => hg
  | revoke row hrow hs => exact h.supersedes hi hs hspares fun g hg => by simpa [Operation.withdraws, hrow] using hg
  | commitEvent admission row hready hproof hc =>
    intro k v hv
    rw [hc.view hi.recorded] at hv
    exact h k v hv
  | reserve capacity d r a howns hd horigin hp hfresh hnone hview ht =>
    refine views_touched h ht (fun x c _ hc => hnone x c hc) hview ⟨?_, ?_⟩
    · intro hc
      cases hc
    · intro o row ho
      cases ho
  | activate assignment v e a ha hact hnone hm =>
    refine hm.views h ⟨?_, (h _ v hm.before).delivered⟩
    intro hc
    cases hc
  | renew v hactive hm => exact hm.views h ⟨(h _ v hm.before).recovering, (h _ v hm.before).delivered⟩
  | prepareRecovery assignment v ha helig hrecoverable hm =>
    exact hm.views h (h.prepared hi ha helig hm hrecoverable hwaiting)
  | completeRecovery v r demand hcomp hm hend =>
    refine hm.views h ⟨?_, ?_⟩
    · intro hc
      cases hc
    · intro o row ho hs
      obtain ⟨o₀, -, rfl⟩ := Option.map_eq_some_iff.mp ho
      cases hs
  | acceptResult row hrow hadmits hm =>
    refine hm.views h ⟨?_, ?_⟩
    · intro hc
      cases hc
    · intro o row ho hs
      cases ho
      cases hs
  | acknowledge v r o hack hclaim hreceipt hstate hreport hpending hevent hm =>
    refine hm.views h ⟨?_, ?_⟩
    · intro hc
      cases hc
    · intro o' row ho hs hh
      simp only [View.delivered, hreport, Option.map_some, Option.some.injEq] at ho
      subst ho
      obtain ⟨-, -, -, hresult, hget⟩ := view_eq_some.mp hm.before
      rw [hreport] at hget
      simp only [Operation.acknowledgesAs, hget, Option.all_some, Bool.and_eq_true, decide_eq_true_eq] at hname
      have hcols := hi.recorded.result _ row (by simp only [RootDatabase.records]; exact hresult.trans hh)
      obtain ⟨o₀, c, r', ho₀, -, -, hcols⟩ := hcols
      simp only [RootDatabase.records, hget, Option.map_some, Option.some.injEq] at ho₀
      subst ho₀
      obtain ⟨hrequest, hsame, -⟩ := resultColumns_event hcols
      refine ⟨⟨_, rfl, ?_, rfl⟩, _, rfl, hname.2⟩
      rw [hrequest, ← hsame, ← hname.1]
      rw [← hevent] at hack
      exact hack

/-- Every state of a history whose actions meet the condition is accepted by the next start. -/
theorem start_accepted {actions done : List Action}
    (h : Along RootDatabase.apply (fun db action => restartable reporterUsername db action = true) .empty actions)
    (hdone : done <+: actions) : startAccepted reporterUsername (RootDatabase.empty.run done) = true := by
  have hinv : Inv (RootDatabase.empty.run done) ∧ Clean reporterUsername (RootDatabase.empty.run done) :=
    Along.invariant_of_prefix (I := fun db => Inv db ∧ Clean reporterUsername db)
      (fun db action hi hok => ⟨hi.1.apply action, hi.2.apply hi.1 hok⟩) ⟨Inv.empty, Clean.empty⟩ h hdone
  exact start_of_clean hinv.1 hinv.2

end

end

namespace Sample

attribute [local instance] sha256

/-- The claim is delivered, and every state on the way is accepted. -/
theorem start_accepted_delivered : startAccepted "reporter" (RootDatabase.empty.run delivered) = true :=
  have hrestartable : Along RootDatabase.apply
      (fun db action => restartable "reporter" db action = true) .empty delivered := by
    decide +kernel
  start_accepted hrestartable (List.prefix_refl _)

/-- The recovery of a claim whose demand was superseded leaves a database that the next start refuses. -/
theorem start_refused_stranded :
    ¬ ∀ actions : List Action, (∀ action ∈ actions, action.context = context) →
      startAccepted context.reporterUsername (RootDatabase.empty.run actions) = true := by
  intro h
  have hstart := h stranded (by decide +kernel)
  have hrefused : startAccepted context.reporterUsername (RootDatabase.empty.run stranded) = false := by decide +kernel
  rw [hrefused] at hstart
  cases hstart

end Sample

end Dim.RootCi
