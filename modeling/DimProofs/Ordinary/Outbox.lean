/-
The outbox of reports under `NativeGitResultReporter`: deliveries are taken, and answered or given
up later, while the authority does anything else to the database. A report is settled once: its
outcome stays, it agrees with the demand, and whatever returns late for it changes nothing.
-/
import DimProofs.Ordinary.ClaimService

namespace Dim.Ordinary

open Relational

/-! ## Reports of a coherent database -/

/-- The claim and the demand of a report agree with its state. -/
structure ReportAgrees (o : ReportOutbox) (c : Claim) (d : Demand) : Prop where
  due : o.state.due = true → c.state = .reported ∧ d.state = .reported
  settled : o.state.due = false → c.state = .released
  delivered : o.state = .delivered ↔ d.state = .completed
  denied : o.state = .denied ↔ d.state = .failed

theorem Coherent.report {db : AuthorityDatabase} (h : Coherent db) {o : ReportOutbox} (ho : o ∈ db.reportOutbox.rows) :
    ∃ c ∈ db.claims.rows, c.claimId = o.claimId ∧ ∃ d ∈ db.demands.rows, d.demandId = c.demandId ∧
      ReportAgrees o c d := by
  have hget : db.reportOutbox.get? o.claimId = some o := Table.get?_of_mem ho
  obtain ⟨s, hs⟩ := h.staged o.claimId
  have houtbox : s.view.outbox = some o.state := by
    rw [← hs]
    simp [view, hget]
  -- a stage with a report has a claim
  have hclaim : (db.claims.get? o.claimId).map (·.state) = s.view.claim := congrArg View.claim hs
  have hsome : ∃ state, s.view.claim = some state := by
    cases s <;> simp [Stage.view] at houtbox ⊢
  obtain ⟨state, hstate⟩ := hsome
  obtain ⟨c, hc, hcs⟩ := Option.map_eq_some_iff.mp (hclaim.trans hstate)
  obtain ⟨d, hd, hdemand⟩ := h.demand hc
  have hds : s.view.demand = some d.state := by
    rw [← hs]
    simp [view, hdemand]
  have hcs' : s.view.claim = some c.state := by rw [hstate, hcs]
  refine ⟨c, Table.get?_mem hc, Table.get?_key hc, d, Table.get?_mem hd, Table.get?_key hd, ?_⟩
  cases s with
  | reported delivering =>
    simp only [Stage.view, Option.some.injEq] at houtbox hds hcs'
    have hdue : o.state.due = true := by
      rw [← houtbox]
      cases delivering <;> rfl
    refine ⟨fun _ => ⟨hcs'.symm, hds.symm⟩, ?_, ?_, ?_⟩
    · intro hsettled
      rw [hdue] at hsettled
      cases hsettled
    · rw [← hds, ← houtbox]
      cases delivering <;> simp
    · rw [← hds, ← houtbox]
      cases delivering <;> simp
  | settled outcome =>
    simp only [Stage.view, Option.some.injEq] at houtbox hds hcs'
    refine ⟨?_, fun _ => hcs'.symm, ?_, ?_⟩
    · intro hdue
      rw [← houtbox] at hdue
      cases outcome <;> cases hdue
    · rw [← hds, ← houtbox]
      cases outcome <;> simp [ReportOutcome.outboxState, ReportOutcome.demandState]
    · rw [← hds, ← houtbox]
      cases outcome <;> simp [ReportOutcome.outboxState, ReportOutcome.demandState]
  | _ => simp [Stage.view] at houtbox

variable {db : AuthorityDatabase} {o : ReportOutbox}

/-- A report that is not due belongs to a released claim. -/
theorem Coherent.released_of_settled (h : Coherent db)
    (ho : o ∈ db.reportOutbox.rows) (hsettled : o.state.due = false) :
    (view db o.claimId).receipt = some .released := by
  have hget : db.reportOutbox.get? o.claimId = some o := Table.get?_of_mem ho
  obtain ⟨s, hs⟩ := h.staged o.claimId
  have houtbox : s.view.outbox = some o.state := by
    rw [← hs]
    simp [view, hget]
  rw [hs]
  cases s with
  | reported delivering =>
    simp only [Stage.view, Option.some.injEq] at houtbox
    rw [← houtbox] at hsettled
    cases delivering <;> cases hsettled
  | settled outcome => rfl
  | _ => simp [Stage.view] at houtbox

/-! ## Late answers -/

theorem retry_settled (ho : o ∈ db.reportOutbox.rows)
    (hsettled : o.state.due = false) {delivery : NativeReportDelivery} (hk : delivery.claimId = o.claimId) (now : Int) :
    ResultStore.retry delivery now db = .ok ((), db) := by
  have hnone : ∀ r ∈ db.reportOutbox.rows,
      (decide (r.claimId = delivery.claimId) && decide (r.state = .delivering)) = false := by
    intro r hr
    by_cases hrk : r.claimId = delivery.claimId
    · have hsame : r = o := db.reportOutbox.eq_of_conflict hr ho (conflict_of_key (hrk.trans hk))
      rw [hsame]
      cases hs : o.state with
      | delivering =>
        rw [hs] at hsettled
        cases hsettled
      | _ => simp
    · simp [hrk]
  simp only [ResultStore.retry, Table.update_idle hnone]
  rfl

theorem complete_settled (ho : o ∈ db.reportOutbox.rows)
    (hsettled : o.state.due = false) (outcome : ReportOutcome) (denialCode : Option String) (now : Int) :
    ResultStore.complete o.claimId outcome denialCode now db = .ok ((), db) := by
  have hget : db.reportOutbox.get? o.claimId = some o := Table.get?_of_mem ho
  have hnone : ResultStore.settleable o.claimId db = none := by
    unfold ResultStore.settleable
    rw [hget]
    simp [hsettled]
  simp only [ResultStore.complete, ResultStore.completeInTransaction, hnone]
  rfl

section
variable [Sha256]

/-! ## The reporter -/

/-- The database, and the deliveries that were taken and have not returned. -/
structure Reporting where
  db : AuthorityDatabase
  inFlight : List NativeReportDelivery

def ReportOutcome.denialCode : ReportOutcome → Option String
  | .delivered => none
  | .denied => some "native-denied"

/-- One step of the reporters of any instances, or of the authority. -/
inductive Reporting.Step : Reporting → Reporting → Prop
  | authority {s : Reporting} {db' : AuthorityDatabase} (h : Ordinary.Step s.db db') : Step s { s with db := db' }
  | take {s : Reporting} {delivery : NativeReportDelivery} {db' : AuthorityDatabase} (store : NativeOrdinaryAuthorityStore)
      (now : Int) (h : ResultStore.takeDue (AuthorityStore.results store) now s.db = .ok (some delivery, db')) :
      Step s { db := db', inFlight := delivery :: s.inFlight }
  | answered {s : Reporting} {delivery : NativeReportDelivery} (store : NativeOrdinaryAuthorityStore)
      (outcome : ReportOutcome) (now : Int) (h : delivery ∈ s.inFlight) :
      Step s { db := (Transaction.complete delivery.claimId outcome outcome.denialCode now).run store s.db,
               inFlight := s.inFlight.erase delivery }
  | unavailable {s : Reporting} {delivery : NativeReportDelivery} (store : NativeOrdinaryAuthorityStore) (now : Int)
      (h : delivery ∈ s.inFlight) :
      Step s { db := (Transaction.retry delivery now).run store s.db, inFlight := s.inFlight.erase delivery }
  | aborted {s : Reporting} {delivery : NativeReportDelivery} (h : delivery ∈ s.inFlight) :
      Step s { s with inFlight := s.inFlight.erase delivery }

/-- The runs of the reporters from a new database. -/
abbrev Reporting.Reachable : Reporting → Prop :=
  Transition.Reachable (· = { db := .empty, inFlight := [] }) Reporting.Step

variable {s s' : Reporting}

/-- What the reporters do to the database, the authority does. -/
theorem Reporting.Step.authority_run (h : Reporting.Step s s') :
    Relation.ReflTransGen Ordinary.Step s.db s'.db := by
  cases h with
  | authority h => exact .single h
  | @take _ db' store now h =>
    have hbody : (Transaction.takeDue now).body store s.db = .ok db' := map_ok.mpr ⟨_, h, rfl⟩
    have hrun : (Transaction.takeDue now).run store s.db = db' := by simp only [Transaction.run, hbody]
    exact .single (hrun ▸ Ordinary.Step.run store (.takeDue now) s.db)
  | answered store outcome now h => exact .single (.run store _ _)
  | unavailable store now h => exact .single (.run store _ _)
  | aborted h => exact .refl

theorem Reporting.run_authority (h : Relation.ReflTransGen Reporting.Step s s') :
    Relation.ReflTransGen Ordinary.Step s.db s'.db := by
  induction h with
  | refl => exact .refl
  | tail _ hs ih => exact ih.trans hs.authority_run

theorem Reporting.reachable_authority {s : Reporting} (h : Reporting.Reachable s) : Ordinary.Reachable s.db := by
  refine Transition.Reachable.invariant (I := fun s => Ordinary.Reachable s.db) ?_
    (fun _ _ hr hs => hr.trans hs.authority_run) h
  rintro _ rfl
  exact .init rfl

/-- Every state of the authority is one of the reporters, with nothing in flight. -/
theorem Reporting.reachable_of_authority {db : AuthorityDatabase} (h : Ordinary.Reachable db) :
    Reporting.Reachable { db, inFlight := [] } := by
  refine Transition.Reachable.invariant (I := fun db => Reporting.Reachable { db, inFlight := [] }) ?_
    (fun _ _ hr hs => hr.step (.authority hs)) h
  rintro _ rfl
  exact .init rfl

/-- Outcomes are final. Over any run a settled report keeps its outcome; every report agrees with its
demand, completed when delivered and failed when denied; and a late retry or completion of a settled
report changes nothing. -/
theorem outbox_final {s s' : Reporting} (h : s.Reachable) (hrun : Relation.ReflTransGen Reporting.Step s s') :
    (∀ o ∈ s.db.reportOutbox.rows, o.state.due = false →
      (s'.db.reportOutbox.get? o.claimId).map (·.state) = some o.state) ∧
    (∀ o ∈ s'.db.reportOutbox.rows, ∃ c ∈ s'.db.claims.rows, c.claimId = o.claimId ∧
      ∃ d ∈ s'.db.demands.rows, d.demandId = c.demandId ∧ ReportAgrees o c d) ∧
    ∀ o ∈ s'.db.reportOutbox.rows, o.state.due = false →
      (∀ delivery : NativeReportDelivery, delivery.claimId = o.claimId → ∀ now,
        ResultStore.retry delivery now s'.db = .ok ((), s'.db)) ∧
      ∀ outcome denialCode now, ResultStore.complete o.claimId outcome denialCode now s'.db = .ok ((), s'.db) := by
  have hcoherent := coherent_of_reachable (Reporting.reachable_authority h)
  have hauthority := Reporting.run_authority hrun
  have hcoherent' := (run_refines hauthority hcoherent).1
  refine ⟨?_, fun o ho => hcoherent'.report ho, ?_⟩
  · intro o ho hsettled
    have hsame := released_of_run hcoherent hauthority (hcoherent.released_of_settled ho hsettled)
    have houtbox := congrArg View.outbox hsame
    simp only [view] at houtbox
    rw [houtbox, show s.db.reportOutbox.get? o.claimId = some o from Table.get?_of_mem ho]
    rfl
  · intro o ho hsettled
    exact ⟨fun delivery hk now => retry_settled ho hsettled hk now,
      fun outcome denialCode now => complete_settled ho hsettled outcome denialCode now⟩

end

namespace Sample

attribute [local instance] sha256

/-- The result of the active claim was accepted. -/
def reported : AuthorityDatabase := (Transaction.acceptResult "host" result 6).run store active

/-- Its report was delivered. -/
def delivered : AuthorityDatabase :=
  (Transaction.complete "claim" .delivered none 8).run store ((Transaction.takeDue 7).run store reported)

theorem reported_reachable : Reachable reported :=
  .step (.step (.step (.step (.step (.step (.init rfl) (.start store 1 _)) (.run store _ _)) (.run store _ _))
    (.run store _ _)) (.run store _ _)) (.run store _ _)

theorem delivered_reachable : Reachable delivered :=
  .step (.step reported_reachable (.run store _ _)) (.run store _ _)

end Sample

/-- A denial that comes back after the delivery changes nothing. -/
theorem outbox_final_delivered :
    ResultStore.complete "claim" .denied (some "native-denied") 9 Sample.delivered = .ok ((), Sample.delivered) := by
  obtain ⟨-, -, hlate⟩ := @outbox_final Sample.sha256 _ _
    (@Reporting.reachable_of_authority Sample.sha256 _ Sample.delivered_reachable) .refl
  dsimp only at hlate
  have hreport : ∃ o ∈ Sample.delivered.reportOutbox.rows, o.claimId = "claim" ∧ o.state.due = false := by decide +kernel
  obtain ⟨o, ho, hk, hsettled⟩ := hreport
  have hcomplete := (hlate o ho hsettled).2 .denied (some "native-denied") 9
  rwa [hk] at hcomplete

end Dim.Ordinary
