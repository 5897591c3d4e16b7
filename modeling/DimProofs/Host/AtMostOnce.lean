/-
The three workers with their authorities. Each authority is the model of its claim route, in any history of
it; an empty answer of root CI or QEMU may come at any time, and so may any answer to the requests that
answer no claim.
-/
import DimProofs.Host.Deployment
import DimProofs.Host.OrdinaryWorker
import DimProofs.Host.RootCiWorker
import DimProofs.Host.QemuWorker
import DimProofs.Ordinary.Answers
import DimProofs.RootCi.Answers
import DimProofs.Qemu.Answers

namespace Dim.Host

open Dim.Ordinary

section
variable [Sha256]

/-! ## Ordinary hosts -/

namespace OrdinaryWorker

def answers (s : ServiceState) : (request : ClientRequest) → request.Response → Prop
  | .claim request, (response : Option NativeHostClaim) =>
    ∃ call ∈ s.calls, call.request = request ∧ call.phase = .returned (response.elim .empty .active)
  | _, _ => True

def authority : ClaimAuthority worker :=
  { State := ServiceState, initial := .initial, Step := fun s s' => ∃ action, s' = s.apply action, answers }

/-- The receipt of an answered claim names its request. -/
def binding : authority.Binding where
  Inv (s : ServiceState) := Coherent s.db ∧ s.Answered
  bound (s : ServiceState) := s.db.answeredTo
  initial := ⟨Coherent.empty, fun call hcall => by cases hcall⟩
  step := by
    rintro s s' ⟨hc, h⟩ ⟨action, rfl⟩
    exact ⟨(s.apply_refines action hc).1, h.apply hc action⟩
  kept := by
    rintro s s' k c ⟨hc, -⟩ ⟨action, rfl⟩ hk
    exact answeredTo_evolves (s.apply_refines action hc).2 hk
  answered := by
    intro s k c q r h ha hq
    cases q with
    | claim request =>
      obtain ⟨claim, hr, hclaim⟩ := Option.map_eq_some_iff.mp (show Option.map _ (r : Option NativeHostClaim) = _ from hq)
      subst hr
      cases hclaim
      obtain ⟨call, hcall, rfl, hphase⟩ := ha
      exact h.2 call hcall claim.claimId (by rw [hphase]; rfl)
    | identity | candidateLease | renewal | recovery | result => cases hq

def deployment (dependencies : NativeOrdinaryHostCapacityDependencies) : Deployment worker :=
  { authority, boot := serveBoot dependencies, loop := serveLoop dependencies }

theorem deployment_sound (dependencies : NativeOrdinaryHostCapacityDependencies) :
    (deployment dependencies).Sound fun watched => Idle watched where
  boot _ _ h := serveBoot_keeps h
  loop _ _ h := serveLoop_keeps h

end OrdinaryWorker

/-! ## Root CI hosts -/

namespace RootCiWorker

def answers (s : RootCi.RouteState) : (request : ClientRequest) → request.Response → Prop
  | .reservation request, (response : Option RootCi.NativeRootCiClaim) =>
    ∀ claim, response = some claim → (request, claim) ∈ s.replies
  | _, _ => True

def authority : ClaimAuthority worker :=
  { State := RootCi.RouteState, initial := .initial, Step := fun s s' => ∃ action, s' = s.apply action, answers }

/-- The row of an answered claim names its request. -/
def binding : authority.Binding where
  Inv (s : RootCi.RouteState) := RootCi.RouteInv s
  bound (s : RootCi.RouteState) := s.db.answeredTo
  initial := RootCi.RouteInv.initial
  step := by
    rintro s s' h ⟨action, rfl⟩
    exact h.apply action
  kept := by
    rintro s s' k c h ⟨action, rfl⟩ hk
    exact RootCi.answeredTo_apply h.kept action hk
  answered := by
    intro s k c q r h ha hq
    cases q with
    | reservation request =>
      obtain ⟨claim, hr, hclaim⟩ :=
        Option.map_eq_some_iff.mp (show Option.map _ (r : Option RootCi.NativeRootCiClaim) = _ from hq)
      cases hclaim
      exact h.replies _ (ha claim hr)
    | identity | attempt | activation | renewal | candidateLease | recovery | result => cases hq

def deployment (config : NativeRootCiHostClientConfig) : Deployment worker :=
  { authority, boot := serveBoot config, loop := serveLoop config }

theorem deployment_sound (config : NativeRootCiHostClientConfig) :
    (deployment config).Sound fun watched => Idle watched where
  boot _ _ h := serveBoot_keeps h
  loop _ _ h := serveLoop_keeps h

end RootCiWorker

/-! ## QEMU hosts -/

namespace QemuWorker

def answers (s : Qemu.RouteState) : (request : ClientRequest) → request.Response → Prop
  | .claim requestId _, (response : Option AssignmentResponse) =>
    ∀ answer, response = some answer → (requestId, answer.assignment.claim, answer.assignment.attempt) ∈ s.replies
  | _, _ => True

omit [Sha256] in
def authority (clock : Int) : ClaimAuthority worker :=
  { State := Qemu.RouteState, initial := .initial clock, Step := Qemu.RouteStep, answers }

omit [Sha256] in
/-- The row of an answered claim has left its reservation and names its request. -/
def binding (clock : Int) : (authority clock).Binding where
  Inv (s : Qemu.RouteState) := Qemu.RouteInv s
  bound (s : Qemu.RouteState) := s.issuance.db.answeredTo
  initial := Qemu.RouteInv.initial clock
  step := by
    rintro s s' h ⟨action, hnew⟩
    exact h.apply hnew
  kept := by
    rintro s s' k c h ⟨action, hnew⟩ hk
    exact h.answeredTo hnew hk
  answered := by
    intro s k c q r h ha hq
    cases q with
    | claim requestId capacity =>
      obtain ⟨answer, hr, hclaim⟩ :=
        Option.map_eq_some_iff.mp (show Option.map _ (r : Option AssignmentResponse) = _ from hq)
      cases hclaim
      exact h.replies _ (ha answer hr)
    | identity | candidateLease | result | recovery => cases hq

/-- `clock` is the reading of the scheduler's clock at its start. -/
def deployment (clock : Int) (config : NativeQemuHostClientConfig) : Deployment worker :=
  { authority := authority clock, boot := serveBoot config, loop := serveLoop config }

theorem deployment_sound (clock : Int) (config : NativeQemuHostClientConfig) :
    (deployment clock config).Sound fun watched => Guarded watched where
  boot _ _ h := (serveBoot_keeps h).mono fun r _ h => by cases r <;> exact h
  loop _ _ h := (serveLoop_keeps h).mono fun r _ h => by cases r <;> exact h

end QemuWorker

/-! ## At-most-once execution -/

/-- Every worker, whatever crashes between two of its effects: a claim is started once, and one whose journal
shows that it may have started ends by its stored result or by its recovery. -/
theorem claims_started_once :
    (∀ dependencies, (OrdinaryWorker.deployment dependencies).AtMostOnce) ∧
    (∀ config, (RootCiWorker.deployment config).AtMostOnce) ∧
    ∀ clock config, (QemuWorker.deployment clock config).AtMostOnce :=
  ⟨fun dependencies => (OrdinaryWorker.deployment_sound dependencies).atMostOnce OrdinaryWorker.binding,
    fun config => (RootCiWorker.deployment_sound config).atMostOnce RootCiWorker.binding,
    fun clock config => (QemuWorker.deployment_sound clock config).atMostOnce (QemuWorker.binding clock)⟩

end

end Dim.Host
