/-
A worker with the authority that answers its requests. The authority takes any steps in between, for
requests of any host and on its own; a response may be received at any time after it was given, or never.
When the authority binds each claim to one request for ever, what the worker receives is consistent, and
the rules of the worker's programs carry over to every history of both.
-/
import DimProofs.Host.Triple

namespace Dim.Host

open Effectful

/-- An authority, with the responses it has given so far. -/
structure ClaimAuthority (W : Worker) where
  State : Type
  initial : State
  Step : State → State → Prop
  answers : State → (request : W.Request) → W.Response request → Prop

/-- A claim that was answered is bound to its request, and stays so. -/
structure ClaimAuthority.Binding {W : Worker} (A : ClaimAuthority W) where
  Inv : A.State → Prop
  bound : A.State → String → Option String
  initial : Inv A.initial
  step : ∀ {a a'}, Inv a → A.Step a a' → Inv a'
  kept : ∀ {a a' k c}, Inv a → A.Step a a' → bound a c = some k → bound a' c = some k
  answered : ∀ {a k c} {q : W.Request} {r : W.Response q}, Inv a → A.answers a q r → W.claimed q r = some (k, c) →
    bound a c = some k

structure Deployment (W : Worker) where
  authority : ClaimAuthority W
  (boot loop : HostProgram W Unit)

namespace Deployment

variable {W : Worker} (D : Deployment W)

structure State where
  authority : D.authority.State
  worker : Machine.State (World W) (Effect W) Effect.Answer NativeHostFailure

/-- The process of the worker. -/
def machine (service : World.Service W) : Machine (World W) (Effect W) Effect.Answer NativeHostFailure :=
  { performs := World.performs service, boot := D.boot, loop := D.loop }

inductive Step : D.State → D.State → Prop
  | authority {a a' : D.authority.State} {s : Machine.State (World W) (Effect W) Effect.Answer NativeHostFailure}
    (h : D.authority.Step a a') : Step ⟨a, s⟩ ⟨a', s⟩
  | worker {a : D.authority.State} {s s' : Machine.State (World W) (Effect W) Effect.Answer NativeHostFailure}
    (h : (D.machine fun _ => D.authority.answers a).Step s s') : Step ⟨a, s⟩ ⟨a, s'⟩

/-- No process runs yet. -/
def initial (vars : ExecutorVariables) : D.State :=
  { authority := D.authority.initial, worker := { world := .initial vars, process := none } }

def Leads : D.State → D.State → Prop := Relation.ReflTransGen D.Step

/-- In every history no claim is started twice. From a state in which no process runs and the journal names a
claim that may have been started, the claim is not started again, and its journal stays, but for the recovery of
the claim, until its stored result is accepted or the claim is recovered. -/
structure AtMostOnce : Prop where
  once : ∀ vars s, D.Leads (D.initial vars) s → ∀ c, s.worker.world.starts.count c ≤ 1
  finished : ∀ vars s s' j c, D.Leads (D.initial vars) s → s.worker.process = none → s.worker.world.journal = some j →
    W.claimOf j = some c → D.Leads s s' →
      s'.worker.world.starts.count c = s.worker.world.starts.count c ∧
      ∃ later, s'.worker.world.finishes = later ++ s.worker.world.finishes ∧
        ((∃ j', s'.worker.world.journal = some j' ∧ Continues j j') ∨ ∃ f ∈ later, f.Ends j)

/-! ## Every history -/

/-- What the programs of the worker keep, with `L` between two rounds of its loop. -/
structure Sound (L : (Stopped W → Prop) → World W → Prop) : Prop where
  boot : ∀ watched w, Guarded watched w → Keeps (Guarded watched) D.boot (Post (fun _ => L watched) (Guarded watched)) w
  loop : ∀ watched w, L watched w → Keeps (Guarded watched) D.loop (Post (fun _ => L watched) (Guarded watched)) w

variable {D} {B : D.authority.Binding} {L : (Stopped W → Prop) → World W → Prop} {watched : Stopped W → Prop}
  {s s' : D.State}

/-- The authority has bound every claim that the worker received. -/
structure Inv (B : D.authority.Binding) (L : (Stopped W → Prop) → World W → Prop) (watched : Stopped W → Prop)
    (s : D.State) : Prop where
  authority : B.Inv s.authority
  bound : ∀ k c, (k, c) ∈ s.worker.world.answered → B.bound s.authority c = some k
  running : Machine.Running (D.machine World.Consistent) (Guarded watched) (L watched) s.worker

variable {e : Effect W} {p : String × String} {service : World.Service W} {w w' : World W}

/-- What an effect adds to the claims that were answered is a response of the service. -/
theorem answered_of_performs {a : e.Answer} (h : World.performs service e w a w') (hp : p ∈ w'.answered) :
    p ∈ w.answered ∨ ∃ (q : W.Request) (r : W.Response q), service w q r ∧ W.claimed q r = some p := by
  cases e with
  | request q =>
    rcases h with ⟨r, -, hr, rfl⟩ | ⟨rfl, -⟩
    · simp only [World.receive, List.mem_append, Option.mem_toList] at hp
      exact hp.symm.imp id fun hp => ⟨q, r, hr, hp⟩
    · exact Or.inl hp
  | save state =>
    rcases h with ⟨-, rfl⟩ | ⟨-, rfl | rfl⟩ <;> exact Or.inl hp
  | clear =>
    rcases h with ⟨-, rfl⟩ | ⟨-, rfl | rfl⟩ <;> exact Or.inl hp
  | run c =>
    rcases h with rfl | ⟨rfl, -⟩ <;> exact Or.inl hp
  | load | readVars =>
    obtain ⟨rfl, -⟩ := h
    exact Or.inl hp
  | randomId =>
    obtain ⟨-, rfl⟩ := h
    exact Or.inl hp
  | _ =>
    cases h
    exact Or.inl hp

theorem answered_of_step {m m' : Machine.State (World W) (Effect W) Effect.Answer NativeHostFailure}
    (h : (D.machine service).Step m m') (hp : p ∈ m'.world.answered) :
    p ∈ m.world.answered ∨ ∃ (q : W.Request) (r : W.Response q), service m.world q r ∧ W.claimed q r = some p := by
  cases h with
  | performed h => exact answered_of_performs h hp
  | again | failed | crashed | started => exact Or.inl hp

theorem performs_mono {service' : World.Service W} {a : e.Answer}
    (hs : ∀ q r, service w q r → service' w q r) (h : World.performs service e w a w') :
    World.performs service' e w a w' := by
  cases e with
  | request q =>
    exact h.imp (fun ⟨r, ha, hr, hw⟩ => ⟨r, ha, hs q r hr, hw⟩) id
  | _ => exact h

theorem Inv.step (hD : D.Sound L) (h : Inv B L watched s) (hs : D.Step s s') : Inv B L watched s' := by
  cases hs with
  | @authority a a' m ha =>
    exact ⟨B.step h.authority ha, fun k c hk => B.kept h.authority ha (h.bound k c hk), h.running⟩
  | @worker a m m' hw =>
    have hconsistent : ∀ q r, D.authority.answers a q r → World.Consistent m.world q r := by
      intro q r hr k c hc k' hk'
      have hbound := h.bound k' c hk'
      rw [B.answered h.authority hr hc, Option.some.injEq] at hbound
      exact hbound.symm
    refine ⟨h.authority, ?_, ?_⟩
    · intro k c hk
      rcases answered_of_step hw hk with hk | ⟨q, r, hr, hc⟩
      · exact h.bound k c hk
      · exact B.answered h.authority hr hc
    · have hw' : (D.machine World.Consistent).Step m m' :=
        hw.mono (by rfl) (by rfl) fun e a w' he => by exact performs_mono hconsistent he
      refine h.running.step (fun w hw => ?_) (fun w hw => ?_) hw'
      · refine (hD.boot watched w hw).mono ?_
        rintro (failure | _) w h <;> exact h
      · refine (hD.loop watched w hw).mono ?_
        rintro (failure | _) w h <;> exact h

theorem Inv.leads (hD : D.Sound L) (h : Inv B L watched s) (hs : D.Leads s s') : Inv B L watched s' := by
  induction hs with
  | refl => exact h
  | tail _ hs ih => exact ih.step hD hs

theorem Inv.initial (B : D.authority.Binding) (L : (Stopped W → Prop) → World W → Prop) (vars : ExecutorVariables) :
    Inv B L (fun _ => False) (D.initial vars) where
  authority := B.initial
  bound k c hk := by cases hk
  running := ⟨{ World.Inv.initial vars with follows := fun x hx => hx.elim }, fun p hp => by cases hp⟩

/-- A worker that stopped with a claim in its journal is watched from there on. -/
theorem Inv.watch (h : Inv B L watched s) (hp : s.worker.process = none) {x : Stopped W} (hx : x.world = s.worker.world) :
    Inv B L (· = x) s := by
  have hinv := h.running.world.toInv
  refine ⟨h.authority, h.bound, { hinv with follows := ?_ }, fun p hp' => by rw [hp] at hp'; cases hp'⟩
  intro y hy
  rw [hy]
  rw [← hx] at hinv ⊢
  obtain ⟨k, hk⟩ := hinv.named _ _ x.journaled x.named
  refine ⟨rfl, ⟨k, hk, ?_⟩, List.suffix_rfl, Or.inl ⟨x.journal, x.journaled, Or.inl rfl⟩⟩
  rw [World.pending, x.journaled, Option.bind_some, W.pending_of_claimOf x.named]
  exact fun hn => by cases hn

/-- An authority that binds its claims and a worker whose programs keep their invariant start no claim twice. -/
theorem Sound.atMostOnce (hD : D.Sound L) (B : D.authority.Binding) : D.AtMostOnce where
  once vars s hs c := by
    have h := (Inv.initial B L vars).leads hD hs
    exact List.nodup_iff_count_le_one.mp h.running.world.once c
  finished vars s s' j c hs hp hj hc hs' := by
    let x : Stopped W := { world := s.worker.world, journal := j, claimId := c, journaled := hj, named := hc }
    have h : Inv B L (· = x) s := ((Inv.initial B L vars).leads hD hs).watch hp rfl
    obtain ⟨hstarts, -, ⟨earlier, hgrown⟩, hfate⟩ := (h.leads hD hs').running.world.follows x rfl
    refine ⟨hstarts, ?_⟩
    rcases hfate with hfate | ⟨later, hlater, hends⟩
    · exact ⟨earlier, hgrown.symm, Or.inl hfate⟩
    · exact ⟨later, hlater, Or.inr hends⟩

end Deployment

end Dim.Host
