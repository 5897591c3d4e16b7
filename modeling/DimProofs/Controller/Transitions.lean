/-
`HostRuntimeTransitions`: starts and shutdowns of the host and disposals of the runtime, chained one after another
over a supervisor. Every call of the supervisor and every action may take any time and succeed or fail; without a
supervisor its calls succeed at once. The log is what has happened so far, in order.
-/
import DimProofs.Lib.Run

namespace Dim.HostRuntime

inductive Kind where
  | start | shutdown
deriving DecidableEq

/-- What is chained: a transition, or a call of `dispose`. -/
inductive Call where
  | run (kind : Kind)
  | dispose
deriving DecidableEq

inductive Failure where
  | disposed | quiesce | action | resume | dispose
deriving DecidableEq

inductive Phase where
  | waiting | quiescing | acting | resuming | disposing
  | settled (failure : Option Failure)
deriving DecidableEq

inductive Event where
  /-- The supervisor was quiesced for a shutdown. -/
  | quiesced (i : Nat)
  /-- An action starts. -/
  | started (i : Nat)
  /-- An action has succeeded. -/
  | succeeded (i : Nat)
  /-- The supervisor is to resume. -/
  | resumed (i : Nat)
  /-- A call of the supervisor or an action failed. -/
  | failed (i : Nat)
deriving DecidableEq

/-- The calls that were chained, in order, how far each has come, and `#disposed`. -/
structure State where
  calls : List Call
  phase : Nat → Phase
  disposed : Bool
  log : List Event

namespace State

def init : State := { calls := [], phase := fun _ => .waiting, disposed := false, log := [] }

def enter (s : State) (i : Nat) (phase : Phase) (events : List Event) : State :=
  { s with phase := Function.update s.phase i phase, log := s.log ++ events }

def act (s : State) (i : Nat) : State := s.enter i .acting [.started i]

/-- A call in the chain has its turn. -/
def begin (s : State) (i : Nat) : Call → State
  | .dispose => s.enter i .disposing []
  | .run kind =>
    if s.disposed then s.enter i (.settled (some .disposed)) []
    else match kind with
      | .shutdown => s.enter i .quiescing []
      | .start => s.act i

/-- What a call waits for has ended. -/
def answer (s : State) (i : Nat) (call : Call) (ok : Bool) : State :=
  match s.phase i with
  | .quiescing =>
    if !ok then s.enter i (.settled (some .quiesce)) [.failed i]
    else if s.disposed then s.enter i (.settled (some .disposed)) [.quiesced i]
    else (s.enter i .quiescing [.quiesced i]).act i
  | .acting =>
    if !ok then s.enter i (.settled (some .action)) [.failed i]
    else if call = .run .start then
      if s.disposed then s.enter i (.settled (some .disposed)) [.succeeded i]
      else s.enter i .resuming [.succeeded i, .resumed i]
    else s.enter i (.settled none) [.succeeded i]
  | .resuming => if ok then s.enter i (.settled none) [] else s.enter i (.settled (some .resume)) [.failed i]
  | .disposing => if ok then s.enter i (.settled none) [] else s.enter i (.settled (some .dispose)) [.failed i]
  | .waiting => s
  | .settled _ => s

end State

def Phase.isSettled : Phase → Bool
  | .settled _ => true
  | _ => false

/-- A call that has had its turn and has not ended. -/
def Phase.running (phase : Phase) : Prop := phase ≠ .waiting ∧ phase.isSettled = false

/-- A call in the chain goes on: it begins once the one before it has settled, or what it waits for ends. -/
inductive Moves (i : Nat) (s : State) : State → Prop
  | begin {call : Call} (hcall : s.calls[i]? = some call) (hwait : s.phase i = .waiting)
      (hturn : ∀ j, j + 1 = i → (s.phase j).isSettled = true) : Moves i s (s.begin i call)
  | answer {call : Call} (hcall : s.calls[i]? = some call) (hrunning : (s.phase i).running) (ok : Bool) :
      Moves i s (s.answer i call ok)

inductive Step (s : State) : State → Prop
  /-- `run` of any other operation. -/
  | other : Step s s
  | rejected (kind : Kind) (h : s.disposed = true) : Step s s
  | run (kind : Kind) (h : s.disposed = false) : Step s { s with calls := s.calls ++ [.run kind] }
  | dispose : Step s { s with calls := s.calls ++ [.dispose], disposed := true }
  | moves {s' : State} {i : Nat} (h : Moves i s s') : Step s s'

def Reachable : State → Prop := Transition.Reachable (· = .init) Step

/-! ## The chain -/

/-- What is known of a call that has come to a phase. -/
def At (s : State) (i : Nat) : Phase → Prop
  | .waiting => True
  | .quiescing => s.calls[i]? = some (Call.run .shutdown)
  | .acting => .started i ∈ s.log ∧ ∃ kind, s.calls[i]? = some (Call.run kind)
  | .resuming => s.calls[i]? = some (Call.run .start) ∧ .started i ∈ s.log ∧ .succeeded i ∈ s.log
  | .disposing => s.calls[i]? = some Call.dispose
  | .settled none => s.calls[i]? = some Call.dispose ∨ .started i ∈ s.log ∧ .succeeded i ∈ s.log
  | .settled (some .disposed) => s.disposed = true
  | .settled (some .quiesce) => s.calls[i]? = some (Call.run .shutdown) ∧ .failed i ∈ s.log
  | .settled (some .dispose) => s.calls[i]? = some Call.dispose ∧ .failed i ∈ s.log
  | .settled (some _) => .started i ∈ s.log ∧ .failed i ∈ s.log

/-- What comes before an event. -/
def Allowed (s : State) (before : List Event) : Event → Prop
  | .started i => (∃ kind, s.calls[i]? = some (Call.run kind)) ∧
      (s.calls[i]? = some (Call.run .shutdown) → .quiesced i ∈ before)
  | .resumed i => s.calls[i]? = some (Call.run .start) ∧ .succeeded i ∈ before
  | _ => True

structure Chained (s : State) : Prop where
  ordered : ∀ i j : Nat, i < j → (s.phase i).isSettled = true ∨ s.phase j = .waiting
  fresh : ∀ i, s.calls.length ≤ i → s.phase i = .waiting
  each : ∀ i, At s i (s.phase i)
  events : ∀ before event after, s.log = before ++ event :: after → Allowed s before event
  disposed : ∀ i : Nat, s.calls[i]? = some Call.dispose → s.disposed = true
  last : ∀ (i j : Nat) (kind : Kind), i < j → s.calls[i]? = some Call.dispose → s.calls[j]? ≠ some (Call.run kind)

theorem Chained.init : Chained .init where
  ordered _ _ _ := .inr rfl
  fresh _ _ := rfl
  each _ := trivial
  events _ _ _ h := by simp [State.init] at h
  disposed _ h := by simp [State.init] at h
  last _ _ _ _ h := by simp [State.init] at h

/-- A call at another place knows no less after more events, calls and disposals. -/
theorem At.mono {s s' : State} {i : Nat} {phase : Phase} (h : At s i phase) (hcalls : s.calls <+: s'.calls)
    (hlog : s.log <+: s'.log) (hdisposed : s.disposed = true → s'.disposed = true) : At s' i phase := by
  obtain ⟨more, hmore⟩ := hcalls
  have hcall : ∀ call, s.calls[i]? = some call → s'.calls[i]? = some call := by
    intro call hc
    rw [← hmore, List.getElem?_append_left (List.getElem?_eq_some_iff.mp hc).1]
    exact hc
  have hmem : ∀ {event}, event ∈ s.log → event ∈ s'.log := fun hm => hlog.subset hm
  match phase, h with
  | .waiting, _ => trivial
  | .quiescing, h => exact hcall _ h
  | .acting, ⟨h, kind, hk⟩ => exact ⟨hmem h, kind, hcall _ hk⟩
  | .resuming, h => exact ⟨hcall _ h.1, hmem h.2.1, hmem h.2.2⟩
  | .disposing, h => exact hcall _ h
  | .settled none, h => exact h.imp (hcall _) fun h => ⟨hmem h.1, hmem h.2⟩
  | .settled (some .disposed), h => exact hdisposed h
  | .settled (some .quiesce), h => exact ⟨hcall _ h.1, hmem h.2⟩
  | .settled (some .action), h => exact ⟨hmem h.1, hmem h.2⟩
  | .settled (some .resume), h => exact ⟨hmem h.1, hmem h.2⟩
  | .settled (some .dispose), h => exact ⟨hcall _ h.1, hmem h.2⟩

theorem getElem?_concat {α : Type} {l : List α} {a b : α} {i : Nat} (h : (l ++ [a])[i]? = some b) :
    l[i]? = some b ∨ i = l.length ∧ b = a := by
  by_cases hi : i < l.length
  · rw [List.getElem?_append_left hi] at h
    exact .inl h
  · rw [List.getElem?_append_right (Nat.not_lt.mp hi)] at h
    obtain ⟨hlt, hb⟩ := List.getElem?_eq_some_iff.mp h
    rw [List.length_singleton] at hlt
    exact .inr ⟨by omega, by simpa using hb.symm⟩

/-- A new call takes its place at the end. -/
theorem Chained.chain {s : State} (h : Chained s) {call : Call} {disposed : Bool} (hd : s.disposed = true → disposed = true)
    (hcall : call = .dispose ∧ disposed = true ∨ s.disposed = false ∧ call ≠ .dispose) :
    Chained { s with calls := s.calls ++ [call], disposed } where
  ordered := h.ordered
  fresh i hi := h.fresh i (Nat.le_of_succ_le (by simpa using hi))
  each i := (h.each i).mono (List.prefix_append _ _) (List.prefix_refl _) hd
  events before event after hlog := by
    have hold : ∀ i call', s.calls[i]? = some call' → (s.calls ++ [call])[i]? = some call' := fun i call' hc => by
      rw [List.getElem?_append_left (List.getElem?_eq_some_iff.mp hc).1]
      exact hc
    cases event with
    | started i =>
      obtain ⟨⟨kind, hk⟩, hquiesced⟩ := h.events _ _ _ hlog
      exact ⟨⟨kind, hold _ _ hk⟩, fun hc => hquiesced (by rw [hk, ← hold _ _ hk, hc])⟩
    | resumed i =>
      obtain ⟨hc, hm⟩ := h.events _ _ _ hlog
      exact ⟨hold _ _ hc, hm⟩
    | quiesced | succeeded | failed => trivial
  disposed i hi := by
    rcases hcall with ⟨-, rfl⟩ | ⟨-, hne⟩
    · rfl
    · rcases getElem?_concat hi with hold | ⟨-, rfl⟩
      · exact hd (h.disposed i hold)
      · exact absurd rfl hne
  last i j kind hij hi hj := by
    rcases getElem?_concat hi with hiold | ⟨rfl, -⟩
    · rcases getElem?_concat hj with hjold | ⟨-, rfl⟩
      · exact h.last i j kind hij hiold hjold
      · have hfalse := (hcall.resolve_left fun hc => by cases hc.1).1
        rw [h.disposed i hiold] at hfalse
        cases hfalse
    · have hlt := (List.getElem?_eq_some_iff.mp hj).1
      rw [List.length_append, List.length_singleton] at hlt
      omega

variable {s s' : State} {i : Nat} {call : Call}

/-- The calls before this one have settled, and it has not. -/
structure Turn (s : State) (i : Nat) : Prop where
  chained : i < s.calls.length
  unsettled : (s.phase i).isSettled = false
  earlier : ∀ j < i, (s.phase j).isSettled = true

theorem Chained.enter (h : Chained s) (ht : Turn s i) {phase : Phase} {events : List Event}
    (hat : At (s.enter i phase events) i phase)
    (hevents : ∀ before event after, events = before ++ event :: after → Allowed s (s.log ++ before) event) :
    Chained (s.enter i phase events) where
  ordered a b hab := by
    simp only [State.enter]
    by_cases hb : b = i
    · subst hb
      rw [Function.update_of_ne (Nat.ne_of_lt hab)]
      exact .inl (ht.earlier a hab)
    · rw [Function.update_of_ne hb]
      by_cases ha : a = i
      · subst ha
        exact .inr ((h.ordered a b hab).resolve_left (by rw [ht.unsettled]; exact Bool.false_ne_true))
      · rw [Function.update_of_ne ha]
        exact h.ordered a b hab
  fresh j hj := by
    have hne : j ≠ i := fun e => absurd ht.chained (Nat.not_lt.mpr (e ▸ hj))
    exact (Function.update_of_ne hne _ _).trans (h.fresh j hj)
  each j := by
    by_cases hj : j = i
    · subst hj
      simpa only [State.enter, Function.update_self] using hat
    · have hphase : (s.enter i phase events).phase j = s.phase j := Function.update_of_ne hj _ _
      rw [hphase]
      exact (h.each j).mono (List.prefix_refl _) (List.prefix_append _ _) id
  events before event after hlog := by
    rcases List.append_eq_append_iff.mp hlog with ⟨z, rfl, hz⟩ | ⟨z, hz, hafter⟩
    · exact hevents z event after hz
    · cases z with
      | nil =>
        have := hevents [] event after hafter.symm
        rwa [List.append_nil, hz, List.append_nil] at this
      | cons e z =>
        obtain ⟨rfl, -⟩ := List.cons.inj hafter
        exact h.events before _ z hz
  disposed := h.disposed
  last := h.last

theorem Chained.enter_quiet (h : Chained s) (ht : Turn s i) {phase : Phase} (hat : At (s.enter i phase []) i phase) :
    Chained (s.enter i phase []) :=
  h.enter ht hat fun before _ _ heq => by cases before <;> cases heq

theorem Chained.enter_one (h : Chained s) (ht : Turn s i) {phase : Phase} {event : Event}
    (hat : At (s.enter i phase [event]) i phase) (hevent : Allowed s s.log event) : Chained (s.enter i phase [event]) :=
  h.enter ht hat fun before e after heq => by
    cases before with
    | nil =>
      obtain ⟨rfl, -⟩ := List.cons.inj heq
      rwa [List.append_nil]
    | cons _ before => cases before <;> cases (List.cons.inj heq).2

theorem mem_enter {phase : Phase} {events : List Event} {event : Event} (h : event ∈ events) :
    event ∈ (s.enter i phase events).log := List.mem_append_right _ h

/-- An action starts, of a shutdown after the supervisor was quiesced. -/
theorem Chained.act (h : Chained s) (ht : Turn s i) {kind : Kind} (hcall : s.calls[i]? = some (.run kind))
    (hquiesced : kind = .shutdown → .quiesced i ∈ s.log) : Chained (s.act i) := by
  refine h.enter_one ht ⟨mem_enter List.mem_cons_self, kind, hcall⟩ ⟨⟨kind, hcall⟩, fun hc => hquiesced ?_⟩
  rw [hcall] at hc
  exact Call.run.inj (Option.some.inj hc)

theorem Chained.turn_of_running (h : Chained s) (hcall : s.calls[i]? = some call) (hrunning : (s.phase i).running) :
    Turn s i where
  chained := (List.getElem?_eq_some_iff.mp hcall).1
  unsettled := hrunning.2
  earlier j hj := (h.ordered j i hj).resolve_right hrunning.1

theorem Chained.turn_of_begin (h : Chained s) (hcall : s.calls[i]? = some call) (hwait : s.phase i = .waiting)
    (hturn : ∀ j, j + 1 = i → (s.phase j).isSettled = true) : Turn s i where
  chained := (List.getElem?_eq_some_iff.mp hcall).1
  unsettled := by rw [hwait]; rfl
  earlier j hj := by
    obtain ⟨k, rfl⟩ := Nat.exists_eq_add_of_lt hj
    have hk := hturn (j + k) rfl
    rcases Nat.eq_zero_or_pos k with rfl | hpos
    · exact hk
    · refine (h.ordered j (j + k) (by omega)).resolve_right fun hwaiting => ?_
      rw [hwaiting] at hk
      cases hk

/-- A call that has its turn keeps the chain in order. -/
theorem Chained.begin (h : Chained s) (ht : Turn s i) (hcall : s.calls[i]? = some call) : Chained (s.begin i call) := by
  cases call with
  | dispose => exact h.enter_quiet ht hcall
  | run kind =>
    simp only [State.begin]
    split
    · exact h.enter_quiet ht ‹_›
    · cases kind with
      | shutdown => exact h.enter_quiet ht hcall
      | start => exact h.act ht hcall fun hk => by cases hk

theorem Chained.answer (h : Chained s) (ht : Turn s i) (hcall : s.calls[i]? = some call) (ok : Bool) :
    Chained (s.answer i call ok) := by
  have hat := h.each i
  have hfails : ∀ failure, At (s.enter i (.settled (some failure)) [.failed i]) i (.settled (some failure)) →
      Chained (s.enter i (.settled (some failure)) [.failed i]) := fun _ hsettled => h.enter_one ht hsettled trivial
  have hfailed : ∀ {phase}, .failed i ∈ (s.enter i phase [.failed i]).log := mem_enter List.mem_cons_self
  unfold State.answer
  split
  · rename_i hphase
    rw [hphase] at hat
    split
    · exact hfails _ ⟨hat, hfailed⟩
    · split
      · exact h.enter_one ht ‹_› trivial
      · have hquiesced : Chained (s.enter i .quiescing [.quiesced i]) := h.enter_one ht hat trivial
        refine hquiesced.act ⟨ht.chained, ?_, ?_⟩ hat fun _ => mem_enter List.mem_cons_self
        · simp [State.enter, Phase.isSettled]
        · intro j hj
          simpa [State.enter, Function.update_of_ne (Nat.ne_of_lt hj)] using ht.earlier j hj
  · rename_i hphase
    rw [hphase] at hat
    have hstarted := List.mem_append_left (List.cons (Event.failed i) []) hat.1
    split
    · exact hfails _ ⟨hstarted, hfailed⟩
    · split
      · rename_i hstart
        rw [hstart] at hcall
        split
        · exact h.enter_one ht ‹_› trivial
        · refine h.enter ht ⟨hcall, List.mem_append_left _ hat.1, mem_enter List.mem_cons_self⟩
            fun before event after heq => ?_
          rcases before with _ | ⟨e, _ | ⟨_, before⟩⟩
          · obtain ⟨rfl, -⟩ := List.cons.inj heq
            trivial
          · obtain ⟨rfl, hrest⟩ := List.cons.inj heq
            obtain ⟨rfl, -⟩ := List.cons.inj hrest
            exact ⟨hcall, List.mem_append_right _ List.mem_cons_self⟩
          · cases before <;> cases (List.cons.inj (List.cons.inj heq).2).2
      · exact h.enter_one ht (.inr ⟨List.mem_append_left _ hat.1, mem_enter List.mem_cons_self⟩) trivial
  · rename_i hphase
    rw [hphase] at hat
    split
    · exact h.enter_quiet ht (.inr ⟨List.mem_append_left _ hat.2.1, List.mem_append_left _ hat.2.2⟩)
    · exact hfails _ ⟨List.mem_append_left _ hat.2.1, hfailed⟩
  · rename_i hphase
    rw [hphase] at hat
    split
    · exact h.enter_quiet ht (.inl hat)
    · exact hfails _ ⟨hat, hfailed⟩
  · exact h
  · exact h

theorem Chained.moves (h : Chained s) (hm : Moves i s s') : Chained s' := by
  cases hm with
  | begin hcall hwait hturn => exact h.begin (h.turn_of_begin hcall hwait hturn) hcall
  | answer hcall hrunning ok => exact h.answer (h.turn_of_running hcall hrunning) hcall ok

theorem Chained.step (h : Chained s) (hs : Step s s') : Chained s' := by
  cases hs with
  | other | rejected => exact h
  | run kind hd => exact h.chain id (.inr ⟨hd, by simp⟩)
  | dispose => exact h.chain (fun _ => rfl) (.inl ⟨rfl, rfl⟩)
  | moves hm => exact h.moves hm

theorem chained_of_reachable (h : Reachable s) : Chained s :=
  Transition.Reachable.invariant (fun s (heq : s = .init) => heq ▸ .init) (fun _ _ => Chained.step) h

/-- Two calls are not on their way at once. -/
theorem Chained.alone (h : Chained s) {j : Nat} (hi : (s.phase i).running) (hj : (s.phase j).running) : i = j := by
  have hno : ∀ {a b : Nat}, (s.phase a).running → (s.phase b).running → ¬ a < b := fun ha hb hab => by
    rcases h.ordered _ _ hab with hsettled | hwaiting
    · rw [ha.2] at hsettled
      cases hsettled
    · exact hb.1 hwaiting
  rcases Nat.lt_trichotomy i j with hlt | heq | hlt
  · exact absurd hlt (hno hi hj)
  · exact heq
  · exact absurd hlt (hno hj hi)

/-! ## Every call comes to its end -/

/-- How much of a call is left. -/
def Phase.left : Phase → Nat
  | .waiting => 4
  | .quiescing => 3
  | .acting => 2
  | .resuming => 1
  | .disposing => 1
  | .settled _ => 0

theorem Phase.left_of_isSettled {phase : Phase} (h : phase.isSettled = true) : phase.left = 0 := by
  cases phase <;> first | rfl | cases h

theorem enter_advances {phase : Phase} {events : List Event} (hlt : phase.left < (s.phase i).left) :
    ((s.enter i phase events).phase i).left < (s.phase i).left ∧ (s.enter i phase events).calls = s.calls ∧
      ∀ j, j ≠ i → (s.enter i phase events).phase j = s.phase j :=
  ⟨by simpa [State.enter] using hlt, rfl, fun _ hj => Function.update_of_ne hj _ _⟩

theorem moves_advance (hm : Moves i s s') :
    (s'.phase i).left < (s.phase i).left ∧ s'.calls = s.calls ∧ ∀ j, j ≠ i → s'.phase j = s.phase j := by
  cases hm with
  | @begin call hcall hwait hturn =>
    cases call with
    | dispose => exact enter_advances (by rw [hwait]; decide)
    | run kind =>
      simp only [State.begin]
      split
      · exact enter_advances (by rw [hwait]; decide)
      · cases kind <;> exact enter_advances (by rw [hwait]; decide)
  | @answer call hcall hrunning ok =>
    unfold State.answer
    split
    · rename_i hphase
      split
      · exact enter_advances (by rw [hphase]; decide)
      · split
        · exact enter_advances (by rw [hphase]; decide)
        · refine ⟨by simp [State.act, State.enter, hphase, Phase.left], rfl, fun j hj => ?_⟩
          simp [State.act, State.enter, Function.update_of_ne hj]
    · rename_i hphase
      split
      · exact enter_advances (by rw [hphase]; decide)
      · split
        · split <;> exact enter_advances (by rw [hphase]; decide)
        · exact enter_advances (by rw [hphase]; decide)
    · rename_i hphase
      split <;> exact enter_advances (by rw [hphase]; decide)
    · rename_i hphase
      split <;> exact enter_advances (by rw [hphase]; decide)
    · rename_i hphase
      exact absurd hphase hrunning.1
    · rename_i hphase
      have hunsettled := hrunning.2
      rw [hphase] at hunsettled
      cases hunsettled

/-- Whatever has failed before, a call that has not settled, or one before it, goes on. -/
theorem moves_next (hi : i < s.calls.length) (hunsettled : (s.phase i).isSettled = false) :
    ∃ j s', j ≤ i ∧ Moves j s s' := by
  have hexists : ∃ j, (s.phase j).isSettled = false := ⟨i, hunsettled⟩
  have hle : Nat.find hexists ≤ i := Nat.find_min' hexists hunsettled
  obtain ⟨call, hcall⟩ : ∃ call, s.calls[Nat.find hexists]? = some call :=
    ⟨_, List.getElem?_eq_getElem (Nat.lt_of_le_of_lt hle hi)⟩
  by_cases hwait : s.phase (Nat.find hexists) = .waiting
  · refine ⟨_, _, hle, .begin hcall hwait fun k hk => ?_⟩
    simpa using Nat.find_min hexists (by omega : k < Nat.find hexists)
  · exact ⟨_, _, hle, .answer hcall ⟨hwait, Nat.find_spec hexists⟩ true⟩

/-- The action of a call starts. -/
structure Acts (i : Nat) (s' : State) : Prop where
  phase : s'.phase i = .acting
  log : s'.log.getLast? = some (.started i)

theorem acts_act (s : State) (i : Nat) : Acts i (s.act i) :=
  ⟨Function.update_self .., by simp [State.act, State.enter]⟩

/-- A transition whose turn comes while nothing is disposed starts its action, a shutdown once the supervisor is quiesced. -/
theorem moves_act (hm : Moves i s s') {kind : Kind} (hcall : s.calls[i]? = some (.run kind)) (hd : s.disposed = false) :
    (s.phase i = .waiting → kind = .start ∧ Acts i s' ∨ kind = .shutdown ∧ s'.phase i = .quiescing) ∧
      (s.phase i = .quiescing → Acts i s' ∨ s'.phase i = .settled (some .quiesce)) := by
  cases hm with
  | begin hcall' hwait =>
    cases hcall.symm.trans hcall'
    refine ⟨fun _ => ?_, fun hquiescing => by rw [hwait] at hquiescing; cases hquiescing⟩
    simp only [State.begin, hd, Bool.false_eq_true, if_false]
    cases kind with
    | start => exact .inl ⟨rfl, acts_act s i⟩
    | shutdown => exact .inr ⟨rfl, Function.update_self ..⟩
  | answer hcall' hrunning ok =>
    refine ⟨fun hwait => absurd hwait hrunning.1, fun hquiescing => ?_⟩
    simp only [State.answer, hquiescing]
    cases ok with
    | true => exact .inl (by simpa [hd] using acts_act _ i)
    | false => exact .inr (Function.update_self ..)

/-! ## After a disposal -/

/-- A call of `dispose` has settled. -/
def Over (s : State) : Prop := ∃ d, s.calls[d]? = some .dispose ∧ (s.phase d).isSettled = true

theorem Chained.isOver (h : Chained s) (ho : Over s) {kind : Kind} (hcall : s.calls[i]? = some (.run kind)) :
    (s.phase i).isSettled = true := by
  obtain ⟨d, hd, hsettled⟩ := ho
  rcases Nat.lt_trichotomy i d with hlt | rfl | hlt
  · refine (h.ordered i d hlt).resolve_right fun hwaiting => ?_
    rw [hwaiting] at hsettled
    cases hsettled
  · rw [hd] at hcall
    cases hcall
  · exact absurd hcall (h.last d i kind hlt hd)

/-- Nothing that was logged since is the start of an action or a resumption. -/
def Quiet (s s' : State) : Prop := ∃ more, s'.log = s.log ++ more ∧ ∀ i, .started i ∉ more ∧ .resumed i ∉ more

theorem Quiet.refl (s : State) : Quiet s s := ⟨[], (List.append_nil _).symm, fun _ => ⟨List.not_mem_nil, List.not_mem_nil⟩⟩

theorem Chained.over_step (h : Chained s) (ho : Over s) (hs : Step s s') : Over s' ∧ Quiet s s' := by
  have hchain : ∀ call disposed, Over { s with calls := s.calls ++ [call], disposed } := fun call disposed => by
    obtain ⟨d, hd, hsettled⟩ := ho
    exact ⟨d, by rw [List.getElem?_append_left (List.getElem?_eq_some_iff.mp hd).1]; exact hd, hsettled⟩
  cases hs with
  | other | rejected => exact ⟨ho, .refl s⟩
  | run kind => exact ⟨hchain _ _, .refl s⟩
  | dispose => exact ⟨hchain _ _, .refl s⟩
  | @moves _ i hm =>
    constructor
    · obtain ⟨d, hd, hsettled⟩ := ho
      obtain ⟨hleft, hcalls, hothers⟩ := moves_advance hm
      have hne : d ≠ i := by
        rintro rfl
        exact absurd (Phase.left_of_isSettled hsettled ▸ hleft) (Nat.not_lt_zero _)
      exact ⟨d, hcalls ▸ hd, by rw [hothers d hne]; exact hsettled⟩
    · have hrun : ∀ kind, (s.phase i).isSettled = false → s.calls[i]? ≠ some (.run kind) := fun kind hu hc => by
        rw [h.isOver ho hc] at hu
        cases hu
      cases hm with
      | @begin call hcall hwait =>
        cases call with
        | run kind => exact absurd hcall (hrun kind (by rw [hwait]; rfl))
        | dispose => exact ⟨[], rfl, fun _ => ⟨List.not_mem_nil, List.not_mem_nil⟩⟩
      | answer hcall hrunning ok =>
        have hat := h.each i
        unfold State.answer
        split
        · rename_i hphase
          rw [hphase] at hat
          exact absurd hat (hrun _ hrunning.2)
        · rename_i hphase
          rw [hphase] at hat
          obtain ⟨-, kind, hc⟩ := hat
          exact absurd hc (hrun kind hrunning.2)
        · rename_i hphase
          rw [hphase] at hat
          exact absurd hat.1 (hrun _ hrunning.2)
        · split
          · exact ⟨[], rfl, fun _ => ⟨List.not_mem_nil, List.not_mem_nil⟩⟩
          · exact ⟨[.failed i], rfl, fun _ => ⟨by simp, by simp⟩⟩
        · exact .refl s
        · exact .refl s

theorem Chained.over_run (h : Chained s) (ho : Over s) (hr : Relation.ReflTransGen Step s s') :
    Chained s' ∧ Over s' ∧ Quiet s s' := by
  induction hr with
  | refl => exact ⟨h, ho, .refl s⟩
  | tail _ hstep ih =>
    obtain ⟨hchained, hover, more, hmore, hquiet⟩ := ih
    obtain ⟨hover', more', hmore', hquiet'⟩ := hchained.over_step hover hstep
    refine ⟨hchained.step hstep, hover', more ++ more', by rw [hmore', hmore, List.append_assoc], fun i => ?_⟩
    simp only [List.mem_append, not_or]
    exact ⟨⟨(hquiet i).1, (hquiet' i).1⟩, (hquiet i).2, (hquiet' i).2⟩

/-- In every order of calls and answers: one call is on its way at a time; the supervisor resumes after the action of a
start that succeeded, and is quiesced before the action of a shutdown starts; a transition whose turn comes undisposed
starts its action, whatever became of those before it, and one that has settled has run its action, unless its own
quiesce failed or the transitions are disposed; while one has not settled the chain goes on, by a step that brings some
call closer to its end; and after a disposal has settled no transition is on its way, and no action starts and the
supervisor does not resume from then on. -/
theorem transitions_chained (h : Reachable s) :
    (∀ i j, (s.phase i).running → (s.phase j).running → i = j)
    ∧ (∀ before i after, s.log = before ++ .resumed i :: after → s.calls[i]? = some (.run .start) ∧ .succeeded i ∈ before)
    ∧ (∀ before i after, s.log = before ++ .started i :: after →
        s.calls[i]? = some (.run .shutdown) → .quiesced i ∈ before)
    ∧ (∀ (i : Nat) kind s', s.calls[i]? = some (.run kind) → s.disposed = false → Moves i s s' →
        (s.phase i = .waiting → kind = .start ∧ Acts i s' ∨ kind = .shutdown ∧ s'.phase i = .quiescing) ∧
          (s.phase i = .quiescing → Acts i s' ∨ s'.phase i = .settled (some .quiesce)))
    ∧ (∀ (i : Nat) kind failure, s.calls[i]? = some (.run kind) → s.phase i = .settled failure →
        .started i ∈ s.log ∧ (failure = none ∧ .succeeded i ∈ s.log ∨ .failed i ∈ s.log) ∨
          kind = .shutdown ∧ failure = some .quiesce ∧ .failed i ∈ s.log ∨
            failure = some .disposed ∧ s.disposed = true)
    ∧ (∀ i, i < s.calls.length → (s.phase i).isSettled = false → ∃ j s', j ≤ i ∧ Moves j s s')
    ∧ (∀ i s', Moves i s s' →
        (s'.phase i).left < (s.phase i).left ∧ s'.calls = s.calls ∧ ∀ j, j ≠ i → s'.phase j = s.phase j)
    ∧ (Over s → ∀ s', Relation.ReflTransGen Step s s' →
        (∀ (i : Nat) kind, s'.calls[i]? = some (.run kind) → (s'.phase i).isSettled = true) ∧ Quiet s s') := by
  have hc := chained_of_reachable h
  refine ⟨fun i j => hc.alone, fun before i after heq => hc.events before _ after heq,
    fun before i after heq => (hc.events before _ after heq).2, fun i kind s' hcall hd hm => moves_act hm hcall hd,
    fun i kind failure hcall hphase => ?_, fun i => moves_next, fun i s' => moves_advance, fun ho s' hr => ?_⟩
  · have hat := hc.each i
    rw [hphase] at hat
    match failure, hat with
    | none, hat =>
      obtain ⟨hstarted, hsucceeded⟩ := hat.resolve_left fun hd => by
        rw [hcall] at hd
        cases hd
      exact .inl ⟨hstarted, .inl ⟨rfl, hsucceeded⟩⟩
    | some .disposed, hat => exact .inr (.inr ⟨rfl, hat⟩)
    | some .quiesce, hat => exact .inr (.inl ⟨Call.run.inj (Option.some.inj (hcall.symm.trans hat.1)), rfl, hat.2⟩)
    | some .action, hat | some .resume, hat => exact .inl ⟨hat.1, .inr hat.2⟩
    | some .dispose, hat => cases hcall.symm.trans hat.1
  · obtain ⟨hchained, hover, hquiet⟩ := hc.over_run ho hr
    exact ⟨fun i kind => hchained.isOver hover, hquiet⟩

/-- A start whose action fails, a shutdown after it, and a disposal. -/
def shutDown : State :=
  let chained : State := { State.init with calls := [.run .start, .run .shutdown, .dispose] }
  let started := ((chained.begin 0 (.run .start)).answer 0 (.run .start) false).begin 1 (.run .shutdown)
  let ended := (started.answer 1 (.run .shutdown) true).answer 1 (.run .shutdown) true
  ({ ended with disposed := true }.begin 2 .dispose).answer 2 .dispose true

theorem shutDown_reachable : Reachable shutDown := by
  have h₀ : Reachable .init := .init rfl
  have h₁ := (h₀.step (.run .start rfl)).step (.run .shutdown rfl)
  have h₂ := h₁.step (.moves (@Moves.begin 0 _ (.run .start) rfl rfl fun j hj => by omega))
  have h₃ := h₂.step (.moves (@Moves.answer 0 _ (.run .start) rfl ⟨by decide, rfl⟩ false))
  have h₄ := h₃.step (.moves (@Moves.begin 1 _ (.run .shutdown) rfl rfl fun j hj => by
    obtain rfl : j = 0 := by omega
    rfl))
  have h₅ := h₄.step (.moves (@Moves.answer 1 _ (.run .shutdown) rfl ⟨by decide, rfl⟩ true))
  have h₆ := (h₅.step (.moves (@Moves.answer 1 _ (.run .shutdown) rfl ⟨by decide, rfl⟩ true))).step .dispose
  have h₇ := h₆.step (.moves (@Moves.begin 2 _ .dispose rfl rfl fun j hj => by
    obtain rfl : j = 1 := by omega
    rfl))
  exact h₇.step (.moves (@Moves.answer 2 _ .dispose rfl ⟨by decide, rfl⟩ true))

/-- The shutdown runs after the start that failed, and nothing does after the disposal. -/
theorem transitions_chained_shutDown : .failed 0 ∈ shutDown.log ∧ .started 1 ∈ shutDown.log ∧
    Quiet shutDown { shutDown with calls := shutDown.calls ++ [.dispose], disposed := true } := by
  obtain ⟨-, -, -, -, hsettled, -, -, hover⟩ := transitions_chained shutDown_reachable
  rcases hsettled 1 .shutdown none rfl rfl with ⟨hstarted, -⟩ | ⟨-, hfailure, -⟩ | ⟨hfailure, -⟩
  · exact ⟨by decide, hstarted, (hover ⟨2, rfl, rfl⟩ _ (.single .dispose)).2⟩
  · cases hfailure
  · cases hfailure

end Dim.HostRuntime
