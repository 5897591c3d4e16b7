/-
`createNativeProposalReconciliationLoop`: wakes, reconciles, retries after a delay, and the close. A turn of the event
loop is a step: a queued call of `start`, a reconcile that settles, the end of its promise, a timer. The log is what has
happened, in order.
-/
import DimProofs.Lib.Run

namespace Dim.NativeGit.ReconciliationLoop

def retryDelaysMilliseconds : List Nat := [0, 100, 500, 1000, 5000]

inductive RunPhase where
  | reconciling
  /-- The reconcile has settled, and the end of the promise is to come. -/
  | ending
  | ended
deriving DecidableEq

inductive Event where
  | woke | started | succeeded | failed | unavailable
deriving DecidableEq

/-- The variables of the loop; the timers that are set, and the number of those there were; the queued calls of `start`;
and the
promises of the runs, the last of which is `running`. -/
structure State where
  (closed exhausted pending : Bool)
  failures : Nat
  timer : Option Nat
  scheduled : List Nat
  (timers starts : Nat)
  runs : List RunPhase
  log : List Event

inductive Action where
  | wake | close
  | microtask
  | settle (run : Nat) (ok : Bool)
  | finish (run : Nat)
  | expire (timer : Nat)
deriving DecidableEq

namespace State

def init : State where
  closed := false
  exhausted := false
  pending := false
  failures := 0
  timer := none
  scheduled := []
  timers := 0
  starts := 0
  runs := []
  log := []

def start (s : State) : State :=
  if s.closed || s.exhausted || !s.pending || s.timer.isSome then s
  else { s with pending := false, runs := s.runs ++ [.reconciling], log := s.log ++ [.started] }

def wake (s : State) : State :=
  if s.closed || s.exhausted then s
  else { s with pending := true, starts := s.starts + 1, log := s.log ++ [.woke] }

def close (s : State) : State :=
  { s with
    closed := true, pending := false, timer := none
    scheduled := match s.timer with
      | some timer => s.scheduled.erase timer
      | none => s.scheduled }

def microtask (s : State) : State := if s.starts = 0 then s else { s with starts := s.starts - 1 }.start

/-- The reconcile of a run succeeds or fails. -/
def settle (run : Nat) (ok : Bool) (s : State) : State :=
  if s.runs[run]? = some .reconciling then
    let runs := s.runs.set run .ending
    if ok then { s with runs, failures := 0, log := s.log ++ [.succeeded] }
    else if s.closed then { s with runs }
    else match retryDelaysMilliseconds[s.failures]? with
      | none => { s with runs, failures := s.failures + 1, exhausted := true, log := s.log ++ [.failed] ++ [.unavailable] }
      | some _ => { s with
          runs, failures := s.failures + 1, timer := some s.timers, scheduled := s.scheduled ++ [s.timers]
          timers := s.timers + 1, log := s.log ++ [.failed] }
  else s

/-- The `finally` of a run. -/
def finish (run : Nat) (s : State) : State :=
  if s.runs[run]? = some .ending then
    { s with runs := s.runs.set run .ended, starts := if s.pending then s.starts + 1 else s.starts }
  else s

def expire (timer : Nat) (s : State) : State :=
  if timer ∈ s.scheduled then { s with scheduled := s.scheduled.erase timer, timer := none, pending := true }.start else s

def next (s : State) : Action → State
  | .wake => s.wake
  | .close => s.close
  | .microtask => s.microtask
  | .settle run ok => s.settle run ok
  | .finish run => s.finish run
  | .expire timer => s.expire timer

/-- What `close` waits for has ended. -/
def closeResolves (s : State) : Prop := s.closed = true ∧ ∀ phase, s.runs.getLast? = some phase → phase = .ended

end State

/-- No wake while a reconcile is in flight, and no close while a wake waits for its reconcile to start. -/
def Allowed (s : State) : Action → Prop
  | .wake => s.closed = false → s.exhausted = false → .reconciling ∉ s.runs
  | .close => s.pending = false
  | _ => True

instance (s : State) : (action : Action) → Decidable (Allowed s action)
  | .wake => inferInstanceAs (Decidable (_ → _ → _))
  | .close => inferInstanceAs (Decidable (_ = _))
  | .microtask => .isTrue trivial
  | .settle _ _ => .isTrue trivial
  | .finish _ => .isTrue trivial
  | .expire _ => .isTrue trivial

/-- How the reconciles ended, in order. -/
def outcomes (log : List Event) : List Event := log.filter fun event => event = .succeeded || event = .failed

/-! ## The log -/

theorem concat_split {α : Type} {log before after : List α} {event other : α}
    (h : log ++ [event] = before ++ other :: after) :
    before = log ∧ other = event ∧ after = [] ∨ ∃ between, log = before ++ other :: between ∧
      after = between ++ [event] := by
  rcases List.eq_nil_or_concat after with rfl | ⟨between, last, rfl⟩
  · obtain ⟨hbefore, hevent⟩ := List.append_inj' h rfl
    exact .inl ⟨hbefore.symm, (List.singleton_inj.mp hevent).symm, rfl⟩
  · have h' : log ++ [event] = (before ++ other :: between) ++ [last] := by simpa using h
    obtain ⟨hlog, hevent⟩ := List.append_inj' h' rfl
    exact .inr ⟨between, hlog, by rw [List.singleton_inj.mp hevent]; simp⟩

/-- Every wake was followed by the start of a reconcile, or is pending. -/
def Woken (pending : Bool) (log : List Event) : Prop :=
  ∀ before after, log = before ++ .woke :: after → pending = true ∨ .started ∈ after

theorem Woken.concat {pending pending' : Bool} {log : List Event} {event : Event} (h : Woken pending log)
    (hpending : pending = true → pending' = true ∨ event = .started) (hevent : event ≠ .woke) :
    Woken pending' (log ++ [event]) := by
  intro before after hlog
  rcases concat_split hlog with ⟨-, rfl, -⟩ | ⟨between, hold, rfl⟩
  · exact absurd rfl hevent
  · rcases h before between hold with hp | hm
    · rcases hpending hp with hp | rfl
      · exact .inl hp
      · exact .inr (by simp)
    · exact .inr (List.mem_append_left _ hm)

theorem Woken.pending (log : List Event) : Woken true log := fun _ _ _ => .inl rfl

/-- The callback was called after six failures in a row. -/
def AfterFailures (log : List Event) : Prop :=
  ∀ before after, log = before ++ .unavailable :: after → ∃ earlier, outcomes before = earlier ++ List.replicate 6 .failed

theorem AfterFailures.concat {log : List Event} {event : Event} (h : AfterFailures log)
    (hevent : event = .unavailable → ∃ earlier, outcomes log = earlier ++ List.replicate 6 .failed) :
    AfterFailures (log ++ [event]) := by
  intro before after hlog
  rcases concat_split hlog with ⟨rfl, heq, -⟩ | ⟨between, hold, rfl⟩
  · exact hevent heq.symm
  · exact h before between hold

/-! ## What holds between the turns -/

/-- What also holds where `start` is called. -/
structure Core (s : State) : Prop where
  last : ∀ i, s.runs[i]? = some .reconciling → i + 1 = s.runs.length
  busy : .reconciling ∈ s.runs → s.exhausted = false ∧ s.timer = none ∧ s.pending = false
  timer : s.scheduled = s.timer.toList
  stopped : s.closed = true ∨ s.exhausted = true → s.pending = false ∧ s.timer = none
  woken : Woken s.pending s.log
  consecutive : ∃ earlier, outcomes s.log = earlier ++ List.replicate s.failures .failed
  reported : .unavailable ∈ s.log → s.exhausted = true
  once : s.log.count .unavailable ≤ 1
  failed : AfterFailures s.log

structure Inv (s : State) : Prop extends Core s where
  queued : s.pending = true → s.timer = none → 0 < s.starts

theorem Inv.init : Inv .init where
  last _ h := by simp [State.init] at h
  busy h := by simp [State.init] at h
  timer := rfl
  stopped _ := ⟨rfl, rfl⟩
  woken _ _ h := by simp [State.init] at h
  consecutive := ⟨[], rfl⟩
  reported h := by simp [State.init] at h
  once := Nat.zero_le _
  failed _ _ h := by simp [State.init] at h
  queued h := by simp [State.init] at h

variable {s : State}

/-- Nothing asks for a reconcile, or one starts. -/
theorem State.start_cases (s : State) :
    s.start = s ∧ (s.closed = true ∨ s.exhausted = true ∨ s.pending = false ∨ s.timer.isSome = true) ∨
    s.start = { s with pending := false, runs := s.runs ++ [.reconciling], log := s.log ++ [.started] } ∧
      s.closed = false ∧ s.exhausted = false ∧ s.pending = true ∧ s.timer = none := by
  unfold State.start
  split
  · rename_i h
    exact .inl ⟨rfl, by simpa [or_assoc] using h⟩
  · rename_i h
    simp only [Bool.or_eq_true, Bool.not_eq_true', not_or, Bool.not_eq_true, Bool.not_eq_false, Option.isSome_eq_false_iff,
      Option.isNone_iff_eq_none] at h
    exact .inr ⟨rfl, h.1.1.1, h.1.1.2, h.1.2, h.2⟩

theorem outcomes_concat {event : Event} (log : List Event) (h : event ≠ .succeeded) (h' : event ≠ .failed) :
    outcomes (log ++ [event]) = outcomes log := by simp [outcomes, h, h']

theorem Core.start (h : Core s) : Inv s.start := by
  rcases s.start_cases with ⟨heq, hidle⟩ | ⟨heq, hopen, hleft, hpending, htimer⟩
  · rw [heq]
    refine { h with queued := fun hpending htimer => ?_ }
    rcases hidle with hclosed | hexhausted | hidle | hset
    · rw [(h.stopped (.inl hclosed)).1] at hpending
      cases hpending
    · rw [(h.stopped (.inr hexhausted)).1] at hpending
      cases hpending
    · rw [hidle] at hpending
      cases hpending
    · rw [htimer] at hset
      cases hset
  · have hfree : .reconciling ∉ s.runs := fun hm => by
      rw [(h.busy hm).2.2] at hpending
      cases hpending
    rw [heq]
    exact {
      last := fun i hi => by
        dsimp only at hi ⊢
        rcases Nat.lt_trichotomy i s.runs.length with hlt | rfl | hgt
        · rw [List.getElem?_append_left hlt] at hi
          exact absurd (List.mem_of_getElem? hi) hfree
        · simp
        · rw [List.getElem?_eq_none (by rw [List.length_append, List.length_singleton]; exact hgt)] at hi
          cases hi
      busy := fun _ => ⟨hleft, htimer, rfl⟩
      timer := h.timer
      stopped := fun hstop => by
        rcases hstop with hc | he
        · exact absurd (hopen.symm.trans hc) Bool.false_ne_true
        · exact absurd (hleft.symm.trans he) Bool.false_ne_true
      woken := h.woken.concat (fun _ => .inr rfl) (by decide)
      consecutive := by
        obtain ⟨earlier, he⟩ := h.consecutive
        exact ⟨earlier, (outcomes_concat _ (by decide) (by decide)).trans he⟩
      reported := fun hm => h.reported (by simpa using hm)
      once := by simpa [List.count_append] using h.once
      failed := h.failed.concat fun he => by cases he
      queued := fun hp => by cases hp }

theorem Inv.wake (h : Inv s) (hfree : s.closed = false → s.exhausted = false → .reconciling ∉ s.runs) : Inv s.wake := by
  unfold State.wake
  split
  · exact h
  · rename_i hopen
    simp only [Bool.or_eq_true, not_or, Bool.not_eq_true] at hopen
    exact {
      last := h.last
      busy := fun hm => absurd hm (hfree hopen.1 hopen.2)
      timer := h.timer
      stopped := fun hstop => by
        rcases hstop with hc | he
        · exact absurd (hopen.1.symm.trans hc) Bool.false_ne_true
        · exact absurd (hopen.2.symm.trans he) Bool.false_ne_true
      woken := .pending _
      consecutive := by
        obtain ⟨earlier, he⟩ := h.consecutive
        exact ⟨earlier, (outcomes_concat _ (by decide) (by decide)).trans he⟩
      reported := fun hm => h.reported (by simpa using hm)
      once := by simpa [List.count_append] using h.once
      failed := h.failed.concat fun he => by cases he
      queued := fun _ _ => Nat.succ_pos _ }

theorem Inv.microtask (h : Inv s) : Inv s.microtask := by
  unfold State.microtask
  split
  · exact h
  · have hcore : Core { s with starts := s.starts - 1 } := { h.toCore with }
    exact hcore.start

theorem Inv.expire (h : Inv s) (timer : Nat) : Inv (s.expire timer) := by
  unfold State.expire
  split
  · rename_i hmem
    rw [h.timer, Option.mem_toList] at hmem
    have hset : s.timer = some timer := hmem
    have hopen : ¬ (s.closed = true ∨ s.exhausted = true) := fun hstop => by
      rw [(h.stopped hstop).2] at hset
      cases hset
    have hfree : .reconciling ∉ s.runs := fun hm => by
      rw [(h.busy hm).2.1] at hset
      cases hset
    have hcore : Core { s with scheduled := s.scheduled.erase timer, timer := none, pending := true } :=
      { h.toCore with
        busy := fun hm => absurd hm hfree
        timer := by simp [h.timer, hset]
        stopped := fun hstop => absurd hstop hopen
        woken := .pending _ }
    exact hcore.start
  · exact h

theorem Inv.close (h : Inv s) (hidle : s.pending = false) : Inv s.close := { h with
  busy := fun hm => ⟨(h.busy hm).1, rfl, rfl⟩
  timer := by
    unfold State.close
    cases htimer : s.timer <;> simp [h.timer, htimer]
  stopped := fun _ => ⟨rfl, rfl⟩
  woken := show Woken false s.log from hidle ▸ h.woken
  queued := fun hp => by cases hp }

/-- The run that was in flight is no longer so, and no other one is. -/
theorem Core.settled (h : Core s) {run : Nat} (hrun : s.runs[run]? = some .reconciling) :
    .reconciling ∉ s.runs.set run .ending := by
  intro hm
  obtain ⟨i, hi⟩ := List.mem_iff_getElem?.mp hm
  by_cases hne : run = i
  · subst hne
    rw [List.getElem?_set_self (List.getElem?_eq_some_iff.mp hrun).1] at hi
    cases hi
  · rw [List.getElem?_set_ne hne] at hi
    have hlast := h.last run hrun
    have hother := h.last i hi
    omega

theorem Inv.settle (h : Inv s) (run : Nat) (ok : Bool) : Inv (s.settle run ok) := by
  unfold State.settle
  split
  on_goal 2 => exact h
  rename_i hrun
  obtain ⟨hleft, htimer, hpending⟩ := h.busy (List.mem_of_getElem? hrun)
  have hfree := h.settled hrun
  have hlast : ∀ i, (s.runs.set run .ending)[i]? = some .reconciling → i + 1 = (s.runs.set run .ending).length :=
    fun i hi => absurd (List.mem_of_getElem? hi) hfree
  have hnone : .unavailable ∉ s.log := fun hm => by
    have := h.reported hm
    rw [hleft] at this
    cases this
  obtain ⟨earlier, hearlier⟩ := h.consecutive
  have hfailed : outcomes (s.log ++ [.failed]) = earlier ++ List.replicate (s.failures + 1) .failed := by
    rw [outcomes, List.filter_append, ← outcomes, hearlier, List.replicate_succ', List.append_assoc]
    rfl
  dsimp only
  split
  · exact { h with
      last := hlast
      busy := fun hm => absurd hm hfree
      woken := h.woken.concat (fun hp => .inl hp) (by decide)
      consecutive := ⟨_, (List.append_nil _).symm⟩
      reported := fun hm => h.reported (by simpa using hm)
      once := by simpa [List.count_append] using h.once
      failed := h.failed.concat fun he => by cases he }
  · split
    · exact { h with last := hlast, busy := fun hm => absurd hm hfree }
    · rename_i hopen
      rw [Bool.not_eq_true] at hopen
      split
      · rename_i hdelay
        have hmany : 5 ≤ s.failures := List.getElem?_eq_none_iff.mp hdelay
        have hwoken : Woken s.pending (s.log ++ [.failed]) := h.woken.concat .inl (by decide)
        exact {
          last := hlast
          busy := fun hm => absurd hm hfree
          timer := h.timer
          stopped := fun _ => ⟨hpending, htimer⟩
          woken := hwoken.concat .inl (by decide)
          consecutive := ⟨earlier, (outcomes_concat _ (by decide) (by decide)).trans hfailed⟩
          reported := fun _ => rfl
          once := by simp [List.count_append, List.count_eq_zero.mpr hnone]
          failed := by
            refine (h.failed.concat fun he => by cases he).concat fun _ =>
              ⟨earlier ++ List.replicate (s.failures - 5) .failed, ?_⟩
            rw [hfailed, List.append_assoc, List.replicate_append_replicate,
              show s.failures - 5 + 6 = s.failures + 1 by omega]
          queued := fun hp => by rw [hpending] at hp; cases hp }
      · exact {
          last := hlast
          busy := fun hm => absurd hm hfree
          timer := by rw [h.timer, htimer]; rfl
          stopped := fun hstop => by
            rcases hstop with hc | he
            · exact absurd (hopen.symm.trans hc) Bool.false_ne_true
            · exact absurd (hleft.symm.trans he) Bool.false_ne_true
          woken := h.woken.concat .inl (by decide)
          consecutive := ⟨earlier, hfailed⟩
          reported := fun hm => h.reported (by simpa using hm)
          once := by simpa [List.count_append] using h.once
          failed := h.failed.concat fun he => by cases he
          queued := fun hp => by rw [hpending] at hp; cases hp }

theorem Inv.finish (h : Inv s) (run : Nat) : Inv (s.finish run) := by
  unfold State.finish
  split
  on_goal 2 => exact h
  rename_i hrun
  have hsame : ∀ i : Nat, (s.runs.set run .ended)[i]? = some RunPhase.reconciling → s.runs[i]? = some RunPhase.reconciling :=
      fun i hi => by
    by_cases hne : run = i
    · subst hne
      rw [List.getElem?_set_self (List.getElem?_eq_some_iff.mp hrun).1] at hi
      cases hi
    · rwa [List.getElem?_set_ne hne] at hi
  exact { h with
    last := fun i hi => by
      rw [List.length_set]
      exact h.last i (hsame i hi)
    busy := fun hm => by
      obtain ⟨i, hi⟩ := List.mem_iff_getElem?.mp hm
      exact h.busy (List.mem_of_getElem? (hsame i hi))
    queued := fun hp ht => by
      dsimp only at hp ⊢
      rw [if_pos hp]
      exact Nat.succ_pos _ }

theorem Inv.next (h : Inv s) (action : Action) (hallowed : Allowed s action) : Inv (s.next action) := by
  cases action with
  | wake => exact h.wake hallowed
  | close => exact h.close hallowed
  | microtask => exact h.microtask
  | settle run ok => exact h.settle run ok
  | finish run => exact h.finish run
  | expire timer => exact h.expire timer

/-! ## Whole runs -/

/-- A pending wake has its reconcile started by the next queued call, or by the timer. -/
theorem Inv.pending_starts (h : Inv s) (hpending : s.pending = true) :
    0 < s.starts ∧ s.microtask.log = s.log ++ [.started] ∨
      ∃ timer ∈ s.scheduled, (s.expire timer).log = s.log ++ [.started] := by
  have hopen : s.closed = false ∧ s.exhausted = false := by
    constructor
    · refine Bool.eq_false_iff.mpr fun hc => ?_
      rw [(h.stopped (.inl hc)).1] at hpending
      cases hpending
    · refine Bool.eq_false_iff.mpr fun he => ?_
      rw [(h.stopped (.inr he)).1] at hpending
      cases hpending
  cases htimer : s.timer with
  | none =>
    have hstarts := h.queued hpending htimer
    refine .inl ⟨hstarts, ?_⟩
    simp [State.microtask, Nat.pos_iff_ne_zero.mp hstarts, State.start, hopen, hpending, htimer]
  | some timer =>
    have hmem : timer ∈ s.scheduled := by simp [h.timer, htimer]
    refine .inr ⟨timer, hmem, ?_⟩
    simp [State.expire, hmem, State.start, hopen]

theorem Inv.closeResolves (h : Inv s) (hclose : s.closeResolves) : .reconciling ∉ s.runs := by
  intro hm
  obtain ⟨i, hi⟩ := List.mem_iff_getElem?.mp hm
  have hlast : s.runs.getLast? = some .reconciling := by
    rw [List.getLast?_eq_getElem?, ← h.last i hi, Nat.add_sub_cancel]
    exact hi
  cases hclose.2 _ hlast

/-- What a turn does after a close: no reconcile starts. -/
structure AfterClose (s s' : State) : Prop where
  closed : s'.closed = true
  log : ∃ later, s'.log = s.log ++ later ∧ .started ∉ later
  runs : .reconciling ∈ s'.runs → .reconciling ∈ s.runs

theorem AfterClose.refl (h : s.closed = true) : AfterClose s s := ⟨h, ⟨[], (List.append_nil _).symm, List.not_mem_nil⟩, id⟩

theorem AfterClose.trans {s s' s'' : State} (h : AfterClose s s') (h' : AfterClose s' s'') : AfterClose s s'' where
  closed := h'.closed
  log := by
    obtain ⟨later, hlog, hlater⟩ := h.log
    obtain ⟨later', hlog', hlater'⟩ := h'.log
    exact ⟨later ++ later', by rw [hlog', hlog, List.append_assoc], by simp [hlater, hlater']⟩
  runs := fun hm => h.runs (h'.runs hm)

theorem mem_set_ne {runs : List RunPhase} {run : Nat} {phase : RunPhase} (hne : phase ≠ .reconciling)
    (h : .reconciling ∈ runs.set run phase) : .reconciling ∈ runs :=
  (List.mem_or_eq_of_mem_set h).resolve_right fun he => hne he.symm

theorem AfterClose.next (h : s.closed = true) (action : Action) : AfterClose s (s.next action) := by
  have hstart : ∀ s' : State, s'.closed = true → s'.start = s' := fun s' hc => by simp [State.start, hc]
  cases action with
  | wake =>
    have hwake : s.wake = s := by simp [State.wake, h]
    exact (congrArg (AfterClose s) hwake).mpr (.refl h)
  | close =>
    exact ⟨rfl, ⟨[], (List.append_nil _).symm, List.not_mem_nil⟩, id⟩
  | microtask =>
    simp only [State.next, State.microtask]
    split
    · exact .refl h
    · rw [hstart { s with starts := s.starts - 1 } h]
      exact ⟨h, ⟨[], (List.append_nil _).symm, List.not_mem_nil⟩, id⟩
  | settle run ok =>
    simp only [State.next, State.settle]
    split
    · split
      · exact ⟨h, ⟨[.succeeded], rfl, by decide⟩, mem_set_ne (by decide)⟩
      · exact ⟨h, ⟨[], (List.append_nil _).symm, List.not_mem_nil⟩, mem_set_ne (by decide)⟩
    · exact .refl h
  | finish run =>
    simp only [State.next, State.finish]
    split
    · exact ⟨h, ⟨[], (List.append_nil _).symm, List.not_mem_nil⟩, mem_set_ne (by decide)⟩
    · exact .refl h
  | expire timer =>
    simp only [State.next, State.expire]
    split
    · rw [hstart { s with scheduled := s.scheduled.erase timer, timer := none, pending := true } h]
      exact ⟨h, ⟨[], (List.append_nil _).symm, List.not_mem_nil⟩, id⟩
    · exact .refl h

theorem AfterClose.run : ∀ (more : List Action) {s : State}, s.closed = true → AfterClose s (more.foldl State.next s)
  | [], _, h => .refl h
  | action :: more, _, h => (AfterClose.next h action).trans (AfterClose.run more (AfterClose.next h action).closed)

/-- In every run in which no wake comes while a reconcile is in flight and no close while a wake waits: one reconcile is in
flight at a time; a wake is followed by the start of a reconcile, or is pending with a start on its way, and none is pending
after a close or exhaustion; from a close on no reconcile starts, and once it resolves none is in flight; and the callback is
called once at most, after six failures in a row. -/
theorem loop_single_flight {actions : List Action} (h : Transition.Along State.next Allowed .init actions) :
    let s := actions.foldl State.next .init
    (∀ i j : Nat, s.runs[i]? = some RunPhase.reconciling → s.runs[j]? = some RunPhase.reconciling → i = j)
    ∧ (∀ before after, s.log = before ++ .woke :: after → s.pending = true ∨ .started ∈ after)
    ∧ (s.closed = true ∨ s.exhausted = true → s.pending = false)
    ∧ (s.pending = true → 0 < s.starts ∧ s.microtask.log = s.log ++ [.started] ∨
        ∃ timer ∈ s.scheduled, (s.expire timer).log = s.log ++ [.started])
    ∧ (s.closed = true → ∀ more : List Action, ∃ later, (more.foldl State.next s).log = s.log ++ later ∧ .started ∉ later)
    ∧ (s.closeResolves → ∀ more : List Action, .reconciling ∉ (more.foldl State.next s).runs)
    ∧ s.log.count .unavailable ≤ 1
    ∧ ∀ before after, s.log = before ++ .unavailable :: after →
        ∃ earlier, outcomes before = earlier ++ List.replicate 6 .failed := by
  have hinv : Inv (actions.foldl State.next .init) :=
    Transition.Along.invariant (fun _ a hi ha => hi.next a ha) actions .init h
  refine ⟨fun i j hi hj => ?_, hinv.woken, fun hstop => (hinv.stopped hstop).1, hinv.pending_starts,
    fun hclosed more => (AfterClose.run more hclosed).log, fun hclose more hm => ?_, hinv.once, hinv.failed⟩
  · have hi := hinv.last i hi
    have hj := hinv.last j hj
    omega
  · exact hinv.closeResolves hclose ((AfterClose.run more hclose.1).runs hm)

/-- A reconcile fails, is tried again by its timer, and succeeds. -/
def retried : List Action :=
  [.wake, .microtask, .settle 0 false, .finish 0, .expire 0, .settle 1 true, .finish 1, .wake, .microtask, .settle 2 true,
    .finish 2, .close]

theorem loop_single_flight_retried :
    .reconciling ∉ (([.wake, .microtask, .expire 1] : List Action).foldl State.next (retried.foldl State.next .init)).runs :=
  (@loop_single_flight retried (by decide)).2.2.2.2.2.1 ⟨by decide, by decide⟩ _

/-- A wake during a reconcile starts another one. -/
theorem two_in_flight : (([.wake, .microtask, .wake, .microtask] : List Action).foldl State.next .init).runs =
    [.reconciling, .reconciling] := by decide

end Dim.NativeGit.ReconciliationLoop
