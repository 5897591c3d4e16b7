/-
Programs that perform effects, and the process that runs them: it starts with one program, repeats
another, and may crash between any two effects, when only the world remains. `Safe` says that an
invariant of the world holds after every effect of a program, whatever the answers are, and what
holds where the program ends; a process whose two programs are safe keeps the invariant for ever.
-/
import Mathlib

namespace Effectful

/-- A program ends with a value or a failure, or performs an effect and goes on with its answer. -/
inductive Program (E : Type) (A : E → Type) (ε α : Type) where
  | done (value : α)
  | fail (failure : ε)
  | perform (effect : E) (next : A effect → Program E A ε α)

namespace Program

variable {E ε α β : Type} {A : E → Type}

def bind : Program E A ε α → (α → Program E A ε β) → Program E A ε β
  | .done value, f => f value
  | .fail failure, _ => .fail failure
  | .perform effect next, f => .perform effect fun a => (next a).bind f

def tryCatch : Program E A ε α → (ε → Program E A ε α) → Program E A ε α
  | .done value, _ => .done value
  | .fail failure, handler => handler failure
  | .perform effect next, handler => .perform effect fun a => (next a).tryCatch handler

instance : Monad (Program E A ε) where
  pure := done
  bind := bind

instance : MonadExcept ε (Program E A ε) where
  throw := fail
  tryCatch := tryCatch

theorem pure_andThen (value : α) (f : α → Program E A ε β) : (pure value >>= f : Program E A ε β) = f value := rfl

/-- A single effect. -/
def effect (e : E) : Program E A ε (A e) := .perform e .done

/-- The end of a `finally` block: its failure replaces the outcome before it. -/
def tryFinally (p : Program E A ε α) (last : Program E A ε Unit) : Program E A ε α :=
  (p.tryCatch fun failure => last.bind fun _ => .fail failure).bind fun value => last.bind fun _ => .done value

end Program

/-! ## Execution where nothing else intervenes -/

section Exec

variable {σ E ε α β : Type} {A : E → Type} (step : (e : E) → σ → A e × σ)

/-- The end of a program whose effects each have one answer. -/
def Program.exec : Program E A ε α → σ → Except ε α × σ
  | .done value, w => (.ok value, w)
  | .fail failure, w => (.error failure, w)
  | .perform e next, w => (next (step e w).1).exec (step e w).2

/-- A sequence goes on where its first part ended. -/
theorem exec_bind (f : α → Program E A ε β) : ∀ (p : Program E A ε α) (w : σ),
    (p >>= f).exec step w = match p.exec step w with
      | (.ok value, w') => (f value).exec step w'
      | (.error failure, w') => (.error failure, w')
  | .done _, _ => rfl
  | .fail _, _ => rfl
  | .perform e next, w => exec_bind f (next (step e w).1) (step e w).2

theorem exec_tryCatch (handler : ε → Program E A ε α) : ∀ (p : Program E A ε α) (w : σ),
    (tryCatch p handler).exec step w = match p.exec step w with
      | (.ok value, w') => (.ok value, w')
      | (.error failure, w') => (handler failure).exec step w'
  | .done _, _ => rfl
  | .fail _, _ => rfl
  | .perform e next, w => exec_tryCatch handler (next (step e w).1) (step e w).2

theorem exec_tryFinally (p : Program E A ε α) (last : Program E A ε Unit) (w : σ) :
    (p.tryFinally last).exec step w = match last.exec step (p.exec step w).2 with
      | (.ok _, w') => ((p.exec step w).1, w')
      | (.error failure, w') => (.error failure, w') := by
  have hunfold : p.tryFinally last =
      (tryCatch p fun failure => last >>= fun _ => throw failure) >>= fun value => last >>= fun _ => pure value := rfl
  rw [hunfold, exec_bind, exec_tryCatch]
  rcases p.exec step w with ⟨failure | value, w'⟩
  · dsimp only
    rw [exec_bind]
    rcases last.exec step w' with ⟨failure' | _, w''⟩ <;> rfl
  · dsimp only
    rw [exec_bind]
    rcases last.exec step w' with ⟨failure' | _, w''⟩ <;> rfl

end Exec

/-! ## What a program may do -/

section Every

variable {E ε α β : Type} {A : E → Type} {P : E → Prop}

/-- Every effect of the program is one of `P`, whatever the answers are. -/
def Program.Every (P : E → Prop) : Program E A ε α → Prop
  | .done _ => True
  | .fail _ => True
  | .perform e next => P e ∧ ∀ a, (next a).Every P

theorem every_pure (value : α) : (pure value : Program E A ε α).Every P := trivial

theorem every_throw (failure : ε) : (throw failure : Program E A ε α).Every P := trivial

theorem every_effect {e : E} (h : P e) : (Program.effect e : Program E A ε (A e)).Every P := ⟨h, fun _ => trivial⟩

theorem Program.Every.andThen {f : α → Program E A ε β} (hf : ∀ value, (f value).Every P) :
    ∀ {p : Program E A ε α}, p.Every P → (p >>= f).Every P
  | .done value, _ => hf value
  | .fail _, _ => trivial
  | .perform _ _, h => ⟨h.1, fun a => (h.2 a).andThen hf⟩

theorem Program.Every.orElse {handler : ε → Program E A ε α} (hhandler : ∀ failure, (handler failure).Every P) :
    ∀ {p : Program E A ε α}, p.Every P → (tryCatch p handler).Every P
  | .done _, _ => trivial
  | .fail failure, _ => hhandler failure
  | .perform _ _, h => ⟨h.1, fun a => (h.2 a).orElse hhandler⟩

theorem Program.Every.andFinally {p : Program E A ε α} {last : Program E A ε Unit} (hp : p.Every P) (hlast : last.Every P) :
    (p.tryFinally last).Every P :=
  (hp.orElse fun failure => hlast.andThen fun _ => every_throw failure).andThen fun value =>
    hlast.andThen fun _ => every_pure value

theorem Program.Every.mono {P' : E → Prop} (hP : ∀ e, P e → P' e) : ∀ {p : Program E A ε α}, p.Every P → p.Every P'
  | .done _, _ => trivial
  | .fail _, _ => trivial
  | .perform _ _, h => ⟨hP _ h.1, fun a => (h.2 a).mono hP⟩

end Every

/-! ## Safety of a program -/

section Safe

variable {σ E ε α β : Type} {A : E → Type} (performs : (e : E) → σ → A e → σ → Prop) (I : σ → Prop)

/-- Every effect keeps `I`, and the program ends as `Q` says. -/
def Safe : Program E A ε α → (Except ε α → σ → Prop) → σ → Prop
  | .done value, Q, w => Q (.ok value) w
  | .fail failure, Q, w => Q (.error failure) w
  | .perform e next, Q, w => ∀ a w', performs e w a w' → I w' ∧ Safe (next a) Q w'

variable {performs I}

theorem Safe.imp {J : σ → Prop} {Q Q' : Except ε α → σ → Prop} (hI : ∀ w, I w → J w) (hQ : ∀ r w, Q r w → Q' r w) :
    ∀ {p : Program E A ε α} {w : σ}, Safe performs I p Q w → Safe performs J p Q' w
  | .done _, _, h => hQ _ _ h
  | .fail _, _, h => hQ _ _ h
  | .perform _ _, _, h => fun a w' hp => ⟨hI _ (h a w' hp).1, Safe.imp hI hQ (h a w' hp).2⟩

variable {Q : Except ε α → σ → Prop} {p : Program E A ε α} {w : σ}

theorem Safe.mono {Q' : Except ε α → σ → Prop} (hQ : ∀ r w, Q r w → Q' r w)
    (h : Safe performs I p Q w) : Safe performs I p Q' w :=
  h.imp (fun _ h => h) hQ

/-- What the rest of a sequence asks of its first part. -/
def Then (performs : (e : E) → σ → A e → σ → Prop) (I : σ → Prop) (f : α → Program E A ε β)
    (Q : Except ε β → σ → Prop) : Except ε α → σ → Prop
  | .ok value, w => Safe performs I (f value) Q w
  | .error failure, w => Q (.error failure) w

/-- What a handler asks of the program before it. -/
def Catch (performs : (e : E) → σ → A e → σ → Prop) (I : σ → Prop) (handler : ε → Program E A ε α)
    (Q : Except ε α → σ → Prop) : Except ε α → σ → Prop
  | .ok value, w => Q (.ok value) w
  | .error failure, w => Safe performs I (handler failure) Q w

theorem safe_bind (f : α → Program E A ε β) (Q : Except ε β → σ → Prop) :
    ∀ (p : Program E A ε α) (w : σ), Safe performs I (p >>= f) Q w ↔ Safe performs I p (Then performs I f Q) w
  | .done _, _ => Iff.rfl
  | .fail _, _ => Iff.rfl
  | .perform _ next, _ =>
    forall_congr' fun a => forall_congr' fun w' => imp_congr_right fun _ =>
      and_congr_right fun _ => safe_bind f Q (next a) w'

theorem safe_tryCatch (handler : ε → Program E A ε α) (Q : Except ε α → σ → Prop) :
    ∀ (p : Program E A ε α) (w : σ),
      Safe performs I (tryCatch p handler) Q w ↔ Safe performs I p (Catch performs I handler Q) w
  | .done _, _ => Iff.rfl
  | .fail _, _ => Iff.rfl
  | .perform _ next, _ =>
    forall_congr' fun a => forall_congr' fun w' => imp_congr_right fun _ =>
      and_congr_right fun _ => safe_tryCatch handler Q (next a) w'

variable {f : α → Program E A ε β}

/-- The rule of sequences. -/
theorem Safe.andThen {P : Except ε α → σ → Prop} {Q : Except ε β → σ → Prop} (hp : Safe performs I p P w)
    (hok : ∀ value w, P (.ok value) w → Safe performs I (f value) Q w)
    (herror : ∀ failure w, P (.error failure) w → Q (.error failure) w) : Safe performs I (p >>= f) Q w := by
  rw [safe_bind]
  refine hp.mono ?_
  rintro (failure | value) w h
  · exact herror failure w h
  · exact hok value w h

variable {handler : ε → Program E A ε α}

/-- The rule of handlers. -/
theorem Safe.orElse {P : Except ε α → σ → Prop}
    (hp : Safe performs I p P w) (hok : ∀ value w, P (.ok value) w → Q (.ok value) w)
    (herror : ∀ failure w, P (.error failure) w → Safe performs I (handler failure) Q w) :
    Safe performs I (tryCatch p handler) Q w := by
  rw [safe_tryCatch]
  refine hp.mono ?_
  rintro (failure | value) w h
  · exact herror failure w h
  · exact hok value w h

/-- The rule of `finally`: what holds before its last part holds after it, unless that part fails. -/
theorem Safe.andFinally {last : Program E A ε Unit} {P : Except ε α → σ → Prop} (hp : Safe performs I p P w)
    (hlast : ∀ r w, P r w → Safe performs I last (fun s w => match s with
      | .ok _ => Q r w
      | .error failure => Q (.error failure) w) w) : Safe performs I (p.tryFinally last) Q w := by
  have hhandler : Safe performs I (tryCatch p fun failure => last >>= fun _ => throw failure)
      (fun r w => match r with
        | .ok value => P (.ok value) w
        | .error failure => Q (.error failure) w) w := by
    refine hp.orElse (fun value w h => h) fun failure w h => ?_
    exact (hlast _ w h).andThen (fun _ w h => h) fun _ w h => h
  refine Safe.andThen (p := tryCatch p fun failure => last >>= fun _ => throw failure)
    (f := fun value => last >>= fun _ => pure value) hhandler (fun value w h => ?_) fun _ w h => h
  exact (hlast _ w h).andThen (fun _ w h => h) fun _ w h => h

/-! ## Programs that read -/

/-- The program changes nothing, and what it returns or throws satisfies `R`. -/
def Reading (performs : (e : E) → σ → A e → σ → Prop) (p : Program E A ε α) (R : Except ε α → Prop) (w : σ) : Prop :=
  Safe performs (· = w) p (fun r w' => w' = w ∧ R r) w

variable {R : Except ε α → Prop}

theorem Reading.safe (h : Reading performs p R w) (hI : I w) (hQ : ∀ r, R r → Q r w) : Safe performs I p Q w :=
  Safe.imp (fun _ hw => hw ▸ hI) (fun r _ hr => hr.1 ▸ hQ r hr.2) h

theorem Reading.imp {R' : Except ε α → Prop} (h : Reading performs p R w) (hR : ∀ r, R r → R' r) :
    Reading performs p R' w :=
  h.safe rfl fun r hr => ⟨rfl, hR r hr⟩

theorem reading_pure {value : α} (h : R (.ok value)) : Reading performs (pure value : Program E A ε α) R w := ⟨rfl, h⟩

theorem reading_throw {failure : ε} (h : R (.error failure)) : Reading performs (throw failure : Program E A ε α) R w :=
  ⟨rfl, h⟩

/-- A program that begins with a read. -/
theorem Reading.thenSafe {Q : Except ε β → σ → Prop} (h : Reading performs p R w) (hI : I w)
    (hok : ∀ value, R (.ok value) → Safe performs I (f value) Q w)
    (herror : ∀ failure, R (.error failure) → Q (.error failure) w) : Safe performs I (p >>= f) Q w :=
  Safe.andThen (h.safe (Q := fun r w' => w' = w ∧ R r) hI fun _ hr => ⟨rfl, hr⟩)
    (fun value _ hv => hv.1 ▸ hok value hv.2) fun failure _ hf => hf.1 ▸ herror failure hf.2

theorem Reading.andThen {R' : Except ε β → Prop} (h : Reading performs p R w)
    (hok : ∀ value, R (.ok value) → Reading performs (f value) R' w)
    (herror : ∀ failure, R (.error failure) → R' (.error failure)) : Reading performs (p >>= f) R' w :=
  h.thenSafe rfl hok fun failure hf => ⟨rfl, herror failure hf⟩

theorem Reading.orElse {R' : Except ε α → Prop} (h : Reading performs p R w) (hok : ∀ value, R (.ok value) → R' (.ok value))
    (herror : ∀ failure, R (.error failure) → Reading performs (handler failure) R' w) :
    Reading performs (tryCatch p handler) R' w :=
  Safe.orElse h (fun value _ hv => ⟨hv.1, hok value hv.2⟩) fun failure _ hf => hf.1 ▸ herror failure hf.2

theorem Reading.andFinally {last : Program E A ε Unit} (h : Reading performs p R w)
    (hlast : Reading performs last (fun _ => True) w) (herror : ∀ failure, R (.error failure)) :
    Reading performs (p.tryFinally last) R w :=
  Safe.andFinally h fun r w' hr => by
    obtain ⟨rfl, hr⟩ := hr
    refine hlast.safe rfl fun s _ => ?_
    cases s with
    | ok => exact ⟨rfl, hr⟩
    | error failure => exact ⟨rfl, herror failure⟩

/-- What every effect of a program keeps, the program keeps. -/
theorem Program.Every.safe {P : E → Prop} (hkeeps : ∀ e w a w', P e → performs e w a w' → I w → I w') :
    ∀ {p : Program E A ε α} {w : σ}, p.Every P → I w → Safe performs I p (fun _ => I) w
  | .done _, _, _, hw => hw
  | .fail _, _, _, hw => hw
  | .perform e _, w, h, hw => fun a w' hp =>
    have hw' := hkeeps e w a w' h.1 hp hw
    ⟨hw', (h.2 a).safe hkeeps hw'⟩

/-- Effects that are recorded with their answers. -/
def logged (performs : (e : E) → σ → A e → σ → Prop) (e : E) (s : σ × List ((e : E) × A e)) (a : A e)
    (s' : σ × List ((e : E) × A e)) : Prop :=
  performs e s.1 a s'.1 ∧ s'.2 = s.2 ++ [⟨e, a⟩]

/-! ## Crash points -/

/-- What is left of a program, and the world, after some of its effects: a crash leaves the world alone. -/
inductive Reaches (performs : (e : E) → σ → A e → σ → Prop) :
    Program E A ε α → σ → Program E A ε α → σ → Prop
  | here {p : Program E A ε α} {w : σ} : Reaches performs p w p w
  | perform {e : E} {next : A e → Program E A ε α} {a : A e} {w w' w'' : σ} {rest : Program E A ε α}
    (h : performs e w a w') (hr : Reaches performs (next a) w' rest w'') : Reaches performs (.perform e next) w rest w''

variable {w' : σ}

variable {rest : Program E A ε α}

/-- What a crash leaves satisfies the invariant, and what the end of the program leaves satisfies `Q`. -/
theorem Safe.reaches (hw : I w)
    (h : Safe performs I p Q w) (hr : Reaches performs p w rest w') : I w' ∧ Safe performs I rest Q w' := by
  induction hr with
  | here => exact ⟨hw, h⟩
  | perform hp _ ih => exact ih (h _ _ hp).1 (h _ _ hp).2

/-- A program that has ended. -/
def Program.ended : Except ε α → Program E A ε α
  | .ok value => .done value
  | .error failure => .fail failure

/-- An execution is a run to the end. -/
theorem reaches_exec {step : (e : E) → σ → A e × σ} (hstep : ∀ e w, performs e w (step e w).1 (step e w).2) :
    ∀ (p : Program E A ε α) (w : σ), Reaches performs p w (.ended (p.exec step w).1) (p.exec step w).2
  | .done _, _ => .here
  | .fail _, _ => .here
  | .perform e next, w => .perform (hstep e w) (reaches_exec hstep (next (step e w).1) (step e w).2)

theorem Reaches.imp {performs' : (e : E) → σ → A e → σ → Prop}
    (h : ∀ e w a w', performs e w a w' → performs' e w a w')
    (hr : Reaches performs p w rest w') : Reaches performs' p w rest w' := by
  induction hr with
  | here => exact .here
  | perform hp _ ih => exact .perform (h _ _ _ _ hp) ih

theorem Reaches.logged {p rest : Program E A ε α} {w w' : σ} (hr : Reaches performs p w rest w') :
    ∀ t, ∃ t', Reaches (logged performs) p (w, t) rest (w', t') := by
  induction hr with
  | here => exact fun t => ⟨t, .here⟩
  | @perform e _ a _ _ _ _ hp _ ih =>
    intro t
    obtain ⟨t', ht'⟩ := ih (t ++ [⟨e, a⟩])
    exact ⟨t', .perform ⟨hp, rfl⟩ ht'⟩

/-- A sequence goes on from the end of its first part. -/
theorem Reaches.andThen {value : α} {f : α → Program E A ε β} {rest : Program E A ε β} :
    ∀ {p : Program E A ε α} {w w' w'' : σ}, Reaches performs p w (pure value) w' → Reaches performs (f value) w' rest w'' →
      Reaches performs (p >>= f) w rest w''
  | .done _, _, _, _, .here, hf => hf
  | .perform _ _, _, _, _, .perform hp hr, hf => .perform hp (hr.andThen hf)

/-- A sequence comes to an effect in its first part, or in the rest from the end of the first part. -/
theorem Reaches.perform_cases {f : α → Program E A ε β} {e : E} {next : A e → Program E A ε β} :
    ∀ {p : Program E A ε α} {w w' : σ}, Reaches performs (p >>= f) w (.perform e next) w' →
      (∃ next', Reaches performs p w (.perform e next') w' ∧ next = fun a => next' a >>= f) ∨
        ∃ value w₁, Reaches performs p w (pure value) w₁ ∧ Reaches performs (f value) w₁ (.perform e next) w'
  | .done value, w, _, h => .inr ⟨value, w, .here, h⟩
  | .perform _ next, _, _, .here => .inl ⟨next, .here, rfl⟩
  | .perform _ next, _, _, .perform (a := a) hp hr => by
    have hr : Reaches performs (next a >>= f) _ _ _ := hr
    rcases hr.perform_cases with ⟨next', hr', heq⟩ | ⟨value, w₁, hr', hf⟩
    · exact .inl ⟨next', .perform hp hr', heq⟩
    · exact .inr ⟨value, w₁, .perform hp hr', hf⟩

theorem Reaches.pure_cases {f : α → Program E A ε β} {b : β} : ∀ {p : Program E A ε α} {w w' : σ},
    Reaches performs (p >>= f) w (pure b) w' →
      ∃ value w₁, Reaches performs p w (pure value) w₁ ∧ Reaches performs (f value) w₁ (pure b) w'
  | .done value, w, _, h => ⟨value, w, .here, h⟩
  | .perform _ next, _, _, .perform (a := a) hp hr => by
    have hr : Reaches performs (next a >>= f) _ _ _ := hr
    obtain ⟨value, w₁, hr', hf⟩ := hr.pure_cases
    exact ⟨value, w₁, .perform hp hr', hf⟩

/-- The program comes to the effect `e`. -/
def Comes (performs : (e : E) → σ → A e → σ → Prop) (p : Program E A ε α) (w : σ) (e : E) (w' : σ) : Prop :=
  ∃ next, Reaches performs p w (.perform e next) w'

theorem comes_effect {e : E} {f : A e → Program E A ε α} {w : σ} : Comes performs (Program.effect e >>= f) w e w :=
    ⟨_, .here⟩

theorem Comes.after {value : α} {w'' : σ} {e : E}
    (h : Comes performs (f value) w' e w'') (hr : Reaches performs p w (pure value) w') :
    Comes performs (p >>= f) w e w'' := by
  obtain ⟨next, hnext⟩ := h
  exact ⟨next, hr.andThen hnext⟩

theorem Comes.inBind {e : E} (h : Comes performs p w e w') :
    Comes performs (p >>= f) w e w' := by
  obtain ⟨next, hnext⟩ := h
  generalize hrest : Program.perform e next = rest at hnext
  induction hnext with
  | here => exact hrest ▸ ⟨_, .here⟩
  | perform hp _ ih =>
    obtain ⟨next', hnext'⟩ := ih hrest
    exact ⟨next', .perform hp hnext'⟩

theorem Comes.inCatch {e : E} (h : Comes performs p w e w') : Comes performs (tryCatch p handler) w e w' := by
  obtain ⟨next, hnext⟩ := h
  generalize hrest : Program.perform e next = rest at hnext
  induction hnext with
  | here => exact hrest ▸ ⟨_, .here⟩
  | perform hp _ ih =>
    obtain ⟨next', hnext'⟩ := ih hrest
    exact ⟨next', .perform hp hnext'⟩

end Safe

/-! ## Processes -/

/-- The programs of a process: what it runs when it starts, and what it repeats afterwards. -/
structure Machine (σ E : Type) (A : E → Type) (ε : Type) where
  performs : (e : E) → σ → A e → σ → Prop
  (boot loop : Program E A ε Unit)

namespace Machine

variable {σ E ε : Type} {A : E → Type}

/-- The world, and the rest of the program that runs, unless no process does. -/
structure State (σ E : Type) (A : E → Type) (ε : Type) where
  world : σ
  process : Option (Program E A ε Unit)

inductive Step (M : Machine σ E A ε) : State σ E A ε → State σ E A ε → Prop
  | performed {w w' : σ} {e : E} {next : A e → Program E A ε Unit} {a : A e} (h : M.performs e w a w') :
      Step M ⟨w, some (.perform e next)⟩ ⟨w', some (next a)⟩
  | again {w : σ} : Step M ⟨w, some (.done ())⟩ ⟨w, some M.loop⟩
  | failed {w : σ} {failure : ε} : Step M ⟨w, some (.fail failure)⟩ ⟨w, none⟩
  | crashed {w : σ} {process : Option (Program E A ε Unit)} : Step M ⟨w, process⟩ ⟨w, none⟩
  | started {w : σ} : Step M ⟨w, none⟩ ⟨w, some M.boot⟩

variable {s : State σ E A ε}

variable {s' : State σ E A ε}

/-- A step is also one of a machine whose effects may do more. -/
theorem Step.mono {M M' : Machine σ E A ε} (hboot : M'.boot = M.boot) (hloop : M'.loop = M.loop)
    (hperforms : ∀ e a w', M.performs e s.world a w' → M'.performs e s.world a w') (h : M.Step s s') : M'.Step s s' := by
  cases h with
  | performed h => exact .performed (hperforms _ _ _ h)
  | again => exact hloop ▸ .again
  | failed => exact .failed
  | crashed => exact .crashed
  | started => exact hboot ▸ .started

/-- The effects of a program are steps of the process that runs it. -/
theorem steps_of_reaches {M : Machine σ E A ε} {p rest : Program E A ε Unit} {w w' : σ}
    (h : Reaches M.performs p w rest w') : Relation.ReflTransGen M.Step ⟨w, some p⟩ ⟨w', some rest⟩ := by
  induction h with
  | here => exact .refl
  | perform h _ ih => exact .head (.performed h) ih

/-- The process may crash wherever it is. -/
theorem steps_crash {M : Machine σ E A ε} {w : σ} {process : Option (Program E A ε Unit)}
    (h : Relation.ReflTransGen M.Step s ⟨w, process⟩) : Relation.ReflTransGen M.Step s ⟨w, none⟩ := h.tail .crashed

variable (M : Machine σ E A ε) (I L : σ → Prop)

/-- Where a program ends: `L` holds when it goes well, and `I` in any case. -/
def Ends : Except ε Unit → σ → Prop
  | .ok _, w => L w
  | .error _, w => I w

/-- The invariant of the world, with the safety of what is left to run. -/
structure Running (s : State σ E A ε) : Prop where
  world : I s.world
  process : ∀ p, s.process = some p → Safe M.performs I p (Ends I L) s.world

variable {M I L}

/-- A process whose programs are safe, with `L` between two rounds of its loop, keeps the invariant. -/
theorem Running.step (hboot : ∀ w, I w → Safe M.performs I M.boot (Ends I L) w)
    (hloop : ∀ w, L w → Safe M.performs I M.loop (Ends I L) w) {s s' : State σ E A ε} (h : Running M I L s)
    (hs : M.Step s s') : Running M I L s' := by
  cases hs with
  | performed hp =>
    obtain ⟨hw, hrest⟩ := h.process _ rfl _ _ hp
    exact ⟨hw, fun p hp => by cases hp; exact hrest⟩
  | again => exact ⟨h.world, fun p hp => by cases hp; exact hloop _ (h.process _ rfl)⟩
  | failed => exact ⟨h.world, fun p hp => by cases hp⟩
  | crashed => exact ⟨h.world, fun p hp => by cases hp⟩
  | started => exact ⟨h.world, fun p hp => by cases hp; exact hboot _ h.world⟩

theorem Running.steps (hboot : ∀ w, I w → Safe M.performs I M.boot (Ends I L) w)
    (hloop : ∀ w, L w → Safe M.performs I M.loop (Ends I L) w) (h : Running M I L s)
    (hs : Relation.ReflTransGen M.Step s s') : Running M I L s' := by
  induction hs with
  | refl => exact h
  | tail _ hs ih => exact ih.step hboot hloop hs

end Machine

end Effectful
