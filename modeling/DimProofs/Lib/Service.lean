/-
A service that starts with one program and then runs the operations of a queue, one at a time and each to its
end. Operations are submitted at any time. The service may crash between any two effects or in the middle of
one, and it may be started again. A `Contract` names what holds while the service is down, where its first
program has ended and while it serves, and which effect an operation may perform in which world; a service that
meets its contract keeps to it for ever (`Running.steps`).
-/
import DimProofs.Lib.Program

namespace Effectful

/-! ## Effects that a program may perform -/

section Guards

variable {σ E ε α β : Type} {A : E → Type} (performs : (e : E) → σ → A e → σ → Prop) (allowed : E → σ → Prop)

/-- Every effect of the program is allowed in the world it is performed in, and the program returns as `Q` says. -/
def Guards : Program E A ε α → (α → σ → Prop) → σ → Prop
  | .done value, Q, w => Q value w
  | .fail _, _, _ => True
  | .perform e next, Q, w => allowed e w ∧ ∀ a w', performs e w a w' → Guards (next a) Q w'

variable {performs allowed}

theorem Guards.imp {allowed' : E → σ → Prop} {Q Q' : α → σ → Prop} (he : ∀ e w, allowed e w → allowed' e w)
    (hQ : ∀ a w, Q a w → Q' a w) :
    ∀ {p : Program E A ε α} {w : σ}, Guards performs allowed p Q w → Guards performs allowed' p Q' w
  | .done _, _, h => hQ _ _ h
  | .fail _, _, _ => trivial
  | .perform _ _, _, h => ⟨he _ _ h.1, fun a w' hp => (h.2 a w' hp).imp he hQ⟩

theorem Guards.mono {Q Q' : α → σ → Prop} (hQ : ∀ a w, Q a w → Q' a w) {p : Program E A ε α} {w : σ}
    (h : Guards performs allowed p Q w) : Guards performs allowed p Q' w :=
  h.imp (fun _ _ h => h) hQ

/-- The rule of sequences. -/
theorem Guards.andThen {f : α → Program E A ε β} {P : α → σ → Prop} {Q : β → σ → Prop} :
    ∀ {p : Program E A ε α} {w : σ}, Guards performs allowed p P w →
      (∀ a w, P a w → Guards performs allowed (f a) Q w) → Guards performs allowed (p >>= f) Q w
  | .done _, _, h, hf => hf _ _ h
  | .fail _, _, _, _ => trivial
  | .perform _ _, _, h, hf => ⟨h.1, fun a w' hp => (h.2 a w' hp).andThen hf⟩

theorem Guards.reaches {Q : α → σ → Prop} {p rest : Program E A ε α} {w : σ} (h : Guards performs allowed p Q w)
    (hr : Reaches performs p w rest w') : Guards performs allowed rest Q w' := by
  induction hr with
  | here => exact h
  | perform hp _ ih => exact ih (h.2 _ _ hp)

/-- What holds where a program ends, holds where an execution of it ends. -/
theorem Guards.exec {step : (e : E) → σ → A e × σ} (hstep : ∀ e w, performs e w (step e w).1 (step e w).2)
    {Q : α → σ → Prop} {value : α} : ∀ {p : Program E A ε α} {w : σ}, Guards performs allowed p Q w →
      (p.exec step w).1 = .ok value → Q value (p.exec step w).2
  | .done _, _, h, hok => by
    cases hok
    exact h
  | .perform e _, w, h, hok => (h.2 _ _ (hstep e w)).exec hstep hok

end Guards

/-! ## Services -/

/-- `interrupts` is what a crash in the middle of an effect leaves. -/
structure Service (σ E : Type) (A : E → Type) (ε Op : Type) where
  performs : (e : E) → σ → A e → σ → Prop
  interrupts : E → σ → σ → Prop
  boot : Program E A ε Unit
  run : Op → Program E A ε Unit

namespace Service

variable {σ E ε Op : Type} {A : E → Type}

/-- What a service does: nothing, its first program, or the operations of its queue. -/
inductive Phase (E : Type) (A : E → Type) (ε Op : Type) where
  | down
  | booting (rest : Program E A ε Unit)
  | serving (current : Option (Op × Program E A ε Unit)) (queue : List Op)

structure State (σ E : Type) (A : E → Type) (ε Op : Type) where
  world : σ
  phase : Phase E A ε Op

inductive Step (S : Service σ E A ε Op) : State σ E A ε Op → State σ E A ε Op → Prop
  | started {w : σ} : Step S ⟨w, .down⟩ ⟨w, .booting S.boot⟩
  | booted {w : σ} : Step S ⟨w, .booting (.done ())⟩ ⟨w, .serving none []⟩
  | bootFailed {w : σ} {failure : ε} : Step S ⟨w, .booting (.fail failure)⟩ ⟨w, .down⟩
  | bootPerformed {w w' : σ} {e : E} {next : A e → Program E A ε Unit} {a : A e} (h : S.performs e w a w') :
      Step S ⟨w, .booting (.perform e next)⟩ ⟨w', .booting (next a)⟩
  | bootInterrupted {w w' : σ} {e : E} {next : A e → Program E A ε Unit} (h : S.interrupts e w w') :
      Step S ⟨w, .booting (.perform e next)⟩ ⟨w', .down⟩
  | submitted {w : σ} {current : Option (Op × Program E A ε Unit)} {queue : List Op} (op : Op) :
      Step S ⟨w, .serving current queue⟩ ⟨w, .serving current (queue ++ [op])⟩
  | begun {w : σ} {op : Op} {queue : List Op} :
      Step S ⟨w, .serving none (op :: queue)⟩ ⟨w, .serving (some (op, S.run op)) queue⟩
  | refused {w : σ} {op : Op} {queue : List Op} : Step S ⟨w, .serving none (op :: queue)⟩ ⟨w, .serving none queue⟩
  | performed {w w' : σ} {op : Op} {queue : List Op} {e : E} {next : A e → Program E A ε Unit} {a : A e}
      (h : S.performs e w a w') :
      Step S ⟨w, .serving (some (op, .perform e next)) queue⟩ ⟨w', .serving (some (op, next a)) queue⟩
  | interrupted {w w' : σ} {op : Op} {queue : List Op} {e : E} {next : A e → Program E A ε Unit}
      (h : S.interrupts e w w') : Step S ⟨w, .serving (some (op, .perform e next)) queue⟩ ⟨w', .down⟩
  | returned {w : σ} {op : Op} {queue : List Op} :
      Step S ⟨w, .serving (some (op, .done ())) queue⟩ ⟨w, .serving none queue⟩
  | threw {w : σ} {op : Op} {failure : ε} {queue : List Op} :
      Step S ⟨w, .serving (some (op, .fail failure)) queue⟩ ⟨w, .serving none queue⟩
  | crashed {w : σ} {phase : Phase E A ε Op} : Step S ⟨w, phase⟩ ⟨w, .down⟩

/-- What holds of the world: at any time, where the first program has ended, and while the service serves. -/
structure Contract (σ E Op : Type) where
  down : σ → Prop
  booted : σ → Prop
  serving : σ → Prop
  may : Op → E → σ → Prop

variable (S : Service σ E A ε Op) (C : Contract σ E Op)

/-- An effect of the first program keeps `down`, whether it is performed or interrupted. -/
def BootAllows (e : E) (w : σ) : Prop :=
  (∀ w', S.interrupts e w w' → C.down w') ∧ ∀ a w', S.performs e w a w' → C.down w'

/-- An effect of an operation is one that it may perform, and it keeps `serving` when it is performed. -/
def RunAllows (op : Op) (e : E) (w : σ) : Prop :=
  C.may op e w ∧ (∀ w', S.interrupts e w w' → C.down w') ∧ ∀ a w', S.performs e w a w' → C.serving w'

/-- The service meets its contract. -/
structure Meets : Prop where
  serve : ∀ w, C.booted w → C.serving w
  crash : ∀ w, C.serving w → C.down w
  boot : ∀ w, C.down w → Guards S.performs (S.BootAllows C) S.boot (fun _ => C.booted) w
  run : ∀ op w, C.serving w → Guards S.performs (S.RunAllows C op) (S.run op) (fun _ _ => True) w

/-- The contract holds of the world and of what is left to run. -/
def Running (s : State σ E A ε Op) : Prop :=
  match s.phase with
  | .down => C.down s.world
  | .booting rest => C.down s.world ∧ Guards S.performs (S.BootAllows C) rest (fun _ => C.booted) s.world
  | .serving none _ => C.serving s.world
  | .serving (some (op, rest)) _ =>
    C.serving s.world ∧ Guards S.performs (S.RunAllows C op) rest (fun _ _ => True) s.world

variable {S C}

theorem Running.holds (hC : S.Meets C) {s : State σ E A ε Op} (h : S.Running C s) : C.down s.world := by
  obtain ⟨w, phase⟩ := s
  match phase with
  | .down => exact h
  | .booting _ => exact h.1
  | .serving none _ => exact hC.crash w h
  | .serving (some _) _ => exact hC.crash w h.1

/-- While the service serves. -/
theorem Running.serves {s : State σ E A ε Op} (h : S.Running C s) {current : Option (Op × Program E A ε Unit)}
    {queue : List Op} (hphase : s.phase = .serving current queue) : C.serving s.world := by
  obtain ⟨w, phase⟩ := s
  subst hphase
  match current with
  | none => exact h
  | some _ => exact h.1

theorem Running.step (hC : S.Meets C) {s s' : State σ E A ε Op} (h : S.Running C s) (hs : S.Step s s') :
    S.Running C s' := by
  cases hs with
  | started => exact ⟨h, hC.boot _ h⟩
  | booted => exact hC.serve _ h.2
  | bootFailed => exact h.1
  | bootPerformed hp => exact ⟨h.2.1.2 _ _ hp, h.2.2 _ _ hp⟩
  | bootInterrupted hp => exact h.2.1.1 _ hp
  | submitted op =>
    rename_i current queue
    cases current with
    | none => exact h
    | some current => exact h
  | begun => exact ⟨h, hC.run _ _ h⟩
  | refused => exact h
  | performed hp => exact ⟨h.2.1.2.2 _ _ hp, h.2.2 _ _ hp⟩
  | interrupted hp => exact h.2.1.2.1 _ hp
  | returned => exact h.1
  | threw => exact h.1
  | crashed => exact h.holds hC

/-- A service that meets its contract keeps to it. -/
theorem Running.steps (hC : S.Meets C) {s s' : State σ E A ε Op} (h : S.Running C s)
    (hs : Relation.ReflTransGen S.Step s s') : S.Running C s' := by
  induction hs with
  | refl => exact h
  | tail _ hs ih => exact ih.step hC hs

/-- Where the first program has ended. -/
theorem Running.booted {w : σ} (h : S.Running C ⟨w, .booting (.done ())⟩) : C.booted w := h.2

/-- An effect that an operation performs is one that it may perform. -/
theorem Running.performing {w : σ} {op : Op} {e : E} {next : A e → Program E A ε Unit} {queue : List Op}
    (h : S.Running C ⟨w, .serving (some (op, .perform e next)) queue⟩) : C.may op e w := h.2.1.1

/-! ## Runs in which every effect has one answer -/

section Answering

variable (step : (e : E) → σ → A e × σ)

/-- What is left of a program before its first effect of a kind. -/
def before (stop : E → Bool) : Program E A ε Unit → σ → Program E A ε Unit × σ
  | .perform e next, w => if stop e then (.perform e next, w) else before stop (next (step e w).1) (step e w).2
  | p, w => (p, w)

/-- The world after some operations. -/
def after (S : Service σ E A ε Op) (ops : List Op) (w : σ) : σ :=
  ops.foldl (fun w op => ((S.run op).exec step w).2) w

variable {step} (hstep : ∀ e w, S.performs e w (step e w).1 (step e w).2)
include hstep

theorem steps_exec {op : Op} {queue : List Op} : ∀ (p : Program E A ε Unit) (w : σ),
    Relation.ReflTransGen S.Step ⟨w, .serving (some (op, p)) queue⟩ ⟨(p.exec step w).2, .serving none queue⟩
  | .done _, _ => .single .returned
  | .fail _, _ => .single .threw
  | .perform e next, w => .head (.performed (hstep e w)) (steps_exec (next (step e w).1) (step e w).2)

/-- A start whose program succeeds. -/
theorem steps_booting {w : σ} (h : (S.boot.exec step w).1 = .ok ()) :
    Relation.ReflTransGen S.Step ⟨w, .down⟩ ⟨(S.boot.exec step w).2, .booting (.done ())⟩ := by
  have hboot : ∀ (p : Program E A ε Unit) (w : σ), (p.exec step w).1 = .ok () →
      Relation.ReflTransGen S.Step ⟨w, .booting p⟩ ⟨(p.exec step w).2, .booting (.done ())⟩ := by
    intro p
    induction p with
    | done _ => exact fun _ _ => .refl
    | fail _ => exact nofun
    | perform e next ih => exact fun w h => .head (.bootPerformed (hstep e w)) (ih _ _ h)
  exact .head .started (hboot S.boot w h)

theorem steps_boot {w : σ} (h : (S.boot.exec step w).1 = .ok ()) :
    Relation.ReflTransGen S.Step ⟨w, .down⟩ ⟨(S.boot.exec step w).2, .serving none []⟩ :=
  (steps_booting hstep h).tail .booted

theorem steps_after : ∀ (ops : List Op) (w : σ),
    Relation.ReflTransGen S.Step ⟨w, .serving none []⟩ ⟨S.after step ops w, .serving none []⟩
  | [], _ => .refl
  | op :: ops, w => .head (.submitted op) (.head .begun
      ((steps_exec hstep (S.run op) w).trans (steps_after ops _)))

theorem steps_before {op : Op} {queue : List Op} (stop : E → Bool) : ∀ (p : Program E A ε Unit) (w : σ),
    Relation.ReflTransGen S.Step ⟨w, .serving (some (op, p)) queue⟩
      ⟨(before step stop p w).2, .serving (some (op, (before step stop p w).1)) queue⟩
  | .done _, _ => .refl
  | .fail _, _ => .refl
  | .perform e next, w => by
    rw [before]
    split
    · exact .refl
    · exact .head (.performed (hstep e w)) (steps_before stop (next (step e w).1) (step e w).2)

theorem reaches_before (stop : E → Bool) : ∀ (p : Program E A ε Unit) (w : σ),
    Reaches S.performs p w (before step stop p w).1 (before step stop p w).2
  | .done _, _ => .here
  | .fail _, _ => .here
  | .perform e next, w => by
    rw [before]
    split
    · exact .here
    · exact .perform (hstep e w) (reaches_before stop (next (step e w).1) (step e w).2)

end Answering

end Service

end Effectful
