/-
Calls that run side by side over one world. A call performs its effects one at a time, with any steps of the
others between them, and may crash between any two. `Amid` says what one call does, and what holds where it
ends, when all it knows of the others is the relation their steps obey; `Keeps` puts such facts together, one
for each call, and each of them may rely on what the others do (`Sound.steps`).
-/
import DimProofs.Lib.Program
import DimProofs.Lib.Run

namespace Effectful

open Relation

/-! ## One call among others -/

section Amid

variable {σ E ε α β : Type} {A : E → Type} (performs : (e : E) → σ → A e → σ → Prop) (I : σ → Prop)
  (does rely : σ → σ → Prop)

/-- Among steps of others that obey `rely`, every effect keeps `I` and obeys `does`; `Q` holds where the program ends
and from then on. -/
def Amid : Program E A ε α → (Except ε α → σ → Prop) → σ → Prop
  | .done value, Q, w => ∀ w', ReflTransGen rely w w' → Q (.ok value) w'
  | .fail failure, Q, w => ∀ w', ReflTransGen rely w w' → Q (.error failure) w'
  | .perform e next, Q, w => ∀ w₁, ReflTransGen rely w w₁ → I w₁ → ∀ a w₂, performs e w₁ a w₂ →
      I w₂ ∧ does w₁ w₂ ∧ Amid (next a) Q w₂

/-- The steps of others leave `S` as it is. -/
def Stable (S : σ → Prop) : Prop := ∀ w w', S w → rely w w' → S w'

variable {performs I does rely}

theorem Stable.star {S : σ → Prop} (hS : Stable rely S) {w w' : σ} (hw : S w) (h : ReflTransGen rely w w') : S w' := by
  induction h with
  | refl => exact hw
  | tail _ hstep ih => exact hS _ _ ih hstep

theorem Stable.and {S T : σ → Prop} (hS : Stable rely S) (hT : Stable rely T) : Stable rely fun w => S w ∧ T w :=
  fun w w' h hr => ⟨hS w w' h.1 hr, hT w w' h.2 hr⟩

theorem stable_true : Stable rely fun _ : σ => True := fun _ _ _ _ => trivial

/-- Steps of others come before the next effect as well as after it. -/
theorem Amid.later {Q : Except ε α → σ → Prop} {w w' : σ} (hr : ReflTransGen rely w w') :
    ∀ {p : Program E A ε α}, Amid performs I does rely p Q w → Amid performs I does rely p Q w'
  | .done _, h => fun w'' hr' => h w'' (hr.trans hr')
  | .fail _, h => fun w'' hr' => h w'' (hr.trans hr')
  | .perform _ _, h => fun w₁ hr' => h w₁ (hr.trans hr')

theorem Amid.mono {Q Q' : Except ε α → σ → Prop} (hQ : ∀ r w, Q r w → Q' r w) :
    ∀ {p : Program E A ε α} {w : σ}, Amid performs I does rely p Q w → Amid performs I does rely p Q' w
  | .done _, _, h => fun w' hr => hQ _ _ (h w' hr)
  | .fail _, _, h => fun w' hr => hQ _ _ (h w' hr)
  | .perform _ _, _, h => fun w₁ hr hI a w₂ hp =>
    ⟨(h w₁ hr hI a w₂ hp).1, (h w₁ hr hI a w₂ hp).2.1, (h w₁ hr hI a w₂ hp).2.2.mono hQ⟩

variable {S : σ → Prop}

/-- What neither the call nor the others change holds at the end as well. -/
theorem Amid.frame (hS : Stable rely S) (hdoes : ∀ w w', S w → does w w' → S w')
    {Q : Except ε α → σ → Prop} : ∀ {p : Program E A ε α} {w : σ}, S w → Amid performs I does rely p Q w →
      Amid performs I does rely p (fun r w => Q r w ∧ S w) w
  | .done _, _, hw, h => fun w' hr => ⟨h w' hr, hS.star hw hr⟩
  | .fail _, _, hw, h => fun w' hr => ⟨h w' hr, hS.star hw hr⟩
  | .perform _ _, _, hw, h => fun w₁ hr hI a w₂ hp =>
    have hdone := h w₁ hr hI a w₂ hp
    ⟨hdone.1, hdone.2.1, hdone.2.2.frame hS hdoes (hdoes _ _ (hS.star hw hr) hdone.2.1)⟩

variable {w : σ}

/-- The end of a program. -/
theorem amid_pure (hS : Stable rely S) (hw : S w) {value : α} {Q : Except ε α → σ → Prop}
    (hQ : ∀ w, S w → Q (.ok value) w) : Amid performs I does rely (pure value : Program E A ε α) Q w :=
  fun w' hr => hQ w' (hS.star hw hr)

theorem amid_throw (hS : Stable rely S) (hw : S w) {failure : ε} {Q : Except ε α → σ → Prop}
    (hQ : ∀ w, S w → Q (.error failure) w) : Amid performs I does rely (throw failure : Program E A ε α) Q w :=
  fun w' hr => hQ w' (hS.star hw hr)

/-- The rule of effects: what is known before an effect is what the others leave as it is. -/
theorem amid_effect (hS : Stable rely S) (hw : S w) {e : E} {f : A e → Program E A ε α}
    {Q : Except ε α → σ → Prop}
    (h : ∀ w₁ a w₂, S w₁ → I w₁ → performs e w₁ a w₂ → I w₂ ∧ does w₁ w₂ ∧ Amid performs I does rely (f a) Q w₂) :
    Amid performs I does rely (Program.effect e >>= f) Q w :=
  fun w₁ hr hI a w₂ hp => h w₁ a w₂ (hS.star hw hr) hI hp

/-- The rule of a last effect. -/
theorem amid_last (hS : Stable rely S) (hw : S w) {e : E} {T : A e → σ → Prop}
    (hT : ∀ a, Stable rely (T a)) {Q : Except ε (A e) → σ → Prop} (hQ : ∀ a w, T a w → Q (.ok a) w)
    (h : ∀ w₁ a w₂, S w₁ → I w₁ → performs e w₁ a w₂ → I w₂ ∧ does w₁ w₂ ∧ T a w₂) :
    Amid performs I does rely (Program.effect e) Q w :=
  fun w₁ hr hI a w₂ hp =>
    have hdone := h w₁ a w₂ (hS.star hw hr) hI hp
    ⟨hdone.1, hdone.2.1, fun w' hr' => hQ a w' ((hT a).star hdone.2.2 hr')⟩

/-- The rule of sequences. -/
theorem Amid.andThen {P : Except ε α → σ → Prop} {Q : Except ε β → σ → Prop} {f : α → Program E A ε β}
    (hok : ∀ value w, P (.ok value) w → Amid performs I does rely (f value) Q w)
    (herror : ∀ failure w, P (.error failure) w → Q (.error failure) w) :
    ∀ {p : Program E A ε α} {w : σ}, Amid performs I does rely p P w → Amid performs I does rely (p >>= f) Q w
  | .done value, w, h => hok value w (h w .refl)
  | .fail failure, _, h => fun w' hr => herror failure w' (h w' hr)
  | .perform _ _, _, h => fun w₁ hr hI a w₂ hp =>
    ⟨(h w₁ hr hI a w₂ hp).1, (h w₁ hr hI a w₂ hp).2.1, Amid.andThen hok herror (h w₁ hr hI a w₂ hp).2.2⟩

/-- The rule of handlers. -/
theorem Amid.orElse {P Q : Except ε α → σ → Prop} {handler : ε → Program E A ε α}
    (hok : ∀ value w, P (.ok value) w → Q (.ok value) w)
    (herror : ∀ failure w, P (.error failure) w → Amid performs I does rely (handler failure) Q w) :
    ∀ {p : Program E A ε α} {w : σ}, Amid performs I does rely p P w →
      Amid performs I does rely (tryCatch p handler) Q w
  | .done value, _, h => fun w' hr => hok value w' (h w' hr)
  | .fail failure, w, h => herror failure w (h w .refl)
  | .perform _ _, _, h => fun w₁ hr hI a w₂ hp =>
    ⟨(h w₁ hr hI a w₂ hp).1, (h w₁ hr hI a w₂ hp).2.1, Amid.orElse hok herror (h w₁ hr hI a w₂ hp).2.2⟩

/-- A program whose effects all keep what is known of the world. -/
theorem Program.Every.amid {P : E → Prop} (hS : Stable rely S)
    (hkeeps : ∀ e w a w', P e → S w → I w → performs e w a w' → I w' ∧ does w w' ∧ S w') :
    ∀ {p : Program E A ε α} {w : σ}, p.Every P → S w → Amid performs I does rely p (fun _ => S) w
  | .done _, _, _, hw => fun _ hr => hS.star hw hr
  | .fail _, _, _, hw => fun _ hr => hS.star hw hr
  | .perform e _, _, h, hw => fun _ hr hI a w₂ hp =>
    have hdone := hkeeps e _ a w₂ h.1 (hS.star hw hr) hI hp
    ⟨hdone.1, hdone.2.1, (h.2 a).amid hS hkeeps hdone.2.2⟩

/-- What the last part of a `finally` leaves: its own failure replaces the outcome `r` of the program before it. -/
def Finally (Q : Except ε α → σ → Prop) (r : Except ε α) : Except ε Unit → σ → Prop
  | .ok _, w => Q r w
  | .error failure, w => Q (.error failure) w

/-- What the handler of a `finally` leaves: a value as it was, or the failure it throws again. -/
def Rethrown (P Q : Except ε α → σ → Prop) : Except ε α → σ → Prop
  | .ok value, w => P (.ok value) w
  | .error failure, w => Q (.error failure) w

variable {last : Program E A ε Unit} {p : Program E A ε α}

/-- The rule of `finally`: its last part may rely on how the program ended. -/
theorem Amid.andFinally {P Q : Except ε α → σ → Prop}
    (hQ : ∀ r, Stable rely (Q r)) (hp : Amid performs I does rely p P w)
    (hlast : ∀ r w, P r w → Amid performs I does rely last (Finally Q r) w) :
    Amid performs I does rely (p.tryFinally last) Q w := by
  have hhandler : Amid performs I does rely (tryCatch p fun failure => last >>= fun _ => throw failure)
      (Rethrown P Q) w := by
    refine Amid.orElse (P := P) (fun value w h => ?_) (fun failure w h => ?_) hp
    · exact h
    · refine Amid.andThen (P := Finally Q (.error failure)) (fun _ w h => ?_) (fun _ _ h => ?_) (hlast _ w h)
      · exact amid_throw (hQ _) h fun _ h => h
      · exact h
  refine Amid.andThen (p := tryCatch p fun failure => last >>= fun _ => throw failure)
    (f := fun value => last >>= fun _ => pure value) (fun value w h => ?_) (fun failure w h => ?_) hhandler
  · refine Amid.andThen (P := Finally Q (.ok value)) (fun _ w h => ?_) (fun _ _ h => ?_) (hlast _ w h)
    · exact amid_pure (hQ _) h fun _ h => h
    · exact h
  · exact h

/-- The rule of `finally`, where nothing is asked of the outcome. -/
theorem Amid.withFinally {P : σ → Prop} (hp : Amid performs I does rely p (fun _ => P) w)
    (hlast : ∀ w, P w → Amid performs I does rely last (fun _ _ => True) w) :
    Amid performs I does rely (p.tryFinally last) (fun _ _ => True) w := by
  refine Amid.andFinally (P := fun _ => P) (fun _ => stable_true) hp fun r w h => (hlast w h).mono fun s w _ => ?_
  cases s <;> trivial

end Amid

/-! ## All calls together -/

/-- What a call runs, what its beginning records in the world, what its effects do, and what is left when it crashes. -/
structure Concurrent (σ E : Type) (A : E → Type) (ε Op α : Type) where
  run : Op → Program E A ε α
  begins : Op → σ → σ
  performs : Nat → (e : E) → σ → A e → σ → Prop
  crashes : Nat → σ → σ

namespace Concurrent

variable {σ E ε Op α : Type} {A : E → Type}

/-- A call and what is left of its program, unless it has crashed. -/
structure Call (E : Type) (A : E → Type) (ε Op α : Type) where
  op : Op
  rest : Option (Program E A ε α)

/-- The world, and all calls in the order they began in: a call is known by its position. -/
structure State (σ E : Type) (A : E → Type) (ε Op α : Type) where
  world : σ
  calls : List (Call E A ε Op α)

/-- The steps that a run is made of: the calls that begin, a condition on the effects and answers of a call, and one on
its crash. -/
structure Permits (σ E : Type) (A : E → Type) (Op : Type) where
  begins : Op → Prop
  effect : Op → (e : E) → σ → A e → Prop
  crash : Nat → σ → Prop

/-- Any call may begin, do whatever its world lets it do, and crash at any time. -/
def Permits.all : Permits σ E A Op := ⟨fun _ => True, fun _ _ _ _ => True, fun _ _ => True⟩

variable (M : Concurrent σ E A ε Op α) (P : Permits σ E A Op)

/-- A step of call `i`. -/
inductive Step : Nat → State σ E A ε Op α → State σ E A ε Op α → Prop
  | began {w : σ} {calls : List (Call E A ε Op α)} {op : Op} (hpermit : P.begins op) :
      Step calls.length ⟨w, calls⟩ ⟨M.begins op w, calls ++ [⟨op, some (M.run op)⟩]⟩
  | performed {w w' : σ} {calls : List (Call E A ε Op α)} {i : Nat} {op : Op} {e : E} {next : A e → Program E A ε α}
      {a : A e} (hcall : calls[i]? = some ⟨op, some (.perform e next)⟩) (hpermit : P.effect op e w a)
      (hperforms : M.performs i e w a w') : Step i ⟨w, calls⟩ ⟨w', calls.set i ⟨op, some (next a)⟩⟩
  | crashed {w : σ} {calls : List (Call E A ε Op α)} {i : Nat} {op : Op} {p : Program E A ε α}
      (hcall : calls[i]? = some ⟨op, some p⟩) (hpermit : P.crash i w) :
      Step i ⟨w, calls⟩ ⟨M.crashes i w, calls.set i ⟨op, none⟩⟩

/-- A step of some call that changes the world as `K` allows. -/
def Moves (K : σ → σ → Prop) (s s' : State σ E A ε Op α) : Prop := (∃ i, M.Step P i s s') ∧ K s.world s'.world

/-- What a call does under `P`. -/
def Allowed (i : Nat) (op : Op) (e : E) (w : σ) (a : A e) (w' : σ) : Prop := P.effect op e w a ∧ M.performs i e w a w'

variable (I : σ → Prop) (D : Nat → σ → σ → Prop)

/-- What call `i` knows of a step of another. -/
def Rely (i : Nat) (w w' : σ) : Prop := I w ∧ I w' ∧ ∃ j, j ≠ i ∧ D j w w'

variable (Idle : Nat → σ → Prop) (Q : Nat → Op → Except ε α → σ → Prop)

/-- Every call keeps `I`, changes the world as `D` says of it, and ends as `Q` says; `Idle` is what is known of a call
that has not begun. -/
structure Keeps : Prop where
  idle : ∀ i w w', Idle i w → Rely I D i w w' → Idle i w'
  begins : ∀ i op w, P.begins op → I w → Idle i w → I (M.begins op w) ∧ D i w (M.begins op w) ∧
    Amid (M.Allowed P i op) I (D i) (Rely I D i) (M.run op) (Q i op) (M.begins op w)
  crashes : ∀ i w, I w → P.crash i w → I (M.crashes i w) ∧ D i w (M.crashes i w)

/-- The invariant, with what is known of every call. -/
structure Sound (s : State σ E A ε Op α) : Prop where
  world : I s.world
  running : ∀ i op p, s.calls[i]? = some ⟨op, some p⟩ → Amid (M.Allowed P i op) I (D i) (Rely I D i) p (Q i op) s.world
  idle : ∀ i, s.calls.length ≤ i → Idle i s.world

variable {M P I D Idle Q} {s s' : State σ E A ε Op α} {i : Nat}

/-- The other calls stay where they are. -/
theorem Step.other (h : M.Step P i s s') {k : Nat} (hk : k ≠ i) : s'.calls[k]? = s.calls[k]? := by
  cases h with
  | began =>
    rename_i w calls op hpermit
    rcases Nat.lt_trichotomy k calls.length with hlt | heq | hgt
    · exact List.getElem?_append_left hlt
    · exact absurd heq hk
    · rw [List.getElem?_eq_none (by simp only [List.length_append, List.length_singleton]; omega),
        List.getElem?_eq_none hgt.le]
  | performed => exact List.getElem?_set_ne hk.symm
  | crashed => exact List.getElem?_set_ne hk.symm

theorem Step.length (h : M.Step P i s s') : s.calls.length ≤ s'.calls.length := by
  cases h <;> simp

theorem Step.lt (h : M.Step P i s s') : i < s'.calls.length := by
  cases h with
  | began => simp
  | performed hcall => simpa using (List.getElem?_eq_some_iff.mp hcall).1
  | crashed hcall => simpa using (List.getElem?_eq_some_iff.mp hcall).1

/-- What a step does to the world. -/
theorem Sound.does (hM : M.Keeps P I D Idle Q) (h : M.Sound P I D Idle Q s) (hs : M.Step P i s s') :
    I s'.world ∧ D i s.world s'.world := by
  cases hs with
  | began hpermit =>
    have hbegins := hM.begins _ _ _ hpermit h.world (h.idle _ (le_refl _))
    exact ⟨hbegins.1, hbegins.2.1⟩
  | performed hcall hpermit hperforms =>
    have hdone := h.running _ _ _ hcall _ .refl h.world _ _ ⟨hpermit, hperforms⟩
    exact ⟨hdone.1, hdone.2.1⟩
  | crashed _ hpermit => exact hM.crashes _ _ h.world hpermit

theorem Sound.rely (hM : M.Keeps P I D Idle Q) (h : M.Sound P I D Idle Q s) (hs : M.Step P i s s') {k : Nat}
    (hk : k ≠ i) : Rely I D k s.world s'.world :=
  ⟨h.world, (h.does hM hs).1, i, Ne.symm hk, (h.does hM hs).2⟩

variable {op : Op} {p : Program E A ε α}

/-- What is known of a call after its own step. -/
theorem Sound.own (hM : M.Keeps P I D Idle Q) (h : M.Sound P I D Idle Q s) (hs : M.Step P i s s')
    (hcall : s'.calls[i]? = some ⟨op, some p⟩) :
    Amid (M.Allowed P i op) I (D i) (Rely I D i) p (Q i op) s'.world := by
  cases hs with
  | began hpermit =>
    rw [List.getElem?_append_right (le_refl _), Nat.sub_self] at hcall
    cases hcall
    exact (hM.begins _ op _ hpermit h.world (h.idle _ (le_refl _))).2.2
  | performed hcall' hpermit hperforms =>
    rw [List.getElem?_set_self (List.getElem?_eq_some_iff.mp hcall').1] at hcall
    cases hcall
    exact (h.running _ _ _ hcall' _ .refl h.world _ _ ⟨hpermit, hperforms⟩).2.2
  | crashed hcall' _ =>
    rw [List.getElem?_set_self (List.getElem?_eq_some_iff.mp hcall').1] at hcall
    cases hcall

theorem Sound.step (hM : M.Keeps P I D Idle Q) (h : M.Sound P I D Idle Q s) (hs : M.Step P i s s') :
    M.Sound P I D Idle Q s' := by
  refine ⟨(h.does hM hs).1, fun k op p hcall => ?_, fun k hk => ?_⟩
  · by_cases hki : k = i
    · subst hki
      exact h.own hM hs hcall
    · rw [hs.other hki] at hcall
      exact (h.running k op p hcall).later (.single (h.rely hM hs hki))
  · exact hM.idle k _ _ (h.idle k (hs.length.trans hk))
      (h.rely hM hs (Nat.ne_of_gt (Nat.lt_of_lt_of_le hs.lt hk)))

/-- The calls keep what they promise, in whatever order their steps come. -/
theorem Sound.steps (hM : M.Keeps P I D Idle Q) {K : σ → σ → Prop} (h : M.Sound P I D Idle Q s)
    (hs : ReflTransGen (M.Moves P K) s s') : M.Sound P I D Idle Q s' := by
  induction hs with
  | refl => exact h
  | tail _ hs ih =>
    obtain ⟨⟨i, hstep⟩, -⟩ := hs
    exact ih.step hM hstep

/-- A call that goes on while the others wait. -/
theorem moves_of_reaches {rest : Program E A ε α} {w w' : σ} (hr : Reaches (M.Allowed P i op) p w rest w') :
    ∀ {calls : List (Call E A ε Op α)}, calls[i]? = some ⟨op, some p⟩ →
      ReflTransGen (M.Moves P fun _ _ => True) ⟨w, calls⟩ ⟨w', calls.set i ⟨op, some rest⟩⟩ := by
  induction hr with
  | here =>
    intro calls hcall
    obtain ⟨hi, hget⟩ := List.getElem?_eq_some_iff.mp hcall
    rw [← hget, List.set_getElem_self]
  | @perform e next a w w₁ w₂ rest hp _ ih =>
    intro calls hcall
    have hi := (List.getElem?_eq_some_iff.mp hcall).1
    have hrest := ih (List.getElem?_set_self (a := ⟨op, some (next a)⟩) hi)
    rw [List.set_set] at hrest
    exact .head ⟨⟨i, .performed hcall hp.1 hp.2⟩, trivial⟩ hrest

/-- A call that has ended has kept its promise. -/
theorem Sound.ended (h : M.Sound P I D Idle Q s) {value : α} (hcall : s.calls[i]? = some ⟨op, some (.done value)⟩) :
    Q i op (.ok value) s.world :=
  h.running i op _ hcall _ .refl

theorem Sound.failed (h : M.Sound P I D Idle Q s) {op : Op} {failure : ε}
    (hcall : s.calls[i]? = some ⟨op, some (.fail failure)⟩) : Q i op (.error failure) s.world :=
  h.running i op _ hcall _ .refl

/-! ### A stretch of a run -/

section Stretch

variable {K : σ → σ → Prop} {R : Nat → Op → Except ε α → σ → Prop}

/-- What every step of a stretch keeps, it obeys as well. -/
theorem Sound.keeping (hM : M.Keeps P I D Idle Q) (h : M.Sound P I D Idle Q s) {S : σ → Prop}
    (hS : ∀ i w w', I w → S w → D i w w' → K w w' → S w') (hw : S s.world) (hs : ReflTransGen (M.Moves P K) s s') :
    S s'.world ∧ ReflTransGen (M.Moves P fun w w' => K w w' ∧ S w') s s' := by
  induction hs with
  | refl => exact ⟨hw, .refl⟩
  | @tail t t' hst hs ih =>
    have ht := h.steps hM hst
    obtain ⟨⟨j, hstep⟩, hK⟩ := hs
    have hnext := hS j _ _ ht.world ih.1 (ht.does hM hstep).2 hK
    exact ⟨hnext, ih.2.tail ⟨⟨j, hstep⟩, hK, hnext⟩⟩

/-- What is known of the calls that begin in a stretch of a run in which every step obeys `K`. -/
structure Followed (M : Concurrent σ E A ε Op α) (P : Permits σ E A Op) (I : σ → Prop) (D : Nat → σ → σ → Prop)
    (K : σ → σ → Prop) (R : Nat → Op → Except ε α → σ → Prop) (s s' : State σ E A ε Op α) : Prop where
  length : s.calls.length ≤ s'.calls.length
  waiting : ∀ i, s'.calls.length ≤ i → ReflTransGen (fun w w' => Rely I D i w w' ∧ K w w') s.world s'.world
  running : ∀ i op p, s.calls.length ≤ i → s'.calls[i]? = some ⟨op, some p⟩ →
    Amid (fun e w a w' => M.Allowed P i op e w a w' ∧ K w w') I (D i) (fun w w' => Rely I D i w w' ∧ K w w') p (R i op)
      s'.world

/-- The calls that begin in a stretch of a run may also rely on what every step of that stretch obeys. -/
theorem Sound.followed (hM : M.Keeps P I D Idle Q) (h : M.Sound P I D Idle Q s)
    (hbegins : ∀ i op w, P.begins op → ReflTransGen (fun w w' => Rely I D i w w' ∧ K w w') s.world w → I w → Idle i w →
      K w (M.begins op w) →
        Amid (fun e w a w' => M.Allowed P i op e w a w' ∧ K w w') I (D i) (fun w w' => Rely I D i w w' ∧ K w w')
          (M.run op) (R i op) (M.begins op w))
    (hs : ReflTransGen (M.Moves P K) s s') : Followed M P I D K R s s' := by
  induction hs with
  | refl =>
    refine ⟨le_refl _, fun _ _ => .refl, fun i op p hi hcall => ?_⟩
    rw [List.getElem?_eq_none hi] at hcall
    cases hcall
  | @tail t t' hst hs ih =>
    have ht := h.steps hM hst
    obtain ⟨⟨j, hstep⟩, hK⟩ := hs
    refine ⟨ih.length.trans hstep.length, fun i hi => ?_, fun i op p hi hcall => ?_⟩
    · exact (ih.waiting i (hstep.length.trans hi)).tail
        ⟨ht.rely hM hstep (Nat.ne_of_gt (Nat.lt_of_lt_of_le hstep.lt hi)), hK⟩
    · by_cases hij : i = j
      · subst hij
        cases hstep with
        | began hpermit =>
          rw [List.getElem?_append_right (le_refl _), Nat.sub_self] at hcall
          cases hcall
          exact hbegins _ op _ hpermit (ih.waiting _ (le_refl _)) ht.world (ht.idle _ (le_refl _)) hK
        | performed hcall' hpermit hperforms =>
          rw [List.getElem?_set_self (List.getElem?_eq_some_iff.mp hcall').1] at hcall
          cases hcall
          exact (ih.running _ _ _ hi hcall' _ .refl ht.world _ _ ⟨⟨hpermit, hperforms⟩, hK⟩).2.2
        | crashed hcall' _ =>
          rw [List.getElem?_set_self (List.getElem?_eq_some_iff.mp hcall').1] at hcall
          cases hcall
      · rw [hstep.other hij] at hcall
        exact (ih.running i op p hi hcall).later (.single ⟨ht.rely hM hstep hij, hK⟩)

/-- A call that began in the stretch and has ended has kept what it promised of it. -/
theorem Followed.ended (h : Followed M P I D K R s s') {op : Op} {value : α} (hi : s.calls.length ≤ i)
    (hcall : s'.calls[i]? = some ⟨op, some (.done value)⟩) : R i op (.ok value) s'.world :=
  h.running i op _ hi hcall _ .refl

end Stretch

/-! ### Runs that are computed -/

section Computed

variable {C : Type} (perform : C → Nat → (e : E) → σ → Option (A e × σ)) (effects : Op → (e : E) → σ → A e → Bool)

/-- What happens next: a call begins, does its next effect, or crashes. -/
inductive Event (C Op : Type) where
  | begins (op : Op)
  | performs (call : Nat) (choice : C)
  | crashes (call : Nat)

def follow (M : Concurrent σ E A ε Op α) (s : State σ E A ε Op α) : Event C Op → Option (State σ E A ε Op α)
  | .begins op => some ⟨M.begins op s.world, s.calls ++ [⟨op, some (M.run op)⟩]⟩
  | .performs i choice =>
    match s.calls[i]? with
    | some ⟨op, some (.perform e next)⟩ =>
      match perform choice i e s.world with
      | some (a, w) => if effects op e s.world a then some ⟨w, s.calls.set i ⟨op, some (next a)⟩⟩ else none
      | none => none
    | _ => none
  | .crashes i =>
    match s.calls[i]? with
    | some ⟨op, some _⟩ => some ⟨M.crashes i s.world, s.calls.set i ⟨op, none⟩⟩
    | _ => none

def followAll (M : Concurrent σ E A ε Op α) : List (Event C Op) → State σ E A ε Op α → Option (State σ E A ε Op α)
  | [], s => some s
  | event :: events, s => (follow perform effects M s event).bind (followAll M events)

variable {perform effects}

theorem moves_of_follow {event : Event C Op} (hperform : ∀ choice i e w a w', perform choice i e w = some (a, w') →
    M.performs i e w a w') (heffects : ∀ op e w a, effects op e w a = true → P.effect op e w a)
    (hbegins : ∀ op, event = .begins op → P.begins op) (hcrashes : ∀ i w, event = .crashes i → P.crash i w)
    (h : follow perform effects M s event = some s') : M.Moves P (fun _ _ => True) s s' := by
  cases event with
  | begins op =>
    obtain rfl := Option.some.inj h
    exact ⟨⟨_, .began (hbegins op rfl)⟩, trivial⟩
  | performs i choice =>
    simp only [follow] at h
    split at h
    · rename_i op e next hcall
      split at h
      · rename_i a w hp
        split at h
        · rename_i hpermit
          obtain rfl := Option.some.inj h
          exact ⟨⟨i, .performed hcall (heffects _ _ _ _ hpermit) (hperform _ _ _ _ _ _ hp)⟩, trivial⟩
        · cases h
      · cases h
    · cases h
  | crashes i =>
    simp only [follow] at h
    split at h
    · rename_i op p hcall
      obtain rfl := Option.some.inj h
      exact ⟨⟨i, .crashed hcall (hcrashes i _ rfl)⟩, trivial⟩
    · cases h

theorem moves_of_followAll (hperform : ∀ choice i e w a w', perform choice i e w = some (a, w') → M.performs i e w a w')
    (heffects : ∀ op e w a, effects op e w a = true → P.effect op e w a) {events : List (Event C Op)}
    (hbegins : ∀ op, .begins op ∈ events → P.begins op) (hcrashes : ∀ i w, .crashes i ∈ events → P.crash i w)
    (h : followAll perform effects M events s = some s') : ReflTransGen (M.Moves P fun _ _ => True) s s' := by
  induction events generalizing s with
  | nil =>
    obtain rfl := Option.some.inj h
    exact .refl
  | cons event events ih =>
    obtain ⟨t, ht, hrest⟩ := Option.bind_eq_some_iff.mp h
    refine .head (moves_of_follow hperform heffects ?_ ?_ ht) (ih ?_ ?_ hrest)
    · rintro op rfl
      exact hbegins op List.mem_cons_self
    · rintro i w rfl
      exact hcrashes i w List.mem_cons_self
    · exact fun op hop => hbegins op (List.mem_cons_of_mem _ hop)
    · exact fun i w hi => hcrashes i w (List.mem_cons_of_mem _ hi)

end Computed

end Concurrent

end Effectful
