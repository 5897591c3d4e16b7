/-
Programs over calls that return a value or throw. Where nothing goes wrong a call does what `perform` says, for
some choice of the environment (a fresh identifier, the time, the next request). Where calls may fail, a failed
call throws and leaves what `left` says.
-/
import DimProofs.Lib.Program

namespace Effectful

section Calls

variable {C σ ε Choice α β : Type} {V : C → Type}

/-- A call, whose error is thrown. -/
def call (c : C) : Program C (fun c => Except ε (V c)) ε (V c) :=
  (Program.effect c).bind fun
    | .ok value => .done value
    | .error failure => .fail failure

/-- What a call answers and does; it may fail only where `faulty`. -/
def Performs (perform : Choice → (c : C) → σ → Except ε (V c) × σ) (left : C → σ → σ → Prop) (faulty : Prop) (c : C) (w : σ)
    (answer : Except ε (V c)) (w' : σ) : Prop :=
  (∃ choice, perform choice c w = (answer, w')) ∨ (faulty ∧ ∃ failure, answer = .error failure ∧ left c w w')

variable {perform : Choice → (c : C) → σ → Except ε (V c) × σ} {left : C → σ → σ → Prop} {faulty : Prop}
  {I : σ → Prop} {w : σ}

theorem performs_perform (choice : Choice) (c : C) (w : σ) :
    Performs perform left faulty c w (perform choice c w).1 (perform choice c w).2 := .inl ⟨choice, rfl⟩

theorem safe_call {c : C} {Q : Except ε (V c) → σ → Prop}
    (hperform : ∀ choice answer w', perform choice c w = (answer, w') → I w' ∧ Q answer w')
    (hleft : faulty → ∀ failure w', left c w w' → I w' ∧ Q (.error failure) w') :
    Safe (Performs perform left faulty) I (call c) Q w := by
  rintro (failure | value) w' (⟨choice, h⟩ | ⟨hfaulty, failure', ha, h⟩)
  · exact hperform choice _ w' h
  · cases ha
    exact hleft hfaulty failure w' h
  · exact hperform choice _ w' h
  · cases ha

/-- A call that changes nothing, whether or not it fails. -/
def Still (perform : Choice → (c : C) → σ → Except ε (V c) × σ) (left : C → σ → σ → Prop) (c : C) : Prop :=
  (∀ choice w, (perform choice c w).2 = w) ∧ ∀ w w', left c w w' → w' = w

theorem safe_read {c : C} {Q : Except ε (V c) → σ → Prop} (hc : Still perform left c) (hI : I w)
    (hperform : ∀ choice, Q (perform choice c w).1 w) (hleft : faulty → ∀ failure, Q (.error failure) w) :
    Safe (Performs perform left faulty) I (call c) Q w := by
  refine safe_call (fun choice answer w' h => ?_) fun hfaulty failure w' h => ?_
  · obtain rfl : w' = w := by rw [← hc.1 choice w, h]
    refine ⟨hI, ?_⟩
    have hanswer := hperform choice
    rwa [h] at hanswer
  · obtain rfl := hc.2 w w' h
    exact ⟨hI, hleft hfaulty failure⟩

/-- A safe program, run where every call does one of the things it may do. -/
theorem Safe.exec {E : Type} {A : E → Type} {performs : (e : E) → σ → A e → σ → Prop} {step : (e : E) → σ → A e × σ}
    (hstep : ∀ e w, performs e w (step e w).1 (step e w).2) {Q : Except ε α → σ → Prop} :
    ∀ (p : Program E A ε α) {w : σ}, Safe performs I p Q w → Q (p.exec step w).1 (p.exec step w).2
  | .done _, _, h => h
  | .fail _, _, h => h
  | .perform e next, w, h => Safe.exec hstep (next _) (h _ _ (hstep e w)).2

/-! ## Programs that read -/

theorem reading_call {c : C} {R : Except ε (V c) → Prop} (hc : Still perform left c)
    (hperform : ∀ choice, R (perform choice c w).1) (hleft : faulty → ∀ failure, R (.error failure)) :
    Reading (Performs perform left faulty) (call c) R w :=
  safe_read hc rfl (fun choice => ⟨rfl, hperform choice⟩) fun hfaulty failure => ⟨rfl, hleft hfaulty failure⟩

end Calls

end Effectful
