/-
The rules for the programs of a worker: what holds before and after the write of a journal, a request and
the start of a container, and that everything else a worker does leaves the claims alone.
-/
import DimProofs.Host.Once

namespace Dim.Host

open Effectful

variable {W : Worker} {α β : Type} {watched : Stopped W → Prop} {w w' : World W}

/-- The program keeps `I` and ends as `Q` says, with an authority that answers no claim to two requests. -/
abbrev Keeps (I : World W → Prop) (p : HostProgram W α) (Q : Except NativeHostFailure α → World W → Prop)
    (w : World W) : Prop :=
  Safe (World.performs World.Consistent) I p Q w

/-- What holds when a program returns and what holds when it throws. -/
def Post (P : α → World W → Prop) (E : World W → Prop) : Except NativeHostFailure α → World W → Prop
  | .ok value, w => P value w
  | .error _, w => E w

theorem Post.guarded {P : α → World W → Prop} (hP : ∀ a w, P a w → Guarded watched w) :
    ∀ {r : Except NativeHostFailure α}, Post P (Guarded watched) r w → Guarded watched w
  | .ok _, h => hP _ _ h
  | .error _, h => h

variable {I : World W → Prop}

theorem keeps_orThrow {p : HostProgram W (Except NativeHostFailure α)}
    {Q : Except NativeHostFailure α → World W → Prop} (h : Keeps I p (Post Q fun w => ∀ f, Q (.error f) w) w) :
    Keeps I (orThrow p) Q w := by
  refine Safe.andThen (p := p) h (fun value w h => ?_) fun failure w h => h failure
  cases value with
  | ok value => exact h
  | error failure => exact h

/-! ## Quiet programs -/

/-- Nothing changes but the executor's variables and the ids that were drawn. -/
structure Same (w w' : World W) : Prop where
  journal : w'.journal = w.journal
  answered : w'.answered = w.answered
  starts : w'.starts = w.starts
  finishes : w'.finishes = w.finishes
  drawn : ∀ k ∈ w.drawn, k ∈ w'.drawn

theorem Same.refl (w : World W) : Same w w := ⟨rfl, rfl, rfl, rfl, fun _ h => h⟩

theorem Same.trans {w₁ w₂ w₃ : World W} (h : Same w₁ w₂) (h' : Same w₂ w₃) : Same w₁ w₃ :=
  ⟨h'.journal.trans h.journal, h'.answered.trans h.answered, h'.starts.trans h.starts, h'.finishes.trans h.finishes,
    fun k hk => h'.drawn k (h.drawn k hk)⟩

theorem Same.draw (w : World W) (id : String) : Same w (w.draw id) :=
  ⟨rfl, rfl, rfl, rfl, fun _ hk => List.mem_cons_of_mem _ hk⟩

theorem Same.pending (h : Same w w') : w'.pending = w.pending := by rw [World.pending, h.journal, World.pending]

/-- The program leaves the claims alone. -/
def Quiet (p : HostProgram W α) : Prop := ∀ w, Keeps (Same w) p (fun _ => Same w) w

namespace Quiet

theorem pure (value : α) : Quiet (Pure.pure value : HostProgram W α) := fun w => .refl w

theorem throw (failure : NativeHostFailure) : Quiet (MonadExcept.throw failure : HostProgram W α) := fun w => .refl w

theorem bind {p : HostProgram W α} {f : α → HostProgram W β} (hp : Quiet p) (hf : ∀ a, Quiet (f a)) :
    Quiet (p >>= f) := fun w =>
  (hp w).andThen (fun a w' hs => (hf a w').imp (fun _ hs' => hs.trans hs') fun _ _ hs' => hs.trans hs')
    fun _ _ hs => hs

theorem orThrow {p : HostProgram W (Except NativeHostFailure α)} (hp : Quiet p) : Quiet (Host.orThrow p) :=
  hp.bind fun
    | .ok value => pure value
    | .error failure => throw failure

theorem effect {e : Effect W} (he : ∀ w a w', World.performs World.Consistent e w a w' → Same w w') :
    Quiet (Program.effect e) := fun w a w' h => ⟨he w a w' h, he w a w' h⟩

theorem randomId : Quiet (Host.randomId (W := W)) := effect fun w id w' h => by
  obtain ⟨-, rfl⟩ := h
  exact .draw w id

theorem timestamp : Quiet (Host.timestamp (W := W)) := effect fun w _ w' h => by cases h; exact .refl w

theorem now : Quiet (Host.now (W := W)) := effect fun w _ w' h => by cases h; exact .refl w

theorem observe (o : Observation) : Quiet (Host.observe (W := W) o) := effect fun w _ w' h => by cases h; exact .refl w

theorem readOutput : Quiet (Host.readOutput (W := W)) := effect fun w _ w' h => by cases h; exact .refl w

theorem operation (o : HostOperation) : Quiet (Host.operation (W := W) o) :=
  orThrow (effect fun w _ w' h => by cases h; exact .refl w)

theorem collect (c : String) : Quiet (Host.collect (W := W) c) :=
  orThrow (effect fun w _ w' h => by cases h; exact .refl w)

theorem cleanupNativeContainer (c : String) : Quiet (Host.cleanupNativeContainer (W := W) c) :=
  orThrow (effect fun w _ w' h => by cases h; exact .refl w)

theorem cleanupPrivateRoot (privateRoot : NativeHostPrivateRootIdentity) (c : String) :
    Quiet (Host.cleanupPrivateRoot (W := W) privateRoot c) :=
  orThrow (effect fun w _ w' h => by cases h; exact .refl w)

theorem createRoot (rootId c : String) : Quiet (Host.createRoot (W := W) rootId c) :=
  orThrow (effect fun w _ w' h => by cases h; exact .refl w)

theorem readVars : Quiet (Host.readVars (W := W)) := effect fun w _ w' h => by
  obtain ⟨rfl, -⟩ := h
  exact .refl _

theorem setVars (vars : ExecutorVariables) : Quiet (Host.setVars (W := W) vars) := effect fun w _ w' h => by
  cases h
  exact ⟨rfl, rfl, rfl, rfl, fun k hk => hk⟩

theorem throwIf (condition : Bool) (failure : NativeHostFailure) : Quiet (Host.throwIf (W := W) condition failure) := by
  unfold Host.throwIf
  split
  · exact .throw failure
  · exact .pure ()

/-- A request that answers no claim and ends none. -/
theorem request {q : W.Request} (hc : ∀ r, W.claimed q r = none) (hf : ∀ r, W.finished q r = none) :
    Quiet (Host.request q) :=
  orThrow (effect fun w _ w' h => by
    rcases h with ⟨r, -, -, rfl⟩ | ⟨rfl, -⟩
    · exact ⟨rfl, by simp [World.receive, hc], rfl, by simp [World.receive, hf], fun k hk => hk⟩
    · exact .refl _)

end Quiet

/-! ## Where a worker stands -/

/-- The journal is empty. -/
structure Idle (watched : Stopped W → Prop) (w : World W) : Prop extends Guarded watched w where
  empty : w.journal = none

/-- The journal waits for the answer to a request. -/
structure Waiting (watched : Stopped W → Prop) (k : String) (w : World W) : Prop extends Guarded watched w where
  waits : w.pending = some k

/-- The request that the journal waits for was answered with a claim. -/
structure Granted (watched : Stopped W → Prop) (k c : String) (w : World W) : Prop extends Waiting watched k w where
  granted : (k, c) ∈ w.answered

/-- The request that the journal waits for was answered, with a claim or without. -/
def Offered (watched : Stopped W → Prop) (k : String) (offered : Option String) (w : World W) : Prop :=
  Waiting watched k w ∧ ∀ c, offered = some c → Granted watched k c w

/-- Every claim that is watched has ended. -/
structure Closing (watched : Stopped W → Prop) (w : World W) : Prop extends Guarded watched w where
  settled : ∀ x, watched x → x.Finished w

/-- A claim is executed. -/
structure Executing (watched : Stopped W → Prop) (c : String) (w : World W) : Prop extends Closing watched w where
  claimed : ∃ k, (k, c) ∈ w.answered
  waits : w.pending = none

/-- A claim is about to be started. -/
structure Fresh (watched : Stopped W → Prop) (c : String) (w : World W) : Prop extends Executing watched c w where
  unstarted : c ∉ w.starts
  unwatched : ∀ x, watched x → x.claimId ≠ c

/-- A journal was found. -/
structure Replaying (watched : Stopped W → Prop) (j : W.Journal) (w : World W) : Prop extends Guarded watched w where
  journaled : w.journal = some j

/-! ### They do not depend on what a quiet program changes -/

theorem Stopped.Finished.same {x : Stopped W} (h : x.Finished w) (hs : Same w w') : x.Finished w' := by
  unfold Stopped.Finished at h ⊢
  rwa [hs.finishes]

theorem World.Spent.same {c : String} (h : w.Spent c) (hs : Same w w') : w'.Spent c := by
  unfold World.Spent at h ⊢
  rwa [hs.answered, hs.pending]

theorem Guarded.same (h : Guarded watched w) (hs : Same w w') : Guarded watched w' where
  answered := by rw [hs.answered]; exact h.answered
  drawn := by rw [hs.answered]; exact fun k c hk => hs.drawn k (h.drawn k c hk)
  pending := by rw [hs.pending]; exact fun k hk => hs.drawn k (h.pending k hk)
  held := by rw [hs.journal, hs.answered]; exact h.held
  named := by rw [hs.journal, hs.answered]; exact h.named
  spent := by rw [hs.starts]; exact fun c hc => (h.spent c hc).same hs
  once := by rw [hs.starts]; exact h.once
  follows x hx := by
    obtain ⟨hstarts, hspent, hgrown, hfate⟩ := h.follows x hx
    refine ⟨by rw [hs.starts]; exact hstarts, hspent.same hs, by rw [hs.finishes]; exact hgrown, ?_⟩
    rw [hs.journal]
    exact hfate.imp id fun hf => hf.same hs

theorem Idle.same (h : Idle watched w) (hs : Same w w') : Idle watched w' :=
  { h.toGuarded.same hs with empty := hs.journal.trans h.empty }

theorem Waiting.same {k : String} (h : Waiting watched k w) (hs : Same w w') : Waiting watched k w' :=
  { h.toGuarded.same hs with waits := hs.pending.trans h.waits }

theorem Granted.same {k c : String} (h : Granted watched k c w) (hs : Same w w') : Granted watched k c w' :=
  { h.toWaiting.same hs with granted := by rw [hs.answered]; exact h.granted }

theorem Closing.same (h : Closing watched w) (hs : Same w w') : Closing watched w' :=
  { h.toGuarded.same hs with settled := fun x hx => (h.settled x hx).same hs }

theorem Executing.same {c : String} (h : Executing watched c w) (hs : Same w w') : Executing watched c w' :=
  { h.toClosing.same hs with claimed := by rw [hs.answered]; exact h.claimed, waits := hs.pending.trans h.waits }

theorem Fresh.same {c : String} (h : Fresh watched c w) (hs : Same w w') : Fresh watched c w' :=
  { h.toExecuting.same hs with unstarted := by rw [hs.starts]; exact h.unstarted, unwatched := h.unwatched }

theorem Replaying.same {j : W.Journal} (h : Replaying watched j w) (hs : Same w w') : Replaying watched j w' :=
  { h.toGuarded.same hs with journaled := hs.journal.trans h.journaled }

/-- An assertion that a quiet program keeps. -/
class Steady (watched : Stopped W → Prop) (P : World W → Prop) : Prop where
  same : ∀ {w w'}, P w → Same w w' → P w'
  guarded : ∀ {w}, P w → Guarded watched w

instance : Steady watched (Guarded watched) := ⟨.same, id⟩

instance : Steady watched (Idle watched) := ⟨.same, (·.toGuarded)⟩

instance {k : String} : Steady watched (Waiting watched k) := ⟨.same, (·.toGuarded)⟩

instance {k c : String} : Steady watched (Granted watched k c) := ⟨.same, (·.toGuarded)⟩

instance {k : String} {offered : Option String} : Steady watched (Offered watched k offered) :=
  ⟨fun h hs => ⟨h.1.same hs, fun c hc => (h.2 c hc).same hs⟩, (·.1.toGuarded)⟩

instance {c : String} : Steady watched (Executing watched c) := ⟨.same, (·.toGuarded)⟩

instance {c : String} : Steady watched (Fresh watched c) := ⟨.same, (·.toGuarded)⟩

instance {j : W.Journal} : Steady watched (Replaying watched j) := ⟨.same, (·.toGuarded)⟩

instance {P : α → World W → Prop} {E : World W → Prop} {a : α} [Steady watched (P a)] :
    Steady watched (Post P E (.ok a)) :=
  inferInstanceAs (Steady watched (P a))

instance {P : α → World W → Prop} {E : World W → Prop} {failure : NativeHostFailure} [Steady watched E] :
    Steady watched (Post P E (.error failure)) :=
  inferInstanceAs (Steady watched E)

variable {P : World W → Prop} [Steady watched P] {p : HostProgram W α}

theorem Quiet.keeps (hp : Quiet p) (h : P w) : Keeps (Guarded watched) p (fun _ => P) w :=
  (hp w).imp (fun _ hs => Steady.guarded (Steady.same watched h hs)) fun _ _ hs => Steady.same watched h hs

/-- A quiet program is followed by another. -/
theorem Quiet.andThen {f : α → HostProgram W β} (hp : Quiet p)
    {Q : Except NativeHostFailure β → World W → Prop} (h : P w)
    (hf : ∀ a w, P w → Keeps (Guarded watched) (f a) Q w) (he : ∀ failure w, P w → Q (.error failure) w) :
    Keeps (Guarded watched) (p >>= f) Q w :=
  (hp.keeps h).andThen hf he

/-! ### How they follow each other -/

theorem Closing.clear (h : Closing watched w) : Idle watched (w.save none) :=
  { h.toGuarded.clear h.settled with empty := rfl }

variable {j : W.Journal} {k : String}

/-- A new request is written to an empty journal. -/
theorem Idle.wait (h : Idle watched w) (hk : k ∈ w.drawn) (hnew : ∀ c, (k, c) ∉ w.answered)
    (hj : W.pending j = some k) (hheld : W.held j = none) : Waiting watched k (w.save (some j)) := by
  refine { h.toGuarded.save ?_ ?_ ?_ ?_ with waits := hj }
  · intro k' hk'
    rw [hj, Option.some.injEq] at hk'
    subst hk'
    exact ⟨hk, Or.inr hnew⟩
  · intro k' c hh
    rw [hheld] at hh
    cases hh
  · intro c hc
    rw [W.pending_of_claimOf hc] at hj
    cases hj
  · exact fun x hx => Or.inr (h.toGuarded.finished_of_empty h.empty hx)

theorem Waiting.closing {k : String} (h : Waiting watched k w) : Closing watched w :=
  { h with settled := fun _ hx => h.toGuarded.finished_of_pending h.waits hx }

variable {q : W.Request}

variable {r : W.Response q}

/-- A response to the request that the journal waits for. -/
theorem Waiting.receive (h : Waiting watched k w) (hr : w.Consistent q r)
    (hq : ∀ k' c, W.claimed q r = some (k', c) → k' = k) : Waiting watched k (w.receive q r) :=
  { h.toGuarded.receive hr fun k' c hc => by rw [hq k' c hc]; exact h.waits with waits := h.waits }

variable {c : String}

theorem Waiting.grant (h : Waiting watched k w) (hr : w.Consistent q r)
    (hq : W.claimed q r = some (k, c)) : Granted watched k c (w.receive q r) := by
  refine { h.receive hr ?_ with granted := ?_ }
  · intro k' c' hc
    rw [hq, Option.some.injEq, Prod.mk.injEq] at hc
    exact hc.1.symm
  · simp [World.receive, hq]

/-- The journal goes on waiting for the same request, now with its claim. -/
theorem Granted.hold (h : Granted watched k c w) (hheld : W.held j = some (k, c)) :
    Granted watched k c (w.save (some j)) := by
  have hj := W.pending_of_held hheld
  refine { h.toGuarded.save ?_ ?_ ?_ ?_ with waits := hj, granted := h.granted }
  · intro k' hk'
    rw [hj, Option.some.injEq] at hk'
    subst hk'
    exact ⟨h.pending k h.waits, Or.inl h.waits⟩
  · intro k' c' hh
    rw [hheld, Option.some.injEq, Prod.mk.injEq] at hh
    obtain ⟨rfl, rfl⟩ := hh
    exact h.granted
  · intro c' hc'
    rw [W.pending_of_claimOf hc'] at hj
    cases hj
  · exact fun x hx => Or.inr (h.closing.settled x hx)

theorem Executing.save (h : Executing watched c w) (hj : W.claimOf j = some c)
    (hheld : W.held j = none) : Executing watched c (w.save (some j)) := by
  have hpending := W.pending_of_claimOf hj
  refine { h.toGuarded.save ?_ ?_ ?_ ?_ with settled := h.settled, claimed := h.claimed, waits := hpending }
  · intro k hk
    rw [hpending] at hk
    cases hk
  · intro k c' hh
    rw [hheld] at hh
    cases hh
  · intro c' hc'
    rw [hj, Option.some.injEq] at hc'
    exact hc' ▸ h.claimed
  · exact fun x hx => Or.inr (h.settled x hx)

theorem Fresh.save (h : Fresh watched c w) (hj : W.claimOf j = some c)
    (hheld : W.held j = none) : Fresh watched c (w.save (some j)) :=
  { h.toExecuting.save hj hheld with unstarted := h.unstarted, unwatched := h.unwatched }

/-- The journal stops waiting for the request whose claim it names: nobody has started that claim. -/
theorem Granted.activate (h : Granted watched k c w) (hj : W.claimOf j = some c)
    (hheld : W.held j = none) : Fresh watched c (w.save (some j)) := by
  have hc := h.granted
  have hpending := W.pending_of_claimOf hj
  have hunspent : ¬ w.Spent c := by
    rintro ⟨k', hk', hne⟩
    rw [h.answered k' k c hk' hc] at hne
    exact hne h.waits
  refine { h.toGuarded.save ?_ ?_ ?_ ?_ with
    settled := h.closing.settled, claimed := ⟨k, hc⟩, waits := hpending, unstarted := fun hs => hunspent (h.spent c hs),
    unwatched := fun x hx he => hunspent (he ▸ (h.follows x hx).spent) }
  · intro k' hk'
    rw [hpending] at hk'
    cases hk'
  · intro k' c' hh
    rw [hheld] at hh
    cases hh
  · intro c' hc'
    rw [hj, Option.some.injEq] at hc'
    exact ⟨k, hc' ▸ hc⟩
  · exact fun x hx => Or.inr (h.closing.settled x hx)

theorem Fresh.start {c : String} (h : Fresh watched c w) : Executing watched c (w.start c) := by
  obtain ⟨k, hk⟩ := h.claimed
  have hspent : w.Spent c := ⟨k, hk, by rw [h.waits]; exact fun hn => by cases hn⟩
  exact { h.toGuarded.start hspent h.unstarted h.unwatched with
    settled := h.settled, claimed := h.claimed, waits := h.waits }

/-- A response that answers no claim. -/
theorem Executing.receive (h : Executing watched c w)
    (hq : W.claimed q r = none) : Executing watched c (w.receive q r) := by
  have hguarded : Guarded watched (w.receive q r) :=
    h.toGuarded.receive (fun k c hk => by rw [hq] at hk; cases hk) fun k c hk => by rw [hq] at hk; cases hk
  obtain ⟨k, hk⟩ := h.claimed
  exact { hguarded with
    settled := fun x hx => (h.settled x hx).receive q r
    claimed := ⟨k, List.mem_append_right _ hk⟩
    waits := h.waits }

/-- The recovery of the claim in the journal is written over it. -/
theorem Replaying.recover {j' : W.Journal} (h : Replaying watched j w) (hj : W.claimOf j = some c)
    (hj' : W.claimOf j' = some c) (hr : W.recovers j' = true) (hheld : W.held j' = none) :
    Replaying watched j' (w.save (some j')) := by
  have hpending := W.pending_of_claimOf hj'
  refine { h.toGuarded.save ?_ ?_ ?_ ?_ with journaled := rfl }
  · intro k hk
    rw [hpending] at hk
    cases hk
  · intro k c' hh
    rw [hheld] at hh
    cases hh
  · intro c' hc'
    rw [hj', Option.some.injEq] at hc'
    exact hc' ▸ h.named j c h.journaled hj
  · intro x hx
    rcases (h.follows x hx).fate with ⟨j₀, hj₀, hc⟩ | hf
    · -- the journal found is the stopped one or its recovery
      rw [h.journaled, Option.some.injEq] at hj₀
      subst hj₀
      refine Or.inl (Or.inr ⟨?_, hr⟩)
      rcases hc with rfl | ⟨hc, -⟩
      · rw [hj', hj]
      · rw [hj', ← hc, hj]
    · exact Or.inr hf

/-- A journal that holds an answered claim was found. -/
theorem Replaying.granted {j : W.Journal} {k c : String} (h : Replaying watched j w) (hj : W.held j = some (k, c)) :
    Granted watched k c w :=
  { h with
    waits := by rw [World.pending, h.journaled, Option.bind_some, W.pending_of_held hj]
    granted := h.held j k c h.journaled hj }

variable {f : Finish W.Result}

/-- The end that the journal allows is accepted. -/
theorem Replaying.finish
    (h : Replaying watched j w) (hq : W.claimed q r = none) (hf : W.finished q r = some f) (he : f.Ends j) :
    Closing watched (w.receive q r) := by
  have hguarded : Guarded watched (w.receive q r) :=
    h.toGuarded.receive (fun k c hk => by rw [hq] at hk; cases hk) fun k c hk => by rw [hq] at hk; cases hk
  refine { hguarded with settled := fun x hx => ?_ }
  have hx' := h.follows x hx
  rcases hx'.fate with ⟨j₀, hj₀, hc⟩ | hfin
  · rw [h.journaled, Option.some.injEq] at hj₀
    subst hj₀
    obtain ⟨earlier, hgrown⟩ := hx'.grown
    refine ⟨f :: earlier, by simp [World.receive, hf, hgrown], f, List.mem_cons_self, ?_⟩
    rcases hc with rfl | ⟨hc, hr⟩
    · exact he
    · cases f with
      | recovered c =>
        show W.claimOf x.journal = some c
        rw [← hc]
        exact he
      | reported result =>
        have hstored : W.stored j = some result := he
        rw [W.stored_of_recovers hr] at hstored
        cases hstored
  · exact hfin.receive q r

/-! ## The effects that change the world -/

variable {Q : Except NativeHostFailure Unit → World W → Prop}

theorem keeps_save
    (hI : I w) (hI' : I (w.save (some j))) (hok : Q (.ok ()) (w.save (some j))) (herror : Q (.error .journal) w)
    (herror' : Q (.error .journal) (w.save (some j))) : Keeps I (save j) Q w := by
  refine keeps_orThrow fun a w' hp => ?_
  rcases hp with ⟨rfl, rfl⟩ | ⟨rfl, rfl | rfl⟩
  · exact ⟨hI', hok⟩
  · exact ⟨hI, herror⟩
  · exact ⟨hI', herror'⟩

theorem keeps_clear
    (hI : I w) (hI' : I (w.save none)) (hok : Q (.ok ()) (w.save none)) (herror : Q (.error .journal) w)
    (herror' : Q (.error .journal) (w.save none)) : Keeps I clear Q w := by
  refine keeps_orThrow fun a w' hp => ?_
  rcases hp with ⟨rfl, rfl⟩ | ⟨rfl, rfl | rfl⟩
  · exact ⟨hI', hok⟩
  · exact ⟨hI, herror⟩
  · exact ⟨hI', herror'⟩

theorem keeps_request {Q : Except NativeHostFailure (W.Response q) → World W → Prop}
    (hI : I w) (hok : ∀ r, World.Consistent w q r → I (w.receive q r) ∧ Q (.ok r) (w.receive q r))
    (herror : ∀ f, Q (.error f) w) : Keeps I (request q) Q w := by
  refine keeps_orThrow fun a w' hp => ?_
  rcases hp with ⟨r, rfl, hr, rfl⟩ | ⟨rfl, f, rfl⟩
  · exact hok r hr
  · exact ⟨hI, herror f⟩

theorem keeps_run {Q : Except NativeHostFailure CommandResult → World W → Prop}
    (hI : I w) (hI' : I (w.start c)) (hok : ∀ r, Q (.ok r) (w.start c)) (herror : ∀ f, Q (.error f) w)
    (herror' : ∀ f, Q (.error f) (w.start c)) : Keeps I (runContainer c) Q w := by
  refine keeps_orThrow fun a w' hp => ?_
  rcases hp with rfl | ⟨rfl, f, rfl⟩
  · refine ⟨hI', ?_⟩
    cases a with
    | ok r => exact hok r
    | error f => exact herror' f
  · exact ⟨hI, herror f⟩

theorem Guarded.keeps_load (h : Guarded watched w) :
    Keeps (Guarded watched) load (Post (fun state w => Guarded watched w ∧ w.journal = state) (Guarded watched)) w := by
  refine keeps_orThrow fun a w' hp => ?_
  rcases hp with ⟨rfl, rfl | rfl⟩
  · exact ⟨h, h, rfl⟩
  · exact ⟨h, h⟩

theorem keeps_throwIf {condition : Bool} {failure : NativeHostFailure}
    (hok : condition = false → Q (.ok ()) w)
    (herror : condition = true → Q (.error failure) w) : Keeps I (throwIf condition failure) Q w := by
  unfold throwIf
  split
  · rename_i h
    exact herror h
  · rename_i h
    exact hok (by simpa using h)

theorem keeps_randomId {Q : Except NativeHostFailure String → World W → Prop}
    (h : ∀ id, id ∉ w.drawn → I (w.draw id) ∧ Q (.ok id) (w.draw id)) : Keeps I randomId Q w := by
  rintro id w' ⟨hid, rfl⟩
  exact h id hid

/-! ### From where a worker stands -/

/-- The id of a new request, which has no answer yet. -/
theorem Idle.keeps_randomId (h : Idle watched w) : Keeps (Guarded watched) Host.randomId
    (Post (fun id w => Idle watched w ∧ id ∈ w.drawn ∧ ∀ c, (id, c) ∉ w.answered) (Idle watched)) w := by
  refine Host.keeps_randomId fun id hid => ⟨h.toGuarded.draw id, h.same (.draw w id), List.mem_cons_self, fun c hc => ?_⟩
  exact hid (h.drawn id c hc)

theorem Idle.keeps_save (h : Idle watched w) (j : W.Journal) (hk : k ∈ w.drawn)
    (hnew : ∀ c, (k, c) ∉ w.answered) (hj : W.pending j = some k) (hheld : W.held j = none) :
    Keeps (Guarded watched) (Host.save j) (Post (fun _ => Waiting watched k) (Guarded watched)) w :=
  have hs := h.wait hk hnew hj hheld
  Host.keeps_save h.toGuarded hs.toGuarded hs h.toGuarded hs.toGuarded

theorem Granted.keeps_hold (h : Granted watched k c w) (j : W.Journal) (hj : W.held j = some (k, c)) :
    Keeps (Guarded watched) (Host.save j) (Post (fun _ => Granted watched k c) (Guarded watched)) w :=
  have hs := h.hold hj
  Host.keeps_save h.toGuarded hs.toGuarded hs h.toGuarded hs.toGuarded

theorem Granted.keeps_activate (h : Granted watched k c w) (j : W.Journal) (hj : W.claimOf j = some c)
    (hheld : W.held j = none) :
    Keeps (Guarded watched) (Host.save j) (Post (fun _ => Fresh watched c) (Guarded watched)) w :=
  have hs := h.activate hj hheld
  Host.keeps_save h.toGuarded hs.toGuarded hs h.toGuarded hs.toGuarded

theorem Fresh.keeps_save (h : Fresh watched c w) (j : W.Journal) (hj : W.claimOf j = some c)
    (hheld : W.held j = none) :
    Keeps (Guarded watched) (Host.save j) (Post (fun _ => Fresh watched c) (Executing watched c)) w :=
  have hs := h.save hj hheld
  Host.keeps_save h.toGuarded hs.toGuarded hs h.toExecuting hs.toExecuting

theorem Fresh.keeps_run (h : Fresh watched c w) :
    Keeps (Guarded watched) (Host.runContainer c) (Post (fun _ => Executing watched c) (Executing watched c)) w :=
  Host.keeps_run h.toGuarded h.start.toGuarded (fun _ => h.start) (fun _ => h.toExecuting) fun _ => h.start

theorem Executing.keeps_save (h : Executing watched c w) (j : W.Journal) (hj : W.claimOf j = some c)
    (hheld : W.held j = none) :
    Keeps (Guarded watched) (Host.save j) (Post (fun _ => Executing watched c) (Executing watched c)) w :=
  have hs := h.save hj hheld
  Host.keeps_save h.toGuarded hs.toGuarded hs h hs

theorem Executing.keeps_request (h : Executing watched c w) (q : W.Request) (hq : ∀ r, W.claimed q r = none) :
    Keeps (Guarded watched) (Host.request q) (Post (fun _ => Executing watched c) (Executing watched c)) w :=
  Host.keeps_request h.toGuarded (fun r _ => ⟨(h.receive (hq r)).toGuarded, h.receive (hq r)⟩) fun _ => h

/-- A journal that cannot be removed for sure is written again. -/
theorem Executing.keeps_clear (h : Executing watched c w) :
    Keeps (Guarded watched) Host.clear (Post (fun _ => Idle watched) (Executing watched c)) w :=
  have hs := h.toClosing.clear
  Host.keeps_clear h.toGuarded hs.toGuarded hs h
    { hs with settled := h.settled, claimed := h.claimed, waits := rfl }

theorem Closing.keeps_clear (h : Closing watched w) :
    Keeps (Guarded watched) Host.clear (Post (fun _ => Idle watched) (Guarded watched)) w :=
  have hs := h.clear
  Host.keeps_clear h.toGuarded hs.toGuarded hs h.toGuarded hs.toGuarded

theorem Replaying.keeps_recover (h : Replaying watched j w) (j' : W.Journal) (hj : W.claimOf j = some c)
    (hj' : W.claimOf j' = some c) (hr : W.recovers j' = true) (hheld : W.held j' = none) :
    Keeps (Guarded watched) (Host.save j') (Post (fun _ => Replaying watched j') (Guarded watched)) w :=
  have hs := h.recover hj hj' hr hheld
  Host.keeps_save h.toGuarded hs.toGuarded hs h.toGuarded hs.toGuarded

theorem Replaying.keeps_finish (h : Replaying watched j w) (q : W.Request)
    (hq : ∀ r, W.claimed q r = none) (hf : ∀ r, W.finished q r = some f) (he : f.Ends j) :
    Keeps (Guarded watched) (Host.request q) (Post (fun _ => Closing watched) (Replaying watched j)) w :=
  Host.keeps_request h.toGuarded (fun r _ => ⟨(h.finish (hq r) (hf r) he).toGuarded, h.finish (hq r) (hf r) he⟩) fun _ => h

/-- A request that may answer a claim is made again or for the first time. -/
theorem Waiting.keeps_request (h : Waiting watched k w) (q : W.Request) (offered : W.Response q → Option String)
    (hq : ∀ r, W.claimed q r = (offered r).map fun c => (k, c)) :
    Keeps (Guarded watched) (Host.request q) (Post (fun r => Offered watched k (offered r)) (Guarded watched)) w := by
  refine Host.keeps_request h.toGuarded (fun r hr => ?_) fun _ => h.toGuarded
  have hs : Waiting watched k (w.receive q r) := by
    refine h.receive hr fun k' c hc => ?_
    rw [hq, Option.map_eq_some_iff] at hc
    obtain ⟨_, -, hc⟩ := hc
    exact (congrArg Prod.fst hc).symm
  refine ⟨hs.toGuarded, hs, fun c hc => h.grant hr ?_⟩
  rw [hq, hc, Option.map_some]

/-! ### The ends of a claim -/

/-- The last of an execution: its journal is written, a request made, and the journal removed. -/
theorem Executing.keeps_end (h : Executing watched c w) (j : W.Journal) (hj : W.claimOf j = some c)
    (hheld : W.held j = none) {submit : HostProgram W Unit}
    (hs : ∀ w, Executing watched c w →
      Keeps (Guarded watched) submit (Post (fun _ => Executing watched c) (Executing watched c)) w) :
    Keeps (Guarded watched) (do Host.save j; submit; Host.clear) (Post (fun _ => Idle watched) (Executing watched c)) w := by
  refine (h.keeps_save j hj hheld).andThen (fun _ w h => ?_) fun _ _ h => h
  exact (hs w h).andThen (fun _ w h => h.keeps_clear) fun _ _ h => h

/-- The recovery of a claim whose journal was found. -/
theorem Replaying.keeps_recovery (h : Replaying watched j w) (j' : W.Journal)
    (hj : W.claimOf j = some c) (hj' : W.claimOf j' = some c) (hr : W.recovers j' = true) (hheld : W.held j' = none)
    {recover : HostProgram W Unit}
    (hs : ∀ w, Replaying watched j' w →
      Keeps (Guarded watched) recover (Post (fun _ => Closing watched) (Guarded watched)) w) :
    Keeps (Guarded watched) (do Host.save j'; recover; Host.clear) (Post (fun _ => Idle watched) (Guarded watched)) w := by
  refine (h.keeps_recover j' hj hj' hr hheld).andThen (fun _ w h => ?_) fun _ _ h => h
  exact (hs w h).andThen (fun _ w h => h.keeps_clear) fun _ _ h => h

/-- A stored result is submitted again, and its claim recovered only when it is refused for good. -/
theorem Replaying.keeps_result (h : Replaying watched j w) {definitive : NativeHostFailure → Bool}
    (hjournal : definitive .journal = false) {report recover : HostProgram W Unit}
    (hreport : ∀ w, Replaying watched j w → Keeps (Guarded watched) report (fun r w => match r with
      | .ok _ => Closing watched w
      | .error failure => Guarded watched w ∧ (definitive failure = true → Replaying watched j w)) w)
    (hrecover : ∀ w, Replaying watched j w →
      Keeps (Guarded watched) recover (Post (fun _ => Idle watched) (Guarded watched)) w) :
    Keeps (Guarded watched)
      (tryCatch (do report; Host.clear) fun failure => if definitive failure then recover else throw failure)
      (Post (fun _ => Idle watched) (Guarded watched)) w := by
  have hundecided : ∀ {P : Prop}, definitive .journal = true → P := fun hd => by rw [hjournal] at hd; cases hd
  refine Safe.orElse (P := fun r w => match r with
    | .ok _ => Idle watched w
    | .error failure => Guarded watched w ∧ (definitive failure = true → Replaying watched j w)) ?_ (fun _ _ h => h)
    fun failure w h => ?_
  · refine (hreport w h).andThen (fun _ w h => ?_) fun _ _ h => h
    exact Host.keeps_clear h.toGuarded h.clear.toGuarded h.clear ⟨h.toGuarded, hundecided⟩ ⟨h.clear.toGuarded, hundecided⟩
  · split
    · rename_i hd
      exact hrecover w (h.2 hd)
    · exact h.1

end Dim.Host
