/-
When a container may be started. A claim is answered to one request only and a request is made under a
new id, so a claim can be started once more only while the journal still waits for its request; a worker
leaves that phase before it starts the container. `Stopped` is a worker that stopped with a claim in its
journal that it may have started, and `Follows` what may happen to that claim from there on.
-/
import DimProofs.Host.Worker

namespace Dim.Host

open Effectful

variable {W : Worker}

/-! ## Stopped workers -/

/-- The journal of the same claim: as it was, or the recovery of the claim. -/
def Continues (journal journal' : W.Journal) : Prop :=
  journal' = journal ∨ (W.claimOf journal' = W.claimOf journal ∧ W.recovers journal' = true)

/-- The end that the journal allows: its stored result was accepted, or its claim was recovered. -/
def Finish.Ends (journal : W.Journal) : Finish W.Result → Prop
  | .reported result => W.stored journal = some result
  | .recovered claimId => W.claimOf journal = some claimId

/-- A world in which a worker stopped, with the journal of a claim that may have been started. -/
structure Stopped (W : Worker) where
  world : World W
  journal : W.Journal
  claimId : String
  journaled : world.journal = some journal
  named : W.claimOf journal = some claimId

/-- The claim has ended since. -/
def Stopped.Finished (x : Stopped W) (w : World W) : Prop :=
  ∃ later, w.finishes = later ++ x.world.finishes ∧ ∃ f ∈ later, f.Ends x.journal

namespace World

/-- A response answers no claim that was answered to another request. -/
def Consistent : Service W := fun w request response =>
  ∀ k c, W.claimed request response = some (k, c) → ∀ k', (k', c) ∈ w.answered → k' = k

/-- The claim was answered, and the journal does not wait for its request. -/
def Spent (w : World W) (claimId : String) : Prop := ∃ k, (k, claimId) ∈ w.answered ∧ w.pending ≠ some k

structure Inv (w : World W) : Prop where
  answered : ∀ k k' c, (k, c) ∈ w.answered → (k', c) ∈ w.answered → k = k'
  drawn : ∀ k c, (k, c) ∈ w.answered → k ∈ w.drawn
  pending : ∀ k, w.pending = some k → k ∈ w.drawn
  held : ∀ j k c, w.journal = some j → W.held j = some (k, c) → (k, c) ∈ w.answered
  named : ∀ j c, w.journal = some j → W.claimOf j = some c → ∃ k, (k, c) ∈ w.answered
  spent : ∀ c ∈ w.starts, w.Spent c
  once : w.starts.Nodup

end World

/-- What became of the claim: it was not started again, and its journal goes on until it ended. -/
structure Stopped.Follows (x : Stopped W) (w : World W) : Prop where
  starts : w.starts.count x.claimId = x.world.starts.count x.claimId
  spent : w.Spent x.claimId
  grown : x.world.finishes <:+ w.finishes
  fate : (∃ j, w.journal = some j ∧ Continues x.journal j) ∨ x.Finished w

/-- The invariant of a worker, with the claims that are watched since they stopped. -/
structure Guarded (watched : Stopped W → Prop) (w : World W) : Prop extends World.Inv w where
  follows : ∀ x, watched x → x.Follows w

variable {watched : Stopped W → Prop} {w w' : World W}

/-! ## What one effect does to the invariant -/

theorem World.Inv.initial (vars : ExecutorVariables) : World.Inv (World.initial vars : World W) where
  answered _ _ _ h := by cases h
  drawn _ _ h := by cases h
  pending _ h := by cases h
  held _ _ _ h := by cases h
  named _ _ h := by cases h
  spent _ h := by cases h
  once := List.nodup_nil

/-- A stopped claim that is not finished is still in the journal. -/
theorem Guarded.finished_of_pending (h : Guarded watched w) {k : String} (hk : w.pending = some k) {x : Stopped W}
    (hx : watched x) : x.Finished w := by
  refine (h.follows x hx).fate.resolve_left ?_
  rintro ⟨j, hj, hc⟩
  rw [World.pending, hj, Option.bind_some] at hk
  have hnamed : W.claimOf j = some x.claimId := by
    rcases hc with rfl | ⟨hc, -⟩
    · exact x.named
    · rw [hc, x.named]
  rw [W.pending_of_claimOf hnamed] at hk
  cases hk

theorem Guarded.finished_of_empty (h : Guarded watched w) (hj : w.journal = none) {x : Stopped W}
    (hx : watched x) : x.Finished w := by
  refine (h.follows x hx).fate.resolve_left ?_
  rintro ⟨j, hj', -⟩
  rw [hj] at hj'
  cases hj'

/-- A write of the journal. A request that the journal is to wait for is the one it waited for, or has no
answer yet; the claim it names was answered. -/
theorem Guarded.save (h : Guarded watched w) {j : W.Journal}
    (hpending : ∀ k, W.pending j = some k → k ∈ w.drawn ∧ (w.pending = some k ∨ ∀ c, (k, c) ∉ w.answered))
    (hheld : ∀ k c, W.held j = some (k, c) → (k, c) ∈ w.answered)
    (hnamed : ∀ c, W.claimOf j = some c → ∃ k, (k, c) ∈ w.answered)
    (hfate : ∀ x, watched x → Continues x.journal j ∨ x.Finished w) : Guarded watched (w.save (some j)) := by
  have hspent : ∀ c, w.Spent c → (w.save (some j)).Spent c := by
    rintro c ⟨k, hk, hne⟩
    refine ⟨k, hk, fun hp => ?_⟩
    rcases (hpending k hp).2 with hp | hp
    · exact hne hp
    · exact hp c hk
  refine { answered := h.answered, drawn := h.drawn, pending := fun k hk => (hpending k hk).1, held := ?_, named := ?_,
           spent := fun c hc => hspent c (h.spent c hc), once := h.once, follows := ?_ }
  · intro j' k c hj'
    cases hj'
    exact hheld k c
  · intro j' c hj'
    cases hj'
    exact hnamed c
  · intro x hx
    have hx' := h.follows x hx
    refine ⟨hx'.starts, hspent _ hx'.spent, hx'.grown, ?_⟩
    exact (hfate x hx).imp (fun hc => ⟨j, rfl, hc⟩) id

/-- The journal is removed when the stopped claims have ended. -/
theorem Guarded.clear (h : Guarded watched w) (hfate : ∀ x, watched x → x.Finished w) : Guarded watched (w.save none) := by
  have hspent : ∀ c, w.Spent c → (w.save none).Spent c := by
    rintro c ⟨k, hk, -⟩
    exact ⟨k, hk, fun hp => by cases hp⟩
  refine { answered := h.answered, drawn := h.drawn, pending := ?_, held := ?_, named := ?_,
           spent := fun c hc => hspent c (h.spent c hc), once := h.once, follows := ?_ }
  · intro k hk
    cases hk
  · intro j k c hj
    cases hj
  · intro j c hj
    cases hj
  · intro x hx
    have hx' := h.follows x hx
    exact ⟨hx'.starts, hspent _ hx'.spent, hx'.grown, Or.inr (hfate x hx)⟩

theorem Stopped.Finished.receive {x : Stopped W} (h : x.Finished w) (q : W.Request) (response : W.Response q) :
    x.Finished (w.receive q response) := by
  obtain ⟨later, hl, f, hf, he⟩ := h
  refine ⟨(W.finished q response).toList ++ later, ?_, f, List.mem_append_right _ hf, he⟩
  simp [World.receive, hl]

/-- A response that answers a claim is received for the request the journal waits for. -/
theorem Guarded.receive (h : Guarded watched w) {q : W.Request} {response : W.Response q} (hc : w.Consistent q response)
    (hpending : ∀ k c, W.claimed q response = some (k, c) → w.pending = some k) :
    Guarded watched (w.receive q response) := by
  have hmem : ∀ k c, (k, c) ∈ (w.receive q response).answered ↔ W.claimed q response = some (k, c) ∨
      (k, c) ∈ w.answered := by
    intro k c
    simp only [World.receive, List.mem_append, Option.mem_toList]
  have hspent : ∀ c, w.Spent c → (w.receive q response).Spent c := by
    rintro c ⟨k, hk, hne⟩
    exact ⟨k, (hmem k c).mpr (Or.inr hk), hne⟩
  refine { answered := ?_, drawn := ?_, pending := h.pending, held := ?_, named := ?_,
           spent := fun c hc => hspent c (h.spent c hc), once := h.once, follows := ?_ }
  · intro k k' c hk hk'
    rw [hmem] at hk hk'
    rcases hk with hk | hk <;> rcases hk' with hk' | hk'
    · rw [hk, Option.some.injEq, Prod.mk.injEq] at hk'
      exact hk'.1
    · exact (hc k c hk k' hk').symm
    · exact hc k' c hk' k hk
    · exact h.answered k k' c hk hk'
  · intro k c hk
    rw [hmem] at hk
    rcases hk with hk | hk
    · exact h.pending k (hpending k c hk)
    · exact h.drawn k c hk
  · intro j k c hj hh
    exact (hmem k c).mpr (Or.inr (h.held j k c hj hh))
  · intro j c hj hn
    obtain ⟨k, hk⟩ := h.named j c hj hn
    exact ⟨k, (hmem k c).mpr (Or.inr hk)⟩
  · intro x hx
    have hx' := h.follows x hx
    exact ⟨hx'.starts, hspent _ hx'.spent, hx'.grown.trans (List.suffix_append _ _),
      hx'.fate.imp id fun hf => hf.receive q response⟩

theorem Guarded.draw (h : Guarded watched w) (id : String) : Guarded watched (w.draw id) :=
  { answered := h.answered, drawn := fun k c hk => List.mem_cons_of_mem _ (h.drawn k c hk),
    pending := fun k hk => List.mem_cons_of_mem _ (h.pending k hk), held := h.held, named := h.named, spent := h.spent,
    once := h.once, follows := fun x hx => ⟨(h.follows x hx).1, (h.follows x hx).2, (h.follows x hx).3, (h.follows x hx).4⟩ }

/-- A container is started for a claim that was not started, and that no stopped worker had. -/
theorem Guarded.start (h : Guarded watched w) {c : String} (hc : w.Spent c) (hnew : c ∉ w.starts)
    (hne : ∀ x, watched x → x.claimId ≠ c) : Guarded watched (w.start c) := by
  refine { answered := h.answered, drawn := h.drawn, pending := h.pending, held := h.held, named := h.named, spent := ?_,
           once := List.nodup_cons.mpr ⟨hnew, h.once⟩, follows := ?_ }
  · intro c' hc'
    rcases List.mem_cons.mp hc' with rfl | hc'
    · exact hc
    · exact h.spent c' hc'
  · intro x hx
    have hx' := h.follows x hx
    refine ⟨?_, hx'.spent, hx'.grown, hx'.fate⟩
    rw [World.start, List.count_cons_of_ne (fun he => hne x hx he.symm)]
    exact hx'.starts

end Dim.Host
