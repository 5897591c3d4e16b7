/-
The server keeps to its contract (`serves_meets`): its start resolves every open intent, a promotion moves the
protected ref through the gate only, and each other operation keeps the state of the promotions.
-/
import DimProofs.NativeGit.PromotionChecks

namespace Dim.NativeGit

open Relational Ordinary RootCi Qemu Effectful

section
variable [Sha256] [ReviewText] {runtime : NativeGitRuntime} {w w' w'' : World} {projectId reviewId : String}
  {intent transition : NativeProjectRootPromotionTransition} {α : Type}

omit [Sha256] [ReviewText] in
theorem writeDb_ok {f : PromotionDatabase → Except PromotionStateError PromotionDatabase}
    (h : w.writeDb f = .ok w') : ∃ db, f w.db = .ok db ∧ w' = { w with db } := by
  obtain ⟨db, hdb, h⟩ := bind_ok.mp h
  cases h
  exact ⟨db, hdb, rfl⟩

/-- A commit of the server's own transaction, or of the process that a crash leaves of it. -/
theorem Inv.child (h : Inv runtime w) (hintent : w.db.intentOf projectId = some intent) :
    Inv runtime { w with children := refUpdate intent :: w.children } := by
  obtain ⟨rfl, _⟩ := h.open_at hintent
  refine ⟨h.project, h.references, h.recorded, h.envelopes, fun update hu => ?_⟩
  rcases List.mem_cons.mp hu with rfl | hu
  · exact Or.inr ⟨intent, hintent, rfl⟩
  · exact h.children update hu

theorem Inv.cut_promote (h : Inv runtime w) (hintent : w.db.intentOf projectId = some intent)
    (hc : Cuts runtime w (.promote (refUpdate intent)) w') : Inv runtime w' := by
  obtain ⟨hproject, _⟩ := h.open_at hintent
  rcases hc with rfl | hc | rfl
  · exact h
  · exact (h.commit hintent hc).1
  · exact h.child hintent

theorem Calm.commit (h : Calm runtime w) (hintent : w.db.intentOf projectId = some intent)
    (hc : w.commit (refUpdate intent) = some w') :
    Calm runtime w' ∧ w'.db = w.db ∧ Reached w' intent := by
  obtain ⟨hinv, hreached⟩ := h.toInv.commit hintent hc
  obtain ⟨hdb, hchildren, _⟩ := commit_frame hc
  refine ⟨⟨hinv, fun update hu => ?_⟩, hdb, hreached⟩
  rw [hdb]
  exact h.spent update (hchildren ▸ hu)

/-! ## A promotion -/

variable {db : PromotionDatabase} {envelope : AuthoritativeNativeReviewEnvelope}

omit [Sha256] [ReviewText] in
/-- The gate is about the refs and the stores, and about the finalized transitions. -/
theorem GateOf.frame {update : RefUpdate} {imported : NativeProjectRootImport}
    {head : NativeProjectRootCurrentHead}
    (h : GateOf runtime w projectId reviewId update imported head envelope)
    (hs : PromotionDatabase.Saved transition w.db db) :
    GateOf runtime { w with db } projectId reviewId update imported head envelope where
  root := by rw [hs.imports]; exact h.root
  folded := by
    rw [transitionsOf_congr hs.finalized, hs.generations]
    exact h.folded
  stored := h.stored
  review := h.review
  update := h.update
  fresh := ⟨h.fresh.project, h.fresh.protectedRef, h.fresh.expected, h.fresh.protectedHead, h.fresh.proposal,
    h.fresh.tree, h.fresh.workspace, h.fresh.reviewers⟩
  descends := h.descends
  approved := h.approved
  passed := h.passed

/-- The writes of an admitted promotion: each call is one that the contract allows. -/
theorem serves_install (hw : Calm runtime w) {generationId : String} {target : AuthoritativeNativeRootTarget}
    (ha : Admitted runtime w projectId reviewId target envelope transition) :
    Serves runtime (.promote generationId projectId reviewId)
      (installPromotion (reviewUpdate projectId envelope.review) transition) (fun _ _ => True) w := by
  rw [ha.update]
  have hsaved : ∀ {w'}, w.writeDb (·.saveIntent transition) = .ok w' →
      ∃ db, w' = { w with db } ∧ PromotionDatabase.Saved transition w.db db := by
    intro w' hwrite
    obtain ⟨db, hdb, rfl⟩ := writeDb_ok hwrite
    exact ⟨db, rfl, PromotionDatabase.saveIntent_saved ha.ready.none hdb⟩
  unfold installPromotion saveNativeProjectRootPromotionIntent atomicPromote finalizeNativeProjectRootPromotion
  -- The intent is saved: only the database changes.
  refine ⟨⟨trivial, ?_, ?_⟩, ?_⟩
  · rintro w' ⟨w₁, hd, hcut⟩
    rw [hw.drift hd] at hcut
    rcases hcut with rfl | hwrite
    · exact hw.toInv
    · obtain ⟨db, rfl, hs⟩ := hsaved hwrite
      exact (hw.saveIntent ha.ready hs).toInv
  · rintro answer w' ⟨w₁, hd, hanswer⟩
    rw [hw.drift hd] at hanswer
    rcases hanswer with ⟨_, hwrite⟩ | ⟨_, rfl | hwrite⟩
    · obtain ⟨db, rfl, hs⟩ := hsaved hwrite
      exact hw.saveIntent ha.ready hs
    · exact hw
    · obtain ⟨db, rfl, hs⟩ := hsaved hwrite
      exact hw.saveIntent ha.ready hs
  rintro answer w' ⟨w₁, hd, hanswer⟩
  rw [hw.drift hd] at hanswer
  rcases hanswer with ⟨rfl, hwrite⟩ | ⟨⟨error, rfl⟩, _⟩
  on_goal 2 => exact trivial
  obtain ⟨db, rfl, hs⟩ := hsaved hwrite
  have hcalm := hw.saveIntent ha.ready hs
  -- The protected ref is moved, with the gate as it was checked.
  refine ⟨⟨⟨generationId, projectId, reviewId, rfl, target.imported, target.currentHead, envelope, ?_⟩, ?_, ?_⟩, ?_⟩
  · rw [← ha.update]
    exact ha.gate.frame hs
  · rintro w' ⟨w₁, hd, hcut⟩
    rw [hcalm.drift hd] at hcut
    exact hcalm.toInv.cut_promote hs.self hcut
  · rintro answer w' ⟨w₁, hd, hanswer⟩
    rw [hcalm.drift hd] at hanswer
    rcases hanswer with ⟨_, hc⟩ | ⟨_, rfl⟩ | ⟨_, rfl | hc⟩
    · exact (hcalm.commit hs.self hc).1
    · exact hcalm
    · exact hcalm
    · exact (hcalm.commit hs.self hc).1
  rintro answer w' ⟨w₁, hd, hanswer⟩
  rw [hcalm.drift hd] at hanswer
  rcases hanswer with ⟨rfl, hc⟩ | ⟨rfl, rfl⟩ | ⟨⟨error, rfl⟩, _⟩
  on_goal 2 => exact trivial
  on_goal 2 => exact trivial
  obtain ⟨hmoved, hdb, hreached⟩ := hcalm.commit hs.self hc
  -- The transition is finalized.
  have hfinalized : ∀ {w''}, w'.writeDb (·.finalize transition) = .ok w'' → Calm runtime w'' := by
    intro w'' hwrite
    obtain ⟨db', hdb', rfl⟩ := writeDb_ok hwrite
    have hintent : w'.db.intentOf transition.projectId = some transition := by
      rw [hdb]
      exact hs.self
    obtain ⟨hinv, hspent⟩ := hmoved.toInv.finalize hintent hreached (PromotionDatabase.finalize_finalized hdb')
    exact ⟨hinv, hspent hmoved.spent⟩
  refine ⟨⟨trivial, ?_, ?_⟩, ?_⟩
  · rintro w'' ⟨w₁, hd, hcut⟩
    rw [hmoved.drift hd] at hcut
    rcases hcut with rfl | hwrite
    · exact hmoved.toInv
    · exact (hfinalized hwrite).toInv
  · rintro answer w'' ⟨w₁, hd, hanswer⟩
    rw [hmoved.drift hd] at hanswer
    rcases hanswer with ⟨_, hwrite⟩ | ⟨_, rfl | hwrite⟩
    · exact hfinalized hwrite
    · exact hmoved
    · exact hfinalized hwrite
  · rintro answer w'' _
    cases answer with
    | ok _ => exact trivial
    | error _ => exact trivial

/-! ## The other operations -/

theorem serves_operation (hw : Calm runtime w) (operation : Operation) :
    Serves runtime operation (operation.program runtime) (fun _ _ => True) w := by
  cases operation with
  | promote generationId projectId reviewId =>
    unfold Operation.program promoteInstalledNativeReview
    refine Guards.andThen (P := fun _ _ => True) ?_ fun _ _ _ => trivial
    refine (observes_inspectPromotion hw).serves fun checked hchecked => ?_
    cases checked with
    | alreadyCurrent _ => exact trivial
    | next review transition =>
      obtain ⟨target, envelope, rfl, hadmitted⟩ := hchecked review transition rfl
      exact (serves_install hw hadmitted).andThen fun _ _ _ => trivial
  | change mutation =>
    have hkeeps : ∀ {w'}, mutation.apply runtime w = .ok w' → Calm runtime w' := fun h => hw.keeps (Mutation.keeps h)
    unfold Operation.program
    refine ⟨⟨trivial, ?_, ?_⟩, ?_⟩
    · rintro w' ⟨w₁, hd, hcut⟩
      rw [hw.drift hd] at hcut
      rcases hcut with rfl | hwrite
      · exact hw.toInv
      · exact (hkeeps hwrite).toInv
    · rintro answer w' ⟨w₁, hd, hanswer⟩
      rw [hw.drift hd] at hanswer
      rcases hanswer with ⟨_, hwrite⟩ | ⟨_, rfl | hwrite⟩
      · exact hkeeps hwrite
      · exact hw
      · exact hkeeps hwrite
    · rintro answer w' _
      cases answer with
      | ok _ => exact trivial
      | error _ => exact trivial

/-! ## The recovery -/

/-- A part of a start that runs from a state and ends as `Q` says. -/
abbrev Boots (runtime : NativeGitRuntime) {α : Type} (p : Prog α) (Q : α → World → Prop) (w : World) : Prop :=
  Guards (server runtime).performs ((server runtime).BootAllows (contract runtime)) p Q w

theorem boots_answered {answer : Except ReadError α} {Q : α → World → Prop} (h : ∀ value, answer = .ok value → Q value w) :
    Boots runtime (answered answer) Q w := by
  cases answer with
  | error _ => exact trivial
  | ok value => exact h value rfl

theorem boots_query (h : Inv runtime w) (q : Query) :
    Boots runtime (query q) (fun value w' => Drift w w' ∧ q.answer runtime w' = .ok value) w := by
  unfold query
  refine ⟨⟨?_, ?_⟩, ?_⟩
  · rintro w' ⟨w₁, hd, hcut⟩
    cases hcut
    exact (h.drift hd).1
  · rintro answer w' ⟨w₁, hd, hanswer, _⟩
    cases hanswer
    exact (h.drift hd).1
  · rintro answer w' ⟨w₁, hd, hanswer, hread⟩
    subst hanswer
    refine boots_answered fun value hvalue => ?_
    subst hvalue
    rcases hread with hread | ⟨_, hread⟩
    · exact ⟨hd, hread.symm⟩
    · cases hread

theorem boots_promote (h : Inv runtime w) (hintent : w.db.intentOf projectId = some intent) :
    Boots runtime (atomicPromote (refUpdate intent))
      (fun updated w' => Inv runtime w' ∧ w'.db = w.db ∧ (updated = true → Reached w' intent)) w := by
  have hstep : ∀ {w₁ w'}, Drift w w₁ → w₁.commit (refUpdate intent) = some w' →
      Inv runtime w' ∧ w'.db = w.db ∧ Reached w' intent := by
    intro w₁ w' hd hc
    obtain ⟨hinv, hdb, _⟩ := h.drift hd
    obtain ⟨hinv', hreached⟩ := hinv.commit (by rw [hdb]; exact hintent) hc
    exact ⟨hinv', (commit_frame hc).1.trans hdb, hreached⟩
  unfold atomicPromote
  refine ⟨⟨?_, ?_⟩, ?_⟩
  · rintro w' ⟨w₁, hd, hcut⟩
    obtain ⟨hinv, hdb, _⟩ := h.drift hd
    exact hinv.cut_promote (by rw [hdb]; exact hintent) hcut
  · rintro answer w' ⟨w₁, hd, ⟨_, hc⟩ | ⟨_, rfl⟩ | ⟨_, rfl | hc⟩⟩
    · exact (hstep hd hc).1
    · exact (h.drift hd).1
    · exact (h.drift hd).1
    · exact (hstep hd hc).1
  · rintro answer w' ⟨w₁, hd, ⟨rfl, hc⟩ | ⟨rfl, rfl⟩ | ⟨⟨_, rfl⟩, _⟩⟩
    · obtain ⟨hinv, hdb, hreached⟩ := hstep hd hc
      exact ⟨hinv, hdb, fun _ => hreached⟩
    · obtain ⟨hinv, hdb, _⟩ := h.drift hd
      exact ⟨hinv, hdb, nofun⟩
    · exact trivial

theorem boots_finalize (h : Inv runtime w) (hintent : w.db.intentOf projectId = some intent) (hr : Reached w intent) :
    Boots runtime (finalizeNativeProjectRootPromotion intent)
      (fun _ w' => Inv runtime w' ∧ PromotionDatabase.Finalized intent w.db w'.db) w := by
  obtain ⟨hproject, _⟩ := h.open_at hintent
  have hdrift : ∀ {w₁}, Drift w w₁ → Inv runtime w₁ ∧ w₁.db = w.db ∧ Reached w₁ intent := by
    intro w₁ hd
    obtain ⟨hinv, hdb, _, hreached⟩ := h.drift hd
    exact ⟨hinv, hdb, hreached intent (by rw [hproject]; exact hintent) hr⟩
  have hstep : ∀ {w₁ w'}, Drift w w₁ → w₁.writeDb (·.finalize intent) = .ok w' →
      Inv runtime w' ∧ PromotionDatabase.Finalized intent w.db w'.db := by
    intro w₁ w' hd hwrite
    obtain ⟨hinv, hdb, hreached⟩ := hdrift hd
    obtain ⟨db, hfinalize, rfl⟩ := writeDb_ok hwrite
    have hf := PromotionDatabase.finalize_finalized hfinalize
    refine ⟨(hinv.finalize (by rw [hdb]; exact hintent) hreached hf).1, ?_⟩
    rw [← hdb]
    exact hf
  unfold finalizeNativeProjectRootPromotion
  refine ⟨⟨?_, ?_⟩, ?_⟩
  · rintro w' ⟨w₁, hd, rfl | hwrite⟩
    · exact (hdrift hd).1
    · exact (hstep hd hwrite).1
  · rintro answer w' ⟨w₁, hd, ⟨_, hwrite⟩ | ⟨_, rfl | hwrite⟩⟩
    · exact (hstep hd hwrite).1
    · exact (hdrift hd).1
    · exact (hstep hd hwrite).1
  · rintro answer w' ⟨w₁, hd, ⟨rfl, hwrite⟩ | ⟨⟨_, rfl⟩, _⟩⟩
    · exact hstep hd hwrite
    · exact trivial

/-- The intents that a start has still to resolve. -/
structure Unresolved (runtime : NativeGitRuntime) (w : World) (intents : List NativeProjectRootPromotionTransition) :
    Prop where
  inv : Inv runtime w
  standing : ∀ intent ∈ intents, w.db.intentOf intent.projectId = some intent
  distinct : (intents.map (·.projectId)).Nodup
  all : ∀ row ∈ w.db.intents.rows, row.transition ∈ intents

variable {intents : List NativeProjectRootPromotionTransition}

theorem Unresolved.finalized
    (h : Unresolved runtime w (intent :: intents)) (hinv : Inv runtime w') (hdb : w.db = db)
    (hf : PromotionDatabase.Finalized intent db w'.db) : Unresolved runtime w' intents := by
  subst hdb
  have hdistinct := List.nodup_cons.mp h.distinct
  refine ⟨hinv, fun other hother => ?_, hdistinct.2, fun row hrow => ?_⟩
  · have hne : other.projectId ≠ intent.projectId := by
      intro hsame
      exact hdistinct.1 (List.mem_map.mpr ⟨other, hother, hsame⟩)
    rw [hf.other _ hne]
    exact h.standing other (List.mem_cons_of_mem _ hother)
  · have hrow' := PromotionDatabase.intentOf_eq_some.mpr ⟨hrow, rfl⟩
    by_cases hproject : row.transition.projectId = intent.projectId
    · rw [hproject, hf.self] at hrow'
      cases hrow'
    · rw [hf.other _ hproject] at hrow'
      rcases List.mem_cons.mp (h.all _ (PromotionDatabase.intentOf_eq_some.mp hrow').1) with heq | hmem
      · exact absurd (by rw [heq]) hproject
      · exact hmem

/-- The recovery of one intent decides from the ref alone whether its move is made. -/
theorem boots_recoverIntent (h : Unresolved runtime w (intent :: intents)) :
    Boots runtime (recoverIntent intent) (fun _ w' => Unresolved runtime w' intents) w := by
  have hintent := h.standing intent (List.mem_cons_self ..)
  unfold recoverIntent
  refine (boots_query h.inv _).andThen ?_
  rintro current w₁ ⟨hd, hcurrent⟩
  obtain ⟨hinv, hdb, _⟩ := h.inv.drift hd
  have hintent₁ : w₁.db.intentOf intent.projectId = some intent := by
    rw [hdb]
    exact hintent
  have hlookup : (w₁.refs intent.projectId).lookup intent.protectedRef = some current := by
    simp only [Query.answer] at hcurrent
    split at hcurrent
    · rename_i hlookup
      rw [hlookup]
      exact congrArg some (Except.ok.inj hcurrent)
    · cases hcurrent
  have hend : ∀ {w₂}, Inv runtime w₂ → w₂.db = w₁.db → Reached w₂ intent →
      Boots runtime (finalizeNativeProjectRootPromotion intent) (fun _ w' => Unresolved runtime w' intents) w₂ := by
    intro w₂ hinv₂ hdb₂ hreached
    refine (boots_finalize hinv₂ (by rw [hdb₂]; exact hintent₁) hreached).mono ?_
    rintro _ w₃ ⟨hinv₃, hf⟩
    exact h.finalized hinv₃ (by rw [hdb₂, hdb]) hf
  split
  · -- The ref is at the base: the move is made now.
    refine (boots_promote hinv hintent₁).andThen ?_
    rintro updated w₂ ⟨hinv₂, hdb₂, hreached⟩
    dsimp only
    split
    · exact trivial
    · rename_i hupdated
      exact hend hinv₂ hdb₂ (hreached (by simpa using hupdated))
  · rename_i hbase
    split
    · exact trivial
    · -- The ref is at the candidate: the move is made already.
      rename_i hcandidate
      rw [not_not] at hcandidate
      obtain ⟨_, imported, head, _, _, hopen⟩ := hinv.open_at hintent₁
      refine hend hinv rfl ?_
      unfold Reached
      rw [hopen.follows.protectedRef] at hlookup ⊢
      rcases hopen.ref with hstands | hstands
      · exact absurd (Option.some.inj (hlookup.symm.trans hstands.ref)) hbase
      · exact hstands

theorem boots_recoverIntents : ∀ {intents : List NativeProjectRootPromotionTransition} {w : World},
    Unresolved runtime w intents →
      Boots runtime (recoverIntents intents) (fun _ w' => Inv runtime w' ∧ w'.db.intents.rows = []) w
  | [], _, h => ⟨h.inv, List.eq_nil_iff_forall_not_mem.mpr fun row hrow => nomatch h.all row hrow⟩
  | _ :: _, _, h => (boots_recoverIntent h).andThen fun _ _ h' => boots_recoverIntents h'

theorem Inv.unresolved (h : Inv runtime w) : Unresolved runtime w w.db.readIntents := by
  refine ⟨h, fun intent hintent => ?_, ?_, fun row hrow => PromotionDatabase.mem_readIntents.mpr hrow⟩
  · exact PromotionDatabase.intentOf_eq_some.mpr ⟨PromotionDatabase.mem_readIntents.mp hintent, rfl⟩
  · unfold PromotionDatabase.readIntents
    rw [List.map_map]
    refine List.Nodup.map_on ?_ ((List.perm_insertionSort _ _).nodup_iff.mpr (Table.nodup_rows _))
    intro a ha b hb hsame
    rw [List.mem_insertionSort] at ha hb
    exact Table.eq_of_conflict _ ha hb (conflict_of_key hsame)

theorem boots_startup (h : Inv runtime w) :
    Boots runtime startup (fun _ w' => Inv runtime w' ∧ w'.db.intents.rows = []) w := by
  unfold startup recoverNativeProjectRootPromotions
  refine (boots_query h _).andThen ?_
  rintro _ w₁ ⟨hd, _⟩
  have hinv := (h.drift hd).1
  refine (boots_query hinv _).andThen ?_
  rintro intents w₂ ⟨hd', hintents⟩
  have hread : w₂.db.readIntents = intents := Except.ok.inj hintents
  rw [← hread]
  exact boots_recoverIntents (hinv.drift hd').1.unresolved

/-! ## Answers -/

/-- Where nothing fails: a process that is left does not run, the ordinary service confirms, and the QEMU service
is not reached. -/
def reply (runtime : NativeGitRuntime) : (call : ServerCall) → World → call.Answer × World
  | .read q, w => (q.answer runtime w, w)
  | .terminalProof _ _ _, w => (.ok "", w)
  | .qemuEvent _, w => (.error .unavailable, w)
  | .now, w => (0, w)
  | .saveIntent transition, w => written w (w.writeDb (·.saveIntent transition))
  | .promote update, w => match w.commit update with
    | some w' => (.ok true, w')
    | none => (.ok false, w)
  | .finalize transition, w => written w (w.writeDb (·.finalize transition))
  | .change mutation, w => written w (mutation.apply runtime w)
where
  written {ε : Type} (w : World) : Except ε World → Except ReadError Unit × World
    | .ok w' => (.ok (), w')
    | .error _ => (.error .unavailable, w)

omit [Sha256] [ReviewText] in
theorem writes_written {ε : Type} (outcome : Except ε World) :
    Writes outcome w (reply.written w outcome).1 (reply.written w outcome).2 := by
  cases outcome with
  | ok w' => exact Or.inl ⟨rfl, rfl⟩
  | error _ => exact Or.inr ⟨⟨_, rfl⟩, Or.inl rfl⟩

theorem reply_performs (call : ServerCall) (w : World) :
    (server runtime).performs call w (reply runtime call w).1 (reply runtime call w).2 := by
  refine ⟨w, .refl, ?_⟩
  cases call with
  | read q => exact ⟨rfl, Or.inl rfl⟩
  | terminalProof _ _ _ => exact rfl
  | qemuEvent _ => exact rfl
  | now => exact rfl
  | saveIntent _ => exact writes_written _
  | promote update =>
    cases hc : w.commit update with
    | none => simp [Answers, reply, hc]
    | some w' => simp [Answers, reply, hc]
  | finalize _ => exact writes_written _
  | change _ => exact writes_written _

/-! ## The contract -/

theorem Inv.calm (h : Inv runtime w) (hnone : w.db.intents.rows = []) : Calm runtime w := by
  refine ⟨h, fun update hu => ?_⟩
  rcases h.children update hu with hs | ⟨intent, hintent, _⟩
  · exact hs
  · have hrow := (PromotionDatabase.intentOf_eq_some.mp hintent).1
    rw [hnone] at hrow
    cases hrow

theorem serves_meets : (server runtime).Meets (contract runtime) where
  serve _ h := h.1.calm h.2
  crash _ h := h.toInv
  boot _ h := boots_startup h
  run operation _ h := serves_operation h operation

end

end Dim.NativeGit
