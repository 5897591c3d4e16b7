/-
A start that is not disturbed resolves every open intent (`startup_ok`): the intent's transaction can be
committed, and its row agrees with the finalized ones. Where the protected ref is neither the base nor the
candidate of the open intent, no start ends and the intent stays open (`foreign_refused`).
-/
import DimProofs.NativeGit.PromotionGate

namespace Dim.NativeGit

open Relational Ordinary RootCi Qemu Effectful

/-! ## Digests that differ for different texts -/

section
variable [Sha256]

theorem reviewDigest_inj [ReviewText] (hs : Function.Injective Sha256.hex) {a b : AuthoritativeNativeReview}
    (h : authoritativeNativeReviewDigest a = authoritativeNativeReviewDigest b) :
    a.candidateCommit = b.candidateCommit ∧ a.candidateTree = b.candidateTree := by
  have htext := congrArg String.toList (hs h)
  simp only [String.toList_append] at htext
  have hobject := String.toList_inj.mp (List.append_cancel_left htext)
  have hread := fun hc => @Json.object_prefix [("candidateCommit", Json.string a.candidateCommit),
    ("candidateTree", Json.string a.candidateTree)] [("candidateCommit", Json.string b.candidateCommit),
    ("candidateTree", Json.string b.candidateTree)] _ _ _ _ hc hobject
  simpa only [List.forall₂_cons, List.forall₂_nil_left_iff, true_and, and_true, List.cons.injEq, Prod.mk.injEq,
    Json.string_cancels, Json.string_inj, forall_const] using hread

theorem transitionId_inj (hs : Function.Injective Sha256.hex) {a b : PromotionIdentity}
    (h : nativeProjectRootPromotionTransitionId a = nativeProjectRootPromotionTransitionId b) :
    a.projectId = b.projectId ∧ a.reviewId = b.reviewId := by
  have htext := congrArg String.toList (hs h)
  simp only [String.toList_append] at htext
  have hobject := String.toList_inj.mp (List.append_cancel_left htext)
  have hread := fun hc => Json.object_prefix hc hobject
  simp only [PromotionIdentity.members, List.forall₂_cons, List.forall₂_nil_left_iff, true_and, and_true,
    List.cons.injEq, Prod.mk.injEq, Json.string_cancels, Json.string_inj, forall_const] at hread
  obtain ⟨_, _, _, _, _, _, _, _, _, hproject, _, _, _, _, hreview⟩ := hread
  exact ⟨hproject, hreview⟩

end

/-! ## The finalized rows admit the open intent -/

section
variable [Sha256] [ReviewText] {runtime : NativeGitRuntime} {w w' : World} {projectId : String}
  {intent : NativeProjectRootPromotionTransition} {α β : Type}

/-- The review of an open intent is not finalized: the head would be at its candidate already. -/
theorem Inv.intent_fresh (h : Inv runtime w) (hs : Function.Injective Sha256.hex)
    (hintent : w.db.intentOf projectId = some intent) {t : NativeProjectRootPromotionTransition}
    (ht : t ∈ w.db.transitionsOf projectId) : t.reviewId ≠ intent.reviewId := by
  intro hsame
  obtain ⟨rfl, imported, head, _, hinstalled, hopen⟩ := h.open_at hintent
  obtain ⟨hrow, hproject⟩ := PromotionDatabase.mem_transitionsOf.mp ht
  obtain ⟨hrow', _⟩ := PromotionDatabase.intentOf_eq_some.mp hintent
  obtain ⟨envelope, he, hid, hcommit, htree⟩ := (h.recorded t (Or.inr hrow)).review
  obtain ⟨envelope', he', hid', hcommit', htree'⟩ := (h.recorded intent (Or.inl hrow')).review
  -- Both are of the review with this digest, so they have one candidate.
  have hdigest : authoritativeNativeReviewDigest envelope.review = authoritativeNativeReviewDigest envelope'.review := by
    rw [← h.envelopes _ _ he, ← h.envelopes _ _ he', hid, hid', hsame]
  obtain ⟨hcandidate, hcandidateTree⟩ := reviewDigest_inj hs hdigest
  have hsameCommit : intent.candidateCommit = t.candidateCommit := by rw [← hcommit, ← hcommit', hcandidate]
  have hsameTree : intent.candidateTree = t.candidateTree := by rw [← htree, ← htree', hcandidateTree]
  obtain ⟨initial, _, hfold⟩ := foldCurrentHead_ok.mp hinstalled.folded
  have hback := (foldTransitions_descends runtime.git hfold hinstalled.descends).2 t ht
  have hforth := hopen.descends
  rw [hopen.follows.expectedCommit, hsameCommit] at hforth
  exact hopen.fresh t ht hsame (runtime.git.antisymm _ _ hforth hback) hsameCommit hsameTree

theorem Inv.finalize_ok (h : Inv runtime w) (hs : Function.Injective Sha256.hex)
    (hintent : w.db.intentOf projectId = some intent) : ∃ db, w.db.finalize intent = .ok db := by
  obtain ⟨rfl, imported, head, hi, hinstalled, hopen⟩ := h.open_at hintent
  obtain ⟨hrow, _⟩ := PromotionDatabase.intentOf_eq_some.mp hintent
  have hreferences : w.db.assertReferences intent = .ok () := by
    unfold PromotionDatabase.assertReferences
    rw [if_pos]
    · rfl
    refine ⟨by rw [hi]; rfl, ?_, hopen.follows.generation⟩
    exact Table.any_eq_true.mpr ⟨imported, Table.get?_mem hi, decide_eq_true hopen.follows.importNonce.symm⟩
  have hapart : ∀ row ∈ w.db.finalized.rows, ¬ Conflict row ⟨intent⟩ := by
    rintro ⟨t⟩ ht hconflict
    have hsequence : t.projectId = intent.projectId → t.sequence ≠ intent.sequence := by
      intro hproject hsame
      have hmem := PromotionDatabase.mem_transitionsOf.mpr ⟨ht, hproject⟩
      obtain ⟨initial, _, hfold⟩ := foldCurrentHead_ok.mp hinstalled.folded
      obtain ⟨hsequences, hhead⟩ := foldTransitions_sequence hfold
      have hin : t.sequence ∈ (w.db.transitionsOf intent.projectId).map (·.sequence) := List.mem_map_of_mem hmem
      rw [hsequences, List.mem_range'_1] at hin
      have hnext := hopen.follows.sequence
      omega
    have hreview : t.projectId = intent.projectId → t.reviewId ≠ intent.reviewId := fun hproject =>
      h.intent_fresh hs hintent (PromotionDatabase.mem_transitionsOf.mpr ⟨ht, hproject⟩)
    have hid : t.transitionId ≠ intent.transitionId := by
      rw [(h.recorded t (Or.inr ht)).transitionId, (h.recorded intent (Or.inl hrow)).transitionId]
      intro hsame
      obtain ⟨hproject, hof⟩ := transitionId_inj hs hsame
      exact hreview hproject hof
    simp only [Conflict, PromotionFinalizedRow.key_eq, Prod.mk.injEq, Schema.clash, Bool.or_eq_true, Bool.and_eq_true,
      decide_eq_true_eq] at hconflict
    rcases hconflict with ⟨hproject, hsame⟩ | (hsame | ⟨hproject, hsame⟩) | hsame | ⟨hproject, hsame⟩
    · exact hsequence hproject hsame
    · exact hid hsame
    · exact hreview hproject hsame
    · exact hid hsame.symm
    · exact hreview hproject.symm hsame.symm
  obtain ⟨finalized, hinsert⟩ := Table.insert_of (ε := PromotionStateError) (r := (⟨intent⟩ : PromotionFinalizedRow))
    (w.db.intents.checked _ hrow) hapart
  unfold PromotionDatabase.finalize
  rw [hintent]
  simp only [ne_eq, not_true_eq_false, if_false]
  rw [hreferences, show (Except.ok () >>= fun _ => _ : Except PromotionStateError PromotionDatabase) = _ from rfl, hinsert]
  exact ⟨_, rfl⟩

/-! ## A start that is not disturbed -/

theorem exec_query {q : Query} {value : q.Answer} (h : q.answer runtime w = .ok value) (f : q.Answer → Prog β) :
    (query q >>= f).exec (reply runtime) w = (f value).exec (reply runtime) w := by
  unfold query
  rw [show (Program.effect (ServerCall.read q) >>= answered : Prog q.Answer) =
    .perform (ServerCall.read q) answered from rfl]
  rw [exec_bind]
  simp only [Program.exec, reply, h]
  rfl

omit [Sha256] [ReviewText] in
theorem forM_ok {l : List α} {f : α → Except PromotionStateError Unit} (h : ∀ a ∈ l, f a = .ok ()) :
    l.forM f = .ok () := by
  induction l with
  | nil => rfl
  | cons a l ih =>
    show (f a >>= fun _ => l.forM f) = _
    exact bind_ok.mpr ⟨(), h a (List.mem_cons_self ..), ih fun b hb => h b (List.mem_cons_of_mem _ hb)⟩

/-- The rows of a state that keeps the invariant pass the check of a start. -/
theorem Inv.rows_ok (h : Inv runtime w) : assertNativeProjectRootPromotionRows runtime w.db = .ok () := by
  refine bind_ok.mpr ⟨(), forM_ok fun projectId hproject => ?_, forM_ok fun intent hintent => ?_⟩
  · rw [List.mem_dedup, List.mem_map] at hproject
    obtain ⟨row, hrow, rfl⟩ := hproject
    obtain ⟨imported, hi⟩ := Option.isSome_iff_exists.mp (h.references _ (Or.inr hrow))
    obtain ⟨head, hinstalled⟩ := h.project _ _ hi
    refine bind_ok.mpr ⟨imported, ?_, bind_ok.mpr ⟨head, hinstalled.folded, rfl⟩⟩
    rw [hi]
    rfl
  · have hstanding := h.unresolved.standing intent hintent
    obtain ⟨_, imported, head, hi, hinstalled, hopen⟩ := h.open_at hstanding
    refine bind_ok.mpr ⟨imported, ?_, bind_ok.mpr ⟨head, hinstalled.folded, assertNextTransition_ok.mpr hopen.next⟩⟩
    rw [hi]
    rfl

theorem Inv.exec_finalize (h : Inv runtime w) (hs : Function.Injective Sha256.hex)
    (hintent : w.db.intentOf projectId = some intent) :
    ((finalizeNativeProjectRootPromotion intent).exec (reply runtime) w).1 = .ok () := by
  obtain ⟨db, hdb⟩ := h.finalize_ok hs hintent
  have hwrite : w.writeDb (·.finalize intent) = .ok { w with db } := bind_ok.mpr ⟨db, hdb, rfl⟩
  unfold finalizeNativeProjectRootPromotion
  rw [exec_bind]
  simp only [Program.effect, Program.exec, reply, hwrite]
  rfl

omit [Sha256] [ReviewText] in
/-- The transaction of an open intent can be committed while the ref is at its base. -/
theorem Open.commits {imported : NativeProjectRootImport} {head : NativeProjectRootCurrentHead}
    (h : Open runtime w.db intent.projectId (w.repository intent.projectId) imported head intent)
    (href : (w.refs intent.projectId).lookup intent.protectedRef = some intent.expectedCommit) :
    ∃ w', w.commit (refUpdate intent) = some w' := by
  by_cases hsame : intent.expectedCommit = intent.candidateCommit
  · exact ⟨w, World.commit_eq_some.mpr ⟨href, h.proposal, Or.inl ⟨hsame, rfl⟩⟩⟩
  · exact ⟨_, World.commit_eq_some.mpr ⟨href, h.proposal, Or.inr ⟨hsame, rfl⟩⟩⟩

theorem recoverIntent_ok {intents : List NativeProjectRootPromotionTransition}
    (h : Unresolved runtime w (intent :: intents)) (hs : Function.Injective Sha256.hex) :
    ((recoverIntent intent).exec (reply runtime) w).1 = .ok () := by
  have hintent := h.standing intent (List.mem_cons_self ..)
  obtain ⟨_, imported, head, _, _, hopen⟩ := h.inv.open_at hintent
  have hread : ∀ {commit}, (w.refs intent.projectId).lookup intent.protectedRef = some commit →
      (Query.revParse intent.projectId intent.protectedRef).answer runtime w = .ok commit := by
    intro commit hlookup
    simp only [Query.answer, hlookup]
    rfl
  have hvalue : (w.refs intent.projectId).lookup intent.protectedRef = some intent.expectedCommit ∨
      (w.refs intent.projectId).lookup intent.protectedRef = some intent.candidateCommit := by
    rw [hopen.follows.protectedRef]
    exact hopen.ref.imp (·.ref) (·.ref)
  unfold recoverIntent
  by_cases hbase : (w.refs intent.projectId).lookup intent.protectedRef = some intent.expectedCommit
  · rw [exec_query (hread hbase), if_pos rfl]
    obtain ⟨w', hc⟩ := hopen.commits hbase
    have hinv := (h.inv.commit hintent hc).1
    have hdb := (commit_frame hc).1
    have hpromote : (atomicPromote (refUpdate intent)).exec (reply runtime) w = (.ok true, w') := by
      unfold atomicPromote
      rw [exec_bind]
      simp only [Program.effect, Program.exec, reply, hc]
      rfl
    rw [exec_bind, hpromote]
    exact hinv.exec_finalize hs (by rw [hdb]; exact hintent)
  · have hcandidate := hvalue.resolve_left hbase
    rw [exec_query (hread hcandidate), if_neg, if_neg]
    · exact h.inv.exec_finalize hs hintent
    · simp
    · intro hsame
      rw [hsame] at hcandidate
      exact hbase hcandidate

theorem recoverIntents_ok (hs : Function.Injective Sha256.hex) :
    ∀ {intents : List NativeProjectRootPromotionTransition} {w : World}, Unresolved runtime w intents →
      ((recoverIntents intents).exec (reply runtime) w).1 = .ok ()
  | [], _, _ => rfl
  | intent :: rest, w, h => by
    have hfirst := recoverIntent_ok h hs
    have hrest := (boots_recoverIntent h).exec reply_performs hfirst
    rw [recoverIntents, exec_bind]
    generalize (recoverIntent intent).exec (reply runtime) w = outcome at hfirst hrest
    obtain ⟨answer, w'⟩ := outcome
    cases hfirst
    exact recoverIntents_ok hs hrest

/-- A start in which nothing fails and no left process intervenes ends. -/
theorem startup_ok (h : Inv runtime w) (hs : Function.Injective Sha256.hex) :
    (startup.exec (reply runtime) w).1 = .ok () := by
  have hrows : Query.promotionRows.answer runtime w = .ok () := by
    simp only [Query.answer, h.rows_ok]
    rfl
  have hintents : Query.intents.answer runtime w = .ok w.db.readIntents := rfl
  unfold startup recoverNativeProjectRootPromotions
  rw [exec_query hrows, exec_query hintents]
  exact recoverIntents_ok hs h.unresolved

/-! ## Foreign refs -/

/-- The protected ref is neither at the base nor at the candidate of the open intent, and no process that is left
is of this project. -/
structure Foreign (intent : NativeProjectRootPromotionTransition) (w : World) : Prop where
  standing : w.db.intentOf intent.projectId = some intent
  base : (w.refs intent.projectId).lookup intent.protectedRef ≠ some intent.expectedCommit
  candidate : (w.refs intent.projectId).lookup intent.protectedRef ≠ some intent.candidateCommit
  apart : ∀ update ∈ w.children, update.projectId ≠ intent.projectId

namespace Foreign

variable {update : RefUpdate} {other : NativeProjectRootPromotionTransition}

omit [Sha256] [ReviewText]

theorem commit (h : Foreign intent w) (hne : update.projectId ≠ intent.projectId) (hc : w.commit update = some w') :
    Foreign intent w' := by
  obtain ⟨hdb, hchildren, hrepository⟩ := commit_frame hc
  have hrefs : w'.refs intent.projectId = w.refs intent.projectId := congrArg (·.refs) (hrepository _ hne.symm)
  exact ⟨hdb ▸ h.standing, hrefs ▸ h.base, hrefs ▸ h.candidate, hchildren ▸ h.apart⟩

theorem drift (h : Foreign intent w) (hd : Drift w w') : Foreign intent w' := by
  induction hd with
  | refl => exact h
  | commit _ hu hc ih => exact ih.commit (ih.apart _ hu) hc

theorem child (h : Foreign intent w) (hne : update.projectId ≠ intent.projectId) :
    Foreign intent { w with children := update :: w.children } := by
  refine ⟨h.standing, h.base, h.candidate, fun u hu => ?_⟩
  rcases List.mem_cons.mp hu with rfl | hu
  · exact hne
  · exact h.apart u hu

theorem finalize (h : Foreign intent w) (hne : other.projectId ≠ intent.projectId)
    (hwrite : w.writeDb (·.finalize other) = .ok w') : Foreign intent w' := by
  obtain ⟨db, hdb, rfl⟩ := writeDb_ok hwrite
  have hother := (PromotionDatabase.finalize_finalized hdb).other _ hne.symm
  exact ⟨hother.trans h.standing, h.base, h.candidate, h.apart⟩

end Foreign

/-- What holds of a server with a foreign ref: it never serves. -/
def refusal (intent : NativeProjectRootPromotionTransition) : Service.Contract World ServerCall Operation where
  down := Foreign intent
  booted _ := False
  serving _ := False
  may _ _ _ := True

abbrev Refuses (runtime : NativeGitRuntime) (intent : NativeProjectRootPromotionTransition) {α : Type} (p : Prog α)
    (Q : α → World → Prop) (w : World) : Prop :=
  Guards (server runtime).performs ((server runtime).BootAllows (refusal intent)) p Q w

theorem refuses_query (h : Foreign intent w) (q : Query) :
    Refuses runtime intent (query q) (fun value w' => Foreign intent w' ∧ q.answer runtime w' = .ok value) w := by
  unfold query
  refine ⟨⟨?_, ?_⟩, ?_⟩
  · rintro w' ⟨w₁, hd, hcut⟩
    cases hcut
    exact h.drift hd
  · rintro answer w' ⟨w₁, hd, hanswer, _⟩
    cases hanswer
    exact h.drift hd
  · rintro answer w' ⟨w₁, hd, hanswer, hread⟩
    subst hanswer
    cases answer with
    | error _ => exact trivial
    | ok value =>
      rcases hread with hread | ⟨_, hread⟩
      · exact ⟨h.drift hd, hread.symm⟩
      · cases hread

theorem refuses_promote (h : Foreign intent w) {update : RefUpdate} (hne : update.projectId ≠ intent.projectId) :
    Refuses runtime intent (atomicPromote update) (fun _ => Foreign intent) w := by
  have hanswers : ∀ {w₁ w' answer}, Drift w w₁ → Answers runtime w₁ (.promote update) answer w' → Foreign intent w' := by
    rintro w₁ w' answer hd (⟨_, hc⟩ | ⟨_, rfl⟩ | ⟨_, rfl | hc⟩)
    · exact (h.drift hd).commit hne hc
    · exact h.drift hd
    · exact h.drift hd
    · exact (h.drift hd).commit hne hc
  unfold atomicPromote
  refine ⟨⟨?_, ?_⟩, ?_⟩
  · rintro w' ⟨w₁, hd, rfl | hc | rfl⟩
    · exact h.drift hd
    · exact (h.drift hd).commit hne hc
    · exact (h.drift hd).child hne
  · rintro answer w' ⟨w₁, hd, hanswer⟩
    exact hanswers hd hanswer
  · rintro answer w' ⟨w₁, hd, hanswer⟩
    cases answer with
    | error _ => exact trivial
    | ok _ => exact hanswers hd hanswer

theorem refuses_finalize (h : Foreign intent w) {other : NativeProjectRootPromotionTransition}
    (hne : other.projectId ≠ intent.projectId) :
    Refuses runtime intent (finalizeNativeProjectRootPromotion other) (fun _ => Foreign intent) w := by
  have hanswers : ∀ {w₁ w' answer}, Drift w w₁ → Answers runtime w₁ (.finalize other) answer w' → Foreign intent w' := by
    rintro w₁ w' answer hd (⟨_, hwrite⟩ | ⟨_, rfl | hwrite⟩)
    · exact (h.drift hd).finalize hne hwrite
    · exact h.drift hd
    · exact (h.drift hd).finalize hne hwrite
  unfold finalizeNativeProjectRootPromotion
  refine ⟨⟨?_, ?_⟩, ?_⟩
  · rintro w' ⟨w₁, hd, rfl | hwrite⟩
    · exact h.drift hd
    · exact (h.drift hd).finalize hne hwrite
  · rintro answer w' ⟨w₁, hd, hanswer⟩
    exact hanswers hd hanswer
  · rintro answer w' ⟨w₁, hd, hanswer⟩
    cases answer with
    | error _ => exact trivial
    | ok _ => exact hanswers hd hanswer

theorem refuses_other (h : Foreign intent w) {other : NativeProjectRootPromotionTransition}
    (hne : other.projectId ≠ intent.projectId) :
    Refuses runtime intent (recoverIntent other) (fun _ => Foreign intent) w := by
  unfold recoverIntent
  refine (refuses_query h _).andThen ?_
  rintro current w₁ ⟨h₁, _⟩
  split
  · refine (refuses_promote h₁ hne).andThen fun updated w₂ h₂ => ?_
    dsimp only
    split
    · exact trivial
    · exact refuses_finalize h₂ hne
  · split
    · exact trivial
    · exact refuses_finalize h₁ hne

/-- The recovery of the intent itself fails before it writes. -/
theorem refuses_self (h : Foreign intent w) :
    Refuses runtime intent (recoverIntent intent) (fun _ _ => False) w := by
  unfold recoverIntent
  refine (refuses_query h _).andThen ?_
  rintro current w₁ ⟨h₁, hcurrent⟩
  have hlookup : (w₁.refs intent.projectId).lookup intent.protectedRef = some current := by
    simp only [Query.answer] at hcurrent
    split at hcurrent
    · rename_i hlookup
      rw [hlookup]
      exact congrArg some (Except.ok.inj hcurrent)
    · cases hcurrent
  rw [if_neg, if_pos]
  · exact trivial
  · rintro rfl
    exact h₁.candidate hlookup
  · rintro rfl
    exact h₁.base hlookup

theorem refuses_intents : ∀ {intents : List NativeProjectRootPromotionTransition} {w : World}, Foreign intent w →
    intent ∈ intents → (∀ other ∈ intents, other.projectId = intent.projectId → other = intent) →
      Refuses runtime intent (recoverIntents intents) (fun _ _ => False) w
  | other :: rest, w, h, hin, hothers => by
    rw [recoverIntents]
    by_cases hproject : other.projectId = intent.projectId
    · cases hothers other (List.mem_cons_self ..) hproject
      exact (refuses_self h).andThen fun _ _ hfalse => hfalse.elim
    · have hrest : intent ∈ rest := by
        rcases List.mem_cons.mp hin with rfl | hin
        · exact absurd rfl hproject
        · exact hin
      exact (refuses_other h hproject).andThen fun _ _ h' =>
        refuses_intents h' hrest fun t ht => hothers t (List.mem_cons_of_mem _ ht)

theorem refuses_startup (h : Foreign intent w) : Refuses runtime intent startup (fun _ _ => False) w := by
  unfold startup recoverNativeProjectRootPromotions
  refine (refuses_query h _).andThen ?_
  rintro _ w₁ ⟨h₁, _⟩
  refine (refuses_query h₁ _).andThen ?_
  rintro intents w₂ ⟨h₂, hintents⟩
  have hread : w₂.db.readIntents = intents := Except.ok.inj hintents
  subst hread
  refine refuses_intents h₂ ?_ fun other hother hproject => ?_
  · exact PromotionDatabase.mem_readIntents.mpr (PromotionDatabase.intentOf_eq_some.mp h₂.standing).1
  · have hother' := PromotionDatabase.intentOf_eq_some.mpr ⟨PromotionDatabase.mem_readIntents.mp hother, hproject⟩
    exact Option.some.inj (hother'.symm.trans h₂.standing)

/-- A server whose ref is foreign never serves, and keeps the intent, whatever fails and however often it is
started. -/
theorem foreign_refused (h : Foreign intent w)
    {s : Service.State World ServerCall ServerCall.Answer Failure Operation} (hrun : Runs runtime ⟨w, .down⟩ s) :
    Foreign intent s.world ∧ ∀ current queue, s.phase ≠ .serving current queue := by
  have hmeets : (server runtime).Meets (refusal intent) :=
    ⟨fun _ hfalse => hfalse.elim, fun _ hfalse => hfalse.elim, fun _ h => refuses_startup h,
      fun _ _ hfalse => hfalse.elim⟩
  have hrunning := Service.Running.steps hmeets (s := ⟨w, .down⟩) h hrun
  exact ⟨hrunning.holds hmeets, fun _ _ hphase => hrunning.serves hphase⟩

end

end Dim.NativeGit
