/-
Promotions over crashes (`promotion_crash`): where a start has ended, each protected ref is at the head that its
finalized transitions lead to, which it has reached along them, and no intent is open.
-/
import DimProofs.NativeGit.PromotionRecovery

namespace Dim.NativeGit

open Relational Ordinary RootCi Qemu Effectful

/-! ## Moves of a chain -/

section
variable {runtime : NativeGitRuntime} {imported : NativeProjectRootImport} {generations : List String}
  {head : NativeProjectRootCurrentHead}

/-- Each transition of a chain starts from a descendant of where the chain starts. -/
theorem foldTransitions_base (git : GitObjects) : ∀ {transitions : List NativeProjectRootPromotionTransition}
    {current : NativeProjectRootCurrentHead},
      foldTransitions runtime.localeCompare imported generations current transitions = .ok head →
        (∀ t ∈ transitions, git.isAncestor t.expectedCommit t.candidateCommit = true) →
          ∀ t ∈ transitions, git.isAncestor current.commit t.expectedCommit = true
  | [], _, _, _ => nofun
  | first :: rest, current, h, hdescends => by
    rw [foldTransitions_cons] at h
    obtain ⟨hnext, hrest⟩ := h
    have hbase := (follows_of_next hnext).expectedCommit
    have hfirst := hdescends first (List.mem_cons_self ..)
    rw [hbase] at hfirst
    have htail := foldTransitions_base git hrest fun t ht => hdescends t (List.mem_cons_of_mem _ ht)
    intro t ht
    rcases List.mem_cons.mp ht with rfl | ht
    · rw [hbase]
      exact git.refl _
    · exact git.trans _ _ _ hfirst (htail t ht)

/-- A chain never moves twice from one commit. -/
theorem sources_nodup (git : GitObjects) : ∀ {transitions : List NativeProjectRootPromotionTransition}
    {current : NativeProjectRootCurrentHead},
      foldTransitions runtime.localeCompare imported generations current transitions = .ok head →
        (∀ t ∈ transitions, git.isAncestor t.expectedCommit t.candidateCommit = true) →
          ((moves transitions).map Prod.fst).Nodup
  | [], _, _, _ => List.nodup_nil
  | first :: rest, current, h, hdescends => by
    rw [foldTransitions_cons] at h
    obtain ⟨hnext, hrest⟩ := h
    have hdescends' : ∀ t ∈ rest, git.isAncestor t.expectedCommit t.candidateCommit = true := fun t ht =>
      hdescends t (List.mem_cons_of_mem _ ht)
    have htail := sources_nodup git hrest hdescends'
    have hbase := foldTransitions_base git hrest hdescends'
    by_cases hsame : first.expectedCommit = first.candidateCommit
    · rw [show moves (first :: rest) = moves rest by simp [moves, hsame]]
      exact htail
    · rw [show moves (first :: rest) = (first.expectedCommit, first.candidateCommit) :: moves rest by
        simp [moves, hsame], List.map_cons]
      refine List.nodup_cons.mpr ⟨fun hmem => ?_, htail⟩
      obtain ⟨move, hmem, hsource⟩ := List.mem_map.mp hmem
      obtain ⟨hmem, _⟩ := List.mem_filter.mp hmem
      obtain ⟨t, ht, rfl⟩ := List.mem_map.mp hmem
      have hforth := hdescends first (List.mem_cons_self ..)
      have hback : git.isAncestor first.candidateCommit t.expectedCommit = true := hbase t ht
      rw [show t.expectedCommit = first.expectedCommit from hsource] at hback
      exact hsame (git.antisymm _ _ hforth hback)

end

/-! ## Where a start has ended -/

/-- The protected ref of an imported project is at the head of its finalized transitions. -/
structure RecoveredAt (runtime : NativeGitRuntime) (w : World) (imported : NativeProjectRootImport)
    (head : NativeProjectRootCurrentHead) : Prop where
  folded : foldCurrentHead runtime.localeCompare imported (w.db.transitionsOf imported.projectId) w.db.generations =
    .ok head
  ref : w.head imported = some head.commit
  contiguous : (w.db.transitionsOf imported.projectId).map (·.sequence) =
    List.range' 1 (w.db.transitionsOf imported.projectId).length
  moved : (w.repository imported.projectId).moved = moves (w.db.transitionsOf imported.projectId)
  once : ∀ t ∈ w.db.transitionsOf imported.projectId, t.expectedCommit ≠ t.candidateCommit →
    (w.repository imported.projectId).moved.count (t.expectedCommit, t.candidateCommit) = 1

structure Recovered (runtime : NativeGitRuntime) (w : World) : Prop where
  intents : w.db.readIntents = []
  projects : ∀ imported ∈ w.db.imports.rows, ∃ head, RecoveredAt runtime w imported head

section
variable [Sha256] [ReviewText] {runtime : NativeGitRuntime} {w : World}

theorem Inv.recovered (h : Inv runtime w) (hnone : w.db.intents.rows = []) : Recovered runtime w := by
  refine ⟨by rw [PromotionDatabase.readIntents, hnone]; rfl, fun imported hrow => ?_⟩
  obtain ⟨head, hinstalled⟩ := h.project imported.projectId imported (Table.get?_of_mem hrow)
  have hintent : w.db.intentOf imported.projectId = none := by
    rw [PromotionDatabase.intentOf, Option.map_eq_none_iff, Table.get?_eq_none, hnone]
    simp
  obtain ⟨href, hmoved⟩ := hinstalled.idle hintent
  obtain ⟨initial, hinitial, hfold⟩ := foldCurrentHead_ok.mp hinstalled.folded
  have hsequences := (foldTransitions_sequence hfold).1
  rw [initialHead_ok hinitial] at hsequences
  refine ⟨head, hinstalled.folded, href, hsequences, hmoved, fun t ht hne => ?_⟩
  rw [hmoved]
  refine List.count_eq_one_of_mem (sources_nodup runtime.git hfold hinstalled.descends).of_map ?_
  exact List.mem_filter.mpr ⟨List.mem_map.mpr ⟨t, ht, rfl⟩, by simpa using hne⟩

/-- Over any run with crashes: where a start has ended the promotions are recovered; a server that is down can be
started, unless it is disturbed again; a head that is accepted is the value of the ref, with no intent open; and
from a ref that is neither the base nor the candidate of an open intent no server comes to serve. -/
theorem promotion_crash {w₀ : World} (hw : Imported w₀)
    {s : Service.State World ServerCall ServerCall.Answer Failure Operation} (hrun : Runs runtime ⟨w₀, .down⟩ s) :
    (s.phase = .booting (.done ()) → Recovered runtime s.world) ∧
      (s.phase = .down → Function.Injective Sha256.hex → ((server runtime).boot.exec (reply runtime) s.world).1 = .ok ()) ∧
        (∀ projectId target, resolveTarget runtime.localeCompare runtime.git projectId s.world = .ok target →
          s.world.db.intentOf projectId = none ∧ s.world.head target.imported = some target.currentHead.commit) ∧
          ∀ w intent, Foreign intent w → ∀ s', Runs runtime ⟨w, .down⟩ s' →
            Foreign intent s'.world ∧ ∀ current queue, s'.phase ≠ .serving current queue := by
  have hrunning := Service.Running.steps serves_meets (s := ⟨w₀, .down⟩) hw.inv hrun
  refine ⟨fun hphase => ?_, fun _ hs => startup_ok (hrunning.holds serves_meets) hs, fun projectId target htarget => ?_,
    fun _ _ hforeign _ hrun' => foreign_refused hforeign hrun'⟩
  · obtain ⟨w, phase⟩ := s
    subst hphase
    obtain ⟨hinv, hnone⟩ := hrunning.booted
    exact hinv.recovered hnone
  · obtain ⟨hroot, hnone, _, href⟩ := resolveTarget_ok htarget
    have hkey : target.imported.projectId = projectId := Table.get?_key hroot
    refine ⟨hnone, ?_⟩
    unfold World.head
    rw [hkey]
    exact href

/-- At every point of every run with crashes, an imported project's finalized transitions are contiguous, and its
protected ref
has made their moves and stands at their head, or it has made the open intent's too; and it has never moved twice from one
commit. -/
theorem promotion_history {w₀ : World} (hw : Imported w₀)
    {s : Service.State World ServerCall ServerCall.Answer Failure Operation} (hrun : Runs runtime ⟨w₀, .down⟩ s)
    {imported : NativeProjectRootImport} (hroot : imported ∈ s.world.db.imports.rows) :
    ∃ head made, foldCurrentHead runtime.localeCompare imported (s.world.db.transitionsOf imported.projectId)
        s.world.db.generations = .ok head ∧
      (s.world.db.transitionsOf imported.projectId).map (·.sequence) =
        List.range' 1 (s.world.db.transitionsOf imported.projectId).length ∧
      (made = s.world.db.transitionsOf imported.projectId ∧ s.world.head imported = some head.commit ∨
        ∃ intent, s.world.db.intentOf imported.projectId = some intent ∧ intent.expectedCommit = head.commit ∧
          made = s.world.db.transitionsOf imported.projectId ++ [intent] ∧
          s.world.head imported = some intent.candidateCommit) ∧
      (s.world.repository imported.projectId).moved = moves made ∧ ((moves made).map Prod.fst).Nodup := by
  have hinv := (Service.Running.steps serves_meets (s := ⟨w₀, .down⟩) hw.inv hrun).holds serves_meets
  obtain ⟨head, hinstalled⟩ := hinv.project imported.projectId imported (Table.get?_of_mem hroot)
  obtain ⟨initial, hinitial, hfold⟩ := foldCurrentHead_ok.mp hinstalled.folded
  have hsequences := (foldTransitions_sequence hfold).1
  rw [initialHead_ok hinitial] at hsequences
  have hnodup := sources_nodup runtime.git hfold hinstalled.descends
  cases hintent : s.world.db.intentOf imported.projectId with
  | none =>
    obtain ⟨href, hmoved⟩ := hinstalled.idle hintent
    exact ⟨head, _, hinstalled.folded, hsequences, .inl ⟨rfl, href⟩, hmoved, hnodup⟩
  | some intent =>
    have hopen := hinstalled.busy intent hintent
    have hexpected := (follows_of_next hopen.next).expectedCommit
    rcases hopen.ref with ⟨href, hmoved⟩ | ⟨href, hmoved⟩
    · rw [hexpected] at href
      exact ⟨head, _, hinstalled.folded, hsequences, .inl ⟨rfl, href⟩, hmoved, hnodup⟩
    · have hdescends : ∀ t ∈ s.world.db.transitionsOf imported.projectId ++ [intent],
          runtime.git.isAncestor t.expectedCommit t.candidateCommit = true :=
        List.forall_mem_append.mpr ⟨hinstalled.descends, List.forall_mem_singleton.mpr hopen.descends⟩
      exact ⟨head, _, hinstalled.folded, hsequences, .inr ⟨intent, rfl, hexpected, rfl, href⟩, hmoved,
        sources_nodup runtime.git (foldTransitions_append hopen.next hfold) hdescends⟩

/-! ## A promotion that is refused -/

variable {projectId reviewId generationId : String}

section
omit [Sha256] [ReviewText]

/-- What reads the current head fails. -/
theorem resolveTarget_unresolved {intent : NativeProjectRootPromotionTransition}
    (h : w.db.intentOf projectId = some intent) :
    ∃ error, resolveTarget runtime.localeCompare runtime.git projectId w = .error error := by
  cases hresolved : resolveTarget runtime.localeCompare runtime.git projectId w with
  | error error => exact ⟨error, rfl⟩
  | ok target =>
    rw [(resolveTarget_ok hresolved).2.1] at h
    cases h

/-- A call whose failure is thrown comes to itself only, before anything happens. -/
theorem reaches_call {performs : (call : ServerCall) → World → call.Answer → World → Prop} {α : Type} {call' : ServerCall}
    (call : ServerCall) (read : call.Answer → Except ReadError α) {next : call'.Answer → Prog α} {w₁ : World}
    (hr : Reaches performs (Program.effect call >>= fun answer => answered (read answer)) w (.perform call' next) w₁) :
    call' = call ∧ w₁ = w ∧ HEq next (fun answer : call.Answer => (answered (read answer) : Prog α)) := by
  cases hr with
  | here => exact ⟨rfl, rfl, HEq.rfl⟩
  | @perform _ _ a _ _ _ _ hp hr =>
    have hr : Reaches performs (answered (read a)) _ _ _ := hr
    cases hread : read a <;> rw [hread] at hr <;> cases hr

theorem reaches_call_done {performs : (call : ServerCall) → World → call.Answer → World → Prop} {α : Type}
    (call : ServerCall) (read : call.Answer → Except ReadError α) {value : α} {w₁ : World}
    (hr : Reaches performs (Program.effect call >>= fun answer => answered (read answer)) w (pure value) w₁) :
    ∃ answer, read answer = .ok value ∧ performs call w answer w₁ := by
  cases hr with
  | @perform _ _ a _ _ _ _ hp hr =>
    have hr : Reaches performs (answered (read a)) _ _ _ := hr
    cases hread : read a with
    | error _ =>
      rw [hread] at hr
      cases hr
    | ok found =>
      rw [hread] at hr
      cases hr
      exact ⟨a, hread, hp⟩

end

/-- A promotion comes to its move with the intent saved, and ends where the move is not answered with success. -/
theorem promote_reaches (hw : Calm runtime w) {update : RefUpdate}
    {rest : ServerCall.Answer (.promote update) → Prog Unit} {w₁ : World}
    (hr : Reaches (server runtime).performs ((server runtime).run (.promote generationId projectId reviewId)) w
      (.perform (.promote update) rest) w₁) :
    Calm runtime w₁ ∧ (∃ target, resolveTarget runtime.localeCompare runtime.git projectId w = .ok target) ∧
      (∃ intent, w₁.db.intentOf projectId = some intent) ∧ ∀ answer, answer ≠ .ok true →
        ∃ failure, rest answer = .fail failure := by
  have hinspect := @observes_inspectPromotion _ _ runtime w projectId reviewId generationId hw
    (.change (.activate generationId))
  have hr : Reaches (server runtime).performs ((inspectPromotion runtime generationId projectId reviewId >>= _) >>= _) w
      (.perform (.promote update) rest) w₁ := hr
  rcases hr.perform_cases with ⟨next, hr₁, rfl⟩ | ⟨value, w₂, -, hf⟩
  on_goal 2 => cases hf
  rcases hr₁.perform_cases with ⟨next₂, hr₂, -⟩ | ⟨checked, w₂, hr₂, hf⟩
  · obtain ⟨⟨_, _, _, hoperation, _⟩, _⟩ := (hinspect.reaches hr₂).1
    cases hoperation
  obtain ⟨rfl, hchecked⟩ := hinspect.reaches hr₂
  cases checked with
  | alreadyCurrent transition => cases hf
  | next review transition =>
    obtain ⟨target, envelope, rfl, hadmitted⟩ := hchecked review transition rfl
    rcases hf.perform_cases with ⟨next₃, hr₃, rfl⟩ | ⟨value, w₃, -, hf⟩
    on_goal 2 => cases hf
    rcases hr₃.perform_cases with ⟨_, hs, -⟩ | ⟨_, w₃, hs, hf⟩
    · obtain ⟨hcall, -⟩ := reaches_call (.saveIntent transition) (fun answer => answer) hs
      cases hcall
    obtain ⟨answer, hok, w', hd, hanswer⟩ := reaches_call_done (.saveIntent transition) (fun answer => answer) hs
    rw [hw.drift hd] at hanswer
    rcases hanswer with ⟨-, hwrite⟩ | ⟨⟨error, herror⟩, -⟩
    on_goal 2 => cases hok.symm.trans herror
    obtain ⟨db, hdb, rfl⟩ := writeDb_ok hwrite
    have hsaved := PromotionDatabase.saveIntent_saved hadmitted.ready.none hdb
    have hcalm := hw.saveIntent hadmitted.ready hsaved
    rcases hf.perform_cases with ⟨next₄, hp, rfl⟩ | ⟨updated, w₄, -, hf⟩
    · obtain ⟨-, rfl, hnext⟩ := reaches_call (.promote (reviewUpdate projectId envelope.review)) (fun answer => answer) hp
      cases hnext
      refine ⟨hcalm, ?_, ⟨transition, hadmitted.project ▸ hsaved.self⟩, fun answer hne => ?_⟩
      · unfold inspectPromotion at hr₂
        obtain ⟨found, w', hq, -⟩ := hr₂.pure_cases
        obtain ⟨answer, hok, w', hd, hsame, hanswer⟩ :=
          reaches_call_done (.read (.target projectId)) (fun answer => answer) hq
        rw [hw.drift hd] at hsame hanswer
        rcases hanswer with hanswer | ⟨error, herror⟩
        · exact ⟨found, hanswer.symm.trans hok⟩
        · cases hok.symm.trans herror
      · match answer with
        | .ok true => exact absurd rfl hne
        | .ok false => exact ⟨_, rfl⟩
        | .error error => exact ⟨_, rfl⟩
    · cases updated with
      | false => cases hf
      | true =>
        obtain ⟨hcall, -⟩ := reaches_call (.finalize transition) (fun answer => answer) hf
        cases hcall

/-- No intent is open, and the current head is read as before. -/
def NoTrace (runtime : NativeGitRuntime) (projectId : String) (w w' : World) : Prop :=
  w'.db.intentOf projectId = none ∧ resolveTarget runtime.localeCompare runtime.git projectId w' =
    resolveTarget runtime.localeCompare runtime.git projectId w

/-- A promotion whose move is refused or fails ends with its intent open. What read the current head before it does not do so
after it: a review is not created, the freshness of a review is not inspected, and nothing of the project is promoted. -/
theorem refused_promotion_unresolved {w₀ w₁ w₂ : World} (hw : Imported w₀) {queue : List Operation} {update : RefUpdate}
    {rest : ServerCall.Answer (.promote update) → Prog Unit} {answer : ServerCall.Answer (.promote update)}
    (hrun : Runs runtime ⟨w₀, .down⟩ ⟨w, .serving none queue⟩)
    (hr : Reaches (server runtime).performs ((server runtime).run (.promote generationId projectId reviewId)) w
      (.perform (.promote update) rest) w₁)
    (hanswer : (server runtime).performs (.promote update) w₁ answer w₂) (hrefused : answer ≠ .ok true) :
    (∃ failure, rest answer = .fail failure)
    ∧ (∃ target, resolveTarget runtime.localeCompare runtime.git projectId w = .ok target)
    ∧ ¬ NoTrace runtime projectId w w₂
    ∧ (∃ intent, w₂.db.intentOf projectId = some intent)
    ∧ (∃ error, resolveTarget runtime.localeCompare runtime.git projectId w₂ = .error error)
    ∧ (∀ proposalRef planning createdAt w₃,
        (Mutation.createReview projectId proposalRef planning createdAt).apply runtime w₂ ≠ .ok w₃)
    ∧ (∀ reviewId reviewerId inspected, readAt runtime (inspectExactReview projectId reviewId reviewerId) w₂ ≠ .ok inspected)
    ∧ ∀ generationId reviewId checked, readAt runtime
      (inspectPromotion runtime generationId projectId reviewId) w₂ ≠ .ok checked := by
  have hcalm : Calm runtime w := (Service.Running.steps serves_meets (s := ⟨w₀, .down⟩) hw.inv hrun).serves rfl
  obtain ⟨hcalm₁, hbefore, ⟨intent, hintent⟩, hends⟩ := promote_reaches hcalm hr
  have hopen : w₂.db.intentOf projectId = some intent := by
    obtain ⟨w', hd, hanswer⟩ := hanswer
    rw [hcalm₁.drift hd] at hanswer
    rcases hanswer with ⟨hok, -⟩ | ⟨-, rfl⟩ | ⟨-, rfl | hc⟩
    · exact absurd hok hrefused
    · exact hintent
    · exact hintent
    · rw [(commit_frame hc).1]
      exact hintent
  obtain ⟨error, herror⟩ := resolveTarget_unresolved hopen
  have hread : ∀ target, readAt runtime (query (.target projectId)) w₂ ≠ .ok target := fun target htarget => by
    rw [readAt_query] at htarget
    cases herror.symm.trans (mapError_ok htarget)
  refine ⟨hends answer hrefused, hbefore, fun htrace => ?_, ⟨intent, hopen⟩, ⟨error, herror⟩,
    fun proposalRef planning createdAt w₃ h => ?_,
    fun reviewId reviewerId inspected h => ?_, fun generationId reviewId checked h => ?_⟩
  · cases htrace.1.symm.trans hopen
  · simp only [Mutation.apply] at h
    obtain ⟨target, htarget, -⟩ := bind_ok.mp h
    exact hread target htarget
  · obtain ⟨target, htarget, -⟩ := readAt_ok h
    exact hread target htarget
  · obtain ⟨target, htarget, -⟩ := readAt_ok h
    exact hread target htarget

end

namespace PromotionSample

attribute [local instance] sha256 text

/-- The proposal is the protected head itself, and it is promoted. -/
def promotedHead : World :=
  (server runtime).after (reply runtime) (operations "base" ++ [.promote "generation" "project" "digest"]) world

def isFinalize : ServerCall → Bool
  | .finalize _ => true
  | _ => false

/-- The promotion of another commit, before it is finalized. -/
def finalizing : Prog Unit × World :=
  Service.before (reply runtime) isFinalize ((server runtime).run (.promote "generation" "project" "digest")) approved

/-- The world after a start. -/
def started (w : World) : World := ((server runtime).boot.exec (reply runtime) w).2

theorem starts {w : World} (h : ((server runtime).boot.exec (reply runtime) w).1 = .ok ()) :
    Runs runtime ⟨w, .down⟩ ⟨started w, .booting (.done ())⟩ := Service.steps_booting reply_performs h

/-- A transition whose candidate is its base is finalized and does not move the ref. -/
theorem promotion_moves_nothing : ¬ ∀ w, Runs runtime ⟨world, .down⟩ ⟨w, .booting (.done ())⟩ →
    ∀ imported ∈ w.db.imports.rows, ∀ t ∈ w.db.transitionsOf imported.projectId,
      (w.repository imported.projectId).moved.count (t.expectedCommit, t.candidateCommit) = 1 := by
  intro hall
  obtain ⟨hboot, hrow, hcounts⟩ : ((server runtime).boot.exec (reply runtime) promotedHead).1 = .ok () ∧
      imported ∈ (started promotedHead).db.imports.rows ∧
        ¬ ∀ t ∈ (started promotedHead).db.transitionsOf imported.projectId, ((started promotedHead).repository
          imported.projectId).moved.count (t.expectedCommit, t.candidateCommit) = 1 := by decide +kernel
  have hrun : Runs runtime ⟨world, .down⟩ ⟨started promotedHead, .booting (.done ())⟩ :=
    ((serves _).tail .crashed).trans (starts hboot)
  exact hcounts (hall _ hrun imported hrow)

set_option maxRecDepth 8000 in
theorem promotion_recovers :
    (Recovered runtime (started finalizing.2) ∧ (started finalizing.2).head imported = some "next") ∧
    (@Program.exec World ServerCall Failure Unit ServerCall.Answer (@reply ⟨fun t => t⟩ text runtime)
      (@server ⟨fun t => t⟩ runtime text).boot world).1 = .ok () := by
  obtain ⟨hboot, hhead⟩ : ((server runtime).boot.exec (reply runtime) finalizing.2).1 = .ok () ∧
      (started finalizing.2).head imported = some "next" := by decide +kernel
  have hcrash : Runs runtime ⟨world, .down⟩
      ⟨finalizing.2, .serving (some (.promote "generation" "project" "digest", finalizing.1)) []⟩ := promotes isFinalize
  have hrun : Runs runtime ⟨world, .down⟩ ⟨started finalizing.2, .booting (.done ())⟩ :=
    (hcrash.tail .crashed).trans (starts hboot)
  have hrecovered := (promotion_crash world_imported hrun).1 rfl
  dsimp only at hrecovered
  refine ⟨⟨hrecovered, hhead⟩, ?_⟩
  exact (@promotion_crash ⟨fun t => t⟩ text runtime world world_imported ⟨world, .down⟩ .refl).2.1 rfl
    fun _ _ h => h

/-- The review is promoted, and the server goes on. -/
def promoted : World :=
  (server runtime).after (reply runtime) (operations "next" ++ [.promote "generation" "project" "digest"]) world

set_option maxRecDepth 8000 in
theorem promotion_history_promoted : ∃ made, moves made = [("base", "next")] ∧ ((moves made).map Prod.fst).Nodup := by
  obtain ⟨hroot, hmoved⟩ : imported ∈ promoted.db.imports.rows ∧
      (promoted.repository imported.projectId).moved = [("base", "next")] := by decide +kernel
  obtain ⟨_, made, _, _, _, hmade, hnodup⟩ := promotion_history world_imported (serves _) hroot
  exact ⟨made, hmade.symm.trans hmoved, hnodup⟩

/-- The move of the promotion is answered with a failure. -/
def refusedMove : Prog Unit → Bool
  | .perform (.promote _) rest => match rest (.ok false) with
    | .fail _ => true
    | _ => false
  | _ => false

/-- After the refusal the intent is open and the current head is not read. -/
theorem refused_leaves_intent : refusedMove promoting.1 = true ∧ (promoting.2.db.intentOf "project").isSome = true ∧
    (resolveTarget runtime.localeCompare runtime.git "project" approved).isOk = true ∧
    (resolveTarget runtime.localeCompare runtime.git "project" promoting.2).isOk = false := by decide +kernel

theorem refused_promotion_unresolved_sample : ∃ error,
    resolveTarget runtime.localeCompare runtime.git "project" promoting.2 = .error error := by
  have hrun : Runs runtime ⟨world, .down⟩ ⟨approved, .serving none []⟩ := serves (operations "next")
  have hbefore : Reaches (server runtime).performs ((server runtime).run (.promote "generation" "project" "digest")) approved
      promoting.1 promoting.2 := Service.reaches_before reply_performs isPromote _ _
  obtain ⟨update, hupdate, -⟩ := Option.map_eq_some_iff.mp promoting_moves.1
  obtain ⟨rest, hrest⟩ := updateOf_eq_some hupdate
  have hreach : Reaches (server runtime).performs ((server runtime).run (.promote "generation" "project" "digest")) approved
      (.perform (.promote update) rest) promoting.2 := hrest ▸ hbefore
  have hperforms : (server runtime).performs (.promote update) promoting.2 (.ok false) promoting.2 :=
    ⟨_, .refl, .inr (.inl ⟨rfl, rfl⟩)⟩
  exact (refused_promotion_unresolved world_imported hrun hreach hperforms (by simp)).2.2.2.2.1

end PromotionSample

end Dim.NativeGit
