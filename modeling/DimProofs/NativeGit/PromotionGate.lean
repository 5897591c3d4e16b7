/-
The gate of a promotion (`promotion_gate`): while the server serves, an imported project's protected ref changes
by the move of a promotion only, and at that instant the approvals, the evidence of the required jobs and the
refs are what the promotion asks for.
-/
import DimProofs.NativeGit.PromotionRuns

namespace Dim.NativeGit

open Relational Ordinary RootCi Qemu Effectful

/-! ## The first state -/

/-- Projects are imported, and nothing is reviewed or promoted yet. -/
structure Imported (w : World) : Prop where
  intents : w.db.intents.rows = []
  finalized : w.db.finalized.rows = []
  children : w.children = []
  formats : ∀ imported ∈ w.db.imports.rows, imported.expectedCommit.length = imported.resolvedTree.length
  refs : ∀ imported ∈ w.db.imports.rows,
    (w.refs imported.projectId).lookup imported.protectedRef = some imported.expectedCommit
  moved : ∀ imported ∈ w.db.imports.rows, (w.repository imported.projectId).moved = []
  envelopes : ∀ projectId, (w.repository projectId).envelopes = []

section
variable [Sha256] [ReviewText] {runtime : NativeGitRuntime} {w w' : World}

theorem Imported.inv (h : Imported w) : Inv runtime w where
  project := by
    intro projectId imported hi
    have hrow := Table.get?_mem hi
    have hkey : imported.projectId = projectId := Table.get?_key hi
    have hnone : w.db.transitionsOf projectId = [] := by
      unfold PromotionDatabase.transitionsOf
      rw [h.finalized]
      rfl
    have hintent : w.db.intentOf projectId = none := by
      rw [PromotionDatabase.intentOf, Option.map_eq_none_iff, Table.get?_eq_none, h.intents]
      simp
    refine ⟨{ projectId := imported.projectId, sequence := 0, protectedRef := imported.protectedRef,
              commit := imported.expectedCommit, tree := imported.resolvedTree,
              policyDigest := imported.policyDigest }, ?_, ?_, fun _ => ?_, fun intent hopen => ?_⟩
    · rw [hnone, foldCurrentHead, initialHead, if_neg (not_not.mpr (h.formats imported hrow))]
      rfl
    · rw [hnone]
      simp
    · rw [hnone]
      subst hkey
      exact ⟨h.refs imported hrow, h.moved imported hrow⟩
    · rw [hintent] at hopen
      cases hopen
  references := by
    rintro t (hrow | hrow)
    · rw [h.intents] at hrow
      cases hrow
    · rw [h.finalized] at hrow
      cases hrow
  recorded := by
    rintro t (hrow | hrow)
    · rw [h.intents] at hrow
      cases hrow
    · rw [h.finalized] at hrow
      cases hrow
  envelopes := by
    intro projectId envelope he
    rw [h.envelopes] at he
    cases he
  children := by
    intro update hu
    rw [h.children] at hu
    cases hu

/-! ## The gate -/

/-- The protected ref of an imported project. -/
def World.head (w : World) (imported : NativeProjectRootImport) : Option String :=
  (w.refs imported.projectId).lookup imported.protectedRef

omit [Sha256] [ReviewText] in
theorem World.commit_head {update : RefUpdate} {imported : NativeProjectRootImport} (hc : w.commit update = some w')
    (hmoved : w'.head imported ≠ w.head imported) : imported.projectId = update.projectId := by
  by_contra hne
  apply hmoved
  unfold World.head World.refs
  rw [(commit_frame hc).2.2 _ hne]

/-- What an answered or interrupted call does to a protected ref. -/
theorem Calm.moves (h : Calm runtime w) {call : ServerCall} {imported : NativeProjectRootImport}
    (hcall : (∃ answer, (server runtime).performs call w answer w') ∨ (server runtime).interrupts call w w')
    (hmoved : w'.head imported ≠ w.head imported) :
    ∃ update, call = .promote update ∧ w.commit update = some w' := by
  have hchange : ∀ {mutation : Mutation}, mutation.apply runtime w = .ok w' → w'.head imported = w.head imported :=
    fun hwrite => ((Mutation.keeps hwrite).repository _).protectedRefs _ imported.parsed.2
  have hdb : ∀ {f}, w.writeDb f = .ok w' → w'.head imported = w.head imported := by
    intro f hwrite
    obtain ⟨db, _, rfl⟩ := writeDb_ok hwrite
    rfl
  rcases hcall with ⟨answer, w₁, hd, hanswer⟩ | ⟨w₁, hd, hcut⟩
  · rw [h.drift hd] at hanswer
    cases call with
    | read _ => exact absurd (by rw [hanswer.1]) hmoved
    | terminalProof _ _ _ =>
      cases hanswer
      exact absurd rfl hmoved
    | qemuEvent _ =>
      cases hanswer
      exact absurd rfl hmoved
    | now =>
      cases hanswer
      exact absurd rfl hmoved
    | saveIntent _ =>
      rcases hanswer with ⟨_, hwrite⟩ | ⟨_, rfl | hwrite⟩
      · exact absurd (hdb hwrite) hmoved
      · exact absurd rfl hmoved
      · exact absurd (hdb hwrite) hmoved
    | promote update =>
      rcases hanswer with ⟨_, hc⟩ | ⟨_, rfl⟩ | ⟨_, rfl | hc⟩
      · exact ⟨update, rfl, hc⟩
      · exact absurd rfl hmoved
      · exact absurd rfl hmoved
      · exact ⟨update, rfl, hc⟩
    | finalize _ =>
      rcases hanswer with ⟨_, hwrite⟩ | ⟨_, rfl | hwrite⟩
      · exact absurd (hdb hwrite) hmoved
      · exact absurd rfl hmoved
      · exact absurd (hdb hwrite) hmoved
    | change _ =>
      rcases hanswer with ⟨_, hwrite⟩ | ⟨_, rfl | hwrite⟩
      · exact absurd (hchange hwrite) hmoved
      · exact absurd rfl hmoved
      · exact absurd (hchange hwrite) hmoved
  · rw [h.drift hd] at hcut
    cases call with
    | saveIntent _ =>
      rcases hcut with rfl | hwrite
      · exact absurd rfl hmoved
      · exact absurd (hdb hwrite) hmoved
    | promote update =>
      rcases hcut with rfl | hc | rfl
      · exact absurd rfl hmoved
      · exact ⟨update, rfl, hc⟩
      · exact absurd rfl hmoved
    | finalize _ =>
      rcases hcut with rfl | hwrite
      · exact absurd rfl hmoved
      · exact absurd (hdb hwrite) hmoved
    | change _ =>
      rcases hcut with rfl | hwrite
      · exact absurd rfl hmoved
      · exact absurd (hchange hwrite) hmoved
    | read _ => exact absurd (by rw [show w' = w from hcut]) hmoved
    | terminalProof _ _ _ => exact absurd (by rw [show w' = w from hcut]) hmoved
    | qemuEvent _ => exact absurd (by rw [show w' = w from hcut]) hmoved
    | now => exact absurd (by rw [show w' = w from hcut]) hmoved

/-- A run of the server, with any number of crashes and starts. -/
def Runs (runtime : NativeGitRuntime) :
    Service.State World ServerCall ServerCall.Answer Failure Operation →
      Service.State World ServerCall ServerCall.Answer Failure Operation → Prop :=
  Relation.ReflTransGen (server runtime).Step

/-- Whenever a step of the serving server changes the protected ref of an imported project, the step is the move
of a promotion of that project, and every condition of the promotion holds in the state that the step starts in. -/
theorem promotion_gate {w₀ : World} (hw : Imported w₀) {current : Option (Operation × Prog Unit)}
    {queue : List Operation} {phase : Service.Phase ServerCall ServerCall.Answer Failure Operation}
    (hrun : Runs runtime ⟨w₀, .down⟩ ⟨w, .serving current queue⟩)
    (hstep : (server runtime).Step ⟨w, .serving current queue⟩ ⟨w', phase⟩)
    {imported : NativeProjectRootImport} (hmoved : w'.head imported ≠ w.head imported) :
    ∃ generationId reviewId update next,
      current = some (.promote generationId imported.projectId reviewId, .perform (.promote update) next) ∧
        w.commit update = some w' ∧ Gate runtime w imported.projectId reviewId update := by
  have hrunning := Service.Running.steps serves_meets (s := ⟨w₀, .down⟩) hw.inv hrun
  have hcalm : Calm runtime w := hrunning.serves rfl
  have hgate : ∀ {operation call next}, current = some (operation, .perform call next) →
      ((∃ answer, (server runtime).performs call w answer w') ∨ (server runtime).interrupts call w w') →
        ∃ generationId reviewId update next,
          current = some (.promote generationId imported.projectId reviewId, .perform (.promote update) next) ∧
            w.commit update = some w' ∧ Gate runtime w imported.projectId reviewId update := by
    rintro operation call next rfl hcall
    obtain ⟨update, rfl, hc⟩ := hcalm.moves hcall hmoved
    obtain ⟨generationId, projectId, reviewId, rfl, hg⟩ := hrunning.performing
    have hproject : imported.projectId = projectId := by
      obtain ⟨_, _, envelope, hg⟩ := hg
      rw [World.commit_head hc hmoved, hg.update]
      rfl
    rw [hproject]
    exact ⟨generationId, reviewId, update, next, rfl, hc, hg⟩
  cases hstep with
  | submitted _ => exact absurd rfl hmoved
  | begun => exact absurd rfl hmoved
  | refused => exact absurd rfl hmoved
  | performed hp => exact hgate rfl (Or.inl ⟨_, hp⟩)
  | interrupted hp => exact hgate rfl (Or.inr hp)
  | returned => exact absurd rfl hmoved
  | threw => exact absurd rfl hmoved
  | crashed => exact absurd rfl hmoved

end

namespace PromotionSample

@[reducible] def sha256 : Sha256 := ⟨fun _ => "digest"⟩

@[reducible] def text : ReviewText := ⟨fun _ => "", fun _ => "", fun _ => ""⟩

attribute [local instance] sha256 text

def git : GitObjects where
  tree _ := some "tree"
  isAncestor a b := a = b || (a = "base" && b = "next")
  fsck _ := true
  changes _ _ := []
  patch _ _ := []
  refl := by simp
  trans a b c := by
    simp only [Bool.or_eq_true, Bool.and_eq_true, decide_eq_true_eq]
    rintro (rfl | ⟨rfl, rfl⟩) (rfl | ⟨h, rfl⟩)
    · exact Or.inl rfl
    · exact Or.inr ⟨h, rfl⟩
    · exact Or.inr ⟨rfl, rfl⟩
    · exact Or.inr ⟨rfl, rfl⟩
  antisymm a b := by
    simp only [Bool.or_eq_true, Bool.and_eq_true, decide_eq_true_eq]
    rintro (rfl | ⟨rfl, rfl⟩) (h | ⟨h, h'⟩)
    · rfl
    · rfl
    · exact h.symm
    · simp at h

def runtime : NativeGitRuntime where
  localeCompare := compare
  git := git
  reporterUsername := "reporter"
  qemuServiceId := none
  stringify _ := ""

def imported : NativeProjectRootImport where
  projectId := "project"
  importNonce := "nonce"
  protectedRef := "refs/heads/main"
  expectedCommit := "base"
  resolvedTree := "tree"
  policyDigest := "policy"
  policy := { protectedRef := "refs/heads/main", policyRevision := "1", requiredReviewRevision := "1",
              requiredJobSetRevision := "1", requiredJobs := [⟨"test", .ordinarySysbox⟩],
              requiredReviewerIds := ["reviewer"], pathReviewerRules := [] }
  parsed := by decide +kernel

def empty : ProjectRepository where
  refs := [("refs/heads/main", "base")]
  moved := []
  envelopes := []
  approvals := .empty
  revocations := []
  attempts := []
  attemptRevocations := []
  statuses := []
  qemu := .empty

/-- One imported project. -/
def world : World where
  db := { imports := ⟨[imported], by simp, by simp [Schema.check]⟩, generations := [], intents := .empty,
          finalized := .empty }
  repository _ := empty
  children := []

theorem world_imported : Imported world := by
  refine ⟨rfl, rfl, rfl, ?_, ?_, fun _ _ => rfl, fun _ => rfl⟩
  · intro row hrow
    cases List.mem_singleton.mp hrow
    decide +kernel
  · intro row hrow
    cases List.mem_singleton.mp hrow
    exact List.lookup_cons_self

def proposal : String := "refs/heads/proposals/AAAAAAAAAAAAAAAAAAAAAAAAAAAAAAAAAAAAAAAAAAA/change"

/-- The file that the required job runs. -/
def script : NativeScript := ⟨"blob", "digest", "test.sh"⟩

def capacity : TrustedCapacity NativeResourceBounds := ⟨"admission", "job", "runner", ⟨1, 1, 1, 1, 1⟩⟩

/-- The required job of a commit exits with zero. -/
def passed (commit : String) : NativeTerminalEvent where
  eventId := "event"
  occurredAt := "2024"
  payload :=
    { reviewId := "digest", attemptId := "attempt", attempt := 1,
      descriptor :=
        { projectId := "project", repositoryId := "root", protectedRef := "refs/heads/main", expectedProtectedHead := "base",
          candidateCommit := commit, candidateTree := "tree", policyRevision := "1", requiredReviewRevision := "1",
          requiredJobSetRevision := "1", admissionGeneration := "admission", jobName := "test", runnerBaseImage := "runner",
          bounds := capacity.bounds, configBlob := ⟨"blob", "digest"⟩, script, jobImage := "job" },
      descriptorDigest := "sha256:digest", hostId := "host", capacity := "capacity", startedAt := "2024",
        finishedAt := "2024",
      result := .success, completion := .exited 0, stdout := ⟨0, "digest", false⟩, stderr := ⟨0, "digest", false⟩ }

/-- A commit is proposed, reviewed and approved, and its required job passes. -/
def operations (commit : String) : List Operation :=
  [.change (.activate "generation"),
    .change (.receive "project" "AAAAAAAAAAAAAAAAAAAAAAAAAAAAAAAAAAAAAAAAAAA" [(proposal, commit)]),
    .change (.createReview "project" proposal (.valid (some ⟨"blob", "digest"⟩) [⟨.ordinarySysbox, "test", script⟩]) "2024"),
    .change (.approve "project" "digest" "reviewer" "request" "2024"),
    .change (.issueOrdinary "project" "digest" "test" capacity ⟨"blob", "digest"⟩ script "issuance" "host" "capacity"
      "sha256:digest" "issuer" "attempt" "2024"),
    .change (.reportOrdinary "project" "digest" (passed commit) "status" "2024")]

def isPromote : ServerCall → Bool
  | .promote _ => true
  | _ => false

/-- The world in which the review is approved. -/
def approved : World := (server runtime).after (reply runtime) (operations "next") world

theorem serves (operations : List Operation) :
    Runs runtime ⟨world, .down⟩ ⟨(server runtime).after (reply runtime) operations world, .serving none []⟩ :=
  (Service.steps_boot reply_performs (by rfl)).trans (Service.steps_after reply_performs operations world)

/-- The promotion of the review is under way, before the call at which it is stopped. -/
theorem promotes (stop : ServerCall → Bool) : Runs runtime ⟨world, .down⟩
    ⟨(Service.before (reply runtime) stop ((server runtime).run (.promote "generation" "project" "digest")) approved).2,
      .serving (some (.promote "generation" "project" "digest",
        (Service.before (reply runtime) stop
          ((server runtime).run (.promote "generation" "project" "digest")) approved).1)) []⟩ :=
  (serves (operations "next")).trans <|
    .head (.submitted (.promote "generation" "project" "digest")) <|
      .head .begun (Service.steps_before reply_performs stop _ _)

/-- The promotion of the review, before it moves the protected ref. -/
def promoting : Prog Unit × World :=
  Service.before (reply runtime) isPromote
    ((server runtime).run (.promote "generation" "project" "digest")) approved

def updateOf : Prog Unit → Option RefUpdate
  | .perform (.promote update) _ => some update
  | _ => none

theorem updateOf_eq_some {program : Prog Unit} {update : RefUpdate} (h : updateOf program = some update) :
    ∃ rest, program = .perform (.promote update) rest := by
  unfold updateOf at h
  split at h
  · rename_i rest
    cases h
    exact ⟨rest, rfl⟩
  · cases h

theorem promoting_moves : (updateOf promoting.1).map (fun update => (promoting.2.commit update).map (·.head imported)) =
    some (some (some "next")) ∧ promoting.2.head imported = some "base" := by decide +kernel

/-- The promotion goes through the gate. -/
theorem promotion_through_gate : ∃ update, promoting.2.head imported = some "base" ∧
    Gate runtime promoting.2 "project" "digest" update := by
  have hrun : Runs runtime ⟨world, .down⟩
      ⟨promoting.2, .serving (some (.promote "generation" "project" "digest", promoting.1)) []⟩ := promotes isPromote
  obtain ⟨hmoves, hbase⟩ := promoting_moves
  obtain ⟨update, hupdate, hcommit⟩ := Option.map_eq_some_iff.mp hmoves
  obtain ⟨w', hc, hnext⟩ := Option.map_eq_some_iff.mp hcommit
  obtain ⟨rest, hrest⟩ := updateOf_eq_some hupdate
  rw [hrest] at hrun
  have hmoved : w'.head imported ≠ promoting.2.head imported := by
    rw [hnext, hbase]
    decide
  obtain ⟨_, _, update', _, hcurrent, _, hgate⟩ :=
    promotion_gate world_imported hrun (.performed ⟨_, .refl, Or.inl ⟨rfl, hc⟩⟩) hmoved
  cases hcurrent
  exact ⟨update, hbase, hgate⟩

end PromotionSample

end Dim.NativeGit
