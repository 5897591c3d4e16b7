/-
The admitted root of a Project. Every admission keeps its binding and its root never goes back, over all
histories; a registration under the binding of the current admission moves that admission forward or is
refused. A registration under another binding replaces the admission whatever its sequence number is, so a
delayed proof of an earlier policy takes the Project back to an earlier root.
-/
import DimProofs.RootCi.Effect

namespace Dim.RootCi

open Relational Dim.Ordinary

section
variable [Sha256]

/-! ## Admissions over histories -/

/-- What becomes of an admission: its root stays or advances until it ends, and then nothing changes. -/
structure AdmissionRow.Advances (a a' : AdmissionRow) : Prop where
  succeeds : Succeeds a a'
  ended : a.state ≠ .active → a' = a

section
variable {context : ServiceContext} {db db' : RootDatabase} {projectId : String} {a a' a'' : AdmissionRow}

omit [Sha256] in
theorem Succeeds.trans [Sha256] (h : Succeeds a a') (h' : Succeeds a' a'') : Succeeds a a'' := by
  refine ⟨h'.binding.trans h.binding, h'.parsed ∘ h.parsed, ?_⟩
  rcases h.root with hlt | ⟨hseq, hcommit, htree⟩
  · left
    rcases h'.root with hlt' | ⟨hseq', -, -⟩ <;> omega
  · rcases h'.root with hlt' | ⟨hseq', hcommit', htree'⟩
    · left
      omega
    · exact Or.inr ⟨hseq'.trans hseq, hcommit'.trans hcommit, htree'.trans htree⟩

theorem AdmissionRow.Advances.refl (a : AdmissionRow) : a.Advances a := ⟨Succeeds.refl a, fun _ => rfl⟩

theorem AdmissionRow.Advances.trans (h : a.Advances a') (h' : a'.Advances a'') : a.Advances a'' := by
  refine ⟨h.succeeds.trans h'.succeeds, ?_⟩
  intro hs
  have he := h.ended hs
  rw [h'.ended (by rw [he]; exact hs), he]

variable {now : Int}

theorem AdmissionRow.ended_advances {selected : Bool} {state : AdmissionState}
    (h : selected = true → a.state = .active) : a.Advances (a.ended selected state now) := by
  refine ⟨a.ended_succeeds selected state now, ?_⟩
  intro hs
  have hsel : selected = false := by
    rw [← Bool.not_eq_true]
    exact fun hsel => hs (h hsel)
  simp [AdmissionRow.ended, hsel]

omit [Sha256] in
/-- The unique index on active admissions: the query of a Project's active admission has one answer. -/
theorem activeAdmission_of (hrow : db.admissions.get? a.admissionGeneration = some a) (hactive : a.state = .active) :
    db.activeAdmission a.projectId = some a := by
  have hmem := Table.get?_mem hrow
  have hsome : (db.activeAdmission a.projectId).isSome := by
    unfold RootDatabase.activeAdmission
    rw [List.find?_isSome]
    exact ⟨a, hmem, by simp [hactive]⟩
  obtain ⟨b, hb⟩ := Option.isSome_iff_exists.mp hsome
  obtain ⟨hbrow, hbproject, hbactive⟩ := activeAdmission_spec hb
  rw [hb, db.admissions.eq_of_conflict (Table.get?_mem hbrow) hmem
    (conflict_of_clash (by simp [Schema.clash, hactive, hbactive, hbproject]))]

variable {proof : NativeRootCiPolicyProof}

theorem Registered.advances {uuid : String}
    (h : Registered context proof uuid now db db') (g : String) (hg : db.admissions.get? g = some a) :
    ∃ a', db'.admissions.get? g = some a' ∧ a.Advances a' := by
  have hne : db.admissions.get? uuid = none → g ≠ uuid := by
    rintro hfresh rfl
    rw [hfresh] at hg
    cases hg
  cases h with
  | inserted hactive hs hfresh hget =>
    rw [hget, if_neg (hne hfresh)]
    exact ⟨a, hg, .refl a⟩
  | refreshed active hactive hbinding hconflicts hs hget =>
    obtain ⟨hrow, -, hstate⟩ := activeAdmission_spec hactive
    rw [hget]
    by_cases he : g = active.admissionGeneration
    · rw [he, hrow] at hg
      cases hg
      rw [if_pos he]
      exact ⟨_, rfl, AdmissionRow.advanced_succeeds hconflicts, fun hs => absurd hstate hs⟩
    · rw [if_neg he]
      exact ⟨a, hg, .refl a⟩
  | replaced active hactive hbinding hs hfresh hget =>
    obtain ⟨hrow, -, hstate⟩ := activeAdmission_spec hactive
    rw [hget, if_neg (hne hfresh), hg]
    refine ⟨_, rfl, AdmissionRow.ended_advances ?_⟩
    intro hsel
    have hkey : a.admissionGeneration = active.admissionGeneration := of_decide_eq_true hsel
    rw [← Table.get?_key hg, AdmissionRow.key_eq, hkey, hrow] at hg
    cases hg
    exact hstate

/-- No operation takes an admission back, or changes one that has ended. -/
theorem apply_advances (hi : Inv db) (action : Action) : ∀ g a, db.admissions.get? g = some a →
    ∃ a', (db.apply action).admissions.get? g = some a' ∧ a.Advances a' := by
  intro g a hg
  rcases apply_cases hi.recorded action with hsame | ⟨-, he⟩
  · rw [hsame]
    exact ⟨a, hg, .refl a⟩
  have hkept : (db.apply action).admissions = db.admissions →
      ∃ a', (db.apply action).admissions.get? g = some a' ∧ a.Advances a' := by
    intro hadmissions
    rw [hadmissions]
    exact ⟨a, hg, .refl a⟩
  generalize action.operation = operation at he
  cases he with
  | activateAdmissions hs hget =>
    rw [hget, hg]
    refine ⟨_, rfl, AdmissionRow.ended_advances ?_⟩
    intro hrotated
    simp only [AdmissionRow.rotated, Bool.and_eq_true, decide_eq_true_eq] at hrotated
    exact hrotated.1
  | register hr => exact hr.advances g hg
  | revoke row hrow hs hget =>
    rw [hget, hg]
    refine ⟨_, rfl, AdmissionRow.ended_advances ?_⟩
    intro hsel
    have hkey := of_decide_eq_true hsel
    unfold currentAdmission at hrow
    rw [← hkey, ← AdmissionRow.key_eq, Table.get?_key hg, hg] at hrow
    obtain ⟨hfound, hcurrent⟩ := Option.filter_eq_some_iff.mp hrow
    cases hfound
    simp only [AdmissionRow.current, Bool.and_eq_true, decide_eq_true_eq] at hcurrent
    exact hcurrent.2.1.1.1
  | activateEpoch epochs he => exact hkept (by rw [he])
  | commitEvent admission row hready hproof hc => exact hkept hc.admissions
  | reserve capacity d r a howns hd horigin hp hfresh hnone hview ht => exact hkept ht.admissions
  | activate assignment v e a ha hact hnone hm => exact hkept hm.touches.admissions
  | renew v hactive hm => exact hkept hm.touches.admissions
  | prepareRecovery assignment v ha helig hrecoverable hm => exact hkept hm.touches.admissions
  | completeRecovery v r demand hcomp hm hend => exact hkept hm.touches.admissions
  | acceptResult row hrow hadmits hm => exact hkept hm.touches.admissions
  | acknowledge v r o hack hclaim hreceipt hstate hreport hpending hevent hm => exact hkept hm.touches.admissions

theorem run_advances (hi : Inv db) : ∀ (actions : List Action) g a, db.admissions.get? g = some a →
    ∃ a', (db.run actions).admissions.get? g = some a' ∧ a.Advances a' := by
  intro actions
  induction actions generalizing db with
  | nil => exact fun g a hg => ⟨a, hg, .refl a⟩
  | cons action rest ih =>
    intro g a hg
    obtain ⟨a', hg', ha⟩ := apply_advances hi action g a hg
    obtain ⟨a'', hg'', ha'⟩ := ih (hi.apply action) g a' hg'
    exact ⟨a'', hg'', ha.trans ha'⟩

/-! ## Registrations -/

/-- One call of `register` by one instance. -/
structure Registration where
  context : ServiceContext
  proof : NativeRootCiPolicyProof
  uuid : String
  now : Int

def Registration.action (r : Registration) : Action := ⟨r.context, .register r.proof r.uuid r.now⟩

def Registration.bindingDigest (r : Registration) : String := ServiceContext.bindingDigest r.context r.proof

/-- A registration of the Project under the binding of its admission, or of another Project, leaves it admitted. -/
theorem register_admitted (hi : Inv db) (r : Registration) (hactive : db.activeAdmission projectId = some a)
    (h : r.proof.projectId = projectId → r.bindingDigest = a.bindingDigest) :
    ∃ a', (db.apply r.action).activeAdmission projectId = some a' ∧
      a'.admissionGeneration = a.admissionGeneration ∧ Succeeds a a' := by
  obtain ⟨hrow, hproject, hstate⟩ := activeAdmission_spec hactive
  obtain ⟨a', hrow', hadvances⟩ := apply_advances hi r.action _ a hrow
  have hrecord := hadvances.succeeds.binding
  have hgeneration : a'.admissionGeneration = a.admissionGeneration := congrArg (·.admissionGeneration) hrecord
  have hproject' : a'.projectId = projectId := (congrArg (·.projectId) hrecord).trans hproject
  suffices hs : a'.state = .active by
    refine ⟨a', ?_, hgeneration, hadvances.succeeds⟩
    rw [← hproject']
    exact activeAdmission_of (by rw [hgeneration]; exact hrow') hs
  rcases apply_cases hi.recorded r.action with hsame | ⟨-, he⟩
  · rw [hsame, hrow] at hrow'
    cases hrow'
    exact hstate
  unfold Registration.action at he hrow'
  cases he with
  | register hr =>
    cases hr with
    | inserted hnone hs hfresh hget =>
      rw [hget, if_neg (by rintro he; rw [he, hfresh] at hrow; cases hrow), hrow] at hrow'
      cases hrow'
      exact hstate
    | refreshed active hactive' hbinding hconflicts hs hget =>
      rw [hget] at hrow'
      split at hrow'
      · cases hrow'
        exact (activeAdmission_spec hactive').2.2
      · rw [hrow] at hrow'
        cases hrow'
        exact hstate
    | replaced active hactive' hbinding hs hfresh hget =>
      rw [hget, if_neg (by rintro he; rw [he, hfresh] at hrow; cases hrow), hrow] at hrow'
      cases hrow'
      -- the replaced admission has another binding, so it is the one of another Project
      have hother : a.admissionGeneration ≠ active.admissionGeneration := by
        intro hkey
        obtain ⟨hrowActive, hprojectActive, -⟩ := activeAdmission_spec hactive'
        rw [hkey, hrowActive] at hrow
        cases hrow
        exact hbinding (h (hprojectActive.symm.trans hproject)).symm
      simp only [AdmissionRow.ended, hother, decide_false, Bool.false_eq_true, if_false]
      exact hstate

theorem registrations_admitted (registrations : List Registration) (hi : Inv db)
    (hactive : db.activeAdmission projectId = some a)
    (h : ∀ r ∈ registrations, r.proof.projectId = projectId → r.bindingDigest = a.bindingDigest) :
    ∃ a', (db.run (registrations.map Registration.action)).activeAdmission projectId = some a' ∧
      a'.admissionGeneration = a.admissionGeneration ∧ Succeeds a a' := by
  induction registrations generalizing db a with
  | nil => exact ⟨a, hactive, rfl, Succeeds.refl a⟩
  | cons r rest ih =>
    obtain ⟨a', hactive', hgeneration, hsucceeds⟩ := register_admitted hi r hactive (h r List.mem_cons_self)
    have hbinding : a'.bindingDigest = a.bindingDigest := congrArg (·.bindingDigest) hsucceeds.binding
    obtain ⟨a'', hactive'', hgeneration', hsucceeds'⟩ := ih (hi.apply r.action) hactive'
      (fun s hs hp => (h s (List.mem_cons_of_mem r hs) hp).trans hbinding.symm)
    exact ⟨a'', hactive'', hgeneration'.trans hgeneration, hsucceeds.trans hsucceeds'⟩

/-- The answer to a registration under the binding of the current admission. -/
theorem registerMutation_bound (uuid : String) (now : Int)
    (hactive : db.activeAdmission proof.projectId = some a)
    (hbinding : a.bindingDigest = ServiceContext.bindingDigest context proof) :
    registerMutation context proof uuid now db = refreshAdmission context proof a now db := by
  unfold registerMutation
  rw [hactive]
  simp only [hbinding, if_true]

/-- An older root, or another root under the same number, is refused. -/
theorem register_refused (uuid : String) (now : Int)
    (hactive : db.activeAdmission proof.projectId = some a)
    (hbinding : a.bindingDigest = ServiceContext.bindingDigest context proof)
    (hconflicts : a.conflicts proof.currentRoot = true) :
    registerMutation context proof uuid now db = .ok (.conflict, db) := by
  rw [registerMutation_bound uuid now hactive hbinding]
  unfold refreshAdmission
  rw [if_pos hconflicts]
  rfl

/-- The proof names the root and the binding of the admission. -/
structure AdmissionRow.Registers (context : ServiceContext) (proof : NativeRootCiPolicyProof) (a : AdmissionRow) : Prop where
  binding : a.bindingDigest = ServiceContext.bindingDigest context proof
  sequence : a.rootSequence = proof.currentRoot.sequence
  commit : a.rootCommit = proof.currentRoot.commit
  tree : a.rootTree = proof.currentRoot.tree

/-- An exact replay of the current registration renews its lease and changes nothing else. -/
theorem register_replayed (uuid : String) (hnow : 0 < now)
    (hactive : db.activeAdmission proof.projectId = some a) (hsame : a.Registers context proof) :
    ∃ admissions, registerMutation context proof uuid now db =
        .ok (.registered ⟨a.admissionGeneration, context.capacityConfigDigest,
          now + context.eligibilityLeaseMilliseconds, proof⟩, { db with admissions }) ∧
      ∀ g, admissions.get? g = if g = a.admissionGeneration then
        some { a with leaseExpiresAt := now + context.eligibilityLeaseMilliseconds, refreshedAt := now }
        else db.admissions.get? g := by
  obtain ⟨hrow, -, -⟩ := activeAdmission_spec hactive
  have hmem := Table.get?_mem hrow
  have hlease := context.leases.1
  have hchecked := db.admissions.checked a hmem
  have hself : ∀ s ∈ db.admissions.rows, (decide (s.admissionGeneration = a.admissionGeneration)) = true → s = a := by
    intro s hs hk
    have hget := Table.get?_of_mem hs
    rw [AdmissionRow.key_eq, of_decide_eq_true hk, hrow] at hget
    exact (Option.some.inj hget).symm
  obtain ⟨admissions, hu⟩ := Table.update_one_of (ε := RootCiError)
    (f := AdmissionRow.advanced proof.currentRoot (now + context.eligibilityLeaseMilliseconds) now) hself
    (by
      simp only [Schema.check, Bool.and_eq_true, decide_eq_true_eq] at hchecked ⊢
      exact ⟨⟨by show 0 < now + context.eligibilityLeaseMilliseconds; omega, hchecked.1.2⟩, hnow⟩)
    (fun s hs hc => hc)
  have hconflicts : a.conflicts proof.currentRoot = false := by
    simp [AdmissionRow.conflicts, hsame.sequence, hsame.commit, hsame.tree]
  refine ⟨admissions, ?_, ?_⟩
  · rw [registerMutation_bound uuid now hactive hsame.binding]
    unfold refreshAdmission
    rw [if_neg (by rw [hconflicts]; exact Bool.false_ne_true), if_neg (by rw [hsame.sequence]; omega)]
    show (do let admissions ← db.admissions.update _ _; _) = _
    rw [hu]
    rfl
  · intro g
    rw [Table.get?_update_at (x := a.admissionGeneration) hu (fun _ => rfl) (by simp) g, hrow]
    simp only [Option.map_some, AdmissionRow.advanced, ← hsame.sequence, ← hsame.commit, ← hsame.tree]

end

/-! ## Every history -/

/-- What holds of the admissions of a state and of its later registrations. -/
structure AdmissionsAdvance (db : RootDatabase) : Prop where
  generation : ∀ (after : List Action) g a, db.admissions.get? g = some a →
    ∃ a', (db.run after).admissions.get? g = some a' ∧ a.Advances a'
  admitted : ∀ (registrations : List Registration) projectId a, db.activeAdmission projectId = some a →
    (∀ r ∈ registrations, r.proof.projectId = projectId → r.bindingDigest = a.bindingDigest) →
    ∃ a', (db.run (registrations.map Registration.action)).activeAdmission projectId = some a' ∧
      a'.admissionGeneration = a.admissionGeneration ∧ Succeeds a a'
  refused : ∀ context (proof : NativeRootCiPolicyProof) uuid now a, db.activeAdmission proof.projectId = some a →
    a.bindingDigest = ServiceContext.bindingDigest context proof → a.conflicts proof.currentRoot = true →
    registerMutation context proof uuid now db = .ok (.conflict, db)
  replayed : ∀ context (proof : NativeRootCiPolicyProof) uuid now a, 0 < now → db.activeAdmission proof.projectId = some a →
    a.Registers context proof → ∃ admissions, registerMutation context proof uuid now db =
        .ok (.registered ⟨a.admissionGeneration, context.capacityConfigDigest,
          now + context.eligibilityLeaseMilliseconds, proof⟩, { db with admissions }) ∧
      ∀ g, admissions.get? g = if g = a.admissionGeneration then
        some { a with leaseExpiresAt := now + context.eligibilityLeaseMilliseconds, refreshedAt := now }
        else db.admissions.get? g

/-- In every state of every history, admissions only advance: over the rest of the history each keeps its
binding and never returns to an earlier root, and a Project is taken back by no registration under the binding
of its current admission. -/
theorem admissions_advance (actions : List Action) : AdmissionsAdvance (RootDatabase.empty.run actions) := by
  have hi : Inv (RootDatabase.empty.run actions) := Inv.empty.run actions
  constructor
  · exact fun after g a hg => run_advances hi after g a hg
  · exact fun registrations projectId a hactive h => registrations_admitted registrations hi hactive h
  · exact fun context proof uuid now a hactive hbinding hconflicts => register_refused uuid now hactive hbinding hconflicts
  · exact fun context proof uuid now a hnow hactive hsame => register_replayed uuid hnow hactive hsame

end

namespace Sample

/-- A digest that tells texts of different sizes apart. -/
@[reducible] def sized : Sha256 := ⟨fun text => toString text.utf8ByteSize⟩

attribute [local instance] sized

def revised (policyRevision : String) : NativeRootCiPolicy :=
  { protectedRef := "main", policyRevision, requiredReviewRevision := "1", requiredJobSetRevision := "1",
    requiredJobs := [], requiredReviewerIds := [], pathReviewerRules := [] }

/-- The policy proof of a root under a revision of the policy. -/
def revisedProof (policyRevision : String) (sequence : Nat) : NativeRootCiPolicyProof :=
  { servingGenerationId := "generation", projectId := "project"
    currentRoot :=
      { importNonce := "nonce", sequence, protectedRef := "main", commit := objectId, tree := objectId,
        policyDigest := Sha256.hex (revised policyRevision).json }
    policy := revised policyRevision
    parsed := by simp [NativeRootCiCurrentRoot.matchesPolicy, revised, objectId_valid] }

/-- The nonce, sequence number and lease of the Project's admission after each delivered proof. -/
def admitted (db : RootDatabase) : List (NativeRootCiPolicyProof × String × Int) → List (Option (String × Nat × Int))
  | [] => []
  | (proof, uuid, now) :: rest =>
    let db := db.apply ⟨context, .register proof uuid now⟩
    (db.activeAdmission "project").map (fun a => (a.importNonce, a.rootSequence, a.leaseExpiresAt)) :: admitted db rest

theorem first_digest : ServiceContext.bindingDigest context (revisedProof "1" 1) = "473" := by decide +kernel

theorem second_digest : ServiceContext.bindingDigest context (revisedProof "22" 2) = "474" := by decide +kernel

/-- The database after a registration under another binding. -/
def replaced (generation : String) (proof : NativeRootCiPolicyProof) (uuid : String) (now : Int) (db : RootDatabase) :
    RootDatabase :=
  db.commit (Except.map (·.2) do
    let db ← supersedeGeneration generation now db
    let db ← endAdmissions (fun a => a.admissionGeneration = generation) .replaced now db
    insertAdmission context proof uuid now db)

theorem apply_replaced {db : RootDatabase} {proof : NativeRootCiPolicyProof} {active : AdmissionRow} (uuid : String)
    (now : Int) (hactive : db.activeAdmission proof.projectId = some active)
    (hne : active.bindingDigest ≠ ServiceContext.bindingDigest context proof) :
    db.apply ⟨context, .register proof uuid now⟩ = replaced active.admissionGeneration proof uuid now db := by
  simp only [RootDatabase.apply, Operation.body, registerMutation, hactive]
  rw [if_neg hne, replaced]

def registered : RootDatabase := RootDatabase.empty.apply ⟨context, .register (revisedProof "1" 1) "a" 1⟩

/-- A delayed proof of the first root, which native Git issued before the policy changed, takes the Project
back from the second root under one import nonce; and an exact replay moves the lease. -/
theorem admission_returned : admitted .empty [(revisedProof "1" 1, "a", 1), (revisedProof "22" 2, "b", 2),
    (revisedProof "1" 1, "c", 3), (revisedProof "1" 1, "d", 4)] =
      [some ("nonce", 1, 1001), some ("nonce", 2, 1002), some ("nonce", 1, 1003), some ("nonce", 1, 1004)] := by
  have hne : ServiceContext.bindingDigest context (revisedProof "1" 1) ≠
      ServiceContext.bindingDigest context (revisedProof "22" 2) := by
    rw [first_digest, second_digest]
    decide
  have hfirst : registered.activeAdmission "project" = some (admission context (revisedProof "1" 1) "a" 1) := by rfl
  have hsecond : (replaced "a" (revisedProof "22" 2) "b" 2 registered).activeAdmission "project" =
      some (admission context (revisedProof "22" 2) "b" 2) := by rfl
  have hregistered : RootDatabase.empty.apply ⟨context, .register (revisedProof "1" 1) "a" 1⟩ = registered := rfl
  simp only [admitted, hregistered, @apply_replaced _ (revisedProof "22" 2) _ "b" 2 hfirst hne,
    @apply_replaced _ (revisedProof "1" 1) _ "c" 3 hsecond hne.symm, admission]
  decide +kernel

end Sample

end Dim.RootCi
