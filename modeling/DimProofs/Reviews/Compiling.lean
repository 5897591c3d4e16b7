/-
What compiling a policy says: the reviewers, jobs and rules that are read of a review's value, their grammar, and the sorted
policy of them. A review whose lists are in another order is read as the same lists in another order, and a policy's own
entries are read as themselves.
-/
import DimProofs.Repositories.Reading
import DimProofs.Reviews.Imported

namespace Dim.Reviews

open Repositories (Text Value Failure require field validateLifecycleName normalizeRepositoryRef then_ok require_ok
  validateLifecycleName_ok)
open Relational (bind_ok pure_ok)
open Projects (Sha256)

/-! ## Lists that are read item by item -/

section MapM

variable {α β ε : Type}

theorem mapM_ok {f : α → Except ε β} : ∀ {items : List α} {results : List β},
    items.mapM f = .ok results ↔ List.Forall₂ (fun item result => f item = .ok result) items results
  | [], results => by
    rw [List.mapM_nil, pure_ok, List.forall₂_nil_left_iff]
    exact eq_comm
  | item :: items, results => by
    rw [List.mapM_cons, bind_ok]
    constructor
    · rintro ⟨result, hresult, h⟩
      obtain ⟨rest, hrest, h⟩ := bind_ok.mp h
      cases pure_ok.mp h
      exact .cons hresult (mapM_ok.mp hrest)
    · rintro (_ | ⟨hresult, hrest⟩)
      exact ⟨_, hresult, bind_ok.mpr ⟨_, mapM_ok.mpr hrest, rfl⟩⟩

theorem bind_some {x : Option α} {f : α → Option β} {b : β} : x >>= f = some b ↔ ∃ a, x = some a ∧ f a = some b :=
  Option.bind_eq_some_iff

theorem mapM_some {f : α → Option β} : ∀ {items : List α} {results : List β},
    items.mapM f = some results ↔ List.Forall₂ (fun item result => f item = some result) items results
  | [], results => by
    rw [List.mapM_nil, List.forall₂_nil_left_iff, Option.pure_def, Option.some_inj]
    exact eq_comm
  | item :: items, results => by
    rw [List.mapM_cons, Option.bind_eq_bind, Option.bind_eq_some_iff]
    constructor
    · rintro ⟨result, hresult, h⟩
      obtain ⟨rest, hrest, h⟩ := Option.bind_eq_some_iff.mp h
      cases h
      exact .cons hresult (mapM_some.mp hrest)
    · rintro (_ | ⟨hresult, hrest⟩)
      exact ⟨_, hresult, Option.bind_eq_some_iff.mpr ⟨_, mapM_some.mpr hrest, rfl⟩⟩

/-- Values that are read back as what they were made of. -/
theorem forall₂_map {γ : Type} {R : γ → β → Prop} {g : β → γ} {items : List β} (h : ∀ b ∈ items, R (g b) b) :
    List.Forall₂ R (items.map g) items := by
  rw [List.forall₂_map_left_iff, List.forall₂_same]
  exact h

/-- Every result comes of an item. -/
theorem forall₂_right {R : α → β → Prop} {as : List α} {bs : List β} (h : List.Forall₂ R as bs) :
    ∀ b ∈ bs, ∃ a ∈ as, R a b := by
  induction h with
  | nil => exact nofun
  | cons hab hrest ih =>
    intro b hb
    rcases List.mem_cons.mp hb with rfl | hb
    · exact ⟨_, List.mem_cons_self, hab⟩
    · obtain ⟨a, ha, hR⟩ := ih b hb
      exact ⟨a, List.mem_cons_of_mem _ ha, hR⟩

end MapM

/-! ## What is read -/

theorem textOf_some {check : Text → Bool} {value : Value} {text : Text} :
    textOf check value = some text ↔ value = .string text ∧ check text = true := by
  cases value <;> simp only [textOf, reduceCtorEq, false_and]
  split
  · next h => exact ⟨fun hs => by cases hs; exact ⟨rfl, h⟩, fun hs => by cases hs.1; rfl⟩
  · next h => exact ⟨nofun, fun hs => by cases hs.1; exact absurd hs.2 h⟩

variable {items : List Value}

theorem entries_ok {value : Value} {label : Text} {allowEmpty : Bool} :
    entries value label allowEmpty = .ok items ↔ value = .array items ∧ (allowEmpty = false → items ≠ []) := by
  cases value <;> simp only [entries, reduceCtorEq, false_and, Value.array.injEq]
  split
  · next h =>
    rw [Bool.and_eq_true, Bool.not_eq_true', List.isEmpty_iff] at h
    refine ⟨nofun, ?_⟩
    rintro ⟨rfl, hne⟩
    exact absurd h.2 (hne h.1)
  · next h =>
    rw [Bool.and_eq_true, Bool.not_eq_true', List.isEmpty_iff] at h
    constructor
    · intro hs
      cases hs
      exact ⟨rfl, fun hallow hnil => h ⟨hallow, hnil⟩⟩
    · rintro ⟨rfl, -⟩
      rfl

/-- A list of reviewers. -/
structure Reviewers (ids : List Text) : Prop where
  nonempty : ids ≠ []
  nodup : ids.Nodup
  named : ∀ name ∈ ids, reviewerPattern name = true

variable {ids : List Text}

theorem Reviewers.perm {ids' : List Text} (h : Reviewers ids) (hperm : ids.Perm ids') : Reviewers ids' where
  nonempty hnil := h.nonempty (List.perm_nil.mp (hnil ▸ hperm))
  nodup := hperm.nodup_iff.mp h.nodup
  named name hname := h.named name (hperm.mem_iff.mpr hname)

theorem reviewerIds_ok {value : Value} {label : Text} :
    reviewerIds value label = .ok ids ↔
      (∃ items, value = .array items ∧ List.Forall₂ (fun item name => textOf reviewerPattern item = some name) items ids) ∧
        Reviewers ids := by
  rw [reviewerIds, bind_ok]
  constructor
  · rintro ⟨items, hitems, h⟩
    obtain ⟨rfl, hne⟩ := entries_ok.mp hitems
    split at h
    · cases h
    · next read hread =>
      split at h
      · next hnodup =>
        cases h
        have hall := mapM_some.mp hread
        refine ⟨⟨items, rfl, hall⟩, fun hnil => ?_, hnodup, fun name hname => ?_⟩
        · subst hnil
          exact hne rfl (List.forall₂_nil_right_iff.mp hall)
        · obtain ⟨item, -, hitem⟩ := forall₂_right hall name hname
          exact (textOf_some.mp hitem).2
      · cases h
  · rintro ⟨⟨items, rfl, hall⟩, hids⟩
    refine ⟨items, entries_ok.mpr ⟨rfl, fun _ hnil => ?_⟩, ?_⟩
    · subst hnil
      exact hids.nonempty (List.forall₂_nil_left_iff.mp hall)
    · rw [mapM_some.mpr hall]
      exact if_pos hids.nodup

/-- A list of jobs. -/
structure Jobs (jobs : List RequiredJob) : Prop where
  bounded : jobs.length ≤ 64
  nodup : (jobs.map RequiredJob.name).Nodup
  named : ∀ job ∈ jobs, jobPattern job.name = true

variable {jobs : List RequiredJob}

theorem Jobs.perm {jobs' : List RequiredJob} (h : Jobs jobs) (hperm : jobs.Perm jobs') : Jobs jobs' where
  bounded := hperm.length_eq ▸ h.bounded
  nodup := (hperm.map RequiredJob.name).nodup_iff.mp h.nodup
  named job hjob := h.named job (hperm.mem_iff.mpr hjob)

/-- Jobs of one name are one job. -/
theorem Jobs.name_inj {jobs : List RequiredJob} (h : Jobs jobs) : ∀ a ∈ jobs, ∀ b ∈ jobs, a.name = b.name → a = b :=
  fun _ ha _ hb => List.inj_on_of_nodup_map h.nodup ha hb

theorem readJob_named {value : Value} {job : RequiredJob} (h : readJob value = .ok job) : jobPattern job.name = true := by
  obtain ⟨fields, -, h⟩ := bind_ok.mp h
  split at h
  · next name kind hname hkind =>
    cases h
    exact (textOf_some.mp hname).2
  · cases h

theorem readJobs_ok {value : Value} {sorted : List RequiredJob} :
    readJobs value = .ok sorted ↔ ∃ items jobs, value = .array items ∧
      List.Forall₂ (fun item job => readJob item = .ok job) items jobs ∧ Jobs jobs ∧
        sorted = Utf16.sortBy RequiredJob.name jobs := by
  rw [readJobs, bind_ok]
  constructor
  · rintro ⟨items, hitems, h⟩
    obtain ⟨rfl, -⟩ := entries_ok.mp hitems
    obtain ⟨jobs, hjobs, h⟩ := bind_ok.mp h
    obtain ⟨hrequire, h⟩ := then_ok.mp h
    have hconditions := require_ok.mp hrequire
    rw [Bool.and_eq_true, decide_eq_true_eq, decide_eq_true_eq, Utf16.length_sortBy] at hconditions
    have hall := mapM_ok.mp hjobs
    refine ⟨items, jobs, rfl, hall, ⟨hconditions.1, ?_, fun job hjob => ?_⟩, (pure_ok.mp h).symm⟩
    · exact ((Utf16.sortBy_perm RequiredJob.name jobs).map RequiredJob.name).nodup_iff.mp hconditions.2
    · obtain ⟨item, -, hitem⟩ := forall₂_right hall job hjob
      exact readJob_named hitem
  · rintro ⟨items, jobs, rfl, hall, hjobs, rfl⟩
    refine ⟨items, entries_ok.mpr ⟨rfl, nofun⟩, bind_ok.mpr ⟨jobs, mapM_ok.mpr hall, then_ok.mpr ⟨require_ok.mpr ?_, rfl⟩⟩⟩
    rw [Bool.and_eq_true, decide_eq_true_eq, decide_eq_true_eq, Utf16.length_sortBy]
    exact ⟨hjobs.bounded, ((Utf16.sortBy_perm RequiredJob.name jobs).map RequiredJob.name).nodup_iff.mpr hjobs.nodup⟩

/-- A rule whose reviewers are sorted. -/
structure Rule (rule : PathReviewerRule) : Prop where
  safe : safePathPrefix rule.pathPrefix = true
  reviewers : Reviewers rule.reviewerIds
  sorted : Utf16.sortBy id rule.reviewerIds = rule.reviewerIds

theorem sorted_ids (ids : List Text) : Utf16.sortBy id (Utf16.sortBy id ids) = Utf16.sortBy id ids :=
  Utf16.sortBy_sortBy fun _ _ _ _ h => h

theorem readRule_ok {value : Value} {rule : PathReviewerRule} (h : readRule value = .ok rule) : Rule rule := by
  obtain ⟨fields, -, h⟩ := bind_ok.mp h
  split at h
  · cases h
  · next pathPrefix hpath =>
    obtain ⟨ids, hids, h⟩ := bind_ok.mp h
    cases pure_ok.mp h
    exact ⟨(textOf_some.mp hpath).2, (reviewerIds_ok.mp hids).2.perm (Utf16.sortBy_perm id ids).symm, sorted_ids ids⟩

theorem readRules_ok {value : Value} {sorted : List PathReviewerRule} :
    readRules value = .ok sorted ↔ (value = .undefined ∧ sorted = []) ∨ ∃ items rules, value = .array items ∧
      List.Forall₂ (fun item rule => readRule item = .ok rule) items rules ∧
        sorted = Utf16.sortBy PathReviewerRule.key rules := by
  cases value with
  | undefined => simp [readRules, eq_comm]
  | array items =>
    simp only [readRules, reduceCtorEq, false_and, false_or, Value.array.injEq]
    rw [bind_ok]
    constructor
    · rintro ⟨items', hitems, h⟩
      cases (entries_ok.mp hitems).1
      obtain ⟨rules, hrules, h⟩ := bind_ok.mp h
      exact ⟨items, rules, rfl, mapM_ok.mp hrules, (pure_ok.mp h).symm⟩
    · rintro ⟨_, rules, rfl, hall, rfl⟩
      exact ⟨items, entries_ok.mpr ⟨rfl, nofun⟩, bind_ok.mpr ⟨rules, mapM_ok.mpr hall, rfl⟩⟩
  | _ => simp [readRules, entries, bind, Except.bind]

/-! ## Rules and their texts -/

theorem stringifyItems_texts (texts : List Text) :
    stringifyItems (texts.map Value.string) = (texts.map String.ofList).map Json.string := by
  induction texts with
  | nil => rfl
  | cons text texts ih => rw [List.map_cons, stringifyItems, ih]; rfl

/-- The members of a rule's text. -/
def PathReviewerRule.members (rule : PathReviewerRule) : List (String × String) :=
  [("pathPrefix", Json.string (String.ofList rule.pathPrefix)),
    ("reviewerIds", Json.array ((rule.reviewerIds.map String.ofList).map Json.string))]

theorem stringify_rule (rule : PathReviewerRule) : stringify rule.toValue = Json.object rule.members := by
  simp only [stringify, PathReviewerRule.toValue, PathReviewerRule.members, Value.ofTexts, stringify?, stringifyEntries,
    stringifyItems_texts, Option.getD_some, String.ofList_toList]

/-- A rule is determined by the text that rules are sorted by. -/
theorem key_injective : Function.Injective PathReviewerRule.key := by
  intro rule rule' h
  have htext := String.toList_inj.mp h
  rw [stringify_rule, stringify_rule] at htext
  have hcancels : List.Forall₂ (fun m m' => m.1 = m'.1 ∧ Json.Cancels m.2 m'.2) rule.members rule'.members :=
    .cons ⟨rfl, Json.string_cancels _ _⟩ (.cons ⟨rfl, Json.strings_cancels _ _⟩ .nil)
  have hmembers := Json.object_injective hcancels htext
  simp only [PathReviewerRule.members, List.cons.injEq, Prod.mk.injEq, true_and, and_true] at hmembers
  obtain ⟨hpath, hids⟩ := hmembers
  obtain ⟨pathPrefix, ids⟩ := rule
  obtain ⟨pathPrefix', ids'⟩ := rule'
  rw [PathReviewerRule.mk.injEq]
  exact ⟨String.ofList_injective (Json.string_inj.mp hpath),
    List.map_injective_iff.mpr (fun _ _ => String.ofList_injective) (Json.strings_injective hids)⟩

/-! ## Compiled policies -/

/-- The grammar of the entries of a policy, and their order. -/
structure Normal (ids : List Text) (jobs : List RequiredJob) (rules : List PathReviewerRule) : Prop where
  hasReviewers : Reviewers ids
  sortedReviewers : Utf16.sortBy id ids = ids
  hasJobs : Jobs jobs
  sortedJobs : Utf16.sortBy RequiredJob.name jobs = jobs
  hasRules : ∀ rule ∈ rules, Rule rule
  sortedRules : Utf16.sortBy PathReviewerRule.key rules = rules

/-- What a root's alias and its protected ref satisfy. -/
structure Rooted (rootAlias protectedRef : Text) : Prop where
  named : Lifecycle.validLifecycleName (String.ofList rootAlias) = true
  normal : normalizeRepositoryRef protectedRef = .ok protectedRef
  safe : safeHeadRef protectedRef = true

section Compile

variable [Sha256]

variable {input : Input} {policy : NativeRootBootstrapPolicy}

theorem compile_ok :
    compileNativeRootBootstrapPolicy input = .ok policy ↔
      Rooted input.rootAlias input.protectedRef ∧ ∃ review ids jobs rules,
        exactRecord input.review ["requiredReviewerIds".toList, "requiredJobs".toList] ["pathReviewerRules".toList]
          "native root review policy".toList = .ok review ∧
        reviewerIds (field review "requiredReviewerIds".toList) "required reviewers".toList = .ok ids ∧
        readJobs (field review "requiredJobs".toList) = .ok jobs ∧
        readRules (field review "pathReviewerRules".toList) = .ok rules ∧
        policy = policyOf input.rootAlias input.protectedRef (Utf16.sortBy id ids) jobs rules := by
  unfold compileNativeRootBootstrapPolicy
  constructor
  · intro h
    obtain ⟨rootAlias, hname, h⟩ := bind_ok.mp h
    obtain ⟨rfl, hvalid⟩ := validateLifecycleName_ok.mp hname
    obtain ⟨ref, href, h⟩ := bind_ok.mp h
    obtain ⟨hrequire, h⟩ := then_ok.mp h
    have hconditions := require_ok.mp hrequire
    rw [Bool.and_eq_true, decide_eq_true_eq] at hconditions
    obtain ⟨rfl, hsafe⟩ := hconditions
    obtain ⟨review, hreview, h⟩ := bind_ok.mp h
    obtain ⟨ids, hids, h⟩ := bind_ok.mp h
    obtain ⟨jobs, hjobs, h⟩ := bind_ok.mp h
    obtain ⟨rules, hrules, h⟩ := bind_ok.mp h
    exact ⟨⟨hvalid, href, hsafe⟩, review, ids, jobs, rules, hreview, hids, hjobs, hrules, (pure_ok.mp h).symm⟩
  · rintro ⟨hrooted, review, ids, jobs, rules, hreview, hids, hjobs, hrules, rfl⟩
    refine bind_ok.mpr ⟨_, validateLifecycleName_ok.mpr ⟨rfl, hrooted.named⟩,
      bind_ok.mpr ⟨_, hrooted.normal, then_ok.mpr ⟨?_, ?_⟩⟩⟩
    · exact require_ok.mpr (by simp [hrooted.safe])
    · exact bind_ok.mpr ⟨_, hreview, bind_ok.mpr ⟨_, hids, bind_ok.mpr ⟨_, hjobs, bind_ok.mpr ⟨_, hrules, rfl⟩⟩⟩⟩

/-- A compiled policy is that of its own normal entries. -/
theorem compile_normal (h : compileNativeRootBootstrapPolicy input = .ok policy) :
    ∃ ids jobs rules, Normal ids jobs rules ∧ Rooted input.rootAlias input.protectedRef ∧
      policy = policyOf input.rootAlias input.protectedRef ids jobs rules := by
  obtain ⟨hrooted, review, ids, sortedJobs, sortedRules, -, hids, hread, hrules, rfl⟩ := compile_ok.mp h
  obtain ⟨jobItems, jobs, -, -, hjobs, rfl⟩ := readJobs_ok.mp hread
  have hreviewers := (reviewerIds_ok.mp hids).2.perm (Utf16.sortBy_perm id ids).symm
  have hsortedJobs := hjobs.perm (Utf16.sortBy_perm RequiredJob.name jobs).symm
  have hsame := Utf16.sortBy_sortBy hjobs.name_inj
  refine ⟨_, _, sortedRules, ⟨hreviewers, sorted_ids ids, hsortedJobs, hsame, ?_, ?_⟩, hrooted, rfl⟩
  · rcases readRules_ok.mp hrules with ⟨-, rfl⟩ | ⟨items, rules, -, hall, rfl⟩
    · exact nofun
    · intro rule hrule
      obtain ⟨item, -, hitem⟩ := forall₂_right hall rule (Utf16.mem_sortBy.mp hrule)
      exact readRule_ok hitem
  · rcases readRules_ok.mp hrules with ⟨-, rfl⟩ | ⟨items, rules, -, -, rfl⟩
    · rfl
    · exact Utf16.sortBy_sortBy fun _ _ _ _ hkey => key_injective hkey

end Compile

/-! ## The entries of a policy as values -/

theorem own_reviewerIds {ids : List Text} (h : Reviewers ids) (label : Text) : reviewerIds (.ofTexts ids) label = .ok ids :=
  reviewerIds_ok.mpr ⟨⟨_, rfl, forall₂_map fun name hname => textOf_some.mpr ⟨rfl, h.named name hname⟩⟩, h⟩

theorem parse_text : ∀ kind : ExecutionKind, ExecutionKind.parse kind.text = some kind
  | .ordinarySysbox => by decide
  | .qemu => by decide

theorem own_job {job : RequiredJob} (h : jobPattern job.name = true) : readJob job.toValue = .ok job := by
  refine bind_ok.mpr ⟨[("name".toList, .string job.name), ("kind".toList, .string job.kind.text)], rfl, ?_⟩
  have hname : textOf jobPattern (field [("name".toList, .string job.name),
    ("kind".toList, .string job.kind.text)] "name".toList) = some job.name := textOf_some.mpr ⟨rfl, h⟩
  have hkind : (textOf (fun _ => true) (field [("name".toList, .string job.name), ("kind".toList, .string job.kind.text)]
    "kind".toList)).bind ExecutionKind.parse = some job.kind := parse_text job.kind
  rw [hname, hkind]
  rfl

theorem own_jobs (h : Jobs jobs) (hsorted : Utf16.sortBy RequiredJob.name jobs = jobs) :
    readJobs (.array (jobs.map RequiredJob.toValue)) = .ok jobs :=
  readJobs_ok.mpr ⟨_, jobs, rfl, forall₂_map fun job hjob => own_job (h.named job hjob), h, hsorted.symm⟩

theorem own_rule {rule : PathReviewerRule} (h : Rule rule) : readRule rule.toValue = .ok rule := by
  refine bind_ok.mpr ⟨[("pathPrefix".toList, .string rule.pathPrefix),
    ("reviewerIds".toList, .ofTexts rule.reviewerIds)], rfl, ?_⟩
  have hpath : textOf safePathPrefix (field [("pathPrefix".toList, .string rule.pathPrefix),
    ("reviewerIds".toList, .ofTexts rule.reviewerIds)] "pathPrefix".toList) =
      some rule.pathPrefix := textOf_some.mpr ⟨rfl, h.safe⟩
  rw [hpath]
  refine bind_ok.mpr ⟨_, own_reviewerIds h.reviewers _, ?_⟩
  rw [h.sorted]
  rfl

variable {rules : List PathReviewerRule}

theorem own_rules (h : ∀ rule ∈ rules, Rule rule)
    (hsorted : Utf16.sortBy PathReviewerRule.key rules = rules) :
    readRules (.array (rules.map PathReviewerRule.toValue)) = .ok rules :=
  readRules_ok.mpr (.inr ⟨_, rules, rfl, forall₂_map fun rule hrule => own_rule (h rule hrule), hsorted.symm⟩)

/-- The review that a policy is compiled from again: its own entries, the jobs without their evidence class. -/
def ReviewPolicy.review (policy : ReviewPolicy) : Value :=
  .object [("requiredReviewerIds".toList, .ofTexts policy.requiredReviewerIds),
    ("pathReviewerRules".toList, .array (policy.pathReviewerRules.map PathReviewerRule.toValue)),
    ("requiredJobs".toList, .array (policy.requiredJobs.map RequiredJob.toValue))]

variable {protectedRef rootAlias : Text}

/-- A normal policy's entries are compiled into it again. -/
theorem compile_own [Sha256] (hrooted : Rooted rootAlias protectedRef) (h : Normal ids jobs rules) :
    compileNativeRootBootstrapPolicy ⟨rootAlias, protectedRef,
      (policyOf rootAlias protectedRef ids jobs rules).reviewPolicy.review⟩ =
      .ok (policyOf rootAlias protectedRef ids jobs rules) := by
  refine compile_ok.mpr ⟨hrooted, _, ids, jobs, rules, rfl, ?_, ?_, ?_, by rw [h.sortedReviewers]⟩
  · exact own_reviewerIds h.hasReviewers _
  · exact own_jobs h.hasJobs h.sortedJobs
  · exact own_rules h.hasRules h.sortedRules

/-! ## Reviews in another order -/

/-- The same items in another order, up to a relation of items. -/
inductive Reordered (R : Value → Value → Prop) : Value → Value → Prop
  | same (value : Value) : Reordered R value value
  | array {items middle items' : List Value} : items.Perm middle → List.Forall₂ R middle items' →
    Reordered R (.array items) (.array items')

/-- The same fields, with values that are related under each name. -/
inductive SameFields (R : Text → Value → Value → Prop) : Value → Value → Prop
  | same (value : Value) : SameFields R value value
  | object {fields fields' : List (Text × Value)} :
    List.Forall₂ (fun entry entry' => entry.1 = entry'.1 ∧ R entry.1 entry.2 entry'.2) fields fields' →
    SameFields R (.object fields) (.object fields')

/-- The same rule, with its reviewers in another order. -/
def SameRule : Value → Value → Prop :=
  SameFields fun name value value' =>
    if name = "reviewerIds".toList then Reordered (· = ·) value value' else value = value'

/-- The same review, with reviewers, jobs, rules and the reviewers of rules in another order. -/
def SameReview : Value → Value → Prop :=
  SameFields fun name value value' =>
    if name = "pathReviewerRules".toList then Reordered SameRule value value' else Reordered (· = ·) value value'

section SameFields

variable {R : Text → Value → Value → Prop} {required optional : List Text} {label : Text} {value value' : Value}

variable {fields fields' : List (Text × Value)}

theorem field_same (hrefl : ∀ name value, R name value value)
    (h : List.Forall₂ (fun entry entry' => entry.1 = entry'.1 ∧ R entry.1 entry.2 entry'.2) fields fields') (name : Text) :
    R name (field fields name) (field fields' name) := by
  induction h with
  | nil => exact hrefl name _
  | @cons entry entry' fields fields' hentry hrest ih =>
    obtain ⟨key, value⟩ := entry
    obtain ⟨key', value'⟩ := entry'
    obtain ⟨rfl, hvalue⟩ := hentry
    unfold field at ih ⊢
    rw [List.lookup_cons, List.lookup_cons]
    cases hkey : name == key with
    | true => exact (beq_iff_eq.mp hkey) ▸ hvalue
    | false => exact ih

theorem keys_same
    (h : List.Forall₂ (fun entry entry' => entry.1 = entry'.1 ∧ R entry.1 entry.2 entry'.2) fields fields') :
    fields.map Prod.fst = fields'.map Prod.fst := by
  induction h with
  | nil => rfl
  | cons hentry _ ih => rw [List.map_cons, List.map_cons, hentry.1, ih]

/-- Records of the same fields are accepted alike. -/
theorem exactRecord_same (hrefl : ∀ name value, R name value value) (h : SameFields R value value')
    (hok : exactRecord value required optional label = .ok fields) :
    ∃ fields', exactRecord value' required optional label = .ok fields' ∧
      ∀ name, R name (field fields name) (field fields' name) := by
  cases h with
  | same => exact ⟨fields, hok, fun name => hrefl name _⟩
  | @object entries entries' hentries =>
    unfold exactRecord at hok ⊢
    dsimp only at hok ⊢
    rw [keys_same hentries] at hok
    split at hok
    · next hexact =>
      cases hok
      exact ⟨entries', if_pos hexact, field_same hrefl hentries⟩
    · cases hok

end SameFields

/-- What is read of items in another order is the same in another order. -/
theorem reordered_read {β : Type} {R : Value → Value → Prop} {S : Value → β → Prop} {middle items' : List Value}
    {results : List β} (hperm : items.Perm middle) (hsame : List.Forall₂ R middle items') (h : List.Forall₂ S items results)
    (hread : ∀ value value' result, R value value' → S value result → S value' result) :
    ∃ results', List.Forall₂ S items' results' ∧ results'.Perm results := by
  obtain ⟨results', hmiddle, hresults⟩ := List.perm_comp_forall₂ hperm.symm h
  refine ⟨results', ?_, hresults⟩
  clear h hperm hresults
  induction hsame generalizing results' with
  | nil =>
    cases hmiddle
    exact .nil
  | cons hR _ ih =>
    cases hmiddle with
    | cons hS hrest => exact .cons (hread _ _ _ hR hS) (ih _ hrest)

theorem reviewerIds_reordered {value value' : Value} {label : Text} (hsame : Reordered (· = ·) value value')
    (h : reviewerIds value label = .ok ids) :
    ∃ ids', reviewerIds value' label = .ok ids' ∧ Utf16.sortBy id ids' = Utf16.sortBy id ids := by
  cases hsame with
  | same => exact ⟨ids, h, rfl⟩
  | array hperm hitems =>
    obtain ⟨⟨_, hvalue, hall⟩, hids⟩ := reviewerIds_ok.mp h
    cases hvalue
    obtain ⟨ids', hall', hperm'⟩ := reordered_read hperm hitems hall fun _ _ _ heq hread => heq ▸ hread
    exact ⟨ids', reviewerIds_ok.mpr ⟨⟨_, rfl, hall'⟩, hids.perm hperm'.symm⟩,
      Utf16.sortBy_eq_of_perm hperm' fun _ _ _ _ hid => hid⟩

theorem readJobs_reordered {value value' : Value} (hsame : Reordered (· = ·) value value')
    (h : readJobs value = .ok jobs) : readJobs value' = .ok jobs := by
  cases hsame with
  | same => exact h
  | array hperm hitems =>
    obtain ⟨_, read, hvalue, hall, hjobs, rfl⟩ := readJobs_ok.mp h
    cases hvalue
    obtain ⟨read', hall', hperm'⟩ := reordered_read hperm hitems hall fun _ _ _ heq hread => heq ▸ hread
    exact readJobs_ok.mpr ⟨_, read', rfl, hall', hjobs.perm hperm'.symm, Utf16.sortBy_eq_of_perm hperm'.symm hjobs.name_inj⟩

theorem readRule_same {value value' : Value} {rule : PathReviewerRule} (hsame : SameRule value value')
    (h : readRule value = .ok rule) : readRule value' = .ok rule := by
  obtain ⟨fields, hfields, hrule⟩ := bind_ok.mp h
  have hrefl : ∀ (name : Text) (value : Value),
      if name = "reviewerIds".toList then Reordered (· = ·) value value else value = value := by
    intro name value
    split
    · exact .same value
    · rfl
  obtain ⟨fields', hfields', hsame⟩ := exactRecord_same hrefl hsame hfields
  refine bind_ok.mpr ⟨fields', hfields', ?_⟩
  have hpath : field fields "pathPrefix".toList = field fields' "pathPrefix".toList := hsame "pathPrefix".toList
  have hids : Reordered (· = ·) (field fields "reviewerIds".toList) (field fields' "reviewerIds".toList) :=
    hsame "reviewerIds".toList
  rw [← hpath]
  split at hrule
  · cases hrule
  · obtain ⟨ids, hread, hrule⟩ := bind_ok.mp hrule
    obtain ⟨ids', hread', hsorted⟩ := reviewerIds_reordered hids hread
    refine bind_ok.mpr ⟨ids', hread', ?_⟩
    rw [hsorted]
    exact hrule

theorem readRules_reordered {value value' : Value} (hsame : Reordered SameRule value value')
    (h : readRules value = .ok rules) : readRules value' = .ok rules := by
  cases hsame with
  | same => exact h
  | array hperm hitems =>
    rcases readRules_ok.mp h with ⟨hvalue, -⟩ | ⟨_, read, hvalue, hall, rfl⟩
    · cases hvalue
    · cases hvalue
      obtain ⟨read', hall', hperm'⟩ := reordered_read hperm hitems hall fun _ _ _ hrule hread => readRule_same hrule hread
      exact readRules_ok.mpr (.inr ⟨_, read', rfl, hall',
        Utf16.sortBy_eq_of_perm hperm'.symm fun _ _ _ _ hkey => key_injective hkey⟩)

/-- The order of reviewers, jobs and rules does not matter. -/
theorem compile_reordered [Sha256] {review review' : Value} {policy : NativeRootBootstrapPolicy}
    (hsame : SameReview review review')
    (h : compileNativeRootBootstrapPolicy ⟨rootAlias, protectedRef, review⟩ = .ok policy) :
    compileNativeRootBootstrapPolicy ⟨rootAlias, protectedRef, review'⟩ = .ok policy := by
  obtain ⟨hrooted, fields, ids, jobs, rules, hfields, hids, hjobs, hrules, rfl⟩ := compile_ok.mp h
  have hrefl : ∀ (name : Text) (value : Value),
      if name = "pathReviewerRules".toList then Reordered SameRule value value else Reordered (· = ·) value value := by
    intro name value
    split
    · exact .same value
    · exact .same value
  obtain ⟨fields', hfields', hsame⟩ := exactRecord_same hrefl hsame hfields
  have hids' : Reordered (· = ·) (field fields "requiredReviewerIds".toList) (field fields' "requiredReviewerIds".toList) :=
    hsame "requiredReviewerIds".toList
  have hjobs' : Reordered (· = ·) (field fields "requiredJobs".toList) (field fields' "requiredJobs".toList) :=
    hsame "requiredJobs".toList
  have hrules' : Reordered SameRule (field fields "pathReviewerRules".toList) (field fields' "pathReviewerRules".toList) :=
    hsame "pathReviewerRules".toList
  obtain ⟨ids', hread', hsorted⟩ := reviewerIds_reordered hids' hids
  exact compile_ok.mpr ⟨hrooted, fields', ids', jobs, rules, hfields', hread', readJobs_reordered hjobs' hjobs,
    readRules_reordered hrules' hrules, by rw [hsorted]⟩

end Dim.Reviews
