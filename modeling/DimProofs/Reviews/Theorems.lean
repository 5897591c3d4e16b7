/-
Every compiled policy is a normal one, so that native Git's schema accepts it and sorts nothing, and a draft of it is read
with the same policy: but for a root whose alias a draft may not have, and for a protected ref that is longer than native
Git admits.
-/
import DimProofs.Reviews.Compiling
import DimProofs.Reviews.Draft

namespace Dim.Reviews

open Repositories (Text Value Failure UrlParser require field normalizeRepositoryRef then_ok require_ok)
open Relational (bind_ok pure_ok)
open Projects (Sha256 Identity Receipt)

/-! ## Native Git -/

section Import

variable [Sha256] {rootAlias protectedRef : Text} {ids : List Text} {jobs : List RequiredJob} {rules : List PathReviewerRule}

omit [Sha256] in
theorem strict_some {names : List Text} {value : Value} {fields : List (Text × Value)}
    (h : strict names value = some fields) : value = .object fields := by
  cases value <;> simp only [strict, reduceCtorEq] at h
  split at h
  · rw [Option.some.inj h]
  · cases h

/-- Digests are revisions. -/
theorem revisionPattern_hex (text : String) : revisionPattern (Sha256.hex text).toList = true := by
  have hhex := Sha256.pattern text
  have hnarrows : ∀ p ∈ List.replicate 64 Pattern.hex, Pattern.Narrows p Pattern.hex := fun p hp => by
    rw [List.eq_of_mem_replicate hp]
    exact .refl _
  obtain ⟨hall, hlength⟩ := Pattern.sequence_all hhex hnarrows
  rw [revisionPattern, Bool.and_eq_true]
  constructor
  · have hsequence : Pattern.sequence (Pattern.hex :: List.replicate 63 Pattern.hex) (Sha256.hex text).toList = true := hhex
    refine Pattern.sequence_bounded Pattern.hex_alphanumeric (fun q hq => ?_) (by decide) hsequence
    rw [List.eq_of_mem_replicate hq]
    exact fun c hc => Pattern.alphanumeric_generationRest c (Pattern.hex_alphanumeric c hc)
  · obtain ⟨last, hlast⟩ :=
      List.getLast?_isSome.mpr (List.ne_nil_of_length_pos (by rw [hlength]; decide)) |> Option.isSome_iff_exists.mp
    rw [hlast]
    exact Pattern.hex_alphanumeric last (List.all_eq_true.mp hall last (List.mem_of_getLast? hlast))

section
omit [Sha256]

theorem own_identifiers {names : List Text} (h : Reviewers names) :
    arrayOf identifier 1 none (.ofTexts names) = some names := by
  have hlength : 1 ≤ (names.map Value.string).length := by
    rw [List.length_map]
    exact List.length_pos_iff.mpr h.nonempty
  rw [Value.ofTexts, arrayOf, if_pos (by simpa using hlength), mapM_some]
  exact forall₂_map fun name hname => textOf_some.mpr ⟨rfl, h.named name hname⟩

theorem own_importedJob {job : RequiredJob} (h : jobPattern job.name = true) : importedJob job.imported = some job := by
  have hclass : textOf (· = candidateControlled) (.string candidateControlled) = some candidateControlled :=
    textOf_some.mpr ⟨rfl, decide_eq_true rfl⟩
  unfold importedJob
  exact bind_some.mpr ⟨_, rfl, bind_some.mpr ⟨job.name, textOf_some.mpr ⟨rfl, h⟩,
    bind_some.mpr ⟨job.kind, parse_text job.kind, bind_some.mpr ⟨_, hclass, rfl⟩⟩⟩⟩

theorem own_pathRule {rule : PathReviewerRule} (h : Rule rule) : pathRule rule.toValue = some rule := by
  unfold pathRule
  exact bind_some.mpr ⟨_, rfl, bind_some.mpr ⟨rule.pathPrefix, textOf_some.mpr ⟨rfl, h.safe⟩,
    bind_some.mpr ⟨rule.reviewerIds, own_identifiers h.reviewers, rfl⟩⟩⟩

end

theorem schema_own (hsafe : safeHeadRef protectedRef = true) (hlength : Utf16.length protectedRef ≤ 1024)
    (h : Normal ids jobs rules) :
    nativeImportedRootPolicySchema (policyOf rootAlias protectedRef ids jobs rules).reviewPolicy.toValue =
      some (policyOf rootAlias protectedRef ids jobs rules).reviewPolicy := by
  have hjobs : arrayOf importedJob 0 (some 64) (.array (jobs.map RequiredJob.imported)) = some jobs := by
    rw [arrayOf, if_pos (by simpa using h.hasJobs.bounded), mapM_some]
    exact forall₂_map fun job hjob => own_importedJob (h.hasJobs.named job hjob)
  have hrules : arrayOf pathRule 0 none (.array (rules.map PathReviewerRule.toValue)) = some rules := by
    rw [arrayOf, if_pos (by simp), mapM_some]
    exact forall₂_map fun rule hrule => own_pathRule (h.hasRules rule hrule)
  have hrevision : ∀ text, revisionValue (.string (Sha256.hex text).toList) = some (Sha256.hex text).toList :=
    fun text => textOf_some.mpr ⟨rfl, revisionPattern_hex text⟩
  unfold nativeImportedRootPolicySchema
  refine bind_some.mpr ⟨_, rfl, bind_some.mpr ⟨(), rfl, ?_⟩⟩
  refine bind_some.mpr ⟨protectedRef, textOf_some.mpr ⟨rfl, by simp [hsafe, hlength]⟩, ?_⟩
  exact bind_some.mpr ⟨_, hrevision _, bind_some.mpr ⟨_, hrevision _, bind_some.mpr ⟨_, hrevision _,
    bind_some.mpr ⟨jobs, hjobs, bind_some.mpr ⟨ids, own_identifiers h.hasReviewers, bind_some.mpr ⟨rules, hrules, rfl⟩⟩⟩⟩⟩⟩

theorem schema_long (hlength : ¬ Utf16.length protectedRef ≤ 1024) :
    nativeImportedRootPolicySchema (policyOf rootAlias protectedRef ids jobs rules).reviewPolicy.toValue = none := by
  refine Option.eq_none_iff_forall_ne_some.mpr fun policy h => ?_
  obtain ⟨fields, hfields, h⟩ := bind_some.mp h
  obtain ⟨_, -, h⟩ := bind_some.mp h
  obtain ⟨ref, href, -⟩ := bind_some.mp h
  obtain ⟨hvalue, hcheck⟩ := textOf_some.mp href
  have hobject := strict_some hfields
  rw [ReviewPolicy.toValue, Value.object.injEq] at hobject
  subst hobject
  have href' : protectedRef = ref := Value.string.inj hvalue
  rw [← href', Bool.and_eq_true, decide_eq_true_eq] at hcheck
  exact hlength hcheck.1

/-- The revisions of a compiled policy are those of its own entries. -/
theorem own_revised : (policyOf rootAlias protectedRef ids jobs rules).reviewPolicy.revised = true := by
  simp [ReviewPolicy.revised, policyOf]

theorem own_unique (h : Normal ids jobs rules) :
    (policyOf rootAlias protectedRef ids jobs rules).reviewPolicy.unique = true := by
  rw [ReviewPolicy.unique, Bool.and_eq_true, Bool.and_eq_true, List.all_eq_true]
  exact ⟨⟨decide_eq_true h.hasJobs.nodup, decide_eq_true h.hasReviewers.nodup⟩,
    fun rule hrule => decide_eq_true (h.hasRules rule hrule).reviewers.nodup⟩

/-- Native Git sorts nothing of a compiled policy. -/
theorem own_normalized (h : Normal ids jobs rules) :
    (policyOf rootAlias protectedRef ids jobs rules).reviewPolicy.normalized =
      (policyOf rootAlias protectedRef ids jobs rules).reviewPolicy := by
  have hrules : rules.map (fun rule => { rule with reviewerIds := Utf16.sortBy id rule.reviewerIds }) = rules := by
    refine (List.map_congr_left fun rule hrule => ?_).trans (List.map_id rules)
    rw [(h.hasRules rule hrule).sorted]
    rfl
  simp only [ReviewPolicy.normalized, policyOf, normalizeRules, hrules, h.sortedJobs, h.sortedReviewers, h.sortedRules]

/-- Native Git accepts a compiled policy as it is, unless its ref is too long. -/
theorem imported_iff (hrooted : Rooted rootAlias protectedRef) (h : Normal ids jobs rules) (policy : ReviewPolicy) :
    parseAuthoritativeImportedRootPolicy (policyOf rootAlias protectedRef ids jobs rules).reviewPolicy.toValue = .ok policy ↔
      Utf16.length protectedRef ≤ 1024 ∧ policy = (policyOf rootAlias protectedRef ids jobs rules).reviewPolicy := by
  unfold parseAuthoritativeImportedRootPolicy
  by_cases hlength : Utf16.length protectedRef ≤ 1024
  · rw [schema_own hrooted.safe hlength h]
    dsimp only
    rw [own_unique h, own_normalized h, own_revised, if_neg nofun, if_neg nofun, Except.ok.injEq]
    exact ⟨fun heq => ⟨hlength, heq.symm⟩, fun heq => heq.2.symm⟩
  · rw [schema_long hlength]
    exact ⟨nofun, fun heq => absurd heq.1 hlength⟩

end Import

/-! ## Drafts -/

variable {name : Text} {record : List (Text × Value)}

theorem textField_own {text : String} {pattern : String → Bool}
    (hfield : field record name = textValue text) (h : pattern text = true) : textField record name pattern = some text := by
  have htext : textOf (fun text => pattern (String.ofList text)) (textValue text) = some text.toList :=
    textOf_some.mpr ⟨rfl, by rw [String.ofList_toList]; exact h⟩
  rw [textField, hfield, htext, Option.map_some, String.ofList_toList]

theorem literalField_own {text : Text} (hfield : field record name = .string text) :
    literalField record name text = some () := by
  have htext : textOf (· = text) (.string text) = some text := textOf_some.mpr ⟨rfl, decide_eq_true rfl⟩
  rw [literalField, hfield, htext]
  rfl

theorem numberField_own {n : Int} (hfield : field record name = .number n) :
    numberField record name = some n := by
  rw [numberField, hfield]

theorem guard_some {p : Prop} [Decidable p] : (guard p : Option Unit) = some () ↔ p := by
  unfold guard
  split
  · next h => exact ⟨fun _ => h, fun _ => rfl⟩
  · next h => exact ⟨nofun, fun hp => absurd hp h⟩

/-- What a draft requires of its identity, apart from the root's alias. -/
structure Identified (identity : Identity ReviewPolicy) : Prop where
  named : Lifecycle.validLifecycleName identity.name = true
  commit : Projects.objectIdPattern identity.expectedCommit = true
  tree : Projects.objectIdPattern identity.expectedTree = true
  format : identity.expectedTree.length = identity.expectedCommit.length
  size : 1 ≤ identity.bundleSize ∧ identity.bundleSize ≤ Projects.maximumBundleBytes
  project : Projects.projectIdPattern identity.projectId = true
  host : Pattern.identifier identity.ownerHostId = true
  generation : Pattern.hexString 64 identity.generationId = true
  digest : Pattern.hexString 64 identity.bundleDigest = true

/-- The entries of a draft's value. -/
def draftEntries (identity : Identity ReviewPolicy) (receipt : Option Receipt) : List (Text × Value) :=
  match (Draft.mk identity receipt).toValue with
  | .object entries => entries
  | _ => []

theorem parseIdentity_own {identity : Identity ReviewPolicy} (receipt : Option Receipt) (h : Identified identity)
    (hbranch : "refs/heads/".toList.isPrefixOf identity.protectedRef.toList = true)
    (hlabel : Pattern.label identity.rootAlias = true) :
    ∃ base, parseIdentity (draftEntries identity receipt) = some base ∧ base.rootAlias = identity.rootAlias ∧
      base.protectedRef = identity.protectedRef ∧ withPolicy base identity.reviewPolicy = identity := by
  refine ⟨{ identity with reviewPolicy := () }, ?_, rfl, rfl, rfl⟩
  unfold parseIdentity
  refine bind_some.mpr ⟨(), literalField_own rfl,
    bind_some.mpr ⟨(), literalField_own rfl, bind_some.mpr ⟨(), literalField_own rfl, ?_⟩⟩⟩
  refine bind_some.mpr ⟨_, textField_own rfl h.named, bind_some.mpr ⟨_, textField_own rfl h.commit,
    bind_some.mpr ⟨_, textField_own rfl h.tree, bind_some.mpr ⟨(identity.bundleSize : Int), numberField_own rfl, ?_⟩⟩⟩⟩
  refine bind_some.mpr ⟨(), guard_some.mpr ⟨h.format, ?_, ?_⟩, ?_⟩
  · exact_mod_cast h.size.1
  · exact_mod_cast h.size.2
  exact bind_some.mpr ⟨_, textField_own rfl h.project, bind_some.mpr ⟨_, textField_own rfl h.host,
    bind_some.mpr ⟨_, textField_own rfl h.generation, bind_some.mpr ⟨_, textField_own rfl hlabel,
    bind_some.mpr ⟨_, textField_own rfl hbranch, bind_some.mpr ⟨_, textField_own rfl h.digest, rfl⟩⟩⟩⟩⟩⟩

/-- A draft's identity names a root by a label. -/
theorem parseIdentity_label {base : DraftIdentity} (h : parseIdentity record = some base) :
    Pattern.label base.rootAlias = true := by
  unfold parseIdentity at h
  obtain ⟨-, -, h⟩ := bind_some.mp h
  obtain ⟨-, -, h⟩ := bind_some.mp h
  obtain ⟨-, -, h⟩ := bind_some.mp h
  obtain ⟨_, -, h⟩ := bind_some.mp h
  obtain ⟨_, -, h⟩ := bind_some.mp h
  obtain ⟨_, -, h⟩ := bind_some.mp h
  obtain ⟨_, -, h⟩ := bind_some.mp h
  obtain ⟨-, -, h⟩ := bind_some.mp h
  obtain ⟨_, -, h⟩ := bind_some.mp h
  obtain ⟨_, -, h⟩ := bind_some.mp h
  obtain ⟨_, -, h⟩ := bind_some.mp h
  obtain ⟨rootAlias, hroot, h⟩ := bind_some.mp h
  obtain ⟨_, -, h⟩ := bind_some.mp h
  obtain ⟨_, -, h⟩ := bind_some.mp h
  cases h
  obtain ⟨text, htext, rfl⟩ := Option.map_eq_some_iff.mp hroot
  exact (textOf_some.mp htext).2

section Drafts

variable [Sha256] {rootAlias protectedRef : Text} {ids : List Text} {jobs : List RequiredJob} {rules : List PathReviewerRule}

omit [Sha256] in
theorem own_withoutEvidence (job : RequiredJob) : withoutEvidence job.imported = some job.toValue := by
  unfold withoutEvidence
  exact bind_some.mpr ⟨_, rfl, bind_some.mpr ⟨(), literalField_own rfl, rfl⟩⟩

theorem compilePolicy_of {requiredReviewerIds pathReviewerRules requiredJobs : Value} {compiled : NativeRootBootstrapPolicy}
    (h : compileNativeRootBootstrapPolicy { rootAlias, protectedRef, review := .object [
      ("requiredReviewerIds".toList, requiredReviewerIds), ("pathReviewerRules".toList, pathReviewerRules),
      ("requiredJobs".toList, requiredJobs)] } = .ok compiled) :
    compilePolicy rootAlias protectedRef requiredReviewerIds pathReviewerRules requiredJobs =
      some compiled.reviewPolicy := by
  rw [compilePolicy, h]

/-- A compiled policy is what compiling its own entries gives. -/
theorem parseModernPolicy_own (hrooted : Rooted rootAlias protectedRef) (h : Normal ids jobs rules) :
    parseModernPolicy rootAlias protectedRef (policyOf rootAlias protectedRef ids jobs rules).reviewPolicy.toValue =
      some (policyOf rootAlias protectedRef ids jobs rules).reviewPolicy := by
  have hcompile := compile_own hrooted h
  have hjobs : (jobs.map RequiredJob.imported).mapM withoutEvidence = some (jobs.map RequiredJob.toValue) := by
    rw [mapM_some, List.forall₂_map_left_iff, List.forall₂_map_right_iff, List.forall₂_same]
    exact fun job _ => own_withoutEvidence job
  unfold parseModernPolicy
  refine bind_some.mpr ⟨_, rfl, ?_⟩
  refine bind_some.mpr ⟨_, hjobs, bind_some.mpr ⟨(policyOf rootAlias protectedRef ids jobs rules).reviewPolicy, ?_, ?_⟩⟩
  · exact compilePolicy_of hcompile
  · exact bind_some.mpr ⟨(), guard_some.mpr rfl, rfl⟩

variable {identity : Identity ReviewPolicy}

theorem parseReceipt_own {receipt : Receipt} (h : receipt.binds identity = true) :
    parseReceipt (receiptValue receipt) identity = some receipt := by
  simp only [Receipt.binds, Bool.and_eq_true, decide_eq_true_eq] at h
  obtain ⟨⟨⟨⟨⟨⟨⟨⟨hproject, hgeneration⟩, href⟩, hcommit⟩, hdigest⟩, hbundle⟩, hsize⟩, htree⟩, hnonce⟩ := h
  unfold parseReceipt
  refine bind_some.mpr ⟨_, rfl, bind_some.mpr ⟨(), guard_some.mpr rfl, ?_⟩⟩
  refine bind_some.mpr ⟨(), literalField_own rfl, bind_some.mpr ⟨(), literalField_own (hproject ▸ rfl),
    bind_some.mpr ⟨(), literalField_own rfl, bind_some.mpr ⟨(), literalField_own (hgeneration ▸ rfl),
    bind_some.mpr ⟨(), literalField_own (href ▸ rfl), bind_some.mpr ⟨(), literalField_own (hcommit ▸ rfl), ?_⟩⟩⟩⟩⟩⟩
  refine bind_some.mpr ⟨(), literalField_own (hdigest ▸ rfl), bind_some.mpr ⟨(), literalField_own (hbundle ▸ rfl),
    bind_some.mpr ⟨(), guard_some.mpr (hsize ▸ numberField_own rfl), bind_some.mpr ⟨(), literalField_own (htree ▸ rfl),
    bind_some.mpr ⟨(), literalField_own rfl, bind_some.mpr ⟨receipt.importNonce, textField_own rfl hnonce, ?_⟩⟩⟩⟩⟩⟩
  rw [← hproject, ← hgeneration, ← href, ← hcommit, ← hbundle, ← hsize, ← htree]
  rw [show Sha256.hex identity.reviewPolicy.json = receipt.policyDigest from hdigest.symm]
  rfl

/-- A draft's own value is read as the draft. -/
theorem parse_own {receipt : Option Receipt} (hidentified : Identified identity)
    (hbranch : "refs/heads/".toList.isPrefixOf identity.protectedRef.toList = true)
    (hlabel : Pattern.label identity.rootAlias = true)
    (hpolicy : parseModernPolicy identity.rootAlias.toList identity.protectedRef.toList identity.reviewPolicy.toValue =
      some identity.reviewPolicy) (hbound : ∀ r ∈ receipt, r.binds identity = true) :
    parseNativeProjectDraft (Draft.toValue ⟨identity, receipt⟩) = some ⟨identity, receipt⟩ := by
  obtain ⟨base, hbase, halias, href, hwith⟩ := parseIdentity_own receipt hidentified hbranch hlabel
  unfold parseNativeProjectDraft
  refine bind_some.mpr ⟨draftEntries identity receipt, rfl, bind_some.mpr ⟨(), guard_some.mpr (numberField_own rfl), ?_⟩⟩
  cases receipt with
  | none =>
    refine bind_some.mpr ⟨"import-pending".toList, textOf_some.mpr ⟨rfl, by decide⟩, bind_some.mpr ⟨_, rfl, ?_⟩⟩
    refine bind_some.mpr ⟨base, hbase, bind_some.mpr ⟨identity.reviewPolicy, ?_, ?_⟩⟩
    · rw [halias, href]
      exact hpolicy
    · rw [if_pos rfl, hwith]
  | some r =>
    refine bind_some.mpr ⟨"root-imported".toList, textOf_some.mpr ⟨rfl, by decide⟩, bind_some.mpr ⟨_, rfl, ?_⟩⟩
    refine bind_some.mpr ⟨base, hbase, bind_some.mpr ⟨identity.reviewPolicy, ?_, ?_⟩⟩
    · rw [halias, href]
      exact hpolicy
    · rw [if_neg (by decide), hwith]
      exact bind_some.mpr ⟨r, parseReceipt_own (hbound r rfl), rfl⟩

/-- The root of a draft that is read has a label for an alias. -/
theorem parse_label {value : Value} {draft : Draft} (h : parseNativeProjectDraft value = some draft) :
    Pattern.label draft.identity.rootAlias = true := by
  unfold parseNativeProjectDraft at h
  obtain ⟨_, -, h⟩ := bind_some.mp h
  obtain ⟨-, -, h⟩ := bind_some.mp h
  obtain ⟨_, -, h⟩ := bind_some.mp h
  obtain ⟨record, -, h⟩ := bind_some.mp h
  obtain ⟨base, hbase, h⟩ := bind_some.mp h
  obtain ⟨policy, -, h⟩ := bind_some.mp h
  have hlabel := parseIdentity_label hbase
  split at h
  · cases h
    exact hlabel
  · obtain ⟨receipt, -, h⟩ := bind_some.mp h
    cases h
    exact hlabel

end Drafts


/-! ## Agreement -/

section Agreement

variable [Sha256]

/-- The draft of a policy: its identity beside the policy's alias and ref. -/
structure DraftOf (policy : NativeRootBootstrapPolicy) (identity : Identity ReviewPolicy) : Prop where
  identified : Identified identity
  rootAlias : identity.rootAlias = String.ofList policy.rootAlias
  protectedRef : identity.protectedRef = String.ofList policy.protectedRef
  reviewPolicy : identity.reviewPolicy = policy.reviewPolicy

/-- The receipt of an import of a draft, whose digest is that of the policy as native Git imported it. -/
structure ReceiptOf (imported : ReviewPolicy) (identity : Identity ReviewPolicy) (receipt : Receipt) : Prop where
  project : receipt.projectId = identity.projectId
  generation : receipt.generationId = identity.generationId
  ref : receipt.protectedRef = identity.protectedRef
  commit : receipt.expectedCommit = identity.expectedCommit
  policy : receipt.policyDigest = imported.digest
  bundle : receipt.bundleDigest = identity.bundleDigest
  size : receipt.bundleSize = identity.bundleSize
  tree : receipt.resolvedTree = identity.expectedTree
  nonce : Pattern.uuid receipt.importNonce = true

/-- All readers of a policy agree on it: drafts with it are read with it, native Git imports it with the same text and
digest, its receipts bind the drafts, and its own entries are compiled into it again, in any order. -/
structure Agrees (policy : NativeRootBootstrapPolicy) : Prop where
  pending : ∀ identity, DraftOf policy identity →
    parseNativeProjectDraft (Draft.toValue ⟨identity, none⟩) = some ⟨identity, none⟩
  imported : ∃ imported, parseAuthoritativeImportedRootPolicy policy.reviewPolicy.toValue = .ok imported ∧
    imported.json = policy.reviewPolicy.json ∧ imported.digest = policy.reviewPolicy.digest ∧
    ∀ identity receipt, DraftOf policy identity → ReceiptOf imported identity receipt →
      parseNativeProjectDraft (Draft.toValue ⟨identity, some receipt⟩) = some ⟨identity, some receipt⟩
  recompiled : compileNativeRootBootstrapPolicy ⟨policy.rootAlias, policy.protectedRef, policy.reviewPolicy.review⟩ =
    .ok policy
  unordered : ∀ review review', SameReview review review' →
    compileNativeRootBootstrapPolicy ⟨policy.rootAlias, policy.protectedRef, review⟩ = .ok policy →
    compileNativeRootBootstrapPolicy ⟨policy.rootAlias, policy.protectedRef, review'⟩ = .ok policy

/-- A draft of a policy that only lacks the policy's own fields. -/
def sampleIdentity (policy : NativeRootBootstrapPolicy) : Identity ReviewPolicy where
  name := "app"
  projectId := "app"
  ownerHostId := "host"
  generationId := String.ofList (List.replicate 64 '0')
  rootAlias := String.ofList policy.rootAlias
  protectedRef := String.ofList policy.protectedRef
  expectedCommit := String.ofList (List.replicate 40 '0')
  expectedTree := String.ofList (List.replicate 40 '0')
  reviewPolicy := policy.reviewPolicy
  bundleDigest := String.ofList (List.replicate 64 '0')
  bundleSize := 1

omit [Sha256] in
theorem sampleIdentity_draft (policy : NativeRootBootstrapPolicy) : DraftOf policy (sampleIdentity policy) where
  identified := by
    constructor <;> simp only [sampleIdentity] <;> decide +kernel
  rootAlias := rfl
  protectedRef := rfl
  reviewPolicy := rfl

theorem agrees_iff {rootAlias protectedRef : Text} {ids : List Text} {jobs : List RequiredJob}
    {rules : List PathReviewerRule} (hrooted : Rooted rootAlias protectedRef) (h : Normal ids jobs rules) :
    Agrees (policyOf rootAlias protectedRef ids jobs rules) ↔
      Pattern.label (String.ofList rootAlias) = true ∧ Utf16.length protectedRef ≤ 1024 := by
  constructor
  · intro hagrees
    obtain ⟨imported, himported, -⟩ := hagrees.imported
    exact ⟨parse_label (hagrees.pending _ (sampleIdentity_draft _)), ((imported_iff hrooted h imported).mp himported).1⟩
  · rintro ⟨hlabel, hlength⟩
    have hread : ∀ identity receipt, DraftOf (policyOf rootAlias protectedRef ids jobs rules) identity →
        (∀ r ∈ receipt, r.binds identity = true) →
        parseNativeProjectDraft (Draft.toValue ⟨identity, receipt⟩) = some ⟨identity, receipt⟩ := by
      intro identity receipt hdraft hbound
      refine parse_own hdraft.identified ?_ ?_ ?_ hbound
      · have href : identity.protectedRef.toList = protectedRef := by
          rw [hdraft.protectedRef]
          exact String.toList_ofList
        have hsafe := hrooted.safe
        simp only [safeHeadRef, Bool.and_eq_true] at hsafe
        rw [href]
        exact hsafe.1.1.1.1.1.1.1.1.1
      · rw [hdraft.rootAlias]
        exact hlabel
      · rw [hdraft.rootAlias, hdraft.protectedRef, hdraft.reviewPolicy, String.toList_ofList, String.toList_ofList]
        exact parseModernPolicy_own hrooted h
    refine ⟨fun identity hdraft => hread identity none hdraft nofun,
      ⟨_, (imported_iff hrooted h _).mpr ⟨hlength, rfl⟩, rfl, rfl, fun identity receipt hdraft hreceipt => ?_⟩,
      compile_own hrooted h, fun review review' hsame => compile_reordered hsame⟩
    refine hread identity (some receipt) hdraft fun r hr => ?_
    cases hr
    have hdigest : receipt.policyDigest = Sha256.hex (Projects.Policies.stringify identity.reviewPolicy) := by
      rw [hreceipt.policy, hdraft.reviewPolicy]
      rfl
    simp [Receipt.binds, hreceipt.project, hreceipt.generation, hreceipt.ref, hreceipt.commit, hdigest, hreceipt.bundle,
      hreceipt.size, hreceipt.tree, hreceipt.nonce]

/-- A policy that was compiled, directly or from a manifest. -/
def Compiled [UrlParser] [YamlParser] (policy : NativeRootBootstrapPolicy) : Prop :=
  (∃ input, compileNativeRootBootstrapPolicy input = .ok policy) ∨
    ∃ source selectedRef, parseNativeRootBootstrapManifestYaml source selectedRef = .ok policy

/-- A manifest's policy is compiled of a review that is in it. -/
theorem manifest_compiled [UrlParser] [YamlParser] {source : String} {selectedRef : Text}
    {policy : NativeRootBootstrapPolicy}
    (h : parseNativeRootBootstrapManifestYaml source selectedRef = .ok policy) :
    ∃ input, compileNativeRootBootstrapPolicy input = .ok policy := by
  unfold parseNativeRootBootstrapManifestYaml at h
  obtain ⟨⟨set, review⟩, -, h⟩ := bind_ok.mp h
  dsimp only at h
  split at h
  · obtain ⟨normalizedRef, -, h⟩ := bind_ok.mp h
    obtain ⟨-, h⟩ := then_ok.mp h
    obtain ⟨-, h⟩ := then_ok.mp h
    exact ⟨_, h⟩
  · cases h

/-- The readers of a compiled policy agree on it exactly where its root's alias is a label, and its protected ref is no
longer than native Git admits. -/
theorem policy_agrees_iff [UrlParser] [YamlParser] {policy : NativeRootBootstrapPolicy} (h : Compiled policy) :
    Agrees policy ↔ Pattern.label (String.ofList policy.rootAlias) = true ∧ Utf16.length policy.protectedRef ≤ 1024 := by
  have hinput : ∃ input, compileNativeRootBootstrapPolicy input = .ok policy := by
    rcases h with h | ⟨source, selectedRef, h⟩
    · exact h
    · exact manifest_compiled h
  obtain ⟨input, hinput⟩ := hinput
  obtain ⟨ids, jobs, rules, hnormal, hrooted, rfl⟩ := compile_normal hinput
  exact agrees_iff hrooted hnormal

end Agreement

namespace Sample

/-! ## Two roots -/

/-- A digest of 64 zeros. -/
@[reducible]
def sha256 : Sha256 := ⟨fun _ => String.ofList (List.replicate 64 '0'), fun _ => by decide +kernel⟩

@[reducible]
def urlParser : UrlParser := ⟨fun _ => some false⟩

@[reducible]
def yamlParser : YamlParser := ⟨fun _ => .error "empty document".toList⟩

def text (s : String) : Value := .string s.toList

/-- Two reviewers, a job and a rule. -/
def review : Value :=
  .object [("requiredReviewerIds".toList, .array [text "zoe", text "adam"]),
    ("requiredJobs".toList, .array [.object [("name".toList, text "unit"), ("kind".toList, text "qemu")]]),
    ("pathReviewerRules".toList, .array [.object [("pathPrefix".toList, text "docs/"),
      ("reviewerIds".toList, .array [text "adam"])]])]

/-- The policy of the sample review, with its reviewers sorted. -/
def policy (rootAlias : String) : NativeRootBootstrapPolicy :=
  @policyOf sha256 rootAlias.toList "refs/heads/main".toList ["adam".toList, "zoe".toList] [⟨"unit".toList, .qemu⟩]
    [⟨"docs/".toList, ["adam".toList]⟩]

theorem app_compiled :
    @compileNativeRootBootstrapPolicy sha256 ⟨"app".toList, "refs/heads/main".toList, review⟩ = .ok (policy "app") := by
  rfl

/-- The readers of the policy of a root named `app` agree. -/
theorem app_agrees : @Agrees sha256 (policy "app") :=
  (@policy_agrees_iff sha256 urlParser yamlParser _ (.inl ⟨_, app_compiled⟩)).mpr ⟨by decide +kernel, by decide +kernel⟩

/-- The policy of a root named `app.main` is compiled, and no draft may have it. -/
theorem dotted_alias_disagrees :
    @Compiled sha256 urlParser yamlParser (policy "app.main") ∧ ¬ @Agrees sha256 (policy "app.main") := by
  have hcompiled : @compileNativeRootBootstrapPolicy sha256 ⟨"app.main".toList, "refs/heads/main".toList, review⟩ =
      .ok (policy "app.main") := by rfl
  refine ⟨.inl ⟨_, hcompiled⟩, fun hagrees => ?_⟩
  have hlabel : Pattern.label (sampleIdentity (policy "app.main")).rootAlias = true :=
    @parse_label sha256 _ _ (@Agrees.pending sha256 _ hagrees _ (sampleIdentity_draft _))
  exact absurd hlabel (by decide +kernel)

end Sample

end Dim.Reviews
