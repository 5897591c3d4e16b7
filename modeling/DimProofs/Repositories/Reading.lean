/-
What reading a value gives, and that a set is read from its own value: every reader returns what it has returned before.
-/
import DimProofs.Repositories.Sharing

namespace Dim.Repositories

open Relational

/-! ## Texts -/

variable {label : Text} {value : Value}

variable {text : Option Text}

theorem optionalString_again (h : optionalString value label = .ok text)
    (label' : Text) : optionalString (.ofOption text) label' = .ok text := by
  unfold optionalString at h
  split at h
  · cases h
    rfl
  · cases h
    rfl
  · cases h

theorem checkText_ok {check : Text → Except Failure Unit} {text' : Option Text} :
    checkText check text = .ok text' ↔ text' = text ∧ ∀ t, text = some t → check t = .ok () := by
  cases text with
  | none => exact ⟨fun h => ⟨(Except.ok.inj h).symm, nofun⟩, fun h => by rw [h.1]; rfl⟩
  | some t =>
    rw [checkText, then_ok, pure_ok]
    constructor
    · rintro ⟨hcheck, rfl⟩
      exact ⟨rfl, fun t' ht' => Option.some.inj ht' ▸ hcheck⟩
    · rintro ⟨rfl, hcheck⟩
      exact ⟨hcheck t rfl, rfl⟩

/-- A checked text is read again where the check does not depend on the label. -/
theorem checked_again {check : Text → Text → Except Failure Unit}
    (hlabel : ∀ label label' t, check label t = .ok () → check label' t = .ok ())
    {value : Value} {label : Text} {text : Option Text}
    (h : (optionalString value label >>= checkText (check label)) = .ok text) (label' : Text) :
    (optionalString (.ofOption text) label' >>= checkText (check label')) = .ok text := by
  obtain ⟨read, hread, hcheck⟩ := bind_ok.mp h
  obtain ⟨rfl, hall⟩ := checkText_ok.mp hcheck
  exact bind_ok.mpr ⟨text, optionalString_again hread label', checkText_ok.mpr ⟨rfl, fun t ht => hlabel _ _ t (hall t ht)⟩⟩

theorem validateLifecycleName_ok {value kind name : Text} :
    validateLifecycleName value kind = .ok name ↔ name = value ∧
      Lifecycle.validLifecycleName (String.ofList value) = true := by
  rw [validateLifecycleName, then_ok, require_ok, pure_ok]
  exact ⟨fun h => ⟨h.2.symm, h.1⟩, fun h => ⟨h.2, h.1.symm⟩⟩

theorem optionalLifecycleName_again {name : Option Text} (h : optionalLifecycleName value label = .ok name)
    (label' : Text) : optionalLifecycleName (.ofOption name) label' = .ok name := by
  refine @checked_again (fun label text => (fun _ => ()) <$> validateLifecycleName text label) ?_ _ _ _ h label'
  intro label label' t ht
  obtain ⟨_, hvalid, -⟩ := map_ok.mp ht
  exact map_ok.mpr ⟨t, validateLifecycleName_ok.mpr ⟨rfl, (validateLifecycleName_ok.mp hvalid).2⟩, rfl⟩

theorem optionalRefPrefix_again {refPrefix : Option Text}
    (h : optionalRefPrefix value label = .ok refPrefix) (label' : Text) :
    optionalRefPrefix (.ofOption refPrefix) label' = .ok refPrefix :=
  @checked_again (fun label text => require (safePrefix text)
    (label ++ " must be a safe ref-name prefix ending in '/'".toList))
    (fun _ _ _ ht => require_ok.mpr (require_ok.mp ht)) _ _ _ h label'

theorem optionalGitUrl_again [UrlParser] {url : Option Text}
    (h : optionalGitUrl value label = .ok url) (label' : Text) : optionalGitUrl (.ofOption url) label' = .ok url := by
  refine @checked_again checkGitUrl (fun label label' t ht => ?_) _ _ _ h label'
  unfold checkGitUrl at ht ⊢
  split
  · next hhttp =>
    rw [if_pos hhttp] at ht
    split at ht
    · cases ht
    · next hcredentials => exact require_ok.mpr (require_ok.mp ht)
  · rfl

theorem mapM_itemText : ∀ {items : List Value} {texts : List Text}, items.mapM itemText = some texts →
    (texts.map Value.string).mapM itemText = some texts
  | [], texts, h => by
    cases h
    rfl
  | item :: rest, texts, h => by
    rw [List.mapM_cons] at h
    obtain ⟨first, hfirst, h⟩ := Option.bind_eq_some_iff.mp h
    obtain ⟨others, hothers, h⟩ := Option.bind_eq_some_iff.mp h
    cases h
    have hitem : itemText (.string first) = some first := by
      unfold itemText at hfirst
      split at hfirst
      · cases hfirst
        rfl
      · cases hfirst
    rw [List.map_cons, List.mapM_cons, hitem, mapM_itemText hothers]
    rfl

theorem stringArray_again {texts : List Text} (h : stringArray value label = .ok texts) (label' : Text) :
    stringArray (.ofTexts texts) label' = .ok texts := by
  unfold stringArray at h
  split at h
  · cases h
    rfl
  · next items =>
    split at h
    · cases h
    · next read hread =>
      obtain ⟨hnodup, hread'⟩ := then_ok.mp h
      cases pure_ok.mp hread'
      simp only [stringArray, Value.ofTexts, mapM_itemText hread, then_ok, pure_ok, and_true]
      exact require_ok.mpr (require_ok.mp hnodup)
  · cases h

theorem normalizeRepositoryRef_again {value ref : Text} (h : normalizeRepositoryRef value = .ok ref) :
    normalizeRepositoryRef ref = .ok ref ∧ ref ≠ [] := by
  unfold normalizeRepositoryRef at h
  split at h
  · next hid =>
    cases h
    refine ⟨by rw [normalizeRepositoryRef, if_pos hid], fun hnil => ?_⟩
    rw [hnil] at hid
    cases hid
  · obtain ⟨hsafe, href⟩ := then_ok.mp h
    rw [pure_ok.mp href] at hsafe
    have hrefs : "refs/".toList.isPrefixOf ref = true := by
      rw [← pure_ok.mp href]
      split
      · next hprefix => exact hprefix
      · rfl
    obtain ⟨rest, rfl⟩ := List.isPrefixOf_iff_prefix.mp hrefs
    have hid : isObjectId ("refs/".toList ++ rest) = false := by
      simp [isObjectId, Pattern.hex, Pattern.digit, Pattern.within]
    refine ⟨?_, by simp⟩
    rw [normalizeRepositoryRef, hid, if_neg Bool.false_ne_true, then_ok, pure_ok, if_pos hrefs]
    exact ⟨require_ok.mpr (require_ok.mp hsafe), rfl⟩

theorem readRef_again {ref : Option Text} (h : readRef value label = .ok ref) (label' : Text) :
    readRef (.ofOption ref) label' = .ok ref := by
  obtain ⟨text, htext, h⟩ := bind_ok.mp h
  cases text with
  | none =>
    cases h
    rfl
  | some text =>
    obtain ⟨normal, hnormal, h⟩ := bind_ok.mp h
    cases pure_ok.mp h
    obtain ⟨hagain, hne⟩ := normalizeRepositoryRef_again hnormal
    have hread : optionalString (.ofOption (some normal)) label' = .ok (some normal) := by
      cases normal with
      | nil => exact absurd rfl hne
      | cons c rest => rfl
    exact bind_ok.mpr ⟨some normal, hread, bind_ok.mpr ⟨normal, hagain, rfl⟩⟩

/-! ## Branch maps -/

/-- What is required of a branch map. -/
structure Branches (map : PlainObject Text) : Prop where
  sources : ∀ entry ∈ map.entries, safeBranch entry.1 = true
  destinations : ∀ entry ∈ map.entries, safeBranch entry.2 = true
  supported : ∀ entry ∈ map.entries, entry.1 ∉ unsupportedNames
  distinct : map.values.Nodup

theorem safeBranch_chars {branch : Text} (h : safeBranch branch = true) :
    branch ≠ [] ∧ ∀ c ∈ branch, branchChar c = true := by
  simp only [safeBranch, Bool.and_eq_true] at h
  obtain ⟨⟨⟨⟨-, hpattern⟩, -⟩, -⟩, -⟩ := h
  cases branch with
  | nil => cases hpattern
  | cons c rest =>
    simp only [branchPattern, Bool.and_eq_true] at hpattern
    refine ⟨nofun, fun d hd => ?_⟩
    rcases List.mem_cons.mp hd with rfl | hd
    · simp [branchChar, hpattern.1.1]
    · exact List.all_eq_true.mp hpattern.1.2 d hd

variable {verb : Text}

variable {destination source : Text} {result : PlainObject Text}

/-- What an entry that was read satisfies. -/
theorem readBranch_ok {key : Text} (h : readBranch label verb result source value = .ok (key, destination)) :
    safeBranch key = true ∧ safeBranch destination = true ∧ key ∉ unsupportedNames ∧ destination ∉ result.values := by
  obtain ⟨text, -, h⟩ := bind_ok.mp h
  cases text with
  | none => cases h
  | some text =>
    obtain ⟨hsource, h⟩ := then_ok.mp h
    obtain ⟨hdestination, h⟩ := then_ok.mp h
    obtain ⟨hsupported, h⟩ := then_ok.mp h
    obtain ⟨hnew, h⟩ := then_ok.mp h
    cases pure_ok.mp h
    exact ⟨require_ok.mp hsource, require_ok.mp hdestination, by simpa using require_ok.mp hsupported,
      by simpa using require_ok.mp hnew⟩

theorem readBranch_again (hsource : safeBranch source = true)
    (hdestination : safeBranch destination = true) (hsupported : source ∉ unsupportedNames)
    (hnew : destination ∉ result.values) :
    readBranch label verb result source (.string destination) = .ok (source, destination) := by
  have hstring : optionalString (.string destination) (label ++ ['.'] ++ source) = .ok (some destination) := by
    cases destination with
    | nil => exact absurd rfl (safeBranch_chars hdestination).1
    | cons c rest => rfl
  refine bind_ok.mpr ⟨some destination, hstring,
    then_ok.mpr ⟨require_ok.mpr hsource, then_ok.mpr ⟨require_ok.mpr hdestination,
    then_ok.mpr ⟨require_ok.mpr ?_, then_ok.mpr ⟨require_ok.mpr ?_, rfl⟩⟩⟩⟩⟩
  · simpa using hsupported
  · simpa using hnew

theorem branches_empty : Branches .empty := ⟨nofun, nofun, nofun, List.nodup_nil⟩

variable {map : PlainObject Text}

theorem branchMap_ok (h : branchMap value label verb = .ok map) :
    Branches map := by
  unfold branchMap at h
  split at h
  · cases h
    exact branches_empty
  · obtain ⟨entries, -, h⟩ := bind_ok.mp h
    refine PlainObject.collect_invariant h branches_empty fun result source value key destination _ hresult hread => ?_
    obtain ⟨hsource, hdestination, hsupported, hnew⟩ := readBranch_ok hread
    have hentry : ∀ {P : Text × Text → Prop}, P (key, destination) → (∀ entry ∈ result.entries, P entry) →
        ∀ entry ∈ (result.assign key destination).entries, P entry := by
      intro P hP hall entry hmem
      rcases PlainObject.mem_assign hmem with rfl | hmem
      · exact hP
      · exact hall entry hmem
    exact ⟨hentry hsource hresult.sources, hentry hdestination hresult.destinations, hentry hsupported hresult.supported,
      PlainObject.nodup_values_assign hresult.distinct hnew⟩

theorem branchMap_again (h : Branches map) (label verb : Text) :
    branchMap (.ofMap map) label verb = .ok map := by
  refine bind_ok.mpr ⟨_, rfl, PlainObject.collect_self map fun result source destination hmem hsub hfresh => ?_⟩
  refine readBranch_again (h.sources _ hmem) (h.destinations _ hmem) (h.supported _ hmem) fun hold => ?_
  -- a destination of the entries before would be that of another source
  obtain ⟨entry, hentry, hsame⟩ := List.mem_map.mp hold
  have heq := List.inj_on_of_nodup_map h.distinct (hsub entry hentry) hmem hsame
  exact hfresh (List.mem_map.mpr ⟨entry, hentry, by rw [heq]⟩)

/-! ## Sets -/

section Sets

variable [UrlParser]

/-- What an entry that was read satisfies. -/
structure Readable (entry : Entry) : Prop where
  url : ∀ label, optionalGitUrl (.ofOption entry.url) label = .ok entry.url
  upstream : ∀ label, optionalLifecycleName (.ofOption entry.upstream) label = .ok entry.upstream
  refPrefix : ∀ label, optionalRefPrefix (.ofOption entry.refPrefix) label = .ok entry.refPrefix
  ref : ∀ label, readRef (.ofOption entry.ref) label = .ok entry.ref
  protectedPatterns : ∀ label, stringArray (.ofTexts entry.protectedPatterns) label = .ok entry.protectedPatterns
  forcePushBlockedPatterns : ∀ label,
    stringArray (.ofTexts entry.forcePushBlockedPatterns) label = .ok entry.forcePushBlockedPatterns
  importBranches : Branches entry.importBranches
  publishBranches : Branches entry.publishBranches

variable {label : Text} {value : Value}

variable {entry : Entry} {repoAlias : Text}

theorem readEntry_ok {form : Form} {aliasInput : Text} {others : PlainObject Entry}
    (h : readEntry form label others aliasInput value = .ok (repoAlias, entry)) :
    Lifecycle.validLifecycleName (String.ofList repoAlias) = true ∧ Readable entry := by
  obtain ⟨name, hname, hrest⟩ := bind_ok.mp h
  obtain ⟨rfl, hvalid⟩ := validateLifecycleName_ok.mp hname
  dsimp only at hrest
  obtain ⟨fields, -, h⟩ := bind_ok.mp hrest
  obtain ⟨-, h⟩ := then_ok.mp h
  obtain ⟨url, hurl, h⟩ := bind_ok.mp h
  obtain ⟨upstream, hupstream, h⟩ := bind_ok.mp h
  obtain ⟨refPrefix, hprefix, h⟩ := bind_ok.mp h
  obtain ⟨fallback, -, h⟩ := bind_ok.mp h
  obtain ⟨root, -, h⟩ := bind_ok.mp h
  obtain ⟨ref, href, h⟩ := bind_ok.mp h
  obtain ⟨protectedPatterns, hprotected, h⟩ := bind_ok.mp h
  obtain ⟨forcePushBlockedPatterns, hblocked, h⟩ := bind_ok.mp h
  obtain ⟨importBranches, himport, h⟩ := bind_ok.mp h
  obtain ⟨publishBranches, hpublish, h⟩ := bind_ok.mp h
  cases pure_ok.mp h
  exact ⟨hvalid, optionalGitUrl_again hurl, optionalLifecycleName_again hupstream, optionalRefPrefix_again hprefix,
    readRef_again href, stringArray_again hprotected, stringArray_again hblocked, branchMap_ok himport,
      branchMap_ok hpublish⟩

/-- The reading of an entry's own value. -/
theorem readEntry_again (hvalid : Lifecycle.validLifecycleName (String.ofList repoAlias) = true)
    (h : Readable entry) (label : Text) (others : PlainObject Entry) :
    readEntry stored label others repoAlias entry.toValue = .ok (repoAlias, entry) := by
  refine bind_ok.mpr ⟨repoAlias, validateLifecycleName_ok.mpr ⟨rfl, hvalid⟩, ?_⟩
  dsimp only
  refine bind_ok.mpr ⟨_, rfl, then_ok.mpr ⟨rfl, ?_⟩⟩
  exact bind_ok.mpr ⟨_, h.url _, bind_ok.mpr ⟨_, h.upstream _, bind_ok.mpr ⟨_, h.refPrefix _, bind_ok.mpr ⟨_, rfl,
    bind_ok.mpr ⟨_, rfl, bind_ok.mpr ⟨_, h.ref _, bind_ok.mpr ⟨_, h.protectedPatterns _,
    bind_ok.mpr ⟨_, h.forcePushBlockedPatterns _, bind_ok.mpr ⟨_, branchMap_again h.importBranches _ _,
    bind_ok.mpr ⟨_, branchMap_again h.publishBranches _ _, rfl⟩⟩⟩⟩⟩⟩⟩⟩⟩⟩

/-- What an upstream that was read satisfies. -/
def ReadableUpstream (member : Text × Upstream) : Prop :=
  Lifecycle.validLifecycleName (String.ofList member.1) = true ∧
    ∀ label, optionalGitUrl (.string member.2.url) label = .ok (some member.2.url)

variable {name : Text} {upstream : Upstream}

theorem readUpstream_ok {nameInput : Text} {others : PlainObject Upstream}
    (h : readUpstream label others nameInput value = .ok (name, upstream)) : ReadableUpstream (name, upstream) := by
  obtain ⟨read, hread, hrest⟩ := bind_ok.mp h
  obtain ⟨rfl, hvalid⟩ := validateLifecycleName_ok.mp hread
  dsimp only at hrest
  obtain ⟨item, -, hrest⟩ := bind_ok.mp hrest
  obtain ⟨-, hrest⟩ := then_ok.mp hrest
  obtain ⟨url, hurl, hrest⟩ := bind_ok.mp hrest
  cases url with
  | none => cases hrest
  | some url =>
    cases pure_ok.mp hrest
    exact ⟨hvalid, optionalGitUrl_again hurl⟩

theorem readUpstream_again (h : ReadableUpstream (name, upstream)) (label : Text)
    (others : PlainObject Upstream) : readUpstream label others name upstream.toValue = .ok (name, upstream) := by
  refine bind_ok.mpr ⟨name, validateLifecycleName_ok.mpr ⟨rfl, h.1⟩, ?_⟩
  dsimp only
  refine bind_ok.mpr ⟨_, rfl, then_ok.mpr ⟨rfl, ?_⟩⟩
  exact bind_ok.mpr ⟨_, h.2 _, rfl⟩

/-- What a set that was read satisfies. -/
structure Normal (set : RepositorySet) : Prop where
  shares : Shares set
  upstreams : ∀ member ∈ set.upstreams.entries, ReadableUpstream member
  repositories : ∀ member ∈ set.repositories.entries,
    Lifecycle.validLifecycleName (String.ofList member.1) = true ∧ Readable member.2
  nonempty : set.repositories.entries ≠ []

omit [UrlParser] in
/-- What holds of every entry that is read, holds of the entries of the object. -/
theorem collect_all {α : Type} {f : PlainObject α → Text → Value → Except Failure (Text × α)} {entries : List (Text × Value)}
    {o : PlainObject α} {P : Text × α → Prop} (h : PlainObject.collect f .empty entries = .ok o)
    (hf : ∀ o key value entry, f o key value = .ok entry → P entry) : ∀ entry ∈ o.entries, P entry := by
  refine PlainObject.collect_invariant (P := fun o => ∀ entry ∈ o.entries, P entry) h nofun ?_
  intro o key value key' read _ ho hread entry hentry
  rcases PlainObject.mem_assign hentry with rfl | hentry
  · exact hf o key value _ hread
  · exact ho entry hentry

theorem readUpstreams_ok {upstreams : PlainObject Upstream}
    (h : readUpstreams value label = .ok upstreams) : ∀ member ∈ upstreams.entries, ReadableUpstream member := by
  unfold readUpstreams at h
  split at h
  · cases h
    exact nofun
  · obtain ⟨entries, -, h⟩ := bind_ok.mp h
    exact collect_all h fun o key value entry hread => readUpstream_ok hread

theorem readSet_ok {form : Form} {value : Value} {label : Text} {set : RepositorySet}
    (h : readSet form value label = .ok set) : Normal set := by
  obtain ⟨root, -, h⟩ := bind_ok.mp h
  obtain ⟨-, h⟩ := then_ok.mp h
  obtain ⟨-, h⟩ := then_ok.mp h
  obtain ⟨upstreams, hupstreams, h⟩ := bind_ok.mp h
  obtain ⟨entries, -, h⟩ := bind_ok.mp h
  obtain ⟨repositories, hrepositories, h⟩ := bind_ok.mp h
  obtain ⟨hnonempty, h⟩ := then_ok.mp h
  obtain ⟨hshares, h⟩ := then_ok.mp h
  cases pure_ok.mp h
  exact ⟨validateSharedUpstreams_ok.mp hshares, readUpstreams_ok hupstreams,
    collect_all hrepositories fun o key value entry hread => readEntry_ok hread, by simpa using require_ok.mp hnonempty⟩

/-- A set is read from its own value as it is. -/
theorem validateRepositorySet_self {set : RepositorySet} (h : Normal set) : validateRepositorySet set.toValue = .ok set := by
  have hupstreams : readUpstreams (.object (set.upstreams.entries.map fun entry => (entry.1, entry.2.toValue)))
      "repositorySet".toList = .ok set.upstreams :=
    bind_ok.mpr ⟨_, rfl, PlainObject.collect_self set.upstreams fun others name upstream hmem _ _ =>
      readUpstream_again (h.upstreams _ hmem) _ others⟩
  have hrepositories : PlainObject.collect (readEntry stored "repositorySet".toList) .empty
      (set.repositories.entries.map fun entry => (entry.1, entry.2.toValue)) = .ok set.repositories :=
    PlainObject.collect_self set.repositories fun others repoAlias entry hmem _ _ =>
      readEntry_again (h.repositories _ hmem).1 (h.repositories _ hmem).2 _ others
  refine bind_ok.mpr ⟨_, rfl, then_ok.mpr ⟨rfl, then_ok.mpr ⟨rfl, ?_⟩⟩⟩
  refine bind_ok.mpr ⟨_, hupstreams, bind_ok.mpr ⟨_, rfl, bind_ok.mpr ⟨_, hrepositories, ?_⟩⟩⟩
  refine then_ok.mpr ⟨require_ok.mpr (by simpa using h.nonempty), ?_⟩
  exact then_ok.mpr ⟨validateSharedUpstreams_ok.mpr h.shares, rfl⟩

end Sets

end Dim.Repositories
