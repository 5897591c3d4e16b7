/-
The refs of a shared upstream: which repository maps a ref in, and the two maps of a repository against each other. The
laws hold of a set and a ref except where an upstream is found that the set does not declare, or a branch map is read at
a property that it inherits.
-/
import DimProofs.Repositories.Reading
import DimProofs.Repositories.Refs

namespace Dim.Repositories

/-! ## Splitting -/

theorem startsWith_iff {text start : Text} : startsWith text start = true ↔ start <+: text := List.isPrefixOf_iff_prefix

theorem startsWith_append (start rest : Text) : startsWith (start ++ rest) start = true :=
  startsWith_iff.mpr (List.prefix_append start rest)

theorem tags_not_heads (rest : Text) : startsWith (tags ++ rest) heads = false := by
  have hheads : heads = ['r', 'e', 'f', 's', '/', 'h'] ++ "eads/".toList := by decide
  have htags : tags = ['r', 'e', 'f', 's', '/', 't'] ++ "ags/".toList := by decide
  rw [startsWith, hheads, htags]
  rfl

theorem baseOf_eq_some {ref base : Text} :
    baseOf ref = some base ↔ (base = heads ∨ base = tags) ∧ startsWith ref base = true := by
  unfold baseOf
  constructor
  · intro h
    split at h
    · next hheads =>
      cases h
      exact ⟨.inl rfl, hheads⟩
    · split at h
      · next htags =>
        cases h
        exact ⟨.inr rfl, htags⟩
      · cases h
  · rintro ⟨rfl | rfl, hstart⟩
    · rw [if_pos hstart]
    · obtain ⟨rest, rfl⟩ := startsWith_iff.mp hstart
      rw [if_neg (by rw [tags_not_heads]; nofun), if_pos hstart]

variable {base name : Text}

theorem splitRef_ok {ref : Text} :
    splitRef ref = .ok (base, name) ↔ (base = heads ∨ base = tags) ∧ name ≠ [] ∧ ref = base ++ name := by
  unfold splitRef
  constructor
  · intro h
    split at h
    · cases h
    · next found hfound =>
      obtain ⟨hbase, hstart⟩ := baseOf_eq_some.mp hfound
      split at h
      · cases h
      · next hlength =>
        cases h
        obtain ⟨rest, rfl⟩ := startsWith_iff.mp hstart
        rw [List.drop_left]
        refine ⟨hbase, fun hnil => hlength ?_, rfl⟩
        rw [hnil, List.append_nil]
  · rintro ⟨hbase, hname, rfl⟩
    have hlength : ¬ (base ++ name).length = base.length := by
      have hpos := List.length_pos_iff.mpr hname
      rw [List.length_append]
      omega
    simp only [baseOf_eq_some.mpr ⟨hbase, startsWith_append base name⟩, if_neg hlength, List.drop_left]

theorem splitRef_append (hbase : base = heads ∨ base = tags) (hname : name ≠ []) :
    splitRef (base ++ name) = .ok (base, name) := splitRef_ok.mpr ⟨hbase, hname, rfl⟩

theorem splitRef_userError {ref : Text} : splitRef ref ≠ .error .typeError := by
  unfold splitRef
  split
  · nofun
  · split <;> nofun

/-! ## The two maps of a namespace -/

/-- The maps are inverse to each other at the ref, and throw nothing else than errors of the program's own. -/
structure Inverse (refs : Option RefNamespace) (ref : Text) : Prop where
  external : ∀ external, mapRepositoryRefToExternal refs ref = .ok external →
    mapExternalRefToRepository refs external = .ok (some ref)
  inner : ∀ inner, mapExternalRefToRepository refs ref = .ok (some inner) → mapRepositoryRefToExternal refs inner = .ok ref
  externalErrors : mapExternalRefToRepository refs ref ≠ .error .typeError
  innerErrors : mapRepositoryRefToExternal refs ref ≠ .error .typeError

variable {refs : RefNamespace}

theorem mapExternal_ok {ref : Text} {inner : Option Text} :
    mapExternalRefToRepository (some refs) ref = .ok inner ↔
      ∃ base name, splitRef ref = .ok (base, name) ∧ externalInNamespace refs ref base name = inner := by
  constructor
  · intro h
    obtain ⟨⟨base, name⟩, hsplit, h⟩ := Relational.bind_ok.mp h
    exact ⟨base, name, hsplit, Relational.pure_ok.mp h⟩
  · rintro ⟨base, name, hsplit, h⟩
    exact Relational.bind_ok.mpr ⟨(base, name), hsplit, Relational.pure_ok.mpr h⟩

variable {external : Text}

theorem mapRepository_ok {ref : Text} :
    mapRepositoryRefToExternal (some refs) ref = .ok external ↔
      ∃ base name, splitRef ref = .ok (base, name) ∧ repositoryInNamespace refs ref base name = .ok external := by
  constructor
  · intro h
    obtain ⟨⟨base, name⟩, hsplit, h⟩ := Relational.bind_ok.mp h
    exact ⟨base, name, hsplit, h⟩
  · rintro ⟨base, name, hsplit, h⟩
    exact Relational.bind_ok.mpr ⟨(base, name), hsplit, h⟩

theorem mapExternal_userError (refs : Option RefNamespace) (ref : Text) :
    mapExternalRefToRepository refs ref ≠ .error .typeError := by
  intro h
  unfold mapExternalRefToRepository at h
  cases hsplit : splitRef ref with
  | error failure =>
    rw [hsplit] at h
    exact splitRef_userError (hsplit.trans (congrArg Except.error (Except.error.inj h)))
  | ok split =>
    rw [hsplit] at h
    cases refs with
    | none => cases h
    | some refs => cases h

theorem repositoryInNamespace_userError {ref : Text} :
    repositoryInNamespace refs ref base name ≠ .error .typeError := by
  unfold repositoryInNamespace
  split
  · unfold externalBranch
    dsimp only
    split
    · nofun
    · split <;> nofun
  · nofun
  · split <;> nofun

theorem mapRepository_userError (refs : Option RefNamespace) (ref : Text) :
    mapRepositoryRefToExternal refs ref ≠ .error .typeError := by
  intro h
  unfold mapRepositoryRefToExternal at h
  cases hsplit : splitRef ref with
  | error failure =>
    rw [hsplit] at h
    exact splitRef_userError (hsplit.trans (congrArg Except.error (Except.error.inj h)))
  | ok split =>
    rw [hsplit] at h
    cases refs with
    | none => cases h
    | some refs => exact repositoryInNamespace_userError h

/-- Without a namespace refs are mapped to themselves. -/
theorem inverse_none (ref : Text) : Inverse none ref := by
  refine ⟨fun external h => ?_, fun inner h => ?_, mapExternal_userError _ _, mapRepository_userError _ _⟩
  · obtain ⟨split, hsplit, h'⟩ := Relational.bind_ok.mp h
    cases Relational.pure_ok.mp h'
    exact Relational.bind_ok.mpr ⟨split, hsplit, rfl⟩
  · obtain ⟨split, hsplit, h'⟩ := Relational.bind_ok.mp h
    cases Relational.pure_ok.mp h'
    exact Relational.bind_ok.mpr ⟨split, hsplit, rfl⟩

theorem inverse_fallback (excluded : List Text) (ref : Text) : Inverse (some (.ofFallback excluded)) ref := by
  refine ⟨fun external h => ?_, fun inner h => ?_, mapExternal_userError _ _, mapRepository_userError _ _⟩
  · obtain ⟨base, name, hsplit, h⟩ := mapRepository_ok.mp h
    simp only [repositoryInNamespace, RefNamespace.ofFallback, Bool.true_and] at h
    split at h
    · cases h
    · next hkept =>
      cases h
      exact mapExternal_ok.mpr ⟨base, name, hsplit, if_neg hkept⟩
  · obtain ⟨base, name, hsplit, h⟩ := mapExternal_ok.mp h
    simp only [externalInNamespace, RefNamespace.ofFallback, Bool.true_and] at h
    split at h
    · cases h
    · next hkept =>
      cases h
      exact mapRepository_ok.mpr ⟨base, name, hsplit, if_neg hkept⟩

/-- A prefix is put on and taken off, unless nothing but the prefix is there. -/
theorem inverse_prefix {refPrefix : Text} (hne : refPrefix ≠ []) (ref : Text) :
    Inverse (some (.ofPrefix refPrefix)) ref ↔ ref ≠ heads ++ refPrefix ∧ ref ≠ tags ++ refPrefix := by
  constructor
  · intro h
    suffices hbase : ∀ base, base = heads ∨ base = tags → ref ≠ base ++ refPrefix from
      ⟨hbase heads (.inl rfl), hbase tags (.inr rfl)⟩
    rintro base hbase rfl
    have hself : startsWith refPrefix refPrefix = true := startsWith_iff.mpr (List.prefix_refl _)
    have hmapped : mapExternalRefToRepository (some (.ofPrefix refPrefix)) (base ++ refPrefix) = .ok (some base) := by
      refine mapExternal_ok.mpr ⟨base, refPrefix, splitRef_append hbase hne, ?_⟩
      simp only [externalInNamespace, RefNamespace.ofPrefix, if_pos hself, List.drop_length, List.append_nil]
    obtain ⟨base', name, hsplit, -⟩ := mapRepository_ok.mp (h.inner base hmapped)
    -- the base alone is not a ref
    obtain ⟨hbase', hname, heq⟩ := splitRef_ok.mp hsplit
    have hself : startsWith base base = true := startsWith_iff.mpr (List.prefix_refl _)
    have hsame : base' = base := Option.some.inj
      ((baseOf_eq_some.mpr ⟨hbase', heq ▸ startsWith_append base' name⟩).symm.trans (baseOf_eq_some.mpr ⟨hbase, hself⟩))
    rw [hsame] at heq
    exact hname (List.self_eq_append_right.mp heq)
  · rintro ⟨hheads, htags⟩
    refine ⟨fun external h => ?_, fun inner h => ?_, mapExternal_userError _ _, mapRepository_userError _ _⟩
    · obtain ⟨base, name, hsplit, h⟩ := mapRepository_ok.mp h
      obtain ⟨hbase, hname, rfl⟩ := splitRef_ok.mp hsplit
      simp only [repositoryInNamespace, RefNamespace.ofPrefix, Except.ok.injEq] at h
      have hstart : startsWith (refPrefix ++ name) refPrefix = true := startsWith_append refPrefix name
      rw [← h, List.append_assoc]
      refine mapExternal_ok.mpr ⟨base, refPrefix ++ name, splitRef_append hbase (by simp [hname]), ?_⟩
      simp only [externalInNamespace, RefNamespace.ofPrefix, if_pos hstart, List.drop_left]
    · obtain ⟨base, name, hsplit, h⟩ := mapExternal_ok.mp h
      obtain ⟨hbase, hname, rfl⟩ := splitRef_ok.mp hsplit
      simp only [externalInNamespace, RefNamespace.ofPrefix] at h
      split at h
      swap
      · cases h
      next hstart =>
      obtain ⟨rest, rfl⟩ := startsWith_iff.mp hstart
      rw [List.drop_left] at h
      cases h
      have hrest : rest ≠ [] := by
        rintro rfl
        rcases hbase with rfl | rfl
        · exact hheads (by simp)
        · exact htags (by simp)
      refine mapRepository_ok.mpr ⟨base, rest, splitRef_append hbase hrest, ?_⟩
      simp only [repositoryInNamespace, RefNamespace.ofPrefix, List.append_assoc]

/-! ## Branch maps -/

theorem inheritedText_space (name : Text) : ' ' ∈ PlainObject.inheritedText name := by
  unfold PlainObject.inheritedText
  split
  · decide
  · exact List.mem_append_left _ (List.mem_append_left _ (by decide))

variable {branches : PlainObject Text}

/-- A ref of one of the map's own branches. -/
theorem external_of_own (h : (name, external) ∈ branches.entries) (hname : name ≠ []) :
    mapRepositoryRefToExternal (some (.ofBranches branches)) (heads ++ name) = .ok (heads ++ external) := by
  refine mapRepository_ok.mpr ⟨heads, name, splitRef_append (.inl rfl) hname, ?_⟩
  simp only [repositoryInNamespace, RefNamespace.ofBranches, externalBranch, ne_eq, not_true_eq_false, if_false,
    PlainObject.read_own h]

/-- An external branch is found in the map. -/
theorem inner_of_own (h : (name, external) ∈ branches.entries)
    (hdistinct : branches.values.Nodup) (hexternal : external ≠ []) :
    mapExternalRefToRepository (some (.ofBranches branches)) (heads ++ external) = .ok (some (heads ++ name)) := by
  refine mapExternal_ok.mpr ⟨heads, external, splitRef_append (.inl rfl) hexternal, ?_⟩
  simp only [externalInNamespace, RefNamespace.ofBranches, ne_eq, not_true_eq_false, if_false]
  cases hfind : branches.entries.find? (·.2 = external) with
  | none => exact absurd (decide_eq_true rfl) (List.find?_eq_none.mp hfind _ h)
  | some entry =>
    have hsame : entry.2 = external := by simpa using List.find?_some hfind
    have heq := List.inj_on_of_nodup_map hdistinct (List.mem_of_find?_eq_some hfind) h hsame
    rw [heq]
    rfl

/-- A branch map is undone, except where it is read at a property that it inherits. -/
theorem inverse_branches (h : Branches branches) (ref : Text) :
    Inverse (some (.ofBranches branches)) ref ↔
      ∀ name, ref = heads ++ name → name ∈ PlainObject.prototypeNames → name ∈ branches.keys := by
  have hnonempty : ∀ entry ∈ branches.entries, entry.1 ≠ [] ∧ entry.2 ≠ [] := fun entry hentry =>
    ⟨(safeBranch_chars (h.sources entry hentry)).1, (safeBranch_chars (h.destinations entry hentry)).1⟩
  constructor
  · rintro hinverse name rfl hinherited
    by_contra hkey
    have hname : name ≠ [] := by
      rintro rfl
      exact absurd hinherited (by decide)
    have hmapped : mapRepositoryRefToExternal (some (.ofBranches branches)) (heads ++ name) =
        .ok (heads ++ PlainObject.inheritedText name) := by
      refine mapRepository_ok.mpr ⟨heads, name, splitRef_append (.inl rfl) hname, ?_⟩
      simp only [repositoryInNamespace, RefNamespace.ofBranches, externalBranch, ne_eq, not_true_eq_false, if_false,
        PlainObject.read_of_notMem hkey, if_pos hinherited]
    obtain ⟨base, text, hsplit, hback⟩ := mapExternal_ok.mp (hinverse.external _ hmapped)
    obtain ⟨rfl, rfl⟩ : base = heads ∧ text = PlainObject.inheritedText name := by
      have hne : PlainObject.inheritedText name ≠ [] := List.ne_nil_of_mem (inheritedText_space name)
      have hsame := (splitRef_append (.inl rfl) hne).symm.trans hsplit
      cases Except.ok.inj hsame
      exact ⟨rfl, rfl⟩
    -- no destination has a space in it
    simp only [externalInNamespace, RefNamespace.ofBranches, ne_eq, not_true_eq_false, if_false,
      Option.map_eq_some_iff] at hback
    obtain ⟨entry, hfind, -⟩ := hback
    have hsame : entry.2 = PlainObject.inheritedText name := by simpa using List.find?_some hfind
    have hchar := (safeBranch_chars (h.destinations entry (List.mem_of_find?_eq_some hfind))).2 ' '
      (hsame ▸ inheritedText_space name)
    exact absurd hchar (by decide)
  · intro hown
    refine ⟨fun external hexternal => ?_, fun inner hinner => ?_, mapExternal_userError _ _, mapRepository_userError _ _⟩
    · obtain ⟨base, name, hsplit, hmapped⟩ := mapRepository_ok.mp hexternal
      obtain ⟨-, hname, rfl⟩ := splitRef_ok.mp hsplit
      simp only [repositoryInNamespace, RefNamespace.ofBranches, externalBranch] at hmapped
      split at hmapped
      · cases hmapped
      next hbase =>
      obtain rfl := not_not.mp hbase
      by_cases hkey : name ∈ branches.keys
      · obtain ⟨destination, hentry⟩ := PlainObject.mem_keys.mp hkey
        rw [PlainObject.read_own hentry] at hmapped
        cases hmapped
        exact inner_of_own hentry h.distinct (hnonempty _ hentry).2
      · rw [PlainObject.read_of_notMem hkey, if_neg fun hinherited => hkey (hown name rfl hinherited)] at hmapped
        cases hmapped
    · obtain ⟨base, name, hsplit, hmapped⟩ := mapExternal_ok.mp hinner
      obtain ⟨-, -, rfl⟩ := splitRef_ok.mp hsplit
      simp only [externalInNamespace, RefNamespace.ofBranches] at hmapped
      split at hmapped
      · cases hmapped
      next hbase =>
      obtain rfl := not_not.mp hbase
      obtain ⟨entry, hfind, rfl⟩ := Option.map_eq_some_iff.mp hmapped
      have hsame : entry.2 = name := by simpa using List.find?_some hfind
      have hentry := List.mem_of_find?_eq_some hfind
      exact hsame ▸ external_of_own hentry (hnonempty entry hentry).1

/-! ## One repository for each external ref -/

variable {upstream : Text}

/-- A repository with an upstream has one kind of namespace. -/
theorem namespace_kinds {set : RepositorySet} {entry : Entry} (h : EntryShares set entry)
    (hupstream : entry.upstream = some upstream) :
    (entry.hasImports = true ∧ entry.refPrefix = none ∧ entry.fallback = false) ∨
    (entry.hasImports = false ∧ entry.refPrefix ≠ none ∧ entry.fallback = false) ∨
    (entry.hasImports = false ∧ entry.refPrefix = none ∧ entry.fallback = true) := by
  have hcount := h.oneNamespace upstream hupstream
  cases hstart : entry.refPrefix with
  | none =>
    cases hfallback : entry.fallback <;> cases himports : entry.hasImports <;>
      simp [countTrue, hstart, hfallback, himports] at hcount ⊢
  | some refPrefix =>
    cases hfallback : entry.fallback <;> cases himports : entry.hasImports <;>
      simp [countTrue, hstart, hfallback, himports] at hcount ⊢

theorem mem_members {set : RepositorySet} {member : Text × Entry} :
    member ∈ set.members upstream ↔ member ∈ set.repositories.entries ∧ member.2.upstream = some upstream := by
  rw [RepositorySet.members, List.mem_filter, decide_eq_true_eq]

/-- The repository takes the ref in. -/
def TakesIn (set : RepositorySet) (upstream ref : Text) (member : Text × Entry) : Prop :=
  ∃ inner, mapExternalRefToRepository (some (sharedNamespace set member.2 upstream)) ref = .ok (some inner)

/-- What a repository that takes a ref in says of its name. -/
theorem takesIn_cases {set : RepositorySet} {member : Text × Entry} (hshares : EntryShares set member.2)
    (hmember : member ∈ set.members upstream) (hbase : base = heads ∨ base = tags) (hname : name ≠ [])
    (h : TakesIn set upstream (base ++ name) member) :
    (member.2.hasImports = true ∧ name ∈ member.2.importBranches.values) ∨
    (∃ refPrefix, member.2.refPrefix = some refPrefix ∧ startsWith name refPrefix = true ∧ member.2.fallback = false) ∨
    (member.2.fallback = true ∧ ∀ p ∈ prefixesOf (set.members upstream), startsWith name p.2 = false) := by
  obtain ⟨inner, h⟩ := h
  obtain ⟨base', name', hsplit, h⟩ := mapExternal_ok.mp h
  cases Except.ok.inj ((splitRef_append hbase hname).symm.trans hsplit)
  unfold sharedNamespace at h
  rcases namespace_kinds hshares (mem_members.mp hmember).2 with ⟨himports, -, -⟩ | ⟨himports, hstart, hfallback⟩ |
    ⟨himports, hstart, hfallback⟩
  · rw [if_pos himports] at h
    refine .inl ⟨himports, ?_⟩
    simp only [externalInNamespace, RefNamespace.ofBranches] at h
    split at h
    · cases h
    · obtain ⟨entry, hfind, -⟩ := Option.map_eq_some_iff.mp h
      have hsame : entry.2 = name := by simpa using List.find?_some hfind
      exact List.mem_map.mpr ⟨entry, List.mem_of_find?_eq_some hfind, hsame⟩
  · obtain ⟨refPrefix, hrefPrefix⟩ := Option.ne_none_iff_exists'.mp hstart
    rw [if_neg (by rw [himports]; nofun), hrefPrefix] at h
    simp only [externalInNamespace, RefNamespace.ofPrefix] at h
    split at h
    · next hstart => exact .inr (.inl ⟨refPrefix, hrefPrefix, hstart, hfallback⟩)
    · cases h
  · rw [if_neg (by rw [himports]; nofun), hstart] at h
    simp only [externalInNamespace, RefNamespace.ofFallback, Bool.true_and] at h
    refine .inr (.inr ⟨hfallback, fun p hp => ?_⟩)
    split at h
    · cases h
    next hkept =>
    obtain ⟨other, hother, hp⟩ := List.mem_filterMap.mp hp
    obtain ⟨refPrefix, hrefPrefix, rfl⟩ := Option.map_eq_some_iff.mp hp
    obtain ⟨hmem, hshared⟩ := mem_members.mp hother
    -- its prefix is among the excluded ones
    have hexcluded : refPrefix ∈ excludedPrefixes set upstream := by
      rw [excludedPrefixes, List.mem_insertionSort, List.mem_filterMap]
      exact ⟨other.2, List.mem_map_of_mem hmem, by rw [if_pos hshared, hrefPrefix]⟩
    rw [List.any_eq_true, not_exists] at hkept
    simpa using fun hstart => hkept refPrefix ⟨hexcluded, hstart⟩

theorem length_one_eq {α : Type} {list : List α} {a b : α} (hlength : list.length ≤ 1) (ha : a ∈ list) (hb : b ∈ list) :
    a = b := by
  match list, hlength with
  | [c], _ => rw [List.mem_singleton.mp ha, List.mem_singleton.mp hb]

/-- At most one repository of a declared upstream takes a ref in. -/
theorem takesIn_unique {set : RepositorySet} {a b : Text × Entry} (hshares : Shares set)
    (hdeclared : upstream ∈ set.upstreams.keys) (hbase : base = heads ∨ base = tags) (hname : name ≠ [])
    (ha : a ∈ set.members upstream) (hb : b ∈ set.members upstream) (hta : TakesIn set upstream (base ++ name) a)
    (htb : TakesIn set upstream (base ++ name) b) : a = b := by
  have hmembers := hshares.members upstream hdeclared
  have hentries : ∀ {member}, member ∈ set.members upstream → EntryShares set member.2 := fun hmember =>
    hshares.entries _ (mem_members.mp hmember).1
  have hprefixed : ∀ {member : Text × Entry} {refPrefix : Text}, member ∈ set.members upstream →
      member.2.refPrefix = some refPrefix → (member.1, refPrefix) ∈ prefixesOf (set.members upstream) :=
    fun hmember hstart => List.mem_filterMap.mpr ⟨_, hmember, by rw [hstart]; rfl⟩
  rcases takesIn_cases (hentries ha) ha hbase hname hta with ⟨hia, hva⟩ | ⟨pa, hpa, hsa, -⟩ | ⟨hfa, hna⟩ <;>
  rcases takesIn_cases (hentries hb) hb hbase hname htb with ⟨hib, hvb⟩ | ⟨pb, hpb, hsb, -⟩ | ⟨hfb, hnb⟩
  · by_contra hne
    have hnodup := hmembers.importedOnce
    rw [importsOf, List.map_flatMap, List.nodup_flatMap] at hnodup
    have hsymm : Std.Symm (Function.onFun List.Disjoint fun member : Text × Entry =>
        (member.2.importBranches.values.map fun external => (member.1, external)).map Prod.snd) :=
      ⟨fun _ _ h _ hx hy => h hy hx⟩
    have hdisjoint := hnodup.2.forall ha hb hne
    simp only [List.map_map, Function.comp_def, List.map_id'] at hdisjoint
    exact hdisjoint hva hvb
  · exact absurd ⟨⟨a, ha, hia⟩, b, hb, .inl (by rw [hpb]; nofun)⟩ hmembers.unmixed
  · exact absurd ⟨⟨a, ha, hia⟩, b, hb, .inr hfb⟩ hmembers.unmixed
  · exact absurd ⟨⟨b, hb, hib⟩, a, ha, .inl (by rw [hpa]; nofun)⟩ hmembers.unmixed
  · by_contra hne
    have hnotSame : (a.1, pa) ≠ (b.1, pb) := fun h => by
      have hkey : a.1 = b.1 := (Prod.mk.inj h).1
      refine hne (Prod.ext hkey (PlainObject.value_unique (mem_members.mp ha).1 ?_))
      rw [hkey]
      exact (mem_members.mp hb).1
    have hsymm : Std.Symm Apart := ⟨fun _ _ h => ⟨h.2, h.1⟩⟩
    have hapart := hmembers.apart.forall (hprefixed ha hpa) (hprefixed hb hpb) hnotSame
    -- two starts of one name overlap
    rcases List.prefix_or_prefix_of_prefix (startsWith_iff.mp hsa) (startsWith_iff.mp hsb) with h | h
    · exact absurd (startsWith_iff.mpr h) (by rw [hapart.2]; nofun)
    · exact absurd (startsWith_iff.mpr h) (by rw [hapart.1]; nofun)
  · exact absurd hsa (by rw [hnb _ (hprefixed ha hpa)]; nofun)
  · exact absurd ⟨⟨b, hb, hib⟩, a, ha, .inr hfa⟩ hmembers.unmixed
  · exact absurd hsb (by rw [hna _ (hprefixed hb hpb)]; nofun)
  · exact length_one_eq hmembers.oneFallback (List.mem_filter.mpr ⟨ha, hfa⟩) (List.mem_filter.mpr ⟨hb, hfb⟩)

/-! ## The laws of a set -/

/-- The URL that a set declares for an entry. -/
def declaredUrl (set : RepositorySet) (entry : Entry) : Option Text :=
  match entry.url with
  | some url => some url
  | none => entry.upstream.bind fun upstream => (set.upstreams.own? upstream).map Upstream.url

/-- The repository is connected to the URL declared for it, or to none where none is. -/
def Connects (set : RepositorySet) (member : Text × Entry) : Prop :=
  ∃ connection, resolveRepositoryConnection set member.1 = .ok connection ∧
    connection.map Connection.url = (declaredUrl set member.2).map some

/-- The laws of a set at one ref. -/
structure RefsAgree [UrlParser] (set : RepositorySet) (ref : Text) : Prop where
  connects : ∀ member ∈ set.repositories.entries, Connects set member
  unique : ∀ upstream, ∀ a ∈ set.members upstream, ∀ b ∈ set.members upstream, ∀ ca cb ia ib,
    resolveRepositoryConnection set a.1 = .ok (some ca) → resolveRepositoryConnection set b.1 = .ok (some cb) →
    mapExternalRefToRepository ca.refNamespace ref = .ok (some ia) →
    mapExternalRefToRepository cb.refNamespace ref = .ok (some ib) → a.1 = b.1
  inverse : ∀ member ∈ set.repositories.entries, ∀ connection,
    resolveRepositoryConnection set member.1 = .ok (some connection) → Inverse connection.refNamespace ref
  unchanged : validateRepositorySet set.toValue = .ok set

/-- Every upstream is one of the set's own; no connected branch map is read at a property it inherits; and the ref is more
than the prefix of a repository. -/
structure Mappable (set : RepositorySet) (ref : Text) : Prop where
  declared : ∀ member ∈ set.repositories.entries, ∀ upstream, member.2.upstream = some upstream →
    upstream ∈ set.upstreams.keys
  named : ∀ member ∈ set.repositories.entries, member.2.hasImports = true →
    (member.2.url ≠ none ∨ member.2.upstream ≠ none) →
    ∀ name, ref = heads ++ name → name ∈ PlainObject.prototypeNames → name ∈ member.2.importBranches.keys
  longer : ∀ member ∈ set.repositories.entries, ∀ refPrefix, member.2.refPrefix = some refPrefix →
    ref ≠ heads ++ refPrefix ∧ ref ≠ tags ++ refPrefix

section Laws

variable [UrlParser] {set : RepositorySet} {ref : Text}

variable {member : Text × Entry}

omit [UrlParser] in
theorem resolve_member (h : member ∈ set.repositories.entries) :
    resolveRepositoryConnection set member.1 = resolveEntry set member.1 member.2 := by
  rw [resolveRepositoryConnection, PlainObject.read_own h]

/-- An entry is connected to the declared URL exactly where its upstream is declared. -/
theorem connects_iff (hset : Normal set) (h : member ∈ set.repositories.entries) :
    Connects set member ↔ ∀ upstream, member.2.upstream = some upstream → upstream ∈ set.upstreams.keys := by
  have hentry := hset.shares.entries member h
  unfold Connects
  rw [resolve_member h, resolveEntry, declaredUrl]
  cases hurl : member.2.url with
  | some url =>
    have hnone : member.2.upstream = none := hentry.oneSource.resolve_left (by rw [hurl]; nofun)
    rw [hnone]
    exact ⟨nofun, fun _ => ⟨_, rfl, rfl⟩⟩
  | none =>
    cases hupstream : member.2.upstream with
    | none => exact ⟨nofun, fun _ => ⟨_, rfl, rfl⟩⟩
    | some upstream =>
      by_cases hkey : upstream ∈ set.upstreams.keys
      · obtain ⟨found, hfound⟩ := PlainObject.mem_keys.mp hkey
        simp only [PlainObject.read_own hfound, Option.bind_some, PlainObject.own?_eq_some.mpr hfound]
        exact ⟨fun _ _ hsame => Option.some.inj hsame ▸ hkey, fun _ => ⟨_, rfl, rfl⟩⟩
      · have hfound := hentry.found upstream hupstream
        simp only [RepositorySet.findsUpstream, decide_eq_true_eq] at hfound
        rw [PlainObject.read_of_notMem hkey] at hfound
        have hinherited : upstream ∈ PlainObject.prototypeNames := by
          by_contra hnot
          exact hfound (if_neg hnot)
        simp only [PlainObject.read_of_notMem hkey, if_pos hinherited, Option.bind_some, PlainObject.own?_eq_none.mpr hkey]
        constructor
        · rintro ⟨connection, hconnection, hsame⟩
          cases hconnection
          cases hsame
        · exact fun hall => absurd (hall upstream rfl) hkey

omit [UrlParser] in
/-- The namespace of a connected entry. -/
theorem resolve_namespace {connection : Connection} (h : member ∈ set.repositories.entries)
    (hresolve : resolveRepositoryConnection set member.1 = .ok (some connection)) :
    (∃ upstream, member.2.url = none ∧ member.2.upstream = some upstream ∧
      connection.refNamespace = some (sharedNamespace set member.2 upstream)) ∨
    (member.2.url ≠ none ∧
      connection.refNamespace = if member.2.hasImports then some (.ofBranches member.2.importBranches) else none) := by
  rw [resolve_member h, resolveEntry] at hresolve
  split at hresolve
  · next hurl =>
    cases hresolve
    exact .inr ⟨by rw [hurl]; nofun, rfl⟩
  · cases hresolve
  · next upstream hurl hupstream =>
    split at hresolve
    · cases hresolve
    · cases hresolve
      exact .inl ⟨upstream, hurl, hupstream, rfl⟩
    · cases hresolve
      exact .inl ⟨upstream, hurl, hupstream, rfl⟩

/-- The maps of a connected repository are inverse at a ref that is mappable, and at no other. -/
theorem inverse_iff (hset : Normal set) {connection : Connection} (h : member ∈ set.repositories.entries)
    (hresolve : resolveRepositoryConnection set member.1 = .ok (some connection)) :
    Inverse connection.refNamespace ref ↔
      (member.2.hasImports = true → ∀ name, ref = heads ++ name → name ∈ PlainObject.prototypeNames →
        name ∈ member.2.importBranches.keys) ∧
      ∀ refPrefix, member.2.refPrefix = some refPrefix → ref ≠ heads ++ refPrefix ∧ ref ≠ tags ++ refPrefix := by
  have hentry := hset.shares.entries member h
  have hreadable := (hset.repositories member h).2
  rcases resolve_namespace h hresolve with ⟨upstream, -, hupstream, hrefs⟩ | ⟨hurl, hrefs⟩
  · rw [hrefs, sharedNamespace]
    rcases namespace_kinds hentry hupstream with ⟨himports, hstart, -⟩ | ⟨himports, hstart, -⟩ | ⟨himports, hstart, -⟩
    · rw [if_pos himports, inverse_branches hreadable.importBranches, himports, hstart]
      exact ⟨fun hnamed => ⟨fun _ => hnamed, nofun⟩, fun hall => hall.1 rfl⟩
    · obtain ⟨refPrefix, hrefPrefix⟩ := Option.ne_none_iff_exists'.mp hstart
      have hne : refPrefix ≠ [] := by
        rintro rfl
        have hsafe := hreadable.refPrefix []
        rw [hrefPrefix] at hsafe
        cases hsafe
      rw [himports, hrefPrefix, if_neg nofun, inverse_prefix hne]
      exact ⟨fun hlonger => ⟨nofun, fun other hother => Option.some.inj hother ▸ hlonger⟩, fun hall => hall.2 refPrefix rfl⟩
    · rw [himports, hstart, if_neg nofun]
      exact ⟨fun _ => ⟨nofun, nofun⟩, fun _ => inverse_fallback _ _⟩
  · have halone := hentry.alone (hentry.oneSource.resolve_left hurl)
    rw [hrefs, halone.1]
    cases himports : member.2.hasImports with
    | true =>
      rw [if_pos rfl, inverse_branches hreadable.importBranches]
      exact ⟨fun hnamed => ⟨fun _ => hnamed, nofun⟩, fun hall => hall.1 rfl⟩
    | false =>
      rw [if_neg nofun]
      exact ⟨fun _ => ⟨nofun, nofun⟩, fun _ => inverse_none _⟩

theorem mappable_of_agree (hset : Normal set) (h : RefsAgree set ref) : Mappable set ref := by
  have hconnection : ∀ member ∈ set.repositories.entries, (member.2.url ≠ none ∨ member.2.upstream ≠ none) →
      ∃ connection, resolveRepositoryConnection set member.1 = .ok (some connection) := by
    intro member hmember hsource
    obtain ⟨connection, hresolve, -⟩ := h.connects member hmember
    cases connection with
    | some connection => exact ⟨connection, hresolve⟩
    | none =>
      rw [resolve_member hmember, resolveEntry] at hresolve
      split at hresolve
      · cases hresolve
      · next hurl hupstream =>
        rcases hsource with hsource | hsource
        · exact absurd hurl hsource
        · exact absurd hupstream hsource
      · split at hresolve <;> cases hresolve
  refine ⟨fun member hmember => (connects_iff hset hmember).mp (h.connects member hmember),
    fun member hmember himports hsource => ?_, fun member hmember refPrefix hstart => ?_⟩
  · obtain ⟨connection, hresolve⟩ := hconnection member hmember hsource
    exact ((inverse_iff hset hmember hresolve).mp (h.inverse member hmember connection hresolve)).1 himports
  · have hupstream : member.2.upstream ≠ none := fun hnone => by
      have halone := (hset.shares.entries member hmember).alone hnone
      rw [hstart] at halone
      cases halone.1
    obtain ⟨connection, hresolve⟩ := hconnection member hmember (.inr hupstream)
    exact ((inverse_iff hset hmember hresolve).mp (h.inverse member hmember connection hresolve)).2 refPrefix hstart

theorem agree_of_mappable (hset : Normal set) (h : Mappable set ref) : RefsAgree set ref := by
  refine ⟨fun member hmember => (connects_iff hset hmember).mpr (h.declared member hmember), ?_, ?_,
    validateRepositorySet_self hset⟩
  · intro upstream a ha b hb ca cb ia ib hra hrb hma hmb
    have hdeclared := h.declared a (mem_members.mp ha).1 upstream (mem_members.mp ha).2
    have hshared : ∀ {member connection}, member ∈ set.members upstream →
        resolveRepositoryConnection set member.1 = .ok (some connection) →
        connection.refNamespace = some (sharedNamespace set member.2 upstream) := by
      intro member connection hmember hresolve
      obtain ⟨hentry, hupstream⟩ := mem_members.mp hmember
      rcases resolve_namespace hentry hresolve with ⟨other, -, hother, hrefs⟩ | ⟨hurl, -⟩
      · rw [hupstream] at hother
        exact Option.some.inj hother ▸ hrefs
      · have hnone := (hset.shares.entries member hentry).oneSource.resolve_left hurl
        rw [hupstream] at hnone
        cases hnone
    rw [hshared ha hra] at hma
    rw [hshared hb hrb] at hmb
    obtain ⟨base, name, hsplit, -⟩ := mapExternal_ok.mp hma
    obtain ⟨hbase, hname, rfl⟩ := splitRef_ok.mp hsplit
    rw [takesIn_unique hset.shares hdeclared hbase hname ha hb ⟨ia, hma⟩ ⟨ib, hmb⟩]
  · intro member hmember connection hresolve
    refine (inverse_iff hset hmember hresolve).mpr
      ⟨fun himports => h.named member hmember himports ?_, h.longer member hmember⟩
    rcases resolve_namespace hmember hresolve with ⟨upstream, -, hupstream, -⟩ | ⟨hurl, -⟩
    · exact .inr (by rw [hupstream]; nofun)
    · exact .inl hurl

/-- The laws of a set that is accepted hold at a ref exactly where the set and the ref are mappable. -/
theorem refs_agree_iff_mappable {value : Value} (h : normalizeRepositorySet value = .ok set) :
    RefsAgree set ref ↔ Mappable set ref :=
  ⟨mappable_of_agree (readSet_ok h), agree_of_mappable (readSet_ok h)⟩

end Laws

namespace Sample

/-! ## Manifests -/

/-- No URL has credentials in it. -/
@[reducible]
def parser : UrlParser := ⟨fun _ => some false⟩

def text (s : String) : Value := .string s.toList

def record (fields : List (String × Value)) : Value := .object (fields.map fun entry => (entry.1.toList, entry.2))

def manifestOf (repositories : List (String × Value)) : Value :=
  record [("schemaVersion", .number 1),
    ("upstreams", record [("shared", record [("url", text "https://git.example/shared.git")])]),
    ("repositories", record repositories)]

/-- The entry of a repository without branch maps. -/
def entry (refPrefix : Option Text) (fallback : Bool) (importBranches : PlainObject Text) : Entry :=
  { url := none, upstream := some "shared".toList, refPrefix, fallback, root := false, ref := none, protectedPatterns := [],
    forcePushBlockedPatterns := [], importBranches, publishBranches := .empty }

def setOf (repositories : PlainObject Entry) : RepositorySet where
  upstreams := PlainObject.empty.assign "shared".toList ⟨"https://git.example/shared.git".toList⟩
  repositories := repositories

/-- One repository has a prefix, and one has the rest. -/
def shared : RepositorySet :=
  setOf ((PlainObject.empty.assign "app".toList (entry (some "app/".toList) false .empty)).assign "docs".toList
    (entry none true .empty))

def sharedManifest : Value :=
  manifestOf [("app", record [("upstream", text "shared"), ("refPrefix", text "app/")]),
    ("docs", record [("upstream", text "shared"), ("fallback", .boolean true)])]

/-- The branch `app/main` belongs to the first repository only. -/
theorem app_main_agrees : @RefsAgree parser shared "refs/heads/app/main".toList := by
  refine (@refs_agree_iff_mappable parser shared "refs/heads/app/main".toList sharedManifest (by decide +kernel)).mpr ?_
  have hmembers : ∀ member ∈ shared.repositories.entries, member = ("app".toList, entry (some "app/".toList) false .empty) ∨
      member = ("docs".toList, entry none true .empty) := by
    have hentries : shared.repositories.entries =
        [("app".toList, entry (some "app/".toList) false .empty), ("docs".toList, entry none true .empty)] := rfl
    intro member hmember
    rw [hentries] at hmember
    exact (List.mem_cons.mp hmember).imp_right List.mem_singleton.mp
  refine ⟨fun member hmember upstream hupstream => ?_, fun member hmember himports => ?_,
    fun member hmember refPrefix hstart => ?_⟩
  · rcases hmembers member hmember with rfl | rfl
    · exact Option.some.inj hupstream ▸ by decide
    · exact Option.some.inj hupstream ▸ by decide
  · rcases hmembers member hmember with rfl | rfl
    · cases himports
    · cases himports
  · rcases hmembers member hmember with rfl | rfl
    · exact Option.some.inj hstart ▸ by decide
    · cases hstart

/-- A repository that imports one branch. -/
def importing : RepositorySet :=
  setOf (PlainObject.empty.assign "app".toList (entry none false (PlainObject.empty.assign "main".toList "trunk".toList)))

def importingManifest : Value :=
  manifestOf [("app", record [("upstream", text "shared"), ("import", record [("main", text "trunk")])])]

/-- A repository of an upstream that is not declared. -/
def undeclaredManifest : Value :=
  manifestOf [("app", record [("upstream", text "constructor"), ("refPrefix", text "app/")])]

/-- The branch `toString` is mapped to the text of a function, and not back; and a set without the upstream
`constructor` is accepted. -/
theorem inherited_properties :
    (¬ ∀ value set ref, @normalizeRepositorySet parser value = .ok set → @RefsAgree parser set ref) ∧
    (@normalizeRepositorySet parser undeclaredManifest).isOk = true := by
  refine ⟨fun h => ?_, by decide +kernel⟩
  have hread : @normalizeRepositorySet parser importingManifest = .ok importing := by decide +kernel
  have hmappable := @mappable_of_agree parser _ _ (@readSet_ok parser _ _ _ _ hread)
    (h importingManifest importing "refs/heads/toString".toList hread)
  have hkey := hmappable.named ("app".toList, entry none false (PlainObject.empty.assign "main".toList "trunk".toList))
    List.mem_cons_self rfl (.inr nofun) "toString".toList rfl (by decide)
  exact absurd hkey (by decide)

end Sample

end Dim.Repositories
