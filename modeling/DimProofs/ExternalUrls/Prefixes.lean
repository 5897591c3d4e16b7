/-
The subdomains that the default route policy allows to a workspace: those that start with its
normalised name and two hyphens, and its OpenCode label. Names that normalise alike share their
prefix. Two hyphens may also stand within a normalised name, and a permalink keeps only 16
characters of one, so the names are told apart where neither reaches into a text of the other.
-/
import DimProofs.ExternalUrls.Plugin
import DimProofs.Lib.Separator
import DimProofs.Lifecycle.State

namespace Dim.ExternalUrls

open Effectful Separator

/-! ## Normalised names -/

/-- The characters that a normalised name keeps. -/
def nameChar : Pattern.CharClass := fun c => Pattern.lower c || Pattern.digit c

theorem toLower_of_nameChar {c : Char} (h : nameChar c = true) : c.toLower = c := by
  have hlower : ¬ (c.val ≥ 'A'.val ∧ c.val ≤ 'Z'.val) := by
    simp only [nameChar, Pattern.lower, Pattern.digit, Pattern.within, Bool.or_eq_true, Bool.and_eq_true,
      decide_eq_true_eq, Char.le_def] at h
    rcases h with ⟨hlow, -⟩ | ⟨-, hhigh⟩
    · rintro ⟨-, hle⟩
      exact absurd (UInt32.le_trans hlow hle) (by decide)
    · rintro ⟨hge, -⟩
      exact absurd (UInt32.le_trans hge hhigh) (by decide)
  unfold Char.toLower
  rw [dif_neg hlower]

theorem nameChar_ne_hyphen {c : Char} (h : nameChar c = true) : c ≠ '-' := by
  rintro rfl
  exact absurd h (by decide)

/-- What of a name's characters does not end in a hyphen. -/
theorem stripped_last (cs : List Char) : ((cs.reverse.dropWhile (· = '-')).reverse).getLast? ≠ some '-' := by
  intro h
  have hne : cs.rdropWhile (· = '-') ≠ [] := by
    intro hnil
    change (cs.rdropWhile (· = '-')).getLast? = some '-' at h
    rw [hnil] at h
    cases h
  have hlast := List.rdropWhile_last_not (· = '-') cs hne
  change (cs.rdropWhile (· = '-')).getLast? = some '-' at h
  rw [List.getLast?_eq_some_getLast hne, Option.some.injEq] at h
  simp [h] at hlast

theorem stripped_leads (cs : List Char) : (cs.reverse.dropWhile (· = '-')).reverse <+: cs :=
  List.rdropWhile_prefix _ cs

theorem stripped_head {c : Char} (cs : List Char) (hc : c ≠ '-') :
    ∃ rest, ((c :: cs).reverse.dropWhile (· = '-')).reverse = c :: rest := by
  have hne : (c :: cs).rdropWhile (· = '-') ≠ [] := by
    rw [ne_eq, List.rdropWhile_eq_nil_iff]
    intro hall
    exact hc (by simpa using hall c List.mem_cons_self)
  obtain ⟨d, rest, hd⟩ := List.exists_cons_of_ne_nil hne
  obtain ⟨t, ht⟩ := List.rdropWhile_prefix (fun c : Char => decide (c = '-')) (c :: cs)
  rw [hd, List.cons_append, List.cons.injEq] at ht
  exact ⟨rest, ht.1 ▸ hd⟩

/-- A name that `validateLifecycleName` admits, normalised. -/
structure Normalised (slug : List Char) : Prop where
  head : ∃ c rest, slug = c :: rest ∧ nameChar c = true
  last : slug.getLast? ≠ some '-'
  length : slug.length ≤ 48

theorem normalised_of_valid {name : String} (h : Lifecycle.validLifecycleName name = true) :
    Normalised (normalizedName name) := by
  unfold Lifecycle.validLifecycleName at h
  unfold normalizedName
  cases hname : name.toList with
  | nil =>
    rw [hname] at h
    cases h
  | cons c cs =>
    rw [hname] at h
    simp only [Pattern.bounded, Bool.and_eq_true, decide_eq_true_eq] at h
    obtain ⟨⟨hc, hlength⟩, -⟩ := h
    have hkept : (if (Pattern.lower c.toLower || Pattern.digit c.toLower) = true then c.toLower else '-') = c := by
      rw [toLower_of_nameChar (c := c) (by simpa [nameChar] using hc), if_pos (by simpa using hc)]
    have hhyphen : c ≠ '-' := nameChar_ne_hyphen (by simpa [nameChar] using hc)
    simp only [List.map_cons, hkept]
    rw [List.dropWhile_cons_of_neg (by simpa using hhyphen)]
    obtain ⟨rest, hrest⟩ := stripped_head (cs.map fun c => if (Pattern.lower c.toLower || Pattern.digit c.toLower) = true
      then c.toLower else '-') hhyphen
    have hlast := stripped_last (c :: cs.map fun c => if (Pattern.lower c.toLower || Pattern.digit c.toLower) = true
      then c.toLower else '-')
    have hlen := (stripped_leads (c :: cs.map fun c => if (Pattern.lower c.toLower || Pattern.digit c.toLower) = true
      then c.toLower else '-')).length_le
    rw [hrest] at hlast hlen ⊢
    rw [if_neg (by simp)]
    refine ⟨⟨c, rest, rfl, by simpa [nameChar] using hc⟩, hlast, ?_⟩
    rw [List.length_cons, List.length_cons, List.length_map] at hlen
    rw [List.length_cons]
    omega

/-- A lifecycle name is too short for the hash that a prefix may carry. -/
theorem workspaceSubdomainPrefix_toList {name : String} (h : Lifecycle.validLifecycleName name = true) :
    (workspaceSubdomainPrefix name).toList = normalizedName name ++ ['-', '-'] := by
  have hlength := (normalised_of_valid h).length
  simp only [workspaceSubdomainPrefix]
  rw [if_pos (by omega), String.toList_append, String.toList_ofList]
  rfl

/-! ## Labels and permalinks -/

/-- What of a normalised name fits into its OpenCode label. -/
def opencodeWord (name : String) : List Char := (((normalizedName name).take 36).reverse.dropWhile (· = '-')).reverse

theorem opencodeWord_leads (name : String) : opencodeWord name <+: normalizedName name :=
  (stripped_leads _).trans (List.take_prefix _ _)

section
variable [Platform]

/-- The digits of a name's digest that its labels carry. -/
def workspaceIdentity (name : String) : List Char := (Platform.sha256 name).toList.take 16

/-- An OpenCode label up to its two hyphens. -/
def opencodeStem (name : String) : List Char := opencodeWord name ++ '-' :: workspaceIdentity name

/-- The digest is one of SHA-256, in hexadecimal digits. -/
def HexDigests : Prop := ∀ text, Pattern.hexString 64 (Platform.sha256 text) = true

theorem workspaceIdentity_hex (hsha : HexDigests) (name : String) :
    (workspaceIdentity name).length = 16 ∧ ∀ c ∈ workspaceIdentity name, Pattern.hex c = true := by
  have hall : ∀ p ∈ List.replicate 64 Pattern.hex, Pattern.Narrows p Pattern.hex := by
    intro p hp
    rw [List.eq_of_mem_replicate hp]
    exact .refl _
  obtain ⟨hhex, hlength⟩ := Pattern.sequence_all (hsha name) hall
  refine ⟨?_, ?_⟩
  · rw [workspaceIdentity, List.length_take, hlength]
    rfl
  · intro c hc
    exact List.all_eq_true.mp hhex c (List.mem_of_mem_take hc)

theorem hyphen_not_mem_identity (hsha : HexDigests) (name : String) : '-' ∉ workspaceIdentity name := by
  intro hmem
  exact absurd ((workspaceIdentity_hex hsha name).2 _ hmem) (by decide)

theorem opencodeLabel_toList (hsha : HexDigests) {name : String} (h : Lifecycle.validLifecycleName name = true) :
    (workspaceServiceSubdomain name "opencode").toList = opencodeStem name ++ "--opencode".toList := by
  obtain ⟨c, rest, hslug, hc⟩ := (normalised_of_valid h).head
  obtain ⟨word, hword⟩ := stripped_head (rest.take 35) (nameChar_ne_hyphen hc)
  have hlength : ('-' :: workspaceIdentity name ++ "--".toList ++ "opencode".toList).length = 27 := by
    rw [List.length_append, List.length_append, List.length_cons, (workspaceIdentity_hex hsha name).1]
    rfl
  have hcut : (normalizedName name).take 36 = c :: rest.take 35 := by rw [hslug]; rfl
  simp only [workspaceServiceSubdomain]
  rw [show ((Platform.sha256 name).toList.take 16) = workspaceIdentity name from rfl, hlength]
  rw [show 63 - 27 = 36 from rfl, hcut, hword, if_neg (by simp), String.toList_ofList, opencodeStem, opencodeWord, hcut,
    hword]
  simp

/-- A prefix that begins an OpenCode label begins the name in it, or is the label up to its two hyphens. -/
theorem prefix_of_opencodeLabel (hsha : HexDigests) {slug : List Char} {name : String}
    (h : Lifecycle.validLifecycleName name = true)
    (hp : slug ++ ['-', '-'] <+: (workspaceServiceSubdomain name "opencode").toList) :
    slug ++ ['-', '-'] <+: normalizedName name ∨ slug = opencodeStem name := by
  have hfree := hyphen_not_mem_identity hsha name
  have hidentity : workspaceIdentity name ≠ [] := by
    intro hnil
    have hlength := (workspaceIdentity_hex hsha name).1
    rw [hnil] at hlength
    cases hlength
  rw [opencodeLabel_toList hsha h, opencodeStem, List.append_assoc] at hp
  rcases prefix_cases hp (stripped_last _) with hword | ⟨u, rfl, hu⟩
  · exact Or.inl (hword.trans (opencodeWord_leads name))
  -- past the word and its hyphen
  have hhead : (workspaceIdentity name ++ "--opencode".toList).head? ≠ some '-' := by
    obtain ⟨d, digits, hdigits⟩ := List.exists_cons_of_ne_nil hidentity
    rw [hdigits, List.cons_append, List.head?_cons, ne_eq, Option.some.injEq]
    rintro rfl
    exact hfree (hdigits ▸ List.mem_cons_self)
  obtain ⟨rest, rfl, hrest⟩ := prefix_cons hu hhead
  have hlast : (workspaceIdentity name).getLast? ≠ some '-' := fun hl => hfree (List.mem_of_getLast? hl)
  rcases prefix_cases hrest hlast with hdigits | ⟨last, rfl, hend⟩
  · exact absurd hdigits (not_prefix_of_not_mem hfree)
  · -- only the end of the stem is followed by two hyphens
    refine Or.inr ?_
    cases last with
    | nil => simp [opencodeStem]
    | cons c last =>
      rw [List.cons_append, show "--opencode".toList = '-' :: "-opencode".toList from rfl, List.cons_prefix_cons] at hend
      cases last with
      | nil => exact absurd hend.2 (by decide)
      | cons c' last =>
        rw [List.cons_append, show "-opencode".toList = '-' :: "opencode".toList from rfl, List.cons_prefix_cons] at hend
        exact absurd hend.2.2 (not_prefix_of_not_mem (by decide))

theorem identity_of_opencodeLabel (hsha : HexDigests) {a b : String} (ha : Lifecycle.validLifecycleName a = true)
    (hb : Lifecycle.validLifecycleName b = true)
    (h : workspaceServiceSubdomain a "opencode" = workspaceServiceSubdomain b "opencode") :
    workspaceIdentity a = workspaceIdentity b := by
  have hlists := congrArg String.toList h
  rw [opencodeLabel_toList hsha ha, opencodeLabel_toList hsha hb] at hlists
  have hstems := List.append_cancel_right hlists
  have hlength : ('-' :: workspaceIdentity a).length = ('-' :: workspaceIdentity b).length := by
    rw [List.length_cons, List.length_cons, (workspaceIdentity_hex hsha a).1, (workspaceIdentity_hex hsha b).1]
  exact (List.cons.inj (List.append_inj' hstems hlength).2).2

end

/-- Two neighbouring classes of a pattern match the character. -/
def meets (d : Char) : List Pattern.CharClass → Bool
  | p :: q :: rest => (p d && q d) || meets d (q :: rest)
  | _ => false

theorem not_doubled_of_sequence {d : Char} : ∀ {ps : List Pattern.CharClass} {cs : List Char},
    Pattern.sequence ps cs = true → meets d ps = false → ¬ [d, d] <:+: cs
  | [], [], _, _, h => by simp at h
  | [], _ :: _, h, _, _ => by cases h
  | _ :: _, [], h, _, _ => by cases h
  | [_], c :: cs, h, _, hinfix => by
    have hlength := hinfix.length_le
    rw [Pattern.length_of_sequence h] at hlength
    simp at hlength
  | p :: q :: ps, c :: cs, h, hm, hinfix => by
    simp only [meets, Bool.or_eq_false_iff] at hm
    simp only [Pattern.sequence, Bool.and_eq_true] at h
    rcases List.infix_cons_iff.mp hinfix with hp | hi
    · cases cs with
      | nil => simp at hp
      | cons c' cs =>
        simp only [List.cons_prefix_cons] at hp
        obtain ⟨rfl, rfl, -⟩ := hp
        simp only [Pattern.sequence, Bool.and_eq_true] at h
        simp [h.1, h.2.1] at hm
    · exact not_doubled_of_sequence h.2 hm.2 hi

theorem permalink_toList (name routeId : String) :
    (workspacePermalinkSubdomain name routeId).toList =
      ((normalizedName name).take 16 ++ ['-']) ++ ("permalink-".toList ++ routeId.toList) := by
  rw [workspacePermalinkSubdomain, String.toList_append, String.toList_append, String.toList_ofList]
  simp

/-- A prefix that begins a permalink begins the name in it and the hyphen after that. -/
theorem prefix_of_permalink {slug : List Char} {name routeId : String} (hid : Pattern.uuid routeId = true)
    (hp : slug ++ ['-', '-'] <+: (workspacePermalinkSubdomain name routeId).toList) :
    slug ++ ['-', '-'] <+: (normalizedName name).take 16 ++ ['-'] := by
  rw [permalink_toList] at hp
  refine prefix_of_free hp ?_ (by simp)
  have hsequence :=
    Pattern.sequence_append.mpr ⟨"permalink-".toList, routeId.toList, rfl, Pattern.sequence_only.mpr rfl, hid⟩
  exact not_doubled_of_sequence hsequence (by decide +kernel)

theorem permalink_ne_opencodeLabel [Platform] (hsha : HexDigests) {a b routeId : String}
    (ha : Lifecycle.validLifecycleName a = true) (hid : Pattern.uuid routeId = true) :
    workspacePermalinkSubdomain b routeId ≠ workspaceServiceSubdomain a "opencode" := by
  intro h
  have hlists := congrArg String.toList h
  rw [permalink_toList, opencodeLabel_toList hsha ha] at hlists
  obtain ⟨hchars, hlength⟩ := Pattern.uuid_chars hid
  have hroute : routeId.toList <:+ ((normalizedName b).take 16 ++ ['-']) ++ ("permalink-".toList ++ routeId.toList) :=
    ⟨((normalizedName b).take 16 ++ ['-']) ++ "permalink-".toList, by simp⟩
  have hlabel : "opencode".toList <:+ opencodeStem a ++ "--opencode".toList :=
    ⟨opencodeStem a ++ ['-', '-'], by simp⟩
  rw [hlists] at hroute
  have hsuffix : "opencode".toList <:+ routeId.toList :=
    List.suffix_of_suffix_length_le hlabel hroute (by rw [hlength]; decide)
  have hmem : 'p' ∈ routeId.toList := hsuffix.subset (by decide)
  exact absurd (List.all_eq_true.mp hchars _ hmem) (by decide)

/-! ## Whom a subdomain is allowed to -/

section
variable [Platform]

/-- The default policy accepts the subdomain for the workspace. -/
def Allowed (workspace : ControllerWorkspace) (subdomain : String) : Prop :=
  workspacePrefixPolicy workspace subdomain = .ok subdomain

instance (workspace : ControllerWorkspace) (subdomain : String) : Decidable (Allowed workspace subdomain) :=
  inferInstanceAs (Decidable (_ = _))

theorem allowed_iff {workspace : ControllerWorkspace} {subdomain : String}
    (h : Lifecycle.validLifecycleName workspace.name = true) : Allowed workspace subdomain ↔
      normalizedName workspace.name ++ ['-', '-'] <+: subdomain.toList ∨
        subdomain = workspaceServiceSubdomain workspace.name "opencode" := by
  simp only [Allowed, workspacePrefixPolicy, workspaceSubdomainPrefix_toList h]
  split
  · rename_i hcond
    simp only [Bool.or_eq_true, List.isPrefixOf_iff_prefix, decide_eq_true_eq] at hcond
    exact iff_of_true rfl hcond
  · rename_i hcond
    simp only [Bool.or_eq_true, List.isPrefixOf_iff_prefix, decide_eq_true_eq] at hcond
    exact iff_of_false (fun h => by cases h) hcond

/-- The normalised name of `a` followed by two hyphens reaches into no text that belongs to `b`: not into
its prefix, nor into its permalinks, and it is not the prefix that its OpenCode label happens to have. -/
structure KeepsOff (a b : String) : Prop where
  namePrefix : ¬ normalizedName a ++ ['-', '-'] <+: normalizedName b ++ ['-', '-']
  permalink : ¬ normalizedName a ++ ['-', '-'] <+: (normalizedName b).take 16 ++ ['-']
  opencode : normalizedName a ≠ opencodeStem b

/-- The workspace of one name is not allowed the OpenCode label of the other. -/
theorem opencodeLabel_exclusive (hsha : HexDigests) {a b : ControllerWorkspace}
    (ha : Lifecycle.validLifecycleName a.name = true) (hb : Lifecycle.validLifecycleName b.name = true)
    (hname : ¬ normalizedName a.name ++ ['-', '-'] <+: normalizedName b.name)
    (hstem : normalizedName a.name ≠ opencodeStem b.name)
    (hidentity : workspaceIdentity a.name ≠ workspaceIdentity b.name) :
    ¬ Allowed a (workspaceServiceSubdomain b.name "opencode") := by
  intro hallowed
  rcases (allowed_iff ha).mp hallowed with hp | hlabel
  · rcases prefix_of_opencodeLabel hsha hb hp with hp | hsame
    · exact hname hp
    · exact hstem hsame
  · exact hidentity (identity_of_opencodeLabel hsha ha hb hlabel.symm)

theorem KeepsOff.name {a b : String} (h : KeepsOff a b) : ¬ normalizedName a ++ ['-', '-'] <+: normalizedName b :=
  fun hp => h.namePrefix (hp.trans (List.prefix_append _ _))

theorem permalink_refused (hsha : HexDigests) {a b : ControllerWorkspace}
    (ha : Lifecycle.validLifecycleName a.name = true) (h : KeepsOff a.name b.name) {routeId : String}
    (hid : Pattern.uuid routeId = true) : ¬ Allowed a (workspacePermalinkSubdomain b.name routeId) := by
  intro hallowed
  rcases (allowed_iff ha).mp hallowed with hp | hlabel
  · exact h.permalink (prefix_of_permalink hid hp)
  · exact permalink_ne_opencodeLabel hsha ha hid hlabel

/-- Workspaces whose names keep off each other share no subdomain and no permalink. Names that normalise
alike share their prefix, but each OpenCode label belongs to its own workspace. -/
theorem workspace_prefixes_isolated (hsha : HexDigests) (a b : ControllerWorkspace)
    (ha : Lifecycle.validLifecycleName a.name = true) (hb : Lifecycle.validLifecycleName b.name = true)
    (hidentity : workspaceIdentity a.name ≠ workspaceIdentity b.name) :
    (KeepsOff a.name b.name → KeepsOff b.name a.name →
      (∀ subdomain, ¬ (Allowed a subdomain ∧ Allowed b subdomain)) ∧
      ∀ routeId, Pattern.uuid routeId = true →
        ¬ Allowed a (workspacePermalinkSubdomain b.name routeId) ∧
        ¬ Allowed b (workspacePermalinkSubdomain a.name routeId)) ∧
    (normalizedName a.name = normalizedName b.name → normalizedName a.name ≠ opencodeStem b.name →
      ¬ Allowed a (workspaceServiceSubdomain b.name "opencode")) := by
  constructor
  · intro hab hba
    constructor
    · rintro subdomain ⟨hallowed, hallowed'⟩
      rcases (allowed_iff ha).mp hallowed with hp | rfl
      · rcases (allowed_iff hb).mp hallowed' with hp' | rfl
        · rcases List.prefix_or_prefix_of_prefix hp hp' with hle | hle
          · exact hab.namePrefix hle
          · exact hba.namePrefix hle
        · exact opencodeLabel_exclusive hsha ha hb hab.name hab.opencode hidentity hallowed
      · exact opencodeLabel_exclusive hsha hb ha hba.name hba.opencode hidentity.symm hallowed'
    · intro routeId hid
      exact ⟨permalink_refused hsha ha hab hid, permalink_refused hsha hb hba hid⟩
  · intro hsame hstem
    refine opencodeLabel_exclusive hsha ha hb ?_ hstem hidentity
    intro hp
    have hlength := hp.length_le
    rw [hsame, List.length_append] at hlength
    exact absurd hlength (by simp)

end

namespace Sample

/-- SHA-256 of the names below. -/
@[reducible] def digests : Platform where
  sha256 text :=
    if text = "work.foo" then "5c0721b1416fafd67578ddb1edf3091f59d0f3488b33f07230a055d6a109f4f4"
    else if text = "work_foo" then "dce38709f029aef818f45cb3505e6d5cbe2b698ba903f1ae10e179f913dac3f6"
    else if text = "dim-0" then "e25e77276c3def70a08ce1153c48f725210c3231f5b3b2cb5aaacd1cc93efbd6"
    else "274044f1e86d01b00e345c3b422cb759ab4c7077423951583fa3b2730a959414"
  parseUrl _ := none

theorem digests_hex : @HexDigests digests := by
  intro text
  show Pattern.hexString 64 (if text = "work.foo" then _ else if text = "work_foo" then _ else if text = "dim-0" then _
    else _) = true
  split
  · decide +kernel
  split
  · decide +kernel
  split
  · decide +kernel
  · decide +kernel

def dim : ControllerWorkspace := { id := "id-0", name := "dim-0" }

def work : ControllerWorkspace := { id := "id-1", name := "work-1" }

end Sample

theorem workspace_prefixes_isolated_sample : ¬ @Allowed Sample.digests Sample.work "dim-0--docs" := by
  have hisolated := @workspace_prefixes_isolated Sample.digests Sample.digests_hex Sample.dim Sample.work
    (by decide +kernel) (by decide +kernel) (by decide +kernel)
  have hkeeps := @KeepsOff.mk Sample.digests "dim-0" "work-1" (by decide +kernel) (by decide +kernel) (by decide +kernel)
  have hkeeps' := @KeepsOff.mk Sample.digests "work-1" "dim-0" (by decide +kernel) (by decide +kernel) (by decide +kernel)
  have hdisjoint := (hisolated.1 hkeeps hkeeps').1 "dim-0--docs"
  exact fun hallowed => hdisjoint ⟨by decide +kernel, hallowed⟩

/-- `work.foo` and `work_foo` are both allowed `work-foo--docs`. -/
theorem punctuation_shares_prefix : ¬ ∀ (a b : ControllerWorkspace) (subdomain : String),
    Lifecycle.validLifecycleName a.name = true → Lifecycle.validLifecycleName b.name = true → a.name ≠ b.name →
      ¬ (@Allowed Sample.digests a subdomain ∧ @Allowed Sample.digests b subdomain) := by
  intro hclaim
  refine hclaim { id := "id-0", name := "work.foo" } { id := "id-1", name := "work_foo" } "work-foo--docs"
    (by decide +kernel) (by decide +kernel) (by decide) ⟨?_, ?_⟩
  · decide +kernel
  · decide +kernel

end Dim.ExternalUrls
