/-
What holds of the stored routes in every run of the plugin: an entry has an identity of its own, a claim that is
its identity or the text of its request, and the route that a listener answered under the policy it records. And
what holds of the served routes between operations, in a run where nothing is left behind: each has one claim, that
of a stored entry which may be served there.
-/
import DimProofs.ExternalUrls.Slots

namespace Dim.ExternalUrls

open Effectful

/-! ## Entries -/

def requestClaim (entry : StoredUrl) : Claim := .request entry.workspaceId entry.ingress entry.subdomain entry.target

/-- The identity that a permalink names. -/
def publicRouteId (entry : StoredUrl) : Option String := if entry.subdomain.isNone then none else some entry.id

section Entries

variable [Platform]

structure Entry (drawn : List String) (entry : StoredUrl) : Prop where
  drawn : entry.id ∈ drawn
  /-- The claim, and the workspace and the ingress that the route was answered for. -/
  minted : ∃ claim workspace options, (claim = .identity entry.id ∨ claim = requestClaim entry) ∧
    workspace.id = entry.workspaceId ∧ entry.policyRevision = some (ingressPolicyRevision entry.ingress options) ∧
    Minted { name := entry.ingress, options } workspace (storedRequest entry) (publicRouteId entry) claim entry.route
  permalink : entry.subdomain.isSome = true → entry.permalink.isSome = true ∧ entry.route.permalinkAuthority.isSome = true
  approval : ∀ policy, entry.policyRevision = some policy → policy.approvalRequired = true → entry.approval ≠ .notRequired

namespace Entry

variable {drawn drawn' : List String} {entry : StoredUrl}

theorem mono (h : Entry drawn entry) (hdrawn : drawn ⊆ drawn') : Entry drawn' entry :=
  ⟨hdrawn h.drawn, h.minted, h.permalink, h.approval⟩

theorem claim (h : Entry drawn entry) :
    entry.route.ingressId = some (.identity entry.id) ∨ entry.route.ingressId = some (requestClaim entry) := by
  obtain ⟨claim, _, _, hclaim, -, -, hminted⟩ := h.minted
  rw [hminted.ingressId]
  exact hclaim.imp (congrArg some) (congrArg some)

theorem missingPermalink (h : Entry drawn entry) : missingPermalink entry = false := by
  unfold ExternalUrls.missingPermalink
  cases hsubdomain : entry.subdomain.isSome with
  | false => rfl
  | true =>
    obtain ⟨hpermalink, hauthority⟩ := h.permalink hsubdomain
    simp [Option.isNone_eq_false_iff.mpr hpermalink, Option.isNone_eq_false_iff.mpr hauthority]

/-- Another approval leaves the rest. -/
theorem withApproval (h : Entry drawn entry) {approval : ExternalUrlApproval} (happroval : approval ≠ .notRequired) :
    Entry drawn { entry with approval } :=
  ⟨h.drawn, h.minted, h.permalink, fun _ _ _ => happroval⟩

end Entry

end Entries

/-! ## The store -/

structure Stored [Platform] (w : World) : Prop where
  entries : ∀ entry ∈ w.files, Entry w.drawn entry
  distinct : w.files.Pairwise fun entry other => entry.id ≠ other.id

section Store

variable {w w' : World} {entry other : StoredUrl}

theorem World.mem_list (w : World) (workspaceId : String) (entry : StoredUrl) :
    entry ∈ w.list workspaceId ↔ entry ∈ w.files ∧ entry.workspaceId = workspaceId := by
  simp [World.list, List.mem_insertionSort]

theorem World.mem_remove (w : World) (entry other : StoredUrl) :
    other ∈ (w.remove entry).files ↔ other ∈ w.files ∧ ¬ (other.workspaceId = entry.workspaceId ∧ other.id = entry.id) := by
  simp only [World.remove, World.sameFile, List.mem_filter, Bool.not_eq_true', Bool.and_eq_false_iff,
    decide_eq_false_iff_not, not_and_or]

theorem World.mem_put (w : World) (entry other : StoredUrl) :
    other ∈ (w.put entry).files ↔
      other = entry ∨ other ∈ w.files ∧ ¬ (other.workspaceId = entry.workspaceId ∧ other.id = entry.id) := by
  simp [World.put, World.mem_remove]

/-- A file that is written leaves those of other identities. -/
theorem World.mem_put_of_ne (h : other ∈ w.files) (hne : other.id ≠ entry.id) : other ∈ (w.put entry).files :=
  (w.mem_put entry other).mpr (.inr ⟨h, fun hsame => hne hsame.2⟩)

theorem World.mem_remove_of_ne (h : other ∈ w.files) (hne : other.id ≠ entry.id) : other ∈ (w.remove entry).files :=
  (w.mem_remove entry other).mpr ⟨h, fun hsame => hne hsame.2⟩

namespace Stored

variable [Platform]

theorem unique (h : Stored w) (entry : StoredUrl) (he : entry ∈ w.files) (other : StoredUrl) (ho : other ∈ w.files)
    (hid : entry.id = other.id) : entry = other :=
  List.inj_on_of_nodup_map (List.pairwise_map.mpr h.distinct) he ho hid

theorem distinct_list (h : Stored w) (workspaceId : String) :
    (w.list workspaceId).Pairwise fun entry other => entry.id ≠ other.id := by
  have hfiltered := h.distinct.sublist (List.filter_sublist (p := fun entry => entry.workspaceId = workspaceId))
  exact ((List.perm_insertionSort _ _).pairwise_iff fun hne => hne.symm).mpr hfiltered

theorem of_sublist (h : Stored w) (hfiles : w'.files.Sublist w.files) (hdrawn : w.drawn ⊆ w'.drawn) : Stored w' :=
  ⟨fun entry he => (h.entries entry (hfiles.subset he)).mono hdrawn, h.distinct.sublist hfiles⟩

theorem frame (h : Stored w) (hf : Frame w w') : Stored w' :=
  h.of_sublist (hf.files ▸ List.Sublist.refl _) hf.drawn

theorem resolve (h : Stored w) (workspaceId : String) (target : WorkspaceTarget) (upstream : ResolvedWorkspaceTarget) :
    Stored (w.resolve workspaceId target upstream) := h.of_sublist (List.Sublist.refl _) fun _ he => he

theorem draw (h : Stored w) (id : String) : Stored (w.draw id) :=
  h.of_sublist (List.Sublist.refl _) (List.subset_cons_self _ _)

theorem remove (h : Stored w) (entry : StoredUrl) : Stored (w.remove entry) :=
  h.of_sublist List.filter_sublist fun _ he => he

theorem removeIngress (h : Stored w) (ingress : String) (kept : StoredUrl → Bool) : Stored (w.removeIngress ingress kept) :=
  h.of_sublist List.filter_sublist fun _ he => he

/-- An entry is written over its own file, or over none. -/
theorem put (h : Stored w) (hentry : Entry w.drawn entry)
    (hsame : ∀ other ∈ w.files, other.id = entry.id → other.workspaceId = entry.workspaceId) : Stored (w.put entry) := by
  constructor
  · intro other ho
    rcases (w.mem_put entry other).mp ho with rfl | ⟨ho, -⟩
    · exact hentry
    · exact h.entries other ho
  · refine List.pairwise_cons.mpr ⟨fun other ho hid => ?_, (h.remove entry).distinct⟩
    obtain ⟨hmem, hne⟩ := (w.mem_remove entry other).mp ho
    exact hne ⟨hsame other hmem hid.symm, hid.symm⟩

theorem put_of_mem (h : Stored w) (hmem : entry ∈ w.files) {entry' : StoredUrl} (hentry : Entry w.drawn entry')
    (hid : entry'.id = entry.id) (hworkspace : entry'.workspaceId = entry.workspaceId) : Stored (w.put entry') := by
  refine h.put hentry fun other ho hsame => ?_
  rw [h.unique other ho entry hmem (hsame.trans hid), hworkspace]

/-- A claim belongs to the requests of one workspace, ingress and target. -/
theorem of_claim (h : Stored w) (he : entry ∈ w.files) (ho : other ∈ w.files)
    (hclaim : other.route.ingressId = entry.route.ingressId) :
    other.workspaceId = entry.workspaceId ∧ other.ingress = entry.ingress ∧ other.target = entry.target := by
  rcases (h.entries entry he).claim with hc | hc <;> rcases (h.entries other ho).claim with hc' | hc' <;>
    rw [hc, hc', Option.some.injEq] at hclaim
  · rw [h.unique other ho entry he (Claim.identity.inj hclaim)]
    exact ⟨rfl, rfl, rfl⟩
  · cases hclaim
  · cases hclaim
  · obtain ⟨hworkspace, hingress, -, htarget⟩ := Claim.request.inj hclaim
    exact ⟨hworkspace, hingress, htarget⟩

end Stored

end Store

/-! ## What may be served -/

/-- The entry may be served at the place, with this target and this switch. -/
structure Backs (w : World) (slot : Slot) (claim : Claim) (upstream : ResolvedWorkspaceTarget) (enabled : Bool)
    (entry : StoredUrl) : Prop where
  stored : entry ∈ w.files
  active : entry.approval ≠ .revoked
  claim : entry.route.ingressId = some claim
  slot : slot ∈ w.slots entry
  target : (entry.workspaceId, entry.target, upstream) ∈ w.resolved
  policy : ∃ options, w.ingresses entry.ingress = some options ∧
    entry.policyRevision = some (ingressPolicyRevision entry.ingress options) ∧
    (enabled = true → options.approvalRequired = some true → entry.approval = .approved)

/-- Every served route has one claim, that of an entry that may be served there. -/
def Held (w : World) : Prop :=
  ∀ slot route, w.holds slot = some route →
    ∃ claim enabled entry, route.claims = [(claim, enabled)] ∧ Backs w slot claim route.upstream enabled entry

/-- No two stored routes that were not revoked share a claim, where their ingress requires approval. -/
def Unshared (w : World) : Prop :=
  ∀ entry ∈ w.files, ∀ other ∈ w.files, entry.approval ≠ .revoked → other.approval ≠ .revoked →
    entry.route.ingressId = other.route.ingressId →
    (∃ options, w.ingresses entry.ingress = some options ∧ options.approvalRequired = some true) → entry = other

section Held

variable {w w' : World} {slots : List Slot} {claim : Claim} {upstream : ResolvedWorkspaceTarget} {enabled acquired : Bool}
  {entry : StoredUrl} {slot : Slot}

theorem Backs.disabled (h : Backs w slot claim upstream enabled entry) : Backs w slot claim upstream false entry := by
  obtain ⟨options, hoptions, hpolicy, -⟩ := h.policy
  exact ⟨h.stored, h.active, h.claim, h.slot, h.target, options, hoptions, hpolicy, nofun⟩

/-- An entry that is still stored goes on to be served where it was. -/
theorem Backs.keep (h : Backs w slot claim upstream enabled entry) (hfiles : entry ∈ w'.files)
    (hresolved : w.resolved ⊆ w'.resolved) (hingress : w'.ingresses entry.ingress = w.ingresses entry.ingress) :
    Backs w' slot claim upstream enabled entry where
  stored := hfiles
  active := h.active
  claim := h.claim
  slot := by
    unfold World.slots
    rw [hingress]
    exact h.slot
  target := hresolved h.target
  policy := hingress ▸ h.policy

theorem Backs.frame (h : Backs w slot claim upstream enabled entry) (hf : Frame w w') :
    Backs w' slot claim upstream enabled entry :=
  h.keep (hf.files ▸ h.stored) (fun _ hr => hf.resolved ▸ hr) (congrFun hf.ingresses _)

/-- Less is served, of what is stored as before. -/
theorem Held.of_frame (h : Held w) (hf : Frame w w')
    (hholds : ∀ slot route, w'.holds slot = some route → w.holds slot = some route) : Held w' := by
  intro slot route hroute
  obtain ⟨claim, enabled, entry, hclaims, hbacks⟩ := h slot route (hholds slot route hroute)
  exact ⟨claim, enabled, entry, hclaims, hbacks.frame hf⟩

theorem Held.resolve (h : Held w) (workspaceId : String) (target : WorkspaceTarget) (upstream : ResolvedWorkspaceTarget) :
    Held (w.resolve workspaceId target upstream) := by
  intro slot route hroute
  have hroute : w.holds slot = some route := by
    rw [← hroute]
    cases slot <;> rfl
  obtain ⟨claim, enabled, entry, hclaims, hbacks⟩ := h slot route hroute
  exact ⟨claim, enabled, entry, hclaims, hbacks.keep hbacks.stored (List.subset_cons_self _ _) rfl⟩

theorem Held.draw (h : Held w) (id : String) : Held (w.draw id) :=
  h.of_frame ⟨rfl, rfl, rfl, List.subset_cons_self _ _⟩ fun slot route hroute => by
    rw [← hroute]
    cases slot <;> rfl

theorem Held.claimed (h : Held w) (hc : Claimed w w' slots claim upstream enabled acquired)
    (hbacks : ∀ slot ∈ slots, ∃ entry, Backs w slot claim upstream enabled entry) : Held w' := by
  intro slot route hroute
  rw [hc.holds] at hroute
  split at hroute
  · rename_i hslot
    cases hroute
    obtain ⟨entry, hbacks⟩ := hbacks slot hslot
    exact ⟨claim, enabled, entry, rfl, hbacks.frame hc.toFrame⟩
  · obtain ⟨claim', enabled', entry, hclaims, hbacks⟩ := h slot route hroute
    exact ⟨claim', enabled', entry, hclaims, hbacks.frame hc.toFrame⟩

/-- A claim on places that it held already renews their target and their switch. -/
theorem Held.renewed (h : Held w) (hc : Claimed w w' slots claim upstream enabled false)
    (howner : ∀ slot entry upstream' enabled', Backs w slot claim upstream' enabled' entry →
      (entry.workspaceId, entry.target, upstream) ∈ w.resolved ∧
      (enabled = true → ∀ options, w.ingresses entry.ingress = some options → options.approvalRequired = some true →
        entry.approval = .approved)) : Held w' := by
  refine h.claimed hc fun slot hslot => ?_
  have hsome : (w.holds slot).isNone = false := by
    have hacquired := hc.acquired.symm
    simp only [List.any_eq_false] at hacquired
    exact Bool.not_eq_true _ ▸ hacquired slot hslot
  obtain ⟨route, hroute⟩ := Option.isSome_iff_exists.mp (Option.isNone_eq_false_iff.mp hsome)
  obtain ⟨claim', enabled', entry, hclaims, hbacks⟩ := h slot route hroute
  obtain ⟨enabled'', hown⟩ := hc.own slot hslot route hroute
  have hclaim : claim' = claim := by
    rw [hclaims] at hown
    simpa using (List.cons.inj hown).1 |> congrArg Prod.fst
  subst hclaim
  obtain ⟨htarget, happroved⟩ := howner slot entry _ _ hbacks
  obtain ⟨options, hoptions, hpolicy, -⟩ := hbacks.policy
  exact ⟨entry, { hbacks with
    target := htarget, policy := ⟨options, hoptions, hpolicy, fun he => happroved he options hoptions⟩ }⟩

/-- What is given up was the claim's own. -/
theorem holds_giveBack {w₁ w₂ w₃ : World} (hc : Claimed w₁ w₂ slots claim upstream enabled acquired)
    (hr : Released w₂ w₃ slots claim) {slot : Slot} {route : RegisteredRoute} (hroute : w₃.holds slot = some route) :
    w₁.holds slot = some route := by
  rw [hr.holds] at hroute
  split at hroute
  · rename_i hslot
    rw [hc.holds, if_pos hslot] at hroute
    simp [RegisteredRoute.without] at hroute
  · rename_i hslot
    rwa [hc.holds, if_neg hslot] at hroute

theorem Held.giveBack {w₁ w₂ w₃ : World} (h : Held w₁) (hc : Claimed w₁ w₂ slots claim upstream enabled acquired)
    (hr : Released w₂ w₃ slots claim) : Held w₃ :=
  h.of_frame (hc.toFrame.trans hr.toFrame) fun _ _ hroute => holds_giveBack hc hr hroute

theorem Held.switched (h : Held w) (hs : Switched w w' slots claim enabled)
    (hbacks : ∀ slot ∈ slots, ∀ upstream enabled' entry, Backs w slot claim upstream enabled' entry →
      ∃ entry, Backs w slot claim upstream enabled entry) : Held w' := by
  intro slot route hroute
  rw [hs.holds] at hroute
  split at hroute
  · rename_i hslot
    obtain ⟨route', hroute', rfl⟩ := Option.map_eq_some_iff.mp hroute
    obtain ⟨claim', enabled', entry, hclaims, hback⟩ := h slot route' hroute'
    have hclaim : claim' = claim := by
      obtain ⟨active, hactive, hhas⟩ := hs.active slot hslot
      rw [hroute', Option.some.injEq] at hactive
      subst hactive
      simpa [RegisteredRoute.has, hclaims] using hhas
    subst hclaim
    obtain ⟨entry', hback'⟩ := hbacks slot hslot _ _ _ hback
    exact ⟨claim', enabled, entry', by rw [hclaims, setClaim_singleton], hback'.frame hs.toFrame⟩
  · obtain ⟨claim', enabled', entry, hclaims, hback⟩ := h slot route hroute
    exact ⟨claim', enabled', entry, hclaims, hback.frame hs.toFrame⟩

/-- The entries that an entry is written over back nothing that it does not. -/
theorem Held.put (h : Held w) {entry' : StoredUrl}
    (hbacks : ∀ slot upstream claim enabled entry, Backs w slot claim upstream enabled entry → entry.id = entry'.id →
      Backs (w.put entry') slot claim upstream enabled entry') : Held (w.put entry') := by
  intro slot route hroute
  have hroute : w.holds slot = some route := by
    rw [← hroute]
    cases slot <;> rfl
  obtain ⟨claim, enabled, entry, hclaims, hback⟩ := h slot route hroute
  by_cases hid : entry.id = entry'.id
  · exact ⟨claim, enabled, entry', hclaims, hbacks _ _ _ _ _ hback hid⟩
  · exact ⟨claim, enabled, entry, hclaims, hback.keep (World.mem_put_of_ne hback.stored hid) (fun _ h => h) rfl⟩

/-- The places of an entry are released, and the entry is no longer what it was. -/
theorem Held.dropped [Platform] {w₁ w₂ : World} (h : Held w) (hs : Stored w) (he : entry ∈ w.files)
    (hclaim : entry.route.ingressId = some claim)
    (hfiles : ∀ other ∈ w.files, other.id ≠ entry.id → other ∈ w₁.files) (hresolved : w₁.resolved = w.resolved)
    (hingresses : w₁.ingresses = w.ingresses) (hholds : ∀ slot, w₁.holds slot = w.holds slot)
    (hr : Released w₁ w₂ (w.slots entry) claim) : Held w₂ := by
  intro slot route hroute
  rw [hr.holds, hholds] at hroute
  obtain ⟨route', hroute'⟩ : ∃ route', w.holds slot = some route' := by
    split at hroute
    · obtain ⟨route', hroute', -⟩ := Option.bind_eq_some_iff.mp hroute
      exact ⟨route', hroute'⟩
    · exact ⟨route, hroute⟩
  obtain ⟨claim', enabled, backing, hclaims, hback⟩ := h slot route' hroute'
  have hne : ¬ (slot ∈ w.slots entry ∧ claim' = claim) := by
    rintro ⟨hslot, rfl⟩
    rw [if_pos hslot, hroute', Option.bind_some, RegisteredRoute.without_self hclaims] at hroute
    cases hroute
  have hsame : route = route' := by
    split at hroute
    · rename_i hslot
      have hclaim' : claim' ≠ claim := fun he => hne ⟨hslot, he⟩
      rw [hroute', Option.bind_some] at hroute
      rw [RegisteredRoute.without_of_ne hclaims hclaim', Option.some.injEq] at hroute
      exact hroute.symm
    · rw [hroute', Option.some.injEq] at hroute
      exact hroute.symm
  subst hsame
  have hid : backing.id ≠ entry.id := by
    intro hid
    have hbacking := hs.unique backing hback.stored entry he hid
    subst hbacking
    refine hne ⟨hback.slot, ?_⟩
    rw [← Option.some.injEq, ← hback.claim, hclaim]
  refine ⟨claim', enabled, backing, hclaims, hback.keep ?_ ?_ ?_⟩
  · rw [hr.files]
    exact hfiles backing hback.stored hid
  · rw [hr.resolved, hresolved]
    exact fun _ h => h
  · rw [hr.ingresses, hingresses]

end Held

end Dim.ExternalUrls
