/-
A reconciliation of a stored route, and of all of a workspace's, keeps the invariant of the store wherever it stops;
and what it leaves served has a stored entry that may be served there, where no URL fails its validation and no two
routes of an ingress that requires approval share a claim.
-/
import DimProofs.ExternalUrls.Stored

namespace Dim.ExternalUrls

open Effectful

variable [Platform] {valid : Prop} {w w' : World}

/-! ## Reconciliation -/

/-- What a reconciliation leaves, whether or not it fails. -/
structure Reconciled (valid : Prop) (entry : StoredUrl) (w w' : World) : Prop where
  stored : Stored w'
  sound : valid → Held w' ∧ Unshared w'
  others : ∀ other ∈ w.files, other.id ≠ entry.id → other ∈ w'.files
  ingresses : w'.ingresses = w.ingresses

omit [Platform] in
theorem Unshared.frame (h : Unshared w) (hfiles : w'.files ⊆ w.files) (hingresses : w'.ingresses = w.ingresses) :
    Unshared w' := by
  intro entry he other ho hactive hactive' hclaim hrequired
  exact h entry (hfiles he) other (hfiles ho) hactive hactive' hclaim (hingresses ▸ hrequired)

omit [Platform] in
/-- An entry that is written again with its claim. -/
theorem Unshared.put (h : Unshared w) {entry entry' : StoredUrl} (hmem : entry ∈ w.files)
    (hactive : entry.approval ≠ .revoked)
    (hid : entry'.id = entry.id) (hworkspace : entry'.workspaceId = entry.workspaceId)
    (hingress : entry'.ingress = entry.ingress)
    (hclaim : entry'.route.ingressId = entry.route.ingressId) : Unshared (w.put entry') := by
  -- an entry of the new store stands for one of the old store
  have horigin : ∀ other ∈ (w.put entry').files, other.approval ≠ .revoked → ∃ origin ∈ w.files, origin.approval ≠ .revoked ∧
      origin.route.ingressId = other.route.ingressId ∧ origin.ingress = other.ingress ∧
      (other = entry' ∧ origin = entry ∨ other = origin ∧ other ≠ entry) := by
    intro other ho hother
    rcases (w.mem_put entry' other).mp ho with rfl | ⟨ho, hne⟩
    · exact ⟨entry, hmem, hactive, hclaim.symm, hingress.symm, .inl ⟨rfl, rfl⟩⟩
    · refine ⟨other, ho, hother, rfl, rfl, .inr ⟨rfl, ?_⟩⟩
      rintro rfl
      exact hne ⟨hworkspace.symm, hid.symm⟩
  intro x hx y hy hxa hya hxy ⟨options, hoptions, hrequired⟩
  obtain ⟨x', hx', hxa', hxc, hxi, hxo⟩ := horigin x hx hxa
  obtain ⟨y', hy', hya', hyc, -, hyo⟩ := horigin y hy hya
  have heq := h x' hx' y' hy' hxa' hya' (by rw [hxc, hyc, hxy]) ⟨options, by rw [hxi]; exact hoptions, hrequired⟩
  rcases hxo with ⟨rfl, rfl⟩ | ⟨rfl, hxne⟩ <;> rcases hyo with ⟨rfl, rfl⟩ | ⟨rfl, hyne⟩
  · rfl
  · exact absurd heq.symm hyne
  · exact absurd heq hxne
  · exact heq

namespace Reconciled

variable {entry : StoredUrl}

theorem of_frame (hs : Stored w) (hsound : valid → Held w ∧ Unshared w) (hf : Frame w w') (hheld : valid → Held w') :
    Reconciled valid entry w w' :=
  { stored := hs.frame hf
    sound := fun hv => ⟨hheld hv, (hsound hv).2.frame (fun _ h => hf.files ▸ h) hf.ingresses⟩
    others := fun _ ho _ => hf.files ▸ ho
    ingresses := hf.ingresses }

theorem refl (hs : Stored w) (hsound : valid → Held w ∧ Unshared w) : Reconciled valid entry w w :=
  of_frame hs hsound (.refl w) fun hv => (hsound hv).1

theorem trans {entry' : StoredUrl} {w'' : World} (h : Reconciled valid entry w w') (h' : Reconciled valid entry' w' w'')
    (hid : entry'.id = entry.id) : Reconciled valid entry w w'' :=
  { stored := h'.stored
    sound := h'.sound
    others := fun other ho hne => h'.others other (h.others other ho hne) (hid ▸ hne)
    ingresses := h'.ingresses.trans h.ingresses }

end Reconciled

omit [Platform] in
theorem slots_of_ingress {entry : StoredUrl} {options : ExternalUrlIngressOptions}
    (h : w.ingresses entry.ingress = some options) :
    w.slots entry = ConfiguredIngress.slots { name := entry.ingress, options } entry.route := by
  unfold World.slots
  rw [h]

section Rebound

variable {entry : StoredUrl} {options : ExternalUrlIngressOptions} {workspace : ControllerWorkspace} {route : ExternalRoute}
  {claim : Claim} {upstream : ResolvedWorkspaceTarget} {acquired unchanged : Bool} {w₁ w₂ : World}

/-- The switch of a stored entry is the one that its policy allows, whoever else has its claim. -/
theorem owner_of_claim (hs : Stored w) (hunshared : Unshared w) (he : entry ∈ w.files) (hactive : entry.approval ≠ .revoked)
    (hingress : w.ingresses entry.ingress = some options) (hclaim : entry.route.ingressId = some claim)
    (hresolved : (entry.workspaceId, entry.target, upstream) ∈ w.resolved)
    (happroved : entry.approval.enabled = true → options.approvalRequired = some true →
      entry.approval = .approved) {slot : Slot} {other : StoredUrl} {upstream' : ResolvedWorkspaceTarget} {enabled' : Bool}
    (hback : Backs w slot claim upstream' enabled' other) :
    (other.workspaceId, other.target, upstream) ∈ w.resolved ∧
      (entry.approval.enabled = true → ∀ options, w.ingresses other.ingress = some options →
        options.approvalRequired = some true → other.approval = .approved) := by
  have hsame := hback.claim.trans hclaim.symm
  obtain ⟨hworkspace, hother, htarget⟩ := hs.of_claim he hback.stored hsame
  refine ⟨by rw [hworkspace, htarget]; exact hresolved, fun henabled options' hoptions' hrequired => ?_⟩
  rw [hother, hingress, Option.some.injEq] at hoptions'
  subst hoptions'
  have heq := hunshared entry he other hback.stored hactive hback.active hsame.symm ⟨options, hingress, hrequired⟩
  exact heq ▸ happroved henabled hrequired

theorem safe_rebound (hs : Stored w₁) (hsound : valid → Held w₁ ∧ Unshared w₁) (he : entry ∈ w₁.files)
    (hactive : entry.approval ≠ .revoked) (hingress : w₁.ingresses entry.ingress = some options)
    (hunchanged : unchanged = true ↔ entry.policyRevision = some (ingressPolicyRevision entry.ingress options))
    (happroval : unchanged = false → options.approvalRequired = some true → entry.approval = .pending)
    (hworkspace : workspace.id = entry.workspaceId) (hresolved : (entry.workspaceId, entry.target, upstream) ∈ w₁.resolved)
    (hclaim : entry.route.ingressId = some claim)
    (hclaimed : Claimed w₁ w₂ (ConfiguredIngress.slots { name := entry.ingress, options } route) claim upstream
      entry.approval.enabled acquired)
    (hminted : Minted { name := entry.ingress, options } workspace (storedRequest entry) (publicRouteId entry) claim route) :
    Safe (Performs valid) Stored (rebound { name := entry.ingress, options } entry unchanged acquired route)
      (fun _ w' => Reconciled valid entry w₁ w') w₂ := by
  have hentry := hs.entries entry he
  have hframe := hclaimed.toFrame
  have happroved : entry.approval.enabled = true → options.approvalRequired = some true → entry.approval = .approved := by
    intro henabled hrequired
    cases hu : unchanged with
    | false => rw [happroval hu hrequired] at henabled; cases henabled
    | true =>
      have hne := hentry.approval _ (hunchanged.mp hu) (by simp [ingressPolicyRevision, hrequired])
      cases ha : entry.approval <;> simp_all [ExternalUrlApproval.enabled]
  have hgiveBack : ∀ failure : String, Safe (Performs valid) Stored
      (ConfiguredIngress.giveBack { name := entry.ingress, options } acquired route failure : Action StoredUrl)
      (fun _ w' => Reconciled valid entry w₁ w') w₂ := by
    intro failure
    refine safe_giveBack hminted.ingressId (fun w' hf => (hs.frame hframe).frame hf) (fun _ w' hr => ?_) fun hacquired => ?_
    · exact .of_frame hs hsound (hframe.trans hr.toFrame) fun hv => (hsound hv).1.giveBack hclaimed hr
    · subst hacquired
      exact .of_frame hs hsound hframe fun hv => (hsound hv).1.renewed hclaimed fun slot other upstream' enabled' hback =>
        owner_of_claim hs (hsound hv).2 he hactive hingress hclaim hresolved happroved hback
  unfold rebound
  split
  · rename_i hu
    split
    · -- the route is the stored one
      rename_i hroute
      refine .of_frame hs hsound hframe fun hv => (hsound hv).1.claimed hclaimed fun slot hslot => ⟨entry, ?_⟩
      have hslots : ConfiguredIngress.slots { name := entry.ingress, options } route = w₁.slots entry := by
        rw [slots_of_ingress hingress]
        unfold ConfiguredIngress.slots routeAuthorities
        rw [hroute.1, hroute.2]
      exact ⟨he, hactive, hclaim, hslots ▸ hslot, hresolved, options, hingress, hunchanged.mp hu, happroved⟩
    · exact hgiveBack _
  · rename_i hu
    have hstale : entry.policyRevision ≠ some (ingressPolicyRevision entry.ingress options) := fun h => hu (hunchanged.mpr h)
    have hpending : options.approvalRequired = some true → entry.approval = .pending :=
      happroval (by simpa using hu)
    split
    · exact hgiveBack _
    rename_i url hurl
    split
    · exact hgiveBack _
    rename_i hpermalink
    dsimp only
    generalize hupdated : ({ entry with
      route, url, permalink := route.permalink <|> entry.permalink,
      policyRevision := some (ConfiguredIngress.policyRevision { name := entry.ingress, options }) } : StoredUrl) = updated
    have hentry' : Entry w₂.drawn updated := by
      subst hupdated
      refine ⟨hframe.drawn hentry.drawn, ⟨claim, workspace, options, ?_, hworkspace, rfl, hminted⟩, ?_, ?_⟩
      · have hor := hentry.claim
        rw [hclaim] at hor
        exact hor.imp (Option.some.inj) (Option.some.inj)
      · intro hsubdomain
        have hsome : route.permalink.isSome = true := by
          by_contra hnone
          exact hpermalink ⟨hsubdomain, Option.not_isSome_iff_eq_none.mp hnone⟩
        refine ⟨?_, hminted.permalink ▸ hsome⟩
        obtain ⟨permalink, hp⟩ := Option.isSome_iff_exists.mp hsome
        simp [hp]
      · rintro policy hpolicy hrequired
        cases hpolicy
        rw [hpending (by simpa [ConfiguredIngress.policyRevision, ingressPolicyRevision] using hrequired)]
        nofun
    have hsame : updated.id = entry.id ∧ updated.workspaceId = entry.workspaceId ∧ updated.ingress = entry.ingress ∧
        updated.target = entry.target ∧ updated.approval = entry.approval ∧ updated.route = route ∧
        updated.policyRevision = some (ingressPolicyRevision entry.ingress options) := by
      subst hupdated
      exact ⟨rfl, rfl, rfl, rfl, rfl, rfl, rfl⟩
    clear hupdated
    obtain ⟨hid, hworkspace', hingress', htarget, happroval', hroute, hpolicy⟩ := hsame
    have hmem : entry ∈ w₂.files := hframe.files ▸ he
    have hput : Stored (w₂.put updated) := (hs.frame hframe).put_of_mem hmem hentry' hid hworkspace'
    refine Safe.orElse (P := fun r w' => match r with
      | .ok _ => Reconciled valid entry w₁ w'
      | .error _ => w' = w₂) ?_ (fun _ _ h => h) fun failure w' h => h ▸ hgiveBack failure
    refine safe_put (hs.frame hframe) hput ?_ fun _ => rfl
    have hconfigured : (w₂.put updated).ingresses updated.ingress = some options := by
      rw [hingress']
      exact (congrFun hframe.ingresses _).trans hingress
    refine ⟨hput, fun hv => ⟨?_, ?_⟩, fun other ho hne => ?_, hframe.ingresses⟩
    · -- what the entry is served at now is backed by it, and the rest by others, as its policy was not current
      intro slot held hheld
      have hheld : w₂.holds slot = some held := by
        rw [← hheld]
        cases slot <;> rfl
      rw [hclaimed.holds] at hheld
      split at hheld
      · rename_i hslot
        cases hheld
        refine ⟨claim, _, updated, rfl, (w₂.mem_put updated updated).mpr (.inl rfl), ?_, ?_, ?_, ?_, options,
          hconfigured, ?_, ?_⟩
        · rw [happroval']; exact hactive
        · rw [hroute]; exact hminted.ingressId
        · rw [slots_of_ingress hconfigured, hroute, hingress']
          exact hslot
        · rw [hworkspace', htarget]
          exact hframe.resolved ▸ hresolved
        · rw [hpolicy, hingress']
        · intro henabled hrequired
          rw [hpending hrequired] at henabled
          cases henabled
      · obtain ⟨claim', enabled', other, hclaims, hback⟩ := (hsound hv).1 slot held hheld
        have hne : other.id ≠ entry.id := by
          intro hsame
          obtain ⟨options', hoptions', hcurrent, -⟩ := hback.policy
          rw [hs.unique other hback.stored entry he hsame] at hoptions' hcurrent
          rw [hingress, Option.some.injEq] at hoptions'
          exact hstale (hoptions' ▸ hcurrent)
        refine ⟨claim', enabled', other, hclaims, (hback.frame hframe).keep ?_ (fun _ h => h) rfl⟩
        exact World.mem_put_of_ne (hframe.files ▸ hback.stored) (hid ▸ hne)
    · exact ((hsound hv).2.frame (fun _ h => hframe.files ▸ h) hframe.ingresses).put hmem hactive hid hworkspace' hingress'
        (by rw [hroute, hminted.ingressId, hclaim])
    · exact World.mem_put_of_ne (hframe.files ▸ ho) (hid ▸ hne)

theorem safe_rebindRoute (hs : Stored w) (hsound : valid → Held w ∧ Unshared w) (he : entry ∈ w.files)
    (hactive : entry.approval ≠ .revoked) (hingress : w.ingresses entry.ingress = some options)
    (hunchanged : unchanged = true ↔ entry.policyRevision = some (ingressPolicyRevision entry.ingress options))
    (happroval : unchanged = false → options.approvalRequired = some true → entry.approval = .pending)
    (hworkspace : workspace.id = entry.workspaceId) :
    Safe (Performs valid) Stored (rebindRoute { name := entry.ingress, options } entry workspace unchanged)
      (fun _ w' => Reconciled valid entry w w') w := by
  unfold rebindRoute
  refine safe_resolveTarget hs (fun upstream => hs.resolve _ _ _) (fun upstream _ => ?_) fun _ => .refl hs hsound
  have hresolved := hs.resolve workspace.id entry.target upstream
  have hsound' : valid → Held (w.resolve workspace.id entry.target upstream) ∧
    Unshared (w.resolve workspace.id entry.target upstream) :=
    fun hv => ⟨(hsound hv).1.resolve _ _ _, (hsound hv).2.frame (fun _ h => h) rfl⟩
  -- a resolution changes nothing that is stored or served
  have hback : ∀ w', Reconciled valid entry (w.resolve workspace.id entry.target upstream) w' →
    Reconciled valid entry w w' :=
    fun w' h => ⟨h.stored, h.sound, h.others, h.ingresses⟩
  obtain ⟨claim, hclaim⟩ : ∃ claim, entry.route.ingressId = some claim := by
    rcases (hs.entries entry he).claim with hc | hc
    · exact ⟨_, hc⟩
    · exact ⟨_, hc⟩
  rw [hclaim, Option.getD_some]
  refine Safe.andThen (P := fun r w' => match r with
    | .ok (acquired, route) => Claimed (w.resolve workspace.id entry.target upstream) w'
        (ConfiguredIngress.slots { name := entry.ingress, options } route) claim upstream entry.approval.enabled acquired ∧
        Minted { name := entry.ingress, options } workspace (storedRequest entry) (publicRouteId entry) claim route
    | .error _ => Reconciled valid entry w w') ?_ ?_ fun _ _ h => h
  · refine safe_provision (fun w' hf => hresolved.frame hf) (fun _ => hback _ (.refl hresolved hsound')) ?_ ?_
    · intro hv slots w' acquired _ hclaimed
      exact hback _ (.of_frame hresolved hsound' hclaimed.toFrame fun h => absurd h hv)
    · exact fun acquired route w' hclaimed hminted => ⟨hclaimed, hminted⟩
  · rintro ⟨acquired, route⟩ w₂ ⟨hclaimed, hminted⟩
    refine (safe_rebound hresolved hsound' he hactive hingress hunchanged happroval hworkspace ?_ hclaim hclaimed
      hminted).mono fun _ w' h => hback w' h
    rw [← hworkspace]
    exact List.mem_cons_self

theorem safe_reconcileStoredRoute (hs : Stored w) (hsound : valid → Held w ∧ Unshared w) (he : entry ∈ w.files)
    (hingress : w.ingresses entry.ingress = some options) (hworkspace : workspace.id = entry.workspaceId) :
    Safe (Performs valid) Stored (reconcileStoredRoute entry { name := entry.ingress, options } workspace)
      (fun _ w' => Reconciled valid entry w w') w := by
  have hentry := hs.entries entry he
  unfold reconcileStoredRoute
  split
  · exact .refl hs hsound
  rename_i hactive
  dsimp only
  rw [hentry.missingPermalink, Bool.or_false, Bool.not_false, Bool.and_true]
  have hunchanged : (!(entry.policyRevision != some
    (ConfiguredIngress.policyRevision { name := entry.ingress, options }))) = true ↔
      entry.policyRevision = some (ingressPolicyRevision entry.ingress options) := by
    simp [ConfiguredIngress.policyRevision]
  split
  · -- an ingress that requires approval has a new policy: the entry is stored as pending first
    rename_i hchanged
    simp only [Bool.and_eq_true] at hchanged
    generalize hpending : ({ entry with approval := .pending } : StoredUrl) = pending
    have hentry' : Entry w.drawn pending := hpending ▸ hentry.withApproval nofun
    obtain ⟨hid, hworkspace', hingress', hpolicy, hclaim', happroval⟩ : pending.id = entry.id ∧
        pending.workspaceId = entry.workspaceId ∧ pending.ingress = entry.ingress ∧
        pending.policyRevision = entry.policyRevision ∧ pending.route.ingressId = entry.route.ingressId ∧
        pending.approval = .pending := by
      subst hpending
      exact ⟨rfl, rfl, rfl, rfl, rfl, rfl⟩
    have hput := hs.put_of_mem he hentry' hid hworkspace'
    have hstale : entry.policyRevision ≠ some (ingressPolicyRevision entry.ingress options) := by
      simpa [ConfiguredIngress.policyRevision] using hchanged.2
    have hsound' : valid → Held (w.put pending) ∧ Unshared (w.put pending) := by
      refine fun hv => ⟨(hsound hv).1.put fun slot upstream claim enabled other hback hsame => ?_,
        (hsound hv).2.put he hactive hid hworkspace' hingress' hclaim'⟩
      -- an entry of an older policy is not served
      obtain ⟨options', hoptions', hcurrent, -⟩ := hback.policy
      rw [hs.unique other hback.stored entry he (hsame.trans hid)] at hoptions' hcurrent
      rw [hingress, Option.some.injEq] at hoptions'
      exact absurd (hoptions' ▸ hcurrent) hstale
    refine safe_put hs hput ?_ fun _ => .refl hs hsound
    have hmem : pending ∈ (w.put pending).files := (w.mem_put pending pending).mpr (.inl rfl)
    rw [← hpolicy, ← hingress'] at hunchanged
    have hrebind :=
      safe_rebindRoute hput hsound' hmem (by rw [happroval]; nofun) (by rw [hingress']; exact hingress) hunchanged
      (fun _ _ => happroval) (hworkspace.trans hworkspace'.symm)
    rw [hpolicy, hingress'] at hrebind
    have hstep : Reconciled valid entry w (w.put pending) :=
      ⟨hput, hsound', fun other ho hne => World.mem_put_of_ne ho (hid ▸ hne), rfl⟩
    exact hrebind.mono fun _ w' h => hstep.trans h hid
  · rename_i hkept
    refine safe_rebindRoute hs hsound he hactive hingress hunchanged (fun hu hrequired => ?_) hworkspace
    refine absurd ?_ hkept
    rw [Bool.not_eq_false'] at hu
    simp [hu, ConfiguredIngress.approvalRequired, hrequired]

end Rebound

/-! ### Reconciliation of a workspace -/

omit [Platform] in
theorem deduplicateRoutes_spec : ∀ (entries kept : List StoredUrl), (kept.map (·.route.id)).Nodup →
    let routes := entries.foldl (fun kept entry =>
      if kept.any (·.route.id = entry.route.id) then kept.map fun k => if k.route.id = entry.route.id then entry else k
      else kept ++ [entry]) kept
    (routes.map (·.route.id)).Nodup ∧ ∀ entry ∈ routes, entry ∈ kept ∨ entry ∈ entries
  | [], _, hkept => ⟨hkept, fun _ h => .inl h⟩
  | entry :: entries, kept, hkept => by
    dsimp only [List.foldl_cons]
    split
    · have hids : (kept.map fun k => if k.route.id = entry.route.id then entry else k).map (·.route.id) =
          kept.map (·.route.id) := by
        rw [List.map_map]
        refine List.map_congr_left fun k _ => ?_
        by_cases hk : k.route.id = entry.route.id <;> simp [hk]
      obtain ⟨hnodup, hmem⟩ := deduplicateRoutes_spec entries _ (hids ▸ hkept)
      refine ⟨hnodup, fun other ho => (hmem other ho).elim (fun ho => ?_) fun ho => .inr (List.mem_cons_of_mem _ ho)⟩
      obtain ⟨k, hk, rfl⟩ := List.mem_map.mp ho
      by_cases he : k.route.id = entry.route.id
      · rw [if_pos he]
        exact .inr List.mem_cons_self
      · rw [if_neg he]
        exact .inl hk
    · rename_i hnew
      have hfresh : (kept ++ [entry]).map (·.route.id) = kept.map (·.route.id) ++ [entry.route.id] := by simp
      obtain ⟨hnodup, hmem⟩ := deduplicateRoutes_spec entries (kept ++ [entry]) (by
        rw [hfresh, List.nodup_append]
        refine ⟨hkept, by simp, ?_⟩
        rintro id hid _ hid' rfl
        rw [List.mem_singleton] at hid'
        obtain ⟨k, hk, rfl⟩ := List.mem_map.mp hid
        exact hnew (List.any_eq_true.mpr ⟨k, hk, decide_eq_true hid'⟩))
      refine ⟨hnodup, fun other ho => (hmem other ho).elim (fun ho => ?_) fun ho => .inr (List.mem_cons_of_mem _ ho)⟩
      rcases List.mem_append.mp ho with ho | ho
      · exact .inl ho
      · exact .inr (List.mem_singleton.mp ho ▸ List.mem_cons_self)

/-- Entries to reconcile one after another: each is stored, and written by its own reconciliation only. -/
structure Queued (w : World) (workspace : ControllerWorkspace) (entries : List StoredUrl) : Prop where
  stored : ∀ entry ∈ entries, entry ∈ w.files ∧ workspace.id = entry.workspaceId
  distinct : entries.Pairwise fun entry other => entry.id ≠ other.id

theorem queued_deduplicateRoutes (hs : Stored w) (workspace : ControllerWorkspace) :
    Queued w workspace (deduplicateRoutes (w.list workspace.id)) := by
  obtain ⟨hnodup, hmem⟩ := deduplicateRoutes_spec (w.list workspace.id) [] List.nodup_nil
  have hlisted : ∀ entry ∈ deduplicateRoutes (w.list workspace.id), entry ∈ w.files ∧ entry.workspaceId = workspace.id :=
    fun entry he => (w.mem_list workspace.id entry).mp ((hmem entry he).resolve_left nofun)
  refine ⟨fun entry he => ⟨(hlisted entry he).1, (hlisted entry he).2.symm⟩, ?_⟩
  refine List.Pairwise.imp_of_mem (fun he ho hne hid => hne ?_) (List.pairwise_map.mp hnodup)
  rw [hs.unique _ (hlisted _ he).1 _ (hlisted _ ho).1 hid]

omit [Platform] in
theorem Queued.tail {workspace : ControllerWorkspace} {entry : StoredUrl} {entries : List StoredUrl}
    (h : Queued w workspace (entry :: entries)) (hothers : ∀ other ∈ w.files, other.id ≠ entry.id → other ∈ w'.files) :
    Queued w' workspace entries := by
  obtain ⟨hne, hdistinct⟩ := List.pairwise_cons.mp h.distinct
  refine ⟨fun other ho => ?_, hdistinct⟩
  obtain ⟨hmem, hworkspace⟩ := h.stored other (List.mem_cons_of_mem _ ho)
  exact ⟨hothers other hmem (hne other ho).symm, hworkspace⟩

/-- What holds between two operations. -/
structure Sound (valid : Prop) (w : World) : Prop where
  stored : Stored w
  held : valid → Held w

theorem Reconciled.toSound {entry : StoredUrl} (h : Reconciled valid entry w w') : Sound valid w' :=
  ⟨h.stored, fun hv => (h.sound hv).1⟩

theorem safe_reconcileRoutes {workspace : ControllerWorkspace} : ∀ {entries : List StoredUrl} {w : World}, Stored w →
    (valid → Held w ∧ Unshared w) → Queued w workspace entries →
    Safe (Performs valid) Stored (reconcileRoutes workspace entries) (fun _ w' => Sound valid w') w
  | [], w, hs, hsound, _ => ⟨hs, fun hv => (hsound hv).1⟩
  | entry :: entries, w, hs, hsound, hqueued => by
    obtain ⟨he, hworkspace⟩ := hqueued.stored entry List.mem_cons_self
    refine safe_required hs (fun options hoptions => ?_) fun _ => ⟨hs, fun hv => (hsound hv).1⟩
    refine (safe_reconcileStoredRoute hs hsound he hoptions hworkspace).andThen (fun _ w' h => ?_) fun _ w' h => h.toSound
    exact (safe_reconcileRoutes h.stored h.sound (hqueued.tail h.others)).andThen (fun _ _ h => h) fun _ _ h => h

theorem safe_reconcileSafely {workspace : ControllerWorkspace} : ∀ {entries : List StoredUrl} {w : World}, Stored w →
    (valid → Held w ∧ Unshared w) → Queued w workspace entries →
    Safe (Performs valid) Stored (reconcileSafely workspace entries)
      (fun r w' => r = .ok () ∧ Stored w' ∧ (valid → Held w' ∧ Unshared w')) w
  | [], w, hs, hsound, _ => ⟨rfl, hs, hsound⟩
  | entry :: entries, w, hs, hsound, hqueued => by
    obtain ⟨he, hworkspace⟩ := hqueued.stored entry List.mem_cons_self
    refine Safe.andThen (P := fun r w' => r = .ok () ∧ Reconciled valid entry w w') ?_ ?_ ?_
    · refine Safe.orElse (P := fun _ w' => Reconciled valid entry w w') ?_ (fun _ _ h => ⟨rfl, h⟩) fun _ _ h => ⟨rfl, h⟩
      refine safe_fallible (fun _ => True) ?_ hs (fun _ _ => ?_) fun _ => .refl hs hsound
      · rintro a w' (⟨rfl, rfl⟩ | h)
        · exact .inl ⟨(), trivial, rfl, rfl⟩
        · exact .inr h
      · refine safe_required hs (fun options hoptions => ?_) fun _ => .refl hs hsound
        exact (safe_reconcileStoredRoute hs hsound he hoptions hworkspace).andThen (fun _ _ h => h) fun _ _ h => h
    · rintro _ w' ⟨-, h⟩
      exact safe_reconcileSafely h.stored h.sound (hqueued.tail h.others)
    · rintro message w' ⟨h, -⟩
      cases h

theorem safe_initializeWorkspaces : ∀ {workspaces : List ControllerWorkspace} {w : World}, Stored w →
    (valid → Held w ∧ Unshared w) →
    Safe (Performs valid) Stored (initializeWorkspaces workspaces) (fun _ w' => Sound valid w') w
  | [], w, hs, hsound => ⟨hs, fun hv => (hsound hv).1⟩
  | workspace :: workspaces, w, hs, hsound => by
    refine safe_list hs ?_ fun _ => ⟨hs, fun hv => (hsound hv).1⟩
    refine (safe_reconcileSafely hs hsound (queued_deduplicateRoutes hs workspace)).andThen ?_ ?_
    · rintro _ w' ⟨-, hs', hsound'⟩
      exact safe_initializeWorkspaces hs' hsound'
    · rintro message w' ⟨h, -⟩
      cases h

theorem safe_initializeUrls (h : Sound valid w) (hunshared : valid → Unshared w) :
    Safe (Performs valid) Stored initializeUrls (fun _ w' => Sound valid w') w :=
  safe_listWorkspaces h.stored (fun _ => safe_initializeWorkspaces h.stored fun hv => ⟨h.held hv, hunshared hv⟩) fun _ => h

theorem safe_listUrls (h : Sound valid w) (hunshared : valid → Unshared w) (workspace : ControllerWorkspace) :
    Safe (Performs valid) Stored (listUrls workspace) (fun _ w' => Sound valid w') w := by
  refine safe_list h.stored ?_ fun _ => h
  exact (safe_reconcileRoutes h.stored (fun hv => ⟨h.held hv, hunshared hv⟩)
    (queued_deduplicateRoutes h.stored workspace)).andThen (fun _ _ h => h) fun _ _ h => h

end Dim.ExternalUrls
