/-
The other operations of the plugin keep the same invariants: creation, deletion and discard, the decisions of the
host, and the removal of an ingress, where that closes all it serves.
-/
import DimProofs.ExternalUrls.Reconciliation

namespace Dim.ExternalUrls

open Effectful

variable [Platform] {valid : Prop} {w w' : World}

/-! ## Creation -/

/-- What an operation leaves: `ok` with its value, `failed` after a failure. -/
def Leaves {α : Type} (ok : α → World → Prop) (failed : World → Prop) : Except String α → World → Prop
  | .ok value, w => ok value w
  | .error _, w => failed w

section Create

variable {options : ExternalUrlIngressOptions} {workspace : ControllerWorkspace} {request : NormalizedRequest}

omit [Platform] in
/-- An entry of a new identity leaves the others. -/
theorem World.mem_put_of_fresh {entry other : StoredUrl} (h : other ∈ w.files)
    (hfresh : ∀ other ∈ w.files, other.id ≠ entry.id) :
    other ∈ (w.put entry).files := World.mem_put_of_ne h (hfresh other h)

theorem safe_createRoute (h : Sound valid w) (hingress : w.ingresses request.ingress = some options) :
    Safe (Performs valid) Stored (createRoute workspace { name := request.ingress, options } request)
      (fun _ w' => Sound valid w') w := by
  unfold createRoute
  refine safe_resolveTarget h.stored (fun upstream => h.stored.resolve _ _ _) (fun upstream _ => ?_) fun _ => h
  generalize hw₁ : w.resolve workspace.id request.target upstream = w₁
  have h₁ : Sound valid w₁ := hw₁ ▸ ⟨h.stored.resolve _ _ _, fun hv => (h.held hv).resolve _ _ _⟩
  have hresolved : (workspace.id, request.target, upstream) ∈ w₁.resolved := hw₁ ▸ List.mem_cons_self
  have hingress₁ : w₁.ingresses request.ingress = some options := hw₁ ▸ hingress
  clear hw₁
  refine safe_randomUUID (fun id => h₁.stored.draw id) fun id hfresh => ?_
  have h₂ : Sound valid (w₁.draw id) := ⟨h₁.stored.draw id, fun hv => (h₁.held hv).draw id⟩
  have hnew : ∀ other ∈ w₁.files, other.id ≠ id := fun other ho he => hfresh (he ▸ (h₁.stored.entries other ho).drawn)
  dsimp only
  generalize happroval : (if ConfiguredIngress.approvalRequired { name := request.ingress, options } = true
    then ExternalUrlApproval.pending else .notRequired) = approval
  -- the route is enabled at once only where the ingress requires no approval
  have henabled : options.approvalRequired = some true → approval.enabled = false ∧ approval ≠ .notRequired := by
    intro hrequired
    rw [if_pos (by simp [ConfiguredIngress.approvalRequired, hrequired])] at happroval
    subst happroval
    exact ⟨rfl, by simp⟩
  have hactive : approval ≠ .revoked := by
    rw [← happroval]
    split <;> simp
  generalize hclaim : (if approval = .notRequired then routeClaim workspace request else .identity id) = claim
  refine Safe.andThen (P := Leaves (fun provisioned w' => Claimed (w₁.draw id) w'
        (ConfiguredIngress.slots { name := request.ingress, options } provisioned.2) claim upstream approval.enabled
          provisioned.1 ∧
        Minted { name := request.ingress, options } workspace request (if request.subdomain.isNone then none else some id)
          claim provisioned.2)
    (Sound valid)) ?_ ?_ fun _ _ h => h
  · refine safe_provision (fun w' hf => h₂.stored.frame hf) (fun _ => h₂) ?_ ?_
    · exact fun hv slots w' acquired _ hclaimed => ⟨h₂.stored.frame hclaimed.toFrame, fun h => absurd h hv⟩
    · exact fun acquired route w' hclaimed hminted => ⟨hclaimed, hminted⟩
  rintro ⟨acquired, route⟩ w₃ ⟨hclaimed, hminted⟩
  have hframe := hclaimed.toFrame
  have hs₃ := h₂.stored.frame hframe
  have hgiveBack : ∀ failure : String, Safe (Performs valid) Stored
      (ConfiguredIngress.giveBack { name := request.ingress, options } acquired route failure : Action StoredUrl)
      (fun _ w' => Sound valid w') w₃ := by
    intro failure
    refine safe_giveBack hminted.ingressId (fun w' hf => hs₃.frame hf) (fun _ w' hr => ?_) fun hacquired => ?_
    · exact ⟨hs₃.frame hr.toFrame, fun hv => (h₂.held hv).giveBack hclaimed hr⟩
    · subst hacquired
      refine ⟨hs₃, fun hv => (h₂.held hv).renewed hclaimed fun slot other upstream' enabled' hback => ?_⟩
      -- the places were held with the text of an equal request
      have hother := (h₂.stored.entries other hback.stored).claim
      rw [hback.claim, ← hclaim] at hother
      split at hother
      · rename_i hnone
        rcases hother with hother | hother
        · cases hother
        · obtain ⟨hworkspace, hname, -, htarget⟩ := Claim.request.inj (Option.some.inj hother)
          refine ⟨by rw [← hworkspace, ← htarget]; exact hresolved, fun _ options' hoptions' hrequired => ?_⟩
          rw [← hname] at hoptions'
          have hsame : options' = options := Option.some.inj (hoptions'.symm.trans hingress₁)
          exact absurd hnone (henabled (hsame ▸ hrequired)).2
      · rcases hother with hother | hother
        · exact absurd (Claim.identity.inj (Option.some.inj hother)).symm (hnew other hback.stored)
        · cases hother
  dsimp only
  refine Safe.orElse (P := Leaves (fun _ => Sound valid) (· = w₃)) ?_ (fun _ _ h => h) fun failure w' h =>
    h ▸ hgiveBack failure
  unfold storeCreated
  split
  · exact rfl
  rename_i url hurl
  split
  · exact rfl
  rename_i hpermalink
  dsimp only
  generalize hentry : (StoredUrl.mk id workspace.name workspace.id request.ingress request.subdomain request.target
    request.path
    route url route.permalink approval (some (ConfiguredIngress.policyRevision { name := request.ingress, options }))) =
      entry
  have hstored : Entry w₃.drawn entry := by
    subst hentry
    refine ⟨hframe.drawn List.mem_cons_self, ⟨claim, workspace, options, ?_, rfl, rfl, hminted⟩, ?_, ?_⟩
    · rw [← hclaim]
      split
      · exact .inr rfl
      · exact .inl rfl
    · intro hsubdomain
      have hsome : route.permalink.isSome = true := by
        by_contra hnone
        exact hpermalink ⟨hsubdomain, Option.not_isSome_iff_eq_none.mp hnone⟩
      exact ⟨hsome, hminted.permalink ▸ hsome⟩
    · rintro policy hpolicy hrequired
      cases hpolicy
      exact (henabled (by simpa [ConfiguredIngress.policyRevision, ingressPolicyRevision] using hrequired)).2
  obtain ⟨hid, hworkspace, hname, htarget, happroval', hroute, hpolicy⟩ : entry.id = id ∧ entry.workspaceId = workspace.id ∧
      entry.ingress = request.ingress ∧ entry.target = request.target ∧ entry.approval = approval ∧ entry.route = route ∧
      entry.policyRevision = some (ingressPolicyRevision request.ingress options) := by
    subst hentry
    exact ⟨rfl, rfl, rfl, rfl, rfl, rfl, rfl⟩
  clear hentry
  have hfresh' : ∀ other ∈ w₃.files, other.id ≠ entry.id := fun other ho => hid ▸ hnew other (hframe.files ▸ ho)
  have hput : Stored (w₃.put entry) := hs₃.put hstored fun other ho he => absurd he (hfresh' other ho)
  refine safe_put hs₃ hput ?_ fun _ => rfl
  refine ⟨hput, fun hv slot held hheld => ?_⟩
  have hheld : w₃.holds slot = some held := by
    rw [← hheld]
    cases slot <;> rfl
  have hconfigured : (w₃.put entry).ingresses entry.ingress = some options := by
    rw [hname]
    exact (congrFun hframe.ingresses _).trans hingress₁
  rw [hclaimed.holds] at hheld
  split at hheld
  · rename_i hslot
    cases hheld
    refine ⟨claim, _, entry, rfl, (w₃.mem_put entry entry).mpr (.inl rfl), ?_, ?_, ?_, ?_, options, hconfigured, ?_, ?_⟩
    · rw [happroval']; exact hactive
    · rw [hroute]; exact hminted.ingressId
    · rw [slots_of_ingress hconfigured, hroute, hname]
      exact hslot
    · rw [hworkspace, htarget]
      exact hframe.resolved ▸ hresolved
    · rw [hpolicy, hname]
    · intro hon hrequired
      rw [(henabled hrequired).1] at hon
      cases hon
  · obtain ⟨claim', enabled', other, hclaims, hback⟩ := h₂.held hv slot held hheld
    refine ⟨claim', enabled', other, hclaims, (hback.frame hframe).keep ?_ (fun _ h => h) rfl⟩
    exact World.mem_put_of_fresh (hframe.files ▸ hback.stored) hfresh'

omit [Platform] in
theorem validateRequest_ingress {input : CreateRequest} {scheme : Scheme} (h : validateRequest input scheme = .ok request) :
    request.ingress = input.ingress := by
  unfold validateRequest at h
  dsimp only at h
  split at h
  · cases h
  split at h
  · cases h
  split at h
  · cases h
  cases hsubdomain : input.subdomain.forM validateSubdomain with
  | error message => rw [hsubdomain] at h; cases h
  | ok _ =>
    rw [hsubdomain] at h
    simp only [bind, Except.bind] at h
    split at h
    · cases h
    split at h
    · cases h
    split at h
    · cases h
    split at h
    · cases h
    cases h
    rfl

omit [Platform] in
theorem withSubdomain_ingress (input : CreateRequest) (scheme : Scheme) (name : String) (entries : List StoredUrl) :
    (withSubdomain input scheme name entries).ingress = input.ingress := by
  unfold withSubdomain
  split <;> rfl

theorem safe_createUrl (h : Sound valid w) (hunshared : valid → Unshared w) (workspace : ControllerWorkspace)
    (input : CreateRequest) :
    Safe (Performs valid) Stored (createUrl workspace input) (fun _ w' => Sound valid w') w := by
  unfold createUrl
  split
  · exact h
  refine safe_required h.stored (fun options hoptions => ?_) fun _ => h
  refine safe_list h.stored ?_ fun _ => h
  cases hrequest : validateRequest (withSubdomain input options.scheme workspace.name (w.list workspace.id))
    options.scheme with
  | error message => exact h
  | ok request =>
    have hname : request.ingress = input.ingress := (validateRequest_ingress hrequest).trans (withSubdomain_ingress _ _ _ _)
    rw [← hname] at hoptions ⊢
    have hbind : ∀ next : NormalizedRequest → Action StoredUrl, ofExcept (.ok request) >>= next = next request :=
      fun _ => rfl
    rw [hbind]
    split
    · rename_i existing hexisting
      obtain ⟨hmem, hworkspace⟩ := (w.mem_list workspace.id existing).mp (List.mem_of_find?_eq_some hexisting)
      have hsame := List.find?_some hexisting
      simp only [Bool.and_eq_true, decide_eq_true_eq] at hsame
      have hingress : existing.ingress = request.ingress := congrArg NormalizedRequest.ingress hsame.2
      rw [← hingress] at hoptions ⊢
      exact (safe_reconcileStoredRoute h.stored (fun hv => ⟨h.held hv, hunshared hv⟩) hmem hoptions hworkspace.symm).mono
        fun _ _ hr => hr.toSound
    · exact safe_createRoute h hoptions

end Create

/-! ## Removal -/

section Remove

variable {entry : StoredUrl} {options : ExternalUrlIngressOptions}

/-- The approval of an entry is written over it. -/
theorem Stored.putApproval (hs : Stored w) (he : entry ∈ w.files) (approval : ExternalUrlApproval)
    (happroval : approval ≠ .notRequired) : Stored (w.put { entry with approval }) :=
  hs.put_of_mem he ((hs.entries entry he).withApproval happroval) rfl rfl

/-- An entry is revoked and its places are released. -/
theorem safe_revokeEntry (h : Sound valid w) (he : entry ∈ w.files) (hingress : w.ingresses entry.ingress = some options)
    {α : Type} {f : Unit → Action α} {Q : Except String α → World → Prop}
    (hfail : ∀ message w', Sound valid w' → Q (.error message) w')
    (hok : ∀ w', Sound valid w' → (∀ other ∈ w.files, other.id ≠ entry.id → other ∈ w'.files) →
      ({ entry with approval := .revoked } : StoredUrl) ∈ w'.files → w'.ingresses = w.ingresses →
        Safe (Performs valid) Stored (f ()) Q w') :
    Safe (Performs valid) Stored (do
      ask (.put { entry with approval := .revoked })
      ConfiguredIngress.revoke { name := entry.ingress, options } entry.route >>= f) Q w := by
  have hput := h.stored.putApproval he .revoked nofun
  obtain ⟨claim, hclaim⟩ : ∃ claim, entry.route.ingressId = some claim := by
    rcases (h.stored.entries entry he).claim with hc | hc
    · exact ⟨_, hc⟩
    · exact ⟨_, hc⟩
  refine safe_put h.stored hput ?_ fun message => hfail message w h
  have hslots := slots_of_ingress hingress
  refine Safe.andThen (P := fun r w' => r = .ok () ∧
    Released (w.put { entry with approval := .revoked }) w' (w.slots entry) claim) ?_ ?_ ?_
  · refine safe_revoke hclaim (fun w' hf => hput.frame hf) fun w' hr => ⟨rfl, ?_⟩
    rw [hslots]
    exact hr
  · rintro _ w' ⟨-, hr⟩
    have hothers : ∀ other ∈ w.files, other.id ≠ entry.id → other ∈ (w.put { entry with approval := .revoked }).files :=
      fun other ho hne => World.mem_put_of_ne ho hne
    refine hok w' ⟨hput.frame hr.toFrame, fun hv => ?_⟩ (fun other ho hne => ?_) ?_ hr.ingresses
    · exact (h.held hv).dropped h.stored he hclaim hothers rfl rfl (fun slot => by cases slot <;> rfl) hr
    · exact hr.files ▸ hothers other ho hne
    · exact hr.files ▸ (w.mem_put _ _).mpr (.inl rfl)
  · rintro message w' ⟨h, -⟩
    cases h

/-- The removal of an entry that is revoked takes nothing from what is served. -/
theorem Sound.remove (h : Sound valid w) (hrevoked : entry.approval = .revoked) (he : entry ∈ w.files) :
    Sound valid (w.remove entry) := by
  refine ⟨h.stored.remove entry, fun hv slot route hroute => ?_⟩
  have hroute : w.holds slot = some route := by
    rw [← hroute]
    cases slot <;> rfl
  obtain ⟨claim, enabled, other, hclaims, hback⟩ := h.held hv slot route hroute
  refine ⟨claim, enabled, other, hclaims, hback.keep ?_ (fun _ h => h) rfl⟩
  refine World.mem_remove_of_ne hback.stored fun hid => hback.active ?_
  rw [h.stored.unique other hback.stored entry he hid, hrevoked]

theorem safe_deleteUrl (h : Sound valid w) (workspace : ControllerWorkspace) (id : String) :
    Safe (Performs valid) Stored (deleteUrl workspace id) (fun _ w' => Sound valid w') w := by
  refine safe_list h.stored ?_ fun _ => h
  split
  · exact h
  rename_i entry hfound
  obtain ⟨he, -⟩ := (w.mem_list workspace.id entry).mp (List.mem_of_find?_eq_some hfound)
  refine safe_required h.stored (fun options hoptions => ?_) fun _ => h
  refine safe_revokeEntry h he hoptions (fun _ _ h => h) fun w' h' _ hmem _ => ?_
  exact safe_remove h'.stored (h'.stored.remove _) (h'.remove rfl hmem) fun _ => h'

theorem safe_removeRoutes : ∀ {entries : List StoredUrl} {w : World}, Sound valid w →
    (∀ entry ∈ entries, entry ∈ w.files) → (entries.Pairwise fun entry other => entry.id ≠ other.id) →
    Safe (Performs valid) Stored (removeRoutes entries) (fun _ w' => Sound valid w') w
  | [], _, h, _, _ => h
  | entry :: entries, w, h, hmem, hdistinct => by
    have he := hmem entry List.mem_cons_self
    obtain ⟨hne, hdistinct⟩ := List.pairwise_cons.mp hdistinct
    have hrest : ∀ {w' : World}, Sound valid w' → (∀ other ∈ w.files, other.id ≠ entry.id → other ∈ w'.files) →
        ({ entry with approval := .revoked } : StoredUrl) ∈ w'.files →
        Safe (Performs valid) Stored (ask (.remove { entry with approval := .revoked }) >>= fun _ => removeRoutes entries)
          (fun _ w' => Sound valid w') w' := by
      intro w' h' hothers hrevoked
      refine safe_remove h'.stored (h'.stored.remove _) ?_ fun _ => h'
      refine safe_removeRoutes (h'.remove rfl hrevoked) (fun other ho => ?_) hdistinct
      have hid := (hne other ho).symm
      exact World.mem_remove_of_ne (hothers other (hmem other (List.mem_cons_of_mem _ ho)) hid) hid
    refine safe_ingress h.stored ?_
    cases hingress : w.ingresses entry.ingress with
    | some options =>
      refine safe_revokeEntry h he hingress (fun _ _ h => h) fun w' h' hothers hrevoked _ => ?_
      exact hrest h' hothers hrevoked
    | none =>
      -- without its ingress an entry is served nowhere
      have hput := h.stored.putApproval he .revoked nofun
      refine safe_put h.stored hput (hrest ⟨hput, fun hv => (h.held hv).put ?_⟩
        (fun other ho hid => World.mem_put_of_ne ho hid) ((w.mem_put _ _).mpr (.inl rfl))) fun _ => h
      intro slot upstream claim enabled other hback hid
      obtain ⟨options, hoptions, -⟩ := hback.policy
      rw [h.stored.unique other hback.stored entry he hid, hingress] at hoptions
      cases hoptions

theorem safe_removeWorkspaceRoutes (h : Sound valid w) (workspaceId : String) :
    Safe (Performs valid) Stored (removeWorkspaceRoutes workspaceId) (fun _ w' => Sound valid w') w := by
  refine safe_list h.stored ?_ fun _ => h
  exact safe_removeRoutes h (fun entry he => ((w.mem_list workspaceId entry).mp he).1) (h.stored.distinct_list workspaceId)

end Remove

/-! ## The requests of the host -/

section Transition

variable {entry : StoredUrl} {options : ExternalUrlIngressOptions}

theorem safe_currentIn {id : String} {I : World → Prop} {α : Type} {f : Option StoredUrl → Action α}
    {Q : Except String α → World → Prop} (hI : I w) (hnone : Safe (Performs valid) I (f none) Q w)
    (hsome : ∀ entry ∈ w.files, entry.id = id → Safe (Performs valid) I (f (some entry)) Q w)
    (hfail : ∀ message, Q (.error message) w) (workspaces : List ControllerWorkspace) :
    Safe (Performs valid) I (currentIn id workspaces >>= f) Q w := by
  -- the search ends where it began, with an entry of the identity or with none
  have hsearch : Safe (Performs valid) I (currentIn id workspaces)
      (fun r w' => w' = w ∧ ∀ entry, r = .ok (some entry) → entry ∈ w.files ∧ entry.id = id) w := by
    induction workspaces with
    | nil => exact ⟨rfl, fun entry h => by cases h⟩
    | cons workspace workspaces ih =>
      unfold currentIn
      refine safe_list hI ?_ fun message => ⟨rfl, fun entry h => by cases h⟩
      cases hfound : (w.list workspace.id).find? (·.id = id) with
      | none => exact ih
      | some entry =>
        refine ⟨rfl, fun other ho => ?_⟩
        cases ho
        have hid := List.find?_some hfound
        exact ⟨((w.mem_list _ _).mp (List.mem_of_find?_eq_some hfound)).1, of_decide_eq_true hid⟩
  refine hsearch.andThen ?_ ?_
  · rintro (_ | entry) w' ⟨rfl, hfound⟩
    · exact hnone
    · exact hsome entry (hfound entry rfl).1 (hfound entry rfl).2
  · rintro message w' ⟨rfl, -⟩
    exact hfail message

theorem safe_transitionRouteApproval {id : String} {transition : StoredUrl → ConfiguredIngress → Action StoredUrl}
    {I : World → Prop} {Q : Except String StoredUrl → World → Prop} (hI : I w) (hfail : ∀ message, Q (.error message) w)
    (htransition : ∀ entry ∈ w.files, entry.id = id → ∀ options, w.ingresses entry.ingress = some options →
      Safe (Performs valid) I (transition entry { name := entry.ingress, options }) Q w) :
    Safe (Performs valid) I (transitionRouteApproval id transition) Q w := by
  have hcurrent : ∀ f : Option StoredUrl → Action StoredUrl, Safe (Performs valid) I (f none) Q w →
      (∀ entry ∈ w.files, entry.id = id → Safe (Performs valid) I (f (some entry)) Q w) →
      Safe (Performs valid) I (current id >>= f) Q w := by
    intro f hnone hsome
    have hlist : Safe (Performs valid) I (ask .listWorkspaces >>= fun workspaces => currentIn id workspaces >>= f) Q w :=
      safe_listWorkspaces hI (fun workspaces => safe_currentIn hI hnone hsome hfail workspaces) hfail
    rw [safe_bind] at hlist
    unfold current
    rw [safe_bind, safe_bind]
    refine hlist.mono ?_
    rintro (message | workspaces) w' hthen
    · exact hthen
    · exact (safe_bind _ _ _ _).mp hthen
  refine hcurrent _ (hfail _) fun entry he hid => ?_
  exact safe_required hI (fun options hoptions => htransition entry he hid options hoptions) hfail

theorem safe_approveRoute (h : Sound valid w) (he : entry ∈ w.files) (hingress : w.ingresses entry.ingress = some options) :
    Safe (Performs valid) Stored (approveRoute entry { name := entry.ingress, options }) (fun _ w' => Sound valid w') w := by
  unfold approveRoute
  split
  · exact h
  rename_i hpending
  split
  · exact h
  rename_i hpolicy
  rw [not_not] at hpending hpolicy
  obtain ⟨claim, hclaim⟩ : ∃ claim, entry.route.ingressId = some claim := by
    rcases (h.stored.entries entry he).claim with hc | hc
    · exact ⟨_, hc⟩
    · exact ⟨_, hc⟩
  have hslots := slots_of_ingress hingress
  refine Safe.andThen (P := fun r w' => match r with
    | .ok _ => Switched w w' (w.slots entry) claim false
    | .error _ => Sound valid w') ?_ ?_ fun _ _ h => h
  · refine safe_setApproval hclaim (fun w' hf => h.stored.frame hf) (fun w' hs => ?_) fun _ => h
    exact hslots ▸ hs
  intro _ w₁ hs₁
  have h₁ : Sound valid w₁ := ⟨h.stored.frame hs₁.toFrame, fun hv => (h.held hv).switched hs₁
    fun slot _ upstream enabled' other hback => ⟨other, hback.disabled⟩⟩
  have he₁ : entry ∈ w₁.files := hs₁.files ▸ he
  have hingress₁ : w₁.ingresses entry.ingress = some options := (congrFun hs₁.ingresses _).trans hingress
  -- an approved entry backs what the pending one did
  have hput : Stored (w₁.put { entry with approval := .approved }) := h₁.stored.putApproval he₁ .approved nofun
  have h₂ : Sound valid (w₁.put { entry with approval := .approved }) := by
    refine ⟨hput, fun hv => (h₁.held hv).put fun slot upstream claim enabled other hback hid => ?_⟩
    have hother := h₁.stored.unique other hback.stored entry he₁ hid
    subst hother
    obtain ⟨options', hoptions', hcurrent, -⟩ := hback.policy
    exact ⟨(w₁.mem_put _ _).mpr (.inl rfl), nofun, hback.claim, hback.slot, hback.target, options', hoptions', hcurrent,
      fun _ _ => rfl⟩
  refine safe_put h₁.stored hput ?_ fun _ => h₁
  refine Safe.andThen (P := fun _ w' => Sound valid w') ?_ (fun _ _ h => h) fun _ _ h => h
  refine safe_setApproval hclaim (fun w' hf => hput.frame hf) (fun w₃ hs₃ => ⟨hput.frame hs₃.toFrame, fun hv => ?_⟩)
    fun _ => h₂
  refine (h₂.held hv).switched hs₃ fun slot hslot upstream enabled' other hback => ⟨{ entry with approval := .approved }, ?_⟩
  -- whoever held the place has the claim, and so the target, of the entry
  have hmem : ({ entry with approval := .approved } : StoredUrl) ∈ (w₁.put { entry with approval := .approved }).files :=
    (w₁.mem_put _ _).mpr (.inl rfl)
  obtain ⟨hworkspace, -, htarget⟩ := hput.of_claim hmem hback.stored (hback.claim.trans hclaim.symm)
  refine ⟨hmem, nofun, hclaim, ?_, ?_, options, hingress₁, hpolicy, fun _ _ => rfl⟩
  · have hslots₂ : (w₁.put { entry with approval := .approved }).slots { entry with approval := .approved } =
        ConfiguredIngress.slots { name := entry.ingress, options } entry.route := slots_of_ingress hingress₁
    rw [hslots₂]
    exact hslot
  · have htarget' := hback.target
    rw [hworkspace, htarget] at htarget'
    exact htarget'

theorem safe_revokeRoute (h : Sound valid w) (he : entry ∈ w.files) (hingress : w.ingresses entry.ingress = some options) :
    Safe (Performs valid) Stored (revokeRoute entry { name := entry.ingress, options }) (fun _ w' => Sound valid w') w := by
  unfold revokeRoute
  split
  · exact h
  · exact safe_revokeEntry h he hingress (fun _ _ h => h) fun w' h' _ _ _ => h'

end Transition

/-! ### The removal of an ingress -/

/-- No place is held for a route of the ingress, unless the ingress closes it. -/
def Unserved (w : World) (name : String) : Prop :=
  ∀ options, w.ingresses name = some options → options.scheme ≠ .tcp → ∀ entry ∈ w.files, entry.ingress = name →
    ∀ authority ∈ routeAuthorities entry.route, ∀ route, w.routes authority = some route →
      ∀ claim, entry.route.ingressId = some claim → route.has claim = false

omit [Platform] in
theorem holds_closeListener (w : World) (ingress : ConfiguredIngress) (slot : Slot) :
    (w.closeListener ingress).holds slot =
      if ingress.options.scheme = .tcp ∧ slot = .port ingress.name then none else w.holds slot := by
  unfold World.closeListener
  split
  · rename_i hscheme
    rw [holds_setListener]
    simp [hscheme]
  · rename_i hscheme
    simp [hscheme]

/-- What a closed ingress served is served no longer. -/
theorem Sound.close (h : Sound valid w) {name : String} {options : ExternalUrlIngressOptions}
    (hingress : w.ingresses name = some options)
    (hunserved : valid → Unserved w name) : Sound valid ((w.closeListener { name, options }).deleteIngress name) := by
  have hfiles : ((w.closeListener { name, options }).deleteIngress name).files = w.files := by
    unfold World.closeListener
    split <;> rfl
  have hresolved : ((w.closeListener { name, options }).deleteIngress name).resolved = w.resolved := by
    unfold World.closeListener
    split <;> rfl
  have hingresses : ((w.closeListener { name, options }).deleteIngress name).ingresses =
      Function.update w.ingresses name none := by
    unfold World.closeListener
    split <;> rfl
  have hdrawn : w.drawn ⊆ ((w.closeListener { name, options }).deleteIngress name).drawn := by
    unfold World.closeListener
    split <;> exact fun _ h => h
  refine ⟨h.stored.of_sublist (hfiles ▸ List.Sublist.refl _) hdrawn, fun hv slot route hroute => ?_⟩
  have hheld : (w.closeListener { name, options }).holds slot = some route := by
    rw [← hroute]
    cases slot <;> rfl
  rw [holds_closeListener] at hheld
  split at hheld
  · cases hheld
  rename_i hopen
  obtain ⟨claim, enabled, entry, hclaims, hback⟩ := h.held hv slot route hheld
  have hne : entry.ingress ≠ name := by
    rintro rfl
    have hslot := hback.slot
    rw [slots_of_ingress hingress] at hslot
    unfold ConfiguredIngress.slots at hslot
    split at hslot
    · rename_i hscheme
      exact hopen ⟨hscheme, List.mem_singleton.mp hslot⟩
    · rename_i hscheme
      obtain ⟨authority, hauthority, rfl⟩ := List.mem_map.mp hslot
      have hhas :=
        hunserved hv options hingress hscheme entry hback.stored rfl authority hauthority route hheld claim hback.claim
      simp [RegisteredRoute.has, hclaims] at hhas
  refine ⟨claim, enabled, entry, hclaims, hback.keep (hfiles ▸ hback.stored) (fun _ hr => hresolved ▸ hr) ?_⟩
  rw [hingresses, Function.update_of_ne hne]

/-- The entries of an ingress that is not configured are served nowhere. -/
theorem Sound.removeIngress (h : Sound valid w) {name : String} (hnone : w.ingresses name = none) (kept : StoredUrl → Bool) :
    Sound valid (w.removeIngress name kept) := by
  refine ⟨h.stored.removeIngress name kept, fun hv slot route hroute => ?_⟩
  have hroute : w.holds slot = some route := by
    rw [← hroute]
    cases slot <;> rfl
  obtain ⟨claim, enabled, entry, hclaims, hback⟩ := h.held hv slot route hroute
  obtain ⟨options, hoptions, -⟩ := hback.policy
  refine ⟨claim, enabled, entry, hclaims, hback.keep (List.mem_filter.mpr ⟨hback.stored, ?_⟩) (fun _ h => h) rfl⟩
  have hne : entry.ingress ≠ name := by
    rintro rfl
    rw [hnone] at hoptions
    cases hoptions
  simp [hne]

theorem safe_still {α : Type} {c : Call} {f : c.Value → Action α} {Q : Except String α → World → Prop} (hs : Stored w)
    (hc : ∀ a w', Performs valid c w a w' → w' = w) (hok : ∀ value, Safe (Performs valid) Stored (f value) Q w)
    (hfail : ∀ message, Q (.error message) w) : Safe (Performs valid) Stored (ask c >>= f) Q w := by
  refine safe_askThen fun a w' hp => ?_
  obtain rfl := hc a w' hp
  cases a with
  | ok value => exact ⟨hs, hok value⟩
  | error message => exact ⟨hs, hfail message⟩

theorem safe_ingressRemove (h : Sound valid w) (name : String) (hunserved : valid → Unserved w name) :
    Safe (Performs valid) Stored (ingressRemove name) (fun _ w' => Sound valid w') w := by
  have hstill : ∀ {α : Type} {a : Except String α} {w w' : World} {done : Prop}, Fallible w a w' (done ∧ w' = w) → w' = w :=
    fun hp => hp.elim (·.2) (·.2)
  -- the files are removed after the ingress
  have hfiles : ∀ {w : World}, Sound valid w → w.ingresses name = none → Safe (Performs valid) Stored
      (ask (.removeIngress name) >>= fun _ => ask .writeExternalUrlConfig) (fun _ w' => Sound valid w') w := by
    intro w h hnone
    refine safe_askThen ?_
    rintro a w' (⟨rfl, rfl⟩ | ⟨⟨message, rfl⟩, kept, rfl⟩)
    · refine ⟨(h.removeIngress hnone _).stored, safe_ask fun a w' hp => ?_⟩
      rw [hstill hp]
      exact ⟨(h.removeIngress hnone _).stored, h.removeIngress hnone _⟩
    · exact ⟨(h.removeIngress hnone kept).stored, h.removeIngress hnone kept⟩
  unfold ingressRemove
  refine safe_still h.stored (fun a w' hp => hstill hp) (fun configured => ?_) fun _ => h
  split
  · refine safe_still h.stored (fun a w' hp => hstill hp) (fun _ => ?_) fun _ => h
    refine safe_ingress h.stored ?_
    cases hingress : w.ingresses name with
    | none => exact hfiles h hingress
    | some options =>
      have hclose := h.close hingress hunserved
      have hclosed : (w.closeListener { name, options }).files = w.files ∧
          (w.closeListener { name, options }).drawn = w.drawn := by
        unfold World.closeListener
        split <;> exact ⟨rfl, rfl⟩
      refine Safe.andThen (P := fun r w' => r = .ok () ∧
        w' = (w.closeListener { name, options }).deleteIngress name) ?_ ?_ ?_
      · refine safe_askThen ?_
        rintro a w' ⟨rfl, rfl⟩
        refine ⟨h.stored.of_sublist (hclosed.1 ▸ List.Sublist.refl _) fun _ h => hclosed.2 ▸ h, safe_ask ?_⟩
        rintro a w' ⟨rfl, rfl⟩
        exact ⟨hclose.stored, rfl, rfl⟩
      · rintro _ w' ⟨-, rfl⟩
        exact hfiles hclose (Function.update_self _ _ _)
      · rintro message w' ⟨h, -⟩
        cases h
  · exact h

end Dim.ExternalUrls
