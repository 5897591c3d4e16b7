/-
The routes of the plugin are independent of each other where their claims differ: the revocation, the deletion and
the reconciliation of a route, and a request for another, leave every other route stored as it is, with its places,
its target and its switch. Where claims are shared they are not: two routes of equal requests but for the path own
their common authority together, and the deletion of one takes it from the other.
-/
import DimProofs.ExternalUrls.Exposure

namespace Dim.ExternalUrls

open Effectful Transition

section

variable [Platform] {valid : Prop} {w w' w'' : World}

/-! ## What a route keeps -/

/-- A claim keeps every place it has, with its target and its switch. -/
def Retained (claim : Claim) (w w' : World) : Prop :=
  ∀ slot route enabled, w.holds slot = some route → (claim, enabled) ∈ route.claims →
    ∃ route', w'.holds slot = some route' ∧ route'.upstream = route.upstream ∧ (claim, enabled) ∈ route'.claims

/-- A stored route is as it was: its entry, its ingress, and the places that its claim has. -/
structure Undisturbed (w w' : World) (entry : StoredUrl) : Prop where
  stored : entry ∈ w'.files
  ingresses : w'.ingresses = w.ingresses
  retained : ∀ claim, entry.route.ingressId = some claim → Retained claim w w'

section Retained

omit [Platform]

variable {claim other : Claim} {slots : List Slot} {upstream : ResolvedWorkspaceTarget} {enabled acquired : Bool}
  {entry : StoredUrl}

theorem Retained.trans (h : Retained claim w w') (h' : Retained claim w' w'') : Retained claim w w'' := by
  intro slot route enabled hroute hclaim
  obtain ⟨route', hroute', hupstream', hclaim'⟩ := h slot route enabled hroute hclaim
  obtain ⟨route'', hroute'', hupstream'', hclaim''⟩ := h' slot route' enabled hroute' hclaim'
  exact ⟨route'', hroute'', hupstream''.trans hupstream', hclaim''⟩

theorem Retained.of_holds (h : ∀ slot, w'.holds slot = w.holds slot) : Retained claim w w' :=
  fun slot route _ hroute hclaim => ⟨route, (h slot).trans hroute, rfl, hclaim⟩

/-- A claim is made where no other claim is. -/
theorem Claimed.retained (h : Claimed w w' slots other upstream enabled acquired) (hne : claim ≠ other) :
    Retained claim w w' := by
  intro slot route switch hroute hclaim
  by_cases hslot : slot ∈ slots
  · obtain ⟨_, hown⟩ := h.own slot hslot route hroute
    rw [hown, List.mem_singleton, Prod.mk.injEq] at hclaim
    exact absurd hclaim.1 hne
  · exact ⟨route, by rw [h.holds, if_neg hslot, hroute], rfl, hclaim⟩

/-- A claim is released alone. -/
theorem Released.retained (h : Released w w' slots other) (hne : claim ≠ other) : Retained claim w w' := by
  intro slot route switch hroute hclaim
  by_cases hslot : slot ∈ slots
  · have hkept : (claim, switch) ∈ route.claims.filter fun c => c.1 ≠ other :=
      List.mem_filter.mpr ⟨hclaim, by simpa using hne⟩
    refine ⟨{ route with claims := route.claims.filter fun c => c.1 ≠ other }, ?_, rfl, hkept⟩
    rw [h.holds, if_pos hslot, hroute, Option.bind_some, RegisteredRoute.without]
    exact if_neg (List.ne_nil_of_mem hkept)
  · exact ⟨route, by rw [h.holds, if_neg hslot, hroute], rfl, hclaim⟩

namespace Undisturbed

theorem refl (he : entry ∈ w.files) : Undisturbed w w entry := ⟨he, rfl, fun _ _ => .of_holds fun _ => rfl⟩

theorem trans (h : Undisturbed w w' entry) (h' : Undisturbed w' w'' entry) : Undisturbed w w'' entry :=
  ⟨h'.stored, h'.ingresses.trans h.ingresses, fun claim hclaim => (h.retained claim hclaim).trans (h'.retained claim hclaim)⟩

theorem of_frame (he : entry ∈ w.files) (hf : Frame w w')
    (h : ∀ claim, entry.route.ingressId = some claim → Retained claim w w') :
    Undisturbed w w' entry := ⟨hf.files ▸ he, hf.ingresses, h⟩

theorem put {other : StoredUrl} (he : entry ∈ w.files) (hne : other.id ≠ entry.id) : Undisturbed w (w.put other) entry :=
  ⟨World.mem_put_of_ne he hne.symm, rfl, fun _ _ => .of_holds fun slot => by cases slot <;> rfl⟩

theorem remove {other : StoredUrl} (he : entry ∈ w.files) (hne : other.id ≠ entry.id) :
    Undisturbed w (w.remove other) entry :=
  ⟨World.mem_remove_of_ne he hne.symm, rfl, fun _ _ => .of_holds fun slot => by cases slot <;> rfl⟩

theorem resolve (he : entry ∈ w.files) (workspaceId : String) (target : WorkspaceTarget)
    (upstream : ResolvedWorkspaceTarget) : Undisturbed w (w.resolve workspaceId target upstream) entry :=
  ⟨he, rfl, fun _ _ => .of_holds fun slot => by cases slot <;> rfl⟩

theorem draw (he : entry ∈ w.files) (id : String) : Undisturbed w (w.draw id) entry :=
  ⟨he, rfl, fun _ _ => .of_holds fun slot => by cases slot <;> rfl⟩

theorem claimed (he : entry ∈ w.files) (hne : entry.route.ingressId ≠ some other)
    (h : Claimed w w' slots other upstream enabled acquired) : Undisturbed w w' entry :=
  of_frame he h.toFrame fun _ hclaim => h.retained fun heq => hne (heq ▸ hclaim)

theorem released (he : entry ∈ w.files) (hne : entry.route.ingressId ≠ some other) (h : Released w w' slots other) :
    Undisturbed w w' entry :=
  of_frame he h.toFrame fun _ hclaim => h.retained fun heq => hne (heq ▸ hclaim)

end Undisturbed

end Retained

/-! ## What is done for a route leaves the others -/

/-- Nothing is asked of the world within an operation. -/
def Anywhere (_ : World) : Prop := True

section Steps

variable {entry route : StoredUrl} {options : ExternalUrlIngressOptions} {ingress : ConfiguredIngress}
  {workspace : ControllerWorkspace} {claim : Claim}

/-- A provision that fails after its claim has been made, or whose route is given back, disturbs no other claim. -/
theorem undisturbed_giveBack {α : Type} (he : entry ∈ w.files) (hne : entry.route.ingressId ≠ some claim)
    {answered : ExternalRoute} (hclaim : answered.ingressId = some claim) (acquired : Bool) (failure : String) :
    Safe (Performs valid) Anywhere (ingress.giveBack acquired answered failure : Action α)
      (fun _ w' => Undisturbed w w' entry) w :=
  safe_giveBack hclaim (fun _ _ => trivial) (fun _ _ hr => .released he hne hr) fun _ => .refl he

theorem undisturbed_rebound (he : entry ∈ w.files) (hid : route.id ≠ entry.id) (hne : entry.route.ingressId ≠ some claim)
    {answered : ExternalRoute} (hclaim : answered.ingressId = some claim) (unchanged acquired : Bool) :
    Safe (Performs valid) Anywhere (rebound ingress route unchanged acquired answered)
      (fun _ w' => Undisturbed w w' entry) w := by
  unfold rebound
  split
  · split
    · exact .refl he
    · exact undisturbed_giveBack he hne hclaim _ _
  · split
    · exact undisturbed_giveBack he hne hclaim _ _
    split
    · exact undisturbed_giveBack he hne hclaim _ _
    refine Safe.orElse (P := fun r w' => match r with
      | .ok _ => Undisturbed w w' entry
      | .error _ => w' = w) ?_ (fun _ _ h => h) fun failure w' h => ?_
    · exact safe_put trivial trivial (.put he hid) fun _ => rfl
    · subst h
      exact undisturbed_giveBack he hne hclaim _ _

theorem undisturbed_rebindRoute (he : entry ∈ w.files) (hid : route.id ≠ entry.id)
    (hclaim : route.route.ingressId = some claim)
    (hne : entry.route.ingressId ≠ some claim) (unchanged : Bool) :
    Safe (Performs valid) Anywhere (rebindRoute ingress route workspace unchanged)
      (fun _ w' => Undisturbed w w' entry) w := by
  unfold rebindRoute
  refine safe_resolveTarget trivial (fun _ => trivial) (fun upstream _ => ?_) fun _ => .refl he
  have hresolved := Undisturbed.resolve he workspace.id route.target upstream
  rw [hclaim, Option.getD_some]
  refine Safe.andThen (P := fun r w' => Undisturbed w w' entry ∧ match r with
    | .ok (_, answered) => answered.ingressId = some claim
    | .error _ => True) ?_ ?_ fun _ _ h => h.1
  · refine safe_provision (fun _ _ => trivial) (fun _ => ⟨hresolved, trivial⟩) ?_ ?_
    · exact fun _ slots w' acquired _ hclaimed => ⟨hresolved.trans (.claimed hresolved.stored hne hclaimed), trivial⟩
    · exact fun acquired answered w' hclaimed hminted =>
        ⟨hresolved.trans (.claimed hresolved.stored hne hclaimed), hminted.ingressId⟩
  · rintro ⟨acquired, answered⟩ w' ⟨h, hanswered⟩
    exact (undisturbed_rebound h.stored hid hne hanswered unchanged acquired).mono fun _ _ h' => h.trans h'

theorem undisturbed_reconcileStoredRoute (he : entry ∈ w.files) (hid : route.id ≠ entry.id)
    (hclaim : route.route.ingressId = some claim) (hne : entry.route.ingressId ≠ some claim) :
    Safe (Performs valid) Anywhere (reconcileStoredRoute route ingress workspace)
      (fun _ w' => Undisturbed w w' entry) w := by
  unfold reconcileStoredRoute
  split
  · exact .refl he
  dsimp only
  split
  · generalize hpending : ({ route with approval := .pending } : StoredUrl) = pending
    have hid' : pending.id ≠ entry.id := hpending ▸ hid
    have hclaim' : pending.route.ingressId = some claim := hpending ▸ hclaim
    have hput : Undisturbed w (w.put pending) entry := .put he hid'
    refine safe_put trivial trivial ?_ fun _ => .refl he
    exact (undisturbed_rebindRoute hput.stored hid' hclaim' hne _).mono fun _ _ h' => hput.trans h'
  · exact undisturbed_rebindRoute he hid hclaim hne _

theorem undisturbed_revokeEntry {α : Type} {f : Unit → Action α} {Q : Except String α → World → Prop} (he : entry ∈ w.files)
    (hid : route.id ≠ entry.id) (hclaim : route.route.ingressId = some claim) (hne : entry.route.ingressId ≠ some claim)
    (hfail : ∀ message, Q (.error message) w)
    (hok : ∀ w', Undisturbed w w' entry → Safe (Performs valid) Anywhere (f ()) Q w') :
    Safe (Performs valid) Anywhere (do
      ask (.put { route with approval := .revoked })
      ingress.revoke route.route >>= f) Q w := by
  refine safe_put trivial trivial ?_ hfail
  have hput : Undisturbed w (w.put { route with approval := .revoked }) entry := .put he hid
  refine Safe.andThen (P := fun r w' => r = .ok () ∧ Undisturbed w w' entry) ?_ ?_ ?_
  · exact safe_revoke hclaim (fun _ _ => trivial) fun w' hr => ⟨rfl, hput.trans (.released hput.stored hne hr)⟩
  · rintro _ w' ⟨-, h⟩
    exact hok w' h
  · rintro message w' ⟨h, -⟩
    cases h

theorem undisturbed_createRoute {request : NormalizedRequest} (hw : Stored w) (he : entry ∈ w.files)
    (hne : ingress.approvalRequired = true ∨ entry.route.ingressId ≠ some (routeClaim workspace request)) :
    Safe (Performs valid) Anywhere (createRoute workspace ingress request) (fun _ w' => Undisturbed w w' entry) w := by
  have hentry := hw.entries entry he
  unfold createRoute
  refine safe_resolveTarget trivial (fun _ => trivial) (fun upstream _ => ?_) fun _ => .refl he
  have hresolved := Undisturbed.resolve he workspace.id request.target upstream
  refine safe_randomUUID (fun _ => trivial) fun id hfresh => ?_
  have hdrawn := hresolved.trans (.draw hresolved.stored id)
  have hid : id ≠ entry.id := fun heq => hfresh (heq ▸ hentry.drawn)
  dsimp only
  generalize happroval : (if ingress.approvalRequired = true then ExternalUrlApproval.pending else .notRequired) = approval
  generalize hclaim : (if approval = .notRequired then routeClaim workspace request else .identity id) = claim
  -- the claim is that of the request, or an identity that no entry has
  have hother : entry.route.ingressId ≠ some claim := by
    rw [← hclaim]
    split
    · rename_i hnone
      refine hne.resolve_left fun hrequired => ?_
      rw [if_pos hrequired] at happroval
      rw [← happroval] at hnone
      cases hnone
    · intro hsame
      rcases hentry.claim with hc | hc
      · rw [hc, Option.some.injEq] at hsame
        exact hid (Claim.identity.inj hsame).symm
      · rw [hc] at hsame
        cases hsame
  refine Safe.andThen (P := fun r w' => Undisturbed w w' entry ∧ match r with
    | .ok (_, answered) => answered.ingressId = some claim
    | .error _ => True) ?_ ?_ fun _ _ h => h.1
  · refine safe_provision (fun _ _ => trivial) (fun _ => ⟨hdrawn, trivial⟩) ?_ ?_
    · exact fun _ slots w' acquired _ hclaimed => ⟨hdrawn.trans (.claimed hdrawn.stored hother hclaimed), trivial⟩
    · exact fun acquired answered w' hclaimed hminted =>
        ⟨hdrawn.trans (.claimed hdrawn.stored hother hclaimed), hminted.ingressId⟩
  rintro ⟨acquired, answered⟩ w₁ ⟨h₁, hanswered⟩
  refine Safe.orElse (P := fun r w' => match r with
    | .ok _ => Undisturbed w w' entry
    | .error _ => w' = w₁) ?_ (fun _ _ h => h) fun failure w' h => ?_
  · unfold storeCreated
    split
    · exact rfl
    split
    · exact rfl
    exact safe_put trivial trivial (h₁.trans (.put h₁.stored hid)) fun _ => rfl
  · subst h
    exact (undisturbed_giveBack h₁.stored hother hanswered _ _).mono fun _ _ h' => h₁.trans h'

end Steps

/-! ## Independence -/

/-- A program runs to its end. -/
def Ends {α : Type} (p : Action α) (w : World) (w' : World) : Prop :=
  ∃ result, Reaches (Performs False) p w (.ended result) w'

theorem Ends.undisturbed {α : Type} {p : Action α} {entry : StoredUrl} (h : Ends p w w')
    (hsafe : Safe (Performs False) Anywhere p (fun _ w' => Undisturbed w w' entry) w) : Undisturbed w w' entry := by
  obtain ⟨result, hr⟩ := h
  have hend := (hsafe.reaches trivial hr).2
  cases result <;> exact hend

/-- What a request for a route acts on: the entry that answers it, or the claim of a new entry. -/
def Requests (w : World) (workspace : ControllerWorkspace) (input : CreateRequest) (id : Option String)
    (claim : Claim) : Prop :=
  ∀ options request, w.ingresses input.ingress = some options →
    validateRequest (withSubdomain input options.scheme workspace.name (w.list workspace.id)) options.scheme = .ok request →
    match (w.list workspace.id).find? fun entry => entry.approval ≠ .revoked && storedRequest entry = request with
    | some entry => id = some entry.id ∧ entry.route.ingressId = some claim
    | none => options.approvalRequired = some true ∨ claim = routeClaim workspace request

/-- What is done for one route, with its identity, where it has one, and its claim. -/
inductive RouteStep (w : World) : Option String → Claim → World → Prop
  | revoked {entry : StoredUrl} {claim : Claim} {w' : World} (he : entry ∈ w.files)
      (hclaim : entry.route.ingressId = some claim)
    (h : Ends (urlRevoke entry.id) w w') : RouteStep w (some entry.id) claim w'
  | deleted {entry : StoredUrl} {claim : Claim} {workspace : ControllerWorkspace} {w' : World} (he : entry ∈ w.files)
    (hclaim : entry.route.ingressId = some claim) (h : Ends (deleteUrl workspace entry.id) w w') :
    RouteStep w (some entry.id) claim w'
  | reconciled {entry : StoredUrl} {claim : Claim} {workspace : ControllerWorkspace} {ingress : ConfiguredIngress}
      {w' : World}
    (he : entry ∈ w.files) (hclaim : entry.route.ingressId = some claim)
    (h : Ends (reconcileStoredRoute entry ingress workspace) w w') : RouteStep w (some entry.id) claim w'
  | requested {id : Option String} {claim : Claim} {workspace : ControllerWorkspace} {input : CreateRequest} {w' : World}
    (hrequests : Requests w workspace input id claim) (h : Ends (createUrl workspace input) w w') : RouteStep w id claim w'

theorem undisturbed_createUrl {entry : StoredUrl} {workspace : ControllerWorkspace} {input : CreateRequest}
    {id : Option String}
    {claim : Claim} (hw : Stored w) (he : entry ∈ w.files) (hrequests : Requests w workspace input id claim)
    (hid : id ≠ some entry.id)
    (hne : entry.route.ingressId ≠ some claim) :
    Safe (Performs valid) Anywhere (createUrl workspace input) (fun _ w' => Undisturbed w w' entry) w := by
  unfold createUrl
  split
  · exact .refl he
  refine safe_required trivial (fun options hoptions => ?_) fun _ => .refl he
  refine safe_list trivial ?_ fun _ => .refl he
  cases hrequest : validateRequest (withSubdomain input options.scheme workspace.name (w.list workspace.id))
    options.scheme with
  | error message => exact .refl he
  | ok request =>
    have hsubject := hrequests options request hoptions hrequest
    show Safe (Performs valid) Anywhere (match (w.list workspace.id).find? _ with
      | some existing => reconcileStoredRoute existing _ workspace
      | none => createRoute workspace _ request) _ w
    split at hsubject
    · rename_i existing hexisting
      obtain ⟨rfl, hclaim⟩ := hsubject
      exact undisturbed_reconcileStoredRoute he (fun heq => hid (congrArg some heq)) hclaim hne
    · rename_i hnone
      refine undisturbed_createRoute hw he ?_
      rcases hsubject with hrequired | rfl
      · exact .inl (by simp [ConfiguredIngress.approvalRequired, hrequired])
      · exact .inr hne

/-- Whatever is done for one route leaves every other stored route of another claim undisturbed. -/
theorem routes_independent (hw : Reachable Initial (Step False fun _ _ => True) w) {id : Option String} {claim : Claim}
    (hstep : RouteStep w id claim w') {entry : StoredUrl} (he : entry ∈ w.files) (hid : id ≠ some entry.id)
    (hne : entry.route.ingressId ≠ some claim) : Undisturbed w w' entry := by
  have hs := stored_of_reachable hw
  cases hstep with
  | @revoked route claim w' hroute hclaim h =>
    refine h.undisturbed (safe_transitionRouteApproval trivial (fun _ => .refl he) fun found hfound hsame options _ => ?_)
    rw [hs.unique found hfound route hroute hsame]
    unfold revokeRoute
    split
    · exact .refl he
    · exact undisturbed_revokeEntry he (fun heq => hid (congrArg some heq)) hclaim hne (fun _ => .refl he) fun _ h => h
  | @deleted route claim workspace w' hroute hclaim h =>
    refine h.undisturbed (safe_list trivial ?_ fun _ => .refl he)
    split
    · exact .refl he
    rename_i found hfound
    have hmem := ((w.mem_list workspace.id found).mp (List.mem_of_find?_eq_some hfound)).1
    have hsame := List.find?_some hfound
    rw [hs.unique found hmem route hroute (of_decide_eq_true hsame)]
    have hrid : route.id ≠ entry.id := fun heq => hid (congrArg some heq)
    refine safe_required trivial (fun options _ => ?_) fun _ => .refl he
    refine undisturbed_revokeEntry he hrid hclaim hne (fun _ => .refl he) fun w₁ h₁ => ?_
    exact safe_remove trivial trivial (h₁.trans (.remove h₁.stored hrid)) fun _ => h₁
  | @reconciled route claim workspace ingress w' hroute hclaim h =>
    exact h.undisturbed (undisturbed_reconcileStoredRoute he (fun heq => hid (congrArg some heq)) hclaim hne)
  | @requested _ _ workspace input w' hrequests h =>
    exact h.undisturbed (undisturbed_createUrl hs he hrequests hid hne)

end

/-! ## Two routes -/

namespace Sample

/-- The world after two requests of one workspace. -/
def created (first second : CreateRequest) : World :=
  after (.create { id := "w", name := "w" } second)
    (after (.create { id := "w", name := "w" } first) (World.empty ingresses))

theorem reachable_created (first second : CreateRequest) :
    Reachable Initial (Step False fun _ _ => True) (created first second) :=
  reachable_after _ trivial (reachable_after _ trivial (.init ⟨ingresses, rfl⟩))

/-- The route of the first request is deleted. -/
def deleted (w : World) : World := ((deleteUrl { id := "w", name := "w" } "0").exec (answer container) w).2

theorem deletes {w : World} {entry : StoredUrl} {claim : Claim} (he : entry ∈ w.files) (hid : entry.id = "0")
    (hclaim : entry.route.ingressId = some claim) : RouteStep w (some "0") claim (deleted w) := by
  have hends : Ends (deleteUrl { id := "w", name := "w" } entry.id) w (deleted w) := by
    rw [hid]
    exact ⟨_, reaches_exec (performs_answer container) _ w⟩
  exact hid ▸ .deleted he hclaim hends

/-- The claim of a request for the name. -/
def claimOf (subdomain : String) : Claim :=
  .request "w" "i" (some subdomain) { containers := [], port := 80, protocol := .http }

theorem created_deleted {first second : CreateRequest} {newest : Option Claim} {claim : Claim}
    (hids : ((created first second).files.map (·.id))[1]? = some "0")
    (hclaims : ((created first second).files.map fun entry => entry.route.ingressId) = [newest, some claim]) :
    ∃ newer ∈ (created first second).files, newer.route.ingressId = newest ∧ some "0" ≠ some newer.id ∧
      RouteStep (created first second) (some "0") claim (deleted (created first second)) := by
  have hlength : (created first second).files.length = 2 := by simpa using congrArg List.length hclaims
  obtain ⟨newer, older, hfiles⟩ := List.length_eq_two.mp hlength
  have hdistinct := (stored_of_reachable (reachable_created first second)).distinct
  rw [hfiles] at hids hclaims hdistinct
  have hid : older.id = "0" := by simpa using hids
  obtain ⟨hclaim, hclaim'⟩ : newer.route.ingressId = newest ∧ older.route.ingressId = some claim := by simpa using hclaims
  have hne : newer.id ≠ older.id := (List.pairwise_cons.mp hdistinct).1 older (List.mem_singleton_self _)
  rw [hid] at hne
  exact ⟨newer, by simp [hfiles], hclaim, fun heq => hne (Option.some.inj heq).symm, deletes (by simp [hfiles]) hid hclaim'⟩

/-- Two routes at one host, which differ in their path alone. -/
def shared : World := created (request "a" (some "/x")) (request "a" (some "/y"))

end Sample

open Sample in
theorem routes_independent_apart : ∃ entry ∈ (created (request "a" none) (request "b" none)).files,
    Undisturbed (created (request "a" none) (request "b" none))
      (deleted (created (request "a" none) (request "b" none))) entry := by
  obtain ⟨hids, hclaims⟩ : ((created (request "a" none) (request "b" none)).files.map (·.id))[1]? = some "0" ∧
      ((created (request "a" none) (request "b" none)).files.map fun entry => entry.route.ingressId) =
        [some (claimOf "b"), some (claimOf "a")] := by decide +kernel
  obtain ⟨newer, hnewer, hclaim, hne, hstep⟩ := created_deleted hids hclaims
  refine ⟨newer, hnewer, routes_independent (reachable_created _ _) hstep hnewer hne ?_⟩
  rw [hclaim]
  decide

open Sample in
/-- Two requests that differ in their path alone have one claim: the deletion of the first takes the authority of both. -/
theorem routes_dependent : ¬ ∀ w, Reachable Initial (Step False fun _ _ => True) w → ∀ id claim w', RouteStep w id claim w' →
    ∀ entry ∈ w.files, id ≠ some entry.id → Undisturbed w w' entry := by
  intro hall
  obtain ⟨hids, hclaims, hserved, hgone⟩ : (shared.files.map (·.id))[1]? = some "0" ∧
      (shared.files.map fun entry => entry.route.ingressId) = [some (claimOf "a"), some (claimOf "a")] ∧
      (shared.routes "a.d").map (·.claims) = some [(claimOf "a", true)] ∧
      ((deleted shared).routes "a.d").isNone = true := by decide +kernel
  obtain ⟨newer, hnewer, hclaim, hne, hstep⟩ := created_deleted hids hclaims
  have hkept := hall _ (reachable_created _ _) _ _ _ hstep newer hnewer hne
  obtain ⟨route, hroute, hroutes⟩ := Option.map_eq_some_iff.mp hserved
  obtain ⟨route', hroute', -⟩ :=
    hkept.retained _ hclaim (.host "a.d") route true hroute (hroutes ▸ List.mem_singleton_self _)
  have hnone := Option.isNone_iff_eq_none.mp hgone
  rw [show (deleted shared).routes "a.d" = some route' from hroute'] at hnone
  cases hnone

end Dim.ExternalUrls
