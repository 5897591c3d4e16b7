/-
What a listener does to the places it serves routes at: an authority of the shared registry, or the one port of a
TCP listener. Both are held by claims in the same way, so one law says what a provision, a release and a change of
approval do, whatever the scheme is.
-/
import DimProofs.ExternalUrls.Plugin

namespace Dim.ExternalUrls

open Effectful

/-! ## The registry -/

namespace WorkspaceRouteRegistry

variable {routes routes' : WorkspaceRouteRegistry} {authorities : List String} {claim : Claim}
  {upstream : ResolvedWorkspaceTarget} {enabled acquired : Bool}

theorem revoke_apply (routes : WorkspaceRouteRegistry) (authorities : List String) (claim : Claim) (authority : String) :
    routes.revoke authorities claim authority =
      if authority ∈ authorities then (routes authority).bind (·.without claim) else routes authority := by
  unfold revoke
  exact foldl_update (f := fun route => route.bind (·.without claim))
    (fun route => RegisteredRoute.without_without route claim) authorities routes authority

theorem provision_eq_ok (h : routes.provision authorities claim upstream enabled = .ok (acquired, routes')) :
    (∀ authority ∈ authorities, ∀ route, routes authority = some route → ∃ enabled, route.claims = [(claim, enabled)]) ∧
    acquired = authorities.any (fun authority => (routes authority).isNone) ∧
    ∀ authority, routes' authority =
      if authority ∈ authorities then some { upstream, claims := [(claim, enabled)] } else routes authority := by
  unfold provision at h
  dsimp only at h
  split at h
  · cases h
  split at h
  · cases h
  rename_i hfree
  cases h
  have hown : ∀ authority ∈ authorities, ∀ route, routes authority = some route →
      ∃ enabled, route.claims = [(claim, enabled)] := by
    intro authority hmem route hroute
    have hconflicts := List.find?_eq_none.mp hfree authority (List.mem_eraseDups.mpr hmem)
    exact RegisteredRoute.claims_of_conflicts (by simpa [hroute] using hconflicts)
  refine ⟨hown, ?_, fun authority => ?_⟩
  · rw [Bool.eq_iff_iff]
    simp only [List.any_eq_true, List.mem_eraseDups]
  · have happly := foldl_update (f := fun route => some (RegisteredRoute.claimed route claim upstream enabled))
      (fun route => congrArg some (RegisteredRoute.claimed_claimed route claim upstream enabled))
      authorities.eraseDups routes authority
    refine happly.trans ?_
    simp only [List.mem_eraseDups]
    split
    · rename_i hmem
      cases hroute : routes authority with
      | none => rfl
      | some route =>
        obtain ⟨enabled', hclaims⟩ := hown authority hmem route hroute
        simp [RegisteredRoute.claimed, RegisteredRoute.rebind, hclaims]
    · rfl

theorem setApproval_eq_ok (h : routes.setApproval authorities claim enabled = .ok routes') :
    (∀ authority ∈ authorities, ∃ route, routes authority = some route ∧ route.has claim = true) ∧
    ∀ authority, routes' authority =
      if authority ∈ authorities then (routes authority).map fun route =>
        { route with claims := setClaim route.claims claim enabled } else routes authority := by
  unfold setApproval at h
  split at h
  · cases h
  rename_i hactive
  cases h
  constructor
  · intro authority hmem
    have hhas : (routes authority).any (·.has claim) = true := by
      simp only [Bool.not_eq_true, List.any_eq_false, Bool.not_eq_true'] at hactive
      simpa using hactive authority hmem
    cases hroute : routes authority with
    | none => rw [hroute] at hhas; cases hhas
    | some route => exact ⟨route, rfl, by rw [hroute] at hhas; exact hhas⟩
  · intro authority
    refine foldl_update (f := fun route : Option RegisteredRoute => route.map fun route =>
      { route with claims := setClaim route.claims claim enabled }) (fun route => ?_) authorities routes authority
    cases route with
    | none => rfl
    | some route => simp [setClaim_setClaim]

end WorkspaceRouteRegistry

/-! ## Places that serve a route -/

inductive Slot where
  | host (authority : String)
  | port (ingress : String)
deriving DecidableEq

/-- The route that a place serves. -/
def World.holds (w : World) : Slot → Option RegisteredRoute
  | .host authority => w.routes authority
  | .port ingress => (w.listeners ingress).map fun route =>
      { upstream := route.upstream, claims := [(route.claim, route.enabled)] }

/-- The places of a route of an ingress. -/
def ConfiguredIngress.slots (ingress : ConfiguredIngress) (route : ExternalRoute) : List Slot :=
  if ingress.options.scheme = .tcp then [.port ingress.name] else (routeAuthorities route).map .host

/-- The places of a stored route, where its ingress is configured. -/
def World.slots (w : World) (entry : StoredUrl) : List Slot :=
  match w.ingresses entry.ingress with
  | none => []
  | some options => ConfiguredIngress.slots { name := entry.ingress, options } entry.route

/-- Only the served routes differ, and identities may have been drawn. -/
structure Frame (w w' : World) : Prop where
  files : w'.files = w.files
  resolved : w'.resolved = w.resolved
  ingresses : w'.ingresses = w.ingresses
  drawn : w.drawn ⊆ w'.drawn

theorem Frame.refl (w : World) : Frame w w := ⟨rfl, rfl, rfl, fun _ h => h⟩

theorem Frame.trans {w w' w'' : World} (h : Frame w w') (h' : Frame w' w'') : Frame w w'' :=
  ⟨h'.files.trans h.files, h'.resolved.trans h.resolved, h'.ingresses.trans h.ingresses,
    fun _ hid => h'.drawn (h.drawn hid)⟩

/-- A claim was made on places that were free or its own. -/
structure Claimed (w w' : World) (slots : List Slot) (claim : Claim) (upstream : ResolvedWorkspaceTarget)
    (enabled acquired : Bool) : Prop extends Frame w w' where
  own : ∀ slot ∈ slots, ∀ route, w.holds slot = some route → ∃ enabled, route.claims = [(claim, enabled)]
  holds : ∀ slot, w'.holds slot = if slot ∈ slots then some { upstream, claims := [(claim, enabled)] } else w.holds slot
  acquired : acquired = slots.any fun slot => (w.holds slot).isNone

/-- A claim was given up on places. -/
structure Released (w w' : World) (slots : List Slot) (claim : Claim) : Prop extends Frame w w' where
  holds : ∀ slot, w'.holds slot = if slot ∈ slots then (w.holds slot).bind (·.without claim) else w.holds slot

/-- A claim that held places was enabled or disabled. -/
structure Switched (w w' : World) (slots : List Slot) (claim : Claim) (enabled : Bool) : Prop extends Frame w w' where
  active : ∀ slot ∈ slots, ∃ route, w.holds slot = some route ∧ route.has claim = true
  holds : ∀ slot, w'.holds slot = if slot ∈ slots then (w.holds slot).map fun route =>
    { route with claims := setClaim route.claims claim enabled } else w.holds slot

theorem Claimed.draw {w w' : World} {slots : List Slot} {claim : Claim} {upstream : ResolvedWorkspaceTarget}
    {enabled acquired : Bool} (h : Claimed w w' slots claim upstream enabled acquired) (id : String) :
    Claimed w (w'.draw id) slots claim upstream enabled acquired := by
  have hdraw : Frame w' (w'.draw id) := ⟨rfl, rfl, rfl, List.subset_cons_self _ _⟩
  refine { h.toFrame.trans hdraw with own := h.own, holds := fun slot => ?_, acquired := h.acquired }
  rw [← h.holds slot]
  cases slot <;> rfl

section Registry

variable {w : World} {routes : WorkspaceRouteRegistry} {authorities : List String} {claim : Claim}
  {upstream : ResolvedWorkspaceTarget} {enabled acquired : Bool}

/-- A change of the registry is one of the places that are hosts. -/
theorem holds_routes {f : Option RegisteredRoute → Option RegisteredRoute}
    (h : ∀ authority, routes authority = if authority ∈ authorities then f (w.routes authority) else w.routes authority)
    (slot : Slot) : ({ w with routes } : World).holds slot =
      if slot ∈ authorities.map Slot.host then f (w.holds slot) else w.holds slot := by
  cases slot with
  | host authority =>
    simp only [World.holds, List.mem_map, Slot.host.injEq, exists_eq_right]
    exact h authority
  | port ingress => simp [World.holds]

theorem claimed_routes (h : w.routes.provision authorities claim upstream enabled = .ok (acquired, routes)) :
    Claimed w { w with routes } (authorities.map Slot.host) claim upstream enabled acquired := by
  obtain ⟨hown, hacquired, happly⟩ := WorkspaceRouteRegistry.provision_eq_ok h
  refine { Frame.refl w with own := ?_, holds := holds_routes (f := fun _ => some _) happly, acquired := ?_ }
  · intro slot hslot route hroute
    obtain ⟨authority, hmem, rfl⟩ := List.mem_map.mp hslot
    exact hown authority hmem route hroute
  · rw [hacquired, List.any_map]
    rfl

theorem released_routes (w : World) (authorities : List String) (claim : Claim) :
    Released w { w with routes := w.routes.revoke authorities claim } (authorities.map Slot.host) claim :=
  { Frame.refl w with
    holds := holds_routes (f := fun route => route.bind (·.without claim))
      (WorkspaceRouteRegistry.revoke_apply w.routes authorities claim) }

theorem switched_routes (h : w.routes.setApproval authorities claim enabled = .ok routes) :
    Switched w { w with routes } (authorities.map Slot.host) claim enabled := by
  obtain ⟨hactive, happly⟩ := WorkspaceRouteRegistry.setApproval_eq_ok h
  refine { Frame.refl w with active := ?_, holds := holds_routes (f := Option.map _) happly }
  intro slot hslot
  obtain ⟨authority, hmem, rfl⟩ := List.mem_map.mp hslot
  exact hactive authority hmem

end Registry

section Listener

variable {w : World} {name : String} {claim : Claim} {upstream : ResolvedWorkspaceTarget} {enabled acquired : Bool}
  {route : Option TcpRoute}

/-- What a TCP listener's route is at its place. -/
def TcpRoute.registered (route : TcpRoute) : RegisteredRoute :=
  { upstream := route.upstream, claims := [(route.claim, route.enabled)] }

theorem holds_setListener (w : World) (name : String) (route : Option TcpRoute) (slot : Slot) :
    (w.setListener name route).holds slot = if slot ∈ [Slot.port name] then route.map (·.registered) else w.holds slot := by
  cases slot with
  | host authority => simp [World.holds, World.setListener]
  | port ingress =>
    simp only [World.holds, World.setListener, List.mem_singleton, Slot.port.injEq]
    by_cases hname : ingress = name
    · subst hname
      simp only [Function.update_self, if_true]
      rfl
    · rw [Function.update_of_ne hname, if_neg hname]

theorem claimed_listener (h : TcpRoute.provision (w.listeners name) name claim upstream enabled = .ok (acquired, route)) :
    Claimed w (w.setListener name route) [.port name] claim upstream enabled acquired := by
  unfold TcpRoute.provision at h
  split at h
  · cases h
  rename_i hfree
  cases h
  refine { Frame.refl w with own := ?_, holds := fun slot => holds_setListener w name _ slot, acquired := ?_ }
  · intro slot hslot route hroute
    rw [List.mem_singleton.mp hslot] at hroute
    simp only [World.holds, Option.map_eq_some_iff] at hroute
    obtain ⟨held, hheld, rfl⟩ := hroute
    have hclaim : held.claim = claim := by simpa [hheld] using hfree
    exact ⟨held.enabled, by rw [hclaim]⟩
  · simp [World.holds]

theorem released_listener (w : World) (name : String) (claim : Claim) :
    Released w (w.setListener name (TcpRoute.revoke (w.listeners name) (some claim))) [.port name] claim := by
  refine { Frame.refl w with holds := fun slot => (holds_setListener w name _ slot).trans ?_ }
  split
  · rename_i hslot
    rw [List.mem_singleton.mp hslot]
    simp only [World.holds, TcpRoute.revoke]
    cases w.listeners name with
    | none => simp
    | some held =>
      by_cases hclaim : held.claim = claim
      · simp [RegisteredRoute.without, hclaim]
      · simp [RegisteredRoute.without, TcpRoute.registered, hclaim]
  · rfl

theorem switched_listener (h : TcpRoute.setApproval (w.listeners name) (some claim) enabled = .ok route) :
    Switched w (w.setListener name route) [.port name] claim enabled := by
  unfold TcpRoute.setApproval at h
  split at h
  · cases h
  rename_i hactive
  cases h
  obtain ⟨held, hheld, rfl⟩ : ∃ held, w.listeners name = some held ∧ held.claim = claim := by simpa using hactive
  refine { Frame.refl w with active := ?_, holds := fun slot => (holds_setListener w name _ slot).trans ?_ }
  · intro slot hslot
    rw [List.mem_singleton.mp hslot]
    exact ⟨held.registered, by simp only [World.holds, hheld, Option.map_some]; rfl,
      by simp [RegisteredRoute.has, TcpRoute.registered]⟩
  · split
    · rename_i hslot
      rw [List.mem_singleton.mp hslot]
      simp [World.holds, hheld, TcpRoute.registered]
    · rfl

end Listener

/-! ## Rules of the calls -/

section Rules

variable [Platform] {valid : Prop} {I : World → Prop} {w : World} {α : Type}

variable {c : Call}

/-- The rule of a call. -/
theorem safe_ask {Q : Except String c.Value → World → Prop}
    (h : ∀ a w', Performs valid c w a w' → I w' ∧ Q a w') : Safe (Performs valid) I (ask c) Q w := by
  rintro (message | value) w' hp
  · exact h _ w' hp
  · exact h _ w' hp

variable {Q : Except String α → World → Prop}

/-- The rule of a call that other calls follow. -/
theorem safe_askThen {f : c.Value → Action α} (h : ∀ a w', Performs valid c w a w' → I w' ∧ match a with
      | .ok value => Safe (Performs valid) I (f value) Q w'
      | .error message => Q (.error message) w') : Safe (Performs valid) I (ask c >>= f) Q w := by
  refine Safe.andThen (P := fun a w' => match a with
    | .ok value => Safe (Performs valid) I (f value) Q w'
    | .error message => Q (.error message) w') (safe_ask h) (fun _ _ h => h) fun _ _ h => h

theorem safe_ofExcept {x : Except String α} (h : Q x w) :
    Safe (Performs valid) I (ofExcept x) Q w := by
  cases x <;> exact h

/-- A call that only reads, and may fail. -/
theorem safe_fallible (done : c.Value → Prop) {f : c.Value → Action α} (hc : ∀ a w', Performs valid c w a w' →
      (∃ value, done value ∧ a = .ok value ∧ w' = w) ∨ ((∃ message, a = .error message) ∧ w' = w))
    (hI : I w) (hok : ∀ value, done value → Safe (Performs valid) I (f value) Q w)
    (hfail : ∀ message, Q (.error message) w) :
    Safe (Performs valid) I (ask c >>= f) Q w := by
  refine safe_askThen fun a w' hp => ?_
  rcases hc a w' hp with ⟨value, hdone, rfl, rfl⟩ | ⟨⟨message, rfl⟩, rfl⟩
  · exact ⟨hI, hok value hdone⟩
  · exact ⟨hI, hfail message⟩

theorem safe_list {workspaceId : String} {f : List StoredUrl → Action α} (hI : I w)
    (hok : Safe (Performs valid) I (f (w.list workspaceId)) Q w) (hfail : ∀ message, Q (.error message) w) :
    Safe (Performs valid) I (ask (.list workspaceId) >>= f) Q w := by
  refine safe_fallible (fun value => value = w.list workspaceId) ?_ hI (fun value h => h ▸ hok) hfail
  rintro a w' (⟨rfl, rfl⟩ | h)
  · exact .inl ⟨_, rfl, rfl, rfl⟩
  · exact .inr h

theorem safe_listWorkspaces {f : List ControllerWorkspace → Action α} (hI : I w)
    (hok : ∀ workspaces, Safe (Performs valid) I (f workspaces) Q w) (hfail : ∀ message, Q (.error message) w) :
    Safe (Performs valid) I (ask .listWorkspaces >>= f) Q w := by
  refine safe_fallible (fun _ => True) ?_ hI (fun workspaces _ => hok workspaces) hfail
  rintro (message | workspaces) w' (⟨hanswer, rfl⟩ | h)
  · cases hanswer
  · exact .inr h
  · exact .inl ⟨workspaces, trivial, rfl, rfl⟩
  · exact .inr h

theorem safe_ingress {name : String} {f : Option ExternalUrlIngressOptions → Action α}
    (hI : I w) (hok : Safe (Performs valid) I (f (w.ingresses name)) Q w) :
    Safe (Performs valid) I (ask (.ingress name) >>= f) Q w := by
  refine safe_askThen ?_
  rintro a w' ⟨rfl, rfl⟩
  exact ⟨hI, hok⟩

theorem safe_required {name : String} {f : ConfiguredIngress → Action α} (hI : I w)
    (hok : ∀ options, w.ingresses name = some options → Safe (Performs valid) I (f { name, options }) Q w)
    (hfail : ∀ message, Q (.error message) w) : Safe (Performs valid) I (required name >>= f) Q w := by
  refine Safe.andThen (P := fun r w' => w' = w ∧ ∀ ingress, r = .ok ingress →
    ∃ options, w.ingresses name = some options ∧ ingress = { name, options }) (safe_ingress hI ?_) ?_ ?_
  · cases hingress : w.ingresses name with
    | none => exact ⟨rfl, nofun⟩
    | some options => exact ⟨rfl, fun ingress h => by cases h; exact ⟨options, rfl, rfl⟩⟩
  · rintro ingress w' ⟨rfl, h⟩
    obtain ⟨options, hingress, rfl⟩ := h ingress rfl
    exact hok options hingress
  · rintro message w' ⟨rfl, -⟩
    exact hfail message

theorem safe_put {entry : StoredUrl} {f : Unit → Action α} (hI : I w)
    (hput : I (w.put entry)) (hok : Safe (Performs valid) I (f ()) Q (w.put entry))
    (hfail : ∀ message, Q (.error message) w) :
    Safe (Performs valid) I (ask (.put entry) >>= f) Q w := by
  refine safe_askThen ?_
  rintro a w' (⟨rfl, rfl⟩ | ⟨⟨message, rfl⟩, rfl⟩)
  · exact ⟨hput, hok⟩
  · exact ⟨hI, hfail message⟩

theorem safe_remove {entry : StoredUrl} {f : Unit → Action α} (hI : I w)
    (hremove : I (w.remove entry)) (hok : Safe (Performs valid) I (f ()) Q (w.remove entry))
    (hfail : ∀ message, Q (.error message) w) : Safe (Performs valid) I (ask (.remove entry) >>= f) Q w := by
  refine safe_askThen ?_
  rintro a w' (⟨rfl, rfl⟩ | ⟨⟨message, rfl⟩, rfl⟩)
  · exact ⟨hremove, hok⟩
  · exact ⟨hI, hfail message⟩

theorem safe_resolveTarget {workspace : ControllerWorkspace} {target : WorkspaceTarget} {mode : UpstreamMode}
    {f : ResolvedWorkspaceTarget → Action α} (hI : I w)
    (hresolve : ∀ upstream, I (w.resolve workspace.id target upstream))
    (hok : ∀ upstream, upstream.protocol = target.protocol →
      Safe (Performs valid) I (f upstream) Q (w.resolve workspace.id target upstream))
    (hfail : ∀ message, Q (.error message) w) :
    Safe (Performs valid) I (ask (.resolveTarget workspace target mode) >>= f) Q w := by
  refine safe_askThen ?_
  rintro a w' (⟨upstream, hprotocol, rfl, rfl⟩ | ⟨⟨message, rfl⟩, rfl⟩)
  · exact ⟨hresolve upstream, hok upstream hprotocol⟩
  · exact ⟨hI, hfail message⟩

variable {f : String → Action α}

theorem safe_randomUUID
    (hI : ∀ id, I (w.draw id)) (hok : ∀ id, id ∉ w.drawn → Safe (Performs valid) I (f id) Q (w.draw id)) :
    Safe (Performs valid) I (ask .randomUUID >>= f) Q w := by
  refine safe_askThen ?_
  rintro a w' ⟨id, hfresh, rfl, rfl⟩
  exact ⟨hI id, hok id hfresh⟩

/-! ### The listeners -/

/-- What a listener answers for a request: a route of its own, whose URLs passed their validation. -/
structure Minted (ingress : ConfiguredIngress) (workspace : ControllerWorkspace) (request : NormalizedRequest)
    (publicRouteId : Option String) (claim : Claim) (route : ExternalRoute) : Prop where
  ingressId : route.ingressId = some claim
  url : route.url.isSome = true
  permalink : route.permalink.isSome = route.permalinkAuthority.isSome
  host : ingress.options.scheme ≠ .tcp → ∃ subdomain,
    request.subdomain.isSome = true ∧ validateSubdomain subdomain = .ok () ∧
    route.authority = subdomain ++ "." ++ normalizeDomain ingress.options.domain ∧
    route.permalinkAuthority = publicRouteId.map (ingress.permalinkAuthority workspace) ∧
    (∀ authority ∈ routeAuthorities route, (validateExternalUrl (ingress.externalUrl authority request.path)).isOk = true) ∧
    ∃ id, route.id = .identity id
  port : ingress.options.scheme = .tcp → route.id = claim ∧ route.authority = ingress.tcpAuthority ∧
    route.permalinkAuthority = none ∧ request.path = none ∧ request.target.protocol = .tcp

/-- The route policy asks, at most, its webhook. -/
theorem safe_applyRoutePolicy {ingress : ConfiguredIngress} {workspace : ControllerWorkspace} {requested : String}
    (hI : I w)
    (hok : ∀ subdomain, Safe (Performs valid) I (f subdomain) Q w) (hfail : ∀ message, Q (.error message) w) :
    Safe (Performs valid) I (applyRoutePolicy ingress workspace requested >>= f) Q w := by
  refine Safe.andThen (P := fun _ w' => w' = w) ?_ (fun value w' h => h ▸ hok value) fun message w' h => h ▸ hfail message
  unfold applyRoutePolicy
  split
  · generalize workspacePrefixPolicy workspace requested = answer
    exact safe_ofExcept rfl
  · refine safe_ask ?_
    rintro a w' (⟨-, rfl⟩ | ⟨-, rfl⟩)
    · exact ⟨hI, rfl⟩
    · exact ⟨hI, rfl⟩

theorem safe_validateExternalUrl {value : String} (hI : I w)
    (hok : ∀ href, (validateExternalUrl value).isOk = true → Safe (Performs valid) I (f href) Q w)
    (hfail : ¬ valid → ∀ message, Q (.error message) w) :
    Safe (Performs valid) I (ask (.validateExternalUrl value) >>= f) Q w := by
  refine safe_askThen ?_
  rintro a w' ⟨rfl, rfl, hvalid⟩
  refine ⟨hI, ?_⟩
  cases h : validateExternalUrl value with
  | ok href => exact hok href (by rw [h]; rfl)
  | error message => exact hfail (fun hv => by have := hvalid hv; rw [h] at this; cases this) message

theorem safe_validatePermalink {ingress : ConfiguredIngress} {path authority : Option String}
    {f : Option String → Action α} (hI : I w)
    (hok : ∀ permalink, permalink.isSome = authority.isSome →
      (∀ a ∈ authority, (validateExternalUrl (ingress.externalUrl a path)).isOk = true) →
      Safe (Performs valid) I (f permalink) Q w)
    (hfail : ¬ valid → ∀ message, Q (.error message) w) :
    Safe (Performs valid) I (ingress.validatePermalink path authority >>= f) Q w := by
  cases authority with
  | none => exact hok none rfl nofun
  | some authority =>
    have hurl : Safe (Performs valid) I (ingress.validatePermalink path (some authority)) (fun r w' => w' = w ∧ match r with
        | .ok permalink => permalink.isSome = true ∧ (validateExternalUrl (ingress.externalUrl authority path)).isOk = true
        | .error _ => ¬ valid) w := by
      refine safe_validateExternalUrl hI (fun href hhref => ⟨rfl, rfl, hhref⟩) fun hv message => ⟨rfl, hv⟩
    refine hurl.andThen ?_ ?_
    · rintro permalink w' ⟨rfl, hpermalink, hvalid⟩
      exact hok permalink hpermalink fun a ha => by cases ha; exact hvalid
    · rintro message w' ⟨rfl, hv⟩
      exact hfail hv message

section Provision

variable {ingress : ConfiguredIngress} {workspace : ControllerWorkspace} {request : NormalizedRequest}
  {upstream : ResolvedWorkspaceTarget} {claim : Claim} {approval : ExternalUrlApproval} {publicRouteId : Option String}
  {Q : Except String (Bool × ExternalRoute) → World → Prop}

/-- A listener claims the places of the route it answers. Where a URL is not valid, it fails with places claimed. -/
theorem safe_httpProvision (hscheme : ingress.options.scheme ≠ .tcp) (hI : ∀ w', Frame w w' → I w')
    (hfail : ∀ message, Q (.error message) w)
    (hinvalid : ¬ valid → ∀ slots w' acquired message, Claimed w w' slots claim upstream approval.enabled acquired →
      Q (.error message) w')
    (hok : ∀ acquired route w', Claimed w w' (ingress.slots route) claim upstream approval.enabled acquired →
      Minted ingress workspace request publicRouteId claim route → Q (.ok (acquired, route)) w') :
    Safe (Performs valid) I (ingress.httpProvision workspace request upstream claim approval publicRouteId) Q w := by
  unfold ConfiguredIngress.httpProvision
  split
  · exact hfail _
  rename_i requested hrequested
  refine safe_applyRoutePolicy (hI w (.refl w)) (fun subdomain => ?_) hfail
  cases hsubdomain : validateSubdomain subdomain with
  | error message => exact hfail message
  | ok _ =>
    refine safe_askThen fun a w' hp => ?_
    simp only [Performs] at hp
    split at hp
    · rename_i acquired routes hroutes
      obtain ⟨rfl, rfl⟩ := hp
      have hclaimed := claimed_routes hroutes
      have hkept := hI _ hclaimed.toFrame
      refine ⟨hkept, ?_⟩
      refine safe_validateExternalUrl hkept (fun url hurl => ?_) fun hv message => hinvalid hv _ _ _ message hclaimed
      refine safe_validatePermalink hkept (fun permalink hpermalink hvalid => ?_) fun hv message =>
        hinvalid hv _ _ _ message hclaimed
      refine safe_randomUUID (fun id => hI _ (hclaimed.draw id).toFrame) fun id _ => ?_
      refine hok acquired _ _ ?_ ?_
      · have hdrawn := hclaimed.draw id
        unfold ConfiguredIngress.slots
        rw [if_neg hscheme]
        exact hdrawn
      · refine ⟨rfl, rfl, hpermalink, fun _ => ⟨subdomain, by rw [hrequested]; rfl, hsubdomain, rfl, rfl, ?_, id, rfl⟩,
          fun h => absurd h hscheme⟩
        intro authority hauthority
        rcases List.mem_cons.mp hauthority with rfl | hauthority
        · exact hurl
        · exact hvalid authority (Option.mem_toList.mp hauthority)
    · obtain ⟨rfl, rfl⟩ := hp
      exact ⟨hI w' (.refl w'), hfail _⟩

theorem safe_tcpProvision (hscheme : ingress.options.scheme = .tcp) (hI : ∀ w', Frame w w' → I w')
    (hfail : ∀ message, Q (.error message) w)
    (hok : ∀ acquired route w', Claimed w w' (ingress.slots route) claim upstream approval.enabled acquired →
      Minted ingress workspace request publicRouteId claim route → Q (.ok (acquired, route)) w') :
    Safe (Performs valid) I (ingress.tcpProvision request upstream claim approval) Q w := by
  unfold ConfiguredIngress.tcpProvision
  split
  · exact hfail _
  rename_i hpath
  split
  · exact hfail _
  rename_i hprotocol
  refine safe_askThen fun a w' hp => ?_
  simp only [Performs] at hp
  split at hp
  · rename_i acquired held hheld
    obtain ⟨rfl, rfl⟩ := hp
    have hclaimed := claimed_listener hheld
    refine ⟨hI _ hclaimed.toFrame, hok acquired _ _ ?_ ?_⟩
    · unfold ConfiguredIngress.slots
      rw [if_pos hscheme]
      exact hclaimed
    · refine ⟨rfl, rfl, rfl, fun h => absurd hscheme h, fun _ => ⟨rfl, rfl, rfl, ?_, ?_⟩⟩
      · simpa using hpath
      · by_contra htarget
        exact hprotocol (.inl htarget)
  · obtain ⟨rfl, rfl⟩ := hp
    exact ⟨hI w' (.refl w'), hfail _⟩

theorem safe_provision (hI : ∀ w', Frame w w' → I w') (hfail : ∀ message, Q (.error message) w)
    (hinvalid : ¬ valid → ∀ slots w' acquired message, Claimed w w' slots claim upstream approval.enabled acquired →
      Q (.error message) w')
    (hok : ∀ acquired route w', Claimed w w' (ingress.slots route) claim upstream approval.enabled acquired →
      Minted ingress workspace request publicRouteId claim route → Q (.ok (acquired, route)) w') :
    Safe (Performs valid) I (ingress.provision workspace request upstream claim approval publicRouteId) Q w := by
  unfold ConfiguredIngress.provision
  split
  · rename_i hscheme
    exact safe_tcpProvision hscheme hI hfail hok
  · rename_i hscheme
    exact safe_httpProvision hscheme hI hfail hinvalid hok

end Provision

section Release

variable {ingress : ConfiguredIngress} {route : ExternalRoute} {claim : Claim}

theorem safe_revoke {Q : Except String Unit → World → Prop} (hclaim : route.ingressId = some claim)
    (hI : ∀ w', Frame w w' → I w') (hok : ∀ w', Released w w' (ingress.slots route) claim → Q (.ok ()) w') :
    Safe (Performs valid) I (ingress.revoke route) Q w := by
  unfold ConfiguredIngress.revoke
  unfold ConfiguredIngress.slots at hok
  rw [hclaim]
  split
  · rename_i hscheme
    rw [if_pos hscheme] at hok
    refine safe_ask ?_
    rintro a w' ⟨rfl, rfl⟩
    have hreleased := released_listener w ingress.name claim
    exact ⟨hI _ hreleased.toFrame, hok _ hreleased⟩
  · rename_i hscheme
    rw [if_neg hscheme] at hok
    refine safe_ask ?_
    rintro a w' ⟨rfl, rfl⟩
    have hreleased := released_routes w (routeAuthorities route) claim
    exact ⟨hI _ hreleased.toFrame, hok _ hreleased⟩

theorem safe_setApproval {enabled : Bool} {Q : Except String Unit → World → Prop} (hclaim : route.ingressId = some claim)
    (hI : ∀ w', Frame w w' → I w') (hok : ∀ w', Switched w w' (ingress.slots route) claim enabled → Q (.ok ()) w')
    (hfail : ∀ message, Q (.error message) w) : Safe (Performs valid) I (ingress.setApproval route enabled) Q w := by
  unfold ConfiguredIngress.setApproval
  unfold ConfiguredIngress.slots at hok
  rw [hclaim]
  split
  · rename_i hscheme
    rw [if_pos hscheme] at hok
    refine safe_ask fun a w' hp => ?_
    simp only [Performs] at hp
    split at hp
    · rename_i held hheld
      obtain ⟨rfl, rfl⟩ := hp
      have hswitched := switched_listener hheld
      exact ⟨hI _ hswitched.toFrame, hok _ hswitched⟩
    · obtain ⟨rfl, rfl⟩ := hp
      exact ⟨hI w' (.refl w'), hfail _⟩
  · rename_i hscheme
    rw [if_neg hscheme] at hok
    refine safe_ask fun a w' hp => ?_
    simp only [Performs] at hp
    split at hp
    · rename_i routes hroutes
      obtain ⟨rfl, rfl⟩ := hp
      have hswitched := switched_routes hroutes
      exact ⟨hI _ hswitched.toFrame, hok _ hswitched⟩
    · obtain ⟨rfl, rfl⟩ := hp
      exact ⟨hI w' (.refl w'), hfail _⟩

/-- A failure releases the route only where it was acquired. -/
theorem safe_giveBack {acquired : Bool} {failure : String} {Q : Except String α → World → Prop}
    (hclaim : route.ingressId = some claim) (hI : ∀ w', Frame w w' → I w')
    (hreleased : acquired = true → ∀ w', Released w w' (ingress.slots route) claim → Q (.error failure) w')
    (hkept : acquired = false → Q (.error failure) w) :
    Safe (Performs valid) I (ingress.giveBack acquired route failure) Q w := by
  unfold ConfiguredIngress.giveBack
  split
  · rename_i hacquired
    refine Safe.andThen (P := fun r w' => r = .ok () ∧ Released w w' (ingress.slots route) claim) ?_ ?_ ?_
    · refine Safe.orElse (P := fun r w' => r = .ok () ∧ Released w w' (ingress.slots route) claim) ?_ (fun _ _ h => h) ?_
      · exact safe_revoke hclaim hI fun w' h => ⟨rfl, h⟩
      · rintro message w' ⟨h, -⟩
        cases h
    · rintro _ w' ⟨-, h⟩
      exact hreleased hacquired w' h
    · rintro message w' ⟨h, -⟩
      cases h
  · rename_i hacquired
    exact hkept (by simpa using hacquired)

end Release

end Rules

end Dim.ExternalUrls
