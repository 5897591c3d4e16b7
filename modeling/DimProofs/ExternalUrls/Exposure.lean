/-
In every run of the plugin each served authority belongs to a stored route that may be served, where no URL fails its
validation, no two routes of an ingress that requires approval share a claim when routes are reconciled, and no HTTP
ingress is removed that routes are served for. Outside of these conditions it does not: an HTTP ingress leaves its
claims in the registry when it is removed.
-/
import DimProofs.ExternalUrls.Operations

namespace Dim.ExternalUrls

open Effectful Transition

section

variable [Platform] {valid : Prop} {w w' : World}

/-- Where routes are reconciled, those of an ingress that requires approval have claims of their own; and an ingress
that is removed serves no route, unless it closes what it serves. -/
def Careful (w : World) : Operation → Prop
  | .create _ _ | .list _ | .initializeUrls => Unshared w
  | .removeIngress name => Unserved w name
  | _ => True

theorem safe_operation {α : Type} {p : Action α} (h : Safe (Performs valid) Stored p (fun _ w' => Sound valid w') w) :
    Safe (Performs valid) Stored (do let _ ← p; pure ()) (fun _ w' => Sound valid w') w :=
  h.andThen (fun _ _ h => h) fun _ _ h => h

theorem safe_program (h : Sound valid w) {operation : Operation} (hok : valid → Careful w operation) :
    Safe (Performs valid) Stored operation.program (fun _ w' => Sound valid w') w := by
  cases operation with
  | create workspace input => exact safe_operation (safe_createUrl h hok workspace input)
  | list workspace => exact safe_operation (safe_listUrls h hok workspace)
  | delete workspace id => exact safe_operation (safe_deleteUrl h workspace id)
  | removeWorkspace workspaceId => exact safe_removeWorkspaceRoutes h workspaceId
  | approve id =>
    exact safe_operation (safe_transitionRouteApproval h.stored (fun _ => h) fun entry he _ options hoptions =>
      safe_approveRoute h he hoptions)
  | revoke id =>
    exact safe_operation (safe_transitionRouteApproval h.stored (fun _ => h) fun entry he _ options hoptions =>
      safe_revokeRoute h he hoptions)
  | removeIngress name => exact safe_ingressRemove h name hok
  | initializeUrls => exact safe_initializeUrls h hok

/-- A restart serves nothing. -/
theorem Sound.restarted (hs : Stored w) (ingresses : String → Option ExternalUrlIngressOptions) :
    Sound valid (w.restarted ingresses) := by
  refine ⟨hs.of_sublist (List.Sublist.refl _) fun _ h => h, fun _ slot route hroute => ?_⟩
  cases slot <;> cases hroute

theorem Sound.empty (ingresses : String → Option ExternalUrlIngressOptions) : Sound valid (World.empty ingresses) := by
  refine ⟨⟨fun entry he => (by cases he), List.Pairwise.nil⟩, fun _ slot route hroute => ?_⟩
  cases slot <;> cases hroute

/-- One step keeps what holds between two operations. -/
theorem Sound.step {ok : World → Operation → Prop} (hok : ∀ w operation, ok w operation → valid → Careful w operation)
    (h : Sound valid w) (hstep : Step valid ok w w') : Sound valid w' := by
  cases hstep with
  | processed hcareful hr =>
    rename_i operation result
    have hend := ((safe_program h (hok _ _ hcareful)).reaches h.stored hr).2
    cases result <;> exact hend
  | restarted hcareful hr =>
    rename_i ingresses
    exact .restarted ((safe_program h (hok _ _ hcareful)).reaches h.stored hr).1 ingresses

theorem Sound.reachable {ok : World → Operation → Prop} (hok : ∀ w operation, ok w operation → valid → Careful w operation)
    (h : Reachable Initial (Step valid ok) w) : Sound valid w := by
  refine h.invariant ?_ fun w w' hw hstep => hw.step hok hstep
  rintro w ⟨ingresses, rfl⟩
  exact .empty ingresses

/-- What holds of the stored routes in every run. -/
theorem stored_of_reachable (h : Reachable Initial (Step False fun _ _ => True) w) : Stored w :=
  (Sound.reachable (fun _ _ _ hv => hv.elim) h).stored

/-! ## Authorised exposure -/

/-- The stored route may be served with this claim, target and switch: it was not revoked, its target was resolved to
this one in its workspace, and it was approved under the policy of its ingress, where that requires approval. -/
structure Permits (w : World) (claim : Claim) (upstream : ResolvedWorkspaceTarget) (enabled : Bool) (entry : StoredUrl)
    (options : ExternalUrlIngressOptions) : Prop where
  stored : entry ∈ w.files
  active : entry.approval ≠ .revoked
  claim : entry.route.ingressId = some claim
  target : (entry.workspaceId, entry.target, upstream) ∈ w.resolved
  ingress : w.ingresses entry.ingress = some options
  approved : enabled = true → options.approvalRequired = some true →
    entry.approval = .approved ∧ entry.policyRevision = some (ingressPolicyRevision entry.ingress options)

/-- Every claim that the registry or a TCP listener holds, enabled or not, is that of a stored route. -/
structure Authorised (w : World) : Prop where
  registry : ∀ authority route, w.routes authority = some route → ∀ claim enabled, (claim, enabled) ∈ route.claims →
    ∃ entry options, Permits w claim route.upstream enabled entry options ∧ options.scheme ≠ .tcp ∧
      authority ∈ routeAuthorities entry.route
  listener : ∀ name route, w.listeners name = some route →
    ∃ entry options, Permits w route.claim route.upstream route.enabled entry options ∧ options.scheme = .tcp ∧
      entry.ingress = name

omit [Platform] in
theorem Backs.permits {slot : Slot} {claim : Claim} {upstream : ResolvedWorkspaceTarget} {enabled : Bool} {entry : StoredUrl}
    (h : Backs w slot claim upstream enabled entry) : ∃ options, Permits w claim upstream enabled entry options ∧
      slot ∈ ConfiguredIngress.slots { name := entry.ingress, options } entry.route := by
  obtain ⟨options, hoptions, hpolicy, happroved⟩ := h.policy
  refine ⟨options, ⟨h.stored, h.active, h.claim, h.target, hoptions, fun he hr => ⟨happroved he hr, hpolicy⟩⟩, ?_⟩
  exact slots_of_ingress hoptions ▸ h.slot

omit [Platform] in
theorem Held.authorised (h : Held w) : Authorised w where
  registry authority route hroute claim enabled hclaim := by
    obtain ⟨claim', enabled', entry, hclaims, hback⟩ := h (.host authority) route hroute
    rw [hclaims, List.mem_singleton, Prod.mk.injEq] at hclaim
    obtain ⟨rfl, rfl⟩ := hclaim
    obtain ⟨options, hpermits, hslot⟩ := hback.permits
    unfold ConfiguredIngress.slots at hslot
    split at hslot
    · cases List.mem_singleton.mp hslot
    · rename_i hscheme
      obtain ⟨authority', hauthority, heq⟩ := List.mem_map.mp hslot
      cases heq
      exact ⟨entry, options, hpermits, hscheme, hauthority⟩
  listener name route hroute := by
    have hheld : w.holds (.port name) = some { upstream := route.upstream, claims := [(route.claim, route.enabled)] } := by
      simp [World.holds, hroute]
    obtain ⟨claim, enabled, entry, hclaims, hback⟩ := h _ _ hheld
    cases hclaims
    obtain ⟨options, hpermits, hslot⟩ := hback.permits
    unfold ConfiguredIngress.slots at hslot
    split at hslot
    · rename_i hscheme
      exact ⟨entry, options, hpermits, hscheme, (Slot.port.inj (List.mem_singleton.mp hslot)).symm⟩
    · obtain ⟨authority, -, heq⟩ := List.mem_map.mp hslot
      cases heq

/-- In every run whose steps are careful, and whose URLs pass their validation, exposure is authorised. -/
theorem exposure_authorised (h : Reachable Initial (Step True Careful) w) : Authorised w :=
  ((Sound.reachable (fun _ _ hok _ => hok) h).held trivial).authorised

end

/-! ## A controller -/

namespace Sample

variable {valid : Prop} {w : World}

/-- URLs that are well formed. -/
scoped instance : Platform where
  sha256 := fun _ => ""
  parseUrl := fun value => some { protocol := "https:", username := "", password := "", href := value }

/-- An identity that was not drawn. -/
def freshId (drawn : List String) : String := String.ofList ('0' :: drawn.flatMap String.toList)

theorem freshId_fresh (drawn : List String) : freshId drawn ∉ drawn := by
  intro hmem
  have hlength : ∀ id ∈ drawn, id.toList.length ≤ (drawn.flatMap String.toList).length := by
    intro id hid
    obtain ⟨before, after, rfl⟩ := List.append_of_mem hid
    simp only [List.flatMap_append, List.flatMap_cons, List.length_append]
    omega
  have hle := hlength _ hmem
  simp only [freshId, String.toList_ofList, List.length_cons] at hle
  omega

/-- What each call answers where nothing fails. -/
def answer (upstream : ResolvedWorkspaceTarget) : (c : Call) → World → Except String c.Value × World
  | .ingress name, w => (.ok (w.ingresses name), w)
  | .list workspaceId, w => (.ok (w.list workspaceId), w)
  | .listWorkspaces, w => (.ok [], w)
  | .runWorkspaceRequest _, w => (.ok (), w)
  | .put entry, w => (.ok (), w.put entry)
  | .remove entry, w => (.ok (), w.remove entry)
  | .removeIngress ingress, w => (.ok (), w.removeIngress ingress fun _ => false)
  | .resolveTarget workspace target _, w =>
    let upstream := { upstream with protocol := target.protocol }
    (.ok upstream, w.resolve workspace.id target upstream)
  | .callWebhook _ _ _ requestedSubdomain _, w => (.ok requestedSubdomain, w)
  | .validateExternalUrl value, w => (validateExternalUrl value, w)
  | .randomUUID, w => (.ok (freshId w.drawn), w.draw (freshId w.drawn))
  | .provision authorities claim upstream enabled, w =>
    match w.routes.provision authorities claim upstream enabled with
    | .ok (acquired, routes) => (.ok acquired, { w with routes })
    | .error message => (.error message, w)
  | .revoke authorities claim, w => (.ok (), { w with routes := w.routes.revoke authorities claim })
  | .setApproval authorities claim enabled, w =>
    match w.routes.setApproval authorities claim enabled with
    | .ok routes => (.ok (), { w with routes })
    | .error message => (.error message, w)
  | .tcpProvision name claim upstream enabled, w =>
    match TcpRoute.provision (w.listeners name) name claim upstream enabled with
    | .ok (acquired, route) => (.ok acquired, w.setListener name route)
    | .error message => (.error message, w)
  | .tcpRevoke name ingressId, w => (.ok (), w.setListener name (TcpRoute.revoke (w.listeners name) ingressId))
  | .tcpSetApproval name ingressId enabled, w =>
    match TcpRoute.setApproval (w.listeners name) ingressId enabled with
    | .ok route => (.ok (), w.setListener name route)
    | .error message => (.error message, w)
  | .close ingress, w => (.ok (), w.closeListener ingress)
  | .deleteIngress name, w => (.ok (), w.deleteIngress name)
  | .readExternalUrlConfig _, w => (.ok true, w)
  | .releaseIngress _, w => (.ok (), w)
  | .writeExternalUrlConfig, w => (.ok (), w)

theorem performs_answer (upstream : ResolvedWorkspaceTarget) (c : Call) (w : World) :
    Performs valid c w (answer upstream c w).1 (answer upstream c w).2 := by
  cases c with
  | ingress | revoke | tcpRevoke | close | deleteIngress => exact ⟨rfl, rfl⟩
  | list | listWorkspaces | runWorkspaceRequest | put | remove | callWebhook | readExternalUrlConfig | releaseIngress
  | writeExternalUrlConfig => exact .inl ⟨rfl, rfl⟩
  | removeIngress => exact .inl ⟨rfl, rfl⟩
  | resolveTarget workspace target => exact .inl ⟨_, rfl, rfl, rfl⟩
  | validateExternalUrl value => exact ⟨rfl, rfl,
      fun _ => by simp [answer, validateExternalUrl, Platform.parseUrl, Except.isOk, Except.toBool]⟩
  | randomUUID => exact ⟨_, freshId_fresh w.drawn, rfl, rfl⟩
  | provision authorities claim upstream enabled =>
    simp only [Performs, answer]
    split <;> simp_all
  | setApproval authorities claim enabled =>
    simp only [Performs, answer]
    split <;> simp_all
  | tcpProvision name claim upstream enabled =>
    simp only [Performs, answer]
    split <;> simp_all
  | tcpSetApproval name ingressId enabled =>
    simp only [Performs, answer]
    split <;> simp_all

def web : ExternalUrlIngressOptions :=
  { scheme := .https, domain := "d", port := none, listenHost := "h", listenPort := 1, upstreamMode := none,
    routePolicy := some (.webhook "u"), approvalRequired := none, approvalExposure := none }

/-- Two ingresses of one domain. -/
def ingresses : String → Option ExternalUrlIngressOptions := fun name => if name = "i" ∨ name = "j" then some web else none

def container : ResolvedWorkspaceTarget := { protocol := .http, host := "c", port := 80, fingerprint := "f" }

def request (subdomain : String) (path : Option String) : CreateRequest :=
  { ingress := "i", subdomain := some subdomain, target := { containers := none, port := 80, protocol := none }, path }

/-- The world after an operation in which nothing fails. -/
def after (operation : Operation) (w : World) : World := (operation.program.exec (answer container) w).2

theorem reachable_after {ok : World → Operation → Prop} (operation : Operation) (hok : ok w operation)
    (h : Reachable Initial (Step valid ok) w) : Reachable Initial (Step valid ok) (after operation w) :=
  h.step (.processed hok (reaches_exec (performs_answer container) operation.program w))

/-- A route was created through the first ingress. -/
def creation : Operation := .create { id := "w", name := "w" } (request "a" none)

end Sample

open Sample in
theorem exposure_authorised_created :
    ((after creation (World.empty ingresses)).routes "a.d").isSome = true ∧
      Authorised (after creation (World.empty ingresses)) := by
  have hok : Careful (World.empty ingresses) creation := fun _ h => by cases h
  refine ⟨by decide +kernel, ?_⟩
  exact exposure_authorised (reachable_after creation hok (.init ⟨ingresses, rfl⟩))

open Sample in
/-- After the ingress of a route is removed, the registry still holds its claim, of which no entry is stored. -/
theorem exposure_unauthorised : ¬ ∀ w, Reachable Initial (Step False fun _ _ => True) w → Authorised w := by
  intro hall
  have h := hall _ (reachable_after (.removeIngress "i") trivial (reachable_after creation trivial (.init ⟨ingresses, rfl⟩)))
  obtain ⟨hserved, hfiles⟩ : ((after (.removeIngress "i") (after creation (World.empty ingresses))).routes "a.d").any
      (fun route => route.claims.length = 1) = true ∧
      (after (.removeIngress "i") (after creation (World.empty ingresses))).files = [] := by decide +kernel
  obtain ⟨route, hroute, hone⟩ := (Option.any_eq_true _ _).mp hserved
  obtain ⟨⟨claim, enabled⟩, hclaims⟩ := List.length_eq_one_iff.mp (of_decide_eq_true hone)
  obtain ⟨entry, options, hpermits, -⟩ := h.registry "a.d" route hroute claim enabled (hclaims ▸ List.mem_singleton_self _)
  have hstored := hpermits.stored
  rw [hfiles] at hstored
  cases hstored

end Dim.ExternalUrls
