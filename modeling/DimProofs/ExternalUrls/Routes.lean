/-
The data of the external URL plugin: the routes it stores, the registry that its HTTP listeners share and the
one route of a TCP listener. Both keep, for what they serve, the target and the claims on it; a claim is the
text that owns a route. What is hashed stands for its digest. Connections, flows and display fields are left
out.
-/
import DimProofs.Lib.Json
import DimProofs.Lib.Pattern

namespace Dim.ExternalUrls

inductive Scheme where
  | http | https | tcp
deriving DecidableEq

def Scheme.text : Scheme → String
  | .http => "http"
  | .https => "https"
  | .tcp => "tcp"

inductive UpstreamMode where
  | containerDns | containerIp
deriving DecidableEq

structure ControllerWorkspace where
  (id name : String)

structure WorkspaceTarget where
  containers : List String
  port : Nat
  protocol : Scheme
deriving DecidableEq

structure ResolvedWorkspaceTarget where
  protocol : Scheme
  host : String
  port : Nat
  fingerprint : String

/-! ## Ingresses -/

inductive RoutePolicy where
  | workspacePrefix
  | webhook (argument : String)
deriving DecidableEq

structure ApprovalExposure where
  listenHost : String
  listenPort : Nat

structure ExternalUrlIngressOptions where
  scheme : Scheme
  domain : String
  port : Option Nat
  listenHost : String
  listenPort : Nat
  upstreamMode : Option UpstreamMode
  routePolicy : Option RoutePolicy
  approvalRequired : Option Bool
  approvalExposure : Option ApprovalExposure

/-- `value.toLowerCase().replace(/^\.+|\.+$/g, "")`. -/
def normalizeDomain (value : String) : String :=
  let lowered := (value.toList.map Char.toLower).dropWhile (· = '.')
  String.ofList (lowered.reverse.dropWhile (· = '.')).reverse

/-- What the policy revision of an ingress digests. -/
structure PolicyRevision where
  name : String
  scheme : Scheme
  domain : String
  port : Option Nat
  listenHost : String
  listenPort : Nat
  upstreamMode : UpstreamMode
  routePolicy : RoutePolicy
  approvalRequired : Bool
deriving DecidableEq

def ingressPolicyRevision (name : String) (ingress : ExternalUrlIngressOptions) : PolicyRevision :=
  let exposure := ingress.approvalExposure.getD ⟨ingress.listenHost, ingress.listenPort⟩
  { name
    scheme := ingress.scheme
    domain := normalizeDomain ingress.domain
    port := ingress.port
    listenHost := exposure.listenHost
    listenPort := exposure.listenPort
    upstreamMode := ingress.upstreamMode.getD .containerIp
    routePolicy := ingress.routePolicy.getD .workspacePrefix
    approvalRequired := ingress.approvalRequired == some true }

structure ConfiguredIngress where
  name : String
  options : ExternalUrlIngressOptions

namespace ConfiguredIngress

def policyRevision (ingress : ConfiguredIngress) : PolicyRevision := ingressPolicyRevision ingress.name ingress.options

def upstreamMode (ingress : ConfiguredIngress) : UpstreamMode := ingress.options.upstreamMode.getD .containerIp

def approvalRequired (ingress : ConfiguredIngress) : Bool := ingress.options.approvalRequired == some true

end ConfiguredIngress

/-! ## Stored routes -/

inductive ExternalUrlApproval where
  | notRequired | pending | approved | revoked
deriving DecidableEq

def ExternalUrlApproval.text : ExternalUrlApproval → String
  | .notRequired => "not-required"
  | .pending => "pending"
  | .approved => "approved"
  | .revoked => "revoked"

/-- `approval === "not-required" || approval === "approved"`. -/
def ExternalUrlApproval.enabled : ExternalUrlApproval → Bool
  | .notRequired | .approved => true
  | .pending | .revoked => false

structure NormalizedRequest where
  ingress : String
  subdomain : Option String
  target : WorkspaceTarget
  path : Option String
deriving DecidableEq

/-- The texts that own routes: the parts of a request joined by NUL, which none of them contains, the identity
of an entry, or an authority. No text is of two of these kinds. -/
inductive Claim where
  | request (workspaceId ingress : String) (subdomain : Option String) (target : WorkspaceTarget)
  | identity (id : String)
  | authority (name : String)
deriving DecidableEq

def WorkspaceTarget.json (target : WorkspaceTarget) : String :=
  Json.object [("containers", Json.array (target.containers.map Json.string)), ("port", toString target.port),
    ("protocol", Json.string target.protocol.text)]

def Claim.text : Claim → String
  | .request workspaceId ingress subdomain target =>
    String.intercalate "\x00" [workspaceId, ingress, subdomain.getD "", target.json]
  | .identity id => id
  | .authority name => name

structure ExternalRoute where
  id : Claim
  (ingress authority : String)
  permalinkAuthority : Option String
  ingressId : Option Claim
  (url permalink : Option String)

structure StoredUrl where
  (id workspace workspaceId ingress : String)
  subdomain : Option String
  target : WorkspaceTarget
  path : Option String
  route : ExternalRoute
  url : String
  permalink : Option String
  approval : ExternalUrlApproval
  policyRevision : Option PolicyRevision

def storedRequest (entry : StoredUrl) : NormalizedRequest :=
  { ingress := entry.ingress, subdomain := entry.subdomain, target := entry.target, path := entry.path }

def routeClaim (workspace : ControllerWorkspace) (request : NormalizedRequest) : Claim :=
  .request workspace.id request.ingress request.subdomain request.target

/-- The entries of a map from route identities: the last entry of one stands where its first one stood. -/
def deduplicateRoutes (entries : List StoredUrl) : List StoredUrl :=
  entries.foldl (fun kept entry =>
    if kept.any (·.route.id = entry.route.id) then kept.map fun k => if k.route.id = entry.route.id then entry else k
    else kept ++ [entry]) []

/-! ## Names -/

/-- `workspaceName.toLowerCase().replace(/[^a-z0-9-]/g, "-").replace(/^-+|-+$/g, "") || "workspace"`. -/
def normalizedName (workspaceName : String) : List Char :=
  let replaced := workspaceName.toList.map fun c =>
    if Pattern.lower c.toLower || Pattern.digit c.toLower then c.toLower else '-'
  let trimmed := ((replaced.dropWhile (· = '-')).reverse.dropWhile (· = '-')).reverse
  if trimmed = [] then "workspace".toList else trimmed

def stableHash (value : String) : UInt32 :=
  value.toUTF8.toList.foldl (fun hash byte => (hash ^^^ byte.toUInt32) * 0x01000193) 0x811c9dc5

def workspaceSubdomainPrefix (workspaceName : String) : String :=
  let normalized := normalizedName workspaceName
  if normalized.length ≤ 50 then String.ofList normalized ++ "--"
  else
    let digits := Nat.toDigits 16 (stableHash (String.ofList normalized)).toNat
    String.ofList (normalized.take 41 ++ '-' :: (List.replicate (8 - digits.length) '0' ++ digits)) ++ "--"

def workspacePermalinkSubdomain (workspaceName routeId : String) : String :=
  String.ofList ((normalizedName workspaceName).take 16) ++ "-permalink-" ++ routeId

/-- `/^[a-z0-9](?:[a-z0-9-]*[a-z0-9])?$/`, of at most 63 characters. -/
def dnsLabel (label : List Char) : Bool :=
  let edge := fun c => Pattern.lower c || Pattern.digit c
  label.length ≤ 63 && label.all (fun c => edge c || c = '-') && label.head?.any edge && label.getLast?.any edge

def validateSubdomain (value : String) : Except String Unit :=
  let chars := value.toList
  if chars = [] || decide (253 < chars.length) || !(chars.splitOn '.').all dnsLabel then
    .error "subdomain must be a lowercase relative DNS name"
  else .ok ()

/-! ## The registry of HTTP routes -/

section Update

variable {α β : Type} [DecidableEq α]

/-- One change made at each of some places; a place that is named twice is changed once. -/
theorem foldl_update {f : β → β} (hf : ∀ x, f (f x) = f x) : ∀ (places : List α) (m : α → β) (a : α),
    places.foldl (fun m a => Function.update m a (f (m a))) m a = if a ∈ places then f (m a) else m a
  | [], _, _ => by simp
  | place :: places, m, a => by
    rw [List.foldl_cons, foldl_update hf places]
    by_cases ha : a = place
    · subst ha
      simp [hf]
    · simp [ha]

end Update

/-- A served target and the claims on it, each enabled or not. -/
structure RegisteredRoute where
  upstream : ResolvedWorkspaceTarget
  claims : List (Claim × Bool)

/-- `claims.set(claim, enabled)`. -/
def setClaim (claims : List (Claim × Bool)) (claim : Claim) (enabled : Bool) : List (Claim × Bool) :=
  if claims.any (·.1 = claim) then claims.map fun c => if c.1 = claim then (claim, enabled) else c
  else claims ++ [(claim, enabled)]

@[simp] theorem setClaim_singleton (claim : Claim) (enabled enabled' : Bool) :
    setClaim [(claim, enabled)] claim enabled' = [(claim, enabled')] := by simp [setClaim]

theorem setClaim_setClaim (claims : List (Claim × Bool)) (claim : Claim) (enabled : Bool) :
    setClaim (setClaim claims claim enabled) claim enabled = setClaim claims claim enabled := by
  have hmem : (setClaim claims claim enabled).any (·.1 = claim) = true := by
    unfold setClaim
    split
    · rename_i h
      obtain ⟨c, hc, he⟩ := List.any_eq_true.mp h
      refine List.any_eq_true.mpr ⟨(claim, enabled), List.mem_map.mpr ⟨c, hc, ?_⟩, by simp⟩
      rw [if_pos (of_decide_eq_true he)]
    · simp
  conv_lhs => rw [setClaim, if_pos hmem]
  refine List.map_congr_left (g := id) ?_ |>.trans (List.map_id _)
  intro c hc
  unfold setClaim at hc
  split at hc
  · obtain ⟨d, -, rfl⟩ := List.mem_map.mp hc
    by_cases hd : d.1 = claim <;> simp [hd]
  · rename_i h
    have hne : ∀ d ∈ claims, d.1 ≠ claim := fun d hd he => h (List.any_eq_true.mpr ⟨d, hd, decide_eq_true he⟩)
    rcases List.mem_append.mp hc with hc | hc
    · simp [hne c hc]
    · simp [List.mem_singleton.mp hc]

namespace RegisteredRoute

def has (route : RegisteredRoute) (claim : Claim) : Bool := route.claims.any (·.1 = claim)

def rebind (route : RegisteredRoute) (claim : Claim) (upstream : ResolvedWorkspaceTarget) (enabled : Bool) :
    RegisteredRoute :=
  { upstream, claims := setClaim route.claims claim enabled }

/-- The first claim on a place, or one more of its owner. -/
def claimed (existing : Option RegisteredRoute) (claim : Claim) (upstream : ResolvedWorkspaceTarget) (enabled : Bool) :
    RegisteredRoute :=
  match existing with
  | none => { upstream, claims := [(claim, enabled)] }
  | some route => route.rebind claim upstream enabled

theorem claimed_claimed (existing : Option RegisteredRoute) (claim : Claim) (upstream : ResolvedWorkspaceTarget)
    (enabled : Bool) :
    claimed (some (claimed existing claim upstream enabled)) claim upstream enabled =
      claimed existing claim upstream enabled := by
  cases existing <;> simp [claimed, rebind, setClaim_setClaim]

/-- Another route than that of the claim. -/
def conflicts (route : RegisteredRoute) (claim : Claim) : Bool := route.claims.length ≠ 1 || !route.has claim

theorem claims_of_conflicts {route : RegisteredRoute} {claim : Claim} (h : route.conflicts claim = false) :
    ∃ enabled, route.claims = [(claim, enabled)] := by
  obtain ⟨upstream, claims⟩ := route
  simp only [conflicts, has, Bool.or_eq_false_iff, decide_eq_false_iff_not, Bool.not_eq_false', not_not] at h
  obtain ⟨hlength, hhas⟩ := h
  obtain ⟨⟨c, enabled⟩, rfl⟩ := List.length_eq_one_iff.mp hlength
  have hc : c = claim := by simpa using hhas
  exact ⟨enabled, by rw [hc]⟩

/-- What is left of a route without a claim. -/
def without (route : RegisteredRoute) (claim : Claim) : Option RegisteredRoute :=
  let claims := route.claims.filter (·.1 ≠ claim)
  if claims = [] then none else some { route with claims }

theorem without_self {route : RegisteredRoute} {claim : Claim} {enabled : Bool} (h : route.claims = [(claim, enabled)]) :
    route.without claim = none := by simp [without, h]

theorem without_of_ne {route : RegisteredRoute} {claim claim' : Claim} {enabled : Bool}
    (h : route.claims = [(claim', enabled)]) (hne : claim' ≠ claim) : route.without claim = some route := by
  obtain ⟨upstream, claims⟩ := route
  obtain rfl : claims = [(claim', enabled)] := h
  simp [without, hne]

theorem without_without (route : Option RegisteredRoute) (claim : Claim) :
    (route.bind (·.without claim)).bind (·.without claim) = route.bind (·.without claim) := by
  cases route with
  | none => rfl
  | some route =>
    simp only [Option.bind_some, without]
    split
    · rfl
    · rename_i h
      simp only [Option.bind_some, List.filter_filter, Bool.and_self, if_neg h]

end RegisteredRoute

/-- The routes of `WorkspaceRouteRegistry` by their authority. -/
abbrev WorkspaceRouteRegistry : Type := String → Option RegisteredRoute

namespace WorkspaceRouteRegistry

/-- Whether a route was acquired, and the routes then. -/
def provision (routes : WorkspaceRouteRegistry) (authorities : List String) (claim : Claim)
    (upstream : ResolvedWorkspaceTarget) (enabled : Bool) : Except String (Bool × WorkspaceRouteRegistry) :=
  let authorities := authorities.eraseDups
  if authorities = [] then .error "external route requires at least one authority"
  else match authorities.find? fun authority => (routes authority).any (·.conflicts claim) with
    | some authority => .error s!"external route '{authority}' already belongs to another route"
    | none => .ok (authorities.any fun authority => (routes authority).isNone,
        authorities.foldl (fun routes authority => Function.update routes authority
          (some (RegisteredRoute.claimed (routes authority) claim upstream enabled))) routes)

def revoke (routes : WorkspaceRouteRegistry) (authorities : List String) (claim : Claim) : WorkspaceRouteRegistry :=
  authorities.foldl (fun routes authority =>
    Function.update routes authority ((routes authority).bind (·.without claim))) routes

def setApproval (routes : WorkspaceRouteRegistry) (authorities : List String) (claim : Claim) (enabled : Bool) :
    Except String WorkspaceRouteRegistry :=
  if authorities.any fun authority => !(routes authority).any (·.has claim) then .error "external URL route is not active"
  else .ok <| authorities.foldl (fun routes authority =>
    Function.update routes authority ((routes authority).map fun route =>
      { route with claims := setClaim route.claims claim enabled })) routes

end WorkspaceRouteRegistry

def routeAuthorities (route : ExternalRoute) : List String := route.authority :: route.permalinkAuthority.toList

/-! ## The route of a TCP listener -/

structure TcpRoute where
  claim : Claim
  upstream : ResolvedWorkspaceTarget
  enabled : Bool

namespace TcpRoute

/-- Whether the listener's route was acquired, and the route then. -/
def provision (route : Option TcpRoute) (name : String) (claim : Claim) (upstream : ResolvedWorkspaceTarget)
    (enabled : Bool) : Except String (Bool × Option TcpRoute) :=
  if route.any (·.claim ≠ claim) then .error s!"TCP ingress '{name}' already targets another service"
  else .ok (route.isNone, some { claim, upstream, enabled })

def revoke (route : Option TcpRoute) (ingressId : Option Claim) : Option TcpRoute :=
  if route.map (·.claim) = ingressId then none else route

def setApproval (route : Option TcpRoute) (ingressId : Option Claim) (enabled : Bool) : Except String (Option TcpRoute) :=
  if route.map (·.claim) ≠ ingressId then .error "external URL route is not active"
  else .ok (route.map fun route => { route with enabled })

end TcpRoute

end Dim.ExternalUrls
