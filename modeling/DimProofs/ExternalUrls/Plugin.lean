/-
The operations of the external URL plugin, one after another as its mutation queue runs them. Files, the route
policy webhook and the resolution of a target may fail at any call; the registry, the TCP listeners and the map
of ingresses are the process's memory, which a restart clears. The world also remembers the identities that were
drawn and the targets that were resolved. The parse of a request's JSON is left out.
-/
import DimProofs.Lib.Calls
import DimProofs.Lib.Run
import DimProofs.ExternalUrls.Routes

namespace Dim.ExternalUrls

open Effectful

/-- What `new URL(value)` finds in a text. -/
structure Url where
  (protocol username password href : String)

/-- The functions of the platform that the plugin calls: SHA-256 in hexadecimal digits, and the URL parser. -/
class Platform where
  sha256 : String → String
  parseUrl : String → Option Url

section Texts

variable [Platform]

def workspaceServiceSubdomain (workspaceName serviceName : String) : String :=
  let identity := (Platform.sha256 workspaceName).toList.take 16
  let suffix := '-' :: identity ++ "--".toList ++ serviceName.toList
  let workspace := (((normalizedName workspaceName).take (63 - suffix.length)).reverse.dropWhile (· = '-')).reverse
  String.ofList ((if workspace = [] then "workspace".toList else workspace) ++ suffix)

def validateExternalUrl (value : String) : Except String String :=
  match Platform.parseUrl value with
  | none => .error "Invalid URL"
  | some url =>
    if url.protocol ≠ "http:" ∧ url.protocol ≠ "https:" then .error "provider returned a non-HTTP URL"
    else if url.username ≠ "" ∨ url.password ≠ "" then .error "provider returned a URL containing credentials"
    else .ok url.href

end Texts

/-! ## The world -/

structure World where
  /-- The entries in the files of the store. -/
  files : List StoredUrl
  drawn : List String
  /-- The workspace, the target and the answer of each resolution. -/
  resolved : List (String × WorkspaceTarget × ResolvedWorkspaceTarget)
  ingresses : String → Option ExternalUrlIngressOptions
  routes : WorkspaceRouteRegistry
  listeners : String → Option TcpRoute

namespace World

def empty (ingresses : String → Option ExternalUrlIngressOptions) : World :=
  { files := [], drawn := [], resolved := [], ingresses, routes := fun _ => none, listeners := fun _ => none }

/-- The entries of a workspace in the order of their file names. -/
def list (w : World) (workspaceId : String) : List StoredUrl :=
  (w.files.filter (·.workspaceId = workspaceId)).insertionSort fun left right => left.id ≤ right.id

/-- The file of an entry. -/
def sameFile (entry other : StoredUrl) : Bool := other.workspaceId = entry.workspaceId && other.id = entry.id

def remove (w : World) (entry : StoredUrl) : World := { w with files := w.files.filter fun f => !sameFile entry f }

def put (w : World) (entry : StoredUrl) : World := { w with files := entry :: (w.remove entry).files }

/-- The entries of an ingress are removed, except those `kept`. -/
def removeIngress (w : World) (ingress : String) (kept : StoredUrl → Bool) : World :=
  { w with files := w.files.filter fun f => f.ingress ≠ ingress || kept f }

def draw (w : World) (id : String) : World := { w with drawn := id :: w.drawn }

def resolve (w : World) (workspaceId : String) (target : WorkspaceTarget) (upstream : ResolvedWorkspaceTarget) : World :=
  { w with resolved := (workspaceId, target, upstream) :: w.resolved }

def deleteIngress (w : World) (name : String) : World := { w with ingresses := Function.update w.ingresses name none }

def setListener (w : World) (name : String) (route : Option TcpRoute) : World :=
  { w with listeners := Function.update w.listeners name route }

def closeListener (w : World) (ingress : ConfiguredIngress) : World :=
  if ingress.options.scheme = .tcp then w.setListener ingress.name none else w

/-- The controller has stopped, and starts with these ingresses. -/
def restarted (w : World) (ingresses : String → Option ExternalUrlIngressOptions) : World :=
  { w with ingresses, routes := fun _ => none, listeners := fun _ => none }

end World

/-! ## Calls -/

inductive Call where
  | ingress (name : String)
  | list (workspaceId : String)
  | listWorkspaces
  | runWorkspaceRequest (workspace : ControllerWorkspace)
  | put (entry : StoredUrl)
  | remove (entry : StoredUrl)
  | removeIngress (ingress : String)
  | resolveTarget (workspace : ControllerWorkspace) (target : WorkspaceTarget) (mode : UpstreamMode)
  | callWebhook (argument : String) (workspace : ControllerWorkspace) (ingress requestedSubdomain domain : String)
  | validateExternalUrl (value : String)
  | randomUUID
  | provision (authorities : List String) (claim : Claim) (upstream : ResolvedWorkspaceTarget) (enabled : Bool)
  | revoke (authorities : List String) (claim : Claim)
  | setApproval (authorities : List String) (claim : Claim) (enabled : Bool)
  | tcpProvision (name : String) (claim : Claim) (upstream : ResolvedWorkspaceTarget) (enabled : Bool)
  | tcpRevoke (name : String) (ingressId : Option Claim)
  | tcpSetApproval (name : String) (ingressId : Option Claim) (enabled : Bool)
  | close (ingress : ConfiguredIngress)
  | deleteIngress (name : String)
  | readExternalUrlConfig (ingress : String)
  /-- The removal of the ingress's DNS record and of its managed Caddy. -/
  | releaseIngress (ingress : String)
  | writeExternalUrlConfig

/-- What a call answers with. -/
@[reducible] def Call.Value : Call → Type
  | .ingress _ => Option ExternalUrlIngressOptions
  | .list _ => List StoredUrl
  | .listWorkspaces => List ControllerWorkspace
  | .resolveTarget _ _ _ => ResolvedWorkspaceTarget
  | .callWebhook _ _ _ _ _ | .validateExternalUrl _ | .randomUUID => String
  | .provision _ _ _ _ | .tcpProvision _ _ _ _ | .readExternalUrlConfig _ => Bool
  | _ => Unit

/-- A call that may fail, and then changes nothing. -/
def Fallible {α : Type} (w : World) (answer : Except String α) (w' : World) (done : Prop) : Prop :=
  done ∨ ((∃ message, answer = .error message) ∧ w' = w)

section Performs

variable [Platform]

/-- What a call answers and does. Where `valid`, every URL passes its validation. -/
def Performs (valid : Prop) : (c : Call) → World → Except String c.Value → World → Prop
  | .ingress name, w, a, w' => a = .ok (w.ingresses name) ∧ w' = w
  | .list workspaceId, w, a, w' => Fallible w a w' (a = .ok (w.list workspaceId) ∧ w' = w)
  | .listWorkspaces, w, a, w' => Fallible w a w' (a.isOk = true ∧ w' = w)
  | .runWorkspaceRequest _, w, a, w' => Fallible w a w' (a = .ok () ∧ w' = w)
  | .put entry, w, a, w' => Fallible w a w' (a = .ok () ∧ w' = w.put entry)
  | .remove entry, w, a, w' => Fallible w a w' (a = .ok () ∧ w' = w.remove entry)
  | .removeIngress ingress, w, a, w' =>
      (a = .ok () ∧ w' = w.removeIngress ingress fun _ => false) ∨
      ((∃ message, a = .error message) ∧ ∃ kept, w' = w.removeIngress ingress kept)
  | .resolveTarget workspace target _, w, a, w' =>
      Fallible w a w' (∃ upstream, upstream.protocol = target.protocol ∧ a = .ok upstream ∧
        w' = w.resolve workspace.id target upstream)
  | .callWebhook _ _ _ _ _, w, a, w' => Fallible w a w' (a.isOk = true ∧ w' = w)
  | .validateExternalUrl value, w, a, w' => a = validateExternalUrl value ∧ w' = w ∧ (valid → a.isOk = true)
  | .randomUUID, w, a, w' => ∃ id, id ∉ w.drawn ∧ a = .ok id ∧ w' = w.draw id
  | .provision authorities claim upstream enabled, w, a, w' =>
      match w.routes.provision authorities claim upstream enabled with
      | .ok (acquired, routes) => a = .ok acquired ∧ w' = { w with routes }
      | .error message => a = .error message ∧ w' = w
  | .revoke authorities claim, w, a, w' => a = .ok () ∧ w' = { w with routes := w.routes.revoke authorities claim }
  | .setApproval authorities claim enabled, w, a, w' =>
      match w.routes.setApproval authorities claim enabled with
      | .ok routes => a = .ok () ∧ w' = { w with routes }
      | .error message => a = .error message ∧ w' = w
  | .tcpProvision name claim upstream enabled, w, a, w' =>
      match TcpRoute.provision (w.listeners name) name claim upstream enabled with
      | .ok (acquired, route) => a = .ok acquired ∧ w' = w.setListener name route
      | .error message => a = .error message ∧ w' = w
  | .tcpRevoke name ingressId, w, a, w' => a = .ok () ∧ w' = w.setListener name
      (TcpRoute.revoke (w.listeners name) ingressId)
  | .tcpSetApproval name ingressId enabled, w, a, w' =>
      match TcpRoute.setApproval (w.listeners name) ingressId enabled with
      | .ok route => a = .ok () ∧ w' = w.setListener name route
      | .error message => a = .error message ∧ w' = w
  | .close ingress, w, a, w' => a = .ok () ∧ w' = w.closeListener ingress
  | .deleteIngress name, w, a, w' => a = .ok () ∧ w' = w.deleteIngress name
  | .readExternalUrlConfig _, w, a, w' => Fallible w a w' (a.isOk = true ∧ w' = w)
  | .releaseIngress _, w, a, w' => Fallible w a w' (a = .ok () ∧ w' = w)
  | .writeExternalUrlConfig, w, a, w' => Fallible w a w' (a = .ok () ∧ w' = w)

end Performs

abbrev Action (α : Type) : Type := Program Call (fun c => Except String c.Value) String α

def ofExcept {α : Type} : Except String α → Action α
  | .ok value => .done value
  | .error message => .fail message

def ask (c : Call) : Action c.Value := call c

/-- `required(ingresses, name)`. -/
def required (name : String) : Action ConfiguredIngress := do
  match ← ask (.ingress name) with
  | some options => pure { name, options }
  | none => throw s!"external URL ingress '{name}' is not configured"

/-! ## The listeners -/

section Operations

variable [Platform]

/-- The policy that a subdomain belongs to its workspace. -/
def workspacePrefixPolicy (workspace : ControllerWorkspace) (requestedSubdomain : String) : Except String String :=
  let workspacePrefix := workspaceSubdomainPrefix workspace.name
  let opencodeSubdomain := workspaceServiceSubdomain workspace.name "opencode"
  if workspacePrefix.toList.isPrefixOf requestedSubdomain.toList || requestedSubdomain = opencodeSubdomain then
    .ok requestedSubdomain
  else .error s!"subdomain '{requestedSubdomain}' must start with '{workspacePrefix}' or equal '{opencodeSubdomain}'"

def applyRoutePolicy (ingress : ConfiguredIngress) (workspace : ControllerWorkspace) (requestedSubdomain : String) :
    Action String :=
  match ingress.options.routePolicy.getD .workspacePrefix with
  | .workspacePrefix => ofExcept (workspacePrefixPolicy workspace requestedSubdomain)
  | .webhook argument =>
    ask (.callWebhook argument workspace ingress.name requestedSubdomain (normalizeDomain ingress.options.domain))

namespace ConfiguredIngress

/-- The URL of a path at an authority. -/
def externalUrl (ingress : ConfiguredIngress) (authority : String) (path : Option String) : String :=
  let port := (ingress.options.port.map fun port => ":" ++ toString port).getD ""
  ingress.options.scheme.text ++ "://" ++ authority ++ port ++ path.getD "/"

def permalinkAuthority (ingress : ConfiguredIngress) (workspace : ControllerWorkspace) (publicRouteId : String) : String :=
  workspacePermalinkSubdomain workspace.name publicRouteId ++ "." ++ normalizeDomain ingress.options.domain

def validatePermalink (ingress : ConfiguredIngress) (path : Option String) : Option String → Action (Option String)
  | none => pure none
  | some authority => some <$> ask (.validateExternalUrl (ingress.externalUrl authority path))

/-- The route of authorities that the registry holds for a claim. -/
def httpRoute (ingress : ConfiguredIngress) (path : Option String) (authority : String) (permalinkAuthority : Option String)
    (claim : Claim) (acquired : Bool) : Action (Bool × ExternalRoute) := do
  let url ← ask (.validateExternalUrl (ingress.externalUrl authority path))
  let permalink ← ingress.validatePermalink path permalinkAuthority
  let id ← ask .randomUUID
  pure (acquired, { id := .identity id, ingress := ingress.name, authority, permalinkAuthority,
                    ingressId := some claim, url := some url, permalink })

/-- `WorkspaceIngressListener.provision`. -/
def httpProvision (ingress : ConfiguredIngress) (workspace : ControllerWorkspace) (request : NormalizedRequest)
    (upstream : ResolvedWorkspaceTarget) (claim : Claim) (approval : ExternalUrlApproval) (publicRouteId : Option String) :
    Action (Bool × ExternalRoute) :=
  match request.subdomain with
  | none => throw "HTTP ingress requests require a subdomain"
  | some requestedSubdomain => do
    let subdomain ← applyRoutePolicy ingress workspace requestedSubdomain
    ofExcept (validateSubdomain subdomain)
    let authority := subdomain ++ "." ++ normalizeDomain ingress.options.domain
    let permalinkAuthority := publicRouteId.map (ingress.permalinkAuthority workspace)
    let acquired ← ask (.provision (authority :: permalinkAuthority.toList) claim upstream approval.enabled)
    ingress.httpRoute request.path authority permalinkAuthority claim acquired

def tcpAuthority (ingress : ConfiguredIngress) : String :=
  ingress.options.domain ++ ":" ++ toString ingress.options.listenPort

/-- `TcpIngressListener.provision`. -/
def tcpProvision (ingress : ConfiguredIngress) (request : NormalizedRequest) (upstream : ResolvedWorkspaceTarget)
    (claim : Claim) (approval : ExternalUrlApproval) : Action (Bool × ExternalRoute) :=
  if request.path.isSome then throw "TCP ingress requests do not accept a URL path"
  else if request.target.protocol ≠ .tcp ∨ upstream.protocol ≠ .tcp then
    throw "TCP ingresses require target.protocol 'tcp'"
  else do
    let acquired ← ask (.tcpProvision ingress.name claim upstream approval.enabled)
    pure (acquired, { id := claim, ingress := ingress.name, authority := ingress.tcpAuthority, permalinkAuthority := none,
                      ingressId := some claim, url := some ("tcp://" ++ ingress.tcpAuthority), permalink := none })

def provision (ingress : ConfiguredIngress) (workspace : ControllerWorkspace) (request : NormalizedRequest)
    (upstream : ResolvedWorkspaceTarget) (claim : Claim) (approval : ExternalUrlApproval) (publicRouteId : Option String) :
    Action (Bool × ExternalRoute) :=
  if ingress.options.scheme = .tcp then ingress.tcpProvision request upstream claim approval
  else ingress.httpProvision workspace request upstream claim approval publicRouteId

def revoke (ingress : ConfiguredIngress) (route : ExternalRoute) : Action Unit :=
  if ingress.options.scheme = .tcp then ask (.tcpRevoke ingress.name route.ingressId)
  else ask (.revoke (routeAuthorities route) (route.ingressId.getD (.authority route.authority)))

def setApproval (ingress : ConfiguredIngress) (route : ExternalRoute) (enabled : Bool) : Action Unit :=
  if ingress.options.scheme = .tcp then ask (.tcpSetApproval ingress.name route.ingressId enabled)
  else ask (.setApproval (routeAuthorities route) (route.ingressId.getD (.authority route.authority)) enabled)

/-- A route that was acquired is released before the failure is thrown. -/
def giveBack {α : Type} (ingress : ConfiguredIngress) (acquired : Bool) (route : ExternalRoute) (failure : String) :
    Action α :=
  if acquired then do
    tryCatch (ingress.revoke route) fun _ => pure ()
    throw failure
  else throw failure

end ConfiguredIngress

/-! ## Reconciliation -/

/-- What is done with the route that the listener answered for a stored entry. -/
def rebound (ingress : ConfiguredIngress) (current : StoredUrl) (unchanged acquired : Bool) (route : ExternalRoute) :
    Action StoredUrl :=
  if unchanged then
    if route.authority = current.route.authority ∧ route.permalinkAuthority = current.route.permalinkAuthority then
      pure current
    else ingress.giveBack acquired route s!"external route '{current.route.id.text}' changed authority during reconciliation"
  else match route.url with
    | none => ingress.giveBack acquired route s!"ingress '{current.ingress}' did not return a public URL"
    | some url =>
      if current.subdomain.isSome ∧ route.permalink = none then
        ingress.giveBack acquired route s!"ingress '{current.ingress}' did not return a permalink URL"
      else
        let updated := { current with
          route, url, permalink := route.permalink <|> current.permalink, policyRevision := some ingress.policyRevision }
        tryCatch (do ask (.put updated); pure updated) fun failure => ingress.giveBack acquired route failure

/-- The target of a stored entry is resolved, and its route provisioned again. -/
def rebindRoute (ingress : ConfiguredIngress) (current : StoredUrl) (workspace : ControllerWorkspace) (unchanged : Bool) :
    Action StoredUrl := do
  let upstream ← ask (.resolveTarget workspace current.target ingress.upstreamMode)
  let reconciled ← ingress.provision workspace (storedRequest current) upstream
    (current.route.ingressId.getD (.identity current.id)) current.approval
    (if current.subdomain.isNone then none else some current.id)
  rebound ingress current unchanged reconciled.1 reconciled.2

def missingPermalink (entry : StoredUrl) : Bool :=
  entry.subdomain.isSome && (entry.permalink.isNone || entry.route.permalinkAuthority.isNone)

def reconcileStoredRoute (entry : StoredUrl) (ingress : ConfiguredIngress) (workspace : ControllerWorkspace) :
    Action StoredUrl :=
  if entry.approval = .revoked then pure entry
  else
    let policyChanged := entry.policyRevision != some ingress.policyRevision
    let approvalChanged := ingress.approvalRequired && (policyChanged || missingPermalink entry)
    let unchanged := !policyChanged && !missingPermalink entry
    if approvalChanged then do
      let current := { entry with approval := .pending }
      ask (.put current)
      rebindRoute ingress current workspace unchanged
    else rebindRoute ingress entry workspace unchanged

def reconcileRoutes (workspace : ControllerWorkspace) : List StoredUrl → Action (List StoredUrl)
  | [] => pure []
  | entry :: entries => do
    let ingress ← required entry.ingress
    let reconciled ← reconcileStoredRoute entry ingress workspace
    let rest ← reconcileRoutes workspace entries
    pure (reconciled :: rest)

/-! ## Requests of a workspace -/

def listUrls (workspace : ControllerWorkspace) : Action (List StoredUrl) := do
  let entries ← ask (.list workspace.id)
  let reconciled ← reconcileRoutes workspace (deduplicateRoutes entries)
  pure (entries.map fun entry => (reconciled.find? (·.id = entry.id)).getD entry)

structure RequestTarget where
  containers : Option (List String)
  port : Nat
  protocol : Option Scheme

structure CreateRequest where
  ingress : String
  subdomain : Option String
  target : RequestTarget
  path : Option String

/-- `/^[a-z0-9][a-z0-9-]{0,62}$/`. -/
def ingressName (value : String) : Bool :=
  let first := fun c => Pattern.lower c || Pattern.digit c
  Pattern.bounded first (fun c => first c || c = '-') 62 value.toList

def validPath (path : String) : Bool := "/".toList.isPrefixOf path.toList && !(path.toList.tails.any "..".toList.isPrefixOf)

def validateRequest (input : CreateRequest) (scheme : Scheme) : Except String NormalizedRequest := do
  let containers := input.target.containers.getD []
  if !ingressName input.ingress then .error "ingress must be a configured ingress name"
  else if scheme = .tcp ∧ input.subdomain.isSome then .error "TCP ingress requests do not accept a subdomain"
  else if scheme ≠ .tcp ∧ input.subdomain = none then .error "subdomain must be a relative DNS name"
  else do
    input.subdomain.forM validateSubdomain
    if 2 < containers.length then .error "target.containers must contain zero, one, or two names"
    else if input.target.port < 1 ∨ 65535 < input.target.port then
      .error "target.port must be an integer between 1 and 65535"
    else if input.path.any fun path => !validPath path then .error "path must be an absolute URL path without '..'"
    else if scheme = .tcp ∧ input.path.isSome then .error "TCP ingress requests do not accept a URL path"
    else
      .ok { ingress := input.ingress
            subdomain := input.subdomain
            target := { containers, port := input.target.port
                        protocol := input.target.protocol.getD (if scheme = .tcp then .tcp else .http) }
            path := input.path }

/-- The first subdomain of the workspace, counted from 0, that no entry has. -/
def defaultSubdomain (workspaceName : String) (entries : List StoredUrl) : String :=
  let used := entries.filterMap (·.subdomain)
  let candidate := fun index : Nat => workspaceSubdomainPrefix workspaceName ++ toString index
  candidate (((List.range (used.length + 1)).find? fun index => !used.contains (candidate index)).getD 0)

/-- The request with the subdomain that a request without one is given. -/
def withSubdomain (input : CreateRequest) (scheme : Scheme) (workspaceName : String) (entries : List StoredUrl) :
    CreateRequest :=
  if scheme ≠ .tcp ∧ input.subdomain = none then { input with subdomain := some (defaultSubdomain workspaceName entries) }
  else input

/-- The entry of a new route is stored. -/
def storeCreated (workspace : ControllerWorkspace) (ingress : ConfiguredIngress) (request : NormalizedRequest) (id : String)
    (approval : ExternalUrlApproval) (route : ExternalRoute) : Action StoredUrl :=
  match route.url with
  | none => throw s!"ingress '{request.ingress}' did not return a public URL"
  | some url =>
    if request.subdomain.isSome ∧ route.permalink = none then
      throw s!"ingress '{request.ingress}' did not return a permalink URL"
    else do
      let entry : StoredUrl :=
        { id, workspace := workspace.name, workspaceId := workspace.id, ingress := request.ingress
          subdomain := request.subdomain, target := request.target, path := request.path, route, url
          permalink := route.permalink, approval, policyRevision := some ingress.policyRevision }
      ask (.put entry)
      pure entry

/-- A request that no stored entry answers. -/
def createRoute (workspace : ControllerWorkspace) (ingress : ConfiguredIngress) (request : NormalizedRequest) :
    Action StoredUrl := do
  let upstream ← ask (.resolveTarget workspace request.target ingress.upstreamMode)
  let id ← ask .randomUUID
  let approval : ExternalUrlApproval := if ingress.approvalRequired then .pending else .notRequired
  let claim := if approval = .notRequired then routeClaim workspace request else .identity id
  let provisioned ← ingress.provision workspace request upstream claim approval
    (if request.subdomain.isNone then none else some id)
  tryCatch (storeCreated workspace ingress request id approval provisioned.2)
    fun failure => ingress.giveBack provisioned.1 provisioned.2 failure

def createUrl (workspace : ControllerWorkspace) (input : CreateRequest) : Action StoredUrl :=
  if !ingressName input.ingress then throw "ingress must be a configured ingress name"
  else do
    let ingress ← required input.ingress
    let entries ← ask (.list workspace.id)
    let request ← ofExcept
      (validateRequest (withSubdomain input ingress.options.scheme workspace.name entries) ingress.options.scheme)
    match entries.find? fun entry => entry.approval ≠ .revoked && storedRequest entry = request with
    | some existing => reconcileStoredRoute existing ingress workspace
    | none => createRoute workspace ingress request

/-- `undefined` is answered where there is no such entry. -/
def deleteUrl (workspace : ControllerWorkspace) (id : String) : Action (Option Unit) := do
  let entries ← ask (.list workspace.id)
  match entries.find? (·.id = id) with
  | none => pure none
  | some entry => do
    let ingress ← required entry.ingress
    let revoked := { entry with approval := .revoked }
    ask (.put revoked)
    ingress.revoke entry.route
    ask (.remove revoked)
    pure (some ())

/-- `listener.revoke(entry.route)` where the ingress is configured. -/
def revokeConfigured (entry : StoredUrl) : Option ExternalUrlIngressOptions → Action Unit
  | none => pure ()
  | some options => ConfiguredIngress.revoke { name := entry.ingress, options } entry.route

def removeRoutes : List StoredUrl → Action Unit
  | [] => pure ()
  | entry :: entries => do
    let ingress ← ask (.ingress entry.ingress)
    let revoked := { entry with approval := .revoked }
    ask (.put revoked)
    revokeConfigured entry ingress
    ask (.remove revoked)
    removeRoutes entries

def removeWorkspaceRoutes (workspaceId : String) : Action Unit := do
  let entries ← ask (.list workspaceId)
  removeRoutes entries

/-! ## Requests of the host -/

/-- `ExternalUrlStore.current`, over the workspaces that are left to look in. -/
def currentIn (id : String) : List ControllerWorkspace → Action (Option StoredUrl)
  | [] => pure none
  | workspace :: workspaces => do
    let entries ← ask (.list workspace.id)
    match entries.find? (·.id = id) with
    | some entry => pure (some entry)
    | none => currentIn id workspaces

def current (id : String) : Action (Option StoredUrl) := do
  let workspaces ← ask .listWorkspaces
  currentIn id workspaces

def approveRoute (entry : StoredUrl) (ingress : ConfiguredIngress) : Action StoredUrl :=
  if entry.approval ≠ .pending then throw s!"external URL '{entry.id}' is {entry.approval.text} and cannot be approved"
  else if entry.policyRevision ≠ some ingress.policyRevision then
    throw s!"external URL '{entry.id}' approval does not match the current ingress policy"
  else do
    ingress.setApproval entry.route false
    let updated := { entry with approval := .approved }
    ask (.put updated)
    ingress.setApproval entry.route true
    pure updated

def revokeRoute (entry : StoredUrl) (ingress : ConfiguredIngress) : Action StoredUrl :=
  if entry.approval = .revoked then pure entry
  else do
    let updated := { entry with approval := .revoked }
    ask (.put updated)
    ingress.revoke entry.route
    pure updated

def transitionRouteApproval (id : String) (transition : StoredUrl → ConfiguredIngress → Action StoredUrl) :
    Action StoredUrl := do
  match ← current id with
  | none => throw s!"external URL '{id}' not found"
  | some entry => do
    let ingress ← required entry.ingress
    transition entry ingress

/-- `urlApprove` and `urlRevoke` are the actions `url-approve` and `url-revoke` of the host. -/
def urlApprove (id : String) : Action StoredUrl := transitionRouteApproval id approveRoute

def urlRevoke (id : String) : Action StoredUrl := transitionRouteApproval id revokeRoute

def closeConfigured (name : String) : Option ExternalUrlIngressOptions → Action Unit
  | none => pure ()
  | some options => do
    ask (.close { name, options })
    ask (.deleteIngress name)

def ingressRemove (name : String) : Action Unit := do
  let configured ← ask (.readExternalUrlConfig name)
  if configured then do
    ask (.releaseIngress name)
    let ingress ← ask (.ingress name)
    closeConfigured name ingress
    ask (.removeIngress name)
    ask .writeExternalUrlConfig
  else throw s!"external URL ingress '{name}' is not configured"

/-! ## Initialization -/

def reconcileSafely (workspace : ControllerWorkspace) : List StoredUrl → Action Unit
  | [] => pure ()
  | entry :: entries => do
    tryCatch (do
        ask (.runWorkspaceRequest workspace)
        let ingress ← required entry.ingress
        let _ ← reconcileStoredRoute entry ingress workspace
        pure ())
      fun _ => pure ()
    reconcileSafely workspace entries

def initializeWorkspaces : List ControllerWorkspace → Action Unit
  | [] => pure ()
  | workspace :: workspaces => do
    let entries ← ask (.list workspace.id)
    reconcileSafely workspace (deduplicateRoutes entries)
    initializeWorkspaces workspaces

/-- The `initialize` of the routes. -/
def initializeUrls : Action Unit := do
  let workspaces ← ask .listWorkspaces
  initializeWorkspaces workspaces

/-! ## Steps -/

inductive Operation where
  | create (workspace : ControllerWorkspace) (input : CreateRequest)
  | list (workspace : ControllerWorkspace)
  | delete (workspace : ControllerWorkspace) (id : String)
  /-- The deletion of all of a workspace's routes, by its own request or before its discard. -/
  | removeWorkspace (workspaceId : String)
  | approve (id : String)
  | revoke (id : String)
  | removeIngress (name : String)
  | initializeUrls

def Operation.program : Operation → Action Unit
  | .create workspace input => do let _ ← createUrl workspace input; pure ()
  | .list workspace => do let _ ← listUrls workspace; pure ()
  | .delete workspace id => do let _ ← deleteUrl workspace id; pure ()
  | .removeWorkspace workspaceId => removeWorkspaceRoutes workspaceId
  | .approve id => do let _ ← urlApprove id; pure ()
  | .revoke id => do let _ ← urlRevoke id; pure ()
  | .removeIngress name => ingressRemove name
  | .initializeUrls => ExternalUrls.initializeUrls

/-- An operation is processed to its end, or the controller stops within it and starts again, perhaps with other
ingresses; `ok` and `valid` are the conditions on a step. -/
inductive Step (valid : Prop) (ok : World → Operation → Prop) : World → World → Prop
  | processed {w w' : World} {operation : Operation} {result : Except String Unit} (hok : ok w operation)
    (h : Reaches (Performs valid) operation.program w (.ended result) w') : Step valid ok w w'
  | restarted {w w' : World} {operation : Operation} {rest : Action Unit}
      {ingresses : String → Option ExternalUrlIngressOptions}
    (hok : ok w operation) (h : Reaches (Performs valid) operation.program w rest w') :
    Step valid ok w (w'.restarted ingresses)

def Initial (w : World) : Prop := ∃ ingresses, w = .empty ingresses

end Operations

end Dim.ExternalUrls
