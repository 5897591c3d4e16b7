/-
The relays of a workspace: how the controller resolves a target to a container, and the relay it provisions in the
workspace's container for it, at a port that is a hash of the target. What docker answers is given for each call; the
script in the container runs to its end, is refused, or is interrupted. A relay that listens reads its configuration
anew for each connection, and does not end while the workspace runs.
-/
import DimProofs.Lib.Directory
import DimProofs.Lib.Pattern

namespace Dim.Controller

/-! ## Targets -/

inductive Protocol where
  | http | https | tcp
deriving DecidableEq

def Protocol.text : Protocol → String
  | .http => "http"
  | .https => "https"
  | .tcp => "tcp"

/-- `WorkspaceTarget`. -/
structure Target where
  containers : List String
  port : Nat
  protocol : Protocol
deriving DecidableEq

/-- `/^[a-zA-Z0-9][a-zA-Z0-9_.-]{0,127}$/`. -/
def validContainerName (name : String) : Bool := Pattern.bounded Pattern.alphanumeric Pattern.generationRest 127 name.toList

def validateTarget (target : Target) : Except String Unit :=
  if 2 < target.containers.length then .error "target.containers must contain zero, one, or two container names"
  else if ¬ target.containers.all validContainerName then .error "target container names are invalid"
  else if target.port < 1 ∨ 65535 < target.port then .error "target.port must be an integer between 1 and 65535"
  else .ok ()

/-- The names of a target, which need no escape. -/
def quoted (text : String) : List Char := '"' :: text.toList ++ ['"']

/-- `JSON.stringify(target)`. -/
def Target.json (target : Target) : List Char :=
  "\x7b\"containers\":[".toList ++ [','].intercalate (target.containers.map quoted) ++ "],\"port\":".toList ++
    Nat.toDigits 10 target.port ++ ",\"protocol\":".toList ++ quoted target.protocol.text ++ "\x7d".toList

/-- FNV-1a of 32 bits, over ASCII text. -/
def stableHash (value : List Char) : UInt32 :=
  value.foldl (fun hash char => (hash ^^^ UInt32.ofNat char.toNat) * 0x01000193) 0x811c9dc5

def relayPort (target : Target) : Nat := 20000 + (stableHash target.json).toNat % 30000

/-! ## What docker answers -/

/-- What is read of `container inspect`. -/
structure Container where
  (id name : Option String)
  networks : List (String × Option String)
  hostPort : Nat → Option Nat

/-- What becomes of the script that provisions a relay. -/
inductive Exec where
  | succeeded
  | refused
  | interrupted

/-- The answers of one call: a container that is not found is missing. -/
structure Docker where
  outer : Option Container
  inner : String → Option Container
  services : String → Option (List String)
  service : String → Option Container
  nested : String → String → Option Container
  exec : Exec

structure Workspace where
  (name containerName networkName : String)

inductive Mode where
  | containerDns
  | containerIp
deriving DecidableEq

/-- An empty text counts as missing. -/
def present : Option String → Option String
  | some "" => none
  | text => text

structure Endpoint where
  host : String
  port : Nat

/-- `ResolvedWorkspaceTarget`. -/
structure Resolved where
  protocol : Protocol
  endpoint : Endpoint
  fingerprint : String

def outerContainer (d : Docker) (w : Workspace) : Except String (String × String) :=
  match d.outer with
  | none => .error ("cannot inspect workspace '" ++ w.name ++ "'")
  | some container =>
    match present container.id with
    | none => .error ("workspace '" ++ w.name ++ "' has no container identity")
    | some id =>
      match present ((container.networks.lookup w.networkName).join) with
      | none => .error ("workspace '" ++ w.name ++ "' has no address on '" ++ w.networkName ++ "'")
      | some ip => .ok (id, ip)

/-- The container of a name, or of a service of the Project's compose file. -/
def inspected (d : Docker) (nameOrService : String) : Except String Container :=
  match d.inner nameOrService with
  | some container => .ok container
  | none =>
    match d.services nameOrService with
    | some [name] =>
      match d.service name with
      | some container => .ok container
      | none => .error ("cannot inspect workspace target '" ++ nameOrService ++ "'")
    | _ => .error ("workspace target container '" ++ nameOrService ++ "' was not found uniquely")

def withoutSlash (name : String) : String :=
  match name.toList with
  | '/' :: rest => String.ofList rest
  | _ => name

structure Inner where
  (id name ip : String)

def innerContainer (d : Docker) (nameOrService : String) : Except String Inner := do
  let container ← inspected d nameOrService
  match present container.id with
  | none => .error ("workspace target '" ++ nameOrService ++ "' has no container identity")
  | some id =>
    match (container.networks.filterMap fun network => present network.2).head? with
    | none => .error ("workspace target '" ++ nameOrService ++ "' has no reachable address")
    | some ip => .ok ⟨id, withoutSlash (container.name.getD nameOrService), ip⟩

def nestedPublishedTarget (d : Docker) (parent child : String) (port : Nat) : Except String (String × Nat) :=
  match d.nested parent child with
  | none => .error ("nested target '" ++ parent ++ "/" ++ child ++ "' was not found")
  | some container =>
    match present container.id with
    | none => .error ("nested target '" ++ parent ++ "/" ++ child ++ "' has no container identity")
    | some id =>
      match container.hostPort port with
      | none => .error ("nested target '" ++ parent ++ "/" ++ child ++ "' must publish TCP port " ++ toString port ++
          " on '" ++ parent ++ "'")
      | some hostPort =>
        if hostPort < 1 ∨ 65535 < hostPort then
          .error ("nested target '" ++ parent ++ "/" ++ child ++ "' must publish TCP port " ++ toString port ++ " on '" ++
            parent ++ "'")
        else .ok (id, hostPort)

/-- The container and port that a relay forwards to, and the fingerprint, for a target with containers. -/
def relayTarget (d : Docker) (target : Target) (container : String) (rest : List String) :
    Except String (Endpoint × String) := do
  let first ← innerContainer d container
  match rest with
  | [child] =>
    let nested ← nestedPublishedTarget d first.name child target.port
    .ok (⟨first.ip, nested.2⟩, nested.1)
  | _ => .ok (⟨first.ip, target.port⟩, first.id)

/-! ## Relays -/

/-- The configuration files under `/run/dim/routes`, and the ports at which a relay listens. -/
structure Relays where
  configs : List (Nat × Endpoint)
  listening : List Nat

/-- Where a connection to a port of the workspace is forwarded. -/
def Relays.forwards (relays : Relays) (port : Nat) : Option Endpoint :=
  if port ∈ relays.listening then relays.configs.lookup port else none

def ensureWorkspaceRelay (exec : Exec) (w : Workspace) (listenPort : Nat) (endpoint : Endpoint) (relays : Relays) :
    Except String Unit × Relays :=
  match exec with
  | .succeeded =>
    (.ok (), ⟨Directory.put listenPort endpoint relays.configs,
      if listenPort ∈ relays.listening then relays.listening else listenPort :: relays.listening⟩)
  | .refused => (.error ("cannot create route relay in workspace '" ++ w.name ++ "'"), relays)
  | .interrupted =>
    (.error ("cannot create route relay in workspace '" ++ w.name ++ "'"),
      { relays with configs := Directory.put listenPort endpoint relays.configs })

/-- What is known before a relay is provisioned. -/
structure Plan where
  (host fingerprint : String)
  relay : Option (Nat × Endpoint)

def plan (d : Docker) (w : Workspace) (target : Target) (mode : Mode) : Except String Plan := do
  validateTarget target
  let outer ← outerContainer d w
  let host := if mode = .containerIp then outer.2 else w.containerName
  match target.containers with
  | [] => .ok ⟨host, outer.1, none⟩
  | container :: rest =>
    let (endpoint, fingerprint) ← relayTarget d target container rest
    .ok ⟨host, fingerprint, some (relayPort target, endpoint)⟩

def resolveWorkspaceTarget (d : Docker) (w : Workspace) (target : Target) (mode : Mode) (relays : Relays) :
    Except String Resolved × Relays :=
  match plan d w target mode with
  | .error message => (.error message, relays)
  | .ok ⟨host, fingerprint, none⟩ => (.ok ⟨target.protocol, ⟨host, target.port⟩, fingerprint⟩, relays)
  | .ok ⟨host, fingerprint, some (port, endpoint)⟩ =>
    match ensureWorkspaceRelay d.exec w port endpoint relays with
    | (.error message, relays) => (.error message, relays)
    | (.ok (), relays) => (.ok ⟨target.protocol, ⟨host, port⟩, fingerprint⟩, relays)

/-! ## Sequences of calls -/

structure Call where
  target : Target
  mode : Mode
  docker : Docker

/-- The relays, and for each target whose last relay was provisioned, the container and port that it was resolved to. -/
structure History where
  relays : Relays
  provisioned : List (Target × Endpoint)

/-- A call returns an endpoint with its relay; one whose script was interrupted promises nothing of its own relay. -/
def History.after (w : Workspace) (h : History) (c : Call) : History :=
  let result := resolveWorkspaceTarget c.docker w c.target c.mode h.relays
  ⟨result.2,
    match plan c.docker w c.target c.mode with
    | .ok ⟨_, _, some (_, endpoint)⟩ =>
      match c.docker.exec with
      | .succeeded => Directory.put c.target endpoint h.provisioned
      | .refused => h.provisioned
      | .interrupted => Directory.remove c.target h.provisioned
    | _ => h.provisioned⟩

def History.run (w : Workspace) (calls : List Call) : History := calls.foldl (History.after w) ⟨⟨[], []⟩, []⟩

/-- Every relay forwards to what its target was resolved to. -/
def History.Kept (h : History) : Prop :=
  ∀ target endpoint, h.provisioned.lookup target = some endpoint → h.relays.forwards (relayPort target) = some endpoint

end Dim.Controller
