/-
The Git requests of the bundle server: a request is served under the lease of the credential that it brings, a workspace's
requests through the queue of the review controller with a second look at the lease when their operation runs, and every
backend in an environment that says what it may do. Git itself is a parameter with what it documents.
-/
import DimProofs.Writes.Leases

namespace Dim.Writes

open Repositories (Value)

/-! ## The backend -/

inductive Role where
  | writer
  | reader
deriving DecidableEq

structure Identity where
  role : Role
  username : Text
  workspaceId : Option Text

/-- The environment of `git http-backend`. -/
structure Environment where
  (locale noSystemConfig home exportAll : Text)
  config : List (Text × Text)
  (projectRoot pathInfo queryString requestMethod contentLength contentType : Text)
  (remoteAddr remoteUser projectId repositoryId : Text)
  (workspaceId gitProtocol : Option Text)

def truth : Text := "true".toList

/-- The directory of a repository's hooks. -/
def hooksPath (storageRoot projectId repositoryId : Text) : Text :=
  storageRoot ++ repositoryPath projectId repositoryId ++ "/hooks".toList

def receivepackKey : Text := "http.receivepack".toList
def hooksPathKey : Text := "core.hooksPath".toList
def denyKey : Text := "receive.denyNonFastForwards".toList

def backendEnvironment (storageRoot : Text) (identity : Identity) (route : Route) (request : Request) :
    Environment where
  locale := "C".toList
  noSystemConfig := ['1']
  home := "/dev/null".toList
  exportAll := ['1']
  config := [
    (hooksPathKey, hooksPath storageRoot route.projectId route.repositoryId),
    (denyKey, truth),
    (receivepackKey, if identity.role = .writer then truth else "false".toList),
    ("receive.fsckObjects".toList, truth),
    ("receive.fsck.fullPathname".toList, "error".toList),
    ("uploadpack.allowReachableSHA1InWant".toList, truth)]
  projectRoot := storageRoot
  pathInfo := route.pathInfo
  queryString := route.queryString
  requestMethod := request.method
  contentLength := request.contentLength.getD []
  contentType := request.contentType.getD []
  remoteAddr := request.remoteAddress.getD []
  remoteUser := identity.username
  projectId := route.projectId
  repositoryId := route.repositoryId
  workspaceId := if identity.role = .writer then identity.workspaceId else none
  gitProtocol := request.gitProtocol.filter fun protocol => protocol = "version=1".toList || protocol = "version=2".toList

section Config

variable (storageRoot : Text) (identity : Identity) (route : Route) (request : Request)

theorem config_hooksPath : (backendEnvironment storageRoot identity route request).config.lookup hooksPathKey =
    some (hooksPath storageRoot route.projectId route.repositoryId) := by
  rw [backendEnvironment, List.lookup_cons_self]

theorem config_deny : (backendEnvironment storageRoot identity route request).config.lookup denyKey = some truth := by
  have hne : (denyKey == hooksPathKey) = false := by decide
  simp only [backendEnvironment, List.lookup_cons, hne, beq_self_eq_true]

theorem config_receivepack : (backendEnvironment storageRoot identity route request).config.lookup receivepackKey =
    some (if identity.role = .writer then truth else "false".toList) := by
  have hhooks : (receivepackKey == hooksPathKey) = false := by decide
  have hdeny : (receivepackKey == denyKey) = false := by decide
  simp only [backendEnvironment, List.lookup_cons, hhooks, hdeny, beq_self_eq_true]

end Config

/-- The refs of every repository below the storage root. -/
abbrev Refs := Text → Text → Option Text

/-! ## Git -/

/--
Git, as far as refs go: what a `git http-backend` may have done to them, in an environment and for a request body. The
commands are those that the `pre-receive` hook was given. `hooks` are the directories whose `pre-receive` is the hook of
this service.
-/
class Git where
  serves (hooks : List Text) (environment : Environment) (body : List UInt8) (commands : List Command)
    (refs refs' : Refs) : Prop
  isAncestor (old new : Text) : Prop
  plain {hooks : List Text} {environment : Environment} {body : List UInt8} {commands : List Command} {refs refs' : Refs} :
    serves hooks environment body commands refs refs' → ∀ command ∈ commands, command.Plain
  /-- Refs change as a push to their repository says, and a value of zeros deletes. -/
  updates {hooks : List Text} {environment : Environment} {body : List UInt8} {commands : List Command}
      {refs refs' : Refs} {repository ref : Text} :
    serves hooks environment body commands refs refs' → refs repository ref ≠ refs' repository ref →
      environment.pathInfo = repository ++ '/' :: receivePack ∧
        ∃ command ∈ commands, command.ref = ref ∧
          refs' repository ref = if command.new.all (· = '0') then none else some command.new
  /-- `http.receivepack`: pushes are served where it is set. -/
  receivepack {hooks : List Text} {environment : Environment} {body : List UInt8} {commands : List Command}
      {refs refs' : Refs} {repository ref : Text} :
    serves hooks environment body commands refs refs' → refs repository ref ≠ refs' repository ref →
      environment.config.lookup receivepackKey = some truth
  /-- `pre-receive`: nothing is updated where the hook of `core.hooksPath` fails. -/
  preReceive {hooks : List Text} {environment : Environment} {body : List UInt8} {commands : List Command}
      {refs refs' : Refs} {repository ref path : Text} :
    serves hooks environment body commands refs refs' → refs repository ref ≠ refs' repository ref →
      environment.config.lookup hooksPathKey = some path → path ∈ hooks →
        Writes.preReceive environment.workspaceId (hookInput commands) = true
  /-- `receive.denyNonFastForwards`: a branch moves to a descendant. -/
  fastForward {hooks : List Text} {environment : Environment} {body : List UInt8} {commands : List Command}
      {refs refs' : Refs} {repository ref old new : Text} :
    serves hooks environment body commands refs refs' → refs repository ref = some old → refs' repository ref = some new →
      old ≠ new → environment.config.lookup denyKey = some truth → "refs/heads/".toList <+: ref → isAncestor old new

/-! ## The server -/

/-- A request of a workspace that was handed to the queue, with the lease that it was accepted under. -/
structure Operation where
  credential : Credential
  lease : WorkspaceWriteLeaseScope
  route : Route
  request : Request
deriving DecidableEq

/-- The operation at the head of the queue: its checks go on, or its backend was started. -/
inductive Stage where
  | checking
  | serving

/-- A request that reads, under a lease of a candidate or of a root; `false` is a candidate. -/
structure Reading where
  ofRoot : Bool
  credential : Credential
  route : Route
  request : Request
deriving DecidableEq

/-- A backend that was started. -/
structure Run where
  identity : Identity
  route : Route
  request : Request

structure Server where
  now : Int
  /-- `operations.isOpen()`. -/
  isOpen : Bool
  writeLeases : Registry WorkspaceWriteLeaseScope
  readLeases : Registry RootReadLeaseScope
  candidates : Registry CandidateLeaseScope
  /-- The usernames that were drawn for leases of workspaces, with what they are for. -/
  issued : List (Text × WorkspaceWriteLeaseScope)
  waiting : List Operation
  running : Option (Operation × Stage)
  reading : List Reading
  runs : List Run
  hooks : List Text
  refs : Refs

structure Input where
  (expectedGenerationId storageRoot : Text)

variable (input : Input)

inductive Handled where
  /-- An error response. -/
  | refused
  | queued (operation : Operation)
  | reads (reading : Reading)
deriving DecidableEq

/-- `candidateReadService.serveGit`, as far as it goes at once, with what it leaves of the server. -/
def candidateServeGit (s : Server) (request : Request) (route : Route) : Server × Option Handled :=
  match request.credential with
  | none => (s, none)
  | some supplied =>
    let s := { s with candidates := s.candidates.pruneExpired s.now }
    match s.candidates.lookup supplied.username with
    | none => (s, none)
    | some lease =>
      if supplied.password ≠ lease.password then (s, some .refused)
      else if route.operation ≠ .read then (s, some .refused)
      else if route.projectId ≠ lease.scope.projectId || route.repositoryId ≠ lease.scope.repositoryId then
        (s, some .refused)
      else (s, some (.reads ⟨false, supplied, route, request⟩))

/-- `workspaceWriteService.serveGit`, up to `serializeReceive`. -/
def workspaceServeGit (s : Server) (request : Request) (route : Route) : Server × Option Handled :=
  match request.credential with
  | none => (s, none)
  | some credential =>
    let (writeLeases, authenticated) := s.writeLeases.authenticate s.now credential
    let s := { s with writeLeases }
    match authenticated with
    | none => (s, none)
    | some lease =>
      if lease.generationId ≠ input.expectedGenerationId then (s, none)
      else if !workspaceWriteLeaseMatchesRoute lease route input.expectedGenerationId then (s, some .refused)
      else (s, some (.queued ⟨credential, lease, route, request⟩))

/-- `rootReadService.serveGit`, as far as it goes at once. -/
def rootServeGit (s : Server) (request : Request) (route : Route) : Server × Handled :=
  match request.credential with
  | none => (s, .refused)
  | some credential =>
    let (readLeases, authenticated) := s.readLeases.authenticate s.now credential
    let s := { s with readLeases }
    match authenticated with
    | none => (s, .refused)
    | some lease =>
      if lease.generationId ≠ input.expectedGenerationId then (s, .refused)
      else if route.projectId ≠ lease.projectId || route.repositoryId ≠ root then (s, .refused)
      else if route.operation ≠ .read then (s, .refused)
      else (s, .reads ⟨true, credential, route, request⟩)

/-- What the request handler does with a Git request. -/
def handle (s : Server) (request : Request) : Server × Handled :=
  match nativeGitRoute request with
  | none => (s, .refused)
  | some route =>
    match candidateServeGit s request route with
    | (s, some handled) => (s, handled)
    | (s, none) =>
      match workspaceServeGit input s request route with
      | (s, some handled) => (s, handled)
      | (s, none) => rootServeGit input s request route

/-- The second look at the lease, at the end of an operation's checks. -/
def currentLease (s : Server) (operation : Operation) : Option WorkspaceWriteLeaseScope :=
  (s.writeLeases.authenticate s.now operation.credential).2.filter
    (workspaceWriteLeaseMatchesRoute · operation.route input.expectedGenerationId)

/-- The second look at the lease of a reader. -/
def Reading.authenticate (s : Server) (reading : Reading) : Server :=
  if reading.ofRoot then { s with readLeases := (s.readLeases.authenticate s.now reading.credential).1 } else s

def Operation.run (operation : Operation) : Run where
  identity := ⟨.writer, "workspace-write-lease".toList, some operation.lease.workspaceId⟩
  route := operation.route
  request := operation.request

def Reading.run (reading : Reading) : Run where
  identity := ⟨.reader, (if reading.ofRoot then "root-read-lease" else "candidate-read-lease").toList, none⟩
  route := reading.route
  request := reading.request

def Run.environment (run : Run) : Environment := backendEnvironment input.storageRoot run.identity run.route run.request

/-- The server after a request; the queue takes an operation while it is available. -/
def Server.after (s : Server) (available : Bool) : Handled → Server
  | .refused => s
  | .queued operation => if available then { s with waiting := s.waiting ++ [operation] } else s
  | .reads reading => { s with reading := s.reading ++ [reading] }

/-- What a Git request did to the refs, through a backend of it. -/
def Changes [Git] (s : Server) (run : Run) (refs' : Refs) : Prop :=
  ∃ commands, Git.serves s.hooks (run.environment input) run.request.body commands s.refs refs'

def leaseScope (hostId projectId : Text) (leaseRequest : WorkspaceWriteLeaseRequest) : WorkspaceWriteLeaseScope where
  generationId := input.expectedGenerationId
  ownerHostId := hostId
  projectId := projectId
  repositoryId := leaseRequest.repositoryId
  workspaceId := leaseRequest.workspaceId

def Server.issue (s : Server) (scope : WorkspaceWriteLeaseScope) (credential : Credential) : Server :=
  { s with writeLeases := s.writeLeases.issue s.now scope credential, issued := (credential.username, scope) :: s.issued }

def Server.issueCandidate (s : Server) (scope : CandidateLeaseScope) (credential : Credential) : Server :=
  let lease := { scope, password := credential.password, expiresAt := s.now + leaseLifetimeMilliseconds }
  { s with candidates := Directory.put credential.username lease (s.candidates.pruneExpired s.now) }

/-- The steps of the server, in any order: whatever a check asks that is not modelled may fail or hold. -/
inductive Step [Git] : Server → Server → Prop
  | clock {s : Server} (now : Int) : Step s { s with now := now }
  /-- `handleLeaseRequest`, up to `leases.issue`: usernames are of 18 random bytes, and none comes twice. -/
  | issue {s : Server} {value : Value} {leaseRequest : WorkspaceWriteLeaseRequest} {hostId projectId : Text}
      {credential : Credential} :
    s.isOpen → parseWorkspaceWriteLeaseRequest value = .ok leaseRequest →
      leaseRequest.generationId = input.expectedGenerationId →
      Reviews.reviewerPattern projectId = true → (∀ entry ∈ s.issued, entry.1 ≠ credential.username) →
        Step s (s.issue (leaseScope input hostId projectId leaseRequest) credential)
  | issueRead {s : Server} (scope : RootReadLeaseScope) (credential : Credential) :
    Step s { s with readLeases := s.readLeases.issue s.now scope credential }
  | issueCandidate {s : Server} (scope : CandidateLeaseScope) (credential : Credential) :
    Step s (s.issueCandidate scope credential)
  | request {s : Server} (request : Request) (available : Bool) :
    Step s ((handle input s request).1.after available (handle input s request).2)
  | start {s : Server} {operation : Operation} {rest : List Operation} :
    s.running = none → s.waiting = operation :: rest →
      Step s { s with waiting := rest, running := some (operation, .checking) }
  /-- The root is verified, its hook is the one of this service, and the lease is still there. -/
  | serve {s : Server} {operation : Operation} :
    s.running = some (operation, .checking) → s.isOpen →
      hooksPath input.storageRoot operation.route.projectId root ∈ s.hooks → (currentLease input s operation).isSome →
        Step s
          { s with
            writeLeases := (s.writeLeases.authenticate s.now operation.credential).1
            running := some (operation, .serving)
            runs := operation.run :: s.runs }
  /-- The second look at the lease of an operation refuses it. -/
  | deny {s : Server} {operation : Operation} :
    s.running = some (operation, .checking) → currentLease input s operation = none →
      Step s { s with writeLeases := (s.writeLeases.authenticate s.now operation.credential).1, running := none }
  /-- An operation is refused before that, or its backend settled. -/
  | settle {s : Server} : Step s { s with running := none }
  /-- The second look at the lease of a reader, whose backend may be started then. -/
  | look {s : Server} {reading : Reading} : reading ∈ s.reading → Step s (reading.authenticate s)
  | read {s : Server} {reading : Reading} :
    reading ∈ s.reading → Step s { reading.authenticate s with runs := reading.run :: s.runs }
  | closeGate {s : Server} : Step s { s with isOpen := false }
  | closeLeases {s : Server} : Step s { s with writeLeases := [], readLeases := [], candidates := [] }
  /-- A repository is prepared, with its hook. -/
  | prepare {s : Server} (projectId : Text) : Step
      s { s with hooks := hooksPath input.storageRoot projectId root :: s.hooks }
  | git {s : Server} {run : Run} {refs' : Refs} : run ∈ s.runs → Changes input s run refs' → Step s { s with refs := refs' }
  /-- Imports and promotions. -/
  | own {s : Server} (refs' : Refs) : Step s { s with refs := refs' }

/-- A server that starts, on what its storage has. -/
def initial (s : Server) : Prop :=
  s.writeLeases = [] ∧ s.readLeases = [] ∧ s.candidates = [] ∧ s.issued = [] ∧ s.waiting = [] ∧ s.running = none ∧
    s.reading = [] ∧ s.runs = []

end Dim.Writes
