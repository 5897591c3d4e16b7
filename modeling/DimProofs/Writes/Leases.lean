/-
Credentials of native Git: registries of leases that live for thirty seconds, the grammar of the requests for leases of a
workspace, and the Git routes that a lease is matched against.
-/
import DimProofs.Writes.Hook
import DimProofs.Lib.Directory
import DimProofs.Reviews.Policy

namespace Dim.Writes

open Repositories (Value Failure field)

/-! ## Registries -/

/-- `NativeBasicCredential`. -/
structure Credential where
  (username password : Text)
deriving DecidableEq

def leaseLifetimeMilliseconds : Int := 30000
def maximumLiveLeases : Nat := 16

structure StoredLease (σ : Type) where
  scope : σ
  password : Text
  expiresAt : Int

/-- The leases by username. -/
abbrev Registry (σ : Type) := List (Text × StoredLease σ)

namespace Registry

variable {σ : Type}

def pruneExpired (now : Int) (leases : Registry σ) : Registry σ := leases.filter fun entry => now < entry.2.expiresAt

/-- `authenticate`: the registry that it leaves, and the scope of the live lease with that username and password. -/
def authenticate (now : Int) (leases : Registry σ) (credential : Credential) : Registry σ × Option σ :=
  let leases := leases.pruneExpired now
  match leases.lookup credential.username with
  | none => (leases, none)
  | some lease => (leases, if lease.password = credential.password then some lease.scope else none)

/-- `issue`, for a username and a password of random bytes. -/
def issue (now : Int) (leases : Registry σ) (scope : σ) (credential : Credential) : Registry σ :=
  let leases := leases.pruneExpired now
  if maximumLiveLeases ≤ leases.length then leases
  else
    Directory.put credential.username
      { scope, password := credential.password, expiresAt := now + leaseLifetimeMilliseconds } leases

variable {credential : Credential} {leases : Registry σ} {now : Int} {scope : σ}

/-- A credential is accepted for a lease that is held and has not expired. -/
theorem authenticate_live (h : (authenticate now leases credential).2 = some scope) :
    ∃ lease, (credential.username, lease) ∈ leases ∧ lease.password = credential.password ∧ lease.scope = scope ∧
      now < lease.expiresAt := by
  dsimp only [authenticate] at h
  split at h
  · cases h
  · rename_i lease hlookup
    obtain ⟨hpassword, hscope⟩ := Option.ite_none_right_eq_some.mp h
    obtain ⟨hmem, hlive⟩ := List.mem_filter.mp (Directory.mem_of_lookup hlookup)
    exact ⟨lease, hmem, hpassword, Option.some.inj hscope, of_decide_eq_true hlive⟩

theorem authenticate_fst : (authenticate now leases credential).1 = leases.pruneExpired now := by
  dsimp only [authenticate]
  split <;> rfl

variable {entry : Text × StoredLease σ}

theorem mem_pruneExpired (h : entry ∈ leases.pruneExpired now) : entry ∈ leases := (List.mem_filter.mp h).1

/-- A registry holds what it held, and the lease that is issued. -/
theorem mem_issue (h : entry ∈ leases.issue now scope credential) :
    entry ∈ leases ∨ entry.1 = credential.username ∧ entry.2.scope = scope := by
  unfold issue at h
  dsimp only at h
  split at h
  · exact .inl (mem_pruneExpired h)
  · rcases List.mem_append.mp h with hkept | hnew
    · exact .inl (mem_pruneExpired (List.mem_filter.mp hkept).1)
    · rw [List.mem_singleton.mp hnew]
      exact .inr ⟨rfl, rfl⟩

end Registry

/-! ## Leases of a workspace -/

structure WorkspaceWriteLeaseScope where
  (generationId ownerHostId projectId repositoryId workspaceId : Text)
deriving DecidableEq

structure RootReadLeaseScope where
  (generationId ownerHostId projectId : Text)

/-- `CandidateLease`, of what is served under it. -/
structure CandidateLeaseScope where
  (projectId repositoryId : Text)

def root : Text := "root".toList

structure WorkspaceWriteLeaseRequest where
  (generationId repositoryId workspaceId : Text)
deriving DecidableEq

/-- `^[0-9a-f]{64}$`. -/
def generationPattern (text : Text) : Bool := Pattern.sequence (List.replicate 64 Pattern.hex) text

/-- `^[A-Za-z0-9_-]{43}$`, and the canonical text of 32 bytes. -/
def workspaceIdGrammar (text : Text) : Bool :=
  Pattern.sequence (List.replicate 43 workspaceChar) text && decide ((Base64.decode text).length = 32) &&
    decide (Base64.encode (Base64.decode text) = text)

def invalidLeaseRequest : Failure := .userError "native Project workspace write lease request is invalid".toList

def parseWorkspaceWriteLeaseRequest : Value → Except Failure WorkspaceWriteLeaseRequest
  | .object fields =>
    match field fields "schemaVersion".toList, field fields "generationId".toList, field fields "repositoryId".toList,
        field fields "workspaceId".toList with
    | .number 1, .string generationId, .string repositoryId, .string workspaceId =>
      if fields.length = 4 && generationPattern generationId && repositoryId = root && workspaceIdGrammar workspaceId then
        .ok { generationId, repositoryId := root, workspaceId }
      else .error invalidLeaseRequest
    | _, _, _, _ => .error invalidLeaseRequest
  | _ => .error invalidLeaseRequest

/-- What is accepted names a workspace of the grammar. -/
theorem parseWorkspaceWriteLeaseRequest_ok {value : Value} {request : WorkspaceWriteLeaseRequest}
    (h : parseWorkspaceWriteLeaseRequest value = .ok request) :
    generationPattern request.generationId = true ∧ request.repositoryId = root ∧
      workspaceIdGrammar request.workspaceId = true := by
  unfold parseWorkspaceWriteLeaseRequest at h
  split at h
  · split at h
    · split at h
      · rename_i hchecks
        cases h
        simp only [Bool.and_eq_true] at hchecks
        exact ⟨hchecks.1.1.2, rfl, hchecks.2⟩
      · cases h
    · cases h
  · cases h

theorem notMem_workspaceId {workspaceId : Text} (h : workspaceIdGrammar workspaceId = true) : '/' ∉ workspaceId := by
  simp only [workspaceIdGrammar, Bool.and_eq_true] at h
  have hall : workspaceId.all workspaceChar = true := by
    refine (Pattern.sequence_all h.1.1 fun p hp => ?_).1
    rw [List.eq_of_mem_replicate hp]
    exact Pattern.Narrows.refl _
  intro hslash
  exact absurd (List.all_eq_true.mp hall _ hslash) (by decide)

/-! ## Routes -/

inductive GitOperation where
  | read
  | write
deriving DecidableEq

structure Route where
  (projectId repositoryId pathInfo queryString : Text)
  operation : GitOperation
deriving DecidableEq

/-- A request: its method, its URL as it is parsed, the headers that are read, its credential and its body. -/
structure Request where
  (method pathname search : Text)
  searchParams : List (Text × Text)
  (contentLength contentType gitProtocol remoteAddress : Option Text)
  credential : Option Credential
  body : List UInt8
deriving DecidableEq

def hexValue (c : Char) : Option Nat :=
  if Pattern.digit c then some (c.toNat - '0'.toNat)
  else if Pattern.within 'a' 'f' c then some (c.toNat - 'a'.toNat + 10)
  else if Pattern.within 'A' 'F' c then some (c.toNat - 'A'.toNat + 10)
  else none

/-- `decodeURIComponent`, of the values that decode to ASCII. -/
def decodeAscii : Text → Option Text
  | '%' :: high :: low :: rest => do
    let byte := 16 * (← hexValue high) + (← hexValue low)
    if byte < 128 then return Char.ofNat byte :: (← decodeAscii rest) else none
  | '%' :: _ => none
  | c :: rest => do return c :: (← decodeAscii rest)
  | [] => some []

/-- Whatever decodes to other characters is no identifier. -/
def decodedIdentifier (value : Text) : Option Text :=
  match decodeAscii value with
  | some decoded => if Reviews.reviewerPattern decoded then some decoded else none
  | none => none

def infoRefs : Text := "info/refs".toList
def uploadPack : Text := "git-upload-pack".toList
def receivePack : Text := "git-receive-pack".toList

/-- `([^/]+)\.git`. -/
def repositoryComponent (component : Text) : Option Text :=
  if ".git".toList.isSuffixOf component && 4 < component.length then some (component.take (component.length - 4)) else none

/-- `routePattern`: the Project, the repository and the endpoint that a path names. -/
def routeParts (pathname : Text) : Option (Text × Text × Text) :=
  match pathname.splitOn '/' with
  | [] :: v1 :: projects :: project :: repositories :: repository :: endpoint => do
    if v1 = "v1".toList && projects = "projects".toList && repositories = "repositories".toList && project ≠ [] then
      let repository ← repositoryComponent repository
      let endpoint := ['/'].intercalate endpoint
      if endpoint = infoRefs || endpoint = uploadPack || endpoint = receivePack then
        return (project, repository, endpoint)
      else none
    else none
  | _ => none

def route (projectId repositoryId endpoint queryString : Text) (operation : GitOperation) : Route where
  projectId := projectId
  repositoryId := repositoryId
  pathInfo := '/' :: (projectId ++ '/' :: (repositoryId ++ ".git/".toList ++ endpoint))
  queryString := queryString
  operation := operation

def service (name : Text) : Text := "service=".toList ++ name

/-- `nativeGitRoute`, of the parts of a path. -/
def endpointRoute (request : Request) (projectId repositoryId endpoint : Text) : Option Route :=
  if request.method = "GET".toList && endpoint = infoRefs then
    match request.searchParams with
    | [(name, value)] =>
      if name ≠ "service".toList then none
      else if value = uploadPack then some (route projectId repositoryId endpoint (service value) .read)
      else if value = receivePack then some (route projectId repositoryId endpoint (service value) .write)
      else none
    | _ => none
  else if request.method = "POST".toList && request.search = [] && endpoint = uploadPack &&
      request.contentType = some "application/x-git-upload-pack-request".toList then
    some (route projectId repositoryId endpoint [] .read)
  else if request.method = "POST".toList && request.search = [] && endpoint = receivePack &&
      request.contentType = some "application/x-git-receive-pack-request".toList then
    some (route projectId repositoryId endpoint [] .write)
  else none

def nativeGitRoute (request : Request) : Option Route := do
  let (project, repository, endpoint) ← routeParts request.pathname
  let projectId ← decodedIdentifier project
  let repositoryId ← decodedIdentifier repository
  endpointRoute request projectId repositoryId endpoint

/-- The path of a repository below the storage root. -/
def repositoryPath (projectId repositoryId : Text) : Text := '/' :: (projectId ++ '/' :: (repositoryId ++ ".git".toList))

/-- Every route is of an endpoint of its repository. -/
theorem pathInfo_of_route {request : Request} {found : Route} (h : nativeGitRoute request = some found) :
    ∃ endpoint ∈ [infoRefs, uploadPack, receivePack],
      found.pathInfo = repositoryPath found.projectId found.repositoryId ++ '/' :: endpoint := by
  have hroute : ∀ projectId repositoryId endpoint queryString operation,
      (route projectId repositoryId endpoint queryString operation).pathInfo =
        repositoryPath projectId repositoryId ++ '/' :: endpoint := by
    intros
    simp [route, repositoryPath]
  unfold nativeGitRoute at h
  obtain ⟨⟨project, repository, endpoint⟩, -, h⟩ := Option.bind_eq_some_iff.mp h
  obtain ⟨projectId, -, h⟩ := Option.bind_eq_some_iff.mp h
  obtain ⟨repositoryId, -, h⟩ := Option.bind_eq_some_iff.mp h
  unfold endpointRoute at h
  split at h
  · rename_i hget
    simp only [Bool.and_eq_true, decide_eq_true_eq] at hget
    split at h
    · split at h
      · cases h
      split at h
      · cases h
        exact ⟨endpoint, by simp [hget.2], hroute ..⟩
      split at h
      · cases h
        exact ⟨endpoint, by simp [hget.2], hroute ..⟩
      · cases h
    · cases h
  split at h
  · rename_i hpost
    simp only [Bool.and_eq_true, decide_eq_true_eq] at hpost
    cases h
    exact ⟨endpoint, by simp [hpost.1.2], hroute ..⟩
  split at h
  · rename_i hpost
    simp only [Bool.and_eq_true, decide_eq_true_eq] at hpost
    cases h
    exact ⟨endpoint, by simp [hpost.1.2], hroute ..⟩
  · cases h

def workspaceWriteLeaseMatchesRoute (lease : WorkspaceWriteLeaseScope) (route : Route) (generationId : Text) : Bool :=
  lease.generationId = generationId && lease.projectId = route.projectId && lease.repositoryId = route.repositoryId

end Dim.Writes
