/-
Grants of workspaces: a grant is a file of one token for each workspace instance and audience, made when it is
first asked for. A token carries the name and the instance that it is for; who presents one is looked up by
them. A discard writes the phase, removes the grants and, at the end, the record.
-/
import DimProofs.Lifecycle.Records

namespace Dim.Lifecycle

open Effectful

/-! ## Tokens -/

/-- `Buffer.from(name).toString("base64url")`; names are ASCII. -/
def encodeName (name : String) : String := String.ofList (Base64.encode (name.toList.map Char.toNat))

/-- `Buffer.from(encodedName, "base64url").toString("utf8")`, where a byte outside ASCII gives some character that no
name has. -/
def decodeName (encoded : List Char) : String :=
  String.ofList ((Base64.decode encoded).map fun b => if b < 128 then Char.ofNat b else Char.ofNat 0xfffd)

def grantToken (name workspaceId random : String) : String := encodeName name ++ "." ++ workspaceId ++ "." ++ random

/-- The white space of `String.prototype.trim`. -/
def whitespace (c : Char) : Bool :=
  c.toNat ∈ [0x09, 0x0a, 0x0b, 0x0c, 0x0d, 0x20, 0xa0, 0x1680, 0x2028, 0x2029, 0x202f, 0x205f, 0x3000, 0xfeff]
    || (0x2000 ≤ c.toNat && c.toNat ≤ 0x200a)

def trim (text : String) : String :=
  String.ofList ((text.toList.dropWhile whitespace).reverse.dropWhile whitespace).reverse

/-! ## The grant store -/

section Grants

variable [Format]

/-- A grant is made with this token, unless another call has made it. -/
def createGrant (audience : GrantAudience) (target token : String) : Action String := do
  match ← effect (.create (.grants audience) target) with
  | none =>
    let text ← readFile (.grants audience) target
    pure (trim text)
  | some ino =>
    writeText ino (token ++ "\n").toList
    effect (.close ino)
    pure token

/-- `WorkspaceGrantStore.ensure`. -/
def ensureGrant (record : WorkspaceRecord) (audience : GrantAudience) : Action String := do
  let target := grantFile record.name record.workspaceId
  match ← effect (.openFile (.grants audience) target) with
  | some ino =>
    let text ← effect (.readFile ino)
    pure (trim text)
  | none =>
    let random ← effect (.randomBytes audience record.name record.workspaceId)
    createGrant audience target (grantToken record.name record.workspaceId random)

/-- `ensureWorkspaceGrant`, `ensureAgentGrant`, `ensureNativeGitGrant`, with the record that was granted. -/
def ensureNamedGrant (audience : GrantAudience) (name : String) : Action (WorkspaceRecord × String) := do
  let record ← readWorkspace name
  let token ← ensureGrant record audience
  pure (record, token)

def validateWorkspaceId (value source : String) : Action Unit :=
  if validWorkspaceId value then pure ()
  else throw (.user (source ++ " has an invalid workspace instance ID"))

/-- What a token with these parts is good for. -/
def authenticateParts (token : String) (audience : GrantAudience) (encodedName workspaceId : List Char) :
    Action (Option WorkspaceRecord) := do
  let name ← validateLifecycleName (decodeName encodedName) .workspace
  let workspaceId := String.ofList workspaceId
  validateWorkspaceId workspaceId ("workspace '" ++ name ++ "'")
  let text ← readFile (.grants audience) (grantFile name workspaceId)
  if token ≠ trim text then pure none
  else
    let record ← readWorkspace name
    pure (if record.workspaceId = workspaceId ∧ record.phase ≠ .discarding then some record else none)

/-- `WorkspaceGrantStore.authenticate`. -/
def authenticateGrant (token : String) (audience : GrantAudience) : Action (Option WorkspaceRecord) :=
  match token.toList.splitOn '.' with
  | [encodedName, workspaceId, _] =>
    tryCatch (authenticateParts token audience encodedName workspaceId) fun _ => pure none
  | _ => pure none

/-- `WorkspaceGrantStore.remove`. -/
def removeGrant (audience : GrantAudience) (name workspaceId : String) : Action Unit :=
  effect (.remove (.grants audience) (grantFile name workspaceId))

/-! ## Discard -/

def WorkspaceRecord.discarding (record : WorkspaceRecord) : WorkspaceRecord := { record with phase := .discarding }

/-- A command, a hook or an inspection, which may fail. -/
def runCommand : Action Unit := do
  match ← effect .command with
  | true => pure ()
  | false => throw (.user "command failed")

def acquireLock (lock : String) : Action Unit := do
  match ← effect (.acquire lock) with
  | true => pure ()
  | false => throw (.user ("timed out waiting for " ++ lock ++ " lock"))

def notifyContainer (record : WorkspaceRecord) : Option Container → Action Unit
  | none => pure ()
  | some container =>
    if container.sameRoot then if container.running then runCommand else pure ()
    else throw (.user ("workspace '" ++ record.name ++ "' container root does not match its recorded immutable root"))

/-- What a discard does while it holds the authority lock. -/
def beginDiscard (name : String) (keepVolume : Bool) : Action WorkspaceRecord := do
  let record ← readWorkspace name
  if keepVolume ∧ record.environment = .recommended then
    throw (.user ("recommended workspace '" ++ record.name ++ "' does not support --keep-volume because its private home, "
      ++ "checkout, and Docker volumes are identity-bound; preserve data by leaving the workspace intact or copying it "
      ++ "before discard"))
  else
    match ← effect .inspectContainer with
    | none =>
      @atomicWrite _ .workspace record.discarding
      throw (.user "workspace container cannot be inspected")
    | some container =>
      notifyContainer record container
      @atomicWrite _ .workspace record.discarding
      removeGrant .workspace record.name record.workspaceId
      removeGrant .agent record.name record.workspaceId
      removeGrant .nativeGit record.name record.workspaceId
      pure record

/-- `discardWorkspace`: the hooks, the teardown and the removal of the container and its volume are one command. -/
def discardWorkspace (name : String) (keepVolume : Bool) : Action Unit := do
  let name ← validateLifecycleName name .workspace
  let setup := "workspace-" ++ name ++ "-setup"
  let authority := "workspace-" ++ name ++ "-authority"
  acquireLock setup
  Program.tryFinally (do
    acquireLock authority
    let _ ← Program.tryFinally (beginDiscard name keepVolume) (effect (.release authority))
    runCommand
    removeRecord .workspace name) (effect (.release setup))

/-! ## All calls -/

def run : Operation → Action Outcome
  | .claim record => do
    claimRecord record
    pure .done
  | .write record => do
    atomicWrite record
    pure .done
  | .remove kind name => do
    removeRecord kind name
    pure .done
  | .list kind => do
    let records ← listRecords kind
    pure (.records records)
  | .readWorkspace name => do
    let record ← readWorkspace name
    pure (.workspace record)
  | .ensureGrant audience name => do
    let granted ← ensureNamedGrant audience name
    pure (.granted granted.1 granted.2)
  | .authenticate audience token => do
    let record ← authenticateGrant token audience
    pure (.authenticated record)
  | .removeGrant audience name workspaceId => do
    removeGrant audience name workspaceId
    pure .done
  | .discard name keepVolume => do
    discardWorkspace name keepVolume
    pure .done

/-- The processes that use one state directory. -/
def system : Concurrent World Effect Answer Failure Operation Outcome where
  run := run
  begins op w := { w with begun := op :: w.begun }
  performs := Performs
  crashes call w := w.crash call

abbrev State := Concurrent.State World Effect Answer Failure Operation Outcome

def initial : State := ⟨World.empty, []⟩

end Grants

end Dim.Lifecycle
