/-
Drafts of native Projects, before and after their root is imported: what identifies a draft, and the receipt of
an import with what binds it to a draft. The literal fields that a type fixes (`schemaVersion`, `serviceId`,
`rootRepositoryId`) are left out, and so are drafts of schema version 1, which no code writes.
-/
import DimProofs.Lifecycle.State

namespace Dim.Projects

/-- Review policies: how one is compiled from its own entries and a protected ref, and its JSON text. -/
class Policies (Policy : Type) where
  compiles : (rootAlias protectedRef : String) → Policy → Bool
  stringify : Policy → String

/-- `createHash("sha256")`, in hexadecimal. -/
class Sha256 where
  hex : String → String
  pattern : ∀ text, Pattern.hexString 64 (hex text) = true

def maximumBundleBytes : Nat := 256 * 1024 * 1024 - 64 * 1024 - 1

/-- `DraftIdentity`, with the review policy. -/
structure Identity (Policy : Type) where
  (name projectId ownerHostId generationId rootAlias protectedRef : String)
  (expectedCommit expectedTree : String)
  reviewPolicy : Policy
  bundleDigest : String
  bundleSize : Nat

/-- `NativeGitRootImportResult`. -/
structure Receipt where
  (projectId generationId importNonce protectedRef expectedCommit policyDigest : String)
  bundleDigest : String
  bundleSize : Nat
  resolvedTree : String

/-- `/^[a-z0-9](?:[a-z0-9-]{0,62}[a-z0-9])?$/`. -/
def projectIdPattern (id : String) : Bool :=
  let edge : Pattern.CharClass := fun c => Pattern.lower c || Pattern.digit c
  Pattern.bounded edge (fun c => edge c || c = '-') 63 id.toList && (id.toList.getLast?.any edge)

/-- `/^(?:[0-9a-f]{40}|[0-9a-f]{64})$/`. -/
def objectIdPattern (id : String) : Bool := Pattern.hexString 40 id || Pattern.hexString 64 id

section Checks

variable {Policy : Type} [Policies Policy] [Sha256]

/-- `parseReceipt`. -/
def Receipt.binds (r : Receipt) (d : Identity Policy) : Bool :=
  r.projectId = d.projectId && r.generationId = d.generationId && r.protectedRef = d.protectedRef &&
    r.expectedCommit = d.expectedCommit && r.policyDigest = Sha256.hex (Policies.stringify d.reviewPolicy) &&
    r.bundleDigest = d.bundleDigest && r.bundleSize = d.bundleSize && r.resolvedTree = d.expectedTree &&
    Pattern.uuid r.importNonce

end Checks

end Dim.Projects
