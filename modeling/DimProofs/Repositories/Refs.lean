/-
The connection of a repository to its upstream, and the maps between the refs of the two: an upstream's refs are shared
out by prefix, by explicit branch maps, or left to a fallback repository.
-/
import DimProofs.Repositories.Set

namespace Dim.Repositories

/-- `RepositoryRefNamespace`. -/
structure RefNamespace where
  prefixed : Option Text
  fallback : Bool
  excludedPrefixes : List Text
  branches : Option (PlainObject Text)

namespace RefNamespace

def ofBranches (branches : PlainObject Text) : RefNamespace := ⟨none, false, [], some branches⟩

def ofPrefix (refPrefix : Text) : RefNamespace := ⟨some refPrefix, false, [], none⟩

def ofFallback (excludedPrefixes : List Text) : RefNamespace := ⟨none, true, excludedPrefixes, none⟩

end RefNamespace

/-- `ResolvedRepositoryConnection`; the URL of an inherited property is undefined. -/
structure Connection where
  url : Option Text
  refNamespace : Option RefNamespace
  publishBranches : Option (PlainObject Text)

/-- The prefixes of the repositories that share the entry's upstream, sorted. -/
def excludedPrefixes (set : RepositorySet) (upstream : Text) : List Text :=
  (set.repositories.values.filterMap fun candidate =>
    if candidate.upstream = some upstream then candidate.refPrefix else none).insertionSort (· ≤ ·)

/-- The namespace of a repository with an upstream. -/
def sharedNamespace (set : RepositorySet) (entry : Entry) (upstream : Text) : RefNamespace :=
  if entry.hasImports then .ofBranches entry.importBranches
  else match entry.refPrefix with
    | some refPrefix => .ofPrefix refPrefix
    | none => .ofFallback (excludedPrefixes set upstream)

def resolveEntry (set : RepositorySet) (repoAlias : Text) (entry : Entry) : Except Failure (Option Connection) :=
  let publish := if entry.publishBranches.entries = [] then none else some entry.publishBranches
  let imported := if entry.hasImports then some (RefNamespace.ofBranches entry.importBranches) else none
  match entry.url, entry.upstream with
  | some url, _ => .ok (some ⟨some url, imported, publish⟩)
  | none, none => .ok none
  | none, some upstream =>
    match set.upstreams.read upstream with
    | .undefined => .error (.userError
        ("repository ".toList ++ quote repoAlias ++ " references unknown upstream ".toList ++ quote upstream))
    | .inherited => .ok (some ⟨none, some (sharedNamespace set entry upstream), publish⟩)
    | .own found => .ok (some ⟨some found.url, some (sharedNamespace set entry upstream), publish⟩)

def resolveRepositoryConnection (set : RepositorySet) (repoAlias : Text) : Except Failure (Option Connection) :=
  match set.repositories.read repoAlias with
  | .undefined => .error (.userError ("repository set has no repository ".toList ++ quote repoAlias))
  -- `Object.keys(entry.publishBranches)` where there are none
  | .inherited => .error .typeError
  | .own entry => resolveEntry set repoAlias entry

/-! ## Refs -/

def heads : Text := "refs/heads/".toList

def tags : Text := "refs/tags/".toList

def baseOf (ref : Text) : Option Text :=
  if startsWith ref heads then some heads else if startsWith ref tags then some tags else none

/-- The base of a ref and its name, which is not empty. -/
def splitRef (ref : Text) : Except Failure (Text × Text) :=
  match baseOf ref with
  | none => .error (.userError ("unsupported Git ref ".toList ++ quote ref))
  | some base =>
    if ref.length = base.length then .error (.userError ("unsupported Git ref ".toList ++ quote ref))
    else .ok (base, ref.drop base.length)

def externalInNamespace (refs : RefNamespace) (ref base name : Text) : Option Text :=
  match refs.branches, refs.prefixed with
  | some branches, _ =>
    if base ≠ heads then none
    else (branches.entries.find? (·.2 = name)).map fun entry => heads ++ entry.1
  | none, some refPrefix => if startsWith name refPrefix then some (base ++ name.drop refPrefix.length) else none
  | none, none => if refs.fallback && refs.excludedPrefixes.any (startsWith name) then none else some ref

def mapExternalRefToRepository (refs : Option RefNamespace) (ref : Text) : Except Failure (Option Text) := do
  let (base, name) ← splitRef ref
  match refs with
  | none => return some ref
  | some refs => return externalInNamespace refs ref base name

/-- The external branch of an explicit map, where reading a property may find an inherited one. -/
def externalBranch (branches : PlainObject Text) (ref base name : Text) : Except Failure Text :=
  let unmapped : Failure :=
    .userError ("ref ".toList ++ quote ref ++ " is not in the reviewed import branch mapping".toList)
  if base ≠ heads then .error unmapped
  else match branches.read name with
    | .undefined => .error unmapped
    | .own external => .ok (heads ++ external)
    | .inherited => .ok (heads ++ PlainObject.inheritedText name)

def repositoryInNamespace (refs : RefNamespace) (ref base name : Text) : Except Failure Text :=
  match refs.branches, refs.prefixed with
  | some branches, _ => externalBranch branches ref base name
  | none, some refPrefix => .ok (base ++ refPrefix ++ name)
  | none, none =>
    if refs.fallback && refs.excludedPrefixes.any (startsWith name) then
      .error (.userError ("ref ".toList ++ quote ref ++ " belongs to another repository's prefix".toList))
    else .ok ref

def mapRepositoryRefToExternal (refs : Option RefNamespace) (ref : Text) : Except Failure Text := do
  let (base, name) ← splitRef ref
  match refs with
  | none => return ref
  | some refs => repositoryInNamespace refs ref base name

end Dim.Repositories
