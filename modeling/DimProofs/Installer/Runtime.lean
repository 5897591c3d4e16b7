/-
The installer's runtime directory: what stands under `runtime` and at the managed symlink, and the file operations
and commands that an installation makes. An oracle says which of them fail, and what is left where one does; the
pattern of plugin specifiers, the progress reports and the texts of the files are left out.
-/
import DimProofs.Lib.Program

namespace Dim.Installer

open Effectful

/-- A runtime directory: the packages that npm installed and the plugin manifest. It is whole unless a removal has
taken something from it, or a copy has left something out. -/
structure Runtime where
  dependencies : List (String × String)
  plugins : List String
  whole : Bool
deriving DecidableEq

/-- What is found under the name of the managed symlink. -/
inductive Link where
  | absent
  | managed (target : String)
  | foreign
deriving DecidableEq

/-- `ManagedSymlinkSnapshot`. -/
inductive Snapshot where
  | absent
  | present (target : String)

/-- The variables of an installation. -/
structure Locals where
  previousMoved : Bool := false
  promoted : Bool := false
  committed : Bool := false
  controllerRestartAttempted : Bool := false
  targetControllerReady : Bool := false
  installedSymlink : Bool := false
  symlinkSnapshot : Option Snapshot := none

/-- The directories `current`, backup and staging, the symlink, and the runtimes that `controller restart` was run
with. -/
structure World where
  (current backup staging : Option Runtime)
  link : Link
  restarts : List (Option Runtime)
  locals : Locals

/-! ## Operations -/

/-- What may fail, each operation on its own. -/
inductive Operation where
  | assertSpecifiers
  | mkdirManagedRoot
  | mkdtemp
  | readManifest
  | readPackage
  | copyCurrent
  | persistSpecifiers
  | writePackage
  | npmInstall
  | accessStaged
  | queryVersion
  | readStagedPackage
  | readInstalledPackage
  | preflight
  | readStagedManifest
  | writeManifest
  | moveCurrent
  | promote
  | accessCurrent
  | restartTarget
  | snapshotLink
  | mkdirLink
  | snapshotAgain
  | createLink
  | renameLink
  | readUserConfig
  | writeUserConfig
  | cleanupSiblings
  | removeBackup
  | stopTarget
  | removeCurrent
  | restoreCurrent
  | unlinkRestored
  | createRestored
  | renameRestored
  | restartPrevious
  | removeStaging
deriving DecidableEq

/-- Which operations fail, which failed removals have taken something, what a copy of the current directory has copied
where an `ENOENT` cuts it off, and what the commands give. -/
structure Oracle where
  (fails damages : Operation → Bool)
  interrupted : Option Runtime
  dependencies : List (String × String)
  version : String

/-- What came of a copy or a move; `missing` is an `ENOENT`. -/
inductive Moved where
  | moved
  | missing
  | failed

inductive Effect where
  | operate (operation : Operation)
  | move (operation : Operation)
  | readPlugins (operation : Operation) (staged : Bool)
  | readDependencies (operation : Operation) (staged : Bool)
  | queryVersion
  | writeManifest (plugins : List String)
  | snapshot (operation : Operation)
  | setLink (operation : Operation) (target : String)
  | assign (change : Locals → Locals)
  | locals

@[reducible] def Answer : Effect → Type
  | .operate _ => Bool
  | .move _ => Moved
  | .readPlugins _ _ => Option (List String)
  | .readDependencies _ _ => Option (List (String × String))
  | .queryVersion => Option String
  | .writeManifest _ => Bool
  | .snapshot _ => Option Snapshot
  | .setLink _ _ => Bool
  | .assign _ => Unit
  | .locals => Locals

namespace World

/-- A directory that a failed removal leaves. -/
def remains (o : Oracle) (operation : Operation) (r : Option Runtime) : Option Runtime :=
  r.map fun r => { r with whole := r.whole && !o.damages operation }

/-- What an operation does where it does not fail. -/
def operated (o : Oracle) : Operation → World → World
  | .mkdtemp, w => { w with staging := some ⟨[], [], true⟩ }
  | .npmInstall, w => { w with staging := w.staging.map fun r => { r with dependencies := o.dependencies } }
  | .promote, w => { w with current := w.staging, staging := none }
  | .restartTarget, w => { w with restarts := w.restarts ++ [w.current] }
  | .restartPrevious, w => { w with restarts := w.restarts ++ [w.current] }
  | .cleanupSiblings, w => { w with backup := none, staging := none }
  | .removeBackup, w => { w with backup := none }
  | .removeCurrent, w => { w with current := none }
  | .restoreCurrent, w => { w with current := w.backup, backup := none }
  | .unlinkRestored, w => { w with link := .absent }
  | .removeStaging, w => { w with staging := none }
  | _, w => w

/-- What an operation leaves where it fails: npm may have installed anything. -/
def failed (o : Oracle) : Operation → World → World
  | .npmInstall, w => { w with staging := w.staging.map fun r => { r with dependencies := o.dependencies } }
  | .restartTarget, w => { w with restarts := w.restarts ++ [w.current] }
  | .restartPrevious, w => { w with restarts := w.restarts ++ [w.current] }
  | .removeBackup, w => { w with backup := remains o .removeBackup w.backup }
  | .removeCurrent, w => { w with current := remains o .removeCurrent w.current }
  | _, w => w

/-- An operation fails also where it has no file to work on. -/
def impossible : Operation → World → Bool
  | .restoreCurrent, w => w.backup.isNone
  | .unlinkRestored, w => w.link = .absent
  | _, _ => false

def operate (o : Oracle) (operation : Operation) (w : World) : Bool × World :=
  if o.fails operation || impossible operation w then (false, failed o operation w) else (true, operated o operation w)

/-- A copy of the current directory to the staging directory, which something that vanishes cuts off, or its move to
the backup. -/
def move (o : Oracle) (operation : Operation) (w : World) : Moved × World :=
  if o.fails operation then (.failed, w)
  else match w.current with
    | none => (.missing, w)
    | some current =>
      match operation with
      | .copyCurrent =>
        match o.interrupted with
        | none => (.moved, { w with staging := some current })
        | some copied => (.missing, { w with staging := some copied })
      | _ => (.moved, { w with current := none, backup := some current })

def directory (w : World) (staged : Bool) : Option Runtime := if staged then w.staging else w.current

/-- `snapshotManagedSymlink`: a file that is no managed symlink makes it fail. -/
def snapshot (o : Oracle) (operation : Operation) (w : World) : Option Snapshot :=
  if o.fails operation then none
  else match w.link with
    | .absent => some .absent
    | .managed target => some (.present target)
    | .foreign => none

end World

def step (o : Oracle) : (e : Effect) → World → Answer e × World
  | .operate operation, w => w.operate o operation
  | .move operation, w => w.move o operation
  | .readPlugins operation staged, w =>
    (if o.fails operation then none else some (((w.directory staged).map (·.plugins)).getD []), w)
  | .readDependencies operation staged, w =>
    (if o.fails operation then none else some (((w.directory staged).map (·.dependencies)).getD []), w)
  | .queryVersion, w => (if o.fails .queryVersion then none else some o.version, w)
  | .writeManifest plugins, w =>
    if o.fails .writeManifest then (false, w) else (true, { w with staging := w.staging.map fun r => { r with plugins } })
  | .snapshot operation, w => (w.snapshot o operation, w)
  | .setLink operation target, w => if o.fails operation then (false, w) else (true, { w with link := .managed target })
  | .assign change, w => ((), { w with locals := change w.locals })
  | .locals, w => (w.locals, w)

abbrev Action (α : Type) := Program Effect Answer String α

def effect (e : Effect) : Action (Answer e) := Program.effect e

/-- An operation that the code awaits without a handler of its own. -/
def required (operation : Operation) (message : String) : Action Unit := do
  match ← effect (.operate operation) with
  | true => pure ()
  | false => throw message

/-! ## The managed symlink -/

def replaceSymlink (create rename : Operation) (target : String) : Action Unit := do
  required create "symlink failed"
  match ← effect (.setLink rename target) with
  | true => pure ()
  | false => throw "rename failed"

def snapshotManagedSymlink (operation : Operation) : Action Snapshot := do
  match ← effect (.snapshot operation) with
  | some snapshot => pure snapshot
  | none => throw "already exists and is not managed by DIM installer"

def installManagedSymlink (target : String) : Action Unit := do
  required .mkdirLink "mkdir failed"
  let _ ← snapshotManagedSymlink .snapshotAgain
  replaceSymlink .createLink .renameLink target

def restoreManagedSymlink : Snapshot → Action Unit
  | .absent => required .unlinkRestored "unlink failed"
  | .present target => replaceSymlink .createRestored .renameRestored target

/-! ## The CLI -/

structure CliPluginSelection where
  (name specifier : String)

/-- `CliInstallOptions`, and the path of the executable below the current directory. -/
structure CliInstallOptions where
  version : Option String
  packageSpecifiers : Option (List String)
  packageNames : List String
  exposeOnPath : Bool
  restartController : Option Bool
  plugins : List CliPluginSelection
  executable : String

/-- `[...new Set(names)].sort()`. -/
def sorted (names : List String) : List String := names.eraseDups.mergeSort fun a b => a ≤ b

/-- A plugin of the previous manifest is installed in the runtime. -/
def previousInstalled (dependencies : List (String × String)) : List String → Action Unit
  | [] => pure ()
  | name :: rest =>
    if (dependencies.lookup name).any (· ≠ "") then previousInstalled dependencies rest
    else throw ("enabled plugin '" ++ name ++ "' is not installed in the DIM runtime")

/-- `prepareCliPluginGraph`: the plugins of the next manifest. -/
def prepareCliPluginGraph (selected : List CliPluginSelection) (packageNames : List String) : Action (List String) := do
  match ← effect (.readPlugins .readManifest false) with
  | none => throw "invalid DIM plugin manifest"
  | some previous =>
    match ← effect (.readDependencies .readPackage false) with
    | none => throw "invalid package"
    | some dependencies =>
      previousInstalled dependencies (previous.filter fun name => !(packageNames ++ selected.map (·.name)).contains name)
      pure (sorted (previous ++ selected.map (·.name)))

/-- `verifySelectedPlugins`. -/
def verifySelectedPlugins (selected : List CliPluginSelection) : Action Unit := do
  match ← effect (.readDependencies .readStagedPackage true) with
  | none => throw "invalid package"
  | some dependencies =>
    match selected.find? fun plugin => (dependencies.lookup plugin.name).isNone with
    | none => pure ()
    | some plugin => throw ("npm did not install '" ++ plugin.name ++ "' as a direct plugin dependency")

def verifyVersion (options : CliInstallOptions) : Action Unit := do
  match ← effect .queryVersion with
  | none => throw "dim --version failed"
  | some installed =>
    if options.version.any (fun version => version ≠ "" && installed ≠ version) then
      throw ("installed DIM CLI reports " ++ installed)
    else pure ()

def writeStagedManifest (plugins : List String) : Action Unit := do
  match ← effect (.writeManifest plugins) with
  | true => pure ()
  | false => throw "manifest cannot be written"

/-- The staging directory is filled and checked. -/
def stageRuntime (options : CliInstallOptions) (plugins : List String) : Action Unit := do
  required .npmInstall "npm failed"
  required .accessStaged "access failed"
  verifyVersion options
  verifySelectedPlugins options.plugins
  required .preflight "state preflight failed"
  writeStagedManifest plugins

/-- The current directory is moved to the backup, and the staging directory to its place. -/
def promoteRuntime : Action Unit := do
  match ← effect (.move .moveCurrent) with
  | .failed => throw "rename failed"
  | .missing => pure ()
  | .moved => effect (.assign fun v => { v with previousMoved := true })
  required .promote "rename failed"
  effect (.assign fun v => { v with promoted := true })

def restartTarget (options : CliInstallOptions) : Action Unit :=
  if options.restartController ≠ some false then do
    effect (.assign fun v => { v with controllerRestartAttempted := true })
    required .restartTarget "target controller restart/readiness failed"
    effect (.assign fun v => { v with targetControllerReady := true })
  else pure ()

def exposeRuntime (options : CliInstallOptions) : Action Unit :=
  if options.exposeOnPath then do
    effect (.assign fun v => { v with installedSymlink := true })
    let snapshot ← snapshotManagedSymlink .snapshotLink
    effect (.assign fun v => { v with symlinkSnapshot := some snapshot })
    installManagedSymlink options.executable
  else pure ()

/-- The `try` block of `installDimCli`. -/
def installRuntime (options : CliInstallOptions) (plugins : List String) : Action Unit := do
  stageRuntime options plugins
  promoteRuntime
  required .accessCurrent "access failed"
  restartTarget options
  exposeRuntime options
  required .readUserConfig "invalid DIM user config"
  required .writeUserConfig "configuration cannot be written"
  effect (.assign fun v => { v with committed := true })
  required .cleanupSiblings "rm failed"

def stopTarget (failure : String) (v : Locals) : Action Unit :=
  if v.promoted && v.targetControllerReady then required .stopTarget failure else pure ()

def removePromoted (v : Locals) : Action Unit :=
  if v.promoted then required .removeCurrent "rm failed" else pure ()

def restoreLink (v : Locals) : Action Unit :=
  match v.installedSymlink, v.symlinkSnapshot with
  | true, some snapshot => restoreManagedSymlink snapshot
  | _, _ => pure ()

def restartPrevious (v : Locals) : Action Unit :=
  if v.controllerRestartAttempted then required .restartPrevious "previous controller restart failed" else pure ()

def restorePrevious (v : Locals) : Action Unit :=
  if v.previousMoved then do
    required .restoreCurrent "rename failed"
    restoreLink v
    restartPrevious v
  else restoreLink v

/-- The `catch` block of `installDimCli`. -/
def rollBack (failure : String) : Action Unit := do
  let v ← effect .locals
  if v.committed then pure ()
  else do
    stopTarget failure v
    removePromoted v
    restorePrevious v

/-- `requestedPackages`. -/
def requestPackages (options : CliInstallOptions) : Action Unit :=
  if options.packageSpecifiers.isNone && (options.version.getD "") = "" then
    throw "a CLI version or local package bundle is required"
  else pure ()

def installDimCli (options : CliInstallOptions) : Action Unit := do
  required .mkdirManagedRoot "mkdir failed"
  required .mkdtemp "mkdtemp failed"
  requestPackages options
  let plugins ← prepareCliPluginGraph options.plugins options.packageNames
  (tryCatch (installRuntime options plugins) fun failure => do
    rollBack failure
    throw failure).tryFinally (required .removeStaging "rm failed")

/-! ## Plugins -/

/-- `packageNameFromSpecifier`: the name before a version, or none where it is an archive. -/
def packageNameFromSpecifier (specifier : String) : Option String :=
  match specifier.toList with
  | '@' :: rest => some (String.ofList ('@' :: rest.takeWhile (· ≠ '@')))
  | cs =>
    let name := cs.takeWhile (· ≠ '@')
    let edge := fun c : Char => ('a' ≤ c && c ≤ 'z') || ('0' ≤ c && c ≤ '9')
    if name.head?.any edge && name.all (fun c => edge c || c = '.' || c = '_' || c = '-') then some (String.ofList name)
    else none

/-- The names that an installation adds: those it finds among the dependencies, and those of the specifiers. -/
def installedNames (specifiers : List String) (before after : List (String × String)) : List String :=
  (((after.map (·.1)).filter fun name => (before.lookup name).isNone) ++
    specifiers.filterMap packageNameFromSpecifier).eraseDups

def verifyInstalled (after : List (String × String)) (installed : List String) : Action Unit :=
  match installed.find? fun name => (after.lookup name).isNone with
  | none => pure ()
  | some name => throw ("npm did not install '" ++ name ++ "' as a direct plugin dependency")

def writePluginManifest (installed : List String) : Action Unit := do
  match ← effect (.readPlugins .readStagedManifest true) with
  | none => throw "invalid DIM plugin manifest"
  | some previous => writeStagedManifest (sorted (previous ++ installed))

def installPluginsInStage (specifiers : List String) : Action Unit := do
  match ← effect (.readDependencies .readStagedPackage true) with
  | none => throw "invalid package"
  | some before =>
    -- it is written only where there is none
    required .writePackage "package cannot be written"
    required .persistSpecifiers "archive cannot be copied"
    required .npmInstall "npm failed"
    match ← effect (.readDependencies .readInstalledPackage true) with
    | none => throw "invalid package"
    | some after => do
      verifyInstalled after (installedNames specifiers before after)
      writePluginManifest (installedNames specifiers before after)

def assertSpecifiers (specifiers : List String) : Action Unit :=
  if specifiers.isEmpty then throw "at least one plugin package is required"
  else required .assertSpecifiers "must use an exact version or a local .tgz archive"

/-- Every `ENOENT` counts as a current directory that is missing. -/
def copyCurrent : Action Unit := do
  match ← effect (.move .copyCurrent) with
  | .failed => throw "cp failed"
  | _ => pure ()

/-- The `try` block of `installPlugins`. -/
def installStagedPlugins (specifiers : List String) : Action Unit := do
  copyCurrent
  installPluginsInStage specifiers
  promoteRuntime
  effect (.assign fun v => { v with controllerRestartAttempted := true })
  required .restartTarget "target controller restart/readiness failed"
  required .removeBackup "rm failed"

/-- The `catch` block of `installPlugins`. -/
def rollBackPlugins : Action Unit := do
  let v ← effect .locals
  removePromoted v
  if v.previousMoved then do
    required .restoreCurrent "rename failed"
    restartPrevious v
  else pure ()

def installPlugins (specifiers : List String) : Action Unit := do
  assertSpecifiers specifiers
  required .mkdirManagedRoot "mkdir failed"
  required .mkdtemp "mkdtemp failed"
  (tryCatch (installStagedPlugins specifiers) fun failure => do
    rollBackPlugins
    throw failure).tryFinally (required .removeStaging "rm failed")

end Dim.Installer
