/-
When installing the CLI or plugins is all or nothing: exactly where the `catch` block ends well. It is not where the
managed symlink was absent and is not there to be unlinked, where a removal has taken something, or where the copy of the
current directory was cut off.
-/
import DimProofs.Installer.Plugins

namespace Dim.Installer

open Effectful

section Whole

variable {o : Oracle} {w w₁ : World} {new : Runtime} {executable : String}

/-- A `try` block with its `catch` and `finally` blocks: the last one changes nothing that counts. -/
theorem atomic_tryFinally {p : Action Unit} {handler : String → Action Unit} {c : Bool} {w₂ : World} {R : World → Prop}
    {P : Prop} (h : Stage o p w₁ c w₂ R) (hdone : c = true → (Atomic executable new w w₂ ↔ P))
    (hfailed : c = false → ∀ failure w', R w' → (Atomic executable new w (after o (handler failure) w') ↔ P)) :
    Atomic executable new w (after o ((tryCatch p fun failure => do
      handler failure
      throw failure).tryFinally (required .removeStaging "rm failed")) w₁) ↔ P := by
  have hlast : ∀ w', Atomic executable new w (after o (required .removeStaging "rm failed") w') ↔
      Atomic executable new w w' := by
    intro w'
    rw [after_required]
    split
    · exact Iff.rfl
    · exact ⟨fun h => h.congr rfl rfl rfl, fun h => h.congr rfl rfl rfl⟩
  have hafter : ∀ q : Action Unit, after o (q.tryFinally (required .removeStaging "rm failed")) w₁ =
      after o (required .removeStaging "rm failed") (after o q w₁) := by
    intro q
    rw [after, exec_tryFinally, after, after]
    rcases (required Operation.removeStaging "rm failed").exec (step o) (q.exec (step o) w₁).2 with
      ⟨failure | value, w'⟩ <;> rfl
  rw [hafter, hlast]
  cases c with
  | true =>
    have hexec : p.exec (step o) w₁ = (.ok (), w₂) := h
    rw [after, exec_tryCatch, hexec]
    exact hdone rfl
  | false =>
    obtain ⟨failure, w', hexec, hR⟩ := h
    have hthrow : after o (handler failure >>= fun _ => (throw failure : Action Unit)) w' =
        after o (handler failure) w' := by
      rw [after, exec_bind, after]
      rcases (handler failure).exec (step o) w' with ⟨failure' | value, w''⟩ <;> rfl
    rw [after, exec_tryCatch, hexec, ← hfailed rfl failure w' hR, ← hthrow]
    rfl

/-- The staging directory does not count. -/
theorem Atomic.start {staging : Option Runtime} :
    Atomic executable new { w with staging } w₁ ↔ Atomic executable new w w₁ :=
  ⟨fun h => ⟨h.runtime, h.restarted⟩, fun h => ⟨h.runtime, h.restarted⟩⟩

theorem Start.withStaging (hw : Start w) (staging : Option Runtime) : Start { w with staging } :=
  ⟨⟨hw.fresh.locals, hw.fresh.restarts, hw.fresh.backup⟩, hw.whole⟩

theorem atomic_stages (hw : Start w) (h : Stages w w₁) : Atomic executable new w w₁ := by
  obtain ⟨staging, rfl⟩ := h
  exact Atomic.still rfl rfl hw.fresh.restarts

/-- A part that only fills the staging directory comes first. -/
theorem atomic_andThen {p q : Action Unit} {c : Bool} {w₂ : World} {P : Prop} (hw : Start w)
    (h : Stage o p w₁ c w₂ (Stages w)) (hrest : c = true → (Atomic executable new w (after o q w₂) ↔ P)) :
    Atomic executable new w (after o (p >>= fun _ => q) w₁) ↔ (c = true → P) := by
  have hafter := @after_andThen o w₁ w₂ p q c _ h
  cases c with
  | true =>
    rw [hafter.1 rfl, hrest rfl]
    simp
  | false => exact iff_of_true (atomic_stages hw (hafter.2 rfl)) (by simp)

end Whole

/-! ## `installDimCli` -/

section Cli

variable (o : Oracle) (options : CliInstallOptions) (w : World)

/-- The plugins of the next manifest. -/
def nextPlugins : List String := sorted (previousPlugins w ++ options.plugins.map (·.name))

/-- What precedes the `try` block succeeds. -/
def prepared : Bool :=
  !o.fails .mkdirManagedRoot && !o.fails .mkdtemp &&
    !(options.packageSpecifiers.isNone && decide (options.version.getD "" = "")) && !o.fails .readManifest &&
    !o.fails .readPackage &&
    ((previousPlugins w).filter fun name => !(options.packageNames ++ options.plugins.map (·.name)).contains name).all
      fun name =>
      ((previousDependencies w).lookup name).any (· ≠ "")

variable {o options w}

theorem stage_previousInstalled {dependencies : List (String × String)} {R : World → Prop} (hR : R w) : ∀ names :
    List String,
    Stage o (previousInstalled dependencies names) w (names.all fun name => (dependencies.lookup name).any (· ≠ "")) w R
  | [] => stage_pure
  | name :: rest => by
    rw [previousInstalled, List.all_cons]
    split
    · rename_i hfound
      exact (stage_previousInstalled hR rest).congr (by rw [hfound, Bool.true_and]) rfl
    · rename_i hfound
      have hstage : Stage o (throw ("enabled plugin '" ++ name ++ "' is not installed in the DIM runtime")) w false w R :=
        ⟨_, w, rfl, hR⟩
      exact hstage.congr (by rw [Bool.eq_false_iff.2 hfound, Bool.false_and]) rfl

/-- The next manifest, or a failure that changes nothing. -/
theorem exec_prepareCliPluginGraph {selected : List CliPluginSelection} {names : List String} {c : Bool}
    (hc : (!o.fails .readManifest && (!o.fails .readPackage &&
      ((previousPlugins w).filter fun name => !(names ++ selected.map (·.name)).contains name).all fun name =>
        ((previousDependencies w).lookup name).any (· ≠ ""))) = c) :
    (c = true → (prepareCliPluginGraph selected names).exec (step o) w =
        (.ok (sorted (previousPlugins w ++ selected.map (·.name))), w)) ∧
      (c = false → ∃ failure, (prepareCliPluginGraph selected names).exec (step o) w = (.error failure, w)) := by
  rw [prepareCliPluginGraph, exec_readPlugins]
  cases hmanifest : o.fails .readManifest with
  | true =>
    rw [hmanifest, Bool.not_true, Bool.false_and] at hc
    exact ⟨fun h => (by rw [h] at hc; cases hc), fun _ => ⟨_, rfl⟩⟩
  | false =>
    rw [if_neg (by decide)]
    simp only
    rw [exec_readDependencies]
    cases hpackage : o.fails .readPackage with
    | true =>
      rw [hmanifest, hpackage, Bool.not_true, Bool.false_and, Bool.and_false] at hc
      exact ⟨fun h => (by rw [h] at hc; cases hc), fun _ => ⟨_, rfl⟩⟩
    | false =>
      rw [if_neg (by decide)]
      rw [hmanifest, hpackage, Bool.not_false, Bool.true_and, Bool.true_and] at hc
      have hstage := @stage_previousInstalled o w (previousDependencies w) (fun w' => w' = w) rfl
        ((previousPlugins w).filter fun name => !(names ++ selected.map (·.name)).contains name)
      rw [hc] at hstage
      cases c with
      | true =>
        have hexec : (previousInstalled _ _).exec (step o) w = (.ok (), w) := hstage
        refine ⟨fun _ => ?_, fun h => (by cases h)⟩
        simp only
        rw [exec_bind]
        simp only [World.directory, Bool.false_eq_true, if_false]
        rw [← previousPlugins, ← previousDependencies, hexec]
        rfl
      | false =>
        obtain ⟨failure, w', hexec, rfl⟩ := hstage
        refine ⟨fun h => (by cases h), fun _ => ⟨failure, ?_⟩⟩
        simp only
        rw [exec_bind]
        simp only [World.directory, Bool.false_eq_true, if_false]
        rw [← previousPlugins, ← previousDependencies, hexec]

theorem stage_requestPackages {R : World → Prop} (hR : R w) : Stage o (requestPackages options) w
    (!(options.packageSpecifiers.isNone && decide (options.version.getD "" = ""))) w R := by
  rw [requestPackages]
  split
  · rename_i hmissing
    have hstage : Stage o (throw "a CLI version or local package bundle is required") w false w R := ⟨_, w, rfl, hR⟩
    exact hstage.congr (by rw [hmissing]; rfl) rfl
  · rename_i hpresent
    exact stage_pure.congr (by rw [Bool.eq_false_iff.2 hpresent]; rfl) rfl

/-- The `try` block, from the filled-in variables on. -/
theorem atomic_installRuntime {plugins : List String} (hw : Start w) (hstaging : w.staging = some ⟨[], [], true⟩) :
    Atomic options.executable (newRuntime o plugins) w (after o ((tryCatch (installRuntime options plugins) fun failure => do
      rollBack failure
      throw failure).tryFinally (required .removeStaging "rm failed")) w) ↔
      RollsBack o options w (newRuntime o plugins) := by
  refine atomic_tryFinally (stage_installRuntime hw.fresh hstaging) (fun hdone => ?_) fun _ failure w' hfailed =>
    atomic_rollBack hw hfailed
  simp only [Bool.and_eq_true] at hdone
  have hpresent : Atomic options.executable (newRuntime o plugins) w
    (reached w (newRuntime o plugins) options.executable none
    (moves o options w) true (attempts o options) (readies o options) options.exposeOnPath (snapshotted o options w)
    (links o options w) true) := atomic_reached
  exact iff_of_true (hpresent.congr rfl rfl rfl) (.inl hdone.1)

/-- Installing the CLI is all or nothing exactly where the `catch` block ends well. -/
theorem atomic_installDimCli (hw : Start w) :
    Atomic options.executable (newRuntime o (nextPlugins options w)) w (after o (installDimCli options) w) ↔
      (prepared o options w = true → RollsBack o options w (newRuntime o (nextPlugins options w))) := by
  have hstay : ∀ staging, Stages w { w with staging } := fun staging => ⟨staging, rfl⟩
  have hbody := @atomic_installRuntime o options { w with staging := some ⟨[], [], true⟩ } (nextPlugins options w)
    (hw.withStaging _) rfl
  have hprepared : prepared o options w = (!o.fails .mkdirManagedRoot && (!o.fails .mkdtemp &&
      (!(options.packageSpecifiers.isNone && decide (options.version.getD "" = "")) && (!o.fails .readManifest &&
        (!o.fails .readPackage && ((previousPlugins w).filter fun name =>
          !(options.packageNames ++ options.plugins.map (·.name)).contains name).all fun name =>
            ((previousDependencies w).lookup name).any (· ≠ "")))))) := by
    simp only [prepared, Bool.and_assoc]
  rw [Atomic.start] at hbody
  rw [hprepared, Bool.and_eq_true, and_imp, Bool.and_eq_true, and_imp, Bool.and_eq_true, and_imp]
  refine atomic_andThen hw (stage_required "mkdir failed" rfl rfl fun _ => ⟨w.staging, rfl⟩) fun _ => ?_
  refine atomic_andThen hw (stage_required "mkdtemp failed" rfl rfl fun _ => ⟨w.staging, rfl⟩) fun _ => ?_
  refine atomic_andThen hw (stage_requestPackages (hstay _)) fun _ => ?_
  cases hgraph : (!o.fails .readManifest && (!o.fails .readPackage && ((previousPlugins w).filter fun name =>
      !(options.packageNames ++ options.plugins.map (·.name)).contains name).all fun name =>
        ((previousDependencies w).lookup name).any (· ≠ ""))) with
  | true =>
    have hexec :=
      (@exec_prepareCliPluginGraph o { w with staging := some ⟨[], [], true⟩ } options.plugins options.packageNames
      true hgraph).1 rfl
    have hafter : ∀ f : List String → Action Unit,
        after o (prepareCliPluginGraph options.plugins
          options.packageNames >>= f) { w with staging := some ⟨[], [], true⟩ } =
          after o (f (nextPlugins options w)) { w with staging := some ⟨[], [], true⟩ } := by
      intro f
      rw [after, exec_bind, hexec]
      rfl
    refine (iff_of_eq (congrArg _ (hafter _))).trans (hbody.trans ?_)
    exact ⟨fun h _ => h, fun h => h rfl⟩
  | false =>
    obtain ⟨failure, hexec⟩ := (@exec_prepareCliPluginGraph o { w with staging := some ⟨[], [], true⟩ } options.plugins
      options.packageNames false hgraph).2 rfl
    refine iff_of_true ?_ (by simp)
    have hafter : ∀ f : List String → Action Unit,
        after o (prepareCliPluginGraph options.plugins
          options.packageNames >>= f) { w with staging := some ⟨[], [], true⟩ } =
          { w with staging := some ⟨[], [], true⟩ } := by
      intro f
      rw [after, exec_bind, hexec]
    exact (hafter _).symm ▸ atomic_stages hw (hstay _)

end Cli

/-! ## `installPlugins` -/

section Plugins

variable {o : Oracle} {specifiers : List String} {w : World}

/-- What precedes the `try` block succeeds. -/
def preparedPlugins (o : Oracle) (specifiers : List String) : Bool :=
  !specifiers.isEmpty && !o.fails .assertSpecifiers && !o.fails .mkdirManagedRoot && !o.fails .mkdtemp

theorem stage_assertSpecifiers {R : World → Prop} (hR : R w) : Stage o (assertSpecifiers specifiers) w
    (!specifiers.isEmpty && !o.fails .assertSpecifiers) w R := by
  rw [assertSpecifiers]
  split
  · rename_i hempty
    have hstage : Stage o (throw "at least one plugin package is required") w false w R := ⟨_, w, rfl, hR⟩
    exact hstage.congr (by rw [hempty]; rfl) rfl
  · rename_i hsome
    have hstage := @stage_required o w w R .assertSpecifiers
      "must use an exact version or a local .tgz archive" rfl rfl fun _ => hR
    exact hstage.congr (by rw [Bool.eq_false_iff.2 hsome]; rfl) rfl

/-- Installing plugins is all or nothing exactly where nothing is left out by the copy or the `catch` block ends well. -/
theorem atomic_installPlugins (hw : Start w) (executable : String) :
    Atomic executable (pluginRuntime o specifiers w) w (after o (installPlugins specifiers) w) ↔
      (preparedPlugins o specifiers = true → RollsBackPlugins o specifiers w) := by
  have hstart := hw.withStaging (some ⟨[], [], true⟩)
  have hbody : Atomic executable (pluginRuntime o specifiers w) { w with staging := some ⟨[], [], true⟩ }
      (after o ((tryCatch (installStagedPlugins specifiers) fun failure => do
        rollBackPlugins
        throw failure).tryFinally (required .removeStaging "rm failed")) { w with staging := some ⟨[], [], true⟩ }) ↔
        RollsBackPlugins o specifiers w := by
    refine atomic_tryFinally (stage_installStagedPlugins hstart.fresh rfl) (fun hdone => ?_) fun hfailed failure w' hw' =>
      atomic_rollBackPlugins hstart hw' hfailed
    have hcompletes : completesPlugins o specifiers w = true := hdone
    change Atomic executable (pluginRuntime o specifiers { w with staging := some ⟨[], [], true⟩ }) _ _ ↔ _
    refine (atomic_staged ?_ ?_ ?_).trans ?_
    · rfl
    · rfl
    · rfl
    · exact ⟨fun h => ⟨fun _ => h, by simp [hcompletes]⟩, fun h => h.1 hcompletes⟩
  have hprepared : preparedPlugins o specifiers = ((!specifiers.isEmpty && !o.fails .assertSpecifiers) &&
      (!o.fails .mkdirManagedRoot && !o.fails .mkdtemp)) := by
    simp only [preparedPlugins, Bool.and_assoc]
  rw [Atomic.start] at hbody
  rw [hprepared, Bool.and_eq_true, and_imp, Bool.and_eq_true (!o.fails .mkdirManagedRoot), and_imp]
  refine atomic_andThen hw (stage_assertSpecifiers (R := Stages w) ⟨w.staging, rfl⟩) fun _ => ?_
  refine atomic_andThen hw (stage_required "mkdir failed" rfl rfl fun _ => ⟨w.staging, rfl⟩) fun _ => ?_
  exact atomic_andThen hw (stage_required "mkdtemp failed" rfl rfl fun _ => ⟨w.staging, rfl⟩) fun _ => hbody

end Plugins

/-- Both installations are all or nothing exactly where what precedes the `try` block fails or the `catch` block
ends well: it does unless a removal that fails has taken something, the previous runtime cannot be moved back, or the
symlink cannot be restored where the previous controller is still to be restarted; and an installation of plugins is
not where it ends with a copy that was cut off. -/
theorem installs_all_or_nothing (o : Oracle) (w : World) (hw : Start w) :
    (∀ options : CliInstallOptions,
      Atomic options.executable (newRuntime o (nextPlugins options w)) w (after o (installDimCli options) w) ↔
        (prepared o options w = true → RollsBack o options w (newRuntime o (nextPlugins options w)))) ∧
    ∀ (specifiers : List String) (executable : String),
      Atomic executable (pluginRuntime o specifiers w) w (after o (installPlugins specifiers) w) ↔
        (preparedPlugins o specifiers = true → RollsBackPlugins o specifiers w) :=
  ⟨fun _ => atomic_installDimCli hw, fun _ executable => atomic_installPlugins hw executable⟩

/-! ## A symlink that cannot be created -/

namespace Sample

def previous : Runtime := ⟨[("@slop-lab/dim-cli", "1")], [], true⟩

def world : World := ⟨some previous, none, none, .absent, [], {}⟩

theorem start_world : Start world := by
  refine ⟨⟨rfl, rfl, rfl⟩, fun current hcurrent => ?_⟩
  cases hcurrent
  rfl

def options : CliInstallOptions := ⟨some "2", none, ["@slop-lab/dim-cli"], true, none, [], "bin/dim"⟩

/-- Everything succeeds but `failing`, and nothing cuts the copy off. -/
def oracle (failing : Operation → Bool) : Oracle := ⟨failing, fun _ => false, none, [("@slop-lab/dim-cli", "2")], "2"⟩

/-- The new controller does not become ready: the previous runtime is moved back and restarted. -/
theorem installs_roll_back :
    Atomic options.executable (newRuntime (oracle (· = .restartTarget)) (nextPlugins options world)) world
      (after (oracle (· = .restartTarget)) (installDimCli options) world) ∧
    Atomic options.executable (pluginRuntime (oracle (· = .restartTarget)) ["@slop-lab/dim-cli@2.0.0"] world) world
      (after (oracle (· = .restartTarget)) (installPlugins ["@slop-lab/dim-cli@2.0.0"]) world) := by
  have hall := installs_all_or_nothing (oracle (· = .restartTarget)) world start_world
  refine ⟨(hall.1 options).2 fun _ => ?_, (hall.2 ["@slop-lab/dim-cli@2.0.0"] options.executable).2 fun _ => ?_⟩
  · exact .inr (.inr ⟨by decide, fun _ => ⟨by decide, by decide⟩⟩)
  · exact ⟨fun h => absurd h (by decide), fun _ => ⟨fun h => absurd h.2 (by decide), fun _ _ => ⟨by decide, by decide⟩⟩⟩

/-- A copy that an `ENOENT` cuts off before the manifest and the packages. -/
def cutOff : Oracle := { oracle (fun _ => false) with interrupted := some ⟨[], [], false⟩ }

/-- The new controller has been restarted and stopped, and the previous one stays stopped: there is no symlink to
unlink. And a copy that was cut off is promoted. -/
theorem previous_not_restarted :
    Start world ∧ (after (oracle (· = .createLink)) (installDimCli options) world).current = some previous ∧
    ¬Atomic options.executable (newRuntime (oracle (· = .createLink)) (nextPlugins options world)) world
      (after (oracle (· = .createLink)) (installDimCli options) world) ∧
    ¬Atomic options.executable (pluginRuntime cutOff ["@slop-lab/dim-cli@2.0.0"] world) world
      (after cutOff (installPlugins ["@slop-lab/dim-cli@2.0.0"]) world) := by
  have hcurrent : (after (oracle (· = .createLink)) (installDimCli options) world).current =
    some previous := by decide +kernel
  have hrestarts : (after (oracle (· = .createLink)) (installDimCli options) world).restarts =
      [some (newRuntime (oracle (· = .createLink)) (nextPlugins options world))] := by decide +kernel
  have hpartial : (after cutOff (installPlugins ["@slop-lab/dim-cli@2.0.0"]) world).current =
      some ⟨[("@slop-lab/dim-cli", "2")], ["@slop-lab/dim-cli"], false⟩ := by decide +kernel
  refine ⟨start_world, hcurrent, fun h => ?_, not_atomic_of_damaged start_world rfl rfl hpartial⟩
  have hrestarted := h.restarted previous rfl hcurrent (by rw [hrestarts]; exact List.cons_ne_nil _ _)
  rw [hrestarts] at hrestarted
  exact absurd hrestarted (by decide)

end Sample

end Dim.Installer
