/-
How far an installation comes, as a function of what fails: each of its stages leaves a world that is written out,
and so does the whole `try` block.
-/
import DimProofs.Installer.Runtime

namespace Dim.Installer

open Effectful

/-! ## Single operations -/

section Operations

variable {o : Oracle} {w : World}

theorem exec_effect {α : Type} (e : Effect) (f : Answer e → Action α) :
    (effect e >>= f).exec (step o) w = (f (step o e w).1).exec (step o) (step o e w).2 := rfl

theorem exec_required (operation : Operation) (message : String) : (required operation message).exec (step o) w =
    if o.fails operation || World.impossible operation w then (.error message, World.failed o operation w)
    else (.ok (), World.operated o operation w) := by
  rw [required, exec_effect]
  simp only [step, World.operate]
  cases o.fails operation || World.impossible operation w <;> rfl

theorem exec_snapshot (operation : Operation) : (snapshotManagedSymlink operation).exec (step o) w =
    match w.snapshot o operation with
    | some snapshot => (.ok snapshot, w)
    | none => (.error "already exists and is not managed by DIM installer", w) := by
  rw [snapshotManagedSymlink, exec_effect]
  simp only [step]
  cases w.snapshot o operation <;> rfl

theorem exec_readPlugins {α : Type} {operation : Operation} {staged : Bool} (f : Option (List String) → Action α) :
    (effect (.readPlugins operation staged) >>= f).exec (step o) w =
      if o.fails operation then (f none).exec (step o) w
      else (f (some (((w.directory staged).map (·.plugins)).getD []))).exec (step o) w := by
  rw [exec_effect]
  simp only [step]
  cases o.fails operation <;> rfl

theorem exec_readDependencies {α : Type} {operation : Operation} {staged : Bool}
    (f : Option (List (String × String)) → Action α) :
    (effect (.readDependencies operation staged) >>= f).exec (step o) w =
      if o.fails operation then (f none).exec (step o) w
      else (f (some (((w.directory staged).map (·.dependencies)).getD []))).exec (step o) w := by
  rw [exec_effect]
  simp only [step]
  cases o.fails operation <;> rfl

/-- A stage ends with `w₁` where `c` holds, and otherwise fails with a world of which `R` holds. -/
def Stage (o : Oracle) (p : Action Unit) (w : World) (c : Bool) (w₁ : World) (R : World → Prop) : Prop :=
  match c with
  | true => p.exec (step o) w = (.ok (), w₁)
  | false => ∃ failure w₂, p.exec (step o) w = (.error failure, w₂) ∧ R w₂

variable {p q : Action Unit} {c d : Bool} {w₁ w₂ : World} {R : World → Prop}

theorem Stage.andThen (hp : Stage o p w c w₁ R) (hq : c = true → Stage o q w₁ d w₂ R) :
    Stage o (p >>= fun _ => q) w (c && d) w₂ R := by
  cases c with
  | true =>
    have hexec : (p >>= fun _ => q).exec (step o) w = q.exec (step o) w₁ := by
      rw [exec_bind, show p.exec (step o) w = (.ok (), w₁) from hp]
    have hrest := hq rfl
    cases d with
    | true => exact hexec.trans hrest
    | false =>
      obtain ⟨failure, w', hfail, hR⟩ := hrest
      exact ⟨failure, w', hexec.trans hfail, hR⟩
  | false =>
    obtain ⟨failure, w', hfail, hR⟩ := hp
    exact ⟨failure, w', by rw [exec_bind, hfail], hR⟩

theorem Stage.congr (h : Stage o p w c w₁ R) (hc : c = d) (hw : w₁ = w₂) : Stage o p w d w₂ R := hc ▸ hw ▸ h

/-- The world where a stage ends matters only if it does. -/
theorem Stage.final (h : Stage o p w c w₁ R) (hw : c = true → w₁ = w₂) : Stage o p w c w₂ R := by
  cases c with
  | true => exact hw rfl ▸ h
  | false => exact h

theorem Stage.mono {R' : World → Prop} (h : Stage o p w c w₁ R) (hR : ∀ w, R w → R' w) : Stage o p w c w₁ R' := by
  cases c with
  | true => exact h
  | false =>
    obtain ⟨failure, w', hfail, hw'⟩ := h
    exact ⟨failure, w', hfail, hR w' hw'⟩

theorem Stage.exec {w₀ : World} (h : Stage o q w₀ c w₁ R) (hexec : p.exec (step o) w = q.exec (step o) w₀) :
    Stage o p w c w₁ R := by
  cases c with
  | true => exact hexec.trans h
  | false =>
    obtain ⟨failure, w', hfail, hw'⟩ := h
    exact ⟨failure, w', hexec.trans hfail, hw'⟩

theorem stage_pure : Stage o (pure ()) w true w R := rfl

/-- An operation that has all it works on. -/
theorem stage_required {operation : Operation} (message : String) (h : World.impossible operation w = false)
    (hw : World.operated o operation w = w₁) (hR : o.fails operation = true → R (World.failed o operation w)) :
    Stage o (required operation message) w (!o.fails operation) w₁ R := by
  have hexec := exec_required (o := o) (w := w) operation message
  rw [h, Bool.or_false] at hexec
  cases hfails : o.fails operation with
  | true =>
    rw [hfails] at hexec
    exact ⟨message, _, hexec, hR hfails⟩
  | false =>
    rw [hfails, hw] at hexec
    exact hexec

theorem stage_assign (change : Locals → Locals) (h : Stage o p { w with locals := change w.locals } c w₁ R) :
    Stage o (effect (.assign change) >>= fun _ => p) w c w₁ R := h

theorem stage_assigned (change : Locals → Locals) :
    Stage o (effect (.assign change)) w true { w with locals := change w.locals } R := rfl

theorem stage_setLink {operation : Operation} (target : String) (hR : o.fails operation = true → R w) :
    Stage o (do
      match ← effect (.setLink operation target) with
      | true => pure ()
      | false => throw "rename failed") w (!o.fails operation) { w with link := .managed target } R := by
  cases hfails : o.fails operation with
  | true => exact ⟨"rename failed", w, by rw [exec_effect]; simp only [step, hfails]; rfl, hR hfails⟩
  | false =>
    show Program.exec _ _ _ = _
    rw [exec_effect]
    simp only [step, hfails]
    rfl

end Operations

/-! ## The stages of `installDimCli` -/

section Stages

variable (o : Oracle) (options : CliInstallOptions) (w : World)

/-- The new runtime. -/
def newRuntime (plugins : List String) : Runtime := ⟨o.dependencies, plugins, true⟩

/-- The staging directory passes its checks. -/
def staged : Bool :=
  !o.fails .npmInstall && !o.fails .accessStaged && !o.fails .queryVersion &&
    !(options.version.any fun version => version ≠ "" && o.version ≠ version) && !o.fails .readStagedPackage &&
    (options.plugins.find? fun plugin => (o.dependencies.lookup plugin.name).isNone).isNone && !o.fails .preflight &&
    !o.fails .writeManifest

/-- The previous runtime is moved to the backup. -/
def moves : Bool := staged o options && !o.fails .moveCurrent && w.current.isSome

/-- The new runtime becomes the current one. -/
def promotes : Bool := staged o options && !o.fails .moveCurrent && !o.fails .promote

/-- A restart of the new controller is attempted. -/
def attempts : Bool := promotes o options && !o.fails .accessCurrent && decide (options.restartController ≠ some false)

def readies : Bool := attempts o options && !o.fails .restartTarget

/-- The new runtime is in place, and its controller where one is asked for. -/
def serves : Bool := promotes o options && !o.fails .accessCurrent && (!attempts o options || readies o options)

/-- The snapshot of the symlink. -/
def snapshotted : Option Snapshot := if serves o options && options.exposeOnPath then w.snapshot o .snapshotLink else none

/-- The symlink points to the new runtime. -/
def links : Bool :=
  (snapshotted o options w).isSome && !o.fails .mkdirLink && (w.snapshot o .snapshotAgain).isSome &&
    !o.fails .createLink && !o.fails .renameLink

def commits : Bool :=
  serves o options && (!options.exposeOnPath || links o options w) && !o.fails .readUserConfig && !o.fails .writeUserConfig

end Stages

section Executions

variable {o : Oracle} {options : CliInstallOptions} {w : World} {plugins : List String}

theorem stage_verifyVersion {R : World → Prop} (hR : R w) : Stage o (verifyVersion options) w
    (!o.fails .queryVersion && !(options.version.any fun version => version ≠ "" && o.version ≠ version)) w R := by
  have hexec : (verifyVersion options).exec (step o) w = match o.fails .queryVersion with
      | true => (.error "dim --version failed", w)
      | false => if options.version.any fun version => version ≠ "" && o.version ≠ version then
        (.error ("installed DIM CLI reports " ++ o.version), w) else (.ok (), w) := by
    rw [verifyVersion, exec_effect]
    cases hfails : o.fails .queryVersion with
    | true => simp only [step, hfails]; rfl
    | false =>
      simp only [step, hfails, Bool.false_eq_true, if_false]
      split <;> rfl
  cases hfails : o.fails .queryVersion with
  | true => exact ⟨_, w, by rw [hexec, hfails], hR⟩
  | false =>
    cases hversion : options.version.any fun version => version ≠ "" && o.version ≠ version with
    | true => exact ⟨_, w, by rw [hexec, hfails, hversion]; rfl, hR⟩
    | false =>
      show Program.exec _ _ _ = _
      rw [hexec, hfails, hversion]
      rfl

theorem stage_verifySelectedPlugins {R : World → Prop} {selected : List CliPluginSelection}
    (hw : (w.directory true).map (·.dependencies) = some o.dependencies) (hR : R w) :
    Stage o (verifySelectedPlugins selected) w (!o.fails .readStagedPackage &&
      (selected.find? fun plugin => (o.dependencies.lookup plugin.name).isNone).isNone) w R := by
  cases hfails : o.fails .readStagedPackage with
  | true => exact ⟨"invalid package", w, by rw [verifySelectedPlugins, exec_effect]; simp only [step, hfails]; rfl, hR⟩
  | false =>
    cases hfind : selected.find? fun plugin => (o.dependencies.lookup plugin.name).isNone with
    | none =>
      show Program.exec _ _ _ = _
      rw [verifySelectedPlugins, exec_effect]
      simp only [step, hfails, hw, Bool.false_eq_true, if_false, Option.getD_some, hfind]
      rfl
    | some plugin =>
      refine ⟨"npm did not install '" ++ plugin.name ++ "' as a direct plugin dependency", w, ?_, hR⟩
      rw [verifySelectedPlugins, exec_effect]
      simp only [step, hfails, hw, Bool.false_eq_true, if_false, Option.getD_some, hfind]
      rfl

theorem stage_writeStagedManifest {R : World → Prop} (hR : R w) : Stage o (writeStagedManifest plugins) w
    (!o.fails .writeManifest) { w with staging := w.staging.map fun r => { r with plugins } } R := by
  cases hfails : o.fails .writeManifest with
  | true => exact ⟨"manifest cannot be written", w,
      by rw [writeStagedManifest, exec_effect]; simp only [step, hfails]; rfl, hR⟩
  | false =>
    show Program.exec _ _ _ = _
    rw [writeStagedManifest, exec_effect]
    simp only [step, hfails]
    rfl

/-- Only the staging directory has changed. -/
def Stages (w w' : World) : Prop := ∃ staging, w' = { w with staging }

/-- The staging directory is filled, or what is left of it stays behind. -/
theorem stage_stageRuntime (hw : w.staging = some ⟨[], [], true⟩) : Stage o (stageRuntime options plugins) w
    (staged o options) { w with staging := some (newRuntime o plugins) } (Stages w) := by
  have hnpm : World.operated o .npmInstall w = { w with staging := some ⟨o.dependencies, [], true⟩ } := by
    rw [World.operated, hw]
    rfl
  have hstay : ∀ staging, Stages w { w with staging } := fun staging => ⟨staging, rfl⟩
  refine Stage.congr ((stage_required "npm failed" rfl hnpm fun _ => hstay _).andThen fun _ =>
    (stage_required "access failed" rfl rfl fun _ => hstay _).andThen fun _ =>
    (stage_verifyVersion (hstay _)).andThen fun _ =>
    (stage_verifySelectedPlugins rfl (hstay _)).andThen fun _ =>
    (stage_required "state preflight failed" rfl rfl fun _ => hstay _).andThen fun _ =>
    stage_writeStagedManifest (hstay _)) ?_ rfl
  simp only [staged, Bool.and_assoc]

/-! ## The `try` block -/

/-- Where an installation stands once it has come this far. -/
def reached (w : World) (new : Runtime) (executable : String) (staging : Option Runtime)
    (moved promoted attempted ready exposed : Bool)
    (snapshot : Option Snapshot) (linked committed : Bool) : World where
  current := if promoted then some new else if moved then none else w.current
  backup := if moved then w.current else w.backup
  staging := staging
  link := if linked then .managed executable else w.link
  restarts := if attempted then [some new] else []
  locals := ⟨moved, promoted, committed, attempted, ready, exposed, snapshot⟩

/-- Where the `try` block stands when it fails. -/
def Failed (o : Oracle) (options : CliInstallOptions) (w : World) (plugins : List String) (w' : World) : Prop :=
  ∃ staging, w' = reached w (newRuntime o plugins) options.executable staging (moves o options w) (promotes o options)
    (attempts o options) (readies o options) (serves o options && options.exposeOnPath) (snapshotted o options w)
    (links o options w) (commits o options w)

/-- A world that has all its variables unset. -/
structure Fresh (w : World) : Prop where
  locals : w.locals = {}
  restarts : w.restarts = []
  backup : w.backup = none

/-- The staging directory takes the place of the current one. -/
theorem stage_promoteRuntime {new : Runtime} {executable : String} {R : World → Prop} (hw : Fresh w)
    (hmove : o.fails .moveCurrent = true → R { w with staging := some new })
    (hpromote : o.fails .moveCurrent = false → o.fails .promote = true →
      R (reached w new executable (some new) w.current.isSome false false false false none false false)) :
    Stage o promoteRuntime { w with staging := some new } (!o.fails .moveCurrent && !o.fails .promote)
      (reached w new executable none w.current.isSome true false false false none false false) R := by
  have hlocals := hw.locals
  have hrestarts := hw.restarts
  cases hfails : o.fails .moveCurrent with
  | true =>
    exact ⟨"rename failed", _, by rw [promoteRuntime, exec_effect]; simp only [step, World.move, hfails]; rfl, hmove hfails⟩
  | false =>
    have hexec : promoteRuntime.exec (step o) { w with staging := some new } =
        (required .promote "rename failed" >>= fun _ => effect (.assign fun v => { v with promoted := true })).exec (step o)
          (reached w new executable (some new) w.current.isSome false false false false none false false) := by
      rw [promoteRuntime, exec_effect]
      cases hcurrent : w.current with
      | none => simp only [step, World.move, hfails, reached, hlocals, hrestarts, hcurrent]; rfl
      | some current => simp only [step, World.move, hfails, reached, hlocals, hrestarts, hcurrent]; rfl
    refine Stage.exec ?_ hexec
    refine Stage.congr ((stage_required _ rfl rfl fun hfails' => hpromote hfails hfails').andThen fun _ => stage_assigned _)
      (Bool.and_true _) ?_
    simp [reached, World.operated]

/-- The `try` block fails before or while the new runtime is put in place. -/
theorem failed_promote (hw : Fresh w) (hstaged : staged o options = true) :
    (o.fails .moveCurrent = true → Failed o options w plugins { w with staging := some (newRuntime o plugins) }) ∧
      (o.fails .moveCurrent = false → o.fails .promote = true → Failed o options w plugins
        (reached w (newRuntime o plugins) options.executable (some (newRuntime o plugins)) w.current.isSome false false false
          false none false false)) := by
  refine ⟨fun hmove => ⟨some (newRuntime o plugins), ?_⟩, fun hmove hpromote => ⟨some (newRuntime o plugins), ?_⟩⟩
  · simp [reached, moves, promotes, attempts, readies, serves, snapshotted, links, commits, hmove, hw.locals, hw.restarts]
  · simp [reached, moves, promotes, attempts, readies, serves, snapshotted, links, commits, hmove, hpromote, hstaged]

/-- The restart of the controller, where it is asked for. -/
theorem stage_restartTarget {moved : Bool} (hmoved : moves o options w = moved)
    (hpromotes : promotes o options = true) (haccess : o.fails .accessCurrent = false) :
    Stage o (restartTarget options)
      (reached w (newRuntime o plugins) options.executable none moved true false false false none false false)
      (!attempts o options || readies o options)
      (reached w (newRuntime o plugins) options.executable none moved true (attempts o options)
        (attempts o options) false none false false) (Failed o options w plugins) := by
  rw [restartTarget]
  split
  · rename_i hrestart
    have hattempts : attempts o options = true := by simp [attempts, hpromotes, haccess, hrestart]
    refine Stage.congr (stage_assign _ ((stage_required _ rfl rfl fun hfails => ⟨none, ?_⟩).andThen fun _ =>
      stage_assigned _)) ?_ ?_
    · simp [hattempts, readies]
    · simp [reached, World.operated, hattempts]
    · simp [reached, World.failed, hmoved, hpromotes, hattempts, readies, serves, snapshotted, links, commits, hfails]
  · rename_i hrestart
    have hattempts : attempts o options = false := by simp [attempts, hrestart]
    refine Stage.congr stage_pure ?_ ?_
    · simp [hattempts]
    · simp [hattempts]

theorem stage_snapshot {operation : Operation} {snapshot : Option Snapshot} {f : Snapshot → Action Unit} {c : Bool}
    {w₁ : World} {R : World → Prop} (hsnapshot : w.snapshot o operation = snapshot) (hR : snapshot = none → R w)
    (h : ∀ s, snapshot = some s → Stage o (f s) w c w₁ R) :
    Stage o (snapshotManagedSymlink operation >>= f) w (snapshot.isSome && c) w₁ R := by
  cases snapshot with
  | none => exact ⟨_, w, by rw [exec_bind, exec_snapshot, hsnapshot], hR rfl⟩
  | some s => exact (h s rfl).exec (by rw [exec_bind, exec_snapshot, hsnapshot])

theorem stage_replaceSymlink {create rename : Operation} {target : String} {R : World → Prop}
    (hcreate : World.impossible create w = false) (hok : World.operated o create w = w)
    (hfailed : World.failed o create w = w)
    (hR : o.fails create = true ∨ o.fails rename = true → R w) :
    Stage o (replaceSymlink create rename target) w (!o.fails create && !o.fails rename)
      { w with link := .managed target } R :=
  (stage_required _ hcreate hok fun hfails => hfailed.symm ▸ hR (.inl hfails)).andThen fun _ =>
    stage_setLink target fun hfails => hR (.inr hfails)

theorem stage_installManagedSymlink {executable : String} {R : World → Prop} (hR : (!o.fails .mkdirLink &&
    ((w.snapshot o .snapshotAgain).isSome && (!o.fails .createLink && !o.fails .renameLink))) = false → R w) :
    Stage o (installManagedSymlink executable) w (!o.fails .mkdirLink && ((w.snapshot o .snapshotAgain).isSome &&
      (!o.fails .createLink && !o.fails .renameLink))) { w with link := .managed executable } R := by
  refine (stage_required _ rfl rfl fun hfails => hR ?_).andThen fun _ =>
    stage_snapshot rfl (fun hnone => hR ?_) fun _ hsome =>
    stage_replaceSymlink rfl rfl rfl fun hfails => hR ?_
  · simp [hfails]
  · simp [hnone]
  · rcases hfails with hfails | hfails <;> simp [hfails]

/-- The managed symlink, where it is asked for. -/
theorem stage_exposeRuntime {moved attempted ready : Bool} (hmoved : moves o options w = moved)
    (hattempted : attempts o options = attempted) (hready : readies o options = ready)
    (hpromotes : promotes o options = true)
    (hserves : serves o options = true) :
    Stage o (exposeRuntime options)
      (reached w (newRuntime o plugins) options.executable none moved true attempted ready false none false false)
      (!options.exposeOnPath || links o options w)
      (reached w (newRuntime o plugins) options.executable none moved true attempted ready options.exposeOnPath
        (snapshotted o options w) (links o options w) false) (Failed o options w plugins) := by
  rw [exposeRuntime]
  split
  · rename_i hexpose
    have hsnapshotted : snapshotted o options w = w.snapshot o .snapshotLink := by simp [snapshotted, hserves, hexpose]
    have hlinks : links o options w = ((w.snapshot o .snapshotLink).isSome && (!o.fails .mkdirLink &&
        ((w.snapshot o .snapshotAgain).isSome && (!o.fails .createLink && !o.fails .renameLink)))) := by
      simp only [links, hsnapshotted, Bool.and_assoc]
    have hinstall : ∀ s, w.snapshot o .snapshotLink = some s → Stage o (installManagedSymlink options.executable)
        (reached w (newRuntime o plugins) options.executable none moved true attempted ready true (some s) false false)
        (!o.fails .mkdirLink && ((w.snapshot o .snapshotAgain).isSome && (!o.fails .createLink && !o.fails .renameLink)))
        (reached w (newRuntime o plugins) options.executable none moved true attempted ready true (snapshotted o options w)
          (links o options w) false) (Failed o options w plugins) := by
      intro s hs
      rw [hs, Option.isSome_some, Bool.true_and] at hlinks
      rw [← hlinks]
      refine Stage.final ((stage_installManagedSymlink fun hno => ⟨none, ?_⟩).congr hlinks.symm rfl) fun hlinked => ?_
      · simp [reached, hsnapshotted, hs, hlinked]
      · have hfalse : links o options w = false := hlinks.trans hno
        simp [reached, hsnapshotted, hs, hfalse, hmoved, hattempted, hready, hpromotes, hserves, hexpose, commits]
    rw [hexpose]
    refine Stage.congr (stage_assign _ (stage_snapshot
      (show World.snapshot o .snapshotLink _ = w.snapshot o .snapshotLink from rfl)
      (fun hnone => ⟨none, ?_⟩) fun s hs => stage_assign _ (hinstall s hs))) ?_ rfl
    · rw [hnone, Option.isSome_none, Bool.false_and] at hlinks
      simp [reached, hsnapshotted, hnone, hlinks, hmoved, hattempted, hready, hpromotes, hserves, hexpose, commits]
    · simp [hlinks]
  · rename_i hexpose
    have hlinks : links o options w = false := by simp [links, snapshotted, hexpose]
    have hsnapshotted : snapshotted o options w = none := by simp [snapshotted, hexpose]
    refine Stage.congr stage_pure ?_ ?_
    · simp [hexpose]
    · simp [reached, hlinks, hsnapshotted, hexpose]

/-- The configuration is written, and what is left of earlier installations removed. -/
theorem stage_configure (hserves : serves o options = true)
    (hexposes : (!options.exposeOnPath || links o options w) = true) : Stage o (do
      required .readUserConfig "invalid DIM user config"
      required .writeUserConfig "configuration cannot be written"
      effect (.assign fun v => { v with committed := true })
      required .cleanupSiblings "rm failed")
      (reached w (newRuntime o plugins) options.executable none (moves o options w) true (attempts o options)
        (readies o options) options.exposeOnPath (snapshotted o options w) (links o options w) false)
      (commits o options w && !o.fails .cleanupSiblings)
      (World.operated o .cleanupSiblings (reached w (newRuntime o plugins) options.executable none (moves o options w) true
        (attempts o options) (readies o options) options.exposeOnPath (snapshotted o options w) (links o options w) true))
      (Failed o options w plugins) := by
  have hpromotes : promotes o options = true := by
    simp only [serves, Bool.and_eq_true] at hserves
    exact hserves.1.1
  have hcommits : commits o options w = (!o.fails .readUserConfig && !o.fails .writeUserConfig) := by
    simp only [commits, hserves, hexposes, Bool.true_and]
  rw [hcommits, Bool.and_assoc]
  refine (stage_required _ rfl rfl fun hfails => ⟨none, ?_⟩).andThen fun hread =>
    (stage_required _ rfl rfl fun hfails => ⟨none, ?_⟩).andThen fun hwrite =>
    stage_assign _ (stage_required _ rfl rfl fun hfails => ⟨none, ?_⟩)
  · simp only [Bool.not_eq_true'] at hread hwrite
    simp [World.failed, World.operated, reached, hserves, hpromotes, hcommits, hread, hwrite]
  · simp [World.failed, reached, hserves, hpromotes, hcommits, hfails]
  · simp [World.failed, World.operated, reached, hserves, hpromotes, hcommits, hfails]

/-- The whole `try` block. -/
theorem stage_installRuntime (hw : Fresh w) (hstaging : w.staging = some ⟨[], [], true⟩) :
    Stage o (installRuntime options plugins) w (commits o options w && !o.fails .cleanupSiblings)
      (World.operated o .cleanupSiblings (reached w (newRuntime o plugins) options.executable none (moves o options w) true
        (attempts o options) (readies o options) options.exposeOnPath (snapshotted o options w) (links o options w) true))
      (Failed o options w plugins) := by
  have hstage : Stage o (stageRuntime options plugins) w (staged o options) { w with staging := some (newRuntime o plugins) }
      (Failed o options w plugins) := by
    cases hstaged : staged o options with
    | true => exact (stage_stageRuntime hstaging).congr hstaged rfl
    | false =>
      refine Stage.mono ((stage_stageRuntime hstaging).congr hstaged rfl) fun w' ⟨staging, hw'⟩ => ⟨staging, ?_⟩
      rw [hw']
      simp [reached, moves, promotes, attempts, readies, serves, snapshotted, links, commits, hstaged, hw.locals,
        hw.restarts, hw.backup]
  have hcondition : (commits o options w && !o.fails .cleanupSiblings) = (staged o options &&
      ((!o.fails .moveCurrent && !o.fails .promote) &&
        (!o.fails .accessCurrent && ((!attempts o options || readies o options) &&
        ((!options.exposeOnPath || links o options w) && (commits o options w && !o.fails .cleanupSiblings)))))) := by
    cases hcommits : commits o options w with
    | false => simp
    | true =>
      have h := hcommits
      simp only [commits, serves, promotes, Bool.and_eq_true] at h
      simp only [h.1.1.2, h.1.1.1.1.2, h.1.1.1.2, h.1.1.1.1.1.1.1, h.1.1.1.1.1.1.2, h.1.1.1.1.1.2, Bool.and_self,
        Bool.true_and]
  rw [hcondition]
  refine hstage.andThen fun hstaged => ?_
  obtain ⟨hmove, hpromote⟩ := @failed_promote o options w plugins hw hstaged
  refine (stage_promoteRuntime hw hmove hpromote).andThen fun hpromoted => ?_
  simp only [Bool.and_eq_true, Bool.not_eq_true'] at hpromoted
  have hmoves : moves o options w = w.current.isSome := by simp [moves, hstaged, hpromoted.1]
  have hpromotes : promotes o options = true := by simp [promotes, hstaged, hpromoted.1, hpromoted.2]
  rw [← hmoves]
  have haccess : o.fails .accessCurrent = true → Failed o options w plugins (World.failed o .accessCurrent
      (reached w (newRuntime o plugins) options.executable none
        (moves o options w) true false false false none false false)) := by
    intro hfails
    refine ⟨none, ?_⟩
    simp [World.failed, reached, hpromotes, attempts, readies, serves, snapshotted, links, commits, hfails]
  refine (stage_required _ rfl rfl haccess).andThen fun hplace => ?_
  simp only [Bool.not_eq_true'] at hplace
  refine (stage_restartTarget rfl hpromotes hplace).andThen fun hready => ?_
  have hserves : serves o options = true := by
    simp only [serves, hpromotes, hplace, hready, Bool.not_false, Bool.and_self]
  have hsame : attempts o options = readies o options := by
    cases hattempts : attempts o options with
    | true => simpa [hattempts] using hready.symm
    | false => simp [readies, hattempts]
  have hexpose := @stage_exposeRuntime o options w plugins _ _ _ rfl hsame rfl hpromotes hserves
  rw [hsame]
  refine hexpose.andThen fun hexposes => ?_
  have hconfigure := @stage_configure o options w plugins hserves hexposes
  rw [hsame] at hconfigure
  exact hconfigure

end Executions

end Dim.Installer
