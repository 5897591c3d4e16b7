/-
How far the installation of plugins comes, and what its `catch` block leaves: it has no symlink, and it also removes
the backup where the previous runtime could still be needed.
-/
import DimProofs.Installer.Rollback

namespace Dim.Installer

open Effectful

/-! ## The stages of `installPlugins` -/

section Stages

variable (o : Oracle) (specifiers : List String) (w : World)

/-- The plugins and dependencies of the previous runtime. -/
def previousPlugins : List String := (w.current.map (·.plugins)).getD []

def previousDependencies : List (String × String) := (w.current.map (·.dependencies)).getD []

def addedPlugins : List String := installedNames specifiers (previousDependencies w) o.dependencies

/-- The new runtime, of the whole previous one. -/
def pluginRuntime : Runtime := ⟨o.dependencies, sorted (previousPlugins w ++ addedPlugins o specifiers w), true⟩

/-- The world as the copy of the current directory shows it. -/
def copied : World := { w with current := w.current.map fun current => o.interrupted.getD current }

/-- The runtime that is staged: what the copy left out is missing in it. -/
def stagedRuntime : Runtime :=
  { pluginRuntime o specifiers (copied o w) with whole := ((copied o w).current.map (·.whole)).getD true }

/-- The staging directory is filled. -/
def stagedPlugins : Bool :=
  !o.fails .copyCurrent && !o.fails .readStagedPackage && !o.fails .writePackage && !o.fails .persistSpecifiers &&
    !o.fails .npmInstall && !o.fails .readInstalledPackage &&
    ((addedPlugins o specifiers (copied o w)).find? fun name => (o.dependencies.lookup name).isNone).isNone &&
    !o.fails .readStagedManifest && !o.fails .writeManifest

def movesPlugins : Bool := stagedPlugins o specifiers w && !o.fails .moveCurrent && w.current.isSome

def promotesPlugins : Bool := stagedPlugins o specifiers w && !o.fails .moveCurrent && !o.fails .promote

def readiesPlugins : Bool := promotesPlugins o specifiers w && !o.fails .restartTarget

def completesPlugins : Bool := readiesPlugins o specifiers w && !o.fails .removeBackup

end Stages

section Executions

variable {o : Oracle} {specifiers : List String} {w : World}

/-- Where the `try` block stands when it fails: a removal of the backup may have taken something from it. -/
def FailedPlugins (o : Oracle) (specifiers : List String) (w w' : World) : Prop :=
  ∃ staging, w' = { reached w (stagedRuntime o specifiers w) "" staging (movesPlugins o specifiers w)
      (promotesPlugins o specifiers w) (promotesPlugins o specifiers w) false false none false false with
    backup := if readiesPlugins o specifiers w then
        World.remains o .removeBackup (if movesPlugins o specifiers w then w.current else none)
      else if movesPlugins o specifiers w then w.current else none }

theorem stage_readDependencies {operation : Operation} {staged c : Bool} {f : Option (List (String × String)) → Action Unit}
    {w₁ : World} {R : World → Prop} {message : String} {dependencies : List (String × String)}
    (hread : ((w.directory staged).map (·.dependencies)).getD [] = dependencies) (hnone : f none = throw message) (hR : R w)
    (h : Stage o (f (some dependencies)) w c w₁ R) :
    Stage o (effect (.readDependencies operation staged) >>= f) w (!o.fails operation && c) w₁ R := by
  have hexec := @exec_readDependencies o w Unit operation staged f
  rw [hread] at hexec
  cases hfails : o.fails operation with
  | true =>
    rw [hfails, if_pos rfl, hnone] at hexec
    exact ⟨message, w, hexec, hR⟩
  | false =>
    rw [hfails, if_neg (by decide)] at hexec
    exact h.exec hexec

theorem stage_copyCurrent (hw : w.staging = some ⟨[], [], true⟩) {R : World → Prop}
    (hR : o.fails .copyCurrent = true → R w) : Stage o copyCurrent w (!o.fails .copyCurrent)
      { w with staging := some ((copied o w).current.getD ⟨[], [], true⟩) } R := by
  cases hfails : o.fails .copyCurrent with
  | true => exact ⟨"cp failed", w, by rw [copyCurrent, exec_effect]; simp only [step, World.move, hfails]; rfl, hR hfails⟩
  | false =>
    show Program.exec _ _ _ = _
    rw [copyCurrent, exec_effect]
    cases hcurrent : w.current with
    | none =>
      have hsame : { w with staging := some ((none : Option Runtime).getD ⟨[], [], true⟩) } =
        w := by rw [Option.getD_none, ← hw]
      simp only [copied, step, World.move, hfails, hcurrent, Option.map_none] at hsame ⊢
      rw [hsame]
      rfl
    | some current =>
      simp only [copied, step, World.move, hfails, hcurrent]
      cases o.interrupted <;> rfl

theorem stage_verifyInstalled {after : List (String × String)} {names : List String} {R : World → Prop} (hR : R w) :
    Stage o (verifyInstalled after names) w (names.find? fun name => (after.lookup name).isNone).isNone w R := by
  rw [verifyInstalled]
  cases hfind : names.find? fun name => (after.lookup name).isNone with
  | none => exact stage_pure
  | some name => exact ⟨_, w, rfl, hR⟩

theorem stage_writePluginManifest {installed : List String} {R : World → Prop} (hR : R w) :
    Stage o (writePluginManifest installed) w (!o.fails .readStagedManifest && !o.fails .writeManifest)
      { w with
        staging := w.staging.map fun r => { r with
          plugins := sorted (((w.staging.map (·.plugins)).getD []) ++ installed) } } R := by
  rw [writePluginManifest]
  have hexec := @exec_readPlugins o w Unit .readStagedManifest true fun
    | none => throw "invalid DIM plugin manifest"
    | some previous => writeStagedManifest (sorted (previous ++ installed))
  cases hfails : o.fails .readStagedManifest with
  | true =>
    rw [hfails, if_pos rfl] at hexec
    exact ⟨_, w, hexec, hR⟩
  | false =>
    rw [hfails, if_neg (by decide)] at hexec
    exact (stage_writeStagedManifest hR).exec hexec

/-- The staging directory is filled from the copy of the current one. -/
theorem stage_installPluginsInStage (hcopied : o.fails .copyCurrent = false) :
    Stage o (installPluginsInStage specifiers) { w with staging := some ((copied o w).current.getD ⟨[], [], true⟩) }
      (stagedPlugins o specifiers w) { w with staging := some (stagedRuntime o specifiers w) } (Stages w) := by
  have hstay : ∀ staging, Stages w { w with staging } := fun staging => ⟨staging, rfl⟩
  have hbefore : ((World.directory { w with staging := some ((copied o w).current.getD ⟨[], [], true⟩) } true).map
      (·.dependencies)).getD [] = previousDependencies (copied o w) := by
    simp only [World.directory, if_true, previousDependencies]
    cases (copied o w).current <;> rfl
  have hfinal : stagedRuntime o specifiers w = ⟨o.dependencies,
      sorted (((copied o w).current.getD ⟨[], [], true⟩).plugins ++ addedPlugins o specifiers (copied o w)),
      ((copied o w).current.getD ⟨[], [], true⟩).whole⟩ := by
    rw [stagedRuntime, pluginRuntime, previousPlugins]
    cases (copied o w).current <;> rfl
  refine Stage.congr (stage_readDependencies hbefore rfl (hstay _)
    ((stage_required "package cannot be written" rfl rfl fun _ => hstay _).andThen fun _ =>
      (stage_required "archive cannot be copied" rfl rfl fun _ => hstay _).andThen fun _ =>
      (stage_required "npm failed" rfl rfl fun _ => hstay _).andThen fun _ =>
      stage_readDependencies rfl rfl (hstay _) ((stage_verifyInstalled (hstay _)).andThen fun _ =>
        stage_writePluginManifest (hstay _)))) ?_ ?_
  · simp only [stagedPlugins, addedPlugins, hcopied, Bool.not_false, Bool.true_and, Bool.and_assoc]
    rfl
  · rw [hfinal]
    rfl

/-- The restart of the new controller, and the removal of the backup. -/
theorem stage_completePlugins (hw : Fresh w) (hpromotes : promotesPlugins o specifiers w = true) :
    Stage o (do
        effect (.assign fun v => { v with controllerRestartAttempted := true })
        required .restartTarget "target controller restart/readiness failed"
        required .removeBackup "rm failed")
      (reached w (stagedRuntime o specifiers w) "" none
        (movesPlugins o specifiers w) true false false false none false false)
      (!o.fails .restartTarget && !o.fails .removeBackup)
      { reached w (stagedRuntime o specifiers w) "" none (movesPlugins o specifiers w) true true false false none false
        false with backup := none } (FailedPlugins o specifiers w) := by
  have hbackup := hw.backup
  refine stage_assign _ ((stage_required _ rfl rfl fun hfails => ⟨none, ?_⟩).andThen fun hready =>
    stage_required _ rfl rfl fun hfails => ⟨none, ?_⟩)
  · simp only [Bool.not_eq_true'] at hready
    simp [World.failed, World.operated, reached, hpromotes, readiesPlugins, hready, hbackup]
  · simp [World.failed, reached, hpromotes, readiesPlugins, hfails, hbackup]

/-- The whole `try` block. -/
theorem stage_installStagedPlugins (hw : Fresh w) (hstaging : w.staging = some ⟨[], [], true⟩) :
    Stage o (installStagedPlugins specifiers) w (completesPlugins o specifiers w)
      { reached w (stagedRuntime o specifiers w) "" none (movesPlugins o specifiers w) true true false false none false
        false with backup := none } (FailedPlugins o specifiers w) := by
  have hlocals := hw.locals
  have hrestarts := hw.restarts
  have hbackup := hw.backup
  have hunstaged : stagedPlugins o specifiers w = false → ∀ w', Stages w w' → FailedPlugins o specifiers w w' := by
    rintro hstaged w' ⟨staging, rfl⟩
    refine ⟨staging, ?_⟩
    simp [reached, movesPlugins, promotesPlugins, readiesPlugins, hstaged, hlocals, hrestarts, hbackup]
  have hcopy : o.fails .copyCurrent = true → stagedPlugins o specifiers w = false := by
    intro hfails
    simp [stagedPlugins, hfails]
  have hcondition : completesPlugins o specifiers w = (!o.fails .copyCurrent && (stagedPlugins o specifiers w &&
      ((!o.fails .moveCurrent && !o.fails .promote) && (!o.fails .restartTarget && !o.fails .removeBackup)))) := by
    cases hfails : o.fails .copyCurrent with
    | true => simp [completesPlugins, readiesPlugins, promotesPlugins, hcopy hfails]
    | false => simp [completesPlugins, readiesPlugins, promotesPlugins, Bool.and_assoc]
  have hfailing : o.fails .copyCurrent = true → FailedPlugins o specifiers w w := fun hfails =>
    hunstaged (hcopy hfails) w ⟨w.staging, rfl⟩
  have hstage : o.fails .copyCurrent = false → Stage o (installPluginsInStage specifiers)
      { w with staging := some ((copied o w).current.getD ⟨[], [], true⟩) } (stagedPlugins o specifiers w)
      { w with staging := some (stagedRuntime o specifiers w) } (FailedPlugins o specifiers w) := by
    intro hcopied
    cases hstaged : stagedPlugins o specifiers w with
    | true => exact (stage_installPluginsInStage hcopied).congr hstaged rfl
    | false => exact Stage.mono ((stage_installPluginsInStage hcopied).congr hstaged rfl) (hunstaged hstaged)
  rw [hcondition]
  refine (stage_copyCurrent hstaging hfailing).andThen fun hcopied => ?_
  simp only [Bool.not_eq_true'] at hcopied
  refine (hstage hcopied).andThen fun hstaged => ?_
  have hmove : o.fails .moveCurrent = true →
      FailedPlugins o specifiers w { w with staging := some (stagedRuntime o specifiers w) } := by
    intro hfails
    refine ⟨some (stagedRuntime o specifiers w), ?_⟩
    simp [reached, movesPlugins, promotesPlugins, readiesPlugins, hfails, hlocals, hrestarts, hbackup]
  have hpromote : o.fails .moveCurrent = false → o.fails .promote = true → FailedPlugins o specifiers w (reached w
      (stagedRuntime o specifiers w) "" (some (stagedRuntime o specifiers w)) w.current.isSome false false false false none
      false false) := by
    intro hmoved hfails
    refine ⟨some (stagedRuntime o specifiers w), ?_⟩
    simp [reached, movesPlugins, promotesPlugins, readiesPlugins, hmoved, hfails, hstaged, hbackup]
  refine (stage_promoteRuntime hw hmove hpromote).andThen fun hpromoted => ?_
  simp only [Bool.and_eq_true, Bool.not_eq_true'] at hpromoted
  have hmoves : movesPlugins o specifiers w = w.current.isSome := by simp [movesPlugins, hstaged, hpromoted.1]
  have hpromotes : promotesPlugins o specifiers w = true := by simp [promotesPlugins, hstaged, hpromoted.1, hpromoted.2]
  rw [← hmoves]
  exact stage_completePlugins hw hpromotes

/-! ## The `catch` block -/

/-- The runtime that is staged is the new one, or again the previous one: the copy has left out nothing that counts. -/
def Intact (o : Oracle) (specifiers : List String) (w : World) : Prop :=
  stagedRuntime o specifiers w = pluginRuntime o specifiers w ∨ w.current = some (stagedRuntime o specifiers w)

/-- The installation ends with the whole runtime, or its `catch` block ends well. -/
def RollsBackPlugins (o : Oracle) (specifiers : List String) (w : World) : Prop :=
  (completesPlugins o specifiers w = true → Intact o specifiers w) ∧ (completesPlugins o specifiers w = false →
    (promotesPlugins o specifiers w = true ∧ o.fails .removeCurrent = true →
        o.damages .removeCurrent = false ∧ Intact o specifiers w) ∧
      (¬(promotesPlugins o specifiers w = true ∧ o.fails .removeCurrent = true) → movesPlugins o specifiers w = true →
        o.fails .restoreCurrent = false ∧ (readiesPlugins o specifiers w = true → o.damages .removeBackup = false)))

variable {w₁ : World} {executable : String}

/-- The runtime that is staged is in place. -/
theorem atomic_staged (hcurrent : w₁.current = some (stagedRuntime o specifiers w)) (hlink : w₁.link = w.link)
    (hrestarts : w₁.restarts = [some (stagedRuntime o specifiers w)]) :
    Atomic executable (pluginRuntime o specifiers w) w w₁ ↔ Intact o specifiers w := by
  constructor
  · intro h
    obtain ⟨hold, -⟩ | ⟨hnew, -⟩ := h.runtime
    · exact .inr (hold.symm.trans hcurrent)
    · exact .inl (Option.some.inj (hcurrent.symm.trans hnew))
  · intro h
    refine ⟨?_, fun previous _ hprevious _ => ?_⟩
    · obtain hnew | hold := h
      · exact .inr ⟨hnew ▸ hcurrent, .inl hlink⟩
      · exact .inl ⟨hcurrent.trans hold.symm, hlink⟩
    · rw [hrestarts, ← hprevious, hcurrent]
      exact List.mem_singleton_self _

/-- The variables of a failed installation. -/
def pluginFlags (o : Oracle) (specifiers : List String) (w : World) : Locals where
  previousMoved := movesPlugins o specifiers w
  promoted := promotesPlugins o specifiers w
  controllerRestartAttempted := promotesPlugins o specifiers w

theorem current_of_movesPlugins (h : movesPlugins o specifiers w = true) : ∃ previous, w.current = some previous := by
  simp only [movesPlugins, Bool.and_eq_true] at h
  exact Option.isSome_iff_exists.1 h.2

theorem movesPlugins_of_promotes (h : promotesPlugins o specifiers w = true) :
    movesPlugins o specifiers w = w.current.isSome := by
  simp only [promotesPlugins, Bool.and_eq_true] at h
  simp only [movesPlugins, h.1.1, h.1.2, Bool.and_self, Bool.true_and]

/-- The previous runtime is moved back, and was not damaged. -/
theorem atomic_restoreBackup {new : Runtime} {v : Locals} {previous : Runtime} {d : Bool} (hw : Start w)
    (hnew : new.whole = true) (hprevious : w.current = some previous) (hcurrent : w₁.current = none)
    (hlink : w₁.link = w.link)
    (hbackup : w₁.backup = some { previous with whole := previous.whole && !d })
    (hrestarts : v.controllerRestartAttempted = false → w₁.restarts = []) :
    Atomic executable new w (after o (do
        required .restoreCurrent "rename failed"
        restartPrevious v) w₁) ↔ o.fails .restoreCurrent = false ∧ d = false := by
  have hthere : World.impossible .restoreCurrent w₁ = false := by simp [World.impossible, hbackup]
  rw [after_required_andThen, hthere, Bool.or_false]
  cases hfails : o.fails .restoreCurrent with
  | true => exact iff_of_false (not_atomic_of_missing hprevious hcurrent) (by simp)
  | false =>
    rw [if_neg (by decide)]
    cases d with
    | true =>
      have hdamaged : (after o (restartPrevious v) (World.operated o .restoreCurrent w₁)).current =
          some { previous with whole := previous.whole && !true } := by
        rw [← hbackup, restartPrevious]
        split
        · rw [after_required]
          split <;> rfl
        · rfl
      exact iff_of_false (not_atomic_of_damaged hw hnew (by simp) hdamaged) (by simp)
    | false =>
      have hback : (World.operated o .restoreCurrent w₁).current = w.current := by simp [World.operated, hbackup, hprevious]
      have hkept : (World.operated o .restoreCurrent w₁).link = w.link := hlink
      exact iff_of_true (atomic_restartPrevious hback hkept v hrestarts) (by simp)

/-- The `catch` block, wherever the `try` block has failed. -/
theorem atomic_rollBackPlugins (hw : Start w) (hfailed : FailedPlugins o specifiers w w₁)
    (hcompletes : completesPlugins o specifiers w = false) :
    Atomic executable (pluginRuntime o specifiers w) w (after o rollBackPlugins w₁) ↔ RollsBackPlugins o specifiers w := by
  obtain ⟨staging, rfl⟩ := hfailed
  have hafter : ∀ w₂ : World, w₂.locals = pluginFlags o specifiers w → after o rollBackPlugins w₂ = after o (do
      removePromoted (pluginFlags o specifiers w)
      if movesPlugins o specifiers w then do
        required .restoreCurrent "rename failed"
        restartPrevious (pluginFlags o specifiers w)
      else pure ()) w₂ := by
    intro w₂ hlocals
    rw [after, rollBackPlugins, exec_effect]
    simp only [step, hlocals]
    rfl
  rw [hafter _ rfl]
  have hmoved : movesPlugins o specifiers w = true → ∃ previous, w.current = some previous := current_of_movesPlugins
  cases hpromotes : promotesPlugins o specifiers w with
  | true =>
    have hremove : removePromoted (pluginFlags o specifiers w) = required .removeCurrent "rm failed" := by
      simp only [removePromoted, pluginFlags, hpromotes, if_true]
    rw [hremove, after_required_andThen]
    simp only [World.impossible, Bool.or_false]
    cases hfails : o.fails .removeCurrent with
    | true =>
      simp only [if_true, World.failed]
      cases hdamages : o.damages .removeCurrent with
      | true =>
        refine iff_of_false (not_atomic_of_damaged hw rfl
          (show { stagedRuntime o specifiers w with whole := false }.whole = false from rfl) ?_) ?_
        · simp [reached, World.remains, hdamages]
        · simp [RollsBackPlugins, hcompletes, hpromotes, hfails, hdamages]
      | false =>
        have hremains : World.remains o .removeCurrent (some (stagedRuntime o specifiers w)) =
            some (stagedRuntime o specifiers w) := by
          simp [World.remains, hdamages]
        refine (atomic_staged ?_ ?_ ?_).trans ?_
        · exact hremains
        · rfl
        · rfl
        · simp [RollsBackPlugins, hcompletes, hpromotes, hfails, hdamages]
    | false =>
      simp only [Bool.false_eq_true, if_false, World.operated]
      cases hmoves : movesPlugins o specifiers w with
      | true =>
        obtain ⟨previous, hprevious⟩ := hmoved hmoves
        simp only [if_true]
        rw [atomic_restoreBackup hw rfl hprevious (d := readiesPlugins o specifiers w && o.damages .removeBackup)]
        · simp [RollsBackPlugins, hcompletes, hpromotes, hmoves, hfails]
        · rfl
        · rfl
        · cases readiesPlugins o specifiers w <;> simp [World.remains, hprevious]
        · intro hattempted
          simp [pluginFlags, hpromotes] at hattempted
      | false =>
        have hnone : w.current = none := by
          have hmoves' := (movesPlugins_of_promotes hpromotes).symm.trans hmoves
          simpa using hmoves'
        refine iff_of_true ⟨.inl ⟨hnone.symm, rfl⟩, fun previous hprevious => ?_⟩ ?_
        · rw [hnone] at hprevious
          cases hprevious
        · simp [RollsBackPlugins, hcompletes, hmoves, hfails]
  | false =>
    have hremove : removePromoted (pluginFlags o specifiers w) = pure () := by
      simp only [removePromoted, pluginFlags, hpromotes]
      rfl
    have hreadies : readiesPlugins o specifiers w = false := by simp [readiesPlugins, hpromotes]
    rw [hremove, Program.pure_andThen]
    cases hmoves : movesPlugins o specifiers w with
    | true =>
      obtain ⟨previous, hprevious⟩ := hmoved hmoves
      simp only [if_true]
      rw [atomic_restoreBackup hw rfl hprevious (d := false)]
      · simp [RollsBackPlugins, hcompletes, hpromotes, hmoves, hreadies]
      · rfl
      · rfl
      · simp [hreadies, hprevious]
      · exact fun _ => rfl
    | false =>
      exact iff_of_true (Atomic.still rfl rfl rfl) (by simp [RollsBackPlugins, hcompletes, hpromotes, hmoves])

end Executions

end Dim.Installer
