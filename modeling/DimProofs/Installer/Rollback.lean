/-
What an installation leaves in place: the previous runtime or the new one. The `catch` block is followed from every
world in which the `try` block fails.
-/
import DimProofs.Installer.Steps

namespace Dim.Installer

open Effectful

/-- An installation is all or nothing: the directory `current` holds the previous runtime or the new one, the managed
symlink accords with it, and a previous runtime that is restored after a restart of the controller is restarted. -/
structure Atomic (executable : String) (new : Runtime) (w w' : World) : Prop where
  runtime : (w'.current = w.current ∧ w'.link = w.link) ∨
    (w'.current = some new ∧ (w'.link = w.link ∨ w'.link = .managed executable))
  restarted : ∀ previous, w.current = some previous → w'.current = some previous → w'.restarts ≠ [] →
    some previous ∈ w'.restarts

/-- A world where an installation starts: its own directories are not there yet, and `current` is complete. -/
structure Start (w : World) : Prop where
  fresh : Fresh w
  whole : ∀ current, w.current = some current → current.whole = true

section Afterwards

variable {o : Oracle} {w w₁ : World} {new : Runtime} {executable : String}

/-- What a program leaves, whether it fails or not. -/
def after {α : Type} (o : Oracle) (p : Action α) (w : World) : World := (p.exec (step o) w).2

variable {message : String} {operation : Operation}

theorem after_required : after o (required operation message) w =
    if o.fails operation || World.impossible operation w then World.failed o operation w else World.operated o operation
      w := by
  rw [after, exec_required]
  split <;> rfl

theorem after_required_andThen {q : Action Unit} :
    after o (required operation message >>= fun _ => q) w =
      if o.fails operation || World.impossible operation w then World.failed o operation w
      else after o q (World.operated o operation w) := by
  rw [after, exec_bind, exec_required]
  cases o.fails operation || World.impossible operation w <;> rfl

theorem Atomic.congr {w₂ : World} (h : Atomic executable new w w₁) (hcurrent : w₂.current = w₁.current)
    (hlink : w₂.link = w₁.link) (hrestarts : w₂.restarts = w₁.restarts) : Atomic executable new w w₂ :=
  ⟨hcurrent ▸ hlink ▸ h.runtime, hcurrent ▸ hrestarts ▸ h.restarted⟩

/-- Nothing has happened to what counts. -/
theorem Atomic.still (hcurrent : w₁.current = w.current) (hlink : w₁.link = w.link) (hrestarts : w₁.restarts = []) :
    Atomic executable new w w₁ :=
  ⟨.inl ⟨hcurrent, hlink⟩, fun _ _ _ h => absurd hrestarts h⟩

/-- The new runtime has been restarted if any has. -/
theorem Atomic.promoted (hcurrent : w₁.current = some new) (hlink : w₁.link = w.link ∨ w₁.link = .managed executable)
    (hrestarts : w₁.restarts ≠ [] → some new ∈ w₁.restarts) : Atomic executable new w w₁ :=
  ⟨.inr ⟨hcurrent, hlink⟩, fun _ _ h hne => h ▸ hcurrent ▸ hrestarts hne⟩

/-- The new runtime is in place, whether its controller is restarted and the symlink points to it or not. -/
theorem atomic_reached {staging : Option Runtime} {moved attempted ready exposed linked committed : Bool}
    {snapshot : Option Snapshot} : Atomic executable new w
      (reached w new executable staging moved true attempted ready exposed snapshot linked committed) := by
  refine Atomic.promoted rfl ?_ ?_
  · cases linked with
    | true => exact .inr rfl
    | false => exact .inl rfl
  · cases attempted with
    | true => exact fun _ => List.mem_singleton_self _
    | false => exact fun h => absurd rfl h

variable {r : Runtime}

/-- A removal that fails leaves the directory whole, or not. -/
theorem remains_eq_iff (hr : r.whole = true) :
    World.remains o operation (some r) = some r ↔ o.damages operation = false := by
  constructor
  · intro h
    have hwhole := congrArg (fun r => r.map (·.whole)) h
    simpa [World.remains, hr] using hwhole
  · intro h
    cases r
    simp_all [World.remains]

/-- A damaged directory is no complete runtime. -/
theorem not_atomic_of_damaged (hw : Start w) (hnew : new.whole = true) (hr : r.whole = false)
    (hcurrent : w₁.current = some r) : ¬Atomic executable new w w₁ := by
  intro h
  rcases h.runtime with ⟨hold, -⟩ | ⟨hsame, -⟩
  · have hwhole := hw.whole r (by rw [← hold, hcurrent])
    rw [hr] at hwhole
    cases hwhole
  · rw [hcurrent, Option.some.injEq] at hsame
    rw [hsame, hnew] at hr
    cases hr

/-- A previous runtime that is gone is lost. -/
theorem not_atomic_of_missing {previous : Runtime} (hprevious : w.current = some previous) (hcurrent : w₁.current = none) :
    ¬Atomic executable new w w₁ := by
  intro h
  rcases h.runtime with ⟨hold, -⟩ | ⟨hsame, -⟩
  · rw [hcurrent, hprevious] at hold
    cases hold
  · rw [hcurrent] at hsame
    cases hsame

end Afterwards

/-! ## The symlink -/

section Restore

variable {o : Oracle} {w : World}

/-- Whether the managed symlink can be restored, once `linked` says whether it points to the new runtime. -/
def relinks (o : Oracle) (linked : Bool) : Link → Bool
  | .absent => linked && !o.fails .unlinkRestored
  | _ => !o.fails .createRestored && !o.fails .renameRestored

variable {operation : Operation} {snapshot : Snapshot}

/-- The link that a snapshot was taken of. -/
theorem link_of_snapshot (h : w.snapshot o operation = some snapshot) :
    w.link = match snapshot with
      | .absent => .absent
      | .present target => .managed target := by
  rw [World.snapshot] at h
  split at h
  · cases h
  · cases hlink : w.link with
    | absent => rw [hlink] at h; cases h; rfl
    | managed target => rw [hlink] at h; cases h; rfl
    | foreign => rw [hlink] at h; cases h

/-- The symlink is as it was, or nothing has changed it. -/
theorem exec_restoreManagedSymlink {w₁ : World} {linked : Bool} {target : String}
    (h : w.snapshot o operation = some snapshot) (hlink : w₁.link = if linked then .managed target else w.link) :
    Stage o (restoreManagedSymlink snapshot) w₁ (relinks o linked w.link) { w₁ with link := w.link } fun w₂ => w₂ = w₁ := by
  cases snapshot with
  | absent =>
    have habsent : w.link = .absent := link_of_snapshot h
    cases linked with
    | true =>
      have hthere : World.impossible .unlinkRestored w₁ = false := by simp [World.impossible, hlink]
      have hstage : Stage o (required .unlinkRestored "unlink failed") w₁
        (!o.fails .unlinkRestored) { w₁ with link := .absent }
          fun w₂ => w₂ = w₁ := stage_required _ hthere rfl fun _ => rfl
      rw [habsent]
      exact hstage
    | false =>
      rw [if_neg (by decide), habsent] at hlink
      have hfail : (required .unlinkRestored "unlink failed").exec (step o) w₁ = (.error "unlink failed", w₁) := by
        rw [exec_required]
        simp [World.impossible, hlink, World.failed]
      rw [habsent]
      exact ⟨"unlink failed", w₁, hfail, rfl⟩
  | present previous =>
    have hprevious : w.link = .managed previous := link_of_snapshot h
    have hstage : Stage o (replaceSymlink .createRestored .renameRestored previous) w₁
        (!o.fails .createRestored && !o.fails .renameRestored) { w₁ with link := .managed previous } fun w₂ => w₂ = w₁ :=
      stage_replaceSymlink rfl rfl rfl fun _ => rfl
    rw [hprevious]
    exact hstage

end Restore

/-! ## The `catch` block of `installDimCli` -/

section RollBack

variable {o : Oracle} {options : CliInstallOptions} {w w₁ : World} {new : Runtime} {failure : String}

theorem promotes_of_attempts (h : attempts o options = true) : promotes o options = true := by
  simp only [attempts, Bool.and_eq_true] at h
  exact h.1.1

theorem promotes_of_readies (h : readies o options = true) : promotes o options = true := by
  simp only [readies, Bool.and_eq_true] at h
  exact promotes_of_attempts h.1

theorem promotes_of_commits (h : commits o options w = true) : promotes o options = true := by
  simp only [commits, serves, Bool.and_eq_true] at h
  exact h.1.1.1.1.1

theorem promotes_of_snapshotted {snapshot : Snapshot} (h : snapshotted o options w = some snapshot) :
    promotes o options = true ∧ options.exposeOnPath = true ∧ serves o options = true ∧
      w.snapshot o .snapshotLink = some snapshot := by
  rw [snapshotted] at h
  split at h
  · rename_i hserves
    simp only [serves, Bool.and_eq_true] at hserves
    exact ⟨hserves.1.1.1, hserves.2, by simp only [serves, hserves.1.1.1, hserves.1.1.2, hserves.1.2, Bool.and_self], h⟩
  · cases h

theorem not_links (h : snapshotted o options w = none) : links o options w = false := by simp [links, h]

theorem moves_of_promotes (h : promotes o options = true) : moves o options w = w.current.isSome := by
  simp only [promotes, Bool.and_eq_true] at h
  simp only [moves, h.1.1, h.1.2, Bool.and_self, Bool.true_and]

theorem current_of_moves (h : moves o options w = true) : ∃ previous, w.current = some previous := by
  simp only [moves, Bool.and_eq_true] at h
  exact Option.isSome_iff_exists.1 h.2

/-- The previous runtime is found again, the symlink accords with it, and its controller is restarted. -/
def Recovers (o : Oracle) (options : CliInstallOptions) (w : World) (new : Runtime) : Prop :=
  (moves o options w = true → o.fails .restoreCurrent = false) ∧
    ((snapshotted o options w).isSome = true → relinks o (links o options w) w.link = true ∨ w.current = some new ∨
      ((moves o options w && attempts o options) = false ∧
        (links o options w = false ∨ w.link = .managed options.executable)))

/-- The `catch` block ends well. -/
def RollsBack (o : Oracle) (options : CliInstallOptions) (w : World) (new : Runtime) : Prop :=
  commits o options w = true ∨ (readies o options = true ∧ o.fails .stopTarget = true) ∨
    ((promotes o options = true ∧ o.fails .removeCurrent = true → o.damages .removeCurrent = false) ∧
      (¬(promotes o options = true ∧ o.fails .removeCurrent = true) → Recovers o options w new))

/-- The variables of a failed installation. -/
def flags (o : Oracle) (options : CliInstallOptions) (w : World) : Locals where
  previousMoved := moves o options w
  promoted := promotes o options
  committed := commits o options w
  controllerRestartAttempted := attempts o options
  targetControllerReady := readies o options
  installedSymlink := serves o options && options.exposeOnPath
  symlinkSnapshot := snapshotted o options w

/-- The world once the previous runtime is back. -/
def restored (o : Oracle) (options : CliInstallOptions) (w : World) (new : Runtime) (staging backup : Option Runtime) :
    World where
  current := w.current
  backup := backup
  staging := staging
  link := if links o options w then .managed options.executable else w.link
  restarts := if attempts o options then [some new] else []
  locals := flags o options w

variable {backup staging : Option Runtime}

/-- The symlink cannot be restored. -/
theorem atomic_unrelinked (hmoves : moves o options w = w.current.isSome) :
    Atomic options.executable new w (restored o options w new staging backup) ↔ w.current = some new ∨
      ((moves o options w && attempts o options) = false ∧
        (links o options w = false ∨ w.link = .managed options.executable)) := by
  constructor
  · intro h
    rcases h.runtime with ⟨-, hlink⟩ | ⟨hnew, -⟩
    · have hlinked : links o options w = false ∨ w.link = .managed options.executable := by
        cases hlinks : links o options w with
        | false => exact .inl rfl
        | true => exact .inr (by simpa [restored, hlinks] using hlink.symm)
      cases hcurrent : w.current with
      | none => exact .inr ⟨by simp [hmoves, hcurrent], hlinked⟩
      | some previous =>
        cases hattempts : attempts o options with
        | false => exact .inr ⟨by simp, hlinked⟩
        | true =>
          have hrestarted := h.restarted previous hcurrent hcurrent (by simp [restored, hattempts])
          simp only [restored, hattempts, if_true, List.mem_singleton] at hrestarted
          exact .inl hrestarted
    · exact .inl hnew
  · rintro (hnew | ⟨hattempts, hlinked⟩)
    · refine Atomic.promoted hnew ?_ fun h => ?_
      · simp only [restored]
        split
        · exact .inr rfl
        · exact .inl rfl
      · simp only [restored] at h ⊢
        split
        · exact List.mem_singleton_self _
        · rename_i hattempts
          rw [if_neg hattempts] at h
          exact absurd rfl h
    · refine ⟨.inl ⟨rfl, ?_⟩, fun previous hprevious _ hrestarts => ?_⟩
      · rcases hlinked with hlinks | hlink
        · simp [restored, hlinks]
        · simp only [restored, hlink, ite_self]
      · rw [hmoves, hprevious, Option.isSome_some, Bool.true_and] at hattempts
        exact absurd (by simp [restored, hattempts]) hrestarts

/-- The controller of a runtime that is back is restarted where another restart was attempted. -/
theorem atomic_restartPrevious {executable : String} (hcurrent : w₁.current = w.current) (hlink : w₁.link = w.link)
    (v : Locals) (hrestarts : v.controllerRestartAttempted = false → w₁.restarts = []) :
    Atomic executable new w (after o (restartPrevious v) w₁) := by
  rw [restartPrevious]
  split
  · have hafter : after o (required .restartPrevious "previous controller restart failed") w₁ =
        { w₁ with restarts := w₁.restarts ++ [w₁.current] } := by
      rw [after_required]
      split <;> rfl
    rw [hafter]
    refine ⟨.inl ⟨hcurrent, hlink⟩, fun previous hprevious _ _ => ?_⟩
    exact List.mem_append_right _ (by rw [hcurrent, hprevious]; exact List.mem_singleton_self _)
  · rename_i hattempted
    exact Atomic.still hcurrent hlink (hrestarts (by simpa using hattempted))

theorem after_andThen {p : Action Unit} {q : Action Unit} {c : Bool} {R : World → Prop} (h : Stage o p w c w₁ R) :
    (c = true → after o (p >>= fun _ => q) w = after o q w₁) ∧ (c = false → R (after o (p >>= fun _ => q) w)) := by
  cases c with
  | true =>
    have hexec : p.exec (step o) w = (.ok (), w₁) := h
    exact ⟨fun _ => by rw [after, exec_bind, hexec]; rfl, fun h => by cases h⟩
  | false =>
    obtain ⟨failure, w₂, hexec, hR⟩ := h
    exact ⟨fun h => (by cases h), fun _ => by rw [after, exec_bind, hexec]; exact hR⟩

theorem after_andThen_pure (p : Action Unit) : after o (p >>= fun _ => pure ()) w = after o p w := by
  rw [after, exec_bind, after]
  rcases p.exec (step o) w with ⟨failure | value, w'⟩ <;> rfl

theorem stage_restoreLink {staging backup : Option Runtime} : Stage o
    (restoreLink (flags o options w)) (restored o options w new staging backup)
    ((snapshotted o options w).isNone || relinks o (links o options w) w.link)
    { restored o options w new staging backup with link := w.link }
    fun w₂ => w₂ = restored o options w new staging backup := by
  cases hsnapshot : snapshotted o options w with
  | none =>
    have hpure : restoreLink (flags o options w) = pure () := by
      simp only [restoreLink, flags, hsnapshot]
      cases serves o options && options.exposeOnPath <;> rfl
    rw [hpure]
    exact stage_pure.congr rfl (by simp [restored, not_links hsnapshot])
  | some snapshot =>
    obtain ⟨-, hexpose, hserves, htaken⟩ := promotes_of_snapshotted hsnapshot
    have hrestore : restoreLink (flags o options w) = restoreManagedSymlink snapshot := by
      simp only [restoreLink, flags, hsnapshot, hexpose, hserves, Bool.and_self]
    rw [hrestore]
    exact exec_restoreManagedSymlink htaken rfl

/-- The end of the `catch` block, once the previous runtime is back: `q` does what is left to do. -/
theorem atomic_restored {q : Action Unit}
    (hq : Atomic options.executable new w (after o q { restored o options w new staging backup with link := w.link }))
    (hmoves : (snapshotted o options w).isSome = true → moves o options w = w.current.isSome) :
    Atomic options.executable new w
        (after o (restoreLink (flags o options w) >>= fun _ => q)
          (restored o options w new staging backup)) ↔
      ((snapshotted o options w).isSome = true → relinks o (links o options w) w.link = true ∨ w.current = some new ∨
        ((moves o options w && attempts o options) = false ∧
          (links o options w = false ∨ w.link = .managed options.executable))) := by
  have hafter := @after_andThen o _ _ _ q _ _ (@stage_restoreLink o options w new staging backup)
  cases hrelinks : (snapshotted o options w).isNone || relinks o (links o options w) w.link with
  | true =>
    rw [hafter.1 hrelinks]
    refine iff_of_true hq fun hsome => .inl ?_
    rw [Option.isNone_eq_false_iff.2 hsome, Bool.false_or] at hrelinks
    exact hrelinks
  | false =>
    rw [hafter.2 hrelinks]
    simp only [Bool.or_eq_false_iff, Option.isNone_eq_false_iff] at hrelinks
    rw [atomic_unrelinked (hmoves hrelinks.1)]
    simp [hrelinks.1, hrelinks.2]

/-- The previous runtime is moved back, where there was one. -/
theorem atomic_restorePrevious {staging backup : Option Runtime} {w₂ : World}
    (hbackup : moves o options w = true → backup = w.current)
    (hw₂ : w₂ = { restored o options w new staging backup with
      current := if promotes o options || moves o options w then none else w.current }) :
    Atomic options.executable new w (after o (restorePrevious (flags o options w)) w₂) ↔ Recovers o options w new := by
  have hsnapshotted : (snapshotted o options w).isSome = true → moves o options w = w.current.isSome := by
    intro hsome
    obtain ⟨snapshot, hsnapshot⟩ := Option.isSome_iff_exists.1 hsome
    exact moves_of_promotes (promotes_of_snapshotted hsnapshot).1
  cases hmoves : moves o options w with
  | true =>
    obtain ⟨previous, hprevious⟩ := current_of_moves hmoves
    have hplace : w₂ = { restored o options w new staging w.current with current := none } := by
      rw [hw₂, hbackup hmoves, hmoves]
      simp
    have hrestore : restorePrevious (flags o options w) = (required .restoreCurrent "rename failed" >>= fun _ =>
        restoreLink (flags o options w) >>= fun _ =>
          restartPrevious (flags o options w)) := by
      simp only [restorePrevious, flags, hmoves]
      rfl
    have hthere : World.impossible .restoreCurrent w₂ = false := by simp [hplace, World.impossible, restored, hprevious]
    rw [hrestore, after_required_andThen, hthere, Bool.or_false]
    cases hfails : o.fails .restoreCurrent with
    | true =>
      refine iff_of_false (not_atomic_of_missing hprevious (by rw [hplace]; rfl)) fun h => ?_
      rw [h.1 hmoves] at hfails
      cases hfails
    | false =>
      have hoperated : World.operated o .restoreCurrent w₂ = restored o options w new staging none := by rw [hplace]; rfl
      have hrestart := @atomic_restartPrevious o w { restored o options w new staging none with link := w.link } new
        options.executable rfl rfl (flags o options w) fun hattempted => by simpa [restored, flags] using hattempted
      rw [if_neg (by decide), hoperated, atomic_restored hrestart hsnapshotted]
      simp [Recovers, hfails]
  | false =>
    have hcurrent : promotes o options = true → w.current = none := by
      intro hpromotes
      have hnone := (moves_of_promotes (w := w) hpromotes).symm.trans hmoves
      simpa using hnone
    have hplace : w₂ = restored o options w new staging backup := by
      rw [hw₂, hmoves, Bool.or_false]
      cases hpromotes : promotes o options with
      | true => rw [if_pos rfl, ← hcurrent hpromotes]; rfl
      | false => rfl
    have hrestore : restorePrevious (flags o options w) = restoreLink (flags o options w) := by
      rw [restorePrevious]
      simp only [flags, hmoves]
      rfl
    have hquiet : Atomic options.executable new w
        (after o (pure () : Action Unit) { restored o options w new staging backup with link := w.link }) := by
      refine ⟨.inl ⟨rfl, rfl⟩, fun previous hprevious _ hrestarts => ?_⟩
      cases hattempts : attempts o options with
      | true =>
        rw [hcurrent (promotes_of_attempts hattempts)] at hprevious
        cases hprevious
      | false =>
        have hnone : (restored o options w new staging backup).restarts = [] := by simp [restored, hattempts]
        exact absurd hnone hrestarts
    rw [hrestore, ← after_andThen_pure, hplace, atomic_restored hquiet hsnapshotted]
    simp [Recovers, hmoves]

/-- Where the `try` block has failed, in the words of `restored`. -/
theorem reached_eq :
    reached w new options.executable staging (moves o options w) (promotes o options) (attempts o options)
      (readies o options)
        (serves o options && options.exposeOnPath) (snapshotted o options w) (links o options w) (commits o options w) =
      { restored o options w new staging (if moves o options w then w.current else w.backup) with
        current := if promotes o options then some new else if moves o options w then none else w.current } := by
  simp only [reached, restored, flags]

/-- The promoted runtime is removed. -/
theorem atomic_removePromoted {staging : Option Runtime} (hw : Start w) (hnew : new.whole = true) :
    Atomic options.executable new w (after o (do
        removePromoted (flags o options w)
        restorePrevious (flags o options w))
      (reached w new options.executable staging (moves o options w) (promotes o options) (attempts o options)
        (readies o options)
        (serves o options && options.exposeOnPath) (snapshotted o options w) (links o options w) (commits o options w))) ↔
      (promotes o options = true ∧ o.fails .removeCurrent = true → o.damages .removeCurrent = false) ∧
        (¬(promotes o options = true ∧ o.fails .removeCurrent = true) → Recovers o options w new) := by
  rw [reached_eq]
  cases hpromotes : promotes o options with
  | true =>
    have hremove : removePromoted (flags o options w) = required .removeCurrent "rm failed" := by
      simp only [removePromoted, flags, hpromotes, if_true]
    rw [hremove, after_required_andThen]
    simp only [World.impossible, Bool.or_false, if_true]
    cases hfails : o.fails .removeCurrent with
    | true =>
      simp only [if_true, World.failed]
      cases hdamages : o.damages .removeCurrent with
      | true =>
        have hdamaged : World.remains o .removeCurrent (some new) = some { new with whole := false } := by
          simp [World.remains, hdamages]
        exact iff_of_false (not_atomic_of_damaged hw hnew rfl hdamaged) fun h => by simpa using h.1 ⟨trivial, trivial⟩
      | false =>
        have hpresent : Atomic options.executable new w (reached w new options.executable staging (moves o options w) true
            (attempts o options) (readies o options) (serves o options && options.exposeOnPath) (snapshotted o options w)
            (links o options w) (commits o options w)) := atomic_reached
        exact iff_of_true (hpresent.congr ((remains_eq_iff hnew).2 hdamages) rfl rfl)
          ⟨fun _ => rfl, fun h => absurd ⟨trivial, trivial⟩ h⟩
    | false =>
      have hrecover := @atomic_restorePrevious o options w new staging (if moves o options w then w.current else w.backup) _
        (fun hmoves => if_pos hmoves) rfl
      simp only [hpromotes, Bool.true_or, if_true] at hrecover
      simpa [World.operated] using hrecover
  | false =>
    have hremove : removePromoted (flags o options w) = pure () := by
      simp only [removePromoted, flags, hpromotes]
      rfl
    have hrecover := @atomic_restorePrevious o options w new staging (if moves o options w then w.current else w.backup) _
      (fun hmoves => if_pos hmoves) rfl
    rw [hremove, Program.pure_andThen]
    simp only [hpromotes, Bool.false_or] at hrecover
    simpa using hrecover

/-- The `catch` block, wherever the `try` block has failed. -/
theorem atomic_rollBack {plugins : List String} {failure : String} (hw : Start w)
    (hfailed : Failed o options w plugins w₁) :
    Atomic options.executable (newRuntime o plugins) w (after o (rollBack failure) w₁) ↔
      RollsBack o options w (newRuntime o plugins) := by
  obtain ⟨staging, rfl⟩ := hfailed
  have hafter : ∀ w₂ : World, w₂.locals = flags o options w → after o (rollBack failure) w₂ =
      if commits o options w then w₂ else after o (do
        stopTarget failure (flags o options w)
        removePromoted (flags o options w)
        restorePrevious (flags o options w)) w₂ := by
    intro w₂ hlocals
    rw [after, rollBack, exec_effect]
    simp only [step, hlocals]
    cases hcommits : commits o options w <;> simp only [flags, hcommits] <;> rfl
  rw [hafter _ rfl]
  cases hcommits : commits o options w with
  | true =>
    rw [promotes_of_commits hcommits]
    exact iff_of_true atomic_reached (.inl hcommits)
  | false =>
    have hremove := @atomic_removePromoted o options w (newRuntime o plugins) staging hw rfl
    simp only [hcommits] at hremove
    simp only [Bool.false_eq_true, if_false]
    cases hreadies : readies o options with
    | false =>
      have hstop : stopTarget failure (flags o options w) = pure () := by simp [stopTarget, flags, hreadies]
      rw [hstop, Program.pure_andThen]
      simp only [hreadies] at hremove
      rw [hremove]
      simp [RollsBack, hcommits, hreadies]
    | true =>
      have hpromotes := promotes_of_readies hreadies
      have hstop : stopTarget failure (flags o options w) = required .stopTarget failure := by
        simp [stopTarget, flags, hreadies, hpromotes]
      rw [hstop, after_required_andThen]
      simp only [hreadies] at hremove
      simp only [World.impossible, Bool.or_false]
      cases hfails : o.fails .stopTarget with
      | true =>
        rw [hpromotes]
        exact iff_of_true atomic_reached (.inr (.inl ⟨hreadies, hfails⟩))
      | false =>
        simp only [Bool.false_eq_true, if_false, World.operated]
        rw [hremove]
        simp [RollsBack, hcommits, hfails]

end RollBack

end Dim.Installer
