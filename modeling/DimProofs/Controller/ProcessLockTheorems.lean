/-
What the lock of a managed proxy promises. While no recovery moves aside a file whose creator still uses the lock, at
most one live process is between its acquire and its release, and a lock whose owner died is acquired by whoever comes
next. Nothing in the code keeps the recoveries to that: the liveness of an owner is looked at first, and whatever is
at the path is moved aside later.
-/
import DimProofs.Controller.ProcessLock

namespace Dim.Controller.ProcessLock

open Effectful Relation

/-! ## One step -/

/-- The runs in which nothing is moved aside that a live call still uses. -/
def careful : Concurrent.Permits World Request Answer Operation where
  begins _ := True
  effect _ request w answer := request = .rename → answer.isOk = true → w.path.Free
  crash _ _ := True

/-- What holds between any two steps. -/
structure Sound (w : World) : Prop where
  exclusive : w.path.Exclusive
  dated : ∀ e, w.path.entry = some e → e.content.mtimeNs ≤ w.clock

def Does (i : Nat) (w w' : World) : Prop := LockPath.Step i w.path w'.path

/-- The requests by which a call takes the lock, uses it or is done with it. -/
def Request.calm : Request → Prop
  | .open | .remove | .operation | .release => False
  | _ => True

section

variable {w w' : World} {i : Nat} {op : Operation}

theorem Sound.later (h : Sound w) (elapsed : Nat) : Sound (w.later elapsed) :=
  ⟨h.exclusive, fun e he => (h.dated e he).trans (Nat.le_add_right _ _)⟩

theorem Sound.onPath (h : Sound w) {f : LockPath LockFile → LockPath LockFile} (hstep : w.path.Step i (f w.path))
    (hdated : ∀ e, (f w.path).entry = some e → e.content.mtimeNs ≤ w.clock) : Sound (w.onPath f) ∧ Does i w (w.onPath f) :=
  ⟨⟨hstep.exclusive h.exclusive, hdated⟩, hstep⟩

/-- A call that leaves, whatever becomes of its file. -/
theorem Sound.leaves (h : Sound w) : Sound (w.onPath (.leave i)) ∧ Does i w (w.onPath (.leave i)) :=
  h.onPath .left h.dated

theorem Sound.removes (h : Sound w) (hi : i ∈ w.path.users) :
    Sound (w.onPath fun p => p.remove.leave i) ∧ Does i w (w.onPath fun p => p.remove.leave i) :=
  h.onPath (.removed hi) fun _ he => nomatch he

/-- A handle that is written changes the file of its own call. -/
theorem Sound.writes (h : Sound w) (owner : ProcessIdentity) :
    Sound (w.onPath (written i owner w.clock)) ∧ Does i w (w.onPath (written i owner w.clock)) := by
  by_cases hown : w.path.createdBy i = true
  · have hwritten : written i owner w.clock w.path =
        w.path.rewrite fun file => { file with owner := some owner, mtimeNs := w.clock } := if_pos hown
    refine h.onPath ?_ fun e he => ?_
    · rw [hwritten]
      by_cases hi : i ∈ w.path.users
      · exact .rewrote _ (.inl hi)
      · exact .rewrote _ (.inr (LockPath.free_of_createdBy hown hi))
    · rw [hwritten] at he
      obtain ⟨e', -, rfl⟩ := Option.map_eq_some_iff.mp he
      exact le_refl _
  · have hwritten : written i owner w.clock w.path = w.path := if_neg hown
    refine h.onPath ?_ fun e he => ?_
    · rw [hwritten]
      exact .stayed
    · rw [hwritten] at he
      exact h.dated e he

theorem users_written {owner : ProcessIdentity} {clock : Nat} (p : LockPath LockFile) :
    (written i owner clock p).users = p.users := by
  unfold written
  split <;> rfl

variable {choice : Choice} {request : Request}

/-- Every request does to the path what a call may do to it. -/
theorem perform_keeps {answer : Answer request} (h : Sound w)
    (hperform : perform choice i request w = (answer, w')) (hcareful : careful.effect op request w answer)
    (huses : request.calm ∨ request = .open ∨ i ∈ w.path.users) : Sound w' ∧ Does i w w' := by
  have hlater : Sound (w.later choice.elapsed) := h.later choice.elapsed
  have hstays : Sound (w.later choice.elapsed) ∧ Does i w (w.later choice.elapsed) := ⟨hlater, .stayed⟩
  have hleaves : Sound ((w.later choice.elapsed).onPath (.leave i)) ∧
      Does i w ((w.later choice.elapsed).onPath (.leave i)) := hlater.leaves
  unfold perform at hperform
  dsimp only at hperform
  split at hperform
  · obtain ⟨-, rfl⟩ := Prod.mk.inj hperform
    split
    · exact hleaves
    · exact hstays
  · cases request with
    | «open» =>
      dsimp only at hperform
      split at hperform
      · obtain ⟨-, rfl⟩ := Prod.mk.inj hperform
        exact hstays
      · rename_i hentry
        obtain ⟨-, rfl⟩ := Prod.mk.inj hperform
        refine hlater.onPath (.created _ hentry) fun e he => ?_
        obtain rfl := Option.some.inj he
        exact le_refl _
    | readProcess pid =>
      dsimp only at hperform
      split at hperform <;> obtain ⟨-, rfl⟩ := Prod.mk.inj hperform <;> exact hstays
    | writeFile owner =>
      obtain ⟨-, rfl⟩ := Prod.mk.inj hperform
      exact hlater.writes owner
    | remove =>
      have hi : i ∈ w.path.users := by simpa [Request.calm] using huses
      dsimp only at hperform
      split at hperform
      · split at hperform
        · obtain ⟨-, rfl⟩ := Prod.mk.inj hperform
          exact hleaves
        · obtain ⟨-, rfl⟩ := Prod.mk.inj hperform
          exact hlater.removes hi
      · obtain ⟨-, rfl⟩ := Prod.mk.inj hperform
        exact hleaves
    | stat =>
      dsimp only at hperform
      split at hperform <;> obtain ⟨-, rfl⟩ := Prod.mk.inj hperform <;> exact hstays
    | readFile directory =>
      dsimp only at hperform
      split at hperform
      · split at hperform <;> obtain ⟨-, rfl⟩ := Prod.mk.inj hperform <;> exact hstays
      · obtain ⟨-, rfl⟩ := Prod.mk.inj hperform
        exact hstays
    | rename =>
      dsimp only at hperform
      split at hperform
      · obtain ⟨rfl, rfl⟩ := Prod.mk.inj hperform
        exact hlater.onPath (.cleared (hcareful rfl rfl)) fun _ he => nomatch he
      · obtain ⟨-, rfl⟩ := Prod.mk.inj hperform
        exact hstays
    | sleep milliseconds =>
      obtain ⟨-, rfl⟩ := Prod.mk.inj hperform
      exact ⟨hlater.later _, .stayed⟩
    | operation =>
      have hi : i ∈ w.path.users := by simpa [Request.calm] using huses
      obtain ⟨-, rfl⟩ := Prod.mk.inj hperform
      exact hlater.onPath (.used hi) hlater.dated
    | release =>
      have hi : i ∈ w.path.users := by simpa [Request.calm] using huses
      obtain ⟨-, rfl⟩ := Prod.mk.inj hperform
      have huse : (w.later choice.elapsed).onPath (fun p => (p.use i).remove.leave i) =
          (w.later choice.elapsed).onPath fun p => p.remove.leave i := by
        simp only [World.onPath, hlater.exclusive.use_eq hi]
      rw [huse]
      exact hlater.removes hi
    | now | close | removeStale =>
      obtain ⟨-, rfl⟩ := Prod.mk.inj hperform
      exact hstays

/-- Who uses the lock is the same after a calm request, and after the work that is done under it. -/
theorem users_perform {answer : Answer request}
    (hcalm : request.calm ∨ request = .operation) (hperform : perform choice i request w = (answer, w')) :
    w'.path.users = w.path.users := by
  have hends : request.ends = false := by
    cases request <;> first | rfl | simp [Request.calm] at hcalm
  unfold perform at hperform
  dsimp only at hperform
  split at hperform
  · obtain ⟨-, rfl⟩ := Prod.mk.inj hperform
    rw [hends]
    rfl
  · cases request with
    | «open» | remove | release => simp [Request.calm] at hcalm
    | writeFile owner =>
      obtain ⟨-, rfl⟩ := Prod.mk.inj hperform
      exact users_written _
    | readProcess pid | stat | rename =>
      dsimp only at hperform
      split at hperform <;> obtain ⟨-, rfl⟩ := Prod.mk.inj hperform <;> rfl
    | readFile directory =>
      dsimp only at hperform
      split at hperform
      · split at hperform <;> obtain ⟨-, rfl⟩ := Prod.mk.inj hperform <;> rfl
      · obtain ⟨-, rfl⟩ := Prod.mk.inj hperform
        rfl
    | now | close | removeStale | sleep | operation =>
      obtain ⟨-, rfl⟩ := Prod.mk.inj hperform
      rfl

/-- A file that could be created is used by the call that created it. -/
theorem users_open {value : Unit} (hperform : perform choice i .open w = (.ok value, w')) :
    i ∈ w'.path.users := by
  unfold perform at hperform
  dsimp only at hperform
  split at hperform
  · cases hperform
  · split at hperform
    · cases hperform
    · obtain ⟨-, rfl⟩ := Prod.mk.inj hperform
      exact List.mem_cons_self

end

/-! ## One call among others -/

section

variable {i : Nat} {op : Operation}

/-- What the other calls leave alone. -/
def Uses (i : Nat) (w : World) : Prop := i ∈ w.path.users

abbrev Acts (i : Nat) (op : Operation) : (request : Request) → World → Answer request → World → Prop :=
  system.Allowed careful i op

abbrev Others (i : Nat) : World → World → Prop := Concurrent.Rely Sound Does i

theorem stable_uses : Stable (Others i) (Uses i) := by
  rintro w w' hw ⟨-, -, j, hj, hstep⟩
  exact (hstep.users hj.symm).mpr hw

theorem keeps_of_acts {request : Request} {w w' : World} {answer : Answer request} (h : Sound w)
    (hacts : Acts i op request w answer w') (huses : request.calm ∨ request = .open ∨ Uses i w) :
    Sound w' ∧ Does i w w' := by
  obtain ⟨hcareful, choice, hperform⟩ := hacts
  exact perform_keeps h hperform hcareful huses

variable {α : Type}

/-- A program that only looks, waits, or moves aside what is free. -/
theorem amid_calm {p : Action α} (hp : p.Every Request.calm) (w : World) :
    Amid (Acts i op) Sound (Does i) (Others i) p (fun _ _ => True) w := by
  refine hp.amid (S := fun _ => True) stable_true (fun request w answer w' hcalm _ hI hacts => ?_) trivial
  obtain ⟨hsound, hdoes⟩ := keeps_of_acts hI hacts (.inl hcalm)
  exact ⟨hsound, hdoes, trivial⟩

theorem amid_calm_uses {p : Action α} (hp : p.Every Request.calm) {w : World} (hw : Uses i w) :
    Amid (Acts i op) Sound (Does i) (Others i) p (fun _ => Uses i) w := by
  refine hp.amid stable_uses (fun request w answer w' hcalm hw hI hacts => ?_) hw
  obtain ⟨hsound, hdoes⟩ := keeps_of_acts hI hacts (.inl hcalm)
  obtain ⟨-, choice, hperform⟩ := hacts
  refine ⟨hsound, hdoes, ?_⟩
  rw [Uses, users_perform (.inl hcalm) hperform]
  exact hw

theorem every_ask (request : Request) (h : request.calm) : (ask request).Every Request.calm :=
  (every_effect h).andThen fun
    | .ok _ => every_pure _
    | .error _ => every_throw _

theorem every_processSnapshot (pid : Nat) : (processSnapshot pid).Every Request.calm :=
  every_ask (.readProcess pid) trivial

theorem every_currentProcessIdentity (pid : Nat) : (currentProcessIdentity pid).Every Request.calm :=
  (every_processSnapshot pid).andThen fun
    | some _ => every_pure _
    | none => every_throw _

theorem every_processIdentityStatus (identity : ProcessIdentity) :
    (processIdentityStatus identity).Every Request.calm := by
  refine (every_processSnapshot identity.pid).andThen fun snapshot => ?_
  cases snapshot with
  | none => exact every_pure _
  | some snapshot =>
    dsimp only
    split
    · exact every_pure _
    · split <;> exact every_pure _

theorem every_unlessMissing (value : α) (failure : Failure) :
    (if isMissingProcess failure then pure value else throw failure : Action α).Every Request.calm := by
  split
  · exact every_pure _
  · exact every_throw _

theorem every_readLockOwner : readLockOwner.Every Request.calm :=
  Program.Every.orElse (every_unlessMissing none)
    ((every_ask .stat trivial).andThen fun lockStat => every_ask (.readFile lockStat.directory) trivial)

theorem every_recoverLock : recoverLock.Every Request.calm :=
  Program.Every.orElse (every_unlessMissing ())
    ((every_ask .rename trivial).andThen fun _ => every_ask .removeStale trivial)

theorem every_lockAge : lockAge.Every Request.calm :=
  Program.Every.orElse (every_unlessMissing 0)
    ((every_ask .now trivial).andThen fun _ => (every_ask .stat trivial).andThen fun _ => every_pure _)

theorem every_recoverOrWait (pollIntervalMs : Nat) : (recoverOrWait pollIntervalMs).Every Request.calm := by
  have hif : ∀ (c : Prop) [Decidable c], (if c then recoverLock else ask (.sleep pollIntervalMs)).Every Request.calm := by
    intro c _
    split
    · exact every_recoverLock
    · exact every_ask (.sleep pollIntervalMs) trivial
  refine every_readLockOwner.andThen fun owner => ?_
  cases owner with
  | some owner => exact (every_processIdentityStatus owner).andThen fun _ => hif _
  | none => exact every_lockAge.andThen fun _ => hif _

/-! ### The program of a process -/

theorem amid_writeOwner (pid : Nat) {w : World} (hw : Uses i w) :
    Amid (Acts i op) Sound (Does i) (Others i) (writeOwner pid)
      (fun r w => match r with
        | .ok _ => Uses i w
        | .error _ => True) w := by
  have hwrite : (Program.tryFinally (do
      let identity ← currentProcessIdentity pid
      ask (.writeFile identity)) (ask .close)).Every Request.calm :=
    ((every_currentProcessIdentity pid).andThen fun identity => every_ask (.writeFile identity) trivial).andFinally
      (every_ask .close trivial)
  refine Amid.orElse (P := fun _ => Uses i) (fun _ _ h => h) (fun failure w hw => ?_) (amid_calm_uses hwrite hw)
  refine Amid.andThen (P := fun _ _ => True) (fun _ _ _ => amid_throw stable_true trivial fun _ _ => trivial)
    (fun _ _ _ => trivial) ?_
  refine amid_effect stable_uses hw fun w₁ answer w₂ hw₁ hI hacts => ?_
  obtain ⟨hsound, hdoes⟩ := keeps_of_acts hI hacts (.inr (.inr hw₁))
  refine ⟨hsound, hdoes, ?_⟩
  cases answer with
  | ok => exact fun _ _ => trivial
  | error => exact fun _ _ => trivial

theorem amid_openLock (w : World) :
    Amid (Acts i op) Sound (Does i) (Others i) openLock (fun r w => r = .ok true → Uses i w) w := by
  have hopen : Amid (Acts i op) Sound (Does i) (Others i) (ask .open) (fun r w => r.isOk = true → Uses i w) w := by
    refine amid_effect stable_true trivial fun w₁ answer w₂ _ hI hacts => ?_
    obtain ⟨hsound, hdoes⟩ := keeps_of_acts hI hacts (.inr (.inl rfl))
    obtain ⟨-, choice, hperform⟩ := hacts
    refine ⟨hsound, hdoes, ?_⟩
    cases answer with
    | ok value => exact amid_pure stable_uses (users_open hperform) fun _ hw _ => hw
    | error failure => exact fun _ _ hok => nomatch hok
  refine Amid.orElse (P := fun r w => r.isOk = true → Uses i w) (fun value w h _ => h rfl) (fun failure w _ => ?_) ?_
  · split
    · exact fun _ _ hok => nomatch hok
    · exact fun _ _ hok => nomatch hok
  · refine hopen.andThen (fun value w h => ?_) fun _ _ _ hok => nomatch hok
    exact amid_pure stable_uses (h rfl) fun _ hw _ => hw

/-- Where the lock was acquired the call uses it. -/
def Acquired (i : Nat) (r : Except Failure Unit) (w : World) : Prop := r.isOk = true → Uses i w

theorem amid_attempts (pid deadline pollIntervalMs : Nat) : ∀ (rounds : Nat) (w : World),
    Amid (Acts i op) Sound (Does i) (Others i) (attempts pid deadline pollIntervalMs rounds) (Acquired i) w
  | 0, _ => fun _ _ hok => nomatch hok
  | rounds + 1, w => by
    refine Amid.andThen (P := fun _ _ => True) (fun now w _ => ?_) (fun _ _ _ hok => nomatch hok)
      (amid_calm (every_ask .now trivial) w)
    split
    · refine (amid_openLock w).andThen (fun acquired w h => ?_) fun _ _ _ hok => nomatch hok
      cases acquired with
      | true =>
        refine (amid_writeOwner pid (h rfl)).mono fun r w hr hok => ?_
        cases r with
        | ok => exact hr
        | error => cases hok
      | false =>
        refine (amid_calm (every_recoverOrWait pollIntervalMs) w).andThen (fun _ w _ => ?_) fun _ _ _ hok => nomatch hok
        exact amid_attempts pid deadline pollIntervalMs rounds w
    · exact fun _ _ hok => nomatch hok

theorem amid_useLock (pid timeoutMs pollIntervalMs rounds : Nat) (w : World) :
    Amid (Acts i op) Sound (Does i) (Others i) (useLock pid timeoutMs pollIntervalMs rounds) (fun _ _ => True) w := by
  have hacquire : Amid (Acts i op) Sound (Does i) (Others i) (acquireProcessLock pid timeoutMs pollIntervalMs rounds)
      (Acquired i) w :=
    (amid_calm (every_ask .now trivial) w).andThen (fun _ w _ => amid_attempts pid _ pollIntervalMs rounds w)
      fun _ _ _ hok => nomatch hok
  refine hacquire.andThen (fun _ w hw => ?_) fun _ _ _ => trivial
  refine amid_effect stable_uses (hw rfl) fun w₁ answer w₂ hw₁ hI hacts => ?_
  obtain ⟨hsound, hdoes⟩ := keeps_of_acts hI hacts (.inr (.inr hw₁))
  refine ⟨hsound, hdoes, ?_⟩
  cases answer with
  | error => exact fun _ _ => trivial
  | ok =>
    obtain ⟨-, choice, hperform⟩ := hacts
    have hw₂ : Uses i w₂ := by
      rw [Uses, users_perform (.inr rfl) hperform]
      exact hw₁
    refine amid_effect stable_uses hw₂ fun w₃ answer w₄ hw₃ hI hacts => ?_
    obtain ⟨hsound, hdoes⟩ := keeps_of_acts hI hacts (.inr (.inr hw₃))
    refine ⟨hsound, hdoes, ?_⟩
    cases answer with
    | ok => exact fun _ _ => trivial
    | error => exact fun _ _ => trivial

end

/-! ## All calls together -/

theorem keeps : system.Keeps careful Sound Does (fun _ _ => True) fun _ _ _ _ => True where
  idle _ _ _ _ _ := trivial
  begins i op w _ h _ := by
    refine ⟨⟨h.exclusive, h.dated⟩, .stayed, ?_⟩
    cases op with
    | lock identity timeoutMs pollIntervalMs rounds => exact amid_useLock _ _ _ _ _
    | other identity => exact fun _ _ => trivial
  crashes i w h _ := ⟨⟨LockPath.Step.left.exclusive (i := i) h.exclusive, h.dated⟩, .left⟩

/-- The states of the runs whose steps are permitted. -/
def Reached (permits : Concurrent.Permits World Request Answer Operation) (s : State) : Prop :=
  ∃ s₀, Initial s₀ ∧ ReflTransGen (system.Moves permits fun _ _ => True) s₀ s

variable {s : State}

theorem Initial.sound (h : Initial s) : Sound s.world where
  exclusive := .of_no_users (by simp [h.users]) h.trespassed
  dated e he := (h.dated e he).2

theorem Reached.sound (h : Reached careful s) :
    system.Sound careful Sound Does (fun _ _ => True) (fun _ _ _ _ => True) s := by
  obtain ⟨s₀, hinitial, hs⟩ := h
  refine Concurrent.Sound.steps keeps ⟨hinitial.sound, fun i op p hcall => ?_, fun _ _ => trivial⟩ hs
  rw [hinitial.calls] at hcall
  cases hcall

/-- A call that holds the lock uses what is at its path: it is about to rely on that. -/
theorem Reached.uses {s : State} (h : Reached careful s) {i : Nat} (hi : Holds s i) : s.world.path.createdBy i = true := by
  obtain ⟨op, p, hcall, hinside⟩ := hi
  have hamid := h.sound.running i op p hcall
  have hneeds : ∀ (request : Request) (next : Answer request → Action Unit), p = .perform request next →
      (perform ⟨0, false, false⟩ i request s.world).2.path.trespassed = !s.world.path.createdBy i →
        (request = .rename → False) → s.world.path.createdBy i = true := by
    intro request next hp htrespassed hrename
    subst hp
    have hnext := (hamid _ .refl h.sound.world _ _ ⟨fun heq => (hrename heq).elim, ⟨0, false, false⟩, rfl⟩).1
    have hclean := htrespassed.symm.trans hnext.exclusive.trespassed
    simpa using hclean
  have hunused : s.world.path.trespassed = false := h.sound.world.exclusive.trespassed
  cases p with
  | done => cases hinside
  | fail => cases hinside
  | perform request next =>
    cases request with
    | operation =>
      refine hneeds _ next rfl ?_ (by simp)
      simp [perform, World.later, World.onPath, LockPath.use, LockPath.createdBy, hunused]
    | release =>
      refine hneeds _ next rfl ?_ (by simp)
      simp [perform, World.later, World.onPath, LockPath.use, LockPath.remove, LockPath.leave, LockPath.createdBy, hunused]
    | _ => cases hinside

/-! ## A call that runs alone -/

/-- No time passes but what the call sleeps, and nothing fails, unless it would move aside what is in use. -/
def alone (i : Nat) (request : Request) (w : World) : Answer request × World :=
  perform ⟨0, request = .rename && !w.path.users.isEmpty, false⟩ i request w

theorem free_of_no_users {p : LockPath LockFile} (h : p.users = []) : p.Free := fun _ _ i _ => by simp [h]

theorem acts_alone (i : Nat) (op : Operation) (request : Request) (w : World) :
    Acts i op request w (alone i request w).1 (alone i request w).2 := by
  refine ⟨fun hrename hok => ?_, _, rfl⟩
  subst hrename
  by_cases husers : w.path.users = []
  · exact free_of_no_users husers
  · simp [alone, perform, husers, Request.mayFail, Except.isOk, Except.toBool] at hok

section

variable {i : Nat} {w : World} {e : LockPath.Entry LockFile} {pid deadline pollIntervalMs : Nat}

theorem exec_ask (request : Request) (w : World) : (ask request).exec (alone i) w = alone i request w := by
  simp only [ask, call, Program.effect, Program.bind, Program.exec]
  generalize alone i request w = done
  rcases done with ⟨failure | value, w'⟩ <;> rfl

theorem exec_readLockOwner (hentry : w.path.entry = some e) :
    readLockOwner.exec (alone i) w = (.ok e.content.owner, w) := by
  have hstat : alone i .stat w = (.ok ⟨e.content.directory, e.content.mtimeNs⟩, w) := by
    simp [alone, perform, World.later, hentry]
  have hread : alone i (.readFile e.content.directory) w = (.ok e.content.owner, w) := by
    simp [alone, perform, World.later, hentry]
  rw [readLockOwner, exec_tryCatch, exec_bind, exec_ask, hstat]
  dsimp only
  rw [exec_ask, hread]

/-- Nobody lives under that PID. -/
def Dead (processes : Nat → Option ProcessSnapshot) (identity : ProcessIdentity) : Prop :=
  ∀ snapshot, processes identity.pid = some snapshot → snapshot.state = "Z"

theorem exec_processIdentityStatus {identity : ProcessIdentity} (hdead : Dead w.processes identity) :
    (processIdentityStatus identity).exec (alone i) w = (.ok .dead, w) := by
  rw [processIdentityStatus, exec_bind, processSnapshot, exec_ask]
  cases hprocess : w.processes identity.pid with
  | none =>
    have hread : alone i (.readProcess identity.pid) w = (.ok none, w) := by
      simp [alone, perform, World.later, hprocess]
    rw [hread]
    rfl
  | some snapshot =>
    have hread : alone i (.readProcess identity.pid) w = (.ok (some snapshot), w) := by
      simp [alone, perform, World.later, hprocess]
    rw [hread]
    dsimp only
    rw [if_pos (hdead snapshot hprocess)]
    rfl

theorem exec_recoverLock (hentry : w.path.entry = some e) (husers : w.path.users = []) :
    recoverLock.exec (alone i) w = (.ok (), w.onPath .remove) := by
  have hrename : alone i .rename w = (.ok (), w.onPath .remove) := by
    simp [alone, perform, World.later, hentry, husers]
  rw [recoverLock, exec_tryCatch, exec_bind, exec_ask, hrename]
  rfl

theorem exec_lockAge (hentry : w.path.entry = some e) :
    lockAge.exec (alone i) w = (.ok (w.clock / nanoseconds * nanoseconds - e.content.mtimeNs), w) := by
  have hnow : alone i .now w = (.ok (w.clock / nanoseconds), w) := rfl
  have hstat : alone i .stat w = (.ok ⟨e.content.directory, e.content.mtimeNs⟩, w) := by
    simp [alone, perform, World.later, hentry]
  rw [lockAge, exec_tryCatch, exec_bind, exec_ask, hnow]
  dsimp only
  rw [exec_bind, exec_ask, hstat]
  rfl

theorem exec_openLock_some (hentry : w.path.entry = some e) : openLock.exec (alone i) w = (.ok false, w) := by
  have hopen : alone i .open w = (.error .eexist, w) := by
    simp [alone, perform, World.later, hentry]
  rw [openLock, exec_tryCatch, exec_bind, exec_ask, hopen]
  rfl

theorem exec_openLock_none (hentry : w.path.entry = none) :
    openLock.exec (alone i) w = (.ok true, w.onPath (.create i ⟨false, none, w.clock⟩)) := by
  have hopen : alone i .open w = (.ok (), w.onPath (.create i ⟨false, none, w.clock⟩)) := by
    simp [alone, perform, World.later, hentry]
  rw [openLock, exec_tryCatch, exec_bind, exec_ask, hopen]
  rfl

variable {snapshot : ProcessSnapshot}

theorem exec_writeOwner (hprocess : w.processes pid = some snapshot) :
    (writeOwner pid).exec (alone i) w = (.ok (), w.onPath (written i ⟨pid, snapshot.startTime⟩ w.clock)) := by
  have hread : alone i (.readProcess pid) w = (.ok (some snapshot), w) := by
    simp [alone, perform, World.later, hprocess]
  have hwrite : (do
      let identity ← currentProcessIdentity pid
      ask (.writeFile identity)).exec (alone i) w = (.ok (), w.onPath (written i ⟨pid, snapshot.startTime⟩ w.clock)) := by
    rw [exec_bind, currentProcessIdentity, exec_bind, processSnapshot, exec_ask, hread]
    rfl
  rw [writeOwner, exec_tryCatch, exec_tryFinally, hwrite]
  rfl

theorem exec_attempts_free (hentry : w.path.entry = none)
    (hprocess : w.processes pid = some snapshot) (hclock : w.clock / nanoseconds < deadline) (rounds : Nat) :
    ∃ w', (attempts pid deadline pollIntervalMs (rounds + 1)).exec (alone i) w = (.ok (), w') := by
  have hnow : alone i .now w = (.ok (w.clock / nanoseconds), w) := rfl
  refine ⟨(w.onPath (.create i ⟨false, none, w.clock⟩)).onPath (written i ⟨pid, snapshot.startTime⟩ w.clock), ?_⟩
  rw [attempts, exec_bind, exec_ask, hnow]
  dsimp only
  rw [if_pos hclock, exec_bind, exec_openLock_none hentry]
  dsimp only
  rw [if_pos rfl]
  exact exec_writeOwner (w := w.onPath _) hprocess

/-- A round that finds the lock of another. -/
theorem exec_attempts_some (hentry : w.path.entry = some e) (hclock : w.clock / nanoseconds < deadline) {rounds : Nat}
    {w' : World} (hrecover : (recoverOrWait pollIntervalMs).exec (alone i) w = (.ok (), w')) :
    (attempts pid deadline pollIntervalMs (rounds + 1)).exec (alone i) w =
      (attempts pid deadline pollIntervalMs rounds).exec (alone i) w' := by
  have hnow : alone i .now w = (.ok (w.clock / nanoseconds), w) := rfl
  rw [attempts, exec_bind, exec_ask, hnow]
  dsimp only
  rw [if_pos hclock, exec_bind, exec_openLock_some hentry]
  dsimp only
  rw [if_neg Bool.false_ne_true, exec_bind, hrecover]

theorem exec_recoverOrWait_owner {owner : ProcessIdentity} (hentry : w.path.entry = some e) (husers : w.path.users = [])
    (howner : e.content.owner = some owner) (hdead : Dead w.processes owner) :
    (recoverOrWait pollIntervalMs).exec (alone i) w = (.ok (), w.onPath .remove) := by
  rw [recoverOrWait, exec_bind, exec_readLockOwner hentry, howner]
  dsimp only
  rw [exec_bind, exec_processIdentityStatus hdead]
  dsimp only
  rw [if_pos rfl, exec_recoverLock hentry husers]

theorem exec_recoverOrWait_old (hentry : w.path.entry = some e) (husers : w.path.users = [])
    (howner : e.content.owner = none) (hage : ownerlessLockGraceMs * nanoseconds ≤
      w.clock / nanoseconds * nanoseconds - e.content.mtimeNs) :
    (recoverOrWait pollIntervalMs).exec (alone i) w = (.ok (), w.onPath .remove) := by
  rw [recoverOrWait, exec_bind, exec_readLockOwner hentry, howner]
  dsimp only
  rw [exec_bind, exec_lockAge hentry]
  dsimp only
  rw [if_pos hage, exec_recoverLock hentry husers]

theorem exec_recoverOrWait_young (hentry : w.path.entry = some e) (howner : e.content.owner = none)
    (hage : ¬ ownerlessLockGraceMs * nanoseconds ≤ w.clock / nanoseconds * nanoseconds - e.content.mtimeNs) :
    (recoverOrWait pollIntervalMs).exec (alone i) w = (.ok (), w.later (nanoseconds * pollIntervalMs)) := by
  rw [recoverOrWait, exec_bind, exec_readLockOwner hentry, howner]
  dsimp only
  rw [exec_bind, exec_lockAge hentry]
  dsimp only
  rw [if_neg hage, exec_ask]
  rfl

theorem milliseconds_later (milliseconds : Nat) (w : World) :
    (w.later (nanoseconds * milliseconds)).clock / nanoseconds = w.clock / nanoseconds + milliseconds :=
  Nat.add_mul_div_left _ _ (by decide)

theorem milliseconds_of_young {now grace mtimeNs : Nat} (h : ¬ grace * nanoseconds ≤ now * nanoseconds - mtimeNs) :
    now ≤ mtimeNs / nanoseconds + grace := by
  unfold nanoseconds at *
  omega

/-- A lock whose owner is dead, or that names none, is acquired: `n` sleeps are enough for its grace to be over. -/
theorem exec_attempts (hpoll : 0 < pollIntervalMs) : ∀ (n : Nat) {w : World} {rounds : Nat},
    w.path.entry = some e → w.path.users = [] → w.processes pid = some snapshot →
    (∀ owner, e.content.owner = some owner → Dead w.processes owner) →
    ownerlessLockGraceMs * nanoseconds + e.content.mtimeNs ≤ (w.clock / nanoseconds + n) * nanoseconds →
    w.clock / nanoseconds < deadline →
    e.content.mtimeNs / nanoseconds + ownerlessLockGraceMs + pollIntervalMs < deadline → n + 2 ≤ rounds →
    ∃ w', (attempts pid deadline pollIntervalMs rounds).exec (alone i) w = (.ok (), w') := by
  have hrecovered : ∀ {w : World} {rounds : Nat}, w.path.entry = some e → w.processes pid = some snapshot →
      w.clock / nanoseconds < deadline → (recoverOrWait pollIntervalMs).exec (alone i) w = (.ok (), w.onPath .remove) →
        2 ≤ rounds →
      ∃ w', (attempts pid deadline pollIntervalMs rounds).exec (alone i) w = (.ok (), w') := by
    intro w rounds hentry hprocess hclock hrecover hrounds
    obtain ⟨rounds, rfl⟩ : ∃ m, rounds = m + 2 := ⟨rounds - 2, by omega⟩
    rw [exec_attempts_some hentry hclock hrecover]
    exact exec_attempts_free (w := w.onPath .remove) rfl hprocess hclock rounds
  intro n
  induction n with
  | zero =>
    intro w rounds hentry husers hprocess hdead hage hclock _ hrounds
    rw [Nat.add_zero] at hage
    refine hrecovered hentry hprocess hclock ?_ (by omega)
    cases howner : e.content.owner with
    | some owner => exact exec_recoverOrWait_owner hentry husers howner (hdead owner howner)
    | none => exact exec_recoverOrWait_old hentry husers howner (Nat.le_sub_of_add_le hage)
  | succ n ih =>
    intro w rounds hentry husers hprocess hdead hage hclock hdeadline hrounds
    cases howner : e.content.owner with
    | some owner =>
      refine hrecovered hentry hprocess hclock ?_ (by omega)
      exact exec_recoverOrWait_owner hentry husers howner (hdead owner howner)
    | none =>
      by_cases hold : ownerlessLockGraceMs * nanoseconds ≤ w.clock / nanoseconds * nanoseconds - e.content.mtimeNs
      · exact hrecovered hentry hprocess hclock (exec_recoverOrWait_old hentry husers howner hold) (by omega)
      · obtain ⟨rounds, rfl⟩ : ∃ m, rounds = m + 1 := ⟨rounds - 1, by omega⟩
        rw [exec_attempts_some hentry hclock (exec_recoverOrWait_young hentry howner hold)]
        refine ih (w := w.later (nanoseconds * pollIntervalMs)) hentry husers hprocess hdead ?_ ?_ hdeadline (by omega)
        · rw [milliseconds_later]
          exact hage.trans (Nat.mul_le_mul_right _ (by omega))
        · rw [milliseconds_later]
          have hyoung := milliseconds_of_young hold
          omega

end

/-! ## The lock -/

/-- The owner of the lock has died, or never wrote its name: its call uses the lock no more, and its PID is not that of
a live process, or of the one that is to begin. -/
def Abandoned (identity : ProcessIdentity) (w : World) : Prop :=
  w.path.Free ∧ ∀ e owner, w.path.entry = some e → e.content.owner = some owner →
    owner.pid ≠ identity.pid ∧ Dead w.processes owner

theorem exec_acquireProcessLock {i : Nat} {w : World} {op : Operation} {timeoutMs pollIntervalMs rounds : Nat}
    (h : Sound w) (habandoned : Abandoned op.identity w) (hpoll : 0 < pollIntervalMs)
    (htimeout : ownerlessLockGraceMs + pollIntervalMs < timeoutMs) (hrounds : ownerlessLockGraceMs + 3 ≤ rounds) :
    ∃ w', (acquireProcessLock op.identity.pid timeoutMs pollIntervalMs rounds).exec (alone i) (begins op w) =
      (.ok (), w') := by
  have hnow : alone i .now (begins op w) = (.ok (w.clock / nanoseconds), begins op w) := rfl
  have husers : w.path.users = [] := List.eq_nil_iff_forall_not_mem.mpr (h.exclusive.users_of_free habandoned.1)
  have hprocess : (begins op w).processes op.identity.pid = some ⟨"S", op.identity.startTime⟩ := if_pos rfl
  rw [acquireProcessLock, exec_bind, exec_ask, hnow]
  dsimp only
  cases hentry : w.path.entry with
  | none =>
    obtain ⟨rounds, rfl⟩ : ∃ m, rounds = m + 1 := ⟨rounds - 1, by omega⟩
    exact exec_attempts_free (w := begins op w) hentry hprocess (Nat.lt_add_of_pos_right (by omega)) rounds
  | some e =>
    have hdated : e.content.mtimeNs ≤ w.clock := h.dated e hentry
    -- The millisecond of the file may have begun before the file: its grace is over one millisecond later at most.
    refine exec_attempts hpoll (ownerlessLockGraceMs + 1) (w := begins op w) hentry husers hprocess (fun owner howner => ?_)
      ?_ (Nat.lt_add_of_pos_right (by omega)) ?_ hrounds
    · obtain ⟨hpid, hdead⟩ := habandoned.2 e owner hentry howner
      intro snapshot hsnapshot
      have hother : (begins op w).processes owner.pid = w.processes owner.pid := if_neg hpid
      exact hdead snapshot (hother.symm.trans hsnapshot)
    · calc ownerlessLockGraceMs * nanoseconds + e.content.mtimeNs
          ≤ ownerlessLockGraceMs * nanoseconds + (w.clock / nanoseconds * nanoseconds + nanoseconds) :=
            Nat.add_le_add_left (hdated.trans (Nat.lt_div_mul_add (by decide)).le) _
        _ = (w.clock / nanoseconds + (ownerlessLockGraceMs + 1)) * nanoseconds := by ring
    · have hbegan := Nat.div_le_div_right (c := nanoseconds) hdated
      omega

/-- In every run in which no recovery moves aside a file that a live call uses, at most one call is between its acquire
and its release; and once the owner has died, and its PID is not in use again, a process that comes acquires the
lock. -/
theorem lock_exclusive_and_recovers {s : State} (h : Reached careful s) :
    (∀ i j, Holds s i → Holds s j → i = j) ∧
    ∀ identity timeoutMs pollIntervalMs rounds, Abandoned identity s.world → 0 < pollIntervalMs →
      ownerlessLockGraceMs + pollIntervalMs < timeoutMs → ownerlessLockGraceMs + 3 ≤ rounds →
        ∃ w p, ReflTransGen (system.Moves careful fun _ _ => True) s
          ⟨w, s.calls ++ [⟨.lock identity timeoutMs pollIntervalMs rounds, some p⟩]⟩ ∧ inside p = true := by
  refine ⟨fun i j hi hj => LockPath.createdBy_unique (h.uses hi) (h.uses hj), ?_⟩
  intro identity timeoutMs pollIntervalMs rounds habandoned hpoll htimeout hrounds
  let op : Operation := .lock identity timeoutMs pollIntervalMs rounds
  obtain ⟨w, hexec⟩ : ∃ w, (acquireProcessLock op.identity.pid timeoutMs pollIntervalMs rounds).exec
      (alone s.calls.length) (begins op s.world) = (.ok (), w) :=
    exec_acquireProcessLock h.sound.world habandoned hpoll htimeout hrounds
  have hacquired : Reaches (Acts s.calls.length op) (acquireProcessLock identity.pid timeoutMs pollIntervalMs rounds)
      (begins op s.world) (pure ()) w := by
    have hreaches := reaches_exec (acts_alone s.calls.length op)
      (acquireProcessLock identity.pid timeoutMs pollIntervalMs rounds) (begins op s.world)
    rwa [show acquireProcessLock identity.pid timeoutMs pollIntervalMs rounds =
      acquireProcessLock op.identity.pid timeoutMs pollIntervalMs rounds from rfl, hexec] at hreaches
  have hbegan : Concurrent.Step system careful s.calls.length s
      ⟨begins op s.world, s.calls ++ [⟨op, some (useLock identity.pid timeoutMs pollIntervalMs rounds)⟩]⟩ :=
    .began trivial
  have hgoes := Concurrent.moves_of_reaches (M := system) (hacquired.andThen (f := fun _ => do
    ask .operation
    ask .release) .here) (List.getElem?_concat_length (l := s.calls))
  rw [List.set_append_right _ _ (le_refl _), Nat.sub_self, List.set_cons_zero] at hgoes
  exact ⟨w, _, .head ⟨⟨_, hbegan⟩, trivial⟩ hgoes, rfl⟩

namespace Sample

abbrev Event := Concurrent.Event Choice Operation

/-- A process begins to acquire the lock. -/
def process (pid : Nat) (startTime : String) : Event := .begins (.lock ⟨pid, startTime⟩ 5000 25 103)

/-- A call goes on for a number of requests. -/
def goes (call requests : Nat) : List Event := List.replicate requests (.performs call ⟨0, false, false⟩)

def start : State := ⟨⟨⟨none, [], false⟩, fun _ => none, [], 0⟩, []⟩

theorem initial_start : Initial start := ⟨rfl, rfl, rfl, rfl, nofun⟩

def follow (effects : Operation → (request : Request) → World → Answer request → Bool) (events : List Event) :
    Option State :=
  Concurrent.followAll (fun choice i request w => some (perform choice i request w)) effects system events start

theorem reached_of_follow {permits : Concurrent.Permits World Request Answer Operation}
    {effects : Operation → (request : Request) → World → Answer request → Bool} {events : List Event} {s : State}
    (heffects : ∀ op request w answer, effects op request w answer = true → permits.effect op request w answer)
    (hbegins : ∀ op, permits.begins op) (hcrashes : ∀ i w, permits.crash i w) (h : follow effects events = some s) :
    Reached permits s :=
  ⟨start, initial_start, Concurrent.moves_of_followAll (fun choice _ _ _ _ _ hp => ⟨choice, Option.some.inj hp⟩) heffects
    (fun op _ => hbegins op) (fun i w _ => hcrashes i w) h⟩

/-- A process that crashes once it has written its name. -/
def dies : List Event := process 1 "1" :: goes 0 5 ++ [.crashes 0]

def abandoned : State := (follow (fun _ request _ _ => request ≠ .rename) dies).getD start

theorem reached_abandoned : Reached careful abandoned := by
  refine reached_of_follow (fun _ request w answer hne hrename => ?_) (fun _ => trivial) (fun _ _ => trivial)
    (Option.getD_of_ne_none (Option.isSome_iff_ne_none.mp rfl) start).symm
  exact absurd hrename (of_decide_eq_true hne)

end Sample

theorem lock_exclusive_and_recovers_sample : Sample.abandoned.world.path.entry.isSome = true ∧
    (∀ i j, Holds Sample.abandoned i → Holds Sample.abandoned j → i = j) ∧
    ∃ w p, ReflTransGen (system.Moves careful fun _ _ => True) Sample.abandoned
      ⟨w, Sample.abandoned.calls ++ [⟨.lock ⟨2, "2"⟩ 5000 25 103, some p⟩]⟩ ∧ inside p = true := by
  obtain ⟨hone, hrecovers⟩ := lock_exclusive_and_recovers Sample.reached_abandoned
  refine ⟨rfl, hone, hrecovers ⟨2, "2"⟩ 5000 25 103 ⟨?_, ?_⟩ (by decide) (by decide) (by decide)⟩
  · exact free_of_no_users rfl
  · intro e owner he howner
    obtain rfl : e = ⟨some 0, ⟨false, some ⟨1, "1"⟩, 0⟩⟩ := Option.some.inj (he.symm.trans rfl)
    obtain rfl : owner = ⟨1, "1"⟩ := Option.some.inj (howner.symm.trans rfl)
    exact ⟨by decide, nofun⟩

/-- Two processes find the same dead owner. The first moves its file aside and creates its own, the second then moves
aside that one and creates another. -/
theorem recovery_takes_live_lock : ¬ ∀ s, Reached .all s → ∀ i j, Holds s i → Holds s j → i = j := by
  intro hall
  have hrun : (Sample.follow (fun _ _ _ _ => true) (Sample.dies ++ Sample.process 2 "2" :: Sample.process 3 "3" ::
      Sample.goes 1 6 ++ Sample.goes 2 6 ++ Sample.goes 1 7 ++ Sample.goes 2 7)).map
        (fun s => s.calls.map fun c => c.rest.map inside) = some [none, some true, some true] := rfl
  obtain ⟨s, hs, hcalls⟩ := Option.map_eq_some_iff.mp hrun
  have hreached : Reached .all s :=
    Sample.reached_of_follow (fun _ _ _ _ _ => trivial) (fun _ => trivial) (fun _ _ => trivial) hs
  have hholds : ∀ i : Nat, [none, some true, some true][i]? = some (some true) → Holds s i := by
    intro i hi
    rw [← hcalls, List.getElem?_map] at hi
    obtain ⟨⟨op, rest⟩, hcall, hrest⟩ := Option.map_eq_some_iff.mp hi
    obtain ⟨p, rfl, hp⟩ := Option.map_eq_some_iff.mp hrest
    exact ⟨op, p, hcall, hp⟩
  exact absurd (hall s hreached 1 2 (hholds 1 rfl) (hholds 2 rfl)) (by decide)

end Dim.Controller.ProcessLock
