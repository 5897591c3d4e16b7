/-
What the lock of a development service promises. While no clean-up removes a directory whose creator still uses it, the
lock is still there whenever a process that has found it looks at it, and a directory is empty when it is removed, at
most one live process runs the locked operation, and no attempt fails because another has released the lock, cleaned it
up or made it again. The code sees to none of this: it removes by path what it has found inactive before, and takes an
`ENOENT` or an `ENOTEMPTY` for an error.
-/
import DimProofs.Controller.ServiceLock

namespace Dim.Controller.ServiceLock

open Effectful Relation

/-! ## One step -/

/-- The runs in which nothing is cleaned up that a live call uses, nothing has gone when it is looked at, and no
directory has an owner again when it is removed. -/
def careful : Concurrent.Permits World Request Answer Operation where
  begins _ := True
  effect _ request w _ := match request with
    | .removeOwner true => w.path.Free
    | .removeDirectory stale => (stale = true → w.path.Free) ∧ w.owner = none
    | .lstat => w.path.entry ≠ none
    | _ => True
  crash _ _ := True

def Sound (w : World) : Prop := w.path.Exclusive

def Does (i : Nat) (w w' : World) : Prop := LockPath.Step i w.path w'.path

/-- The requests that only look, wait, or clean up what is free. -/
def Request.calm : Request → Prop
  | .now | .readProcess _ | .close | .lstat | .lstatOwner | .readOwner | .sleep _ | .removeOwner true
  | .removeDirectory true => True
  | _ => False

section

variable {w w' : World} {i : Nat} {op : Operation} {request : Request}

theorem step_failed (huses : request.calm ∨ request = .mkdir ∨ i ∈ w.path.users) :
    LockPath.Step i w.path (w.failed i request).path := by
  cases request with
  | operation => exact .used (by simpa [Request.calm] using huses)
  | createOwner | writeOwner => exact .left
  | removeOwner stale | removeDirectory stale =>
    cases stale with
    | true => exact .stayed
    | false => exact .left
  | _ => exact .stayed

variable {a : Answer request}

theorem step_answer {reaped : Bool} (hcareful : careful.effect op request w a)
    (huses : request.calm ∨ request = .mkdir ∨ i ∈ w.path.users) :
    LockPath.Step i w.path (answer i reaped request w).2.path := by
  have rewrites : ∀ f, (i ∈ w.path.users ∨ w.path.Free) → LockPath.Step i w.path (w.onPath (.rewrite f)).path :=
    fun f h => .rewrote f h
  cases request with
  | mkdir =>
    simp only [answer]
    split
    · exact .stayed
    · rename_i hentry
      exact .created _ hentry
  | createOwner =>
    have hi : i ∈ w.path.users := by simpa [Request.calm] using huses
    simp only [answer]
    split
    · exact .left
    · split
      · exact .left
      · exact rewrites _ (.inl hi)
  | writeOwner identity => exact rewrites _ (.inl (by simpa [Request.calm] using huses))
  | removeOwner stale =>
    cases stale with
    | true => exact rewrites _ (.inr hcareful)
    | false => exact rewrites _ (.inl (by simpa [Request.calm] using huses))
  | removeDirectory stale =>
    simp only [answer, hcareful.2]
    cases stale with
    | true => exact .cleared (hcareful.1 rfl)
    | false => exact .removed (by simpa [Request.calm] using huses)
  | operation => exact .used (by simpa [Request.calm] using huses)
  | readProcess pid =>
    simp only [answer]
    split
    · exact .stayed
    · split <;> exact .stayed
  | lstat | lstatOwner | readOwner =>
    simp only [answer]
    split <;> exact .stayed
  | now | close | sleep => exact .stayed

variable {choice : Choice}

/-- Every request does to the path what a call may do to it. -/
theorem perform_keeps (h : Sound w)
    (hperform : perform choice i request w = (a, w')) (hcareful : careful.effect op request w a)
    (huses : request.calm ∨ request = .mkdir ∨ i ∈ w.path.users) :
    Sound w' ∧ Does i w w' := by
  have hstep : Does i w w' := by
    simp only [perform] at hperform
    split at hperform
    · obtain ⟨-, rfl⟩ := Prod.mk.inj hperform
      exact step_failed (w := w.later choice.elapsed) huses
    · obtain rfl : (answer i choice.reaped request (w.later choice.elapsed)).2 = w' := congrArg Prod.snd hperform
      have hlater : careful.effect op request (w.later choice.elapsed) a := hcareful
      exact step_answer hlater huses
  exact ⟨hstep.exclusive h, hstep⟩

/-- Who uses the lock is the same after a request that is calm, or has succeeded and does not begin or end its use. -/
theorem users_perform (hperform : perform choice i request w = (a, w'))
    (hsame : request.calm ∨ request = .operation ∨ (a.isOk = true ∧ request ≠ .mkdir ∧ request ≠ .removeDirectory false)) :
    w'.path.users = w.path.users := by
  simp only [perform] at hperform
  split at hperform
  · obtain ⟨rfl, rfl⟩ := Prod.mk.inj hperform
    cases request with
    | removeOwner stale | removeDirectory stale =>
      cases stale with
      | true => rfl
      | false => simp [Request.calm, Except.isOk, Except.toBool] at hsame
    | createOwner | writeOwner => simp [Request.calm, Except.isOk, Except.toBool] at hsame
    | _ => rfl
  · cases request with
    | mkdir => simp [Request.calm] at hsame
    | createOwner =>
      simp only [answer] at hperform
      split at hperform
      · obtain ⟨rfl, -⟩ := Prod.mk.inj hperform
        simp [Request.calm, Except.isOk, Except.toBool] at hsame
      · split at hperform
        · obtain ⟨rfl, -⟩ := Prod.mk.inj hperform
          simp [Request.calm, Except.isOk, Except.toBool] at hsame
        · obtain ⟨-, rfl⟩ := Prod.mk.inj hperform
          rfl
    | removeDirectory stale =>
      cases stale with
      | true =>
        simp only [answer] at hperform
        split at hperform <;> obtain ⟨-, rfl⟩ := Prod.mk.inj hperform <;> rfl
      | false => simp [Request.calm] at hsame
    | readProcess pid =>
      simp only [answer] at hperform
      split at hperform
      · obtain ⟨-, rfl⟩ := Prod.mk.inj hperform
        rfl
      · split at hperform <;> obtain ⟨-, rfl⟩ := Prod.mk.inj hperform <;> rfl
    | lstat | lstatOwner | readOwner =>
      simp only [answer] at hperform
      split at hperform <;> obtain ⟨-, rfl⟩ := Prod.mk.inj hperform <;> rfl
    | now | close | sleep | operation | removeOwner | writeOwner =>
      obtain ⟨-, rfl⟩ := Prod.mk.inj hperform
      rfl

theorem users_mkdir {value : Unit} (hperform : perform choice i .mkdir w = (.ok value, w')) :
    i ∈ w'.path.users := by
  simp only [perform] at hperform
  split at hperform
  · cases hperform
  · simp only [answer] at hperform
    split at hperform
    · cases hperform
    · obtain ⟨-, rfl⟩ := Prod.mk.inj hperform
      exact List.mem_cons_self

/-- A request fails as the lock is not there only where it looks at the lock, and as it is there again only where it
removes a directory. -/
theorem cleaned_perform {failure : Failure} (hperform : perform choice i request w = (.error failure, w'))
    (hcleaned : failure.isCleaned = true) :
    (failure.isEnoent = true ∧ (request = .lstatOwner ∨ request = .readOwner ∨
      ((request = .lstat ∨ request = .createOwner) ∧ w.path.entry = none))) ∨
    ∃ stale, request = .removeDirectory stale ∧ w.owner ≠ none := by
  simp only [perform] at hperform
  split at hperform
  · rename_i failure' hfails
    obtain ⟨⟨⟩, -⟩ := Prod.mk.inj hperform
    split at hfails
    · cases request <;> cases hfails <;> cases hcleaned
    · cases hfails
  · cases request with
    | readProcess pid =>
      simp only [answer] at hperform
      split at hperform
      · cases hperform
        cases hcleaned
      · split at hperform <;> cases hperform
        cases hcleaned
    | mkdir =>
      simp only [answer] at hperform
      split at hperform <;> cases hperform
      cases hcleaned
    | createOwner =>
      simp only [answer] at hperform
      split at hperform
      · rename_i hentry
        cases hperform
        exact .inl ⟨rfl, .inr (.inr ⟨.inr rfl, hentry⟩)⟩
      · split at hperform <;> cases hperform
        cases hcleaned
    | lstat =>
      simp only [answer] at hperform
      split at hperform <;> cases hperform
      rename_i hentry
      exact .inl ⟨rfl, .inr (.inr ⟨.inl rfl, hentry⟩)⟩
    | lstatOwner =>
      simp only [answer] at hperform
      split at hperform <;> cases hperform
      exact .inl ⟨rfl, .inl rfl⟩
    | readOwner =>
      simp only [answer] at hperform
      split at hperform <;> cases hperform
      exact .inl ⟨rfl, .inr (.inl rfl)⟩
    | removeDirectory stale =>
      simp only [answer] at hperform
      split at hperform <;> cases hperform
      rename_i file howner
      have howner : w.owner = some file := howner
      exact .inr ⟨stale, rfl, by simp [howner]⟩
    | _ => cases hperform

theorem clean_perform {failure : Failure} (hperform : perform choice i request w = (.error failure, w'))
    (hcareful : careful.effect op request w a) (hlooks : request ≠ .lstatOwner ∧ request ≠ .readOwner)
    (hcreate : request = .createOwner → w.path.entry ≠ none) : failure.isCleaned = false := by
  by_contra hcleaned
  obtain ⟨-, rfl | rfl | ⟨rfl | rfl, hentry⟩⟩ | ⟨stale, rfl, howner⟩ := cleaned_perform hperform (by simpa using hcleaned)
  · exact hlooks.1 rfl
  · exact hlooks.2 rfl
  · exact hcareful hentry
  · exact hcreate rfl hentry
  · exact howner hcareful.2

/-- No removal finds a directory with an owner. -/
theorem not_full_perform {failure : Failure} (hperform : perform choice i request w = (.error failure, w'))
    (hcareful : careful.effect op request w a) : failure ≠ .enotempty := by
  rintro rfl
  obtain ⟨h, -⟩ | ⟨stale, rfl, howner⟩ := cleaned_perform hperform rfl
  · cases h
  · exact howner hcareful.2

end

/-! ## One call among others -/

section

variable {i : Nat} {op : Operation}

def Uses (i : Nat) (w : World) : Prop := i ∈ w.path.users

abbrev Acts (i : Nat) (op : Operation) : (request : Request) → World → Answer request → World → Prop :=
  system.Allowed careful i op

abbrev Others (i : Nat) : World → World → Prop := Concurrent.Rely Sound Does i

theorem stable_uses : Stable (Others i) (Uses i) := by
  rintro w w' hw ⟨-, -, j, hj, hstep⟩
  exact (hstep.users hj.symm).mpr hw

theorem keeps_of_acts {request : Request} {w w' : World} {a : Answer request} (h : Sound w)
    (hacts : Acts i op request w a w') (huses : request.calm ∨ request = .mkdir ∨ Uses i w) : Sound w' ∧ Does i w w' := by
  obtain ⟨hcareful, choice, hperform⟩ := hacts
  exact perform_keeps h hperform hcareful huses

/-- No failure is that another process has released the lock or cleaned it up. -/
def Clean {α : Type} (r : Except Failure α) : Prop := ∀ failure, r = .error failure → failure.isCleaned = false

/-- No failure is that a directory is not empty. -/
def NotFull {α : Type} (r : Except Failure α) : Prop := ∀ failure, r = .error failure → failure ≠ .enotempty

/-- The call uses the lock, if it is one that does. -/
def Held (uses : Bool) (i : Nat) (w : World) : Prop := uses = true → Uses i w

theorem stable_held {uses : Bool} : Stable (Others i) (Held uses i) :=
  fun _ _ h hr husing => stable_uses _ _ (h husing) hr

/-- Where it goes well the call uses the lock, and it does not fail because the lock has gone. -/
def Keeping {α : Type} (i : Nat) (r : Except Failure α) (w : World) : Prop := (r.isOk = true → Uses i w) ∧ Clean r

theorem stable_keeping {α : Type} (r : Except Failure α) : Stable (Others i) (Keeping i r) :=
  fun _ _ h hr => ⟨fun hok => stable_uses _ _ (h.1 hok) hr, h.2⟩

theorem clean_ok {α : Type} (value : α) : Clean (.ok value : Except Failure α) := nofun

theorem notFull_ok {α : Type} (value : α) : NotFull (.ok value : Except Failure α) := nofun

variable {failure : Failure} {α : Type}

theorem clean_error (h : failure.isCleaned = false) : Clean (.error failure : Except Failure α) := by
  rintro _ ⟨⟩
  exact h

theorem notFull_error (h : failure ≠ .enotempty) : NotFull (.error failure : Except Failure α) := by
  rintro _ ⟨⟩
  exact h

theorem Clean.error {β : Type} (h : Clean (.error failure : Except Failure α)) :
    Clean (.error failure : Except Failure β) := clean_error (h failure rfl)

theorem NotFull.error {β : Type} (h : NotFull (.error failure : Except Failure α)) :
    NotFull (.error failure : Except Failure β) := notFull_error (h failure rfl)

theorem Clean.notFull {r : Except Failure α} (h : Clean r) : NotFull r := by
  rintro failure rfl rfl
  cases h _ rfl

theorem NotFull.clean (h : NotFull (.error failure : Except Failure α)) (hfailure : failure.isEnoent = false) :
    Clean (.error failure : Except Failure α) := by
  refine clean_error ?_
  cases failure with
  | enoent path => cases hfailure
  | enotempty => exact absurd rfl (h _ rfl)
  | _ => rfl

/-- A calm request, of a call that may use the lock. -/
theorem amid_look (request : Request) (hcalm : request.calm) {uses : Bool} {w : World} (hw : Held uses i w) :
    Amid (Acts i op) Sound (Does i) (Others i) (ask request) (fun r w => Held uses i w ∧ NotFull r) w := by
  refine amid_effect stable_held hw fun w₁ a w₂ hw₁ hI hacts => ?_
  obtain ⟨hsound, hdoes⟩ := keeps_of_acts hI hacts (.inl hcalm)
  obtain ⟨hcareful, choice, hperform⟩ := hacts
  have hw₂ : Held uses i w₂ := by
    rw [Held, Uses, users_perform hperform (.inl hcalm)]
    exact hw₁
  refine ⟨hsound, hdoes, ?_⟩
  cases a with
  | ok value => exact amid_pure stable_held hw₂ fun _ hw => ⟨hw, notFull_ok _⟩
  | error failure =>
    have hfull := not_full_perform hperform hcareful
    exact amid_throw stable_held hw₂ fun _ hw => ⟨hw, notFull_error hfull⟩

/-- A single calm request, which is careful to look only at what is there. -/
theorem amid_ask (request : Request) (hcalm : request.calm) (hlooks : request ≠ .lstatOwner ∧ request ≠ .readOwner)
    (w : World) : Amid (Acts i op) Sound (Does i) (Others i) (ask request) (fun r _ => Clean r) w := by
  refine amid_effect stable_true trivial fun w₁ a w₂ _ hI hacts => ?_
  obtain ⟨hsound, hdoes⟩ := keeps_of_acts hI hacts (.inl hcalm)
  obtain ⟨hcareful, choice, hperform⟩ := hacts
  refine ⟨hsound, hdoes, ?_⟩
  cases a with
  | ok value => exact fun _ _ => clean_ok _
  | error failure =>
    have hclean := clean_perform hperform hcareful hlooks (by rintro rfl; exact hcalm.elim)
    exact fun _ _ => clean_error hclean

/-- A request that needs the lock and leaves its call with it. -/
theorem amid_ask_uses (request : Request) (hlooks : request ≠ .lstatOwner ∧ request ≠ .readOwner)
    (hsame : request ≠ .mkdir ∧ request ≠ .removeDirectory false) {w : World} (hw : Uses i w) :
    Amid (Acts i op) Sound (Does i) (Others i) (ask request) (Keeping i) w := by
  refine amid_effect stable_uses hw fun w₁ a w₂ hw₁ hI hacts => ?_
  obtain ⟨hsound, hdoes⟩ := keeps_of_acts hI hacts (.inr (.inr hw₁))
  obtain ⟨hcareful, choice, hperform⟩ := hacts
  refine ⟨hsound, hdoes, ?_⟩
  cases a with
  | ok value =>
    have hw₂ : Uses i w₂ := by
      rw [Uses, users_perform hperform (.inr (.inr ⟨rfl, hsame⟩))]
      exact hw₁
    exact fun w' hr => ⟨fun _ => stable_uses.star hw₂ hr, clean_ok _⟩
  | error failure =>
    have hclean := clean_perform hperform hcareful hlooks fun _ hentry => hI.users_of_none hentry i hw₁
    exact fun w' hr => ⟨nofun, clean_error hclean⟩

theorem amid_processMatches (identity : ProcessIdentity) (w : World) :
    Amid (Acts i op) Sound (Does i) (Others i) (processMatches identity) (fun r _ => NotFull r) w := by
  refine Amid.orElse (P := fun r _ => NotFull r) (fun _ _ h => h) (fun failure w h => ?_) ?_
  · split
    · exact fun _ _ => notFull_ok _
    · exact fun _ _ => h
  · refine (amid_look (.readProcess identity.pid) trivial (show Held false i _ from nofun)).andThen (fun _ _ _ => ?_)
      fun _ _ h => h.2.error
    exact fun _ _ => notFull_ok _

theorem amid_readLockIdentity {uses : Bool} {w : World} (hw : Held uses i w) :
    Amid (Acts i op) Sound (Does i) (Others i) readLockIdentity (fun r w => Held uses i w ∧ NotFull r) w := by
  have hthrow : ∀ {w}, Held uses i w → Amid (Acts i op) Sound (Does i) (Others i)
      (throw .lockError : Action ProcessIdentity) (fun r w => Held uses i w ∧ NotFull r) w :=
    fun hw => amid_throw stable_held hw fun _ hw => ⟨hw, notFull_error nofun⟩
  refine (amid_look .lstatOwner trivial hw).andThen (fun regular w hw => ?_) fun _ _ h => ⟨h.1, h.2.error⟩
  split
  · refine (amid_look .readOwner trivial hw.1).andThen (fun identity w hw => ?_) fun _ _ h => ⟨h.1, h.2.error⟩
    cases identity with
    | some identity => exact amid_pure stable_held hw.1 fun _ hw => ⟨hw, notFull_ok _⟩
    | none => exact hthrow hw.1
  · exact hthrow hw.1

theorem amid_youngLock (metadata : Metadata) (h : NotFull (.error failure : Except Failure Bool)) (w : World) :
    Amid (Acts i op) Sound (Does i) (Others i) (youngLock metadata failure) (fun r _ => Clean r) w := by
  unfold youngLock
  split
  · refine (amid_ask .now trivial ⟨nofun, nofun⟩ w).andThen (fun now w _ => ?_) fun _ _ h => h.error
    exact fun _ _ => clean_ok _
  · rename_i hother
    exact fun _ _ => h.clean (by simpa using (not_or.mp hother).1)

theorem amid_lockOwnerIsActive (w : World) :
    Amid (Acts i op) Sound (Does i) (Others i) lockOwnerIsActive (fun r _ => Clean r) w := by
  refine (amid_ask .lstat trivial ⟨nofun, nofun⟩ w).andThen (fun metadata w _ => ?_) fun _ _ h => h.error
  split
  · refine Amid.orElse (P := fun r _ => NotFull r) (fun _ _ _ => clean_ok _) (fun failure w h => ?_) ?_
    · exact amid_youngLock metadata h w
    · refine (amid_readLockIdentity (show Held false i _ from nofun)).andThen (fun identity w _ => ?_) fun _ _ h => h.2.error
      exact amid_processMatches identity w
  · exact fun _ _ => clean_error rfl

theorem amid_cleanUp (w : World) : Amid (Acts i op) Sound (Does i) (Others i) cleanUp (fun r _ => Clean r) w := by
  refine (amid_lockOwnerIsActive w).andThen (fun active w _ => ?_) fun _ _ h => h.error
  split
  · exact fun _ _ => clean_ok _
  · refine (amid_ask .lstat trivial ⟨nofun, nofun⟩ w).andThen (fun _ w _ => ?_) fun _ _ h => h.error
    refine (amid_ask (.removeOwner true) trivial ⟨nofun, nofun⟩ w).andThen (fun _ w _ => ?_) fun _ _ h => h.error
    exact amid_ask (.removeDirectory true) trivial ⟨nofun, nofun⟩ w

/-! ### The program of a process -/

theorem Keeping.error {β : Type} {w : World} (h : Keeping i (.error failure : Except Failure α) w) :
    Keeping i (.error failure : Except Failure β) w :=
  ⟨nofun, h.2.error⟩

theorem amid_writeOwnerFile (identity : ProcessIdentity) {w : World} (hw : Uses i w) :
    Amid (Acts i op) Sound (Does i) (Others i) (writeOwnerFile identity) (Keeping i) w := by
  refine (amid_ask_uses .createOwner ⟨nofun, nofun⟩ ⟨nofun, nofun⟩ hw).andThen (fun _ w hw => ?_) fun _ _ h => h
  refine Amid.andFinally stable_keeping
    (amid_ask_uses (.writeOwner identity) ⟨nofun, nofun⟩ ⟨nofun, nofun⟩ (hw.1 rfl)) fun r w hr => ?_
  cases r with
  | ok value =>
    refine (amid_ask_uses .close ⟨nofun, nofun⟩ ⟨nofun, nofun⟩ (hr.1 rfl)).mono fun s w hs => ?_
    cases s with
    | ok => exact ⟨fun _ => hs.1 rfl, clean_ok _⟩
    | error => exact hs
  | error failure =>
    refine (amid_ask .close trivial ⟨nofun, nofun⟩ w).mono fun s w hs => ?_
    cases s with
    | ok => exact ⟨nofun, hr.2⟩
    | error => exact ⟨nofun, hs⟩

theorem amid_createLock (identity : ProcessIdentity) (w : World) :
    Amid (Acts i op) Sound (Does i) (Others i) (createLock identity)
      (fun r w => (r = .ok true → Uses i w) ∧ Clean r) w := by
  have hmkdir : Amid (Acts i op) Sound (Does i) (Others i) (ask .mkdir) (Keeping i) w := by
    refine amid_effect stable_true trivial fun w₁ a w₂ _ hI hacts => ?_
    obtain ⟨hsound, hdoes⟩ := keeps_of_acts hI hacts (.inr (.inl rfl))
    obtain ⟨hcareful, choice, hperform⟩ := hacts
    refine ⟨hsound, hdoes, ?_⟩
    cases a with
    | ok value => exact fun w' hr => ⟨fun _ => stable_uses.star (users_mkdir hperform) hr, clean_ok _⟩
    | error failure =>
      have hclean := clean_perform hperform hcareful ⟨nofun, nofun⟩ nofun
      exact fun _ _ => ⟨nofun, clean_error hclean⟩
  refine Amid.orElse (P := Keeping i) (fun value w h => ⟨fun _ => h.1 rfl, clean_ok _⟩) (fun failure w h => ?_) ?_
  · split
    · exact fun _ _ => ⟨nofun, clean_ok _⟩
    · exact fun _ _ => ⟨nofun, h.2⟩
  · refine hmkdir.andThen (fun _ w hw => ?_) fun _ _ h => h.error
    refine (amid_writeOwnerFile identity (hw.1 rfl)).andThen (fun _ w hw => ?_) fun _ _ h => h.error
    exact amid_pure stable_uses (hw.1 rfl) fun _ hw => ⟨fun _ => hw, clean_ok _⟩

theorem amid_tryAcquire (identity : ProcessIdentity) (w : World) :
    Amid (Acts i op) Sound (Does i) (Others i) (tryAcquire identity)
      (fun r w => (r = .ok true → Uses i w) ∧ Clean r) w := by
  refine (amid_createLock identity w).andThen (fun created w h => ?_) fun _ _ h => h
  cases created with
  | true => exact amid_pure stable_uses (h.1 rfl) fun _ hw => ⟨fun _ => hw, clean_ok _⟩
  | false =>
    refine (amid_cleanUp w).andThen (fun _ w _ => ?_) fun _ _ h => ⟨nofun, h.error⟩
    exact fun _ _ => ⟨nofun, clean_ok _⟩

theorem amid_attempts (identity : ProcessIdentity) (deadline : Nat) : ∀ (rounds : Nat) (w : World),
    Amid (Acts i op) Sound (Does i) (Others i) (attempts identity deadline rounds) (Keeping i) w
  | 0, w => fun _ _ => ⟨nofun, clean_error rfl⟩
  | rounds + 1, w => by
    refine (amid_tryAcquire identity w).andThen (fun acquired w h => ?_) fun _ _ h => ⟨nofun, h.2.error⟩
    cases acquired with
    | true => exact amid_pure stable_uses (h.1 rfl) fun _ hw => ⟨fun _ => hw, clean_ok _⟩
    | false =>
      refine (amid_ask .now trivial ⟨nofun, nofun⟩ w).andThen (fun now w _ => ?_) fun _ _ h => ⟨nofun, h.error⟩
      split
      · exact fun _ _ => ⟨nofun, clean_error rfl⟩
      · refine (amid_ask (.sleep 50) trivial ⟨nofun, nofun⟩ w).andThen (fun _ w _ => ?_) fun _ _ h => ⟨nofun, h.error⟩
        exact amid_attempts identity deadline rounds w

theorem amid_releaseOwnedLock (expected : ProcessIdentity) {w : World} (hw : Uses i w) :
    Amid (Acts i op) Sound (Does i) (Others i) (releaseOwnedLock expected) (fun r _ => Clean r) w := by
  refine Amid.orElse (P := fun r _ => NotFull r) (fun _ _ _ => clean_ok _) (fun failure w h => ?_) ?_
  · split
    · exact fun _ _ => clean_ok _
    · rename_i hother
      exact fun _ _ => h.clean (by simpa using hother)
  · refine (amid_readLockIdentity (show Held true i _ from fun _ => hw)).andThen (fun current w hw => ?_) fun _ _ h =>
      h.2.error
    split
    · refine (amid_look .lstat trivial hw.1).andThen (fun _ w hw => ?_) fun _ _ h => h.2.error
      refine (amid_ask_uses (.removeOwner false) ⟨nofun, nofun⟩ ⟨nofun, nofun⟩ (hw.1 rfl)).andThen (fun _ w hw => ?_)
        fun _ _ h => h.2.notFull.error
      refine amid_effect stable_uses (hw.1 rfl) fun w₁ a w₂ hw₁ hI hacts => ?_
      obtain ⟨hsound, hdoes⟩ := keeps_of_acts hI hacts (.inr (.inr hw₁))
      obtain ⟨hcareful, choice, hperform⟩ := hacts
      refine ⟨hsound, hdoes, ?_⟩
      cases a with
      | ok => exact fun _ _ => notFull_ok _
      | error =>
        have hfull := not_full_perform hperform hcareful
        exact fun _ _ => notFull_error hfull
    · exact fun _ _ => notFull_ok _

theorem amid_withDevelopmentServiceLock (pid rounds : Nat) (w : World) :
    Amid (Acts i op) Sound (Does i) (Others i) (withDevelopmentServiceLock pid rounds) (fun r _ => Clean r) w := by
  refine Amid.andThen (P := fun r _ => Clean r) (fun identity w _ => ?_) (fun _ _ h => h.error) ?_
  · refine (amid_ask .now trivial ⟨nofun, nofun⟩ w).andThen (fun now w _ => ?_) fun _ _ h => h.error
    refine (amid_attempts identity _ rounds w).andThen (fun _ w hw => ?_) fun _ _ h => h.2.error
    refine Amid.andFinally (P := fun r w => Uses i w ∧ Clean r) (fun _ _ _ h _ => h) ?_ fun r w hr => ?_
    · refine amid_effect stable_uses (hw.1 rfl) fun w₁ a w₂ hw₁ hI hacts => ?_
      obtain ⟨hsound, hdoes⟩ := keeps_of_acts hI hacts (.inr (.inr hw₁))
      obtain ⟨hcareful, choice, hperform⟩ := hacts
      have hw₂ : Uses i w₂ := by
        rw [Uses, users_perform hperform (.inr (.inl rfl))]
        exact hw₁
      refine ⟨hsound, hdoes, ?_⟩
      cases a with
      | ok => exact fun w' hr => ⟨stable_uses.star hw₂ hr, clean_ok _⟩
      | error failure =>
        have hclean := clean_perform hperform hcareful ⟨nofun, nofun⟩ nofun
        exact fun w' hr => ⟨stable_uses.star hw₂ hr, clean_error hclean⟩
    · refine (amid_releaseOwnedLock identity hr.1).mono fun s w hs => ?_
      cases s with
      | ok => exact hr.2
      | error => exact hs.error
  · refine (amid_ask (.readProcess pid) trivial ⟨nofun, nofun⟩ w).andThen (fun _ w _ => ?_) fun _ _ h => h.error
    exact fun _ _ => clean_ok _

end

/-! ## All calls together -/

theorem keeps : system.Keeps careful Sound Does (fun _ _ => True) fun _ _ r _ => Clean r where
  idle _ _ _ _ _ := trivial
  begins i op w _ h _ := by
    refine ⟨h, .stayed, ?_⟩
    cases op with
    | expose identity rounds => exact amid_withDevelopmentServiceLock _ _ _
    | other identity => exact fun _ _ => clean_ok _
  crashes i _ h _ := ⟨LockPath.Step.left.exclusive (i := i) h, .left⟩

/-- The states of the runs whose steps are permitted. -/
def Reached (permits : Concurrent.Permits World Request Answer Operation) (s : State) : Prop :=
  ∃ s₀, Initial s₀ ∧ ReflTransGen (system.Moves permits fun _ _ => True) s₀ s

theorem Reached.sound {s : State} (h : Reached careful s) :
    system.Sound careful Sound Does (fun _ _ => True) (fun _ _ r _ => Clean r) s := by
  obtain ⟨s₀, hinitial, hs⟩ := h
  have hexclusive : Sound s₀.world := .of_no_users (by simp [hinitial.users]) hinitial.trespassed
  refine Concurrent.Sound.steps keeps ⟨hexclusive, fun i op p hcall => ?_, fun _ _ => trivial⟩ hs
  rw [hinitial.calls] at hcall
  cases hcall

/-- A call that runs the operation created what is at the path: it relies on that. -/
theorem Reached.created {s : State} (h : Reached careful s) {i : Nat} (hi : Runs s i) :
    s.world.path.createdBy i = true := by
  obtain ⟨op, p, hcall, hoperates⟩ := hi
  cases p with
  | done => cases hoperates
  | fail => cases hoperates
  | perform request next =>
    cases request with
    | operation =>
      have hnext := (h.sound.running i op _ hcall _ .refl h.sound.world _ _ ⟨trivial, ⟨0, false, false⟩, rfl⟩).1
      have hclean : (s.world.path.trespassed || !s.world.path.createdBy i) = false := hnext.trespassed
      simpa using (Bool.or_eq_false_iff.mp hclean).2
    | _ => cases hoperates

/-- In every run in which no clean-up removes a directory that a live call uses, no look at the lock comes after it has
gone, and no removal finds an owner in the directory again, at most one live process runs the locked operation, and no
attempt fails because another has released the lock or cleaned it up. -/
theorem service_lock_exclusive {s : State} (h : Reached careful s) :
    (∀ i j, Runs s i → Runs s j → i = j) ∧ ∀ i, ¬ Cleaned s i := by
  refine ⟨fun i j hi hj => LockPath.createdBy_unique (h.created hi) (h.created hj), ?_⟩
  rintro i ⟨op, p, hcall, hcleaned⟩
  cases p with
  | done => cases hcleaned
  | perform => cases hcleaned
  | fail failure =>
    have hclean := h.sound.failed hcall failure rfl
    exact absurd hcleaned (by simp [failsCleaned, hclean])

namespace Sample

abbrev Event := Concurrent.Event Choice Operation

def process (pid : Nat) (startTime : String) : Event := .begins (.expose ⟨pid, startTime⟩ 2)

/-- A call goes on for a number of requests. -/
def goes (call requests : Nat) : List Event := List.replicate requests (.performs call ⟨0, false, true⟩)

def start : State := ⟨⟨⟨none, [], false⟩, fun _ => none, [], 0⟩, []⟩

theorem initial_start : Initial start := ⟨rfl, rfl, rfl, rfl, nofun⟩

def follow (effects : Operation → (request : Request) → World → Answer request → Bool) (events : List Event) :
    Option State :=
  Concurrent.followAll (fun choice i request w => some (perform choice i request w)) effects system events start

theorem reached_of_follow {permits : Concurrent.Permits World Request Answer Operation}
    {effects : Operation → (request : Request) → World → Answer request → Bool} {events : List Event} {s : State}
    (heffects : ∀ op request w a, effects op request w a = true → permits.effect op request w a)
    (hbegins : ∀ op, permits.begins op) (hcrashes : ∀ i w, permits.crash i w) (h : follow effects events = some s) :
    Reached permits s :=
  ⟨start, initial_start, Concurrent.moves_of_followAll (fun choice _ _ _ _ _ hp => ⟨choice, Option.some.inj hp⟩) heffects
    (fun op _ => hbegins op) (fun i w _ => hcrashes i w) h⟩

/-- Nothing is cleaned up, what is looked at is there, and what is removed is empty. -/
def checked (_ : Operation) (request : Request) (w : World) (_ : Answer request) : Bool :=
  match request with
  | .removeOwner stale => !stale
  | .removeDirectory stale => !stale && w.owner.isNone
  | .lstat => w.path.entry.isSome
  | _ => true

theorem careful_of_checked (op : Operation) (request : Request) (w : World) (a : Answer request)
    (h : checked op request w a = true) : careful.effect op request w a := by
  cases request with
  | removeOwner stale =>
    cases stale with
    | true => cases h
    | false => trivial
  | removeDirectory stale =>
    cases stale with
    | true => cases h
    | false => exact ⟨nofun, Option.isNone_iff_eq_none.mp h⟩
  | lstat => exact Option.isSome_iff_ne_none.mp h
  | _ => trivial

/-- One process runs its operation, another waits. -/
def waits : List Event := process 1 "1" :: goes 0 6 ++ process 2 "2" :: goes 1 7

def waiting : State := (follow checked waits).getD start

theorem reached_waiting : Reached careful waiting :=
  reached_of_follow careful_of_checked (fun _ => trivial) (fun _ _ => trivial)
    (show follow checked waits = some waiting from rfl)

end Sample

theorem service_lock_exclusive_sample : Runs Sample.waiting 0 ∧
    (∀ i j, Runs Sample.waiting i → Runs Sample.waiting j → i = j) ∧ ∀ i, ¬ Cleaned Sample.waiting i :=
  ⟨⟨_, _, rfl, rfl⟩, service_lock_exclusive Sample.reached_waiting⟩

namespace Sample

/-- What is said of the calls of a run that is computed. -/
theorem at_of_follow (events : List Event) (said : Action Unit → Bool) (calls : List (Option Bool))
    (h : (follow (fun _ _ _ _ => true) events).map (fun s => s.calls.map fun c => c.rest.map said) = some calls) :
    ∃ s, Reached .all s ∧ ∀ i, calls[i]? = some (some true) → At said s i := by
  obtain ⟨s, hs, rfl⟩ := Option.map_eq_some_iff.mp h
  refine ⟨s, reached_of_follow (fun _ _ _ _ _ => trivial) (fun _ => trivial) (fun _ _ => trivial) hs, fun i hi => ?_⟩
  rw [List.getElem?_map] at hi
  obtain ⟨⟨op, rest⟩, hcall, hrest⟩ := Option.map_eq_some_iff.mp hi
  obtain ⟨p, rfl, hp⟩ := Option.map_eq_some_iff.mp hrest
  exact ⟨op, p, hcall, hp⟩

/-- A process dies with the lock; two others find it dead, and each removes what is at the path when its turn comes. -/
def overlap : List Event := process 1 "1" :: goes 0 6 ++ .crashes 0 :: process 2 "2" :: process 3 "3" :: goes 1 7 ++
  goes 2 7 ++ goes 1 9 ++ goes 2 9

/-- A process finds the lock, and looks at it when its owner has just released it. -/
def vanishes : List Event := process 1 "1" :: goes 0 6 ++ process 2 "2" :: goes 1 3 ++ goes 0 6 ++ goes 1 1

end Sample

theorem clean_up_takes_live_lock : (¬ ∀ s, Reached .all s → ∀ i j, Runs s i → Runs s j → i = j) ∧
    ¬ ∀ s, Reached .all s → ∀ i, ¬ Cleaned s i := by
  constructor
  · intro hall
    obtain ⟨s, hreached, hruns⟩ :=
      Sample.at_of_follow Sample.overlap operates [none, some true, some true] rfl
    exact absurd (hall s hreached 1 2 (hruns 1 rfl) (hruns 2 rfl)) (by decide)
  · intro hall
    obtain ⟨s, hreached, hcleaned⟩ :=
      Sample.at_of_follow Sample.vanishes failsCleaned [some false, some true] rfl
    exact hall s hreached 1 (hcleaned 1 rfl)

end Dim.Controller.ServiceLock
