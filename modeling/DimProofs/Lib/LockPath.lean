/-
A path that is used as a lock: whoever creates it uses the lock until it removes it or is gone. `Exclusive` says that
what is at the path was created by each call that uses it, so that there is only one such call. Every step keeps it,
as long as nobody takes away what a call still uses; the other calls then keep what they created.
-/
import Mathlib

/-- What is at a path, and the call that created it, unless it was there before. -/
structure LockPath.Entry (γ : Type) where
  creator : Option Nat
  content : γ

/-- What is at the path, the calls that created it and are not done, and whether a call has used the lock while what
was at the path was not its own. -/
structure LockPath (γ : Type) where
  entry : Option (LockPath.Entry γ)
  users : List Nat
  trespassed : Bool

namespace LockPath

variable {γ : Type}

def create (i : Nat) (content : γ) (p : LockPath γ) : LockPath γ :=
  { p with entry := some ⟨some i, content⟩, users := i :: p.users }

def remove (p : LockPath γ) : LockPath γ := { p with entry := none }

def rewrite (f : γ → γ) (p : LockPath γ) : LockPath γ :=
  { p with entry := p.entry.map fun e => { e with content := f e.content } }

/-- The call is done with the lock. -/
def leave (i : Nat) (p : LockPath γ) : LockPath γ := { p with users := p.users.filter (· ≠ i) }

def createdBy (i : Nat) (p : LockPath γ) : Bool := p.entry.any fun e => e.creator = some i

/-- The call relies on the lock. -/
def use (i : Nat) (p : LockPath γ) : LockPath γ := { p with trespassed := p.trespassed || !p.createdBy i }

/-- No call uses what is at the path. -/
def Free (p : LockPath γ) : Prop := ∀ e, p.entry = some e → ∀ i, e.creator = some i → i ∉ p.users

/-- The calls that use the lock created what is at its path. -/
structure Exclusive (p : LockPath γ) : Prop where
  own : ∀ i ∈ p.users, p.createdBy i = true
  trespassed : p.trespassed = false

/-- What call `i` may do to the path. -/
inductive Step (i : Nat) (p : LockPath γ) : LockPath γ → Prop
  | stayed : Step i p p
  | created (content : γ) (h : p.entry = none) : Step i p (p.create i content)
  | used (h : i ∈ p.users) : Step i p (p.use i)
  | rewrote (f : γ → γ) (h : i ∈ p.users ∨ p.Free) : Step i p (p.rewrite f)
  | removed (h : i ∈ p.users) : Step i p (p.remove.leave i)
  | left : Step i p (p.leave i)
  | cleared (h : p.Free) : Step i p p.remove

section

variable {p p' : LockPath γ} {i j : Nat}

@[simp] theorem mem_leave : j ∈ (p.leave i).users ↔ j ∈ p.users ∧ j ≠ i := by
  simp [leave]

theorem createdBy_iff : p.createdBy i = true ↔ ∃ e, p.entry = some e ∧ e.creator = some i := by
  simp [createdBy, Option.any_eq_true]

theorem createdBy_rewrite (f : γ → γ) : (p.rewrite f).createdBy i = p.createdBy i := by
  cases hentry : p.entry <;> simp [createdBy, rewrite, hentry]

/-- Only one call created what is there. -/
theorem createdBy_unique (hi : p.createdBy i = true) (hj : p.createdBy j = true) : i = j := by
  obtain ⟨e, he, hei⟩ := createdBy_iff.mp hi
  obtain ⟨e', he', hej⟩ := createdBy_iff.mp hj
  obtain rfl : e = e' := Option.some.inj (he.symm.trans he')
  exact Option.some.inj (hei.symm.trans hej)

/-- At most one call uses the lock. -/
theorem Exclusive.unique (h : p.Exclusive) (hi : i ∈ p.users) (hj : j ∈ p.users) : i = j :=
  createdBy_unique (h.own i hi) (h.own j hj)

theorem Exclusive.use_eq (h : p.Exclusive) (hi : i ∈ p.users) : p.use i = p := by
  simp [use, h.own i hi]

theorem Exclusive.users_of_none (h : p.Exclusive) (hentry : p.entry = none) : ∀ i, i ∉ p.users := by
  intro i hi
  have hown := h.own i hi
  simp [createdBy, hentry] at hown

theorem Exclusive.users_of_free (h : p.Exclusive) (hfree : p.Free) : ∀ i, i ∉ p.users := by
  intro i hi
  obtain ⟨e, he, hcreator⟩ := createdBy_iff.mp (h.own i hi)
  exact hfree e he i hcreator hi

theorem Exclusive.of_no_users (husers : ∀ i, i ∉ p.users) (htrespassed : p.trespassed = false) : p.Exclusive :=
  ⟨fun i hi => absurd hi (husers i), htrespassed⟩

/-- What is at a path that was created by a call that uses it no more is nobody's. -/
theorem free_of_createdBy (hi : p.createdBy i = true) (husers : i ∉ p.users) : p.Free := by
  intro e he j hcreator hj
  obtain rfl := createdBy_unique hi (createdBy_iff.mpr ⟨e, he, hcreator⟩)
  exact husers hj

/-! ## A step of one call -/

theorem Step.exclusive (hs : Step i p p') (h : p.Exclusive) : p'.Exclusive := by
  cases hs with
  | stayed => exact h
  | created content hentry =>
    refine ⟨fun j hj => ?_, h.trespassed⟩
    obtain rfl | hj := List.mem_cons.mp hj
    · exact createdBy_iff.mpr ⟨_, rfl, rfl⟩
    · exact absurd hj (h.users_of_none hentry j)
  | used hi =>
    refine ⟨h.own, ?_⟩
    simp [use, h.trespassed, h.own i hi]
  | rewrote f _ => exact ⟨fun j hj => (createdBy_rewrite f).trans (h.own j hj), h.trespassed⟩
  | removed hi =>
    refine .of_no_users (fun j hj => ?_) h.trespassed
    obtain ⟨hj, hne⟩ := mem_leave.mp hj
    exact hne (h.unique hj hi)
  | left => exact ⟨fun j hj => h.own j (mem_leave.mp hj).1, h.trespassed⟩
  | cleared hfree => exact .of_no_users (h.users_of_free hfree) h.trespassed

/-- Whether another call uses the lock is not for this one to change. -/
theorem Step.users (hs : Step i p p') (hj : j ≠ i) : j ∈ p'.users ↔ j ∈ p.users := by
  cases hs with
  | created => exact List.mem_cons.trans (or_iff_right hj)
  | removed => exact mem_leave.trans (and_iff_left hj)
  | left => exact mem_leave.trans (and_iff_left hj)
  | stayed => rfl
  | used => rfl
  | rewrote => rfl
  | cleared => rfl

end

end LockPath
