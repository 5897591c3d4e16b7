/-
Whether a lock can be had again after a call that threw. Where the call left nothing, others only need to release or to
die; where it left its record, no attempt by anyone gets past it as long as its process lives.
-/
import DimProofs.Locks.Failures

namespace Dim.Locks

open Effectful Relation

/-! ## What may happen later -/

/-- What others do after a call: attempts and releases, whatever fails in them, the end of an attempt that was under
way, and processes that start and die. The nonce of the call is its own. -/
inductive Later (request : Request) (c : Call) : World → World → Prop
  | attempted {w w' : World} {c' : Call} {rounds : Nat} {r : Except Failure Unit} (hother : c'.nonce ≠ c.nonce)
    (h : Reaches performs (acquireLifecycleLock request c' rounds) w (.ended r) w') : Later request c w w'
  | released {w w' : World} {c' : Call} {r : Except Failure Unit} (hother : c'.nonce ≠ c.nonce)
    (h : Reaches performs (release request c') w (.ended r) w') : Later request c w w'
  | returned {w : World} {c' : Call} (hother : c'.nonce ≠ c.nonce) (h : Guards request w c') :
    Later request c w { w with active := c' :: w.active }
  | gaveUp {w : World} {c' : Call} (hother : c'.nonce ≠ c.nonce) (h : c' ∉ w.active) : Later request c w (w.unlocked c')
  | died {w : World} {pid : Nat} (h : pid ≠ c.pid) : Later request c w (w.died pid)
  | started {w : World} {pid : Nat} {startTicks : String} (h : w.processes.lookup pid = none) :
    Later request c w { w with processes := (pid, startTicks) :: w.processes }

/-- The call still holds the lock and can release it, or any process can have it later, where no operation fails. -/
def Recovers (request : Request) (owner : Owner) (w : World) : Prop :=
  (Holds request owner w ∧ ∃ w', (release request owner.call).exec step w = (.ok (), w')) ∨
    ∀ c : Call, validNonce c.nonce = true → c.nonce ≠ owner.call.nonce →
      ∃ w₁ w₂, ReflTransGen (Later request owner.call) w w₁ ∧
      (acquireLifecycleLock request c 0).exec step w₁ = (.ok (), w₂)

/-! ## A record without a holder -/

section Wedge

variable {request : Request} {owner : Owner} {w w' : World} {c : Call} {α : Type}

theorem recorded_of_quiet {e : Effect} {a : Answer e} (he : Quiet request.name c e) (h : performs e w a w')
    (hw : Recorded request owner w) : Recorded request owner w' :=
  (same_of_quiet he h).recorded hw

/-- A program that keeps the record and ends as `R` says. -/
abbrev Stuck (request : Request) (owner : Owner) (p : Lock α) (R : Except Failure α → Prop) (w : World) : Prop :=
  Safe performs (Recorded request owner) p (fun r w => Recorded request owner w ∧ R r) w

theorem stuck_quiet {p : Lock α} (hp : p.Every (Quiet request.name c)) (hw : Recorded request owner w) :
    Stuck request owner p (fun _ => True) w :=
  Safe.mono (fun _ _ h => ⟨h, trivial⟩) (hp.safe (fun _ _ _ _ he h hw => recorded_of_quiet he h hw) hw)

/-- The record is read as it is, unless the reading fails. -/
theorem stuck_readOwner (hw : Recorded request owner w) :
    Stuck request owner (readOwner (ownerFile request.name))
      (fun r => ∀ existing, r = .ok existing → existing = .valid owner ∨ ∃ detail, existing = .unreadable detail) w := by
  intro a w' hperforms
  have hw' := recorded_of_quiet (c := owner.call) .readFile hperforms hw
  refine ⟨hw', ?_⟩
  rcases hperforms with hstep | hfails
  · simp only [step, hw.record] at hstep
    obtain ⟨rfl, rfl⟩ := Prod.mk.inj hstep
    refine ⟨hw', ?_⟩
    rintro existing ⟨rfl⟩
    exact .inl rfl
  · cases hfails with
    | read _ code hcode =>
      cases code with
      | noEntry => exact absurd rfl hcode
      | access =>
        refine ⟨hw', ?_⟩
        rintro existing ⟨rfl⟩
        exact .inr ⟨_, rfl⟩
      | notPermitted =>
        refine ⟨hw', ?_⟩
        rintro existing ⟨rfl⟩
        exact .inr ⟨_, rfl⟩
      | other => exact ⟨hw', (by simp)⟩

/-- The owner is found alive, unless the probe fails. -/
theorem stuck_probeProcess (hw : Recorded request owner w) :
    Stuck request owner (probeProcess owner) (fun r => ∀ status, r = .ok status → status = .live ∨ status = .unknown) w := by
  intro a w' hperforms
  have hw' := recorded_of_quiet (c := owner.call) .readBootId hperforms hw
  refine ⟨hw', ?_⟩
  have hunknown : ∀ {w : World}, Recorded request owner w → Stuck request owner (pure .unknown : Lock Probe)
      (fun r => ∀ status, r = .ok status → status = .live ∨ status = .unknown) w := fun hw => by
    refine ⟨hw, ?_⟩
    rintro status ⟨rfl⟩
    exact .inr rfl
  rcases hperforms with hstep | hfails
  · obtain ⟨rfl, rfl⟩ := Prod.mk.inj hstep
    show Stuck request owner (if _ then _ else _) _ _
    rw [if_neg (by simpa using hw.alive.boot)]
    refine Safe.orElse (P := fun r w => Recorded request owner w ∧ ∀ status, r = .ok status → status = .live ∨
      status = .unknown) ?_ (fun _ _ h => h) fun _ _ h => hunknown h.1
    intro a w' hperforms
    have hw' := recorded_of_quiet (c := owner.call) .readStat hperforms hw
    refine ⟨hw', ?_⟩
    rcases hperforms with hstep | hfails
    · simp only [step, hw.alive.process] at hstep
      obtain ⟨rfl, rfl⟩ := Prod.mk.inj hstep
      refine ⟨hw', ?_⟩
      rintro status ⟨rfl⟩
      exact .inl (if_pos rfl)
    · cases hfails with
      | stat _ code hcode =>
        cases code with
        | noEntry => exact absurd rfl hcode
        | access => exact hunknown hw'
        | notPermitted => exact hunknown hw'
        | other => exact ⟨hw', (by simp)⟩
  · cases hfails
    exact hunknown hw'

theorem Recorded.unlocked (hw : Recorded request owner w) (c : Call) : Recorded request owner (w.unlocked c) :=
  ⟨⟨hw.alive.canonical, hw.alive.boot, hw.alive.process⟩, hw.inactive, hw.record⟩

theorem stuck_releaseGuard (hw : Recorded request owner w) : Stuck request owner (releaseGuard c) (fun _ => True) w := by
  intro a w' hperforms
  rcases hperforms with hstep | hfails
  · obtain ⟨rfl, rfl⟩ := Prod.mk.inj hstep
    exact ⟨hw.unlocked c, hw.unlocked c, trivial⟩
  · cases hfails
    exact ⟨hw.unlocked c, hw.unlocked c, trivial⟩

/-- The guard may be had, but the owner waits for itself. -/
theorem stuck_attemptOwner (other : Owner) (hw : Recorded request owner w) :
    Stuck request owner (attemptOwner request other) (fun r => r ≠ .ok none) w := by
  refine (stuck_readOwner hw).andThen (fun existing w h => ?_) fun _ w h => ⟨h.1, nofun⟩
  rcases h.2 existing rfl with rfl | ⟨detail, rfl⟩
  · refine (stuck_probeProcess h.1).andThen (fun status w h => ?_) fun _ w h => ⟨h.1, nofun⟩
    rcases h.2 status rfl with rfl | rfl
    · exact ⟨h.1, nofun⟩
    · exact ⟨h.1, nofun⟩
  · exact ⟨h.1, nofun⟩

theorem stuck_attempt (other : Owner) (diagnostic : String) (hw : Recorded request owner w) :
    Stuck request owner (attempt request other diagnostic) (fun r => r ≠ .ok none) w := by
  refine Safe.andThen (P := fun _ w => Recorded request owner w) ?_ (fun acquired w hw => ?_) fun _ w hw => ⟨hw, (by simp)⟩
  · refine (stuck_quiet (c := other.call) (every_operate .openGuard) hw).andThen (fun _ w h => ?_) fun _ w h => h.1
    refine (stuck_quiet (c := other.call) (every_operate .closeGuard) h.1).andThen (fun _ w h => ?_) fun _ w h => h.1
    intro a w' hperforms
    have hw' : Recorded request owner w' := by
      rcases hperforms with hstep | hfails
      · simp only [step] at hstep
        split at hstep
        · obtain ⟨rfl, rfl⟩ := Prod.mk.inj hstep
          exact h.1
        · obtain ⟨rfl, rfl⟩ := Prod.mk.inj hstep
          have hsame := same_touch (w := w) (ownerFile_ne_guardFile (a := request.name) (b := request.name))
          have htouched := hsame.recorded h.1
          exact ⟨⟨htouched.alive.canonical, htouched.alive.boot, htouched.alive.process⟩, htouched.inactive, htouched.record⟩
      · cases hfails
        exact h.1
    refine ⟨hw', ?_⟩
    cases a <;> exact hw'
  · cases acquired with
    | false => exact ⟨hw, (by simp)⟩
    | true =>
      refine Safe.andThen (P := fun r w => Recorded request owner w ∧ r ≠ .ok none) ?_ (fun waiting w h => ?_) fun _ w h => h
      · refine (stuck_attemptOwner other hw).orElse (fun _ _ h => h) fun failure w h => ?_
        exact (stuck_releaseGuard h.1).andThen (fun _ w h => ⟨h.1, (by simp)⟩) fun _ w h => ⟨h.1, (by simp)⟩
      · cases waiting with
        | none => exact absurd rfl h.2
        | some diagnostic =>
          exact (stuck_releaseGuard h.1).andThen (fun _ w h => ⟨h.1, (by simp)⟩) fun _ w h => ⟨h.1, (by simp)⟩

theorem stuck_attempts (other : Owner) : ∀ (rounds : Nat) (diagnostic : String) {w : World}, Recorded request owner w →
    Stuck request owner (attempts request other rounds diagnostic) (fun r => r ≠ .ok ()) w
  | rounds, diagnostic, w, hw => by
    rw [attempts.eq_def]
    refine (stuck_attempt other diagnostic hw).andThen (fun waiting w h => ?_) fun _ w h => ⟨h.1, (by simp)⟩
    cases waiting with
    | none => exact absurd rfl h.2
    | some diagnostic =>
      cases rounds with
      | zero => exact ⟨h.1, (by simp)⟩
      | succ rounds =>
        refine (stuck_quiet (c := other.call) (every_call .sleep) h.1).andThen (fun _ w h => ?_) fun _ w h =>
          ⟨h.1, (by simp)⟩
        exact stuck_attempts other rounds diagnostic h.1

/-- No attempt gets past the record of a live process. -/
theorem stuck_acquireLifecycleLock (c : Call) (rounds : Nat) (hw : Recorded request owner w) :
    Stuck request owner (acquireLifecycleLock request c rounds) (fun r => r ≠ .ok ()) w := by
  refine (stuck_quiet (c := c) (every_currentProcessIdentity _) hw).andThen (fun identity w h => ?_)
    fun _ w h => ⟨h.1, nofun⟩
  refine (stuck_quiet (c := c) (every_operate .mkdir) h.1).andThen (fun _ w h => ?_) fun _ w h => ⟨h.1, nofun⟩
  exact stuck_attempts _ rounds _ h.1

/-- Nor does another call remove it. -/
theorem stuck_release (hc : c.nonce ≠ owner.call.nonce) (hw : Recorded request owner w) :
    Stuck request owner (release request c) (fun _ => True) w := by
  refine Safe.andThen (stuck_quiet (every_call .isActive) hw) (fun active w h => ?_) fun _ w h => h
  cases active with
  | false => exact h
  | true =>
    intro a w' hperforms
    obtain hstep | ⟨⟨⟩⟩ := hperforms
    obtain ⟨rfl, rfl⟩ := Prod.mk.inj hstep
    have hw' : Recorded request owner { w with active := w.active.filter (· ≠ c) } :=
      ⟨⟨h.1.alive.canonical, h.1.alive.boot, h.1.alive.process⟩, fun hmem => h.1.inactive (List.mem_filter.mp hmem).1,
        h.1.record⟩
    refine ⟨hw', Safe.andFinally (P := fun _ w => Recorded request owner w) ?_ fun r w hw =>
      (stuck_releaseGuard hw).mono fun r w h => by cases r <;> exact h⟩
    refine (stuck_readOwner hw').andThen (fun existing w h => ?_) fun _ w h => h.1
    rcases h.2 existing rfl with rfl | ⟨detail, rfl⟩
    · show Safe _ _ (if _ then _ else _) _ _
      rw [if_neg hc.symm]
      exact h.1
    · exact h.1

theorem lookup_filter_ne {processes : List (Nat × String)} {pid pid' : Nat} (h : pid' ≠ pid) :
    (processes.filter (·.1 ≠ pid)).lookup pid' = processes.lookup pid' :=
  Directory.lookup_remove_ne h

theorem Alive.died {pid : Nat} (h : Alive owner w) (hpid : pid ≠ owner.call.pid) : Alive owner (w.died pid) :=
  ⟨h.canonical, h.boot, (lookup_filter_ne hpid.symm).trans h.process⟩

/-- Whatever others do, the record stays. -/
theorem Recorded.later (hw : Recorded request owner w) (h : Later request owner.call w w') : Recorded request owner w' := by
  cases h with
  | attempted _ h => exact ((stuck_acquireLifecycleLock _ _ hw).reaches hw h).1
  | released hother h => exact ((stuck_release hother hw).reaches hw h).1
  | returned hother =>
    refine ⟨⟨hw.alive.canonical, hw.alive.boot, hw.alive.process⟩, fun hmem => ?_, hw.record⟩
    rcases List.mem_cons.mp hmem with heq | hmem
    · exact hother (congrArg Call.nonce heq).symm
    · exact hw.inactive hmem
  | gaveUp => exact hw.unlocked _
  | died hpid => exact ⟨hw.alive.died hpid, fun hmem => hw.inactive (List.mem_filter.mp hmem).1, hw.record⟩
  | started hnone =>
    refine ⟨⟨hw.alive.canonical, hw.alive.boot, ?_⟩, hw.inactive, hw.record⟩
    rw [List.lookup_cons, beq_false_of_ne]
    · exact hw.alive.process
    · rintro rfl
      rw [hw.alive.process] at hnone
      cases hnone

theorem exists_nonce (nonce : Nonce) : ∃ other, validNonce other = true ∧ other ≠ nonce := by
  by_cases h : List.replicate 43 'a' = nonce
  · refine ⟨List.replicate 43 'b', rfl, ?_⟩
    subst h
    decide
  · exact ⟨List.replicate 43 'a', rfl, h⟩

/-- A record without a holder keeps everyone out for good. -/
theorem Wedged.not_recovers (hw : Wedged request owner w) : ¬ Recovers request owner w := by
  rintro (⟨hholds, -⟩ | h)
  · exact hw.inactive hholds.active
  · obtain ⟨nonce, hvalid, hnonce⟩ := exists_nonce owner.call.nonce
    obtain ⟨w₁, w₂, hlater, hexec⟩ := h ⟨owner.call.pid, nonce⟩ hvalid hnonce
    have hw₁ : Recorded request owner w₁ := by
      clear hexec
      induction hlater with
      | refl => exact hw.toRecorded
      | tail _ hstep ih => exact ih.later hstep
    have hend := ((stuck_acquireLifecycleLock ⟨owner.call.pid, nonce⟩ 0 hw₁).reaches hw₁
      (reaches_exec performs_step _ w₁)).2
    rw [hexec] at hend
    exact hend.2 rfl

end Wedge

/-! ## A lock that nothing was left of -/

section Recovery

variable {request : Request} {owner : Owner} {w w' : World} {c : Call}

/-- What `release` does where no operation fails. -/
structure Released (request : Request) (c : Call) (w w' : World) : Prop where
  record : w'.lookup (ownerFile request.name) = none ∨
    w'.lookup (ownerFile request.name) = w.lookup (ownerFile request.name) ∧
    ∀ o, w.lookup (ownerFile request.name) = some (.owner o) → o.call ≠ c
  guards : ∀ c', Guards request w' c' ↔ Guards request w c' ∧ c' ≠ c
  active : ∀ c', c' ∈ w'.active → c' ∈ w.active
  bootId : w'.bootId = w.bootId
  processes : w'.processes = w.processes

theorem exec_release (request : Request) (hactive : c ∈ w.active) :
    ∃ r w', (release request c).exec step w = (r, w') ∧ Released request c w w' := by
  let v : World := { w with active := w.active.filter (· ≠ c) }
  have hguards : ∀ (u : World) c', (∀ c, Guards request u c ↔ Guards request w c) →
      (Guards request (u.unlocked c) c' ↔ Guards request w c' ∧ c' ≠ c) := fun u c' hu => by
    rw [← hu c', Guards, World.unlocked, List.mem_filter]
    simp [Guards]
  have hmem : ∀ c', c' ∈ v.active → c' ∈ w.active := fun c' h => (List.mem_filter.mp h).1
  have hrelease : ∀ u : World, (releaseGuard c).exec step u = (.ok (), u.unlocked c) := fun _ => rfl
  rw [release, exec_bind]
  simp only [call, Program.effect, Program.exec, step, decide_eq_true hactive, if_true]
  show ∃ r w', (Program.tryFinally (readOwner (ownerFile request.name) >>= _) (releaseGuard c)).exec step v = (r, w') ∧ _
  rw [exec_tryFinally, exec_bind, exec_readOwner]
  rcases hrecord : v.lookup (ownerFile request.name) with _ | (o | _ | _)
  · refine ⟨_, _, rfl, ⟨.inr ⟨rfl, fun o ho => ?_⟩, fun c' => hguards v c' fun _ => Iff.rfl, hmem, rfl, rfl⟩⟩
    rw [show w.lookup (ownerFile request.name) = none from hrecord] at ho
    cases ho
  · dsimp only
    by_cases hnonce : o.call.nonce = c.nonce
    · rw [if_pos hnonce, exec_bind, exec_operate (by rw [World.refusal, if_pos]; rw [hrecord]; rfl)]
      dsimp only
      rw [exec_syncDirectory]
      dsimp only
      rw [hrelease]
      refine ⟨_, _, rfl, ⟨.inl ?_, fun c' => hguards _ c' fun c'' => ?_, hmem, rfl, rfl⟩⟩
      · show (v.remove _).lookup _ = none
        rw [World.lookup_remove, if_pos rfl]
      · exact guards_remove (w := v) ownerFile_ne_guardFile.symm
    · rw [if_neg hnonce]
      refine ⟨_, _, rfl, ⟨.inr ⟨rfl, fun o' ho' => ?_⟩, fun c' => hguards v c' fun _ => Iff.rfl, hmem, rfl, rfl⟩⟩
      rw [show w.lookup (ownerFile request.name) = some (.owner o) from hrecord] at ho'
      cases ho'
      rintro rfl
      exact hnonce rfl
  · refine ⟨_, _, rfl, ⟨.inr ⟨rfl, fun o ho => ?_⟩, fun c' => hguards v c' fun _ => Iff.rfl, hmem, rfl, rfl⟩⟩
    rw [show w.lookup (ownerFile request.name) = some .json from hrecord] at ho
    cases ho
  · refine ⟨_, _, rfl, ⟨.inr ⟨rfl, fun o ho => ?_⟩, fun c' => hguards v c' fun _ => Iff.rfl, hmem, rfl, rfl⟩⟩
    rw [show w.lookup (ownerFile request.name) = some .text from hrecord] at ho
    cases ho

theorem later_released (request : Request) (hc : c.nonce ≠ owner.call.nonce) (hactive : c ∈ w.active) :
    ∃ w', Later request owner.call w w' ∧ Released request c w w' := by
  obtain ⟨r, w', hexec, hreleased⟩ := exec_release request hactive
  have hreaches := reaches_exec performs_step (release request c) w
  rw [hexec] at hreaches
  exact ⟨w', .released hc hreaches, hreleased⟩

/-- No owner stands in the record but one that is gone. -/
structure Settled (request : Request) (owner : Owner) (w : World) : Prop where
  alive : Alive owner w
  inactive : owner.call ∉ w.active
  outside : ∀ c, Guards request w c → c.nonce ≠ owner.call.nonce
  exclusive : ∀ c c', Guards request w c → Guards request w c' → c = c'
  gone : w.lookup (ownerFile request.name) = none ∨
    ∃ o, w.lookup (ownerFile request.name) = some (.owner o) ∧ (w.probe o = .dead ∨ w.probe o = .reused)

theorem Outside.settled (h : Outside request owner w) (hgone : w.lookup (ownerFile request.name) = none ∨
    ∃ o, w.lookup (ownerFile request.name) = some (.owner o) ∧ (w.probe o = .dead ∨ w.probe o = .reused)) :
    Settled request owner w :=
  ⟨h.alive, h.inactive, h.outside, h.exclusive, hgone⟩

theorem Alive.released (h : Alive owner w) (hw' : Released request c w w') : Alive owner w' := by
  obtain ⟨hcanonical, hboot, hprocess⟩ := h
  exact ⟨hw'.bootId ▸ hcanonical, hw'.bootId ▸ hboot, hw'.processes ▸ hprocess⟩

/-- The death of a process leaves nothing of its calls but a record that is taken over. -/
theorem probe_died (o : Owner) : (w.died o.call.pid).probe o = .dead ∨ (w.died o.call.pid).probe o = .reused := by
  rw [World.probe]
  split
  · exact .inr rfl
  · have hnone : (w.died o.call.pid).processes.lookup o.call.pid = none := Directory.lookup_remove_self
    rw [hnone]
    exact .inl rfl

theorem mem_died {pid : Nat} : Guards request (w.died pid) c ↔ Guards request w c ∧ c.pid ≠ pid := by
  rw [Guards, World.died, List.mem_filter]
  simp [Guards]

/-- Once the owner in the record has released the lock or died, the record is no obstacle. -/
theorem Outside.exists_settled (h : Outside request owner w) :
    ∃ w', ReflTransGen (Later request owner.call) w w' ∧ Settled request owner w' := by
  rcases hrecord : w.lookup (ownerFile request.name) with _ | content
  · exact ⟨w, .refl, h.settled (.inl hrecord)⟩
  · obtain ⟨o, rfl, hnonce, hpasses⟩ := h.record content hrecord
    -- The release of an active call, in the world where it is so.
    have hreleases : ∀ v : World, Later request owner.call w v ∨ v = w → o.call ∈ v.active → Alive owner v →
        owner.call ∉ v.active → v.lookup (ownerFile request.name) = some (.owner o) →
        (∀ c, Guards request v c ↔ Guards request w c) →
        ∃ w', ReflTransGen (Later request owner.call) w w' ∧ Settled request owner w' := by
      intro v hv hactive halive hinactive hlookup hguards
      obtain ⟨w', hlater, hreleased⟩ := later_released request hnonce hactive
      have hreach : ReflTransGen (Later request owner.call) w w' := by
        rcases hv with hv | rfl
        · exact .head hv (.single hlater)
        · exact .single hlater
      refine ⟨w', hreach, halive.released hreleased, fun hmem => hinactive (hreleased.active _ hmem), fun c hc => ?_,
        fun c c' hc hc' => ?_, .inl ?_⟩
      · exact h.outside c ((hguards c).mp ((hreleased.guards c).mp hc).1)
      · exact h.exclusive c c' ((hguards c).mp ((hreleased.guards c).mp hc).1)
          ((hguards c').mp ((hreleased.guards c').mp hc').1)
      · rcases hreleased.record with hnone | ⟨-, hother⟩
        · exact hnone
        · exact absurd rfl (hother o hlookup)
    rcases hpasses with hpid | hdead | hreused | hactive | hguards
    · refine ⟨w.died o.call.pid, .single (.died hpid), h.alive.died hpid, fun hmem => h.inactive (List.mem_filter.mp hmem).1,
        fun c hc => h.outside c (mem_died.mp hc).1,
          fun c c' hc hc' => h.exclusive c c' (mem_died.mp hc).1 (mem_died.mp hc').1,
        .inr ⟨o, hrecord, probe_died o⟩⟩
    · exact ⟨w, .refl, h.settled (.inr ⟨o, hrecord, .inl hdead⟩)⟩
    · exact ⟨w, .refl, h.settled (.inr ⟨o, hrecord, .inr hreused⟩)⟩
    · exact hreleases w (.inr rfl) hactive h.alive h.inactive hrecord fun _ => Iff.rfl
    · refine hreleases { w with active := o.call :: w.active } (.inl (.returned hnonce hguards)) List.mem_cons_self
        ⟨h.alive.canonical, h.alive.boot, h.alive.process⟩ (fun hmem => ?_) hrecord fun _ => Iff.rfl
      rcases List.mem_cons.mp hmem with heq | hmem
      · exact hnonce (congrArg Call.nonce heq).symm
      · exact h.inactive hmem

/-- Once the call that has the guard has let it go or died, nobody has it. -/
theorem Settled.exists_unguarded (h : Settled request owner w) :
    ∃ w', ReflTransGen (Later request owner.call) w w' ∧ Settled request owner w' ∧ ∀ c, ¬ Guards request w' c := by
  by_cases hfree : ∃ c, Guards request w c
  · obtain ⟨c, hc⟩ := hfree
    have hnonce := h.outside c hc
    by_cases hactive : c ∈ w.active
    · obtain ⟨w', hlater, hreleased⟩ := later_released request hnonce hactive
      have hnobody : ∀ c', ¬ Guards request w' c' := fun c' hc' =>
        ((hreleased.guards c').mp hc').2 (h.exclusive c' c ((hreleased.guards c').mp hc').1 hc)
      refine ⟨w', .single hlater, ⟨h.alive.released hreleased, fun hmem => h.inactive (hreleased.active _ hmem),
        fun c' hc' => absurd hc' (hnobody c'), fun c' _ hc' => absurd hc' (hnobody c'), ?_⟩, hnobody⟩
      rcases hreleased.record with hnone | ⟨hsame, -⟩
      · exact .inl hnone
      · rw [hsame]
        refine h.gone.imp_right ?_
        rintro ⟨o, ho, hprobe⟩
        refine ⟨o, ho, ?_⟩
        rw [World.probe, hreleased.bootId, hreleased.processes, ← World.probe]
        exact hprobe
    · have hunlocked : ∀ c', Guards request (w.unlocked c) c' ↔ Guards request w c' ∧ c' ≠ c := fun c' => by
        rw [Guards, World.unlocked, List.mem_filter]
        simp [Guards]
      have hnobody : ∀ c', ¬ Guards request (w.unlocked c) c' := fun c' hc' =>
        ((hunlocked c').mp hc').2 (h.exclusive c' c ((hunlocked c').mp hc').1 hc)
      exact ⟨w.unlocked c, .single (.gaveUp hnonce hactive), ⟨⟨h.alive.canonical, h.alive.boot, h.alive.process⟩, h.inactive,
        fun c' hc' => absurd hc' (hnobody c'), fun c' _ hc' => absurd hc' (hnobody c'), h.gone⟩, hnobody⟩
  · exact ⟨w, .refl, h, fun c hc => hfree ⟨c, hc⟩⟩

/-- A process starts whose start ticks are not those of an owner. -/
theorem Settled.exists_started (h : Settled request owner w) (hfree : ∀ c, ¬ Guards request w c) (pid : Nat) :
    ∃ w' startTicks, ReflTransGen (Later request owner.call) w w' ∧ w'.Free request.name ∧ canonicalUuid w'.bootId = true ∧
      w'.processes.lookup pid = some startTicks := by
  have hguard : ∀ v : World, (∀ c, ¬ Guards request v c) → v.guard (guardFile request.name) = none := by
    intro v hv
    rcases hguard : v.guard (guardFile request.name) with _ | c
    · rfl
    · exact absurd (Directory.mem_of_lookup hguard) (hv c)
  by_cases hpid : pid = owner.call.pid
  · subst hpid
    exact ⟨w, _, .refl, ⟨hguard w hfree, h.gone⟩, h.alive.canonical, h.alive.process⟩
  · have hdied : (w.died pid).processes.lookup pid = none := Directory.lookup_remove_self
    have hnobody : ∀ c, ¬ Guards request (w.died pid) c := fun c hc => hfree c (mem_died.mp hc).1
    -- Start ticks that no owner in the record has.
    obtain ⟨startTicks, hticks⟩ : ∃ startTicks, ∀ o, w.lookup (ownerFile request.name) = some (.owner o) →
        startTicks ≠ o.processStartTicks := by
      rcases h.gone with hnone | ⟨o, ho, -⟩
      · refine ⟨"0", fun o ho => ?_⟩
        rw [hnone] at ho
        cases ho
      · by_cases hzero : o.processStartTicks = "0"
        · refine ⟨"1", fun o' ho' => ?_⟩
          rw [ho] at ho'
          cases ho'
          rw [hzero]
          decide
        · refine ⟨"0", fun o' ho' => ?_⟩
          rw [ho] at ho'
          cases ho'
          exact Ne.symm hzero
    refine ⟨{ w.died pid with processes := (pid, startTicks) :: (w.died pid).processes }, startTicks,
      .head (.died hpid) (.single (.started hdied)), ⟨hguard _ hnobody, h.gone.imp_right ?_⟩, h.alive.canonical,
      List.lookup_cons_self⟩
    rintro ⟨o, ho, hprobe⟩
    refine ⟨o, ho, ?_⟩
    rw [World.probe] at hprobe ⊢
    by_cases hboot : w.bootId = o.bootId
    · rw [if_neg (by simpa using hboot)] at hprobe
      rw [if_neg (by simpa [World.died] using hboot)]
      by_cases hsame : o.call.pid = pid
      · subst hsame
        rw [List.lookup_cons_self]
        dsimp only
        rw [if_neg (hticks o ho)]
        exact .inr rfl
      · rw [List.lookup_cons, beq_false_of_ne hsame,
          show (w.died pid).processes.lookup o.call.pid = w.processes.lookup o.call.pid
          from lookup_filter_ne hsame]
        exact hprobe
    · rw [if_pos (by simpa [World.died] using hboot)]
      exact .inr rfl

/-- A lock that the call left nothing of can be had by every process. -/
theorem Outside.recovers (h : Outside request owner w) : Recovers request owner w := by
  refine .inr fun c _ _ => ?_
  obtain ⟨w₁, h₁, hsettled⟩ := h.exists_settled
  obtain ⟨w₂, h₂, hsettled, hfree⟩ := hsettled.exists_unguarded
  obtain ⟨w₃, startTicks, h₃, hfree, hboot, hprocess⟩ := hsettled.exists_started hfree c.pid
  obtain ⟨w₄, hexec, -⟩ := exec_acquireLifecycleLock request hboot hprocess hfree 0
  exact ⟨w₃, w₄, (h₁.trans h₂).trans h₃, hexec⟩

end Recovery

/-! ## Calls that throw -/

/-- After a call that throws, the lock can be had again exactly when the call had not renamed its record into place, or
had removed it. -/
theorem failed_calls_recover (request : Request) (owner : Owner) :
    (∀ rounds w w' t failure, Outside request owner w →
      Reaches (logged (performsAmong request owner)) (acquireLifecycleLock request owner.call rounds) (w, [])
        (throw failure) (w', t) → (Recovers request owner w' ↔ ¬ Done (publication request owner) t)) ∧
    (∀ w w' t failure, Holding request owner w →
      Reaches (logged performs) (release request owner.call) (w, []) (throw failure) (w', t) →
        (Recovers request owner w' ↔ Done (removal request) t)) := by
  have hnothing : ∀ key, ¬ Done key [] := fun _ => List.not_mem_nil
  constructor
  · intro rounds w w' t failure hw hr
    have hend :=
      ((acquires_acquireLifecycleLock (s := (w, [])) rounds ⟨hw, iff_of_false (hnothing _) id⟩).reaches trivial hr).2
    rcases hend with ⟨houtside, hdone⟩ | ⟨hwedged, hdone⟩
    · exact iff_of_true houtside.recovers hdone.mp
    · exact iff_of_false hwedged.not_recovers fun hnot => hnot (hdone.mpr trivial)
  · intro w w' t failure hw hr
    have hamong : Reaches (logged (performsAmong request owner)) (release request owner.call) (w, []) (throw failure)
      (w', t) :=
      hr.imp fun _ _ _ _ h => ⟨⟨_, .inl rfl, h.1⟩, h.2⟩
    have hend := ((acquires_release hw (hnothing _)).reaches trivial hamong).2
    rcases hend with ⟨houtside, hdone⟩ | ⟨hwedged, hdone⟩
    · exact iff_of_true houtside.recovers (hdone.mpr trivial)
    · exact iff_of_false hwedged.not_recovers hdone.mp

namespace Sample

/-- One operation fails. -/
def stepFailing (operation : Operation) (e : Effect) (w : World) : Answer e × World :=
  match e with
  | .operate operation' =>
    if operation' = operation then (.error (.other "EIO"), w.failed operation') else step (.operate operation') w
  | e => step e w

theorem performs_stepFailing (operation : Operation) (e : Effect) (w : World) :
    performs e w (stepFailing operation e w).1 (stepFailing operation e w).2 := by
  cases e with
  | operate operation' =>
    rw [stepFailing]
    split
    · exact .inr (.operation _ _)
    · exact .inl rfl
  | _ => exact .inl rfl

/-- The reconciliation lock of a workspace, its owner, and a directory where nothing was ever locked. -/
def request : Request := .workspace "a"

def owner : Owner := ⟨⟨1, List.replicate 43 'a'⟩, "00000000-0000-0000-0000-000000000000", "1"⟩

def world : World := ⟨[], [], [], owner.bootId, [(1, "1")]⟩

theorem outside_world : Outside request owner world := by
  refine ⟨⟨⟨by decide +kernel, rfl, rfl⟩, nofun, nofun⟩, nofun, nofun⟩

/-- Where the lock was released, its guard file is left. -/
def released : World := { world with files := [(guardFile request.name, .text)] }

theorem outside_released : Outside request owner released := by
  have hnone : released.lookup (ownerFile request.name) = none := by decide +kernel
  refine ⟨⟨⟨by decide +kernel, rfl, rfl⟩, nofun, fun content h => ?_⟩, nofun, nofun⟩
  rw [hnone] at h
  cases h

/-- The call has the lock. -/
def held : World :=
  { released with
    files := released.files ++ [(ownerFile request.name, .owner owner)]
    guards := [(guardFile request.name, owner.call)]
    active := [owner.call] }

theorem holding_held : Holding request owner held :=
  ⟨⟨by decide +kernel, rfl, rfl⟩, List.mem_singleton_self _, by decide +kernel, fun c => by simp [Guards, held]⟩

def failureOf : Except Failure Unit → Option Failure
  | .ok _ => none
  | .error failure => some failure

/-- A program in which one operation fails. -/
theorem reaches_of_exec (operation : Operation) {p : Lock Unit} {failure : Failure} {w w' : World}
    (h : failureOf (p.exec (stepFailing operation) w).1 = some failure ∧ (p.exec (stepFailing operation) w).2 = w') :
    Reaches performs p w (throw failure) w' := by
  have hr := reaches_exec (performs_stepFailing operation) p w
  generalize p.exec (stepFailing operation) w = result at h hr
  obtain ⟨failure' | _, w'⟩ := result
  · obtain ⟨hfailure, rfl⟩ := h
    cases hfailure
    exact hr
  · cases h.1

/-- A guard file that cannot be opened: the record was not renamed, and the lock can be had. A directory that cannot be
opened after the record was removed: the lock can be had, too. -/
theorem guard_failure_recovers :
    (Outside request owner world ∧ ∃ t,
      Reaches (logged (performsAmong request owner)) (acquireLifecycleLock request owner.call 0)
      (world, []) (throw (.io (.other "EIO"))) (world, t) ∧ ¬ Done (publication request owner) t) ∧
    (Holding request owner held ∧ ∃ w t, Reaches (logged performs) (release request owner.call) (held, [])
      (throw (.io (.other "EIO"))) (w, t) ∧ Done (removal request) t) := by
  have hacquire : Reaches performs (acquireLifecycleLock request owner.call 0) world (throw (.io (.other "EIO"))) world :=
    reaches_of_exec (.openGuard (guardFile request.name)) (by decide +kernel)
  have hrelease : Reaches performs (release request owner.call) held (throw (.io (.other "EIO")))
      released := reaches_of_exec .openDirectory (by decide +kernel)
  obtain ⟨t, ht⟩ := hacquire.logged []
  obtain ⟨t', ht'⟩ := hrelease.logged []
  have hamong : Reaches (logged (performsAmong request owner)) (acquireLifecycleLock request owner.call 0) (world, [])
      (throw (.io (.other "EIO"))) (world, t) := ht.imp fun _ _ _ _ h => ⟨⟨_, .inl rfl, h.1⟩, h.2⟩
  refine ⟨⟨outside_world, t, hamong, ?_⟩, holding_held, _, t', ht', ?_⟩
  · exact ((failed_calls_recover request owner).1 0 _ _ _ _ outside_world hamong).mp outside_world.recovers
  · exact ((failed_calls_recover request owner).2 _ _ _ _ holding_held ht').mp outside_released.recovers

/-- What is left where the directory cannot be opened after the rename. -/
def wedged : World :=
  ⟨[(guardFile request.name, .text), (ownerFile request.name, .owner owner)], [], [], owner.bootId, [(1, "1")]⟩

/-- The record of the process keeps everyone out, and the process itself. -/
theorem sync_failure_wedges : ¬ ∀ (request : Request) (owner : Owner) (rounds : Nat) (w w' : World) (failure : Failure),
    Outside request owner w →
    Reaches performs (acquireLifecycleLock request owner.call rounds) w (throw failure) w' → Recovers request owner w' := by
  intro h
  have hwedged : Wedged request owner wedged := by
    refine ⟨⟨⟨by decide +kernel, rfl, rfl⟩, nofun, ?_⟩, nofun⟩
    decide +kernel
  exact hwedged.not_recovers (h request owner 0 world wedged (.io (.other "EIO")) outside_world
    (reaches_of_exec .openDirectory (by decide +kernel)))

end Sample

end Dim.Locks
