/-
What an attempt comes to where no operation fails: it takes the guard of a free lock, sweeps what earlier calls have
left, publishes its owner record and hands out the lock.
-/
import DimProofs.Locks.Lock

namespace Dim.Locks

open Effectful

section Exec

variable {w : World} {name : List Char} {c : Call} {owner : Owner}

theorem exec_operate {operation : Operation} (h : w.refusal operation = none) :
    (operate operation).exec step w = (.ok (), w.operated operation) := by
  rw [operate, exec_bind]
  simp only [call, Program.effect, Program.exec, step, h, answered]
  rfl

theorem exec_readProcessStat (pid : Nat) : (readProcessStat pid).exec step w = (.ok (match w.processes.lookup pid with
    | some startTicks => .found startTicks
    | none => .missing), w) := by
  rw [readProcessStat, exec_bind]
  simp only [call, Program.effect, Program.exec, step]
  cases w.processes.lookup pid <;> rfl

theorem exec_currentProcessIdentity {pid : Nat} {startTicks : String} (hboot : canonicalUuid w.bootId = true)
    (h : w.processes.lookup pid = some startTicks) :
    (currentProcessIdentity pid).exec step w = (.ok (w.bootId, startTicks), w) := by
  have hbootId : (call .readBootId >>= answered).exec step w = (.ok w.bootId, w) := rfl
  rw [currentProcessIdentity, exec_bind, hbootId]
  dsimp only
  rw [exec_bind, exec_readProcessStat, h]
  dsimp only
  rw [if_pos hboot]
  rfl

/-- What a process finds out about the process of an owner. -/
def World.probe (w : World) (owner : Owner) : Probe :=
  if w.bootId ≠ owner.bootId then .reused
  else match w.processes.lookup owner.call.pid with
    | none => .dead
    | some startTicks => if startTicks = owner.processStartTicks then .live else .reused

theorem exec_probeProcess (owner : Owner) : (probeProcess owner).exec step w = (.ok (w.probe owner), w) := by
  rw [probeProcess, exec_bind]
  simp only [call, Program.effect, Program.exec, step, World.probe]
  split
  · rfl
  · rw [probeStat, exec_tryCatch, exec_bind, exec_readProcessStat]
    cases w.processes.lookup owner.call.pid <;> rfl

theorem exec_readOwner {file : FileName} : (readOwner file).exec step w = (.ok (match w.lookup file with
    | none => .missing
    | some (.owner owner) => .valid owner
    | some .json => .malformed "record fields are invalid"
    | some .text => .malformed "record is not valid JSON"), w) := by
  rw [readOwner, exec_bind]
  simp only [call, Program.effect, Program.exec, step]
  rcases w.lookup file with _ | _ | _ | _ <;> rfl

theorem exec_syncDirectory : syncDirectory.exec step w = (.ok (), w) := by
  rw [syncDirectory, exec_bind, exec_operate rfl]
  dsimp only
  rw [exec_tryFinally, exec_operate rfl, exec_operate rfl]
  rfl

/-- The directory after the removal of the listed entries that begin with the stem. -/
def World.swept (stem : FileName) : List FileName → World → World
  | [], w => w
  | entry :: rest, w => if stem.isPrefixOf entry then World.swept stem rest (w.remove entry) else World.swept stem rest w

theorem exec_removeEntries (stem : FileName) : ∀ (entries : List FileName) (w : World),
    (removeEntries stem entries).exec step w = (.ok (), w.swept stem entries)
  | [], _ => rfl
  | entry :: rest, w => by
    rw [removeEntries, World.swept]
    split
    · rw [exec_bind, exec_operate rfl]
      exact exec_removeEntries stem rest _
    · exact exec_removeEntries stem rest w

theorem exec_tryAcquireKernelGuard (h : w.guard (guardFile name) = none) :
    (tryAcquireKernelGuard name c).exec step w =
      (.ok true, (w.touch (guardFile name)).locked (guardFile name) c) := by
  have hguard : (w.touch (guardFile name)).guard (guardFile name) = none := by
    rw [World.guard, World.guards_touch]
    exact h
  rw [tryAcquireKernelGuard, exec_bind, exec_operate rfl]
  dsimp only
  rw [exec_bind, exec_operate rfl]
  dsimp only [World.operated]
  rw [exec_bind]
  simp only [call, Program.effect, Program.exec, step, hguard]
  rfl

end Exec

/-! ## Publication -/

section Publication

variable {w : World} {name : List Char} {owner : Owner} {file stem : FileName}

/-- What a change of files leaves alone. -/
structure Beside (stem : FileName) (w w' : World) : Prop where
  lookup : ∀ file, ¬ stem <+: file → w'.lookup file = w.lookup file
  guard : ∀ file, ¬ stem <+: file → w'.guard file = w.guard file
  active : w'.active = w.active
  bootId : w'.bootId = w.bootId
  processes : w'.processes = w.processes

theorem Beside.refl (stem : FileName) (w : World) : Beside stem w w := ⟨fun _ _ => rfl, fun _ _ => rfl, rfl, rfl, rfl⟩

theorem Beside.trans {w' w'' : World} (h : Beside stem w w') (h' : Beside stem w' w'') : Beside stem w w'' where
  lookup file hfile := (h'.lookup file hfile).trans (h.lookup file hfile)
  guard file hfile := (h'.guard file hfile).trans (h.guard file hfile)
  active := h'.active.trans h.active
  bootId := h'.bootId.trans h.bootId
  processes := h'.processes.trans h.processes

theorem beside_remove (h : stem <+: file) : Beside stem w (w.remove file) where
  lookup other hother := by
    rw [World.lookup_remove, if_neg]
    rintro rfl
    exact hother h
  guard other hother := by
    rw [World.guard_remove, if_neg]
    rintro rfl
    exact hother h
  active := rfl
  bootId := rfl
  processes := rfl

theorem beside_put {content : Content} (h : stem <+: file) : Beside stem w (w.put file content) where
  lookup other hother := by
    rw [World.lookup_put, if_neg]
    rintro rfl
    exact hother h
  guard _ _ := rfl
  active := rfl
  bootId := rfl
  processes := rfl

theorem beside_swept : ∀ (entries : List FileName) (w : World), Beside stem w (w.swept stem entries)
  | [], w => .refl stem w
  | entry :: rest, w => by
    rw [World.swept]
    split
    · rename_i h
      exact (beside_remove (List.isPrefixOf_iff_prefix.mp h)).trans (beside_swept rest _)
    · exact beside_swept rest w

/-- The sweep removes every listed entry with the stem. -/
theorem lookup_swept (hstem : stem <+: file) : ∀ (entries : List FileName) (w : World),
    (file ∈ entries ∨ w.lookup file = none) → (w.swept stem entries).lookup file = none
  | [], _, h => h.resolve_left List.not_mem_nil
  | entry :: rest, w, h => by
    rw [World.swept]
    split
    · refine lookup_swept hstem rest _ ?_
      rcases h with hmem | hnone
      · rcases List.mem_cons.mp hmem with rfl | hmem
        · exact .inr (by rw [World.lookup_remove, if_pos rfl])
        · exact .inl hmem
      · refine .inr ?_
        rw [World.lookup_remove]
        split
        · rfl
        · exact hnone
    · rename_i hother
      refine lookup_swept hstem rest w (h.imp_left fun hmem => ?_)
      rcases List.mem_cons.mp hmem with rfl | hmem
      · exact absurd (List.isPrefixOf_iff_prefix.mpr hstem) hother
      · exact hmem

theorem not_stem_ownerFile : ¬ stagingStem name <+: ownerFile name := by
  intro h
  have hlength := h.length_le
  rw [stagingStem_length, ownerFile, List.length_append] at hlength
  exact absurd (Nat.add_le_add_iff_left.mp hlength) (by decide)

theorem not_stem_guardFile : ¬ stagingStem name <+: guardFile name := by
  intro h
  have hlength := h.length_le
  simp [stagingStem, ownerFile, guardFile] at hlength

theorem stem_stagingFile_self (name : List Char) (nonce : Nonce) : stagingStem name <+: stagingFile name nonce :=
    List.prefix_append _ _

/-- An owner record is published. -/
structure Published (name : List Char) (owner : Owner) (w w' : World) : Prop where
  record : w'.lookup (ownerFile name) = some (.owner owner)
  guard : w'.guard (guardFile name) = w.guard (guardFile name)
  active : w'.active = w.active
  bootId : w'.bootId = w.bootId
  processes : w'.processes = w.processes

theorem exec_publishOwner (name : List Char) (owner : Owner) (w : World) :
    ∃ w', (publishOwner name owner).exec step w = (.ok (), w') ∧ Published name owner w w' := by
  let temporary := stagingFile name owner.call.nonce
  let swept := w.swept (stagingStem name) (w.files.map (·.1))
  have hstem : stagingStem name <+: temporary := stem_stagingFile_self name _
  have hfree : swept.lookup temporary = none := by
    refine lookup_swept hstem _ w ?_
    by_cases hmem : temporary ∈ w.files.map (·.1)
    · exact .inl hmem
    · refine .inr (List.lookup_eq_none_iff.mpr fun entry hentry => ?_)
      simp only [bne_iff_ne, ne_eq]
      intro heq
      exact hmem (heq ▸ List.mem_map_of_mem hentry)
  let staged := (swept.put temporary .text).put temporary (.owner owner)
  have hstaged : staged.lookup temporary = some (.owner owner) := by rw [World.lookup_put, if_pos rfl]
  let renamed := (staged.remove temporary).put (ownerFile name) (.owner owner)
  refine ⟨renamed.remove temporary, ?_, ?_⟩
  · have hreaddir : (call .readdir >>= answered).exec step w = (.ok (w.files.map (·.1)), w) := rfl
    rw [publishOwner, exec_bind, hreaddir]
    dsimp only
    rw [exec_bind, exec_removeEntries]
    dsimp only
    rw [exec_bind, exec_operate (by rw [World.refusal, if_neg]; rw [hfree]; exact Bool.false_ne_true)]
    have hwritten : (do
        operate (.writeFile temporary owner)
        operate (.sync temporary) : Lock Unit).exec step (swept.put temporary .text) = (.ok (), staged) := by
      rw [exec_bind, exec_operate rfl]
      dsimp only
      rw [exec_operate rfl]
      simp only [World.operated, World.write, World.lookup_put, if_pos, Option.isSome_some, staged]
    have hrenamed : (do
        operate (.rename temporary (ownerFile name))
        syncDirectory : Lock Unit).exec step staged = (.ok (), renamed) := by
      rw [exec_bind, exec_operate (by rw [World.refusal, if_pos]; rw [hstaged]; rfl)]
      dsimp only
      rw [exec_syncDirectory]
      simp only [World.operated, World.rename, hstaged, renamed]
    dsimp only [World.operated]
    rw [exec_bind, exec_tryFinally, hwritten, exec_operate rfl]
    dsimp only [World.operated]
    rw [exec_tryFinally, hrenamed, exec_operate rfl]
    rfl
  · have hbeside : Beside (stagingStem name) w (staged.remove temporary) :=
      ((beside_swept _ w).trans ((beside_put hstem).trans (beside_put hstem))).trans (beside_remove hstem)
    have hguards : (renamed.remove temporary).guard (guardFile name) = (staged.remove temporary).guard (guardFile name) :=
      (beside_remove (w := renamed) hstem).guard _ not_stem_guardFile
    refine ⟨?_, hguards.trans (hbeside.guard _ not_stem_guardFile), hbeside.active, hbeside.bootId, hbeside.processes⟩
    rw [(beside_remove (w := renamed) hstem).lookup _ not_stem_ownerFile, World.lookup_put, if_pos rfl]

end Publication

/-! ## A lock that is free -/

section Free

variable {w : World} {request : Request} {c : Call}

/-- Nobody has the guard, and no owner record stands but that of a process that is gone. -/
structure World.Free (w : World) (name : List Char) : Prop where
  guard : w.guard (guardFile name) = none
  owner : w.lookup (ownerFile name) = none ∨
    ∃ owner, w.lookup (ownerFile name) = some (.owner owner) ∧ (w.probe owner = .dead ∨ w.probe owner = .reused)

/-- A call holds its lock: its record and its guard stand, and its `release` is active. -/
structure Holds (request : Request) (owner : Owner) (w : World) : Prop where
  record : w.lookup (ownerFile request.name) = some (.owner owner)
  guard : w.guard (guardFile request.name) = some owner.call
  active : owner.call ∈ w.active

theorem lookup_touch_ne {file other : FileName} (h : other ≠ file) : (w.touch file).lookup other = w.lookup other := by
  rw [World.touch]
  split
  · rfl
  · rw [World.lookup_put, if_neg h]

theorem ownerFile_ne_guardFile {a b : List Char} : ownerFile a ≠ guardFile b := by
  intro h
  have hend := congrArg List.getLast? h
  simp [ownerFile, guardFile] at hend

/-- The world of an attempt that has taken the guard. -/
def World.guarded (w : World) (name : List Char) (c : Call) : World :=
  (w.touch (guardFile name)).locked (guardFile name) c

theorem World.lookup_guarded {name : List Char} : (w.guarded name c).lookup (ownerFile name) = w.lookup (ownerFile name) :=
  (lookup_touch_ne ownerFile_ne_guardFile).trans (lookup_touch_ne ownerFile_ne_guardFile)

theorem World.guard_guarded {name : List Char} : (w.guarded name c).guard (guardFile name) = some c := by
  rw [guarded, guard, locked, List.lookup_cons_self]

@[simp] theorem World.active_touch {file : FileName} : (w.touch file).active = w.active := by
  rw [touch]
  split <;> rfl

@[simp] theorem World.processes_touch {file : FileName} : (w.touch file).processes = w.processes := by
  rw [touch]
  split <;> rfl

@[simp] theorem World.bootId_touch {file : FileName} : (w.touch file).bootId = w.bootId := by
  rw [touch]
  split <;> rfl

theorem World.probe_guarded {name : List Char} (owner : Owner) : (w.guarded name c).probe owner = w.probe owner := by
  simp [probe, guarded, locked]

/-- Where the lock is free, an attempt takes it over. -/
theorem exec_attemptOwner (request : Request) (owner : Owner) (w : World) (h : w.lookup (ownerFile request.name) = none ∨
    ∃ o, w.lookup (ownerFile request.name) = some (.owner o) ∧ (w.probe o = .dead ∨ w.probe o = .reused)) :
    ∃ w', (attemptOwner request owner).exec step w = (.ok none, w') ∧ Published request.name owner w w' := by
  obtain ⟨w', hpublish, hw'⟩ := exec_publishOwner request.name owner w
  have hpublished : (publishOwner request.name owner >>= fun _ => pure none).exec step w =
      (.ok (none : Option String), w') := by
    rw [exec_bind, hpublish]
    rfl
  refine ⟨w', ?_, hw'⟩
  rw [attemptOwner, exec_bind, exec_readOwner]
  rcases h with hnone | ⟨o, howner, hprobe⟩
  · rw [hnone]
    exact hpublished
  · rw [howner]
    dsimp only
    rw [exec_bind, exec_probeProcess]
    rcases hprobe with hprobe | hprobe
    · rw [hprobe]
      exact hpublished
    · rw [hprobe]
      exact hpublished

/-- A process acquires a free lock. -/
theorem exec_acquireLifecycleLock (request : Request) {startTicks : String} (hboot : canonicalUuid w.bootId = true)
    (hprocess : w.processes.lookup c.pid = some startTicks) (hfree : w.Free request.name) (rounds : Nat) :
    ∃ w', (acquireLifecycleLock request c rounds).exec step w = (.ok (), w') ∧
      Holds request ⟨c, w.bootId, startTicks⟩ w' := by
  let owner : Owner := ⟨c, w.bootId, startTicks⟩
  obtain ⟨w', hattempt, hw'⟩ := exec_attemptOwner request owner (w.guarded request.name c) (by
    rw [World.lookup_guarded]
    refine hfree.owner.imp_right ?_
    rintro ⟨o, howner, hprobe⟩
    exact ⟨o, howner, by rw [World.probe_guarded]; exact hprobe⟩)
  refine ⟨{ w' with active := c :: w'.active }, ?_, hw'.record, ?_, List.mem_cons_self⟩
  · rw [acquireLifecycleLock, exec_bind, exec_currentProcessIdentity hboot hprocess]
    dsimp only
    rw [exec_bind, exec_operate rfl]
    dsimp only [World.operated]
    have hround : (attempt request owner "lock is held by another process").exec step w = (.ok none, w') := by
      rw [attempt, exec_bind, exec_tryAcquireKernelGuard hfree.guard]
      dsimp only
      rw [if_pos rfl, unlessTransferred, exec_bind, exec_tryCatch]
      rw [World.guarded] at hattempt
      rw [hattempt]
      rfl
    rw [attempts.eq_def, exec_bind, hround]
    rfl
  · exact hw'.guard.trans World.guard_guarded

end Free

end Dim.Locks
