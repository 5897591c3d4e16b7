/-
What a call of `acquireLifecycleLock` or `release` that throws leaves behind. As long as its owner record was not
renamed into place, or was removed again, the lock is as free as before; otherwise the record of a live process stands
without a holder, and no attempt ever gets past it.
-/
import DimProofs.Locks.Attempt
import DimProofs.Locks.System

namespace Dim.Locks

open Effectful Relation

/-! ## States of a lock -/

section States

variable (request : Request) (owner : Owner) (w : World)

/-- A call has the guard of the lock. -/
def Guards (c : Call) : Prop := (guardFile request.name, c) ∈ w.guards

/-- The process of a call is alive. -/
structure Alive : Prop where
  canonical : canonicalUuid w.bootId = true
  boot : w.bootId = owner.bootId
  process : w.processes.lookup owner.call.pid = some owner.processStartTicks

/-- An owner that goes away: its process is another one or is gone, or its call holds the lock or is about to. -/
def Passes (o : Owner) : Prop :=
  o.call.nonce ≠ owner.call.nonce ∧ (o.call.pid ≠ owner.call.pid ∨ w.probe o = .dead ∨ w.probe o = .reused ∨
    o.call ∈ w.active ∨ Guards request w o.call)

/-- Only owners stand in the record that go away. -/
structure Open : Prop where
  alive : Alive owner w
  inactive : owner.call ∉ w.active
  record : ∀ content, w.lookup (ownerFile request.name) = some content → ∃ o, content = .owner o ∧ Passes request owner w o

/-- The call has nothing of the lock, and at most one other has the guard. -/
structure Outside : Prop extends Open request owner w where
  outside : ∀ c, Guards request w c → c.nonce ≠ owner.call.nonce
  exclusive : ∀ c c', Guards request w c → Guards request w c' → c = c'

/-- The call has the guard, alone. -/
structure Inside : Prop extends Open request owner w where
  inside : ∀ c, Guards request w c ↔ c = owner.call

/-- The record of the call stands, and its `release` was not handed out or was called. -/
structure Recorded : Prop where
  alive : Alive owner w
  inactive : owner.call ∉ w.active
  record : w.lookup (ownerFile request.name) = some (.owner owner)

/-- The call has the guard, alone, and its record stands. -/
structure Taken : Prop extends Recorded request owner w where
  inside : ∀ c, Guards request w c ↔ c = owner.call

/-- The record of a live process without a holder. -/
structure Wedged : Prop extends Recorded request owner w where
  outside : ¬ Guards request w owner.call

end States

/-- What is seen of a lock stays the same. -/
structure Same (name : List Char) (w w' : World) : Prop where
  record : w'.lookup (ownerFile name) = w.lookup (ownerFile name)
  guards : ∀ c, (guardFile name, c) ∈ w'.guards ↔ (guardFile name, c) ∈ w.guards
  active : w'.active = w.active
  bootId : w'.bootId = w.bootId
  processes : w'.processes = w.processes

section Same

variable {request : Request} {name : List Char} {owner : Owner} {c : Call} {w w' : World}

theorem Same.refl (name : List Char) (w : World) : Same name w w := ⟨rfl, fun _ => Iff.rfl, rfl, rfl, rfl⟩

theorem Same.alive (h : Same name w w') (hw : Alive owner w) : Alive owner w' := by
  obtain ⟨hcanonical, hboot, hprocess⟩ := hw
  exact ⟨h.bootId ▸ hcanonical, h.bootId ▸ hboot, h.processes ▸ hprocess⟩

theorem Same.probe (h : Same name w w') (o : Owner) : w'.probe o = w.probe o := by
  rw [World.probe, World.probe, h.bootId, h.processes]

theorem Same.open (h : Same request.name w w') (hw : Open request owner w) : Open request owner w' := by
  refine ⟨h.alive hw.alive, h.active ▸ hw.inactive, fun content hcontent => ?_⟩
  obtain ⟨o, rfl, hnonce, hpasses⟩ := hw.record content (h.record ▸ hcontent)
  refine ⟨o, rfl, hnonce, ?_⟩
  rw [h.probe, h.active, Guards, h.guards]
  exact hpasses

theorem Same.outside (h : Same request.name w w') (hw : Outside request owner w) : Outside request owner w' :=
  ⟨h.open hw.toOpen, fun c hc => hw.outside c ((h.guards c).mp hc), fun c c' hc hc' =>
    hw.exclusive c c' ((h.guards c).mp hc) ((h.guards c').mp hc')⟩

theorem Same.inside (h : Same request.name w w') (hw : Inside request owner w) : Inside request owner w' :=
  ⟨h.open hw.toOpen, fun c => (h.guards c).trans (hw.inside c)⟩

theorem Same.recorded (h : Same request.name w w') (hw : Recorded request owner w) : Recorded request owner w' :=
  ⟨h.alive hw.alive, h.active ▸ hw.inactive, h.record.trans hw.record⟩

theorem Same.taken (h : Same request.name w w') (hw : Taken request owner w) : Taken request owner w' :=
  ⟨h.recorded hw.toRecorded, fun c => (h.guards c).trans (hw.inside c)⟩

variable {file : FileName}

theorem guards_remove (hguard : guardFile name ≠ file) :
    (guardFile name, c) ∈ (w.remove file).guards ↔ (guardFile name, c) ∈ w.guards := by
  constructor
  · exact fun h => (List.mem_filter.mp h).1
  · exact fun h => List.mem_filter.mpr ⟨h, by simpa using hguard⟩

/-- A change of a file that is neither the record nor the guard. -/
theorem same_remove (howner : ownerFile name ≠ file) (hguard : guardFile name ≠ file) :
    Same name w (w.remove file) where
  record := by rw [World.lookup_remove, if_neg howner]
  guards _ := guards_remove hguard
  active := rfl
  bootId := rfl
  processes := rfl

theorem same_put {content : Content} (howner : ownerFile name ≠ file) : Same name w (w.put file content) where
  record := by rw [World.lookup_put, if_neg howner]
  guards _ := Iff.rfl
  active := rfl
  bootId := rfl
  processes := rfl

theorem same_write {content : Content} (howner : ownerFile name ≠ file) :
    Same name w (w.write file content) := by
  rw [World.write]
  split
  · exact same_put howner
  · exact .refl name w

theorem same_touch {file : FileName} (howner : ownerFile name ≠ file) : Same name w (w.touch file) := by
  rw [World.touch]
  split
  · exact .refl name w
  · exact same_put howner

theorem ne_of_stem {file : FileName} (h : stagingStem name <+: file) : ownerFile name ≠ file ∧ guardFile name ≠ file := by
  constructor
  · rintro rfl
    exact not_stem_ownerFile h
  · rintro rfl
    exact not_stem_guardFile h

/-- A quiet effect shows nothing of the lock. -/
theorem same_of_quiet {e : Effect} {a : Answer e} (he : Quiet name c e) (h : performs e w a w') : Same name w w' := by
  have hstaging := ne_of_stem (stem_stagingFile_self name c.nonce)
  rcases h with hstep | hfails
  · obtain ⟨-, rfl⟩ := Prod.mk.inj hstep
    cases he with
    | openGuard => exact same_touch ownerFile_ne_guardFile
    | sweep hstem => exact same_remove (ne_of_stem hstem).1 (ne_of_stem hstem).2
    | create =>
      dsimp only
      split
      · exact .refl name w
      · exact same_put hstaging.1
    | write => exact same_write hstaging.1
    | readFile =>
      dsimp only
      split <;> exact .refl name w
    | readStat =>
      dsimp only
      split <;> exact .refl name w
    | _ => exact .refl name w
  · cases he with
    | write =>
      cases hfails
      exact same_write hstaging.1
    | _ => cases hfails <;> exact .refl name w

end Same

/-! ## A call of `acquireLifecycleLock` -/

/-- What was done, with its answers. -/
abbrev Trace := List ((e : Effect) × Answer e)

/-- The rename that puts the owner record into place. -/
abbrev publication (request : Request) (owner : Owner) : Operation :=
  .rename (stagingFile request.name owner.call.nonce) (ownerFile request.name)

/-- The removal of the owner record. -/
abbrev removal (request : Request) : Operation := .removeOwner (ownerFile request.name)

/-- The operation was done. -/
def Done (operation : Operation) (t : Trace) : Prop := ⟨.operate operation, .ok ()⟩ ∈ t

/-- An effect of the call; before it tries the guard, others may have done anything but leave a wedge. -/
def performsAmong (request : Request) (owner : Owner) (e : Effect) (w : World) (a : Answer e) (w' : World) : Prop :=
  ∃ w₁, (w₁ = w ∨ (∃ file c, e = .flock file c) ∧ Outside request owner w₁) ∧ performs e w₁ a w'

section Acquisition

variable {request : Request} {owner : Owner} {α : Type}

variable {e : Effect} {t : Trace}

/-- An effect that was added to a trace. -/
theorem mem_trace {e' : Effect} {a : Answer e} {a' : Answer e'} (h : e ≠ e') :
    ⟨e, a⟩ ∈ t ++ [⟨e', a'⟩] ↔ ⟨e, a⟩ ∈ t := by
  constructor
  · intro hmem
    rcases List.mem_append.mp hmem with hmem | hmem
    · exact hmem
    · exact absurd (congrArg Sigma.fst (List.mem_singleton.mp hmem)) h
  · exact fun hmem => List.mem_append_left _ hmem

/-- Where the call is: what holds of the world, and whether an operation was done. -/
def At (key : Operation) (done : Prop) (K : World → Prop) (s : World × Trace) : Prop :=
  K s.1 ∧ (Done key s.2 ↔ done)

abbrev Acquires (request : Request) (owner : Owner) (p : Lock α) (Q : Except Failure α → World × Trace → Prop)
    (s : World × Trace) : Prop :=
  Safe (logged (performsAmong request owner)) (fun _ => True) p Q s

variable {K : World → Prop} {done : Prop} {key : Operation} {s : World × Trace}

/-- Quiet programs leave the call where it is. -/
theorem acquires_quiet {name : List Char} {c : Call} {p : Lock α}
    (hp : p.Every (Quiet name c)) (hkey : ¬ Quiet name c (.operate key))
    (hK : ∀ w w', Same name w w' → K w → K w') (hs : At key done K s) :
    Acquires request owner p (fun _ => At key done K) s := by
  refine Safe.imp (fun _ _ => trivial) (fun _ _ h => h) (hp.safe ?_ hs)
  rintro e ⟨w, t⟩ a ⟨w', t'⟩ he ⟨⟨w₁, rfl | ⟨⟨file, c, rfl⟩, -⟩, hperforms⟩, ht⟩ ⟨hw, ht'⟩
  · dsimp only at ht
    subst ht
    exact ⟨hK _ _ (same_of_quiet he hperforms) hw, (mem_trace fun heq => hkey (by rw [heq]; exact he)).trans ht'⟩
  · cases he

theorem acquires_around {p : Lock α}
    (hp : p.Every (Quiet request.name owner.call)) (hK : ∀ w w', Same request.name w w' → K w → K w')
    (hs : At (publication request owner) done K s) :
    Acquires request owner p (fun _ => At (publication request owner) done K) s :=
  acquires_quiet hp nofun hK hs

/-- An effect of the call, which others do not disturb. -/
theorem acquires_effect {β : Type} {f : Answer e → Lock β} {Q : Except Failure β → World × Trace → Prop}
    {w : World} (hflock : ∀ file c, e ≠ .flock file c)
    (h : ∀ a w', performs e w a w' → Acquires request owner (f a) Q (w', t ++ [⟨e, a⟩])) :
    Acquires request owner (call e >>= f) Q (w, t) := by
  rintro a ⟨w', t'⟩ ⟨⟨w₁, rfl | ⟨⟨file, c, he⟩, -⟩, hperforms⟩, ht⟩
  · dsimp only at ht
    subst ht
    exact ⟨trivial, h a w' hperforms⟩
  · exact absurd he (hflock file c)

/-- An operation of the call, which others do not disturb. -/
theorem acquires_operate {operation : Operation} {Q : Except Failure Unit → World × Trace → Prop} {w : World}
    (hok : w.refusal operation = none → Q (.ok ()) (w.operated operation, t ++ [⟨.operate operation, .ok ()⟩]))
    (herror : ∀ code, Q (.error (.io code)) (w.failed operation, t ++ [⟨.operate operation, .error code⟩])) :
    Acquires request owner (operate operation) Q (w, t) := by
  rintro a ⟨w', t'⟩ ⟨⟨w₁, rfl | ⟨⟨file, c, h⟩, -⟩, hperforms⟩, rfl⟩
  · refine ⟨trivial, ?_⟩
    rcases hperforms with hstep | hfails
    · simp only [step] at hstep
      split at hstep
      · obtain ⟨rfl, rfl⟩ := Prod.mk.inj hstep
        exact herror _
      · rename_i hrefusal
        obtain ⟨rfl, rfl⟩ := Prod.mk.inj hstep
        exact hok hrefusal
    · cases hfails
      exact herror _
  · cases h

/-- What an attempt that throws leaves: nothing, or its record. -/
def Left (request : Request) (owner : Owner) (K K' : World → Prop) (s : World × Trace) : Prop :=
  At (publication request owner) False K s ∨ At (publication request owner) True K' s

theorem at_append {K' : World → Prop} {w w' : World} {a : Answer e}
    (hs : At key done K (w, t)) (hne : .operate key ≠ e) (hK : K' w') : At key done K' (w', t ++ [⟨e, a⟩]) :=
  ⟨hK, (mem_trace hne).trans hs.2⟩

theorem stagingFile_ne_ownerFile {name : List Char} {nonce : Nonce} : ownerFile name ≠ stagingFile name nonce :=
  (ne_of_stem (stem_stagingFile_self name nonce)).1

theorem stagingFile_ne_guardFile {name : List Char} {nonce : Nonce} : guardFile name ≠ stagingFile name nonce :=
  (ne_of_stem (stem_stagingFile_self name nonce)).2

/-- The staging file holds the owner record. -/
structure Staged (request : Request) (owner : Owner) (w : World) : Prop extends Inside request owner w where
  staged : w.lookup (stagingFile request.name owner.call.nonce) = some (.owner owner)

/-- The staging file is written, synced and closed. -/
theorem acquires_written {w : World} (hs : At (publication request owner) False (Inside request owner) (w, t))
    (hcreated : (w.lookup (stagingFile request.name owner.call.nonce)).isSome) :
    Acquires request owner (Program.tryFinally
      (do
        operate (.writeFile (stagingFile request.name owner.call.nonce) owner)
        operate (.sync (stagingFile request.name owner.call.nonce)))
      (operate (.close (stagingFile request.name owner.call.nonce))))
      (fun r s => match r with
        | .ok _ => At (publication request owner) False (Staged request owner) s
        | .error _ => At (publication request owner) False (Inside request owner) s) (w, t) := by
  refine Safe.andFinally (P := fun r s => match r with
    | .ok _ => At (publication request owner) False (Staged request owner) s
    | .error _ => At (publication request owner) False (Inside request owner) s) ?_ ?_
  · refine Safe.andThen (P := fun r s => match r with
      | .ok _ => At (publication request owner) False (Staged request owner) s
      | .error _ => At (publication request owner) False (Inside request owner) s) ?_ ?_ fun _ _ h => h
    · refine acquires_operate (fun _ => ⟨⟨(same_write stagingFile_ne_ownerFile).inside hs.1, ?_⟩, ?_⟩) fun code =>
        at_append hs (by simp) ((same_write stagingFile_ne_ownerFile).inside hs.1)
      · show (w.write _ _).lookup _ = _
        rw [World.write, if_pos hcreated, World.lookup_put, if_pos rfl]
      · refine (mem_trace ?_).trans hs.2
        simp
    · rintro _ ⟨w, t⟩ h
      exact acquires_operate (fun _ => at_append h (by simp) h.1) fun _ =>
        at_append ⟨h.1.toInside, h.2⟩ (by simp) h.1.toInside
  · rintro (failure | _) ⟨w, t⟩ h
    · exact acquires_operate (fun _ => at_append h (by simp) h.1) fun _ => at_append h (by simp) h.1
    · exact acquires_operate (fun _ => at_append h (by simp) h.1) fun _ =>
        at_append ⟨h.1.toInside, h.2⟩ (by simp) h.1.toInside

/-- The record is in place from the rename on, whether the rest succeeds or not. -/
theorem acquires_renamed {w : World} (hs : At (publication request owner) False (Staged request owner) (w, t)) :
    Acquires request owner (Program.tryFinally
      (do
        operate (.rename (stagingFile request.name owner.call.nonce) (ownerFile request.name))
        syncDirectory)
      (operate (.remove (stagingFile request.name owner.call.nonce))))
      (fun r s => match r with
        | .ok _ => At (publication request owner) True (Taken request owner) s
        | .error _ => Left request owner (Inside request owner) (Taken request owner) s) (w, t) := by
  have hremove : ∀ {K : World → Prop} {done : Prop} (s : World × Trace),
      (∀ w w', Same request.name w w' → K w → K w') → At (publication request owner) done K s →
      Acquires request owner (operate (.remove (stagingFile request.name owner.call.nonce)))
        (fun _ => At (publication request owner) done K) s := fun s hK hs =>
    acquires_around (every_operate (.sweep (stem_stagingFile_self _ _))) hK hs
  refine Safe.andFinally (P := fun r s => match r with
    | .ok _ => At (publication request owner) True (Taken request owner) s
    | .error _ => Left request owner (Inside request owner) (Taken request owner) s) ?_ ?_
  · refine Safe.andThen (P := fun r s => match r with
      | .ok _ => At (publication request owner) True (Taken request owner) s
      | .error _ => At (publication request owner) False (Inside request owner) s) ?_ ?_ fun _ _ h => .inl h
    · refine acquires_operate (fun _ => ⟨?_, ?_⟩) fun code => ?_
      · show Taken request owner (w.rename _ _)
        rw [World.rename, hs.1.staged]
        have hsame : Same request.name w (w.remove (stagingFile request.name owner.call.nonce)) :=
          same_remove stagingFile_ne_ownerFile stagingFile_ne_guardFile
        have hinside := hsame.inside hs.1.toInside
        refine ⟨⟨⟨hinside.alive.canonical, hinside.alive.boot, hinside.alive.process⟩, hinside.inactive, ?_⟩, hinside.inside⟩
        rw [World.lookup_put, if_pos rfl]
      · exact iff_of_true (List.mem_append_right _ (List.mem_singleton_self _)) trivial
      · refine ⟨hs.1.toInside, Iff.trans ?_ hs.2⟩
        constructor
        · intro hmem
          rcases List.mem_append.mp hmem with hmem | hmem
          · exact hmem
          · cases List.mem_singleton.mp hmem
        · exact fun hmem => List.mem_append_left _ hmem
    · intro _ s h
      refine (acquires_around every_syncDirectory (fun _ _ => Same.taken) h).mono ?_
      rintro (failure | _) s h
      · exact .inr h
      · exact h
  · rintro (failure | _) s h
    · rcases h with h | h
      · exact (hremove s (fun _ _ => Same.inside) h).mono fun r s h => by cases r <;> exact .inl h
      · exact (hremove s (fun _ _ => Same.taken) h).mono fun r s h => by cases r <;> exact .inr h
    · exact (hremove s (fun _ _ => Same.taken) h).mono fun r s h => by
        cases r
        · exact .inr h
        · exact h

theorem acquires_publishOwner (hs : At (publication request owner) False (Inside request owner) s) :
    Acquires request owner (publishOwner request.name owner)
      (fun r s => match r with
        | .ok _ => At (publication request owner) True (Taken request owner) s
        | .error _ => Left request owner (Inside request owner) (Taken request owner) s) s := by
  have hquiet : ∀ {β : Type} {p : Lock β} {s : World × Trace}, p.Every (Quiet request.name owner.call) →
      At (publication request owner) False (Inside request owner) s →
      Acquires request owner p (fun _ => At (publication request owner) False (Inside request owner)) s := fun hp hs =>
    acquires_around hp (fun _ _ => Same.inside) hs
  refine (hquiet ((every_call .readdir).andThen every_answered) hs).andThen (fun entries s hs => ?_) fun _ _ h => .inl h
  refine (hquiet (every_removeEntries entries) hs).andThen (fun _ s hs => ?_) fun _ _ h => .inl h
  obtain ⟨w, t⟩ := s
  refine Safe.andThen (P := fun r s => match r with
    | .ok _ => At (publication request owner) False (Inside request owner) s ∧
        (s.1.lookup (stagingFile request.name owner.call.nonce)).isSome
    | .error _ => At (publication request owner) False (Inside request owner) s) ?_ ?_ fun _ _ h => .inl h
  · refine acquires_operate (fun _ => ⟨at_append hs nofun ((same_put stagingFile_ne_ownerFile).inside hs.1), ?_⟩) fun _ =>
      at_append hs nofun hs.1
    show ((w.put _ _).lookup _).isSome
    rw [World.lookup_put, if_pos rfl]
    rfl
  · rintro _ ⟨w, t⟩ ⟨hs, hcreated⟩
    refine (acquires_written hs hcreated).andThen (fun _ s hs => ?_) fun _ _ h => .inl h
    exact acquires_renamed hs

/-! ### The guard -/

variable {w : World}

theorem guards_unlocked {c : Call} : Guards request (w.unlocked owner.call) c ↔ Guards request w c ∧ c ≠ owner.call := by
  rw [Guards, World.unlocked, List.mem_filter]
  simp [Guards]

theorem Inside.unlocked (h : Inside request owner w) : Outside request owner (w.unlocked owner.call) := by
  have hnobody : ∀ c, ¬ Guards request (w.unlocked owner.call) c := fun c hc =>
    (guards_unlocked.mp hc).2 ((h.inside c).mp (guards_unlocked.mp hc).1)
  refine ⟨⟨⟨h.alive.canonical, h.alive.boot, h.alive.process⟩, h.inactive, fun content hcontent => ?_⟩,
    fun c hc => absurd hc (hnobody c), fun c _ hc => absurd hc (hnobody c)⟩
  · obtain ⟨o, rfl, hnonce, hpasses⟩ := h.record content hcontent
    refine ⟨o, rfl, hnonce, ?_⟩
    rw [guards_unlocked]
    rcases hpasses with hpid | hdead | hreused | hactive | hguards
    · exact .inl hpid
    · exact .inr (.inl hdead)
    · exact .inr (.inr (.inl hreused))
    · exact .inr (.inr (.inr (.inl hactive)))
    · exact absurd (congrArg Call.nonce ((h.inside _).mp hguards)) hnonce

theorem Taken.unlocked (h : Taken request owner w) : Wedged request owner (w.unlocked owner.call) := by
  refine ⟨⟨⟨h.alive.canonical, h.alive.boot, h.alive.process⟩, h.inactive, h.record⟩, fun hguards => ?_⟩
  exact (guards_unlocked.mp hguards).2 rfl

theorem acquires_releaseGuard {K' : World → Prop} (hK : ∀ w, K w → K' (w.unlocked owner.call))
    (hs : At key done K s) :
    Acquires request owner (releaseGuard owner.call) (fun _ => At key done K') s := by
  obtain ⟨w, t⟩ := s
  rintro a ⟨w', t'⟩ ⟨⟨w₁, rfl | ⟨⟨file, c, h⟩, -⟩, hperforms⟩, rfl⟩
  · refine ⟨trivial, ?_⟩
    rcases hperforms with hstep | hfails
    · obtain ⟨rfl, rfl⟩ := Prod.mk.inj hstep
      exact at_append hs nofun (hK _ hs.1)
    · cases hfails
      exact at_append hs nofun (hK _ hs.1)
  · cases h

/-- A guard that nobody has is the call's alone. -/
theorem Outside.locked (h : Outside request owner w) (hfree : w.guard (guardFile request.name) = none) :
    Inside request owner (w.locked (guardFile request.name) owner.call) := by
  have hnobody : ∀ c, ¬ Guards request w c := fun c hc => by
    have hnone := List.lookup_eq_none_iff.mp hfree _ hc
    simp at hnone
  have hsame := same_touch (w := w) (ownerFile_ne_guardFile (a := request.name) (b := request.name))
  have hopen := hsame.open h.toOpen
  refine ⟨⟨⟨hopen.alive.canonical, hopen.alive.boot, hopen.alive.process⟩, hopen.inactive, fun content hcontent => ?_⟩,
    fun c => ?_⟩
  · obtain ⟨o, rfl, hnonce, hpasses⟩ := hopen.record content hcontent
    refine ⟨o, rfl, hnonce, ?_⟩
    rcases hpasses with hpid | hdead | hreused | hactive | hguards
    · exact .inl hpid
    · exact .inr (.inl hdead)
    · exact .inr (.inr (.inl hreused))
    · exact .inr (.inr (.inr (.inl hactive)))
    · exact absurd ((hsame.guards _).mp hguards) (hnobody _)
  · rw [Guards, World.locked, List.mem_cons]
    constructor
    · rintro (heq | hmem)
      · exact (Prod.mk.inj heq).2
      · exact absurd hmem (hnobody c)
    · rintro rfl
      exact .inl rfl

theorem acquires_tryAcquireKernelGuard (hs : At (publication request owner) False (Outside request owner) s) :
    Acquires request owner (tryAcquireKernelGuard request.name owner.call)
      (fun r s => match r with
        | .ok true => At (publication request owner) False (Inside request owner) s
        | _ => At (publication request owner) False (Outside request owner) s) s := by
  have hquiet : ∀ {p : Lock Unit} {s : World × Trace}, p.Every (Quiet request.name owner.call) →
      At (publication request owner) False (Outside request owner) s →
      Acquires request owner p (fun _ => At (publication request owner) False (Outside request owner)) s := fun hp hs =>
    acquires_around hp (fun _ _ => Same.outside) hs
  refine (hquiet (every_operate .openGuard) hs).andThen (fun _ s hs => ?_) fun _ _ h => h
  refine (hquiet (every_operate .closeGuard) hs).andThen (fun _ s hs => ?_) fun _ _ h => h
  obtain ⟨w, t⟩ := s
  rintro a ⟨w', t'⟩ ⟨⟨w₁, hbefore, hperforms⟩, rfl⟩
  have hw₁ : Outside request owner w₁ := by
    rcases hbefore with rfl | ⟨-, h⟩
    · exact hs.1
    · exact h
  have hs₁ : At (publication request owner) False (Outside request owner) (w₁, t) := ⟨hw₁, hs.2⟩
  refine ⟨trivial, ?_⟩
  rcases hperforms with hstep | hfails
  · simp only [step] at hstep
    split at hstep
    · obtain ⟨rfl, rfl⟩ := Prod.mk.inj hstep
      exact at_append hs₁ (by simp) hw₁
    · rename_i hfree
      obtain ⟨rfl, rfl⟩ := Prod.mk.inj hstep
      exact at_append hs₁ (by simp) (hw₁.locked hfree)
  · cases hfails
    exact at_append hs₁ (by simp) hw₁

/-! ### Attempts -/

theorem acquires_attemptOwner (hs : At (publication request owner) False (Inside request owner) s) :
    Acquires request owner (attemptOwner request owner)
      (fun r s => match r with
        | .ok none => At (publication request owner) True (Taken request owner) s
        | .ok (some _) => At (publication request owner) False (Inside request owner) s
        | .error _ => Left request owner (Inside request owner) (Taken request owner) s) s := by
  have hpublished : ∀ {s : World × Trace}, At (publication request owner) False (Inside request owner) s →
      Acquires request owner (publishOwner request.name owner >>= fun _ => (pure none : Lock (Option String)))
        (fun r s => match r with
          | .ok none => At (publication request owner) True (Taken request owner) s
          | .ok (some _) => At (publication request owner) False (Inside request owner) s
          | .error _ => Left request owner (Inside request owner) (Taken request owner) s) s := fun hs =>
    (acquires_publishOwner hs).andThen (fun _ _ h => h) fun _ _ h => h
  refine Safe.andThen (acquires_around every_readOwner (fun _ _ => Same.inside) hs)
    (fun existing s hs => ?_) fun _ _ h => .inl h
  split
  · exact hpublished hs
  · exact hs
  · exact hs
  · refine Safe.andThen (acquires_around (every_probeProcess _)
      (fun _ _ => Same.inside) hs) (fun status s hs => ?_) fun _ _ h => .inl h
    split
    · exact hpublished hs
    · exact hpublished hs
    · exact hs
    · exact hs

theorem acquires_unlessTransferred (hs : At (publication request owner) False (Inside request owner) s) :
    Acquires request owner (unlessTransferred owner.call (attemptOwner request owner))
      (fun r s => match r with
        | .ok none => At (publication request owner) True (Taken request owner) s
        | .ok (some _) => At (publication request owner) False (Outside request owner) s
        | .error _ => Left request owner (Outside request owner) (Wedged request owner) s) s := by
  refine Safe.andThen (P := fun r s => match r with
    | .ok none => At (publication request owner) True (Taken request owner) s
    | .ok (some _) => At (publication request owner) False (Inside request owner) s
    | .error _ => Left request owner (Outside request owner) (Wedged request owner) s) ?_ ?_ fun _ _ h => h
  · refine (acquires_attemptOwner hs).orElse (fun waiting s h => ?_) fun failure s h => ?_
    · cases waiting <;> exact h
    · rcases h with h | h
      · exact (acquires_releaseGuard (fun _ => Inside.unlocked) h).andThen (fun _ _ h => .inl h) fun _ _ h => .inl h
      · exact (acquires_releaseGuard (fun _ => Taken.unlocked) h).andThen (fun _ _ h => .inr h) fun _ _ h => .inr h
  · rintro (_ | diagnostic) s h
    · exact h
    · exact (acquires_releaseGuard (fun _ => Inside.unlocked) h).andThen (fun _ _ h => h) fun _ _ h => .inl h

theorem acquires_attempts : ∀ (rounds : Nat) (diagnostic : String) {s : World × Trace},
    At (publication request owner) False (Outside request owner) s →
    Acquires request owner (attempts request owner rounds diagnostic)
      (fun r s => match r with
        | .ok _ => True
        | .error _ => Left request owner (Outside request owner) (Wedged request owner) s) s
  | rounds, diagnostic, s, hs => by
    rw [attempts.eq_def]
    refine Safe.andThen (P := fun r s => match r with
      | .ok none => At (publication request owner) True (Taken request owner) s
      | .ok (some _) => At (publication request owner) False (Outside request owner) s
      | .error _ => Left request owner (Outside request owner) (Wedged request owner) s) ?_ ?_ fun _ _ h => h
    · refine (acquires_tryAcquireKernelGuard hs).andThen (fun acquired s h => ?_) fun _ _ h => .inl h
      cases acquired
      · exact h
      · exact acquires_unlessTransferred h
    · rintro (_ | diagnostic) s h
      · exact fun a s' _ => ⟨trivial, trivial⟩
      · cases rounds with
        | zero => exact .inl h
        | succ rounds =>
          refine Safe.andThen (acquires_around (every_call .sleep)
            (fun _ _ => Same.outside) h) (fun _ s h => ?_) fun _ _ h => .inl h
          exact acquires_attempts rounds diagnostic h

/-- A process finds itself. -/
theorem acquires_currentProcessIdentity
    (hs : At (publication request owner) False (Outside request owner) s) :
    Acquires request owner (currentProcessIdentity owner.call.pid)
      (fun r s => At (publication request owner) False (Outside request owner) s ∧
        ∀ identity, r = .ok identity → identity = (owner.bootId, owner.processStartTicks)) s := by
  have hbootId : Acquires request owner (call .readBootId >>= answered)
      (fun r s => At (publication request owner) False (Outside request owner) s ∧
        ∀ bootId, r = .ok bootId → bootId = owner.bootId) s := by
    obtain ⟨w, t⟩ := s
    refine acquires_effect (by simp) fun a w' hperforms => ?_
    rcases hperforms with hstep | hfails
    · obtain ⟨rfl, rfl⟩ := Prod.mk.inj hstep
      refine ⟨at_append hs (by simp) hs.1, ?_⟩
      rintro bootId ⟨rfl⟩
      exact hs.1.alive.boot
    · cases hfails
      exact ⟨at_append hs (by simp) hs.1, (by simp)⟩
  have hstat : ∀ {s : World × Trace}, At (publication request owner) False (Outside request owner) s →
      Acquires request owner (readProcessStat owner.call.pid)
        (fun r s => At (publication request owner) False (Outside request owner) s ∧
          ∀ startTicks, r = .ok (.found startTicks) → startTicks = owner.processStartTicks) s := by
    rintro ⟨w, t⟩ hs
    refine acquires_effect (by simp) fun a w' hperforms => ?_
    rcases hperforms with hstep | hfails
    · simp only [step, hs.1.alive.process] at hstep
      obtain ⟨rfl, rfl⟩ := Prod.mk.inj hstep
      refine ⟨at_append hs (by simp) hs.1, ?_⟩
      rintro startTicks ⟨rfl⟩
      rfl
    · cases hfails with
      | stat _ code _ => cases code <;> exact ⟨at_append hs (by simp) hs.1, (by simp)⟩
  refine hbootId.andThen (fun bootId s h => ?_) fun _ s h => ⟨h.1, (by simp)⟩
  refine (hstat h.1).andThen (fun stat s h' => ?_) fun _ s h' => ⟨h'.1, (by simp)⟩
  split
  · rename_i startTicks
    split
    · refine ⟨h'.1, ?_⟩
      rintro identity ⟨rfl⟩
      rw [h.2 _ rfl, h'.2 _ rfl]
    · exact ⟨h'.1, (by simp)⟩
  · exact ⟨h'.1, (by simp)⟩

/-- A call that throws leaves the lock as open as it was, unless its record was renamed into place. -/
theorem acquires_acquireLifecycleLock (rounds : Nat)
    (hs : At (publication request owner) False (Outside request owner) s) :
    Acquires request owner (acquireLifecycleLock request owner.call rounds)
      (fun r s => match r with
        | .ok _ => True
        | .error _ => Left request owner (Outside request owner) (Wedged request owner) s) s := by
  refine (acquires_currentProcessIdentity hs).andThen (fun identity s h => ?_) fun _ _ h => .inl h.1
  obtain rfl := h.2 _ rfl
  refine Safe.andThen (acquires_around (every_operate .mkdir) (fun _ _ => Same.outside) h.1) (fun _ s h => ?_)
    fun _ _ h => .inl h
  exact acquires_attempts rounds _ h

end Acquisition

/-! ## A call of `release` -/

section Release

variable {request : Request} {owner : Owner} {w : World}

/-- A call that holds the lock: its guard excludes all others, and nobody released it. -/
structure Holding (request : Request) (owner : Owner) (w : World) : Prop where
  alive : Alive owner w
  active : owner.call ∈ w.active
  record : w.lookup (ownerFile request.name) = some (.owner owner)
  inside : ∀ c, Guards request w c ↔ c = owner.call

theorem Holding.deactivated (h : Holding request owner w) :
    Taken request owner { w with active := w.active.filter (· ≠ owner.call) } :=
  ⟨⟨⟨h.alive.canonical, h.alive.boot, h.alive.process⟩, by simp, h.record⟩, h.inside⟩

/-- The record is removed, and with it all that the call had but its guard. -/
theorem Taken.removed (h : Taken request owner w) : Inside request owner (w.remove (ownerFile request.name)) := by
  refine ⟨⟨⟨h.alive.canonical, h.alive.boot, h.alive.process⟩, h.inactive, fun content hcontent => ?_⟩, fun c => ?_⟩
  · rw [World.lookup_remove, if_pos rfl] at hcontent
    cases hcontent
  · exact (guards_remove ownerFile_ne_guardFile.symm).trans (h.inside c)

/-- A `release` that throws leaves the record unless it was removed. -/
theorem acquires_release {t : Trace} (hw : Holding request owner w) (ht : ¬ Done (removal request) t) :
    Acquires request owner (release request owner.call)
      (fun r s => match r with
        | .ok _ => True
        | .error _ => At (removal request) True (Outside request owner) s ∨ At (removal request) False
            (Wedged request owner) s)
      (w, t) := by
  have hquiet : ∀ {α : Type} {p : Lock α} {done : Prop} {K : World → Prop} {s : World × Trace},
      p.Every (Quiet request.name owner.call) → (∀ w w', Same request.name w w' → K w → K w') →
        At (removal request) done K s →
      Acquires request owner p (fun _ => At (removal request) done K) s := fun hp hK hs =>
    acquires_quiet hp nofun hK hs
  have hthrown : ∀ {α : Type} {failure : Failure} {s : World × Trace} {Q : Except Failure α → World × Trace → Prop},
      Q (.error failure) s → Acquires request owner (throw failure) Q s := fun h => h
  refine acquires_effect nofun fun a w' hperforms => ?_
  obtain hstep | ⟨⟨⟩⟩ := hperforms
  obtain ⟨rfl, rfl⟩ := Prod.mk.inj hstep
  rw [if_pos (decide_eq_true hw.active)]
  refine acquires_effect nofun fun a w' hperforms => ?_
  obtain hstep | ⟨⟨⟩⟩ := hperforms
  obtain ⟨rfl, rfl⟩ := Prod.mk.inj hstep
  refine Safe.andFinally (P := fun r s => match r with
    | .ok _ => At (removal request) True (Inside request owner) s
    | .error _ => At (removal request) True (Inside request owner) s ∨ At (removal request) False (Taken request owner) s)
    ?_ ?_
  · refine Safe.andThen (hquiet every_readOwner (fun _ _ => Same.taken) (at_append (at_append
      (K := Holding request owner) ⟨hw, iff_of_false ht id⟩ nofun hw) nofun hw.deactivated)) (fun existing s hs => ?_)
      fun _ _ h => .inr h
    split
    · split
      · refine Safe.andThen (P := fun r s => match r with
          | .ok _ => At (removal request) True (Inside request owner) s
          | .error _ => At (removal request) False (Taken request owner) s) ?_ (fun _ s hs => ?_) fun _ _ h => .inr h
        · obtain ⟨w, t⟩ := s
          refine acquires_operate (fun _ => ⟨hs.1.removed, ?_⟩) fun code => ⟨hs.1, Iff.trans ?_ hs.2⟩
          · exact iff_of_true (List.mem_append_right _ (List.mem_singleton_self _)) trivial
          · constructor
            · intro hmem
              rcases List.mem_append.mp hmem with hmem | hmem
              · exact hmem
              · cases List.mem_singleton.mp hmem
            · exact fun hmem => List.mem_append_left _ hmem
        · refine (hquiet every_syncDirectory (fun _ _ => Same.inside) hs).mono fun r s h => ?_
          cases r
          · exact .inl h
          · exact h
      · exact hthrown (.inr hs)
    · exact hthrown (.inr hs)
  · rintro (failure | _) s h
    · rcases h with h | h
      · refine (acquires_releaseGuard (fun _ => Inside.unlocked) h).mono fun r s h => ?_
        cases r <;> exact .inl h
      · refine (acquires_releaseGuard (fun _ => Taken.unlocked) h).mono fun r s h => ?_
        cases r <;> exact .inr h
    · refine (acquires_releaseGuard (fun _ => Inside.unlocked) h).mono fun r s h => ?_
      cases r
      · exact .inl h
      · exact trivial

end Release

end Dim.Locks
