/-
All calls together: what each promises holds of every run whose steps are careful, whatever calls begin and in
whatever order their steps come.
-/
import DimProofs.Lifecycle.Authentication

namespace Dim.Lifecycle

open Effectful Files Relation

variable [Format] {lists grants : Prop} {K : World → World → Prop} {i : Nat} {op : Operation}
  {acts : (e : Effect) → World → Answer e → World → Prop} {rely : World → World → Prop} {w w' : World}

/-! ## Discard -/

/-- Locks and the history of calls do not belong to the files. -/
theorem Whole.frame (h : Whole grants w) (hfiles : w'.files = w.files) (hhandles : w'.handles = w.handles)
    (htemporaries : w'.temporaries = w.temporaries) (hdrawn : w'.drawn = w.drawn) (hbegun : w.begun ⊆ w'.begun) :
    Whole grants w' := by
  have hlookup : ∀ d n, w'.lookup d n = w.lookup d n := fun d n => by rw [World.lookup, hfiles]; rfl
  have htext : ∀ k, w'.text? k = w.text? k := fun k => by rw [World.text?, hfiles]; rfl
  have hsize : w'.size = w.size := by rw [World.size, hfiles]; rfl
  refine { bound := ?_, single := ?_, handleBound := ?_, handleOne := ?_, temporaryOne := ?_, temporaryName := ?_,
           names := ?_, records := ?_, drawnOne := ?_, drawnValid := ?_, granted := ?_ }
  · intro d n k hk
    rw [hlookup] at hk
    rw [hsize]
    exact h.bound d n k hk
  · intro d n d' n' k hk hk'
    rw [hlookup] at hk hk'
    exact h.single d n d' n' k hk hk'
  · rw [hhandles, hsize]; exact h.handleBound
  · rw [hhandles]; exact h.handleOne
  · rw [htemporaries]; exact h.temporaryOne
  · rw [htemporaries]; exact h.temporaryName
  · intro kind n k hk
    rw [hlookup] at hk
    rw [htemporaries]
    exact h.names kind n k hk
  · intro kind n k hk hfile
    rw [hlookup] at hk
    rw [hhandles]
    exact (h.records kind n k hk hfile).imp id (.imp fun _ hr => hr.later (htext k) hbegun)
  · rw [hdrawn]; exact h.drawnOne
  · rw [hdrawn]; exact h.drawnValid
  · intro hgrants audience n k hk
    rw [hlookup] at hk
    rw [hhandles]
    exact (h.granted hgrants audience n k hk).imp id fun hr => hr.later (htext k) (by rw [hdrawn]; exact fun _ h => h)

namespace Among

variable (H : Among lists grants K i op acts rely)
include H

/-- Effects that touch no file. -/
theorem quietly {e : Effect} (hw : Whole grants w) {a : Answer e}
    (he : ∀ choice a w', perform choice i e w = some (a, w') → ∃ locks, w' = { w with locks := locks })
    (h : acts e w a w') : Whole grants w' ∧ Does i w w' := by
  obtain ⟨-, ⟨choice, hp⟩, -⟩ := H.acts _ _ _ _ h
  obtain ⟨locks, rfl⟩ := he _ _ _ hp
  exact ⟨hw.frame rfl rfl rfl rfl fun _ h => h, { Does.refl i w with }⟩

theorem runCommand :
    Amid acts (Whole grants) (Does i) rely runCommand (fun _ _ => True) w := by
  refine amid_effect stable_true trivial fun w₁ a w₂ _ hI hact => ?_
  obtain ⟨hI', hdoes⟩ := H.quietly hI (fun choice a w' hp => ⟨w₁.locks, by cases hp; rfl⟩) hact
  refine ⟨hI', hdoes, ?_⟩
  cases a
  · exact amid_throw stable_true trivial fun _ _ => trivial
  · exact amid_pure stable_true trivial fun _ _ => trivial

theorem acquireLock (lock : String) :
    Amid acts (Whole grants) (Does i) rely (acquireLock lock) (fun _ _ => True) w := by
  refine amid_effect stable_true trivial fun w₁ a w₂ _ hI hact => ?_
  obtain ⟨hI', hdoes⟩ := H.quietly hI (fun choice a w' hp => by
    simp only [perform] at hp
    split at hp
    · split at hp
      · cases hp
      · exact ⟨_, by cases hp; rfl⟩
    · exact ⟨w₁.locks, by cases hp; rfl⟩) hact
  refine ⟨hI', hdoes, ?_⟩
  cases a
  · exact amid_throw stable_true trivial fun _ _ => trivial
  · exact amid_pure stable_true trivial fun _ _ => trivial

theorem releaseLock (lock : String) :
    Amid acts (Whole grants) (Does i) rely (effect (.release lock)) (fun _ _ => True) w := by
  refine amid_last (T := fun _ _ => True) stable_true trivial (fun _ => stable_true) (fun _ _ _ => trivial) ?_
  intro w₁ a w₂ _ hI hact
  obtain ⟨hI', hdoes⟩ := H.quietly hI (fun choice a w' hp => ⟨_, by cases hp; rfl⟩) hact
  exact ⟨hI', hdoes, trivial⟩

theorem removeGrant (audience : GrantAudience) (name workspaceId : String) :
    Amid acts (Whole grants) (Does i) rely (removeGrant audience name workspaceId) (fun _ _ => True) w :=
  H.remove fun _ hd => by cases hd

theorem notifyContainer (record : WorkspaceRecord) (container : Option Container) :
    Amid acts (Whole grants) (Does i) rely (notifyContainer record container) (fun _ _ => True) w := by
  cases container with
  | none => exact amid_pure stable_true trivial fun _ _ => trivial
  | some container =>
    rw [Lifecycle.notifyContainer]
    split
    · split
      · exact H.runCommand
      · exact amid_pure stable_true trivial fun _ _ => trivial
    · exact amid_throw stable_true trivial fun _ _ => trivial

theorem beginDiscard (name : String) (keepVolume : Bool) :
    Amid acts (Whole grants) (Does i) rely (beginDiscard name keepVolume) (fun _ _ => True) w := by
  refine (H.readWorkspace name).andThen (fun record w h => ?_) fun _ _ _ => trivial
  have hgiven := (readWorkspace_ok h).2.1
  have hstable := @stable_given _ _ _ _ _ _ _ _ H .workspace record
  split
  · exact amid_throw stable_true trivial fun _ _ => trivial
  refine amid_effect hstable hgiven fun w₁ a w₂ hgiven hI hact => ?_
  obtain ⟨hI', hdoes⟩ := H.quietly hI (fun choice a w' hp => ⟨w₁.locks, by cases hp; rfl⟩) hact
  have hgiven := hgiven.mono hdoes.begun
  refine ⟨hI', hdoes, ?_⟩
  cases a with
  | none =>
    exact (H.atomicWrite (.discarded hgiven)).andThen
      (fun _ _ _ => amid_throw stable_true trivial fun _ _ => trivial) fun _ _ _ => trivial
  | some container =>
    refine ((H.notifyContainer record container).frame hstable (fun _ _ h hd => h.mono hd.begun) hgiven).andThen
      (fun _ w h => ?_) fun _ _ _ => trivial
    refine (H.atomicWrite (.discarded h.2)).andThen (fun _ w _ => ?_) fun _ _ _ => trivial
    refine (H.removeGrant .workspace _ _).andThen (fun _ w _ => ?_) fun _ _ _ => trivial
    refine (H.removeGrant .agent _ _).andThen (fun _ w _ => ?_) fun _ _ _ => trivial
    exact (H.removeGrant .nativeGit _ _).andThen (fun _ w _ => amid_pure stable_true trivial fun _ _ => trivial)
      fun _ _ _ => trivial

theorem discardWorkspace (name : String) (keepVolume : Bool) :
    Amid acts (Whole grants) (Does i) rely (discardWorkspace name keepVolume) (fun _ _ => True) w := by
  rw [Lifecycle.discardWorkspace, validateLifecycleName]
  split
  · refine (H.acquireLock _).andThen (fun _ w _ => ?_) fun _ _ _ => trivial
    refine Amid.withFinally (P := fun _ => True) ?_ fun w _ => H.releaseLock _
    refine (H.acquireLock _).andThen (fun _ w _ => ?_) fun _ _ _ => trivial
    refine Amid.andThen (P := fun _ _ => True) (fun _ w _ => ?_) (fun _ _ _ => trivial)
      (Amid.withFinally (P := fun _ => True) (H.beginDiscard name keepVolume) fun w _ => H.releaseLock _)
    exact H.runCommand.andThen (fun _ w _ => H.removeRecord .workspace name) fun _ _ _ => trivial
  · exact amid_throw stable_true trivial fun _ _ => trivial

end Among

/-! ## Promises -/

/-- What the calls promise, where every step obeys `K`. -/
def Promise (K : World → World → Prop) : Operation → Except Failure Outcome → World → Prop
  | .list kind, r, w => ∃ records : List (Record kind), r = .ok (.records records) ∧ (∀ record ∈ records, Given w record) ∧
      ∀ name, Passes K (Present kind name) → ∃ record ∈ records, record.name = name
  | .readWorkspace _, r, w => (∀ record, r = .ok (.workspace record) → @Given w .workspace record) ∧ r ≠ .error .syntaxError
  | .ensureGrant audience name, r, w => ∀ record token, r = .ok (.granted record token) → record.name = name ∧
      Among.Ensured K audience record (.ok token) w
  | .authenticate audience token, r, w => ∃ found, r = .ok (.authenticated found) ∧
      Authenticates K audience token (.ok found) w
  | _, _, _ => True

/-- Every call keeps its promise. -/
theorem Among.run (H : Among lists grants K i op acts rely) (hpermit : (careful lists grants).begins op)
    (hI : Whole grants w) (hw : ∃ w₀, K w₀ w) (hbegun : op ∈ w.begun) :
    Amid acts (Whole grants) (Does i) rely (run op) (Promise K op) w := by
  have hdone : ∀ {p : Action Unit}, (∀ r w, Promise K op r w) →
    Amid acts (Whole grants) (Does i) rely p (fun _ _ => True) w →
      Amid acts (Whole grants) (Does i) rely (p >>= fun _ => pure .done) (Promise K op) w := by
    intro p hpromise hp
    exact hp.andThen (fun _ w _ => amid_pure stable_true trivial fun w _ => hpromise _ w) fun _ w _ => hpromise _ w
  cases op with
  | claim record => exact hdone (fun _ _ => trivial) (H.claimRecord (.claimed hbegun))
  | write record => exact hdone (fun _ _ => trivial) (H.atomicWrite (.written hbegun))
  | remove kind name => exact hdone (fun _ _ => trivial) (H.removeRecord kind name)
  | removeGrant audience name workspaceId => exact hdone (fun _ _ => trivial) (H.removeGrant audience name workspaceId)
  | discard name keepVolume => exact hdone (fun _ _ => trivial) (H.discardWorkspace name keepVolume)
  | list kind =>
    refine (H.listRecords rfl).andThen (fun records w h => ?_) fun failure w h => ?_
    · obtain ⟨records', hr, hgiven, hnames⟩ := h
      obtain rfl := Except.ok.inj hr
      refine amid_pure (S := fun w => ∀ record ∈ records, Given w record) ?_ hgiven fun w hgiven =>
        ⟨records, rfl, hgiven, hnames⟩
      exact H.stable fun w w' j _ _ hd _ h record hr => (h record hr).mono hd.begun
    · obtain ⟨_, hr, _⟩ := h
      cases hr
  | readWorkspace name =>
    refine (H.readWorkspace name).andThen (fun record w h => ?_) fun failure w h => ⟨nofun, fun hr => ?_⟩
    · refine amid_pure (@stable_given _ _ _ _ _ _ _ _ H .workspace record) (readWorkspace_ok h).2.1 fun w hgiven =>
        ⟨?_, nofun⟩
      rintro record' hr
      cases hr
      exact hgiven
    · cases hr
      by_cases hname : validLifecycleName name = true
      · exact ((h.1 hname).2 _ rfl).1 rfl
      · obtain ⟨_, hr⟩ := h.2 hname
        cases hr
  | ensureGrant audience name =>
    refine (H.ensureNamedGrant hpermit audience name).andThen (fun granted w h => ?_) fun _ _ _ => nofun
    obtain ⟨hname, hensured⟩ := h granted rfl
    refine amid_pure (H.stable_ensured granted.1 granted.2) hensured fun w h record token hr => ?_
    cases hr
    exact ⟨hname, h⟩
  | authenticate audience token =>
    refine (H.authenticateGrant hpermit hw hI audience token).andThen (fun found w h => ?_) fun failure w h => ?_
    · refine amid_pure (H.stable_authenticates token found) h.2 fun w h => ⟨found, rfl, h⟩
    · obtain ⟨⟨_, hr⟩, _⟩ := h
      cases hr

/-! ## Every run -/

/-- What call `i` does and relies on in a stretch of a run. -/
theorem among_stretch (lists grants : Prop) (K : World → World → Prop) (i : Nat) (op : Operation) :
    Among lists grants K i op (fun e w a w' => system.Allowed (careful lists grants) i op e w a w' ∧ K w w')
      (fun w w' => Concurrent.Rely (Whole grants) Does i w w' ∧ K w w') where
  rely _ _ h := h
  acts _ _ _ _ h := ⟨h.1.1, h.1.2, h.2⟩

/-- A call that begins. -/
theorem Whole.begins (h : Whole grants w) (i : Nat) (op : Operation) :
    Whole grants (system.begins op w) ∧ Does i w (system.begins op w) :=
  ⟨h.frame rfl rfl rfl rfl fun _ => List.mem_cons_of_mem op,
    { Does.refl i w with begun := fun _ => List.mem_cons_of_mem op }⟩

omit [Format] in
theorem mem_crash {j k : Nat} : (j, k) ∈ (w.crash i).handles ↔ (j, k) ∈ w.handles ∧ j ≠ i := by
  rw [World.crash, List.mem_filter, decide_eq_true_eq]

/-- A call that crashes and writes no file with a final name. -/
theorem Whole.crashes (h : Whole grants w) (hpermit : (careful lists grants).crash i w) :
    Whole grants (w.crash i) ∧ Does i w (w.crash i) := by
  refine ⟨{ h with handleBound := ?_, handleOne := ?_, records := ?_, granted := ?_ },
    { Does.refl i w with handles := ?_, opened := ?_ }⟩
  · exact fun j k hj => h.handleBound j k (mem_crash.mp hj).1
  · exact fun j₁ j₂ k h₁ h₂ => h.handleOne _ _ _ (mem_crash.mp h₁).1 (mem_crash.mp h₂).1
  · intro kind n k hk hfile
    refine (h.records kind n k hk hfile).imp (fun ⟨j, hj⟩ => ⟨j, mem_crash.mpr ⟨hj, ?_⟩⟩) fun ⟨record, hr⟩ =>
      ⟨record, hr.later rfl fun _ h => h⟩
    rintro rfl
    have hname := (hpermit k hj).1 kind n hk
    rw [hname] at hfile
    cases hfile
  · intro hgrants audience n k hk
    refine (h.granted hgrants audience n k hk).imp (fun ⟨j, hj⟩ => ⟨j, mem_crash.mpr ⟨hj, ?_⟩⟩) fun hr =>
      hr.later rfl fun _ h => h
    rintro rfl
    exact (hpermit k hj).2 hgrants audience n hk
  · intro j k hj
    rw [mem_crash]
    exact ⟨fun h => h.1, fun h => ⟨h, hj⟩⟩
  · exact fun j k hj => .inl (mem_crash.mp hj).1

omit [Format] in
theorem Idle.does {j : Nat} (h : Idle i w) (hj : j ≠ i) (hd : Does j w w') : Idle i w' :=
  ⟨fun k hk => h.1 k ((hd.handles i k hj.symm).mp hk), fun d t ht => h.2 d t ((hd.temporaries i d t hj.symm).mp ht)⟩

/-- Every call keeps its promise, whatever the others do. -/
theorem keeps (lists grants : Prop) : system.Keeps (careful lists grants) (Whole grants) Does Idle
    fun _ op => Promise (fun _ _ => True) op where
  idle i _ _ hidle hrely := by
    obtain ⟨-, -, j, hj, hd⟩ := hrely
    exact hidle.does hj hd
  begins i op w hpermit hI _ := by
    obtain ⟨hI', hdoes⟩ := hI.begins i op
    have H : Among lists grants (fun _ _ => True) i op (system.Allowed (careful lists grants) i op)
        (Concurrent.Rely (Whole grants) Does i) := ⟨fun _ _ h => ⟨h, trivial⟩, fun _ _ _ _ h => ⟨h.1, h.2, trivial⟩⟩
    exact ⟨hI', hdoes, H.run hpermit hI' ⟨w, trivial⟩ List.mem_cons_self⟩
  crashes _ _ hI hpermit := hI.crashes hpermit

/-- Call `i` has returned. -/
def Ended (s : State) (i : Nat) (op : Operation) (outcome : Outcome) : Prop := s.calls[i]? = some ⟨op, some (.done outcome)⟩

/-- Call `i` has failed. -/
def Failed (s : State) (i : Nat) (op : Operation) (failure : Failure) : Prop := s.calls[i]? = some ⟨op, some (.fail failure)⟩

/-- Runs whose steps are careful. -/
def Careful (lists grants : Prop) (s : State) : Prop :=
  ReflTransGen (system.Moves (careful lists grants) fun _ _ => True) initial s

theorem whole_empty (grants : Prop) : Whole grants World.empty := by
  refine { bound := nofun, single := nofun, handleBound := nofun, handleOne := nofun, temporaryOne := nofun,
           temporaryName := nofun, names := nofun, records := nofun, drawnOne := nofun, drawnValid := nofun, granted := ?_ }
  exact fun _ => nofun

abbrev Sound (lists grants : Prop) (s : State) : Prop :=
  system.Sound (careful lists grants) (Whole grants) Does Idle (fun _ op => Promise (fun _ _ => True) op) s

theorem Careful.sound {s : State} (h : Careful lists grants s) : Sound lists grants s := by
  refine Concurrent.Sound.steps (keeps lists grants) ⟨whole_empty grants, fun i op p hcall => ?_, fun i _ => ⟨?_, ?_⟩⟩ h
  · simp [initial] at hcall
  · exact fun k => List.not_mem_nil
  · exact fun d t => List.not_mem_nil

/-- The calls that begin in a stretch of a run keep what they promise of it. -/
theorem Sound.promise {s s' : State} (h : Sound lists grants s)
    (hs : ReflTransGen (system.Moves (careful lists grants) K) s s')
    (hi : s.calls.length ≤ i) {outcome : Outcome} (hcall : Ended s' i op outcome) : Promise K op (.ok outcome) s'.world := by
  refine Concurrent.Followed.ended (R := fun _ op => Promise K op)
    (Concurrent.Sound.followed (keeps lists grants) h (fun i op w hpermit _ hI _ hK => ?_) hs) hi hcall
  exact (among_stretch lists grants K i op).run hpermit (hI.begins i op).1 ⟨w, hK⟩ List.mem_cons_self

end Dim.Lifecycle
