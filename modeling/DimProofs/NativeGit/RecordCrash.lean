/-
What a crash in a publication of a review record leaves, and what the next start makes of it. At every point
each record has the text it had before or the publication's own, as a whole. The next start finishes a
publication whose record already has its name; a staging file without its record it rejects and keeps.
-/
import DimProofs.NativeGit.RecordStorage

namespace Dim.NativeGit

open Effectful Files

/-! ## Stores -/

/-- A store between two publications. -/
structure Clean (s : RecordStore) : Prop where
  staging : s.entries .staging = []
  file : ∀ name file, s.lookup .records name = some file → file < s.inodes.length

/-- A staging file that no record is. -/
def Unpublished (s : RecordStore) : Prop :=
  ∃ entry ∈ s.entries .staging, ∀ name, s.lookup .records name ≠ some entry.2

/-- The store holds the records of `s`. -/
def HoldsBefore (s s' : RecordStore) : Prop := ∀ name, s'.read .records name = s.read .records name

/-- The store holds the records of `s` and the publication's. -/
def HoldsAfter (s : RecordStore) (publication : ReviewPublication) (s' : RecordStore) : Prop :=
  ∀ name, s'.read .records name = if name = publication.name then some publication.serialized else s.read .records name

section
variable {serviceUid : Nat} {s s' s'' : RecordStore} {publication : ReviewPublication} {staged name : String} {inode : Inode}

/-! ## The states of a publication -/

/-- The staging file as `open` creates it, with a part of its text, and in the mode of its creation or of
`chmod`, which are the same. -/
def stagedInode (serviceUid : Nat) (text : String) : Inode :=
  { kind := .regular, uid := serviceUid, mode := 0o600, nlink := 1, text }

/-- The names that a publication does not touch. -/
structure Others (publication : ReviewPublication) (s s' : RecordStore) : Prop where
  name : ∀ name, name ≠ publication.name → s'.lookup .records name = s.lookup .records name
  text : ∀ name file, name ≠ publication.name → s.lookup .records name = some file →
    (s'.inodes[file]?).map (·.text) = (s.inodes[file]?).map (·.text)

/-- No record and no file of one is touched. -/
structure Untouched (s s' : RecordStore) : Prop where
  name : ∀ name, s'.lookup .records name = s.lookup .records name
  inode : ∀ file, file < s.inodes.length → s'.inodes[file]? = s.inodes[file]?

structure Before (s s' : RecordStore) : Prop extends Untouched s s' where
  staging : s'.entries .staging = []

structure Staged (serviceUid : Nat) (publication : ReviewPublication) (s : RecordStore) (staged text : String)
    (s' : RecordStore) : Prop extends Untouched s s' where
  staging : s'.entries .staging = [(staged, s.inodes.length)]
  file : s'.inodes[s.inodes.length]? = some (stagedInode serviceUid text)
  final : finalName staged = some publication.name

structure Linked (serviceUid : Nat) (publication : ReviewPublication) (s : RecordStore) (staged : String)
    (s' : RecordStore) : Prop extends Others publication s s' where
  staging : s'.entries .staging = [(staged, s.inodes.length)]
  published : s'.lookup .records publication.name = some s.inodes.length
  file : s'.inodes[s.inodes.length]? = some { stagedInode serviceUid publication.serialized with nlink := 2 }
  final : finalName staged = some publication.name

structure After (serviceUid : Nat) (publication : ReviewPublication) (s s' : RecordStore) : Prop
    extends Others publication s s' where
  staging : s'.entries .staging = []
  published : s'.lookup .records publication.name = some s.inodes.length
  file : s'.inodes[s.inodes.length]? = some (stagedInode serviceUid publication.serialized)

/-- The states in which a crash may leave a publication that began in `s`. -/
inductive Interrupted (serviceUid : Nat) (publication : ReviewPublication) (s s' : RecordStore) : Prop
  | before (h : Before s s')
  | staged {staged text : String} (h : Staged serviceUid publication s staged text s')
  | linked {staged : String} (h : Linked serviceUid publication s staged s')
  | after (h : After serviceUid publication s s')

theorem Untouched.refl (s : RecordStore) : Untouched s s := ⟨fun _ => rfl, fun _ _ => rfl⟩

theorem Clean.before (hs : Clean s) : Before s s := ⟨.refl s, hs.staging⟩

/-! ## The names of staging files -/

theorem finalName_stagedName {uuid : String} (h : Pattern.uuid uuid = true) :
    finalName (stagedName publication uuid) = some publication.name := by
  have hlength : uuid.toList.length = 36 := by
    have := Pattern.length_of_sequence h
    simpa using this
  have htoList : (stagedName publication uuid).toList = publication.name.toList ++
      '.' :: (uuid.toList ++ ".tmp".toList) := by
    simp [stagedName, String.toList_append]
  have hsize : (publication.name.toList ++ '.' :: (uuid.toList ++ ".tmp".toList)).length - 41 =
      publication.name.toList.length := by
    simp [hlength]
  unfold finalName
  simp only [htoList, hsize, List.take_left, List.drop_left, stagingSuffix, ← hlength, String.ofList_toList, h,
    publication.named, decide_true, Bool.and_self, if_true]

/-! ## What the calls do -/

@[simp] theorem ok_andThen {ε α β : Type} (a : α) (f : α → Except ε β) : (Except.ok a >>= f) = f a := rfl

theorem area_ne : Area.records ≠ Area.staging := by decide

theorem lookup_of_staging {file : Nat} (h : s'.entries .staging = [(staged, file)]) :
    s'.lookup .staging staged = some file := by
  simp [FileSystem.lookup, h]

theorem Clean.create (hs : Clean s) {uuid : String} {file : Nat} (hu : Pattern.uuid uuid = true)
    (h : s.create .staging (stagedName publication uuid) serviceUid 0o600 = .ok (file, s')) :
    file = s.inodes.length ∧ Staged serviceUid publication s (stagedName publication uuid) "" s' := by
  unfold FileSystem.create at h
  split at h
  · cases h
  cases h
  let named := s.setEntries .staging (s.entries .staging ++ [(stagedName publication uuid, s.inodes.length)])
  have hname : ∀ name, named.lookup .records name = s.lookup .records name := fun name =>
    FileSystem.lookup_setEntries_ne area_ne
  have hentries : named.entries .staging = [(stagedName publication uuid, s.inodes.length)] := by
    rw [FileSystem.entries_setEntries, hs.staging]
    rfl
  refine ⟨rfl, ⟨hname, fun file hf => ?_⟩, hentries, ?_, finalName_stagedName hu⟩
  · exact List.getElem?_append_left hf
  · simp [stagedInode]

/-- A call on the staging file alone. -/
theorem Staged.modify {text text' : String} {f : Inode → Inode} (h : Staged serviceUid publication s staged text s')
    (hf : f (stagedInode serviceUid text) = stagedInode serviceUid text') :
    Staged serviceUid publication s staged text' (s'.modify s.inodes.length f) := by
  refine ⟨⟨h.name, fun file hlt => ?_⟩, h.staging, ?_, h.final⟩
  · rw [FileSystem.inodes_modify, if_neg (by omega), h.inode file hlt]
  · rw [FileSystem.inodes_modify, if_pos rfl, h.file, Option.map_some, hf]

theorem Staged.link {text : String} (hs : Clean s) (h : Staged serviceUid publication s staged text s')
    (ht : text = publication.serialized) (hl : s'.link .staging staged .records publication.name = .ok s'') :
    Linked serviceUid publication s staged s'' := by
  subst ht
  unfold FileSystem.link at hl
  rw [lookup_of_staging h.staging] at hl
  dsimp only at hl
  split at hl
  · cases hl
  rename_i hnone
  cases hl
  simp only [Option.not_isSome_iff_eq_none] at hnone
  refine ⟨⟨fun name hne => ?_, fun name file hne hfile => ?_⟩, ?_, ?_, ?_, h.final⟩
  · rw [FileSystem.lookup_modify, FileSystem.lookup_append hnone, if_neg hne, h.name]
  · have hlt := hs.file _ _ hfile
    rw [FileSystem.inodes_modify, if_neg (by omega), FileSystem.inodes_setEntries, h.inode file hlt]
  · rw [FileSystem.entries_modify, FileSystem.entries_setEntries_ne area_ne.symm, h.staging]
  · rw [FileSystem.lookup_modify, FileSystem.lookup_append hnone, if_pos rfl]
  · rw [FileSystem.inodes_modify, if_pos rfl, FileSystem.inodes_setEntries, h.file]
    rfl

theorem Staged.rename (hs : Clean s)
    (h : Staged serviceUid publication s staged publication.serialized s')
    (hr : s'.rename .staging staged .records publication.name = .ok s'') : After serviceUid publication s s'' := by
  unfold FileSystem.rename at hr
  rw [lookup_of_staging h.staging] at hr
  dsimp only at hr
  have hempty : ((s'.entries .staging).filter (·.1 ≠ staged)) = [] := by simp [h.staging]
  have hremove : ∀ name, (s'.remove .staging staged).lookup .records name = s.lookup .records name := fun name => by
    rw [FileSystem.lookup_remove_ne area_ne, h.name]
  split at hr
  · -- the name is new
    rename_i hnone
    cases hr
    have hnone' : (s'.remove .staging staged).lookup .records publication.name = none := by
      rw [FileSystem.lookup_remove_ne area_ne, hnone]
    refine ⟨⟨fun name hne => ?_, fun name file hne hfile => ?_⟩, ?_, ?_, ?_⟩
    · rw [FileSystem.lookup_append hnone', if_neg hne, hremove]
    · exact congrArg _ (h.inode file (hs.file _ _ hfile))
    · rw [FileSystem.entries_setEntries_ne area_ne.symm, FileSystem.remove, FileSystem.entries_setEntries, hempty]
    · rw [FileSystem.lookup_append hnone', if_pos rfl]
    · exact h.file
  · -- the name is taken from the record before
    rename_i old hold
    have hold' : s.lookup .records publication.name = some old := by rw [← h.name, hold]
    have hlt := hs.file _ _ hold'
    rw [if_neg (by omega)] at hr
    cases hr
    have hnone : ((s'.remove .staging staged).remove .records publication.name).lookup .records publication.name = none := by
      rw [FileSystem.lookup_remove, if_pos rfl]
    refine ⟨⟨fun name hne => ?_, fun name file hne hfile => ?_⟩, ?_, ?_, ?_⟩
    · rw [FileSystem.lookup_modify, FileSystem.lookup_append hnone, if_neg hne, FileSystem.lookup_remove, if_neg hne,
        hremove]
    · rw [← h.inode file (hs.file _ _ hfile), FileSystem.inodes_modify]
      split
      · -- another name of the replaced file: it loses a link and keeps its text
        exact Option.map_map ..
      · rfl
    · rw [FileSystem.entries_modify, FileSystem.entries_setEntries_ne area_ne.symm, FileSystem.remove,
        FileSystem.entries_setEntries_ne area_ne.symm, FileSystem.remove, FileSystem.entries_setEntries, hempty]
    · rw [FileSystem.lookup_modify, FileSystem.lookup_append hnone, if_pos rfl]
    · rw [FileSystem.inodes_modify, if_neg (by omega)]
      exact h.file

theorem unlink_ok {file : Nat} (hstaging : s'.entries .staging = [(staged, file)])
    (h : s'.unlink .staging staged = .ok s'') : s''.entries .staging = [] ∧
      (∀ name, s''.lookup .records name = s'.lookup .records name) ∧
      (∀ k, k ≠ file → s''.inodes[k]? = s'.inodes[k]?) ∧
      s''.inodes[file]? = s'.inodes[file]?.map fun i => { i with nlink := i.nlink - 1 } := by
  unfold FileSystem.unlink at h
  rw [lookup_of_staging hstaging] at h
  cases h
  refine ⟨?_, fun name => ?_, fun k hk => ?_, ?_⟩
  · rw [FileSystem.entries_modify, FileSystem.remove, FileSystem.entries_setEntries, hstaging]
    simp
  · rw [FileSystem.lookup_modify, FileSystem.lookup_remove_ne area_ne]
  · rw [FileSystem.inodes_modify, if_neg (Ne.symm hk)]
    rfl
  · rw [FileSystem.inodes_modify, if_pos rfl]
    rfl

theorem Staged.unlink {text : String} (h : Staged serviceUid publication s staged text s')
    (hu : s'.unlink .staging staged = .ok s'') : Before s s'' := by
  obtain ⟨hempty, hname, hinode, -⟩ := unlink_ok h.staging hu
  refine ⟨⟨fun name => by rw [hname, h.name], fun file hlt => ?_⟩, hempty⟩
  rw [hinode file (by omega), h.inode file hlt]

theorem Linked.unlink (hs : Clean s) (h : Linked serviceUid publication s staged s')
    (hu : s'.unlink .staging staged = .ok s'') : After serviceUid publication s s'' := by
  obtain ⟨hempty, hname, hinode, hfile⟩ := unlink_ok h.staging hu
  refine ⟨⟨fun name hne => by rw [hname, h.name name hne], fun name file hne hlookup => ?_⟩, hempty, ?_, ?_⟩
  · have hlt := hs.file _ _ hlookup
    rw [hinode file (by omega), h.text name file hne hlookup]
  · rw [hname, h.published]
  · rw [hfile, h.file]
    rfl

/-! ## The rules of the calls -/

section
variable {α : Type} {I : RecordStore → Prop} {w : RecordStore}

theorem safe_orThrow {Q : Except Errno α → RecordStore → Prop} {p : StorageProgram (Except Errno α)}
    (h : Safe (performs serviceUid) I p (fun r w => Q (r >>= id) w) w) : Safe (performs serviceUid) I (orThrow p) Q w := by
  refine (safe_bind _ Q p w).mpr (h.mono ?_)
  rintro (errno | errno | value) w h <;> exact h

variable {Q : Except Errno Unit → RecordStore → Prop}

theorem safe_sync (hI : I w) (hQ : ∀ r, Q r w) : Safe (performs serviceUid) I sync Q w := by
  refine safe_orThrow ?_
  rintro r w' rfl
  exact ⟨hI, hQ _⟩

theorem safe_close (hI : I w) (hQ : ∀ r, Q r w) : Safe (performs serviceUid) I close Q w := by
  refine safe_orThrow ?_
  rintro r w' rfl
  exact ⟨hI, hQ _⟩

theorem safe_openExclusive {Q : Except Errno Nat → RecordStore → Prop} (hI : I w) (herror : ∀ errno, Q (.error errno) w)
    (hok : ∀ file w', w.create .staging name serviceUid 0o600 = .ok (file, w') → I w' ∧ Q (.ok file) w') :
    Safe (performs serviceUid) I (openExclusive name) Q w := by
  refine safe_orThrow ?_
  rintro r w' (⟨file, rfl, h⟩ | ⟨errno, rfl, rfl⟩)
  · exact hok file w' h
  · exact ⟨hI, herror errno⟩

theorem safe_link (hI : I w) (herror : ∀ errno, Q (.error errno) w)
    (hok : ∀ w', w.link .staging staged .records name = .ok w' → I w' ∧ Q (.ok ()) w') :
    Safe (performs serviceUid) I (link staged name) Q w := by
  refine safe_orThrow ?_
  rintro r w' (⟨rfl, h⟩ | ⟨errno, rfl, rfl⟩)
  · exact hok w' h
  · exact ⟨hI, herror errno⟩

theorem safe_rename (hI : I w) (herror : ∀ errno, Q (.error errno) w)
    (hok : ∀ w', w.rename .staging staged .records name = .ok w' → I w' ∧ Q (.ok ()) w') :
    Safe (performs serviceUid) I (rename staged name) Q w := by
  refine safe_orThrow ?_
  rintro r w' (⟨rfl, h⟩ | ⟨errno, rfl, rfl⟩)
  · exact hok w' h
  · exact ⟨hI, herror errno⟩

theorem safe_unlink (hI : I w) (herror : ∀ errno, (errno = .missing → w.lookup .staging staged = none) → Q (.error errno) w)
    (hok : ∀ w', w.unlink .staging staged = .ok w' → I w' ∧ Q (.ok ()) w') :
    Safe (performs serviceUid) I (unlink staged) Q w := by
  refine safe_orThrow ?_
  rintro r w' (⟨rfl, h⟩ | ⟨errno, rfl, rfl, h⟩)
  · exact hok w' h
  · exact ⟨hI, herror errno h⟩

end

/-! ## The programs -/

/-- The record has its name, with the staging file still there or not. -/
def Published (serviceUid : Nat) (publication : ReviewPublication) (s : RecordStore) (staged : String) (s' : RecordStore) :
    Prop :=
  Linked serviceUid publication s staged s' ∨ After serviceUid publication s s'

theorem Published.interrupted (h : Published serviceUid publication s staged s') : Interrupted serviceUid publication s s' :=
  h.elim .linked .after

section
variable {w : RecordStore} {text : String}

/-- The staging file of a publication that failed is removed, or stays. -/
theorem removeStaged_staged (h : Staged serviceUid publication s staged text w) :
    Safe (performs serviceUid) (Interrupted serviceUid publication s) (removeStaged staged)
      (fun _ => Interrupted serviceUid publication s) w := by
  refine Safe.orElse (P := fun _ => Interrupted serviceUid publication s) ?_ (fun _ _ h => h) ?_
  · exact safe_unlink (.staged h) (fun _ _ => .staged h) fun w' hu => ⟨.before (h.unlink hu), .before (h.unlink hu)⟩
  · intro errno w h
    split <;> exact h

/-- Once the record has its name, the removal leaves the record alone. -/
theorem removeStaged_published (hs : Clean s) (h : Published serviceUid publication s staged w) :
    Safe (performs serviceUid) (Interrupted serviceUid publication s) (removeStaged staged)
      (fun r w => match r with
        | .ok _ => After serviceUid publication s w
        | .error _ => Interrupted serviceUid publication s w) w := by
  refine Safe.orElse (P := fun r w => match r with
    | .ok _ => After serviceUid publication s w
    | .error errno => Interrupted serviceUid publication s w ∧ (errno = .missing → After serviceUid publication s w))
    ?_ (fun _ _ h => h) ?_
  · rcases h with h | h
    · refine safe_unlink (.linked h) (fun errno hmissing => ⟨.linked h, fun he => ?_⟩) fun w' hu =>
        ⟨.after (h.unlink hs hu), h.unlink hs hu⟩
      have hlookup := lookup_of_staging h.staging
      rw [hmissing he] at hlookup
      cases hlookup
    · refine safe_unlink (.after h) (fun errno _ => ⟨.after h, fun _ => h⟩) fun w' hu => ?_
      simp [FileSystem.unlink, FileSystem.lookup, h.staging] at hu
  · rintro errno w ⟨h, hmissing⟩
    split
    · rename_i he
      exact hmissing he
    · exact h

/-- The staging file with a part of the text, which is the whole text where nothing failed. -/
def Filled (serviceUid : Nat) (publication : ReviewPublication) (s : RecordStore) (staged : String) (r : Except Errno Unit)
    (s' : RecordStore) : Prop :=
  ∃ text, Staged serviceUid publication s staged text s' ∧ (r = .ok () → text = publication.serialized)

theorem fill_safe (h : Staged serviceUid publication s staged "" w) :
    Safe (performs serviceUid) (Interrupted serviceUid publication s)
      (do writeFile s.inodes.length publication.serialized; chmod s.inodes.length; sync)
      (Filled serviceUid publication s staged) w := by
  have hwrite : Safe (performs serviceUid) (Interrupted serviceUid publication s)
      (writeFile s.inodes.length publication.serialized) (Filled serviceUid publication s staged) w := by
    refine safe_orThrow ?_
    have hpart : ∀ part : String, Staged serviceUid publication s staged part
        (w.modify s.inodes.length fun i => { i with text := i.text ++ part }) := fun part =>
      h.modify (by simp [stagedInode])
    rintro r w' (⟨rfl, rfl⟩ | ⟨errno, part, rfl, -, rfl⟩)
    · exact ⟨.staged (hpart _), _, hpart _, fun _ => rfl⟩
    · exact ⟨.staged (hpart _), _, hpart _, fun h => by cases h⟩
  have hchmod : ∀ text w, Staged serviceUid publication s staged text w → text = publication.serialized →
      Safe (performs serviceUid) (Interrupted serviceUid publication s) (chmod s.inodes.length)
        (Filled serviceUid publication s staged) w := by
    intro text w h ht
    refine safe_orThrow ?_
    have hmode : Staged serviceUid publication s staged text
        (w.modify s.inodes.length fun i => { i with mode := 0o600 }) := h.modify rfl
    rintro r w' (⟨rfl, rfl⟩ | ⟨errno, rfl, rfl⟩)
    · exact ⟨.staged hmode, text, hmode, fun _ => ht⟩
    · exact ⟨.staged h, text, h, fun _ => ht⟩
  refine hwrite.andThen (fun _ w hfilled => ?_) fun _ _ hfilled => hfilled.imp fun _ h => ⟨h.1, fun h => by cases h⟩
  obtain ⟨text, h, ht⟩ := hfilled
  refine (hchmod text w h (ht rfl)).andThen (fun _ w hfilled => ?_) fun _ _ hfilled => hfilled.imp fun _ h =>
    ⟨h.1, fun h => by cases h⟩
  obtain ⟨text, h, ht⟩ := hfilled
  exact safe_sync (.staged h) fun _ => ⟨text, h, fun _ => ht rfl⟩

theorem stage_safe (hs : Clean s) :
    Safe (performs serviceUid) (Interrupted serviceUid publication s) (stage publication)
      (fun r w => match r with
        | .ok staged => Staged serviceUid publication s staged publication.serialized w
        | .error _ => Interrupted serviceUid publication s w) s := by
  have hbefore : Interrupted serviceUid publication s s := .before hs.before
  unfold stage
  refine Safe.andThen (P := fun r w => w = s ∧ ∀ uuid, r = .ok uuid → Pattern.uuid uuid = true) ?_ ?_ ?_
  · rintro uuid w' ⟨hu, rfl⟩
    exact ⟨hbefore, rfl, fun _ h => by cases h; exact hu⟩
  · rintro uuid w ⟨rfl, hu⟩
    refine Safe.andThen (P := fun r w' => match r with
      | .ok file => file = w.inodes.length ∧ Staged serviceUid publication w (stagedName publication uuid) "" w'
      | .error _ => Interrupted serviceUid publication w w') ?_ ?_ fun _ _ h => h
    · exact safe_openExclusive hbefore (fun _ => hbefore) fun file w' h =>
        ⟨.staged (hs.create (hu _ rfl) h).2, hs.create (hu _ rfl) h⟩
    · rintro file w' ⟨rfl, h⟩
      refine Safe.andThen (P := fun r w' => match r with
        | .ok _ => Staged serviceUid publication w (stagedName publication uuid) publication.serialized w'
        | .error _ => Interrupted serviceUid publication w w') ?_ ?_ fun _ _ h => h
      · -- the text is written and synced, or the file is removed again
        refine (fill_safe h).orElse ?_ ?_
        · rintro _ w' ⟨text, h, ht⟩
          exact ht rfl ▸ h
        · rintro errno w' ⟨text, h, -⟩
          refine Safe.andThen (P := fun _ w'' => w'' = w') (safe_close (.staged h) fun _ => rfl) ?_ ?_
          · rintro _ w'' rfl
            exact (removeStaged_staged h).andThen (fun _ _ h => h) fun _ _ h => h
          · rintro _ w'' rfl
            exact .staged h
      · intro _ w' h
        refine Safe.andThen (P := fun _ w'' => w'' = w') (safe_close (.staged h) fun _ => rfl) ?_ ?_
        · rintro _ w'' rfl
          exact h
        · rintro _ w'' rfl
          exact .staged h
  · rintro _ w ⟨rfl, -⟩
    exact hbefore

/-- A publication by a call that gives the staging file its name, or fails. -/
theorem publishBy_safe (hs : Clean s) {call : String → String → StorageProgram Unit}
    (hcall : ∀ staged w, Staged serviceUid publication s staged publication.serialized w →
      Safe (performs serviceUid) (Interrupted serviceUid publication s) (call staged publication.name)
        (fun r w => match r with
          | .ok _ => Published serviceUid publication s staged w
          | .error _ => Staged serviceUid publication s staged publication.serialized w) w) :
    Safe (performs serviceUid) (Interrupted serviceUid publication s) (publishBy call publication)
      (fun r w => match r with
        | .ok _ => After serviceUid publication s w
        | .error _ => Interrupted serviceUid publication s w) s := by
  refine (stage_safe hs).andThen (fun staged w h => ?_) fun _ _ h => h
  refine Safe.andThen (P := fun r w => match r with
    | .ok _ => After serviceUid publication s w
    | .error _ => Interrupted serviceUid publication s w) ?_ ?_ fun _ _ h => h
  · refine Safe.andFinally (P := fun r w => match r with
      | .ok _ => Published serviceUid publication s staged w
      | .error _ => Staged serviceUid publication s staged publication.serialized w ∨
          Published serviceUid publication s staged w) ?_ ?_
    · refine (hcall staged w h).andThen (fun _ w h => ?_) fun _ _ h => .inl h
      refine safe_sync h.interrupted ?_
      rintro (errno | _)
      · exact .inr h
      · exact h
    · rintro (errno | _) w h
      · rcases h with h | h
        · exact (removeStaged_staged h).mono fun r w h => by cases r <;> exact h
        · refine (removeStaged_published hs h).mono fun r w h => ?_
          cases r
          · exact h
          · exact .after h
      · exact (removeStaged_published hs h).mono fun r w h => by cases r <;> exact h
  · intro _ w h
    refine safe_sync (.after h) ?_
    rintro (errno | _)
    · exact .after h
    · exact h

theorem publishReviewRecord_safe (hs : Clean s) :
    Safe (performs serviceUid) (Interrupted serviceUid publication s) (publishReviewRecord publication)
      (fun r w => match r with
        | .ok _ => After serviceUid publication s w
        | .error _ => Interrupted serviceUid publication s w) s :=
  publishBy_safe hs fun _ _ h => safe_link (.staged h) (fun _ => h) fun _ hl =>
    ⟨.linked (h.link hs rfl hl), .inl (h.link hs rfl hl)⟩

theorem replaceReviewRecord_safe (hs : Clean s) :
    Safe (performs serviceUid) (Interrupted serviceUid publication s) (replaceReviewRecord publication)
      (fun r w => match r with
        | .ok _ => After serviceUid publication s w
        | .error _ => Interrupted serviceUid publication s w) s :=
  publishBy_safe hs fun _ _ h => safe_rename (.staged h) (fun _ => h) fun _ hr =>
    ⟨.after (h.rename hs hr), .inr (h.rename hs hr)⟩

end

/-! ## The next start -/

theorem read_of {area : Area} {file : Nat} (h : s.lookup area name = some file) :
    s.read area name = (s.inodes[file]?).map (·.text) := by
  simp [FileSystem.read, FileSystem.stat, h]

theorem read_none {area : Area} (h : s.lookup area name = none) : s.read area name = none := by
  simp [FileSystem.read, FileSystem.stat, h]

theorem Untouched.holds (hs : Clean s) (h : Untouched s s') : HoldsBefore s s' := by
  intro name
  cases hlookup : s.lookup .records name with
  | none => rw [read_none hlookup, read_none (by rw [h.name, hlookup])]
  | some file => rw [read_of hlookup, read_of (by rw [h.name, hlookup]), h.inode file (hs.file _ _ hlookup)]

theorem Others.holds (h : Others publication s s') (hp : s'.lookup .records publication.name = some s.inodes.length)
    (hf : s'.inodes[s.inodes.length]? = some inode) (ht : inode.text = publication.serialized) :
    HoldsAfter s publication s' := by
  intro name
  split
  · subst name
    rw [read_of hp, hf, Option.map_some, ht]
  · rename_i hne
    cases hlookup : s.lookup .records name with
    | none => rw [read_none hlookup, read_none (by rw [h.name name hne, hlookup])]
    | some file => rw [read_of hlookup, read_of (by rw [h.name name hne, hlookup]), h.text name file hne hlookup]

theorem Interrupted.holds (hs : Clean s) (h : Interrupted serviceUid publication s s') :
    HoldsBefore s s' ∨ HoldsAfter s publication s' := by
  cases h with
  | before h => exact .inl (h.holds hs)
  | staged h => exact .inl (h.holds hs)
  | linked h => exact .inr (h.holds h.published h.file rfl)
  | after h => exact .inr (h.holds h.published h.file rfl)

theorem Before.clean (hs : Clean s) (h : Before s s') : Clean s' := by
  refine ⟨h.staging, fun name file hlookup => ?_⟩
  rw [h.name] at hlookup
  have hlt := hs.file _ _ hlookup
  have hsome : (s'.inodes[file]?).isSome := by
    rw [h.inode file hlt]
    simpa using hlt
  simpa using hsome

theorem After.clean (hs : Clean s) (h : After serviceUid publication s s') : Clean s' := by
  refine ⟨h.staging, fun name file hlookup => ?_⟩
  have hsome : (s'.inodes[file]?).isSome := by
    by_cases hne : name = publication.name
    · subst hne
      cases h.published.symm.trans hlookup
      rw [h.file]
      rfl
    · rw [h.name name hne] at hlookup
      have hlt := hs.file _ _ hlookup
      have htext := h.text name file hne hlookup
      rw [List.getElem?_eq_getElem hlt] at htext
      cases hinode : s'.inodes[file]? with
      | none =>
        rw [hinode] at htext
        cases htext
      | some _ => rfl
  simpa using hsome

theorem recover_empty (h : s'.entries .staging = []) : recoverPublishedReviewStaging serviceUid s' = (.ok (), s') := by
  rw [recoverPublishedReviewStaging, h]
  rfl

theorem privateReviewFile_staged (text : String) (nlink : Nat) :
    privateReviewFile serviceUid { stagedInode serviceUid text with nlink } = true := by
  simp [privateReviewFile, stagedInode]

theorem entryFinalName_regular {file : Nat} (hname : finalName staged = some name) (hfile : s'.inodes[file]? = some inode)
    (hkind : inode.kind = .regular) : entryFinalName s' staged file = .ok name := by
  unfold entryFinalName
  rw [hname, hfile]
  simp [hkind]

/-- The staging file is not the record of that name. -/
theorem recover_staged {text : String} (hs : Clean s) (h : Staged serviceUid publication s staged text s') :
    ∃ error, recoverPublishedReviewStaging serviceUid s' = (.error error, s') := by
  have hopen : openNoFollow s' .staging staged = .ok (s.inodes.length, stagedInode serviceUid text) := by
    simp [openNoFollow, lookup_of_staging h.staging, h.file, stagedInode]
  have hprivate : assertPrivateReviewFile serviceUid (stagedInode serviceUid text) = .ok () :=
    if_pos (privateReviewFile_staged text 1)
  have hname : entryFinalName s' staged s.inodes.length = .ok publication.name := entryFinalName_regular h.final h.file rfl
  have hentry : ∃ error, recoverEntry serviceUid (staged, s.inodes.length) s' = .error error := by
    simp only [recoverEntry, hname, ok_andThen, hopen, hprivate]
    cases hfinal : openNoFollow s' .records publication.name with
    | error error => exact ⟨error, rfl⟩
    | ok published =>
      rw [ok_andThen]
      have hlt : published.1 < s.inodes.length := by
        unfold openNoFollow at hfinal
        split at hfinal
        · cases hfinal
        rename_i file hlookup
        split at hfinal
        · cases hfinal
        split at hfinal <;> cases hfinal
        exact hs.file _ _ (by rw [← h.name, hlookup])
      cases assertPrivateReviewFile serviceUid published.2 with
      | error error => exact ⟨error, rfl⟩
      | ok =>
        rw [ok_andThen, assertPublished, if_neg (fun hsame => Nat.ne_of_gt hlt hsame.1)]
        exact ⟨_, rfl⟩
  obtain ⟨error, hentry⟩ := hentry
  refine ⟨error, ?_⟩
  simp only [recoverPublishedReviewStaging, h.staging, recoverEntries, hentry, thenRecover]

/-- The staging file is the record: its second name is removed. -/
theorem recover_linked (hs : Clean s) (h : Linked serviceUid publication s staged s') :
    ∃ s'', recoverPublishedReviewStaging serviceUid s' = (.ok (), s'') ∧ After serviceUid publication s s'' := by
  let inode : Inode := { stagedInode serviceUid publication.serialized with nlink := 2 }
  have hopen : openNoFollow s' .staging staged = .ok (s.inodes.length, inode) := by
    simp [openNoFollow, lookup_of_staging h.staging, h.file, inode, stagedInode]
  have hfinal : openNoFollow s' .records publication.name = .ok (s.inodes.length, inode) := by
    simp [openNoFollow, h.published, h.file, inode, stagedInode]
  have hprivate : assertPrivateReviewFile serviceUid inode = .ok () := if_pos (privateReviewFile_staged _ 2)
  have hname : entryFinalName s' staged s.inodes.length = .ok publication.name := entryFinalName_regular h.final h.file rfl
  have hpublished : assertPublished (s.inodes.length, inode) (s.inodes.length, inode) = .ok () := if_pos ⟨rfl, rfl, rfl⟩
  obtain ⟨s'', hu⟩ : ∃ s'', s'.unlink .staging staged = .ok s'' := by
    simp [FileSystem.unlink, lookup_of_staging h.staging]
  refine ⟨s'', ?_, h.unlink hs hu⟩
  have hentry : recoverEntry serviceUid (staged, s.inodes.length) s' = .ok s'' := by
    simp only [recoverEntry, hname, ok_andThen, hopen, hprivate, hfinal, hpublished, hu]
    rfl
  simp only [recoverPublishedReviewStaging, h.staging, recoverEntries, hentry, thenRecover]

theorem not_unpublished_of_empty (h : s'.entries .staging = []) : ¬ Unpublished s' := by
  rintro ⟨entry, hmem, -⟩
  rw [h] at hmem
  cases hmem

theorem Staged.unpublished {text : String} (hs : Clean s) (h : Staged serviceUid publication s staged text s') :
    Unpublished s' := by
  refine ⟨(staged, s.inodes.length), by simp [h.staging], fun name hlookup => ?_⟩
  rw [h.name] at hlookup
  exact Nat.lt_irrefl _ (hs.file _ _ hlookup)

theorem Linked.not_unpublished (h : Linked serviceUid publication s staged s') : ¬ Unpublished s' := by
  rintro ⟨entry, hmem, hno⟩
  rw [h.staging, List.mem_singleton] at hmem
  subst hmem
  exact hno _ h.published

/-- The next start finishes a publication whose staging file is its record, or is gone. -/
theorem Interrupted.recovers (hs : Clean s) (h : Interrupted serviceUid publication s s') (hu : ¬ Unpublished s') :
    ∃ s'', recoverPublishedReviewStaging serviceUid s' = (.ok (), s'') ∧ Clean s'' ∧
      (HoldsBefore s s'' ∨ HoldsAfter s publication s'') := by
  cases h with
  | before h => exact ⟨s', recover_empty h.staging, h.clean hs, .inl (h.holds hs)⟩
  | staged h => exact absurd (h.unpublished hs) hu
  | linked h =>
    obtain ⟨s'', hok, ha⟩ := recover_linked hs h
    exact ⟨s'', hok, ha.clean hs, .inr (ha.holds ha.published ha.file rfl)⟩
  | after h => exact ⟨s', recover_empty h.staging, h.clean hs, .inr (h.holds h.published h.file rfl)⟩

/-- It rejects a staging file without its record, and leaves the store as it was before the publication. -/
theorem Interrupted.rejects (hs : Clean s) (h : Interrupted serviceUid publication s s') (hu : Unpublished s') :
    HoldsBefore s s' ∧ ∃ error, recoverPublishedReviewStaging serviceUid s' = (.error error, s') := by
  cases h with
  | before h => exact absurd hu (not_unpublished_of_empty h.staging)
  | staged h => exact ⟨h.holds hs, recover_staged hs h⟩
  | linked h => exact absurd hu h.not_unpublished
  | after h => exact absurd hu (not_unpublished_of_empty h.staging)

end

/-! ## Crashes -/

inductive Write where
  | publish
  | replace

def Write.program : Write → ReviewPublication → StorageProgram Unit
  | .publish => publishReviewRecord
  | .replace => replaceReviewRecord

section
variable {serviceUid : Nat} {s s' : RecordStore} {publication : ReviewPublication} {write : Write}
  {rest : StorageProgram Unit}

theorem Write.interrupted (hs : Clean s) (hr : Reaches (performs serviceUid) (write.program publication) s rest s') :
    Interrupted serviceUid publication s s' ∧ (rest = .done () → After serviceUid publication s s') := by
  have hsafe : Safe (performs serviceUid) (Interrupted serviceUid publication s) (write.program publication)
      (fun r w => match r with
        | .ok _ => After serviceUid publication s w
        | .error _ => Interrupted serviceUid publication s w) s := by
    cases write with
    | publish => exact publishReviewRecord_safe hs
    | replace => exact replaceReviewRecord_safe hs
  obtain ⟨hi, hrest⟩ := hsafe.reaches (.before hs.before) hr
  refine ⟨hi, ?_⟩
  rintro rfl
  exact hrest

/-- A crash anywhere in a publication, and the next start. -/
theorem publication_crash (hs : Clean s) (hr : Reaches (performs serviceUid) (write.program publication) s rest s') :
    (HoldsBefore s s' ∨ HoldsAfter s publication s') ∧
    (rest = .done () → s'.entries .staging = [] ∧ HoldsAfter s publication s') ∧
    (¬ Unpublished s' → ∃ s'', recoverPublishedReviewStaging serviceUid s' = (.ok (), s'') ∧ Clean s'' ∧
      (HoldsBefore s s'' ∨ HoldsAfter s publication s'')) ∧
    (Unpublished s' → HoldsBefore s s' ∧
      ∃ error, recoverPublishedReviewStaging serviceUid s' = (.error error, s')) := by
  obtain ⟨hi, hafter⟩ := Write.interrupted hs hr
  refine ⟨hi.holds hs, fun hdone => ?_, hi.recovers hs, hi.rejects hs⟩
  have ha := hafter hdone
  exact ⟨ha.staging, ha.holds ha.published ha.file rfl⟩

/-- The stores that the starts of a service find, after these publications, the last first, and whether each of them ended. A
store is left by a publication after a start that succeeded, which changes nothing where the last one ended. -/
inductive Left (serviceUid : Nat) : List (ReviewPublication × Bool) → RecordStore → Prop
  | empty : Left serviceUid [] { inodes := [], entries := fun _ => [] }
  | publication {history : List (ReviewPublication × Bool)} {s s' : RecordStore} {write : Write}
      {publication : ReviewPublication}
    {rest : StorageProgram Unit} (h : Left serviceUid history s)
    (hok : (recoverPublishedReviewStaging serviceUid s).1 = .ok ())
    (hr : Reaches (performs serviceUid) (write.program publication) (recoverPublishedReviewStaging serviceUid s).2 rest s')
    {ended : Bool} (hended : ended = true → rest = .done ()) : Left serviceUid ((publication, ended) :: history) s'

theorem clean_empty : Clean { inodes := [], entries := fun _ => [] } :=
  ⟨rfl, fun name file h => by cases h⟩

/-- The records of these publications, the last first. -/
def Holds (s : RecordStore) (kept : List ReviewPublication) : Prop :=
  ∀ name, s.read .records name = (kept.find? (·.name = name)).map (·.serialized)

theorem HoldsAfter.holds {kept : List ReviewPublication} (h : HoldsAfter s publication s') (hs : Holds s kept) :
    Holds s' (publication :: kept) := by
  intro name
  rw [h name, List.find?_cons]
  by_cases hname : name = publication.name
  · simp [hname]
  · rw [if_neg hname, hs name, decide_eq_false (Ne.symm hname)]

/-- Whatever crashed before, a start that succeeds finds or makes a clean store. It holds every publication that ended,
and of
the others each one wholly or not at all, in their order. -/
theorem store_history {history : List (ReviewPublication × Bool)} (h : Left serviceUid history s)
    (hok : (recoverPublishedReviewStaging serviceUid s).1 = .ok ()) :
    Clean (recoverPublishedReviewStaging serviceUid s).2 ∧
      ∃ kept, ((history.filter (·.2)).map (·.1)).Sublist kept ∧ kept.Sublist (history.map (·.1)) ∧
        Holds (recoverPublishedReviewStaging serviceUid s).2 kept := by
  induction h with
  | empty =>
    rw [recover_empty rfl]
    exact ⟨clean_empty, [], .slnil, .slnil, fun name => read_none rfl⟩
  | @publication history s s' write publication rest h hok' hr ended hended ih =>
    obtain ⟨hs, kept, hlower, hupper, hholds⟩ := ih hok'
    obtain ⟨hi, hafter⟩ := Write.interrupted hs hr
    cases ended with
    | true =>
      have ha := hafter (hended rfl)
      rw [recover_empty ha.staging]
      exact ⟨ha.clean hs, publication :: kept, hlower.cons_cons _, hupper.cons_cons _,
        (ha.holds ha.published ha.file rfl).holds hholds⟩
    | false =>
      by_cases hu : Unpublished s'
      · obtain ⟨-, error, herror⟩ := hi.rejects hs hu
        rw [herror] at hok
        cases hok
      · obtain ⟨s'', heq, hclean, hrecords⟩ := hi.recovers hs hu
        rw [heq]
        rcases hrecords with hbefore | hrecord
        · exact ⟨hclean, kept, hlower, hupper.cons _, fun name => (hbefore name).trans (hholds name)⟩
        · exact ⟨hclean, publication :: kept, hlower.cons _, hupper.cons_cons _, hrecord.holds hholds⟩

end

namespace Sample

def publication : ReviewPublication :=
  { name := "0123456789abcdef0123456789abcdef0123456789abcdef0123456789abcdef.json", serialized := "record",
    named := by decide +kernel }

def uuid : String := "00000000-0000-4000-8000-000000000000"

def emptyStore : RecordStore := { inodes := [], entries := fun _ => [] }

/-- The store with an empty staging file. -/
def created : RecordStore :=
  match emptyStore.create .staging (stagedName publication uuid) 0 0o600 with
  | .ok (_, s) => s
  | .error _ => emptyStore

theorem create_created : emptyStore.create .staging (stagedName publication uuid) 0 0o600 = .ok (0, created) := rfl

theorem uuid_valid : Pattern.uuid uuid = true := by decide +kernel

/-- The service is killed between the two names of the record. -/
theorem reaches_created : ∃ rest, Reaches (performs 0) (publishReviewRecord publication) emptyStore rest created := by
  apply Exists.intro
  show Reaches (performs 0) (.perform Call.randomUUID _) emptyStore _ created
  apply Reaches.perform (a := uuid) ⟨uuid_valid, rfl⟩
  show Reaches (performs 0) (.perform (Call.create (stagedName publication uuid)) _) emptyStore _ created
  apply Reaches.perform (a := .ok 0) (.inl ⟨0, rfl, create_created⟩)
  exact .here

theorem unpublished_created : Unpublished created :=
  ⟨(stagedName publication uuid, 0), List.mem_singleton.mpr rfl, fun name h => by cases h⟩

/-- A publication killed before its link: the next start fails. -/
theorem recovery_fails : ¬ ∀ (s s' : RecordStore) (rest : StorageProgram Unit), Clean s →
    Reaches (performs 0) (publishReviewRecord publication) s rest s' →
    (recoverPublishedReviewStaging 0 s').1 = .ok () := by
  intro h
  obtain ⟨rest, hr⟩ := reaches_created
  have hr' : Reaches (performs 0) (Write.publish.program publication) emptyStore rest created := hr
  obtain ⟨-, error, herror⟩ := (Write.interrupted clean_empty hr').1.rejects clean_empty unpublished_created
  have hok := h emptyStore created rest clean_empty hr
  rw [herror] at hok
  cases hok

/-- It leaves the store as the kill did. -/
theorem publication_crash_created : HoldsBefore emptyStore created ∧
    ∃ error, recoverPublishedReviewStaging 0 created = (.error error, created) := by
  obtain ⟨rest, hr⟩ := reaches_created
  have hr' : Reaches (performs 0) (Write.publish.program publication) emptyStore rest created := hr
  exact (publication_crash clean_empty hr').2.2.2 unpublished_created

/-- Every call is done where it can be. -/
def reply : (call : Call) → RecordStore → call.Answer × RecordStore
  | .randomUUID, s => (uuid, s)
  | .create name, s =>
    match s.create .staging name 0 0o600 with
    | .ok (file, s') => (.ok file, s')
    | .error errno => (.error errno, s)
  | .write file text, s => (.ok (), s.modify file fun i => { i with text := i.text ++ text })
  | .chmod file, s => (.ok (), s.modify file fun i => { i with mode := 0o600 })
  | .sync, s | .close, s => (.ok (), s)
  | .link staged name, s => done s (s.link .staging staged .records name)
  | .rename staged name, s => done s (s.rename .staging staged .records name)
  | .unlink staged, s => done s (s.unlink .staging staged)
where
  done (s : RecordStore) : Except Errno RecordStore → Except Errno Unit × RecordStore
    | .ok s' => (.ok (), s')
    | .error errno => (.error errno, s)

theorem reply_performs (call : Call) (s : RecordStore) : performs 0 call s (reply call s).1 (reply call s).2 := by
  cases call with
  | randomUUID => exact ⟨uuid_valid, rfl⟩
  | create name =>
    simp only [reply]
    cases h : s.create .staging name 0 0o600 with
    | ok created => exact .inl ⟨created.1, rfl, h⟩
    | error errno => exact .inr ⟨errno, rfl, rfl⟩
  | write => exact .inl ⟨rfl, rfl⟩
  | chmod => exact .inl ⟨rfl, rfl⟩
  | sync => exact rfl
  | close => exact rfl
  | link staged name =>
    simp only [reply]
    cases h : s.link .staging staged .records name with
    | ok s' => exact .inl ⟨rfl, h⟩
    | error errno => exact .inr ⟨errno, rfl, rfl⟩
  | rename staged name =>
    simp only [reply]
    cases h : s.rename .staging staged .records name with
    | ok s' => exact .inl ⟨rfl, h⟩
    | error errno => exact .inr ⟨errno, rfl, rfl⟩
  | unlink staged =>
    simp only [reply]
    cases h : s.unlink .staging staged with
    | ok s' => exact .inl ⟨rfl, h⟩
    | error errno =>
      refine .inr ⟨errno, rfl, rfl, fun _ => ?_⟩
      cases hlookup : s.lookup .staging staged with
      | none => rfl
      | some file => simp [FileSystem.unlink, hlookup] at h

/-- The store after a publication that was killed when its record had both names. -/
def linked : RecordStore :=
  (reply (.link (stagedName publication uuid) publication.name) ((stage publication).exec reply emptyStore).2).2

theorem reaches_linked : ∃ rest, Reaches (performs 0) (Write.publish.program publication) emptyStore rest linked := by
  have hstage := reaches_exec reply_performs (stage publication) emptyStore
  rw [show ((stage publication).exec reply emptyStore).1 = .ok (stagedName publication uuid) by decide +kernel] at hstage
  exact ⟨_, hstage.andThen (.perform (reply_performs _ _) .here)⟩

def replacement : ReviewPublication := { publication with serialized := "replacement" }

/-- The store after the next start and a replacement that ended. -/
def replaced : RecordStore :=
  ((replaceReviewRecord replacement).exec reply (recoverPublishedReviewStaging 0 linked).2).2

theorem store_history_replaced : ∃ kept, [replacement].Sublist kept ∧ kept.Sublist [replacement, publication] ∧
    Holds (recoverPublishedReviewStaging 0 replaced).2 kept := by
  obtain ⟨hlinked, hended, hreplaced⟩ : (recoverPublishedReviewStaging 0 linked).1 = .ok () ∧
      ((replaceReviewRecord replacement).exec reply (recoverPublishedReviewStaging 0 linked).2).1 = .ok () ∧
        (recoverPublishedReviewStaging 0 replaced).1 = .ok () := by decide +kernel
  obtain ⟨rest, hpublish⟩ := reaches_linked
  have hreplace := reaches_exec reply_performs (Write.replace.program replacement) (recoverPublishedReviewStaging 0 linked).2
  rw [show ((Write.replace.program replacement).exec reply _).1 = .ok () from hended] at hreplace
  have hfirst : Left 0 [(publication, false)] linked := by
    refine @Left.publication 0 [] _ linked .publish publication rest .empty (by rw [recover_empty rfl]) ?_ false (by simp)
    rwa [recover_empty rfl]
  have hsecond : Left 0 [(replacement, true), (publication, false)] replaced :=
    .publication hfirst hlinked hreplace fun _ => rfl
  obtain ⟨-, kept, hlower, hupper, hholds⟩ := store_history hsecond hreplaced
  exact ⟨kept, hlower, hupper, hholds⟩

end Sample

end Dim.NativeGit
