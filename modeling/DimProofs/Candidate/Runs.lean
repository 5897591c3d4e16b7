/-
What a materialization leaves: where it succeeds, the destination holds a file for each item of the tree, under its decoded
names; where it fails, nothing but what was there, unless a removal failed.
-/
import DimProofs.Candidate.Materialize

namespace Dim.Candidate

open Effectful Relational
open Snapshot (Bytes Digest Repository Path Content FileTree TreeEntry withoutMark)

variable (d : Digest) (git : Repository) (limits : CandidateObjectLimits)

/-! ## The items of a tree -/

def blobOf (e : TreeEntry) : Bytes := (git.catFile .blob e.objectId).getD []

/-- An item below the directory `name`. -/
def inside (name : Bytes) (item : Path × Content) : Path × Content := (name :: item.1, item.2)

/-- An entry and what is below it. -/
def entryItems (below : Bytes → List (Path × Content)) (e : TreeEntry) : List (Path × Content) :=
  match modeOf e with
  | .directory => ([e.name], .directory) :: (below e.objectId).map (inside e.name)
  | .regular => [([e.name], .file false (blobOf git e))]
  | .executable => [([e.name], .file true (blobOf git e))]

/-- The directories and files of a tree, by their exact names. -/
def items : Nat → Bytes → List (Path × Content)
  | 0, _ => []
  | levels + 1, tree => (treeEntries git tree).flatMap (entryItems git (items levels))

/-- What is read for an entry. -/
def EntryRead (below : Bytes → Prop) (e : TreeEntry) : Prop :=
  if modeOf e = .directory then below e.objectId
  else ∃ bytes, readBlob d git e.objectId limits.maximumBlobBytes = .ok bytes

/-- Every tree and blob of a tree is read within its limit. -/
def WellRead : Nat → Bytes → Prop
  | 0, _ => False
  | levels + 1, tree => (∃ listing, readTree d git tree limits.maximumTreeBytes = .ok listing) ∧
    ∀ e ∈ treeEntries git tree, EntryRead d git limits (WellRead levels) e

/-- Where an item is written below the directory `parent`. -/
def placed (parent : Path) (item : Path × Content) : Path × Content := (parent ++ item.1.map withoutMark, item.2)

theorem placed_inside (parent : Path) (name : Bytes) (item : Path × Content) :
    placed parent (inside name item) = placed (parent ++ [withoutMark name]) item := by
  simp [placed, inside]

/-! ## Steps that keep the rest -/

/-- Nothing has changed but what the staging directory holds. -/
structure Kept (w w' : World) : Prop where
  destination : w'.destination = w.destination
  removal : w'.removalFailed = w.removalFailed
  staging : ∃ fs, w'.staging = some fs

theorem Kept.trans {w w' w'' : World} (h : Kept w w') (h' : Kept w' w'') : Kept w w'' :=
  ⟨h'.destination.trans h.destination, h'.removal.trans h.removal, h'.staging⟩

/-- A part of a materialization ends; where it goes well, as `R` says. -/
def Ends {α : Type} (w : World) (R : α → World → Prop) : Except String α → World → Prop
  | .ok value, w' => Kept w w' ∧ R value w'
  | .error _, w' => Kept w w'

/-- No invariant is asked of the states in between. -/
abbrev Leads {α : Type} (p : Action α) (w : World) (R : α → World → Prop) : Prop :=
  Safe (Acts d git) (fun _ => True) p (Ends w R) w

variable {d git limits}

variable {α : Type}

theorem Leads.andThen {β : Type} {p : Action α} {f : α → Action β} {w : World} {R : α → World → Prop} {R' : β → World → Prop}
    (hp : Leads d git p w R) (hf : ∀ value w', Kept w w' → R value w' → Leads d git (f value) w' R') :
    Leads d git (p >>= f) w R' := by
  refine Safe.andThen hp (fun value w' h => ?_) fun _ _ h => h
  refine (hf value w' h.1 h.2).mono ?_
  rintro (failure | value') w'' hends
  · exact h.1.trans hends
  · exact ⟨h.1.trans hends.1, hends.2⟩

theorem Leads.imp {p : Action α} {w : World} {R R' : α → World → Prop} (hp : Leads d git p w R)
    (himp : ∀ value w', R value w' → R' value w') : Leads d git p w R' := by
  refine hp.mono ?_
  rintro (failure | value) w' h
  · exact h
  · exact ⟨h.1, himp value w' h.2⟩

section Calls

variable {w : World} {fs : FileTree}

theorem kept_staging (fs : FileTree) : Kept w { w with staging := some fs } := ⟨rfl, rfl, fs, rfl⟩

theorem leads_throw {α : Type} {R : α → World → Prop} (hstaging : w.staging = some fs) (message : String) :
    Leads d git (throw message) w R := ⟨rfl, rfl, fs, hstaging⟩

/-- Reading leaves the world alone. -/
theorem leads_read {c : Call} (hstaging : w.staging = some fs) (hstill : ∀ masked, (perform d git masked c w).2 = w)
    (hleft : ∀ w', left c w w' → w' = w) :
    Leads d git (run c) w fun value w' => w' = w ∧ ∃ masked, (perform d git masked c w).1 = .ok value := by
  refine safe_call (fun masked answer w' hperform => ⟨trivial, ?_⟩) fun _ failure w' h => ⟨trivial, ?_⟩
  · obtain rfl : w' = w := by rw [← hstill masked, hperform]
    have hkept : Kept w' w' := ⟨rfl, rfl, fs, hstaging⟩
    cases answer with
    | error failure => exact hkept
    | ok value => exact ⟨hkept, rfl, masked, by rw [hperform]⟩
  · rw [hleft w' h]
    exact ⟨rfl, rfl, fs, hstaging⟩

variable {path : Path}

theorem ends_add {content : Content} {answer : Except String Unit} {w' : World} (hstaging : w.staging = some fs)
    (h : w.add path content = (answer, w')) :
    Ends w (fun _ w' => ∃ fs', w'.staging = some fs' ∧ fs'.entries = fs.entries ++ [(path, content)]) answer w' := by
  rw [World.add, hstaging, Option.bind_some] at h
  split at h
  · cases h
    exact ⟨rfl, rfl, fs, hstaging⟩
  · rename_i fs' hadd
    cases h
    exact ⟨kept_staging fs', fs', rfl, FileTree.add_eq_some hadd⟩

theorem leads_mkdir (hstaging : w.staging = some fs) :
    Leads d git (run (.mkdir path)) w fun _ w' =>
      ∃ fs', w'.staging = some fs' ∧ fs'.entries = fs.entries ++ [(path, .directory)] := by
  refine safe_call (fun masked answer w' h => ⟨trivial, ends_add hstaging h⟩) ?_
  rintro - failure _ ⟨fs', rfl⟩
  exact ⟨trivial, kept_staging fs'⟩

variable {bytes : Bytes} {executable : Bool}

/-- A file is written, with or without its executable bit. -/
theorem leads_writeFile (hstaging : w.staging = some fs) :
    Leads d git (run (.writeFile path bytes executable)) w fun _ w' =>
      ∃ executable' fs', w'.staging = some fs' ∧ fs'.entries = fs.entries ++ [(path, .file executable' bytes)] := by
  refine safe_call (fun masked answer w' h => ⟨trivial, ?_⟩) ?_
  · have hends := ends_add hstaging h
    cases answer with
    | error failure => exact hends
    | ok value => exact ⟨hends.1, _, hends.2⟩
  · rintro - failure _ ⟨fs', rfl⟩
    exact ⟨trivial, kept_staging fs'⟩

variable {executable' : Bool} {fs' : FileTree}

/-- The file that was written last gets its bit. -/
theorem chmod_last (h : fs'.entries = fs.entries ++ [(path, .file executable' bytes)]) :
    (chmod fs' path executable).entries = fs.entries ++ [(path, .file executable bytes)] := by
  have hdistinct := fs'.distinct
  rw [h, List.map_append, List.nodup_append] at hdistinct
  have hothers : fs.entries.map (fun entry =>
      (entry.1, if entry.1 = path then setMode executable entry.2 else entry.2)) = fs.entries := by
    refine (List.map_congr_left fun entry hentry => ?_).trans (List.map_id _)
    have hne : entry.1 ≠ path := hdistinct.2.2 entry.1 (List.mem_map_of_mem hentry) path (by simp)
    rw [if_neg hne]
    rfl
  rw [chmod]
  dsimp only
  rw [h, List.map_append, hothers]
  simp [setMode]

theorem leads_chmod (hstaging : w.staging = some fs')
    (h : fs'.entries = fs.entries ++ [(path, .file executable' bytes)]) :
    Leads d git (run (.chmod path executable)) w fun _ w' =>
      ∃ fs'', w'.staging = some fs'' ∧ fs''.entries = fs.entries ++ [(path, .file executable bytes)] := by
  refine safe_call (fun masked answer w' hperform => ⟨trivial, ?_⟩) ?_
  · simp only [perform, hstaging, Option.map_some, Prod.mk.injEq] at hperform
    obtain ⟨rfl, rfl⟩ := hperform
    exact ⟨kept_staging _, _, rfl, chmod_last h⟩
  · rintro - failure _ ⟨fs'', rfl⟩
    exact ⟨trivial, kept_staging fs''⟩

end Calls

/-! ## One entry after another -/

section Entries

variable {w : World} {fs : FileTree} {parent : Path} {state : MaterializeState} {e : TreeEntry}

/-- The staging directory holds `added` beside what it held. -/
def Added (fs : FileTree) (added : List (Path × Content)) (w : World) : Prop :=
  ∃ fs', w.staging = some fs' ∧ fs'.entries = fs.entries ++ added

theorem leads_file (hstaging : w.staging = some fs) (hmode : modeOf e ≠ .directory) :
    Leads d git (materializeFile limits (entryOf e) (parent ++ [withoutMark e.name]) state) w fun _ w' =>
      (∃ bytes, readBlob d git e.objectId limits.maximumBlobBytes = .ok bytes) ∧
        Added fs ((entryItems git (fun _ => []) e).map (placed parent)) w' := by
  unfold materializeFile
  split
  · exact leads_throw hstaging _
  · refine Leads.andThen (leads_read hstaging (fun _ => rfl) fun _ => id) ?_
    rintro bytes _ - ⟨rfl, masked, hread⟩
    have hblob : readBlob d git e.objectId limits.maximumBlobBytes = .ok bytes := readBlob_mono (Nat.min_le_left _ _) hread
    have hof : blobOf git e = bytes := by
      obtain ⟨hfile, -, -⟩ := Snapshot.readVerifiedBlobObject_ok hblob
      rw [blobOf, hfile]
      rfl
    have hitems : (entryItems git (fun _ => []) e).map (placed parent) =
        [(parent ++ [withoutMark e.name], .file (modeOf e = .executable) bytes)] := by
      unfold entryItems
      cases hkind : modeOf e with
      | directory => exact absurd hkind hmode
      | regular => simp [placed, hof]
      | executable => simp [placed, hof]
    rw [hitems]
    refine (leads_writeFile hstaging).andThen ?_
    rintro _ w' - ⟨executable', fs', hstaging', hentries⟩
    refine (leads_chmod hstaging' hentries).andThen ?_
    rintro _ w'' hkept hadded
    exact ⟨⟨rfl, rfl, hkept.staging⟩, ⟨bytes, hblob⟩, hadded⟩

variable {recurse : Bytes → Path → MaterializeState → Action MaterializeState} {below : Bytes → List (Path × Content)}
  {Read : Bytes → Prop}

/-- What a recursive call does. -/
def Recurses (d : Digest) (git : Repository) (recurse : Bytes → Path → MaterializeState → Action MaterializeState)
    (below : Bytes → List (Path × Content)) (Read : Bytes → Prop) : Prop :=
  ∀ tree parent state w fs, w.staging = some fs →
    Leads d git (recurse tree parent state) w fun _ w' => Read tree ∧ Added fs ((below tree).map (placed parent)) w'

theorem leads_entry (hrecurse : Recurses d git recurse below Read) (hstaging : w.staging = some fs) :
    Leads d git (materializeEntry limits recurse (entryOf e) parent state) w fun _ w' =>
      EntryRead d git limits Read e ∧ Added fs ((entryItems git below e).map (placed parent)) w' := by
  unfold materializeEntry
  split
  · exact leads_throw hstaging _
  · split
    · rename_i hdirectory
      have hmode : modeOf e = .directory := hdirectory
      refine (leads_mkdir hstaging).andThen ?_
      rintro _ w' - ⟨fs', hstaging', hentries⟩
      refine (hrecurse e.objectId _ _ w' fs' hstaging').imp ?_
      rintro _ w'' ⟨hread, fs'', hstaging'', hentries'⟩
      refine ⟨by rwa [EntryRead, if_pos hmode], fs'', hstaging'', ?_⟩
      have hitems : (entryItems git below e).map (placed parent) = (parent ++ [withoutMark e.name], .directory) ::
          (below e.objectId).map (placed (parent ++ [withoutMark e.name])) := by
        rw [entryItems, hmode]
        dsimp only
        rw [List.map_cons, List.map_map]
        refine congrArg₂ List.cons rfl (List.map_congr_left fun item _ => placed_inside parent e.name item)
      rw [hentries', hentries, hitems, List.append_assoc]
      rfl
    · rename_i hfile
      have hmode : modeOf e ≠ .directory := hfile
      refine (leads_file hstaging hmode).imp ?_
      rintro _ w' ⟨hread, hadded⟩
      have hsame : entryItems git (fun _ => []) e = entryItems git below e := by
        unfold entryItems
        cases hkind : modeOf e with
        | directory => exact absurd hkind hmode
        | regular => rfl
        | executable => rfl
      exact ⟨by rwa [EntryRead, if_neg hmode], hsame ▸ hadded⟩

theorem leads_entries (hrecurse : Recurses d git recurse below Read) :
    ∀ (es : List TreeEntry) {state : MaterializeState} {w : World} {fs : FileTree}, w.staging = some fs →
      Leads d git (materializeEntries limits recurse parent (es.map entryOf) state) w fun _ w' =>
        (∀ e ∈ es, EntryRead d git limits Read e) ∧ Added fs ((es.flatMap (entryItems git below)).map (placed parent)) w'
  | [], state, w, fs, hstaging => ⟨⟨rfl, rfl, fs, hstaging⟩, nofun, fs, hstaging, (List.append_nil _).symm⟩
  | e :: es, state, w, fs, hstaging => by
    refine (leads_entry hrecurse hstaging).andThen ?_
    rintro state' w' - ⟨hread, fs', hstaging', hentries⟩
    refine (leads_entries hrecurse es hstaging').imp ?_
    rintro _ w'' ⟨hall, fs'', hstaging'', hentries'⟩
    refine ⟨List.forall_mem_cons.2 ⟨hread, hall⟩, fs'', hstaging'', ?_⟩
    rw [hentries', hentries, List.flatMap_cons, List.map_append, List.append_assoc]

end Entries

/-- A directory is written with all its items. -/
theorem recurses :
    ∀ levels, Recurses d git (materializeDirectory limits levels) (items git levels) (WellRead d git limits levels)
  | 0 => fun _ _ _ _ _ hstaging => leads_throw hstaging _
  | levels + 1 => by
    intro tree parent state w fs hstaging
    refine Leads.andThen (leads_read hstaging (fun _ => rfl) fun _ => id) ?_
    rintro listing _ - ⟨rfl, masked, hread⟩
    split
    · exact leads_throw hstaging _
    · obtain ⟨bytes, htree⟩ := readTree_ok hread
      rw [htree.entries]
      refine (leads_entries (recurses levels) (treeEntries git tree) hstaging).imp ?_
      rintro _ w' ⟨hall, hadded⟩
      exact ⟨⟨⟨listing, hread⟩, hall⟩, hadded⟩

/-! ## The whole materialization -/

/-- How a materialization ends: with the destination written, before it began, or with the staging directory removed. -/
def Ended (d : Digest) (git : Repository) (limits : CandidateObjectLimits) (tree : Bytes) (w : World) :
    Except String Unit → World → Prop
  | .ok _, w' => ∃ fs, w'.destination = some fs ∧ WellRead d git limits (limits.maximumDepth + 1) tree ∧
    fs.entries = (items git (limits.maximumDepth + 1) tree).map (placed [])
  | .error _, w' => w' = w ∨
    w.destination = none ∧ w'.destination = none ∧ (w'.staging = none ↔ w'.removalFailed = false)

variable {w : World} {tree : Bytes}

/-- The body of the `try` block writes the destination, or leaves it alone. -/
theorem staged_ends (hstaging : w.staging = some .empty) :
    Safe (Acts d git) (fun _ => True) (materializeStaged limits tree)
      (fun r w' => match r with
        | .ok _ => Ended d git limits tree w (.ok ()) w'
        | .error _ => Kept w w') w := by
  refine Safe.andThen (recurses (limits.maximumDepth + 1) tree [] {} w .empty hstaging) ?_ fun _ _ h => h
  rintro _ w' ⟨hkept, hread, fs, hstaging', hentries⟩
  refine Safe.andThen (leads_read hstaging' (fun _ => rfl) fun _ => id) ?_ fun _ w'' h => hkept.trans h
  rintro _ _ ⟨-, rfl, -⟩
  refine safe_call (fun masked answer w'' hperform => ⟨trivial, ?_⟩) ?_
  · simp only [perform, World.rename] at hperform
    split at hperform
    · cases hperform
      exact ⟨fs, hstaging', hread, hentries⟩
    · cases hperform
      exact hkept
  · rintro - failure _ rfl
    exact ⟨trivial, hkept⟩

theorem removeStaging_ends (hdestination : w.destination = none) (hremoval : w.removalFailed = false) (failure : String) :
    Safe (Acts d git) (fun _ => True) (removeStaging failure)
      (fun r w' => match r with
        | .ok _ => False
        | .error _ => w'.destination = none ∧ (w'.staging = none ↔ w'.removalFailed = false)) w := by
  refine Safe.andThen (P := fun (_ : Except String Unit) (w' : World) => w'.destination = none ∧
    (w'.staging = none ↔ w'.removalFailed = false)) ?_ (fun _ _ h => h) fun _ _ h => h
  refine safe_call (fun masked answer w' hperform => ⟨trivial, ?_⟩) ?_
  · cases hperform
    exact ⟨hdestination, fun _ => hremoval, fun _ => rfl⟩
  · rintro - failure _ ⟨fs, rfl⟩
    exact ⟨trivial, hdestination, nofun, nofun⟩

theorem materialize_ends (hstaging : w.staging = none) (hremoval : w.removalFailed = false) :
    Safe (Acts d git) (fun _ => True) (materializeVerifiedTree limits tree) (Ended d git limits tree w) w := by
  refine Safe.andThen (P := fun _ w' => w = w') ?_ ?_ fun _ _ h => .inl h.symm
  · refine safe_call (fun masked answer w' hperform => ⟨trivial, ?_⟩) ?_
    · cases hperform
      rfl
    · rintro - failure _ rfl
      exact ⟨trivial, rfl⟩
  rintro _ _ rfl
  refine Safe.andThen (P := fun r w' => w = w' ∧ (r = .ok () → w.destination = none)) ?_ ?_ fun _ _ h => .inl h.1.symm
  · refine safe_call (fun masked answer w' hperform => ⟨trivial, ?_⟩) ?_
    · simp only [perform, Prod.mk.injEq] at hperform
      obtain ⟨hanswer, rfl⟩ := hperform
      refine ⟨rfl, fun hok => ?_⟩
      rw [hok] at hanswer
      split at hanswer
      · cases hanswer
      · rename_i habsent
        exact Option.not_isSome_iff_eq_none.1 habsent
    · rintro - failure _ rfl
      exact ⟨trivial, rfl, nofun⟩
  rintro _ _ ⟨rfl, habsent⟩
  have hdestination := habsent rfl
  refine Safe.andThen (P := fun r w' => match r with
    | .ok _ => { w with staging := some .empty } = w'
    | .error _ => w' = w) ?_ ?_ fun _ _ h => .inl h
  · refine safe_call (fun masked answer w' hperform => ⟨trivial, ?_⟩) ?_
    · cases hperform
      rfl
    · rintro - failure _ rfl
      exact ⟨trivial, rfl⟩
  rintro _ _ rfl
  refine Safe.orElse (staged_ends rfl) (fun _ _ h => h) ?_
  intro failure w' hkept
  have hdestination' : w'.destination = none := hkept.destination.trans hdestination
  refine (removeStaging_ends hdestination' (hkept.removal.trans hremoval) failure).mono ?_
  rintro (failure' | _) w'' h
  · exact .inr ⟨hdestination, h⟩
  · exact h.elim

end Dim.Candidate
