/-
What the effects change. Every name of the state directory belongs to a file of its own; a file is written only by
the call that made it, and whoever made up a temporary name is the only one to use it. `Does` is what a step of
one call leaves as it is for the others.
-/
import DimProofs.Lifecycle.Grants

namespace Dim.Lifecycle

open Effectful Files

namespace World

def lookup (w : World) (d : Directory) (n : String) : Option Nat := w.files.lookup d n

def text? (w : World) (ino : Nat) : Option String := w.files.inodes[ino]?.map (·.text)

def size (w : World) : Nat := w.files.inodes.length

theorem text?_isSome {w : World} {ino : Nat} : (w.text? ino).isSome ↔ ino < w.size := by
  rw [text?, Option.isSome_map, isSome_getElem?]; rfl

theorem read_of_text {w : World} {ino : Nat} {s : String} (h : w.text? ino = some s) : w.read ino = s := by
  rw [read, ← text?, h]; rfl

/-! ## The changes of the file system -/

/-- Only names have changed. -/
structure Renames (w w' : World) (names : Directory → String → Option Nat) : Prop where
  lookup : ∀ d n, w'.lookup d n = names d n
  text : ∀ k, w'.text? k = w.text? k
  size : w'.size = w.size
  handles : w'.handles = w.handles
  temporaries : w'.temporaries = w.temporaries
  drawn : w'.drawn = w.drawn
  begun : w'.begun = w.begun

/-- A file was made, and is open for writing. -/
structure Creates (call : Nat) (d : Directory) (n : String) (w w' : World) : Prop where
  lookup : ∀ d' n', w'.lookup d' n' = if d' = d ∧ n' = n then some w.size else w.lookup d' n'
  text : ∀ k, w'.text? k = if k = w.size then some "" else w.text? k
  size : w'.size = w.size + 1
  handles : w'.handles = (call, w.size) :: w.handles
  temporaries : w'.temporaries = w.temporaries
  drawn : w'.drawn = w.drawn
  begun : w'.begun = w.begun

variable {w : World} {call : Nat} {d : Directory} {n n' : String}

theorem create_exists (h : w.lookup d n ≠ none) : w.create call d n = (none, w) := by
  have hsome : (w.files.lookup d n).isSome := Option.isSome_iff_ne_none.mpr h
  rw [create, FileSystem.create, if_pos hsome]

theorem create_new (h : w.lookup d n = none) :
    (w.create call d n).1 = some w.size ∧ Creates call d n w (w.create call d n).2 := by
  have hnone : ¬ (w.files.lookup d n).isSome := by rw [show w.files.lookup d n = none from h]; simp
  rw [create, FileSystem.create, if_neg hnone]
  refine ⟨rfl, ?_, ?_, ?_, rfl, rfl, rfl, rfl⟩
  · intro d' n'
    show FileSystem.lookup _ d' n' = _
    by_cases hd : d' = d
    · subst hd
      refine (FileSystem.lookup_append h).trans ?_
      simp only [true_and]
      rfl
    · rw [if_neg fun h => hd h.1]
      exact FileSystem.lookup_setEntries_ne hd
  · intro k
    show ((w.files.inodes ++ [_])[k]?).map _ = _
    rcases Nat.lt_trichotomy k w.size with hlt | rfl | hgt
    · rw [List.getElem?_append_left hlt, if_neg (Nat.ne_of_lt hlt)]; rfl
    · rw [size, List.getElem?_append_right (le_refl _), if_pos rfl, Nat.sub_self]; rfl
    · have hend : w.files.inodes.length < k := hgt
      rw [if_neg (Nat.ne_of_gt hgt), text?, List.getElem?_eq_none hend.le, List.getElem?_eq_none]
      simp only [List.length_append, List.length_singleton]
      exact hend
  · show (w.files.inodes ++ [_]).length = _
    rw [List.length_append]; rfl

theorem truncate_new (h : w.lookup d n = none) : w.truncate call d n = w.create call d n := by
  rw [truncate, show w.files.lookup d n = none from h]

/-- The links of a file do not tell what it holds. -/
theorem text?_unlinked (files : FileSystem Directory) (ino k : Nat) :
    ((files.modify ino fun i => { i with nlink := i.nlink - 1 }).inodes[k]?).map (·.text) =
      files.inodes[k]?.map (·.text) := by
  rw [FileSystem.inodes_modify]
  split
  · cases files.inodes[k]? <;> rfl
  · rfl

theorem remove_renames (w : World) (d : Directory) (n : String) : Renames w (w.remove d n)
    fun d' n' => if d' = d ∧ n' = n then none else w.lookup d' n' := by
  rw [remove, FileSystem.unlink]
  cases h : w.files.lookup d n with
  | none =>
    refine ⟨fun d' n' => ?_, fun _ => rfl, rfl, rfl, rfl, rfl, rfl⟩
    by_cases heq : d' = d ∧ n' = n
    · rw [if_pos heq, heq.1, heq.2]
      exact h
    · rw [if_neg heq]
  | some ino =>
    refine ⟨fun d' n' => ?_, fun k => text?_unlinked _ _ k, ?_, rfl, rfl, rfl, rfl⟩
    · show FileSystem.lookup _ d' n' = _
      rw [FileSystem.lookup_modify]
      by_cases hd : d' = d
      · subst hd
        rw [FileSystem.lookup_remove]
        simp [lookup]
      · rw [FileSystem.lookup_remove_ne hd, if_neg fun h => hd h.1]
        rfl
    · show ((w.files.remove d n).modify ino _).inodes.length = _
      simp only [FileSystem.modify, List.length_modify]
      rfl

/-- A rename of a file that has no other name. -/
theorem rename_renames {ino : Nat} (h : w.lookup d n = some ino) (hne : w.lookup d n' ≠ some ino) (hn : n ≠ n') :
    (w.rename d n n').1 = true ∧ Renames w (w.rename d n n').2 fun d' m =>
      if d' = d then if m = n' then some ino else if m = n then none else w.lookup d m else w.lookup d' m := by
  have hentries : ∀ (fs : FileSystem Directory),
    (∀ m, fs.lookup d m = if m = n' then none else if m = n then none else w.lookup d m) →
      ∀ m, (fs.setEntries d (fs.entries d ++ [(n', ino)])).lookup d m =
        if m = n' then some ino else if m = n then none else w.lookup d m := by
    intro fs hfs m
    rw [FileSystem.lookup_append (by rw [hfs, if_pos rfl]), hfs]
    split <;> rfl
  have hlookup : w.files.lookup d n = some ino := h
  rw [rename, FileSystem.rename, hlookup]
  cases hold : w.files.lookup d n' with
  | none =>
    refine ⟨rfl, fun d' m => ?_, fun _ => rfl, rfl, rfl, rfl, rfl, rfl⟩
    show FileSystem.lookup _ d' m = _
    by_cases hd : d' = d
    · subst hd
      rw [if_pos rfl]
      refine hentries _ (fun m => ?_) m
      rw [FileSystem.lookup_remove]
      by_cases hm : m = n'
      · rw [if_pos hm, hm, if_neg (Ne.symm hn), hold]
      · rw [if_neg hm]; rfl
    · rw [if_neg hd, FileSystem.lookup_setEntries_ne hd, FileSystem.lookup_remove_ne hd]
      rfl
  | some old =>
    have hold' : old ≠ ino := fun heq => hne (heq ▸ hold)
    simp only [if_neg hold', true_and]
    refine ⟨fun d' m => ?_, fun k => text?_unlinked _ _ k, ?_, rfl, rfl, rfl, rfl⟩
    · show FileSystem.lookup _ d' m = _
      rw [FileSystem.lookup_modify]
      by_cases hd : d' = d
      · subst hd
        rw [if_pos rfl]
        refine hentries _ (fun m => ?_) m
        rw [FileSystem.lookup_remove, FileSystem.lookup_remove]
        rfl
      · rw [if_neg hd, FileSystem.lookup_setEntries_ne hd, FileSystem.lookup_remove_ne hd,
          FileSystem.lookup_remove_ne hd]
        rfl
    · show (FileSystem.modify _ old _).inodes.length = _
      simp only [FileSystem.modify, List.length_modify]
      rfl

@[simp] theorem size_append (ino : Nat) (c : Char) : (w.append ino c).size = w.size := by
  simp [append, size, FileSystem.modify]

theorem text?_append (ino k : Nat) (c : Char) :
    (w.append ino c).text? k = if k = ino then (w.text? k).map (·.push c) else w.text? k := by
  rw [text?, append, FileSystem.inodes_modify]
  by_cases h : k = ino
  · subst h
    rw [if_pos rfl, if_pos rfl, text?]
    cases w.files.inodes[k]? <;> rfl
  · rw [if_neg (Ne.symm h), if_neg h]; rfl

end World

/-! ## What the calls leave alone -/

/-- What a step of call `i` does, as far as the other calls can tell. -/
structure Does (i : Nat) (w w' : World) : Prop where
  size : w.size ≤ w'.size
  texts : ∀ k s, w.text? k = some s → (i, k) ∉ w.handles → w'.text? k = some s
  handles : ∀ j k, j ≠ i → ((j, k) ∈ w'.handles ↔ (j, k) ∈ w.handles)
  opened : ∀ j k, (j, k) ∈ w'.handles → (j, k) ∈ w.handles ∨ w.size ≤ k
  temporaries : ∀ j d t, j ≠ i → ((j, d, t) ∈ w'.temporaries ↔ (j, d, t) ∈ w.temporaries)
  staged : ∀ j d t, j ≠ i → (j, d, t) ∈ w.temporaries → w'.lookup d t = w.lookup d t
  linked : ∀ d n k, w'.lookup d n = some k →
    w.lookup d n = some k ∨ w.size ≤ k ∨ ∃ t, (i, d, t) ∈ w.temporaries ∧ w.lookup d t = some k
  drawn : w.drawn ⊆ w'.drawn
  begun : w.begun ⊆ w'.begun

theorem Does.refl (i : Nat) (w : World) : Does i w w where
  size := le_refl _
  texts _ _ h _ := h
  handles _ _ _ := Iff.rfl
  opened _ _ h := .inl h
  temporaries _ _ _ _ := Iff.rfl
  staged _ _ _ _ _ := rfl
  linked _ _ _ h := .inl h
  drawn := fun _ h => h
  begun := fun _ h => h

/-- A record that a call was told to store, or that a discard made of one. -/
inductive Given (w : World) : {kind : Kind} → Record kind → Prop
  | claimed {kind : Kind} {record : Record kind} (h : .claim record ∈ w.begun) : Given w record
  | written {kind : Kind} {record : Record kind} (h : .write record ∈ w.begun) : Given w record
  | discarded {record : WorkspaceRecord} (h : @Given w .workspace record) : @Given w .workspace record.discarding

theorem Given.mono {w w' : World} (hbegun : w.begun ⊆ w'.begun) {kind : Kind} {record : Record kind} (h : Given w record) :
    Given w' record := by
  induction h with
  | claimed h => exact .claimed (hbegun h)
  | written h => exact .written (hbegun h)
  | discarded _ ih => exact .discarded ih

theorem Given.append {w : World} {kind : Kind} {record : Record kind} (h : Given w record) (ino : Nat) (c : Char) :
    Given (w.append ino c) record :=
  h.mono (show w.begun ⊆ (w.append ino c).begun from fun _ h => h)

theorem Given.close {w : World} {kind : Kind} {record : Record kind} (h : Given w record) (i ino : Nat) :
    Given (w.close i ino) record :=
  h.mono (show w.begun ⊆ (w.close i ino).begun from fun _ h => h)

end Dim.Lifecycle
