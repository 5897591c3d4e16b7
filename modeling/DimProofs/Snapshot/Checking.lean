/-
The check of a directory against the id of a tree, which walks the directory and encodes it as Git does; the order in which
the names of a directory are found is given. Of a directory that was written, and of any other one, the check ends with the
id of the tree where the directory holds the tree, and, where no two objects share an id, only there.
-/
import DimProofs.Snapshot.Reading

namespace Dim.Snapshot

open Relational

/-! ## The check -/

section Hash

variable (d : Digest) (format : GitObjectFormat) (order : Path → List Bytes → List Bytes) (fs : FileTree)

def addMaterializedBytes (state : ReadState) (size itemLimit : Nat) : Except String ReadState :=
  if itemLimit < size ∨ limits.maximumMaterializedBytes - state.bytes < size then
    throw "native root snapshot tree identity is invalid"
  else pure { state with bytes := state.bytes + size }

/-- One entry of a directory. -/
def hashEntry (recurse : Path → ReadState → Except String (Bytes × ReadState)) (directory : Path) (name : Bytes)
    (state : ReadState) : Except String (TreeEntry × ReadState) := do
  match fs.lookup (directory ++ [name]) with
  | some .directory =>
    let (objectId, state) ← recurse (directory ++ [name]) state
    pure (⟨Mode.directory.text, name, objectId⟩, state)
  | some (.file executable bytes) =>
    let state ← addMaterializedBytes state bytes.length limits.maximumBlobBytes
    pure (⟨if executable then Mode.executable.text else Mode.regular.text, name,
      hashObject (d.digest format) .blob bytes⟩, state)
  | some (.link target) =>
    let state ← addMaterializedBytes state target.length limits.maximumLinkBytes
    pure (⟨Mode.link.text, name, hashObject (d.digest format) .blob target⟩, state)
  | _ => throw "native root snapshot tree identity is invalid"

/-- The loop of `hashDirectory`. -/
def hashEntries (recurse : Path → ReadState → Except String (Bytes × ReadState)) (directory : Path) :
    List Bytes → ReadState → Except String (List TreeEntry × ReadState)
  | [], state => pure ([], state)
  | name :: names, state =>
    if limits.maximumEntries < state.entries + 1 then throw "native root snapshot tree identity is invalid"
    else do
      let (entry, state) ← hashEntry d format fs recurse directory name { state with entries := state.entries + 1 }
      let (entries, state) ← hashEntries recurse directory names state
      pure (entry :: entries, state)

/-- `hashDirectory`, `fuel - 1` levels above the deepest that is hashed. -/
def hashDirectory : Nat → Path → ReadState → Except String (Bytes × ReadState)
  | 0, _, _ => throw "native root snapshot tree identity is invalid"
  | fuel + 1, directory, state => do
    let (entries, state) ← hashEntries d format fs (hashDirectory fuel) directory
      (order directory (fs.readdir directory)) state
    let bytes := (sortEntries entries).flatMap encodeTreeEntry
    if limits.maximumTreeBytes < state.treeBytes + bytes.length then throw "native root snapshot tree identity is invalid"
    else
      pure (hashObject (d.digest format) .tree bytes, { state with treeBytes := state.treeBytes + bytes.length })

/-- `assertNativeProjectRootSnapshotTree`. -/
def assertNativeProjectRootSnapshotTree (expectedTree : Bytes) : Except String Unit :=
  match objectFormatOf expectedTree with
  | none => throw "native root snapshot tree identity is invalid"
  | some format => do
    let (actualTree, _) ← hashDirectory d format order fs (limits.maximumDepth + 1) [] {}
    if actualTree ≠ expectedTree then throw "native root snapshot tree identity is invalid"
    else pure ()

end Hash

/-! ## What is said of a tree -/

/-- `git fsck --strict` accepts only trees whose modes are octal and whose entries are in order. -/
def FsckStrict (git : Repository) : Prop :=
  git.fsck = true → ∀ objectId bytes entries, git.catFile .tree objectId = some bytes →
  Encodes (rawObjectIdLength git.objectFormat) bytes entries →
    (∀ e ∈ entries, ∀ byte ∈ e.mode, 0x30 ≤ byte ∧ byte ≤ 0x37) ∧
      entries.Pairwise fun left right => sortName left < sortName right

/-- No other bytes have the id of an object of the repository. -/
def CollisionFree (d : Digest) (git : Repository) : Prop := ∀ type objectId bytes, git.catFile type objectId = some bytes →
  ∀ other, d.digest git.objectFormat other = hashObject (d.digest git.objectFormat) type bytes →
    other = objectBytes type bytes

/-- No name and no link target of a tree begins with a byte order mark. -/
def Unmarked (git : Repository) : Nat → Bytes → Prop
  | 0, _ => True
  | fuel + 1, tree => ∀ bytes entries, git.catFile .tree tree = some bytes →
    Encodes (rawObjectIdLength git.objectFormat) bytes entries → ∀ e ∈ entries, marked e.name = false ∧
      (e.mode = Mode.link.text → ∀ target, git.catFile .blob e.objectId = some target → marked target = false) ∧
      (e.mode = Mode.directory.text → Unmarked git fuel e.objectId)

/-- A file is what a tree's entry says. -/
def HoldsFile (git : Repository) (e : TreeEntry) (content : Option Content) : Prop :=
  ∃ bytes, git.catFile .blob e.objectId = some bytes ∧
    ((e.mode = Mode.regular.text ∧ content = some (.file false bytes)) ∨
      (e.mode = Mode.executable.text ∧ content = some (.file true bytes)) ∨
      (e.mode = Mode.link.text ∧ content = some (.link bytes)))

/-- A directory has exactly a tree's names, contents, executable bits and link targets. -/
def Holds (git : Repository) (fs : FileTree) : Nat → Bytes → Path → Prop
  | 0, _, _ => False
  | fuel + 1, tree, directory => ∃ bytes entries, git.catFile .tree tree = some bytes ∧
    Encodes (rawObjectIdLength git.objectFormat) bytes entries ∧ (fs.readdir directory).Perm (entries.map (·.name)) ∧
    ∀ e ∈ entries, (e.mode = Mode.directory.text ∧ fs.lookup (directory ++ [e.name]) = some .directory ∧
        Holds git fs fuel e.objectId (directory ++ [e.name])) ∨
      HoldsFile git e (fs.lookup (directory ++ [e.name]))

/-! ## A directory that was written -/

section Written

variable {d : Digest} {git : Repository} {fs : FileTree} {fuel : Nat} {tree : Bytes} {parent : Path}
  {entries : List RootEntry}

variable {listed : TreeEntry → List RootEntry} {treeEntries : List TreeEntry}

theorem mem_listed
    (hall : ∀ e ∈ treeEntries, ReadEntry (Reads d git fuel) parent e (listed e)) {e : TreeEntry} (he : e ∈ treeEntries)
    {entry : RootEntry} (hentry : entry ∈ listed e) :
    entry.path = parent ++ [withoutMark e.name] ∨
      ∃ name rest, entry.path = parent ++ withoutMark e.name :: name :: rest := by
  obtain ⟨mode, name, below, -, hname, hown, hbelow⟩ := hall e he
  rw [hown] at hentry
  rw [← decodeName_ok hname]
  rcases List.mem_cons.1 hentry with rfl | hmem
  · exact .inl rfl
  · split at hbelow
    · obtain ⟨name', rest, hpath⟩ := path_of_reads hbelow entry hmem
      exact .inr ⟨name', rest, by rw [hpath, List.append_assoc]; rfl⟩
    · rw [hbelow] at hmem
      cases hmem

/-- The names in a directory that was written. -/
theorem readdir_written (hwritten : Written git fs parent entries)
    (hentries : entries = treeEntries.flatMap listed)
    (hnodup : (treeEntries.map fun e => withoutMark e.name).Nodup)
    (hall : ∀ e ∈ treeEntries, ReadEntry (Reads d git fuel) parent e (listed e)) :
    (fs.readdir parent).Perm (treeEntries.map fun e => withoutMark e.name) := by
  refine (List.perm_ext_iff_of_nodup (FileTree.nodup_readdir parent) hnodup).2 fun name => ?_
  rw [FileTree.mem_readdir, List.mem_map]
  have hfile : ∀ content, (parent ++ [name], content) ∈ fs.entries ↔
    ∃ e ∈ entries, e.file git = (parent ++ [name], content) :=
    hwritten _ (List.prefix_append _ _) (by simp)
  constructor
  · rintro ⟨content, hmem⟩
    obtain ⟨entry, hentry, heq⟩ := (hfile content).1 hmem
    rw [hentries, List.mem_flatMap] at hentry
    obtain ⟨e, he, hlisted⟩ := hentry
    have hpath : entry.path = parent ++ [name] := congrArg Prod.fst heq
    refine ⟨e, he, ?_⟩
    rcases mem_listed hall he hlisted with hown | ⟨name', rest, hbelow⟩
    · rw [hpath] at hown
      simpa using hown.symm
    · rw [hpath] at hbelow
      simp at hbelow
  · rintro ⟨e, he, rfl⟩
    obtain ⟨mode, name, below, -, hname, hown, -⟩ := hall e he
    refine ⟨_, (hfile _).2 ⟨⟨mode, parent ++ [name], e.objectId⟩, ?_, by rw [← decodeName_ok hname]; rfl⟩⟩
    rw [hentries, List.mem_flatMap]
    exact ⟨e, he, hown ▸ List.mem_cons_self⟩

/-- What is written for one entry of a tree. -/
theorem written_below (hwritten : Written git fs parent entries)
    (hentries : entries = treeEntries.flatMap listed)
    (hnodup : (treeEntries.map fun e => withoutMark e.name).Nodup)
    (hall : ∀ e ∈ treeEntries, ReadEntry (Reads d git fuel) parent e (listed e)) {e : TreeEntry} (he : e ∈ treeEntries)
    {mode : Mode} {name : Bytes} {below : List RootEntry} (hname : decodeName e.name = .ok name)
    (hown : listed e = ⟨mode, parent ++ [name], e.objectId⟩ :: below) :
    fs.lookup (parent ++ [name]) = some ((⟨mode, parent ++ [name], e.objectId⟩ : RootEntry).content git) ∧
      Written git fs (parent ++ [name]) below := by
  have hname' : name = withoutMark e.name := decodeName_ok hname
  have hmem : ∀ entry ∈ listed e, entry ∈ entries := fun entry hentry => by
    rw [hentries]
    exact List.mem_flatMap.2 ⟨e, he, hentry⟩
  refine ⟨FileTree.lookup_eq_some.2 ?_, fun path hbelow' hne content => ?_⟩
  · refine (hwritten _ (List.prefix_append _ _) (by simp) _).2 ⟨_, hmem _ (hown ▸ List.mem_cons_self), rfl⟩
  · obtain ⟨rest, rfl⟩ := hbelow'
    have hrest : rest ≠ [] := fun hnil => hne (by rw [hnil, List.append_nil])
    rw [hwritten _ (by rw [List.append_assoc]; exact List.prefix_append _ _) (by simp)]
    constructor
    · rintro ⟨entry, hentry, heq⟩
      have hpath : entry.path = parent ++ [name] ++ rest := congrArg Prod.fst heq
      rw [hentries, List.mem_flatMap] at hentry
      obtain ⟨x, hx, hlisted⟩ := hentry
      have hsame : withoutMark x.name = withoutMark e.name := by
        rcases mem_listed hall hx hlisted with hpath' | ⟨name', rest', hpath'⟩
        · rw [hpath, List.append_assoc, List.append_cancel_left_eq] at hpath'
          simp only [List.cons_append, List.nil_append, List.cons.injEq] at hpath'
          exact (hname' ▸ hpath'.1).symm
        · rw [hpath, List.append_assoc, List.append_cancel_left_eq] at hpath'
          simp only [List.cons_append, List.nil_append, List.cons.injEq] at hpath'
          exact (hname' ▸ hpath'.1).symm
      obtain rfl : x = e := List.inj_on_of_nodup_map hnodup hx he hsame
      rw [hown] at hlisted
      rcases List.mem_cons.1 hlisted with rfl | hbelow
      · exact absurd (List.append_right_eq_self.1 hpath.symm) hrest
      · exact ⟨entry, hbelow, heq⟩
    · rintro ⟨entry, hentry, heq⟩
      exact ⟨entry, hmem _ (hown ▸ List.mem_cons_of_mem _ hentry), heq⟩

theorem octal_asciiText {mode : Bytes} (h : ∀ byte ∈ mode, (0x30 : UInt8) ≤ byte ∧ byte ≤ 0x37) : asciiText mode = mode := by
  have hbyte : ∀ byte ∈ mode, byte &&& 0x7F = byte := by
    intro byte hmem
    have hle := UInt8.le_iff_toNat_le.1 (h byte hmem).2
    refine UInt8.toNat_inj.1 ?_
    rw [UInt8.toNat_and]
    have hmod := Nat.and_two_pow_sub_one_eq_mod byte.toNat 7
    have hbound : byte.toNat ≤ 55 := hle
    have hmask : (0x7F : UInt8).toNat = 2 ^ 7 - 1 := rfl
    rw [hmask, hmod]
    exact Nat.mod_eq_of_lt (by omega)
  rw [asciiText]
  exact (List.map_congr_left hbyte).trans (List.map_id _)

end Written

/-! ## Walking it -/

section Walk

variable {d : Digest} {format : GitObjectFormat} {git : Repository} {order : Path → List Bytes → List Bytes} {fs : FileTree}
  {recurse : Path → ReadState → Except String (Bytes × ReadState)} {directory : Path}

theorem Within.mono {s t : ReadState} (h : Within t) (hentries : s.entries ≤ t.entries) (hbytes : s.bytes ≤ t.bytes)
    (htree : s.treeBytes ≤ t.treeBytes) : Within s :=
  ⟨Nat.le_trans hentries h.entries, Nat.le_trans hbytes h.bytes, Nat.le_trans htree h.treeBytes⟩

theorem Within.left {s t : ReadState} (h : Within (s.add t)) : Within s :=
  h.mono (Nat.le_add_right _ _) (Nat.le_add_right _ _) (Nat.le_add_right _ _)

theorem add_add (s t u : ReadState) : (s.add t).add u = s.add (t.add u) := by
  simp [ReadState.add, Nat.add_assoc]

variable {state : ReadState}

theorem materialize_within {size itemLimit : Nat} (hitem : size ≤ itemLimit)
    (hmax : state.bytes + size ≤ limits.maximumMaterializedBytes) :
    addMaterializedBytes state size itemLimit = .ok { state with bytes := state.bytes + size } := by
  rw [addMaterializedBytes, if_neg]
  · rfl
  · omega

/-- What several parts add to the state. -/
def total (parts : List ReadState) : ReadState :=
  ⟨(parts.map (·.entries)).sum, (parts.map (·.bytes)).sum, (parts.map (·.treeBytes)).sum⟩

theorem total_cons (part : ReadState) (parts : List ReadState) : total (part :: parts) = part.add (total parts) := by
  simp [total, ReadState.add]

theorem total_perm {l₁ l₂ : List ReadState} (h : l₁.Perm l₂) : total l₁ = total l₂ :=
  ReadState.ext (h.map _).sum_eq (h.map _).sum_eq (h.map _).sum_eq

/-- The loop over a directory whose entries are all hashed. -/
theorem hashEntries_ok {added : TreeEntry → ReadState} : ∀ {treeEntries : List TreeEntry} {state : ReadState},
    (∀ e ∈ treeEntries, 0 < (added e).entries ∧ ∀ state : ReadState, Within (state.add (added e)) →
      hashEntry d format fs recurse directory e.name { state with entries := state.entries + 1 } =
        .ok (e, state.add (added e))) →
    Within (state.add (total (treeEntries.map added))) →
    hashEntries d format fs recurse directory (treeEntries.map (·.name)) state =
      .ok (treeEntries, state.add (total (treeEntries.map added)))
  | [], state, _, _ => rfl
  | e :: rest, state, h, hwithin => by
    have hhead := h e List.mem_cons_self
    rw [List.map_cons, total_cons, ← add_add] at hwithin
    have hentry := hhead.2 state hwithin.left
    have hrest := hashEntries_ok (fun x hx => h x (List.mem_cons_of_mem _ hx)) hwithin
    have hlimit : ¬limits.maximumEntries < state.entries + 1 := by
      have hle := hwithin.left.entries
      have hpos := hhead.1
      simp only [ReadState.add_entries] at hle
      omega
    rw [List.map_cons, hashEntries, if_neg hlimit, hentry, List.map_cons, total_cons, ← add_add]
    show (hashEntries d format fs recurse directory (rest.map (·.name)) (state.add (added e)) >>= _) = _
    rw [hrest]
    rfl

/-- What an entry and what is below it add, before the bytes of its directory are counted. -/
def addedBy (git : Repository) : List RootEntry → ReadState
  | [] => {}
  | own :: below => ⟨1 + below.length, (own.content git).size + (sizes git below).bytes, (sizes git below).treeBytes⟩

theorem sizes_flatMap {treeEntries : List TreeEntry} {listed : TreeEntry → List RootEntry}
    (h : ∀ e ∈ treeEntries, ∃ own below, listed e = own :: below ∧
      own.treeSize (rawObjectIdLength git.objectFormat) = (encodeTreeEntry e).length) :
    sizes git (treeEntries.flatMap listed) = { total (treeEntries.map fun e => addedBy git (listed e)) with
      treeBytes := (total (treeEntries.map fun e => addedBy git (listed e))).treeBytes +
        (treeEntries.flatMap encodeTreeEntry).length } := by
  induction treeEntries with
  | nil => rfl
  | cons e rest ih =>
    obtain ⟨own, below, hown, hsize⟩ := h e List.mem_cons_self
    rw [List.flatMap_cons, List.flatMap_cons, sizes_append, ih fun x hx => h x (List.mem_cons_of_mem _ hx), List.map_cons,
      total_cons, hown]
    apply ReadState.ext
    · simp only [ReadState.add, sizes, addedBy, List.length_cons]
      omega
    · simp only [ReadState.add, addedBy, sizes_cons_bytes]
    · simp only [ReadState.add, addedBy, sizes, List.map_cons, List.sum_cons, hsize, List.length_append]
      omega

/-- A file is hashed to the id of its entry. -/
theorem hashEntry_file {e : TreeEntry} {mode : Mode} {path : Path} (hmode : e.mode = mode.text)
    (hfile : mode ≠ .directory) (hmarked : mode = .link → ∀ target, git.catFile .blob e.objectId = some target →
      marked target = false)
    (hlookup : fs.lookup (directory ++ [e.name]) = some ((⟨mode, path, e.objectId⟩ : RootEntry).content git))
    (hverified : Verified d git ⟨mode, path, e.objectId⟩)
    (hwithin : Within (state.add (addedBy git [⟨mode, path, e.objectId⟩]))) :
    hashEntry d git.objectFormat fs recurse directory e.name { state with entries := state.entries + 1 } =
      .ok (e, state.add (addedBy git [⟨mode, path, e.objectId⟩])) := by
  obtain ⟨bytes, hblob, hhash, hitem⟩ := hverified hfile
  have hmax := hwithin.bytes
  have hend : ∀ {added : ReadState}, added = ⟨1, bytes.length, 0⟩ →
      (⟨state.entries + 1, state.bytes + bytes.length, state.treeBytes⟩ : ReadState) = state.add added := by
    rintro added rfl
    rfl
  have hsame : ∀ {text : Bytes}, e.mode = text →
      (⟨text, e.name, hashObject (d.digest git.objectFormat) .blob bytes⟩ : TreeEntry) = e := by
    rintro text rfl
    rw [hhash]
  simp only [RootEntry.content, hblob, Option.getD_some] at hlookup
  simp only [addedBy, RootEntry.content, hblob, Option.getD_some, ReadState.add_bytes] at hmax
  cases mode with
  | directory => exact absurd rfl hfile
  | regular =>
    simp only [hashEntry, hlookup]
    rw [materialize_within (by simpa using hitem) (by simpa [sizes, Content.size] using hmax)]
    exact congrArg Except.ok (Prod.ext (hsame hmode)
      (hend (by simp [addedBy, RootEntry.content, hblob, Content.size, sizes])))
  | executable =>
    simp only [hashEntry, hlookup]
    rw [materialize_within (by simpa using hitem) (by simpa [sizes, Content.size] using hmax)]
    exact congrArg Except.ok (Prod.ext (hsame hmode)
      (hend (by simp [addedBy, RootEntry.content, hblob, Content.size, sizes])))
  | link =>
    have hsame' := withoutMark_eq (hmarked rfl bytes hblob)
    simp only [hsame'] at hlookup hmax
    simp only [hashEntry, hlookup]
    rw [materialize_within (by simpa using hitem) (by simpa [sizes, Content.size] using hmax)]
    exact congrArg Except.ok (Prod.ext (hsame hmode)
      (hend (by simp [addedBy, RootEntry.content, hblob, hsame', Content.size, sizes])))

/-- The walk over a directory that was written ends with the id of the tree. -/
theorem hashDirectory_ok (hstrict : ∀ objectId bytes entries, git.catFile .tree objectId = some bytes →
      Encodes (rawObjectIdLength git.objectFormat) bytes entries →
        (∀ e ∈ entries, ∀ byte ∈ e.mode, 0x30 ≤ byte ∧ byte ≤ 0x37) ∧
        entries.Pairwise fun left right => sortName left < sortName right)
    (horder : ∀ path names, (order path names).Perm names) :
    ∀ {fuel : Nat} {tree : Bytes} {parent : Path} {entries : List RootEntry}, Reads d git fuel tree parent entries →
      Unmarked git fuel tree → Written git fs parent entries → (∀ e ∈ entries, Verified d git e) →
      ∀ state : ReadState, Within (state.add (sizes git entries)) →
        hashDirectory d git.objectFormat order fs fuel parent state = .ok (tree, state.add (sizes git entries)) := by
  intro fuel
  induction fuel with
  | zero => exact fun h => h.elim
  | succ fuel ih =>
    rintro tree parent entries ⟨bytes, es, listed, hfile, hhash, hencodes, hnodup, hentries, hall⟩ hunmarked hwritten
      hverified state hwithin
    obtain ⟨hoctal, hsorted⟩ := hstrict tree bytes es hfile hencodes
    have hclean := hunmarked bytes es hfile hencodes
    have hname : ∀ e ∈ es, withoutMark e.name = e.name := fun e he => withoutMark_eq (hclean e he).1
    have hmode : ∀ e ∈ es, asciiText e.mode = e.mode := fun e he => octal_asciiText (hoctal e he)
    have hown : ∀ e ∈ es, ∃ own below, listed e = own :: below ∧
        own.treeSize (rawObjectIdLength git.objectFormat) = (encodeTreeEntry e).length := by
      intro e he
      obtain ⟨mode, name, below, hm, hn, heq, -⟩ := hall e he
      refine ⟨_, below, heq, ?_⟩
      rw [length_encodeTreeEntry (hencodes.objectIds e he)]
      have hname' : name = e.name := (decodeName_ok hn).trans (hname e he)
      have hmode' : e.mode = mode.text := (hmode e he).symm.trans (rootMode_ok hm)
      simp [RootEntry.treeSize, hname', hmode']
    have hsizes := sizes_flatMap hown
    rw [← hentries, ← hencodes.bytes] at hsizes
    obtain ⟨es', hnames, hperm⟩ : ∃ es' : List TreeEntry, order parent (fs.readdir parent) = es'.map (·.name) ∧
        es'.Perm es := by
      have hread := (horder parent _).trans (readdir_written hwritten hentries hnodup hall)
      rw [List.map_congr_left hname] at hread
      exact (iff_of_eq (congrFun (congrFun (List.eq_map_comp_perm TreeEntry.name) _) es)).2 hread
    have hparts : total (es'.map fun e => addedBy git (listed e)) = total (es.map fun e => addedBy git (listed e)) :=
      total_perm (hperm.map _)
    have hloop : Within (state.add (total (es'.map fun e => addedBy git (listed e)))) := by
      rw [hparts]
      refine hwithin.mono ?_ ?_ ?_ <;> simp only [hsizes, ReadState.add] <;> omega
    have hentry : ∀ e ∈ es', 0 < (addedBy git (listed e)).entries ∧ ∀ state : ReadState,
        Within (state.add (addedBy git (listed e))) →
          hashEntry d git.objectFormat fs (hashDirectory d git.objectFormat order fs fuel)
          parent e.name { state with entries := state.entries + 1 } = .ok (e, state.add (addedBy git (listed e))) := by
      intro e he'
      have he := hperm.mem_iff.1 he'
      obtain ⟨mode, name, below, hm, hn, heq, hbelow⟩ := hall e he
      have hname' : name = e.name := (decodeName_ok hn).trans (hname e he)
      have hmode' : e.mode = mode.text := (hmode e he).symm.trans (rootMode_ok hm)
      obtain ⟨hlookup, hwritten'⟩ := written_below hwritten hentries hnodup hall he hn heq
      have hmem : ∀ entry ∈ listed e, entry ∈ entries := fun entry hentry => by
        rw [hentries]
        exact List.mem_flatMap.2 ⟨e, he, hentry⟩
      rw [hname'] at hlookup hwritten' heq
      rw [heq]
      refine ⟨by simp only [addedBy]; omega, fun state hwithin' => ?_⟩
      by_cases hdirectory : mode = .directory
      · rw [if_pos hdirectory, hname'] at hbelow
        subst hdirectory
        have hsub := ih hbelow ((hclean e he).2.2 hmode') hwritten'
          (fun entry hentry => hverified entry (hmem entry (heq ▸ List.mem_cons_of_mem _ hentry)))
          { state with entries := state.entries + 1 } (hwithin'.mono ?_ ?_ ?_)
        · simp only [hashEntry, hlookup, RootEntry.content]
          rw [hsub]
          refine congrArg Except.ok (Prod.ext ?_ ?_)
          · rw [← hmode']
          · simp [ReadState.add, addedBy, RootEntry.content, Content.size, sizes, Nat.add_assoc]
        · simp [addedBy, sizes, Nat.add_assoc]
        · simp [addedBy]
        · simp [addedBy]
      · rw [if_neg hdirectory] at hbelow
        subst hbelow
        exact hashEntry_file hmode' hdirectory (fun hlink => (hclean e he).2.1 (hlink ▸ hmode')) hlookup
          (hverified _ (hmem _ (heq ▸ List.mem_cons_self))) hwithin'
    have hwalk := hashEntries_ok hentry hloop
    have hbytes : (sortEntries es').flatMap encodeTreeEntry = bytes := by
      rw [sortEntries_eq hperm hsorted, ← hencodes.bytes]
    have hend : state.add (sizes git entries) =
        { state.add (total (es'.map fun e => addedBy git (listed e))) with
          treeBytes := (state.add (total (es'.map fun e => addedBy git (listed e)))).treeBytes + bytes.length } := by
      rw [hparts, hsizes]
      simp only [ReadState.add, Nat.add_assoc]
    have hlimit := hwithin.treeBytes
    rw [hend] at hlimit
    rw [hashDirectory, hnames, hwalk]
    show (if limits.maximumTreeBytes < _ + ((sortEntries es').flatMap encodeTreeEntry).length then _ else _) = _
    rw [hbytes, if_neg (Nat.not_lt.2 hlimit), hend, hhash]
    rfl

/-! ## What a walk that succeeds has found -/

/-- What was found under the name of an entry. -/
def Found (d : Digest) (format : GitObjectFormat) (fs : FileTree)
    (recurse : Path → ReadState → Except String (Bytes × ReadState))
    (directory : Path) (e : TreeEntry) : Prop :=
  (e.mode = Mode.directory.text ∧ fs.lookup (directory ++ [e.name]) = some .directory ∧
    ∃ state state', recurse (directory ++ [e.name]) state = .ok (e.objectId, state')) ∨
  ∃ bytes, e.objectId = hashObject (d.digest format) .blob bytes ∧
    ((e.mode = Mode.regular.text ∧ fs.lookup (directory ++ [e.name]) = some (.file false bytes)) ∨
      (e.mode = Mode.executable.text ∧ fs.lookup (directory ++ [e.name]) = some (.file true bytes)) ∨
      (e.mode = Mode.link.text ∧ fs.lookup (directory ++ [e.name]) = some (.link bytes)))

theorem found_of_hashEntry {name : Bytes} {state' : ReadState} {e : TreeEntry}
    (h : hashEntry d format fs recurse directory name state = .ok (e, state')) :
    e.name = name ∧ Found d format fs recurse directory e := by
  rw [hashEntry] at h
  split at h
  · rename_i hlookup
    obtain ⟨⟨objectId, state₁⟩, hrecurse, h⟩ := bind_ok.1 h
    cases h
    exact ⟨rfl, .inl ⟨rfl, hlookup, _, _, hrecurse⟩⟩
  · rename_i executable bytes hlookup
    obtain ⟨_, -, h⟩ := bind_ok.1 h
    cases h
    cases executable with
    | true => exact ⟨rfl, .inr ⟨bytes, rfl, .inr (.inl ⟨rfl, hlookup⟩)⟩⟩
    | false => exact ⟨rfl, .inr ⟨bytes, rfl, .inl ⟨rfl, hlookup⟩⟩⟩
  · rename_i target hlookup
    obtain ⟨_, -, h⟩ := bind_ok.1 h
    cases h
    exact ⟨rfl, .inr ⟨target, rfl, .inr (.inr ⟨rfl, hlookup⟩)⟩⟩
  · cases h

theorem found_of_hashEntries : ∀ {names : List Bytes} {state state' : ReadState} {treeEntries : List TreeEntry},
    hashEntries d format fs recurse directory names state = .ok (treeEntries, state') →
      treeEntries.map (·.name) = names ∧ ∀ e ∈ treeEntries, Found d format fs recurse directory e
  | [], _, _, _, h => by
    cases h
    exact ⟨rfl, nofun⟩
  | name :: names, state, state', treeEntries, h => by
    rw [hashEntries] at h
    split at h
    · cases h
    · obtain ⟨⟨e, state₁⟩, hentry, h⟩ := bind_ok.1 h
      obtain ⟨⟨rest, state₂⟩, hrest, h⟩ := bind_ok.1 h
      cases h
      obtain ⟨hname, hfound⟩ := found_of_hashEntry hentry
      obtain ⟨hnames, hall⟩ := found_of_hashEntries hrest
      exact ⟨by rw [List.map_cons, hname, hnames], List.forall_mem_cons.2 ⟨hfound, hall⟩⟩

theorem hashDirectory_hashes {fuel : Nat} {state' : ReadState} {objectId : Bytes}
    (h : hashDirectory d format order fs fuel directory state = .ok (objectId, state')) :
    objectId.length = rawObjectIdLength format := by
  cases fuel with
  | zero => cases h
  | succ fuel =>
    obtain ⟨⟨treeEntries, state₁⟩, -, h⟩ := bind_ok.1 h
    simp only at h
    split at h
    · cases h
    · cases h
      exact d.length _ _

/-- The entries of a walk are those of a tree object. -/
theorem encodes_of_found {fuel : Nat} {treeEntries : List TreeEntry}
    (hfound : ∀ e ∈ treeEntries, Found d format fs (hashDirectory d format order fs fuel) directory e) {bytes : Bytes}
    (hbytes : bytes = treeEntries.flatMap encodeTreeEntry) : Encodes (rawObjectIdLength format) bytes treeEntries := by
  have htext : ∀ mode : Mode, space ∉ mode.text := by
    intro mode
    cases mode <;> decide
  have hname : ∀ {name : Bytes} {content : Content}, fs.lookup (directory ++ [name]) = some content →
      (0 : UInt8) ∉ name := by
    intro name content hlookup
    have hlegal := fs.legal _ (FileTree.lookup_eq_some.1 hlookup) name (List.mem_append_right _ (List.mem_singleton_self _))
    simp only [legalName, Bool.and_eq_true] at hlegal
    simpa using hlegal.1.2
  refine ⟨hbytes, fun e he => ?_, fun e he => ?_, fun e he => ?_⟩
  · rcases hfound e he with ⟨hmode, -⟩ | ⟨_, -, ⟨hmode, -⟩ | ⟨hmode, -⟩ | ⟨hmode, -⟩⟩ <;> exact hmode ▸ htext _
  · rcases hfound e he with ⟨-, hlookup, -⟩ | ⟨_, -, ⟨-, hlookup⟩ | ⟨-, hlookup⟩ | ⟨-, hlookup⟩⟩ <;> exact hname hlookup
  · rcases hfound e he with ⟨-, -, _, _, hrecurse⟩ | ⟨_, hid, -⟩
    · exact hashDirectory_hashes hrecurse
    · rw [hid]
      exact d.length _ _

theorem rootMode_text (mode : Mode) : rootMode (asciiText mode.text) = .ok mode := by cases mode <;> decide

/-- Where no two objects share an id, a walk ends with the id of a tree only if the directory holds it. -/
theorem holds_of_hashDirectory (hfree : CollisionFree d git) (horder : ∀ path names, (order path names).Perm names) :
    ∀ {fuel : Nat} {tree : Bytes} {parent directory : Path} {entries : List RootEntry} {state state' : ReadState},
      Reads d git fuel tree parent entries → (∀ e ∈ entries, Verified d git e) →
      hashDirectory d git.objectFormat order fs fuel directory state = .ok (tree, state') →
        Holds git fs fuel tree directory := by
  intro fuel
  induction fuel with
  | zero => exact fun h => h.elim
  | succ fuel ih =>
    rintro tree parent directory entries state state'
      ⟨bytes, es, listed, hfile, hhash, hencodes, -, hentries, hall⟩ hverified h
    obtain ⟨⟨es', state₁⟩, hwalk, h⟩ := bind_ok.1 h
    simp only at h
    split at h
    · cases h
    · simp only [pure, Except.pure, Except.ok.injEq, Prod.mk.injEq] at h
      obtain ⟨hnames, hfound⟩ := found_of_hashEntries hwalk
      have hbytes : (sortEntries es').flatMap encodeTreeEntry = bytes :=
        (objectBytes_injective (hfree _ _ _ hfile _ (h.1.trans hhash.symm))).2
      have hfound' : ∀ e ∈ sortEntries es',
        Found d git.objectFormat fs (hashDirectory d git.objectFormat order fs fuel) directory e :=
        fun e he => hfound e ((sortEntries_perm es').mem_iff.1 he)
      have hsame : sortEntries es' = es := (encodes_of_found hfound' hbytes.symm).unique hencodes
      have hperm : es.Perm es' := hsame ▸ sortEntries_perm es'
      refine ⟨bytes, es, hfile, hencodes, ?_, fun e he => ?_⟩
      · exact (horder _ _).symm.trans (hnames ▸ (hperm.map _).symm)
      · obtain ⟨mode, name, below, hm, -, hown, hbelow⟩ := hall e he
        have hmem : ∀ entry ∈ listed e, entry ∈ entries := fun entry hentry => by
          rw [hentries]
          exact List.mem_flatMap.2 ⟨e, he, hentry⟩
        have hmode : ∀ {mode' : Mode}, e.mode = mode'.text → mode = mode' := by
          intro mode' htext
          rw [htext, rootMode_text] at hm
          cases hm
          rfl
        rcases hfound e (hperm.mem_iff.1 he) with ⟨htext, hlookup, _, _, hrecurse⟩ | ⟨content, hid, hcontent⟩
        · rw [if_pos (hmode htext)] at hbelow
          exact .inl ⟨htext, hlookup, ih hbelow (fun entry hentry => hverified entry (hmem entry
            (hown ▸ List.mem_cons_of_mem _ hentry))) hrecurse⟩
        · have hfile' : mode ≠ .directory := by
            rcases hcontent with ⟨htext, -⟩ | ⟨htext, -⟩ | ⟨htext, -⟩ <;> rw [hmode htext] <;> decide
          obtain ⟨blob, hblob, hblobId, -⟩ := hverified _ (hmem _ (hown ▸ List.mem_cons_self)) hfile'
          have hequal : content = blob :=
            (objectBytes_injective (hfree _ _ _ hblob _ (hid.symm.trans hblobId.symm))).2
          exact .inr ⟨blob, hblob, hequal ▸ hcontent⟩

end Walk

end Dim.Snapshot
