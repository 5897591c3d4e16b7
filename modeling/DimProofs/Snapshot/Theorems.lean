/-
The round trip of a root snapshot: the directory that was written is accepted with the id of its tree unless a name or
a link target begins with a byte order mark, which the decoder drops, and no other directory is accepted with that id.
-/
import DimProofs.Snapshot.Checking

namespace Dim.Snapshot

open Relational

section Marks

variable {d : Digest} {git : Repository} {fs : FileTree}

/-- Names that are as long as the decoded ones have no mark. -/
theorem unmarked_of_length {treeEntries : List TreeEntry}
    (h : (treeEntries.map (·.name)).Perm (treeEntries.map fun e => withoutMark e.name)) :
    ∀ e ∈ treeEntries, marked e.name = false := by
  intro e he
  rw [Bool.eq_false_iff]
  intro hmarked
  have hsum : (treeEntries.map fun e => e.name.length).sum = (treeEntries.map fun e => (withoutMark e.name).length).sum := by
    have hlengths := (h.map List.length).sum_eq
    simpa [Function.comp_def] using hlengths
  have hlt : (treeEntries.map fun e => (withoutMark e.name).length).sum < (treeEntries.map fun e => e.name.length).sum :=
    List.sum_lt_sum _ _ (fun x _ => length_withoutMark_le x.name) ⟨e, he, length_withoutMark_lt hmarked⟩
  omega

/-- A directory that was written holds the tree only where nothing was dropped. -/
theorem unmarked_of_holds : ∀ {fuel : Nat} {tree : Bytes} {parent : Path} {entries : List RootEntry},
    Reads d git fuel tree parent entries → Written git fs parent entries → Holds git fs fuel tree parent →
      Unmarked git fuel tree := by
  intro fuel
  induction fuel with
  | zero => exact fun _ _ _ => trivial
  | succ fuel ih =>
    rintro tree parent entries ⟨bytes, es, listed, hfile, hhash, hencodes, hnodup, hentries, hall⟩ hwritten
      ⟨bytes', es', hfile', hencodes', hnames, hholds⟩ bytes'' es'' hfile'' hencodes''
    obtain rfl : bytes = bytes' := Option.some.inj (hfile.symm.trans hfile')
    obtain rfl : bytes = bytes'' := Option.some.inj (hfile.symm.trans hfile'')
    obtain rfl : es = es' := hencodes.unique hencodes'
    obtain rfl : es = es'' := hencodes.unique hencodes''
    have hclean := unmarked_of_length (hnames.symm.trans (readdir_written hwritten hentries hnodup hall))
    intro e he
    obtain ⟨mode, name, below, hm, hn, hown, hbelow⟩ := hall e he
    have hname : name = e.name := (decodeName_ok hn).trans (withoutMark_eq (hclean e he))
    obtain ⟨hlookup, hwritten'⟩ := written_below hwritten hentries hnodup hall he hn hown
    rw [hname] at hlookup hwritten'
    have hmode : ∀ {mode' : Mode}, e.mode = mode'.text → mode = mode' := by
      intro mode' htext
      rw [htext, rootMode_text] at hm
      cases hm
      rfl
    refine ⟨hclean e he, fun hlink target htarget => ?_, fun hdirectory => ?_⟩
    · have hcontent : fs.lookup (parent ++ [e.name]) = some (.link (withoutMark target)) := by
        rw [hlookup, RootEntry.content, hmode hlink, htarget]
        rfl
      rw [Bool.eq_false_iff]
      intro hmarked
      have hlt := length_withoutMark_lt hmarked
      rcases hholds e he with ⟨htext, -⟩ | ⟨blob, hblob, ⟨htext, -⟩ | ⟨htext, -⟩ | ⟨-, hheld⟩⟩
      · exact absurd ((hmode hlink).symm.trans (hmode htext)) (by decide)
      · exact absurd ((hmode hlink).symm.trans (hmode htext)) (by decide)
      · exact absurd ((hmode hlink).symm.trans (hmode htext)) (by decide)
      · obtain rfl : target = blob := Option.some.inj (htarget.symm.trans hblob)
        rw [hcontent] at hheld
        simp only [Option.some.injEq, Content.link.injEq] at hheld
        rw [hheld] at hlt
        exact Nat.lt_irrefl _ hlt
    · rw [if_pos (hmode hdirectory), hname] at hbelow
      rcases hholds e he with ⟨-, -, hholds'⟩ | ⟨_, _, ⟨htext, -⟩ | ⟨htext, -⟩ | ⟨htext, -⟩⟩
      · exact ih hbelow hwritten' hholds'
      · exact absurd ((hmode hdirectory).symm.trans (hmode htext)) (by decide)
      · exact absurd ((hmode hdirectory).symm.trans (hmode htext)) (by decide)
      · exact absurd ((hmode hdirectory).symm.trans (hmode htext)) (by decide)

end Marks

/-! ## Round trip -/

section RoundTrip

variable {d : Digest} {git : Repository} {host : Host} {order : Path → List Bytes → List Bytes} {commit tree : Bytes}
  {fs : FileTree}

theorem throwUnless_ok {condition : Bool} {message : String} (h : throwUnless condition message = .ok ()) :
    condition = true := by
  rw [throwUnless] at h
  split at h
  · assumption
  · cases h

/-- What a tree that is accepted consists of. -/
theorem materialize_ok (h : materializeNativeRootSnapshotTree d git host commit tree = .ok fs) :
    objectFormatOf tree = some git.objectFormat ∧ git.fsck = true ∧
      ∃ entries, Reads d git (limits.maximumDepth + 1) tree [] entries ∧
      Written git fs [] entries ∧ (∀ e ∈ entries, Verified d git e) ∧ Within (sizes git entries) := by
  obtain ⟨_, hformats, h⟩ := bind_ok.1 h
  obtain ⟨_, -, h⟩ := bind_ok.1 h
  obtain ⟨_, -, h⟩ := bind_ok.1 h
  obtain ⟨_, hfsck, h⟩ := bind_ok.1 h
  obtain ⟨_, -, h⟩ := bind_ok.1 h
  obtain ⟨_, -, h⟩ := bind_ok.1 h
  obtain ⟨⟨entries, state⟩, hread, h⟩ := bind_ok.1 h
  obtain ⟨fs', hwrite, h⟩ := bind_ok.1 h
  obtain ⟨_, -, h⟩ := bind_ok.1 h
  cases h
  have hformat := throwUnless_ok hformats
  simp only [Bool.and_eq_true, decide_eq_true_eq] at hformat
  obtain ⟨hreads, hcounts⟩ := readRootEntries_ok hread (Nat.zero_le _)
  obtain ⟨hwritten, hverified, hbytes⟩ := writeRootEntries_ok hwrite hcounts.bytes
  refine ⟨hformat.2, throwUnless_ok hfsck, entries, hreads, hwritten, hverified, ?_, hbytes, ?_⟩
  · have hentries := hcounts.entries
    have hmax := hcounts.maximumEntries
    simp only [sizes] at hentries ⊢
    omega
  · have htree := hcounts.treeBytes
    have hmax := hcounts.maximumTreeBytes
    simp only at htree
    omega

/-- For every tree that is accepted: the directory that was written is accepted with its id where no name and no link
target begins with a byte order mark, and, where no two objects share an id, only there; and then any directory that is
accepted with that id holds the tree. -/
theorem root_snapshot_round_trip (hstrict : FsckStrict git) (horder : ∀ path names, (order path names).Perm names)
    (h : materializeNativeRootSnapshotTree d git host commit tree = .ok fs) :
    (Unmarked git (limits.maximumDepth + 1) tree → assertNativeProjectRootSnapshotTree d order fs tree = .ok ()) ∧
      (CollisionFree d git →
        (assertNativeProjectRootSnapshotTree d order fs tree = .ok () → Unmarked git (limits.maximumDepth + 1) tree) ∧
        ∀ fs' : FileTree, assertNativeProjectRootSnapshotTree d order fs' tree = .ok () →
          Holds git fs' (limits.maximumDepth + 1) tree []) := by
  obtain ⟨hformat, hfsck, entries, hreads, hwritten, hverified, hwithin⟩ := materialize_ok h
  have hholds : CollisionFree d git → ∀ fs' : FileTree, assertNativeProjectRootSnapshotTree d order fs' tree = .ok () →
      Holds git fs' (limits.maximumDepth + 1) tree [] := by
    intro hfree fs' haccept
    simp only [assertNativeProjectRootSnapshotTree, hformat] at haccept
    obtain ⟨⟨actual, state⟩, hwalk, haccept⟩ := bind_ok.1 haccept
    simp only at haccept
    split at haccept
    · cases haccept
    · rename_i hsame
      rw [not_not.1 hsame] at hwalk
      exact holds_of_hashDirectory hfree horder hreads hverified hwalk
  refine ⟨fun hunmarked => ?_, fun hfree => ⟨fun haccept => unmarked_of_holds hreads hwritten (hholds hfree fs haccept),
    hholds hfree⟩⟩
  have hzero : (({} : ReadState).add (sizes git entries)) = sizes git entries := by
    simp [ReadState.add]
  have hwalk := @hashDirectory_ok d git order fs (hstrict hfsck) horder _ _ _ _ hreads hunmarked hwritten hverified {}
    (hzero.symm ▸ hwithin)
  simp only [assertNativeProjectRootSnapshotTree, hformat]
  rw [hwalk]
  show (if tree ≠ tree then _ else _) = _
  rw [if_neg (not_not.2 rfl)]
  rfl

end RoundTrip

/-! ## A tree, and a name with a byte order mark -/

namespace Sample

def blobId : Bytes :=
  [0xe6, 0x9d, 0xe2, 0x9b, 0xb2, 0xd1, 0xd6, 0x43, 0x4b, 0x8b, 0x29, 0xae, 0x77, 0x5a, 0xd8, 0xc2, 0xe4, 0x8c, 0x53, 0x91]

def targetId : Bytes :=
  [0x2e, 0x65, 0xef, 0xe2, 0xa1, 0x45, 0xdd, 0xa7, 0xee, 0x51, 0xd1, 0x74, 0x12, 0x99, 0xf8, 0x48, 0xe5, 0xbf, 0x75, 0x2e]

def nestedId : Bytes :=
  [0x49, 0x6d, 0x64, 0x28, 0xb9, 0xcf, 0x92, 0x98, 0x1d, 0xc9, 0x49, 0x52, 0x11, 0xe6, 0xe1, 0x12, 0x0f, 0xb6, 0xf2, 0xba]

def plainId : Bytes :=
  [0x10, 0xa6, 0x32, 0xd3, 0x24, 0xfb, 0xec, 0x4b, 0x3c, 0x6b, 0x1c, 0x45, 0xeb, 0x2f, 0x5f, 0x5e, 0x28, 0x36, 0x20, 0x58]

def linklessId : Bytes :=
  [0x86, 0x42, 0x87, 0x3f, 0xaa, 0x07, 0x2e, 0xe4, 0xf2, 0xa1, 0x8d, 0xae, 0x7e, 0xb3, 0x1f, 0x2c, 0xb6, 0xbe, 0x15, 0x13]

def markedId : Bytes :=
  [0x6c, 0x8c, 0xd0, 0x24, 0x8e, 0x5b, 0xb5, 0x97, 0xdf, 0x7b, 0xaa, 0x04, 0x12, 0xd6, 0x96, 0xa7, 0x67, 0x86, 0x6d, 0xb4]

/-- A tree of one empty file `a`. -/
def nested : List TreeEntry := [⟨Mode.regular.text, ascii "a", blobId⟩]

/-- A tree of an empty file, an executable one and a directory. -/
def linkless : List TreeEntry :=
  [⟨Mode.regular.text, ascii "a", blobId⟩, ⟨Mode.executable.text, ascii "b", blobId⟩,
    ⟨Mode.directory.text, ascii "d", nestedId⟩]

/-- The same with a link to the file. -/
def plain : List TreeEntry := linkless ++ [⟨Mode.link.text, ascii "l", targetId⟩]

/-- An empty file whose name is a byte order mark and `a`. -/
def markedEntry : TreeEntry := ⟨Mode.regular.text, [0xEF, 0xBB, 0xBF] ++ ascii "a", blobId⟩

def trees : List (Bytes × List TreeEntry) :=
  [(nestedId, nested), (linklessId, linkless), (plainId, plain), (markedId, [markedEntry])]

/-- The objects here, with their ids. -/
def objects : List (ObjectType × Bytes × Bytes) :=
  [(.blob, blobId, []), (.blob, targetId, ascii "a")] ++ trees.map fun tree =>
    (.tree, tree.1, tree.2.flatMap encodeTreeEntry)

/-- SHA-1 of the objects here. -/
def sha1 (bytes : Bytes) : Bytes :=
  match objects.find? fun object => objectBytes object.1 object.2.2 = bytes with
  | some object => object.2.1
  | none => List.replicate 20 0

def digest : Digest where
  digest
    | .sha1, bytes => sha1 bytes
    | .sha256, _ => List.replicate 32 0
  length := by
    intro format bytes
    cases format with
    | sha1 =>
      simp only [sha1]
      split
      · rename_i object hfound
        have hlengths : ∀ object ∈ objects, object.2.1.length = 20 := by decide
        exact hlengths object (List.mem_of_find?_eq_some hfound)
      · rfl
    | sha256 => rfl

def commit : Bytes := List.replicate 20 1

/-- A repository of one commit. -/
def repository (tree : Bytes) : Repository where
  objectFormat := .sha1
  catFile type objectId := (objects.find? fun object => object.1 = type && object.2.1 = objectId).map (·.2.2)
  catFileSize objectId := (objects.find? fun object => object.1 = .blob && object.2.1 = objectId).map (·.2.2.length)
  remoteRef := true
  remoteRefAfter := true
  fetch := true
  fsck := true
  fetched := commit
  commitTree := some tree

/-- The link leads to the file. -/
def host : Host where
  root := [ascii "snapshot"]
  realpath _ _ := some [ascii "snapshot", ascii "a"]

/-- The order of the directory's own list. -/
def listed (_ : Path) (names : List Bytes) : List Bytes := names

def written : FileTree where
  entries := [([ascii "a"], .file false []), ([ascii "b"], .file true []), ([ascii "d"], .directory),
    ([ascii "d", ascii "a"], .file false []), ([ascii "l"], .link (ascii "a"))]
  distinct := by decide
  legal := by decide

/-- The directory of one empty file `a`. -/
def markedWritten : FileTree where
  entries := [([ascii "a"], .file false [])]
  distinct := List.nodup_singleton _
  legal := by decide

variable {tree objectId bytes : Bytes} {entries : List TreeEntry} {type : ObjectType}

theorem mem_objects (h : (repository tree).catFile type objectId = some bytes) : (type, objectId, bytes) ∈ objects := by
  obtain ⟨⟨type', objectId', bytes'⟩, hfound, rfl⟩ := Option.map_eq_some_iff.1 h
  have hsame := List.find?_some hfound
  simp only [Bool.and_eq_true, decide_eq_true_eq] at hsame
  obtain ⟨rfl, rfl⟩ := hsame
  exact List.mem_of_find?_eq_some hfound

/-- A tree object has the entries that it was made of. -/
theorem mem_trees (h : (ObjectType.tree, objectId, bytes) ∈ objects) (hencodes : Encodes 20 bytes entries) :
    (objectId, entries) ∈ trees := by
  have hlegal : ∀ found ∈ trees, ∀ e ∈ found.2, space ∉ e.mode ∧ 0 ∉ e.name ∧ e.objectId.length = 20 := by decide
  rcases List.mem_append.1 h with hblob | htree
  · simp at hblob
  · obtain ⟨⟨objectId', entries'⟩, hfound, heq⟩ := List.mem_map.1 htree
    cases heq
    have hmade : Encodes 20 (entries'.flatMap encodeTreeEntry) entries' :=
      ⟨rfl, fun e he => (hlegal _ hfound e he).1, fun e he => (hlegal _ hfound e he).2.1,
        fun e he => (hlegal _ hfound e he).2.2⟩
    rwa [hencodes.unique hmade]

theorem strict_repository (tree : Bytes) : FsckStrict (repository tree) := by
  have hstrict : ∀ found ∈ trees, (∀ e ∈ found.2, ∀ byte ∈ e.mode, 0x30 ≤ byte ∧ byte ≤ 0x37) ∧
      found.2.Pairwise fun left right => sortName left < sortName right := by decide +kernel
  exact fun _ _ _ _ hfile hencodes => hstrict _ (mem_trees (mem_objects hfile) hencodes)

/-- The id of an object here is of that object only. -/
theorem sha1_object {object : ObjectType × Bytes × Bytes} (hobject : object ∈ objects) {other : Bytes}
    (h : sha1 other = object.2.1) : other = objectBytes object.1 object.2.2 := by
  have hdistinct : (objects.map (·.2.1)).Nodup := by decide
  have hnonzero : ∀ object ∈ objects, List.replicate 20 0 ≠ object.2.1 := by decide
  rw [sha1] at h
  split at h
  · rename_i found hfound
    have hbytes : objectBytes found.1 found.2.2 = other := by simpa using List.find?_some hfound
    rw [← hbytes, List.inj_on_of_nodup_map hdistinct (List.mem_of_find?_eq_some hfound) hobject h]
  · exact absurd h (hnonzero object hobject)

theorem sha1_objects : ∀ object ∈ objects, sha1 (objectBytes object.1 object.2.2) = object.2.1 := by decide +kernel

theorem free_repository (tree : Bytes) : CollisionFree digest (repository tree) := fun _ _ _ hfile _ hsame =>
  sha1_object (mem_objects hfile) (hsame.trans (sha1_objects _ (mem_objects hfile)))

/-- No tree here has a mark in it but the one that was made so. -/
theorem unmarked_repository (tree : Bytes) : ∀ (fuel : Nat) {objectId : Bytes}, objectId ≠ markedId →
    Unmarked (repository tree) fuel objectId
  | 0, _, _ => trivial
  | fuel + 1, objectId, hne => by
    have hnames : ∀ found ∈ trees, found.1 ≠ markedId → ∀ e ∈ found.2, marked e.name = false ∧
      e.objectId ≠ markedId := by decide
    have htargets : ∀ object ∈ objects, object.1 = .blob → marked object.2.2 = false := by decide
    intro bytes entries hfile hencodes e he
    obtain ⟨hname, hid⟩ := hnames _ (mem_trees (mem_objects hfile) hencodes) hne e he
    exact ⟨hname, fun _ target hblob => htargets _ (mem_objects hblob) rfl, fun _ => unmarked_repository tree fuel hid⟩

/-- A tree without a mark, and the directory that it is written to. -/
theorem plain_accepted : assertNativeProjectRootSnapshotTree digest listed written plainId = .ok () ∧
    Holds (repository plainId) written (limits.maximumDepth + 1) plainId [] := by
  have hmaterialized : materializeNativeRootSnapshotTree digest (repository plainId) host commit plainId = .ok written := by
    decide +kernel
  have htrip :=
    @root_snapshot_round_trip _ _ _ listed _ _ _ (strict_repository _) (fun _ _ => List.Perm.refl _) hmaterialized
  have haccepted := htrip.1 (unmarked_repository _ _ (by decide))
  exact ⟨haccepted, (htrip.2 (free_repository _)).2 written haccepted⟩

/-- The decoder has dropped the mark of a name, and the directory is refused. -/
theorem marked_rejected :
    materializeNativeRootSnapshotTree digest (repository markedId) host commit markedId = .ok markedWritten ∧
      assertNativeProjectRootSnapshotTree digest listed markedWritten markedId =
        .error "native root snapshot tree identity is invalid" := by
  decide +kernel

end Sample

end Dim.Snapshot
