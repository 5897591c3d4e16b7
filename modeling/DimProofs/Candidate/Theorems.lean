/-
What a materialized candidate is worth: the destination is the tree, and every blob can be read back by its path, exactly
where no name begins with a byte order mark and no blob is deeper than the reader looks; and what fails leaves no trace.
-/
import DimProofs.Candidate.Runs
import DimProofs.Snapshot.Theorems

namespace Dim.Candidate

open Effectful Relational
open Snapshot (Bytes Digest Repository GitObjectFormat Path Content FileTree TreeEntry Encodes ascii slash
  rawObjectIdLength hashObject objectBytes asciiText withoutMark marked CollisionFree)

/-! ## Trees by their ids -/

section Trees

variable (d : Digest) (format : GitObjectFormat)

/-- The entry at a path of the tree with an id. -/
inductive At : Bytes → Path → TreeEntry → Prop
  | here {tree bytes : Bytes} {entries : List TreeEntry} {e : TreeEntry} :
    hashObject (d.digest format) .tree bytes = tree → Encodes (rawObjectIdLength format) bytes entries → e ∈ entries →
      At tree [e.name] e
  | inner {tree bytes : Bytes} {entries : List TreeEntry} {e e' : TreeEntry} {path : Path} :
    hashObject (d.digest format) .tree bytes = tree → Encodes (rawObjectIdLength format) bytes entries → e ∈ entries →
      e.mode = Mode.directory.text → At e.objectId path e' → At tree (e.name :: path) e'

/-- A blob entry, and the bytes of its blob. -/
def IsBlob (e : TreeEntry) (mode : Mode) (bytes : Bytes) : Prop :=
  mode ≠ .directory ∧ e.mode = mode.text ∧ hashObject (d.digest format) .blob bytes = e.objectId

/-- What an entry stands for. -/
def Means (e : TreeEntry) (content : Content) : Prop :=
  (e.mode = Mode.directory.text ∧ content = .directory) ∨
    ∃ mode bytes, IsBlob d format e mode bytes ∧ content = .file (mode = .executable) bytes

/-- The directory holds the tree and nothing else: at every path what the tree has there. -/
def Exact (tree : Bytes) (fs : FileTree) : Prop :=
  ∀ path content, fs.lookup path = some content ↔ ∃ e, At d format tree path e ∧ Means d format e content

/-- No name of the tree begins with a byte order mark. -/
def Unmarked (tree : Bytes) : Prop := ∀ path e, At d format tree path e → ∀ name ∈ path, marked name = false

/-- No blob's path has more names than the depth limit. -/
def Short (limits : CandidateObjectLimits) (tree : Bytes) : Prop :=
  ∀ path e, At d format tree path e → e.mode ≠ Mode.directory.text → path.length ≤ limits.maximumDepth

end Trees

/-- The text of a path. -/
def pathText (path : Path) : Bytes := [slash].intercalate path

/-- Every blob of the tree is read back by its path. -/
def ReadsBack (d : Digest) (git : Repository) (limits : CandidateObjectLimits) (tree : Bytes) : Prop :=
  ∀ path e, At d git.objectFormat tree path e → e.mode ≠ Mode.directory.text →
    ∃ mode bytes, IsBlob d git.objectFormat e mode bytes ∧ ∀ maximumBytes ≥ limits.maximumBlobBytes,
      readVerifiedBlob d git limits tree (pathText path) maximumBytes = .ok ⟨e.objectId, mode, bytes⟩

/-- The modes of Git's trees are octal numbers. -/
def GitTrees (git : Repository) : Prop :=
  ∀ objectId bytes entries, git.catFile .tree objectId = some bytes →
    Encodes (rawObjectIdLength git.objectFormat) bytes entries →
    ∀ e ∈ entries, ∀ byte ∈ e.mode, 0x30 ≤ byte ∧ byte ≤ 0x37

section Read

variable {d : Digest} {git : Repository} {limits : CandidateObjectLimits} {tree : Bytes} {levels : Nat}

variable {bytes bytes' : Bytes}

theorem hashObject_injective (hfree : CollisionFree d git) {type : Snapshot.ObjectType} {objectId : Bytes}
    (hfile : git.catFile type objectId = some bytes) (hhash : hashObject (d.digest git.objectFormat) type bytes = objectId)
    (hhash' : hashObject (d.digest git.objectFormat) type bytes' = objectId) : bytes' = bytes :=
  (Snapshot.objectBytes_injective (hfree type objectId bytes hfile _ (hhash'.trans hhash.symm))).2

variable {listing : Listing}

/-- The trees that were read are the trees with the ids. -/
theorem TreeRead.unique (hfree : CollisionFree d git) {entries : List TreeEntry}
    (h : TreeRead d git tree bytes listing) (hhash : hashObject (d.digest git.objectFormat) .tree bytes' = tree)
    (hencodes : Encodes (rawObjectIdLength git.objectFormat) bytes' entries) : entries = treeEntries git tree := by
  rw [hashObject_injective hfree h.catFile h.hash hhash] at hencodes
  exact hencodes.unique h.encodes

variable {e : TreeEntry}

theorem TreeRead.mode (htrees : GitTrees git) (h : TreeRead d git tree bytes listing)
    (he : e ∈ treeEntries git tree) : e.mode = (modeOf e).text := by
  rw [← Snapshot.octal_asciiText (htrees _ _ _ h.catFile h.encodes e he)]
  exact (h.accepted e he).mode

theorem directory_iff {e : TreeEntry} (h : e.mode = (modeOf e).text) :
    e.mode = Mode.directory.text ↔ modeOf e = .directory := by
  rw [h]
  constructor
  · exact text_injective
  · intro hmode
    rw [hmode]

variable {content : Content}

/-- What a blob entry means is what was read for it. -/
theorem means_iff (hfree : CollisionFree d git) {below : Bytes → Prop} (hread : EntryRead d git limits below e)
    (hmode : e.mode = (modeOf e).text) : Means d git.objectFormat e content ↔
      (modeOf e = .directory ∧ content = .directory) ∨
        (modeOf e ≠ .directory ∧ content = .file (modeOf e = .executable) (blobOf git e)) := by
  unfold Means
  rw [directory_iff hmode]
  refine or_congr_right ?_
  constructor
  · rintro ⟨mode, bytes, ⟨hne, htext, hhash⟩, rfl⟩
    obtain rfl : mode = modeOf e := text_injective (htext.symm.trans hmode)
    rw [EntryRead, if_neg hne] at hread
    obtain ⟨bytes', hblob⟩ := hread
    obtain ⟨hfile, hhash', -⟩ := Snapshot.readVerifiedBlobObject_ok hblob
    obtain rfl := hashObject_injective hfree hfile hhash' hhash
    exact ⟨hne, by rw [blobOf, hfile]; rfl⟩
  · rintro ⟨hne, rfl⟩
    rw [EntryRead, if_neg hne] at hread
    obtain ⟨bytes', hblob⟩ := hread
    obtain ⟨hfile, hhash', -⟩ := Snapshot.readVerifiedBlobObject_ok hblob
    have hof : blobOf git e = bytes' := by rw [blobOf, hfile]; rfl
    exact ⟨modeOf e, blobOf git e, ⟨hne, hmode, hof ▸ hhash'⟩, rfl⟩

variable {path : Path}

theorem mem_entryItems {below : Bytes → List (Path × Content)} :
    (path, content) ∈ entryItems git below e ↔
      (path = [e.name] ∧ ((modeOf e = .directory ∧ content = .directory) ∨
        (modeOf e ≠ .directory ∧ content = .file (modeOf e = .executable) (blobOf git e)))) ∨
      ∃ rest, path = e.name :: rest ∧ modeOf e = .directory ∧ (rest, content) ∈ below e.objectId := by
  unfold entryItems
  cases hmode : modeOf e with
  | directory =>
    simp only [List.mem_cons, Prod.mk.injEq, List.mem_map, inside, Prod.exists]
    constructor
    · rintro (⟨rfl, rfl⟩ | ⟨rest, content', hmem, rfl, rfl⟩)
      · exact .inl ⟨rfl, .inl ⟨trivial, rfl⟩⟩
      · exact .inr ⟨rest, rfl, trivial, hmem⟩
    · rintro (⟨rfl, ⟨-, rfl⟩ | ⟨hne, -⟩⟩ | ⟨rest, rfl, -, hmem⟩)
      · exact .inl ⟨rfl, rfl⟩
      · exact absurd rfl hne
      · exact .inr ⟨rest, content, hmem, rfl, rfl⟩
  | regular => simp
  | executable => simp

/-- The items of a tree that was read are what the tree has. -/
theorem mem_items (htrees : GitTrees git) (hfree : CollisionFree d git) : ∀ {levels : Nat} {tree : Bytes},
    WellRead d git limits levels tree → ∀ {path : Path} {content : Content}, (path, content) ∈ items git levels tree ↔
      ∃ e, At d git.objectFormat tree path e ∧ Means d git.objectFormat e content
  | levels + 1, tree, ⟨⟨listing, hlisting⟩, hall⟩, path, content => by
    obtain ⟨bytes, htree⟩ := readTree_ok hlisting
    rw [items, List.mem_flatMap]
    constructor
    · rintro ⟨e, he, hmem⟩
      have hmode := htree.mode htrees he
      rcases mem_entryItems.1 hmem with ⟨rfl, hown⟩ | ⟨rest, rfl, hdirectory, hrest⟩
      · exact ⟨e, .here htree.hash htree.encodes he, (means_iff hfree (hall e he) hmode).2 hown⟩
      · have hread := hall e he
        rw [EntryRead, if_pos hdirectory] at hread
        obtain ⟨e', hat, hmeans⟩ := (mem_items htrees hfree hread).1 hrest
        exact ⟨e', .inner htree.hash htree.encodes he ((directory_iff hmode).2 hdirectory) hat, hmeans⟩
    · rintro ⟨e, hat, hmeans⟩
      cases hat with
      | here hhash hencodes he =>
        obtain rfl := htree.unique hfree hhash hencodes
        exact ⟨e, he, mem_entryItems.2 (.inl ⟨rfl, (means_iff hfree (hall e he) (htree.mode htrees he)).1 hmeans⟩)⟩
      | @inner _ _ _ e₁ _ rest hhash hencodes he hdirectory hat =>
        obtain rfl := htree.unique hfree hhash hencodes
        have hmode := (directory_iff (htree.mode htrees he)).1 hdirectory
        have hread := hall e₁ he
        rw [EntryRead, if_pos hmode] at hread
        exact ⟨e₁, he, mem_entryItems.2 (.inr ⟨rest, rfl, hmode, (mem_items htrees hfree hread).2 ⟨e, hat, hmeans⟩⟩)⟩

/-- Whatever is in a tree that was read means something, and its names pass the reader's checks, but for a mark. -/
theorem entry_of_at (htrees : GitTrees git) (hfree : CollisionFree d git) : ∀ {levels : Nat} {tree : Bytes},
    WellRead d git limits levels tree → ∀ {path : Path} {e : TreeEntry}, At d git.objectFormat tree path e →
      (path ≠ [] ∧ ∀ name ∈ path, safeName (withoutMark name) = true) ∧ ∃ content, Means d git.objectFormat e content
  | levels + 1, tree, ⟨⟨listing, hlisting⟩, hall⟩, path, e, hat => by
    obtain ⟨bytes, htree⟩ := readTree_ok hlisting
    cases hat with
    | here hhash hencodes he =>
      obtain rfl := htree.unique hfree hhash hencodes
      refine ⟨⟨List.cons_ne_nil _ _, List.forall_mem_singleton.2 (htree.accepted e he).name⟩, ?_⟩
      rw [exists_congr fun content => means_iff hfree (hall e he) (htree.mode htrees he)]
      by_cases hdirectory : modeOf e = .directory
      · exact ⟨_, .inl ⟨hdirectory, rfl⟩⟩
      · exact ⟨_, .inr ⟨hdirectory, rfl⟩⟩
    | @inner _ _ _ e₁ _ rest hhash hencodes he hdirectory hat =>
      obtain rfl := htree.unique hfree hhash hencodes
      have hread := hall e₁ he
      rw [EntryRead, if_pos ((directory_iff (htree.mode htrees he)).1 hdirectory)] at hread
      obtain ⟨⟨-, hnames⟩, hmeans⟩ := entry_of_at htrees hfree hread hat
      exact ⟨⟨List.cons_ne_nil _ _, List.forall_mem_cons.2 ⟨(htree.accepted e₁ he).name, hnames⟩⟩, hmeans⟩

/-! ## The destination -/

theorem length_placed_le (item : Path × Content) :
    ((placed [] item).1.map List.length).sum ≤ (item.1.map List.length).sum := by
  rw [placed, List.nil_append, List.map_map]
  exact List.sum_le_sum fun name _ => Snapshot.length_withoutMark_le name

theorem length_placed_lt {item : Path × Content} {name : Bytes} (hname : name ∈ item.1) (hmarked : marked name = true) :
    ((placed [] item).1.map List.length).sum < (item.1.map List.length).sum := by
  rw [placed, List.nil_append, List.map_map]
  exact List.sum_lt_sum _ _ (fun name _ => Snapshot.length_withoutMark_le name)
    ⟨name, hname, Snapshot.length_withoutMark_lt hmarked⟩

theorem placed_eq {item : Path × Content} (h : ∀ name ∈ item.1, marked name = false) : placed [] item = item := by
  rw [placed, List.nil_append]
  exact Prod.ext ((List.map_congr_left fun name hname => Snapshot.withoutMark_eq (h name hname)).trans (List.map_id _)) rfl

/-- Items that are a rearrangement of what was written for them have no marked name. -/
theorem unmarked_of_perm {list : List (Path × Content)} (h : (list.map (placed [])).Perm list) :
    ∀ item ∈ list, ∀ name ∈ item.1, marked name = false := by
  intro item hitem name hname
  rw [Bool.eq_false_iff]
  intro hmarked
  have hsum := (h.map fun item => (item.1.map List.length).sum).sum_eq
  rw [List.map_map] at hsum
  have hlt := List.sum_lt_sum (l := list) (fun item => ((placed [] item).1.map List.length).sum)
    (fun item => (item.1.map List.length).sum) (fun item _ => length_placed_le item)
      ⟨item, hitem, length_placed_lt hname hmarked⟩
  exact absurd hsum (Nat.ne_of_lt hlt)

section Destination

variable (htrees : GitTrees git) (hfree : CollisionFree d git) (hread : WellRead d git limits levels tree) {fs : FileTree}
  (hentries : fs.entries = (items git levels tree).map (placed []))

include htrees hfree hread hentries

/-- The destination is the tree only where no name has lost its mark. -/
theorem unmarked_of_exact (hexact : Exact d git.objectFormat tree fs) : Unmarked d git.objectFormat tree := by
  have hnodup : fs.entries.Nodup := fs.distinct.of_map
  have hitems : (items git levels tree).Nodup := (hentries ▸ hnodup).of_map
  have hperm : ((items git levels tree).map (placed [])).Perm (items git levels tree) := by
    rw [← hentries]
    refine (List.perm_ext_iff_of_nodup hnodup hitems).2 fun item => ?_
    rw [← FileTree.lookup_eq_some, hexact, mem_items htrees hfree hread]
  intro path e hat name hname
  obtain ⟨-, content, hmeans⟩ := entry_of_at htrees hfree hread hat
  exact unmarked_of_perm hperm (path, content) ((mem_items htrees hfree hread).2 ⟨e, hat, hmeans⟩) name hname

theorem exact_of_unmarked (hunmarked : Unmarked d git.objectFormat tree) : Exact d git.objectFormat tree fs := by
  have hitems : fs.entries = items git levels tree := by
    rw [hentries]
    refine (List.map_congr_left fun item hitem => ?_).trans (List.map_id _)
    obtain ⟨e, hat, -⟩ := (mem_items htrees hfree hread).1 hitem
    exact placed_eq (hunmarked item.1 e hat)
  intro path content
  rw [FileTree.lookup_eq_some, hitems, mem_items htrees hfree hread]

end Destination

/-! ## Reading back -/

theorem slash_notMem {name : Bytes} (h : safeName (withoutMark name) = true) : slash ∉ name := by
  have hsafe : slash ∉ withoutMark name := by
    simp only [safeName, Bool.and_eq_true] at h
    simpa using h.1.1.2
  unfold withoutMark at hsafe
  split at hsafe
  · intro hmem
    have hmark : slash ∉ [0xEF, 0xBB, 0xBF] := by decide
    rcases List.mem_append.1 (show slash ∈ [0xEF, 0xBB, 0xBF] ++ _ from hmem) with hleft | hright
    · exact hmark hleft
    · exact hsafe hright
  · exact hsafe

/-- The components of a path's text are its names. -/
theorem splitOn_pathText (hpath : path ≠ []) (hnames : ∀ name ∈ path, safeName (withoutMark name) = true) :
    (pathText path).splitOn slash = path :=
  List.splitOn_intercalate slash (fun name hname => slash_notMem (hnames name hname)) hpath

/-- An entry is found by its name. -/
theorem findEntry_of_mem (hnodup : (listing.entries.map (·.name)).Nodup) {entry : Entry} (h : entry ∈ listing.entries) :
    findEntry listing entry.name = .ok entry := by
  unfold findEntry
  rcases hfound : listing.entries.find? (·.name = entry.name) with _ | entry'
  · rw [List.find?_eq_none] at hfound
    exact absurd (decide_eq_true rfl) (hfound entry h)
  · have hmem := List.mem_of_find?_eq_some hfound
    have hname : entry'.name = entry.name := by simpa using List.find?_some hfound
    obtain rfl : entry' = entry := List.inj_on_of_nodup_map hnodup hmem h hname
    rw [hfound]
    rfl

/-- The reader finds the blob at a path without marks. -/
theorem readComponents_at (htrees : GitTrees git) (hfree : CollisionFree d git) : ∀ {levels : Nat} {tree : Bytes},
    WellRead d git limits levels tree → Unmarked d git.objectFormat tree → ∀ {path : Path} {e : TreeEntry},
      At d git.objectFormat tree path e → e.mode ≠ Mode.directory.text →
        ∃ mode bytes, IsBlob d git.objectFormat e mode bytes ∧ ∀ maximumBytes ≥ limits.maximumBlobBytes,
          readComponents d git limits maximumBytes path tree = .ok ⟨e.objectId, mode, bytes⟩
  | levels + 1, tree, ⟨⟨listing, hlisting⟩, hall⟩, hunmarked, path, e, hat, hblob => by
    obtain ⟨bytes, htree⟩ := readTree_ok hlisting
    have hfind : ∀ x ∈ treeEntries git tree, marked x.name = false → findEntry listing x.name = .ok (entryOf x) := by
      intro x hx hplain
      have hname : (entryOf x).name = x.name := Snapshot.withoutMark_eq hplain
      rw [← hname]
      exact findEntry_of_mem htree.nodup (htree.entries ▸ List.mem_map_of_mem hx)
    cases hat with
    | here hhash hencodes he =>
      have hplain := hunmarked _ e (.here hhash hencodes he) e.name List.mem_cons_self
      obtain rfl := htree.unique hfree hhash hencodes
      have hmode := htree.mode htrees he
      have hkind : modeOf e ≠ .directory := fun hkind => hblob ((directory_iff hmode).2 hkind)
      have hread := hall e he
      rw [EntryRead, if_neg hkind] at hread
      obtain ⟨content, hcontent⟩ := hread
      obtain ⟨-, hhash', -⟩ := Snapshot.readVerifiedBlobObject_ok hcontent
      refine ⟨modeOf e, content, ⟨hkind, hmode, hhash'⟩, fun maximumBytes hle => ?_⟩
      rw [readComponents, hlisting]
      refine bind_ok.2 ⟨listing, rfl, bind_ok.2 ⟨entryOf e, hfind e he hplain, ?_⟩⟩
      rw [if_neg (not_not.2 rfl), if_neg (show (entryOf e).mode ≠ .directory from hkind)]
      refine bind_ok.2 ⟨content, ?_, rfl⟩
      rw [Nat.min_eq_right hle]
      exact hcontent
    | @inner _ _ _ e₁ _ rest hhash hencodes he hdirectory hat =>
      have hplain := hunmarked _ e (.inner hhash hencodes he hdirectory hat) e₁.name List.mem_cons_self
      have hbelow : Unmarked d git.objectFormat e₁.objectId := fun path' e' hat' name hname =>
        hunmarked _ e' (.inner hhash hencodes he hdirectory hat') name (List.mem_cons_of_mem _ hname)
      obtain rfl := htree.unique hfree hhash hencodes
      have hkind := (directory_iff (htree.mode htrees he)).1 hdirectory
      have hread := hall e₁ he
      rw [EntryRead, if_pos hkind] at hread
      obtain ⟨mode, content, hisBlob, hreads⟩ := readComponents_at htrees hfree hread hbelow hat hblob
      refine ⟨mode, content, hisBlob, fun maximumBytes hle => ?_⟩
      rw [readComponents, hlisting]
      refine bind_ok.2 ⟨listing, rfl, bind_ok.2 ⟨entryOf e₁, hfind e₁ he hplain, ?_⟩⟩
      rw [if_pos (entry_of_at htrees hfree hread hat).1.1, if_neg (not_not.2 (show (entryOf e₁).mode = .directory from hkind))]
      exact hreads maximumBytes hle

section ReadBack

variable (htrees : GitTrees git) (hfree : CollisionFree d git) (hread : WellRead d git limits levels tree)

include htrees hfree hread

theorem short_of_readsBack (hback : ReadsBack d git limits tree) : Short d git.objectFormat limits tree := by
  intro path e hat hblob
  obtain ⟨mode, bytes, -, hreads⟩ := hback path e hat hblob
  obtain ⟨components, hcomponents, -⟩ := bind_ok.1 (hreads limits.maximumBlobBytes le_rfl)
  obtain ⟨⟨hpath, hnames⟩, -⟩ := entry_of_at htrees hfree hread hat
  unfold candidatePath at hcomponents
  rw [splitOn_pathText hpath hnames] at hcomponents
  dsimp only at hcomponents
  split at hcomponents
  · cases hcomponents
  · rename_i hchecks
    simp only [not_or, Nat.not_lt] at hchecks
    exact hchecks.2.1

theorem readsBack_of_short (hunmarked : Unmarked d git.objectFormat tree) (hshort : Short d git.objectFormat limits tree) :
    ReadsBack d git limits tree := by
  intro path e hat hblob
  obtain ⟨mode, bytes, hisBlob, hreads⟩ := readComponents_at htrees hfree hread hunmarked hat hblob
  refine ⟨mode, bytes, hisBlob, fun maximumBytes hle => bind_ok.2 ⟨path, ?_, hreads maximumBytes hle⟩⟩
  obtain ⟨⟨hpath, hnames⟩, -⟩ := entry_of_at htrees hfree hread hat
  unfold candidatePath
  rw [splitOn_pathText hpath hnames]
  dsimp only
  rw [if_neg]
  · rfl
  · have hsafe : path.any (!safeName ·) = false := by
      rw [List.any_eq_false]
      intro name hname
      rw [← Snapshot.withoutMark_eq (hunmarked path e hat name hname), hnames name hname]
      nofun
    rw [hsafe]
    simp only [List.length_eq_zero_iff, hpath, false_or, Bool.false_eq_true, or_false, Nat.not_lt]
    exact hshort path e hat hblob

end ReadBack

end Read

/-! ## Every run -/

/--
For every run, whatever fails in it. Where it succeeds, the destination is the tree and every blob can be read back by
its path
if and only if no name begins with a byte order mark and no blob's path is longer than the depth limit; where it fails,
neither the
destination nor a staging directory is left if and only if there was no destination before and no removal failed.
-/
theorem materialized_iff {d : Digest} {git : Repository} {limits : CandidateObjectLimits} {tree : Bytes} {w w' : World}
    {outcome : Except String Unit} (htrees : GitTrees git) (hfree : CollisionFree d git)
    (hbefore : w.staging = none ∧ w.removalFailed = false)
    (hrun : Reaches (Acts d git) (materializeVerifiedTree limits tree) w (.ended outcome) w') :
    match outcome with
    | .ok _ => (∃ fs, w'.destination = some fs ∧ Exact d git.objectFormat tree fs ∧ ReadsBack d git limits tree) ↔
        Unmarked d git.objectFormat tree ∧ Short d git.objectFormat limits tree
    | .error _ => (w'.destination = none ∧ w'.staging = none) ↔ (w.destination = none ∧ w'.removalFailed = false) := by
  obtain ⟨-, hended⟩ := (materialize_ends hbefore.1 hbefore.2).reaches trivial hrun
  cases outcome with
  | ok value =>
    obtain ⟨fs, hdestination, hread, hentries⟩ := hended
    constructor
    · rintro ⟨fs', hdestination', hexact, hback⟩
      obtain rfl : fs = fs' := Option.some.inj (hdestination.symm.trans hdestination')
      exact ⟨unmarked_of_exact htrees hfree hread hentries hexact, short_of_readsBack htrees hfree hread hback⟩
    · rintro ⟨hunmarked, hshort⟩
      exact ⟨fs, hdestination, exact_of_unmarked htrees hfree hread hentries hunmarked,
        readsBack_of_short htrees hfree hread hunmarked hshort⟩
  | error failure =>
    rcases hended with rfl | ⟨hdestination, hdestination', hstaging⟩
    · simp [hbefore.1, hbefore.2]
    · simp [hdestination, hdestination', hstaging]

/-! ## A name with a byte order mark -/

namespace Sample

open Snapshot.Sample (digest repository nested nestedId linkless linklessId markedEntry markedId trees markedWritten
  mem_trees sha1_object strict_repository free_repository)

def limits : CandidateObjectLimits := ⟨16 * 1024 * 1024, 256 * 1024 * 1024, 16 * 1024 * 1024, 100000, 64⟩

def before : World := ⟨none, none, false⟩

def written : FileTree where
  entries := [([ascii "a"], .file false []), ([ascii "b"], .file true []), ([ascii "d"], .directory),
    ([ascii "d", ascii "a"], .file false [])]
  distinct := by decide
  legal := by decide

def after (fs : FileTree) : World := ⟨some fs, none, false⟩

theorem run_of_exec {git : Repository} {tree : Bytes} {fs : FileTree}
    (h : (materializeVerifiedTree limits tree).exec (perform digest git false) before = (.ok (), after fs)) :
    Reaches (Acts digest git) (materializeVerifiedTree limits tree) before (.ended (.ok ())) (after fs) := by
  have hrun := @reaches_exec _ _ _ _ _ (Acts digest git) _ (fun c w => performs_perform false c w)
    (materializeVerifiedTree limits tree) before
  rwa [h] at hrun

theorem gitTrees (tree : Bytes) : GitTrees (repository tree) := fun objectId bytes entries hfile hencodes =>
  (strict_repository tree rfl objectId bytes entries hfile hencodes).1

/-- The entries of a tree here, by its id. -/
theorem entries_of_hash {tree bytes : Bytes} {entries es : List TreeEntry} (htree : (tree, es) ∈ trees)
    (hhash : hashObject (digest.digest .sha1) .tree bytes = tree) (hencodes : Encodes 20 bytes entries) : entries = es := by
  have hobject : (Snapshot.ObjectType.tree, tree, es.flatMap Snapshot.encodeTreeEntry) ∈ Snapshot.Sample.objects :=
    List.mem_append_right _ (List.mem_map_of_mem htree)
  have hids : (trees.map (·.1)).Nodup := by decide
  have hbytes := (Snapshot.objectBytes_injective (sha1_object hobject hhash)).2
  exact congrArg (·.2) (List.inj_on_of_nodup_map hids (mem_trees (hbytes ▸ hobject) hencodes) htree rfl)

theorem at_nested {path : Path} {e : TreeEntry} (h : At digest .sha1 nestedId path e) : path = [ascii "a"] := by
  have hmem : (nestedId, nested) ∈ trees := List.mem_cons_self
  cases h with
  | here hhash hencodes he =>
    rw [entries_of_hash hmem hhash hencodes, nested, List.mem_singleton] at he
    rw [he]
  | inner hhash hencodes he hdirectory _ =>
    rw [entries_of_hash hmem hhash hencodes, nested, List.mem_singleton] at he
    rw [he] at hdirectory
    exact absurd hdirectory (by decide)

def paths : List Path := [[ascii "a"], [ascii "b"], [ascii "d"], [ascii "d", ascii "a"]]

theorem at_linkless {path : Path} {e : TreeEntry} (h : At digest .sha1 linklessId path e) : path ∈ paths := by
  have hmem : (linklessId, linkless) ∈ trees := List.mem_cons_of_mem _ List.mem_cons_self
  have hnames : ∀ e ∈ linkless, [e.name] ∈ paths := by decide
  have hdirectories : ∀ e ∈ linkless, e.mode = Mode.directory.text → e.objectId = nestedId ∧
    [e.name, ascii "a"] ∈ paths := by decide
  cases h with
  | here hhash hencodes he =>
    rw [entries_of_hash hmem hhash hencodes] at he
    exact hnames _ he
  | inner hhash hencodes he hdirectory hat =>
    rw [entries_of_hash hmem hhash hencodes] at he
    obtain ⟨hid, hpath⟩ := hdirectories _ he hdirectory
    rw [hid] at hat
    rwa [at_nested hat]

/-- A tree of two kinds of files and a directory. -/
theorem plain_read_back : ∃ fs, (after written).destination = some fs ∧ Exact digest .sha1 linklessId fs ∧
    ReadsBack digest (repository linklessId) limits linklessId := by
  have hrun : Reaches (Acts digest (repository linklessId)) (materializeVerifiedTree limits linklessId) before
    (.ended (.ok ()))
      (after written) :=
    run_of_exec (by decide +kernel)
  refine (materialized_iff (gitTrees _) (free_repository _) ⟨rfl, rfl⟩ hrun).2 ⟨fun path e hat => ?_, fun path e hat _ => ?_⟩
  · have hnames : ∀ path ∈ paths, ∀ name ∈ path, marked name = false := by decide
    exact hnames path (at_linkless hat)
  · have hshort : ∀ path ∈ paths, path.length ≤ limits.maximumDepth := by decide
    exact hshort path (at_linkless hat)

/-- The file is written without the mark of its name. -/
theorem marked_misplaced : GitTrees (repository markedId) ∧ CollisionFree digest (repository markedId) ∧
    Reaches (Acts digest (repository markedId)) (materializeVerifiedTree limits markedId) before (.ended (.ok ()))
      (after markedWritten) ∧
      ¬ ∃ fs, (after markedWritten).destination = some fs ∧ Exact digest .sha1 markedId fs ∧
        ReadsBack digest (repository markedId) limits markedId := by
  refine ⟨gitTrees _, free_repository _, run_of_exec (by decide +kernel), ?_⟩
  rintro ⟨fs, hdestination, hexact, -⟩
  obtain rfl : markedWritten = fs := Option.some.inj hdestination
  have hencodes : Encodes 20 (Snapshot.encodeTreeEntry markedEntry ++ []) [markedEntry] :=
    Snapshot.encodes_nil.cons (by decide) (by decide) rfl
  rw [List.append_nil] at hencodes
  have hat : At digest .sha1 markedId [markedEntry.name] markedEntry := .here (by decide +kernel) hencodes List.mem_cons_self
  have hmeans : Means digest .sha1 markedEntry (.file false []) := .inr ⟨.regular, [], ⟨nofun, rfl, by decide +kernel⟩, rfl⟩
  have hheld := (hexact [markedEntry.name] (.file false [])).2 ⟨markedEntry, hat, hmeans⟩
  exact absurd hheld (by decide)

end Sample

end Dim.Candidate
