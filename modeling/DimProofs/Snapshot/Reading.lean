/-
What a tree that is read and written consists of: `Reads` follows the tree objects, and `Written` says what is then
found below the destination.
-/
import DimProofs.Snapshot.Materialize
import DimProofs.Lib.Table

namespace Dim.Snapshot

open Relational

section Reads

variable (d : Digest) (git : Repository)

/-- An entry of a tree object and what is read for it: the entry itself, and what is below it. -/
def ReadEntry (P : Bytes → Path → List RootEntry → Prop) (parent : Path) (e : TreeEntry) (entries : List RootEntry) : Prop :=
  ∃ mode name below, rootMode (asciiText e.mode) = .ok mode ∧ decodeName e.name = .ok name ∧
    entries = ⟨mode, parent ++ [name], e.objectId⟩ :: below ∧
      if mode = .directory then P e.objectId (parent ++ [name]) below else below = []

/-- A tree object is read to these entries below `parent`. -/
def Reads : Nat → Bytes → Path → List RootEntry → Prop
  | 0, _, _, _ => False
  | fuel + 1, tree, parent, entries => ∃ bytes treeEntries listed,
    git.catFile .tree tree = some bytes ∧ hashObject (d.digest git.objectFormat) .tree bytes = tree ∧
      Encodes (rawObjectIdLength git.objectFormat) bytes treeEntries ∧
      (treeEntries.map fun e => withoutMark e.name).Nodup ∧ entries = treeEntries.flatMap listed ∧
      ∀ e ∈ treeEntries, ReadEntry (Reads fuel) parent e (listed e)

end Reads

/-! ## The parts of an entry -/

theorem takeEntry_ok {rawLength : Nat} {bytes rest : Bytes} {e : TreeEntry} (h : takeEntry rawLength bytes = .ok (e, rest)) :
    bytes = encodeTreeEntry e ++ rest ∧ space ∉ e.mode ∧ 0 ∉ e.name ∧ e.objectId.length = rawLength := by
  rw [takeEntry] at h
  split at h
  · cases h
  · rename_i mode after hmode
    split at h
    · cases h
    · rename_i name tail hname
      split at h
      · cases h
      · rename_i hlength
        cases h
        obtain ⟨hbytes, hspace⟩ := splitAt?_eq_some hmode
        obtain ⟨hafter, hzero⟩ := splitAt?_eq_some hname
        refine ⟨?_, hspace, hzero, List.length_take_of_le (Nat.not_lt.1 hlength)⟩
        rw [hbytes, hafter]
        simp [encodeTreeEntry]

theorem rootMode_ok {value : Bytes} {mode : Mode} (h : rootMode value = .ok mode) : value = mode.text := by
  unfold rootMode at h
  split at h
  · cases h
    assumption
  · split at h
    · cases h
      assumption
    · split at h
      · cases h
        assumption
      · split at h
        · cases h
          assumption
        · cases h

theorem decodeUtf8_ok {bytes value : Bytes} {message : String} (h : decodeUtf8 bytes message = .ok value) :
    value = withoutMark bytes := by
  rw [decodeUtf8] at h
  split at h
  · cases h
    rfl
  · cases h

theorem decodeName_ok {bytes name : Bytes} (h : decodeName bytes = .ok name) : name = withoutMark bytes := by
  obtain ⟨value, hvalue, hrest⟩ := bind_ok.1 h
  split at hrest
  · cases hrest
  · cases hrest
    exact decodeUtf8_ok hvalue

theorem decodeLink_ok {bytes link : Bytes} (h : decodeLink bytes = .ok link) : link = withoutMark bytes := by
  obtain ⟨value, hvalue, hrest⟩ := bind_ok.1 h
  split at hrest
  · cases hrest
  · cases hrest
    exact decodeUtf8_ok hvalue

theorem checkEntry_ok {parent : Path} {names : List Bytes} {state state' : ReadState} {e : TreeEntry} {entry : RootEntry}
    {name : Bytes} (h : checkEntry parent names state e = .ok (entry, name, state')) :
    ∃ mode, rootMode (asciiText e.mode) = .ok mode ∧ decodeName e.name = .ok name ∧ name ∉ names ∧
      state.entries + 1 ≤ limits.maximumEntries ∧ entry = ⟨mode, parent ++ [name], e.objectId⟩ ∧
      state' = { state with entries := state.entries + 1 } := by
  obtain ⟨mode, hmode, h⟩ := bind_ok.1 h
  obtain ⟨decoded, hname, h⟩ := bind_ok.1 h
  split at h
  · cases h
  · rename_i hnames
    split at h
    · cases h
    · rename_i hlimit
      cases h
      exact ⟨mode, hmode, hname, by simpa using hnames, Nat.not_lt.1 hlimit, rfl, rfl⟩

/-! ## The sizes of entries -/

/-- The bytes that a blob adds to the files. -/
def RootEntry.content (git : Repository) (entry : RootEntry) : Content :=
  match entry.mode with
  | .directory => .directory
  | .regular => .file false ((git.catFile .blob entry.objectId).getD [])
  | .executable => .file true ((git.catFile .blob entry.objectId).getD [])
  | .link => .link (withoutMark ((git.catFile .blob entry.objectId).getD []))

def Content.size : Content → Nat
  | .file _ bytes => bytes.length
  | .link target => target.length
  | _ => 0

/-- The bytes of an entry in its tree object, once its name is decoded. -/
def RootEntry.treeSize (rawLength : Nat) (entry : RootEntry) : Nat :=
  entry.mode.text.length + (entry.path.getLast?.getD []).length + rawLength + 2

/-- What entries add to the state of the check. -/
def sizes (git : Repository) (entries : List RootEntry) : ReadState where
  entries := entries.length
  bytes := (entries.map fun e => (e.content git).size).sum
  treeBytes := (entries.map (·.treeSize (rawObjectIdLength git.objectFormat))).sum

def ReadState.add (state added : ReadState) : ReadState :=
  ⟨state.entries + added.entries, state.bytes + added.bytes, state.treeBytes + added.treeBytes⟩

/-- No limit is exceeded. -/
structure Within (state : ReadState) : Prop where
  entries : state.entries ≤ limits.maximumEntries
  bytes : state.bytes ≤ limits.maximumMaterializedBytes
  treeBytes : state.treeBytes ≤ limits.maximumTreeBytes

@[simp] theorem ReadState.add_entries (s t : ReadState) : (s.add t).entries = s.entries + t.entries := rfl

@[simp] theorem ReadState.add_bytes (s t : ReadState) : (s.add t).bytes = s.bytes + t.bytes := rfl

@[simp] theorem ReadState.add_treeBytes (s t : ReadState) : (s.add t).treeBytes = s.treeBytes + t.treeBytes := rfl

theorem ReadState.ext {s t : ReadState} (hentries : s.entries = t.entries) (hbytes : s.bytes = t.bytes)
    (htree : s.treeBytes = t.treeBytes) : s = t := by
  cases s
  cases t
  simp_all

theorem sizes_append (git : Repository) (l₁ l₂ : List RootEntry) :
    sizes git (l₁ ++ l₂) = (sizes git l₁).add (sizes git l₂) := by
  simp [sizes, ReadState.add]

theorem sizes_perm {git : Repository} {l₁ l₂ : List RootEntry} (h : l₁.Perm l₂) : sizes git l₁ = sizes git l₂ :=
  ReadState.ext h.length_eq (h.map _).sum_eq (h.map _).sum_eq

/-! ## Reading -/

section Read

variable {d : Digest} {git : Repository} {recurse : Bytes → Path → ReadState → Except String (List RootEntry × ReadState)}
  {P : Bytes → Path → List RootEntry → Prop} {rawLength : Nat}

/-- The state once entries are read and `before` bytes of tree objects were counted for them: the bytes of their names
are counted at least. -/
structure Counts (git : Repository) (read : List RootEntry) (before : Nat) (state state' : ReadState) : Prop where
  entries : state'.entries = state.entries + read.length
  bytes : state'.bytes = state.bytes
  treeBytes : state.treeBytes + (sizes git read).treeBytes ≤ state'.treeBytes + before
  maximumEntries : state'.entries ≤ limits.maximumEntries
  maximumTreeBytes : state'.treeBytes ≤ limits.maximumTreeBytes

theorem treeSize_le {e : TreeEntry} {mode : Mode} {name : Bytes} {parent : Path} (hid : e.objectId.length = rawLength)
    (hmode : rootMode (asciiText e.mode) = .ok mode) (hname : decodeName e.name = .ok name) :
    (⟨mode, parent ++ [name], e.objectId⟩ : RootEntry).treeSize rawLength ≤ (encodeTreeEntry e).length := by
  have hm : mode.text.length = e.mode.length := by rw [← rootMode_ok hmode, asciiText, List.length_map]
  have hn : name.length ≤ e.name.length := decodeName_ok hname ▸ length_withoutMark_le _
  rw [length_encodeTreeEntry hid]
  simp only [RootEntry.treeSize, List.getLast?_append, List.getLast?_singleton, Option.some_or, Option.getD_some, hm]
  omega

/-- The loop over a tree object, whose bytes were counted before. -/
theorem readEntries_ok (hrecurse : ∀ tree parent state entries state', recurse tree parent state = .ok (entries, state') →
      state.entries ≤ limits.maximumEntries → P tree parent entries ∧ Counts git entries 0 state state') {parent : Path} :
    ∀ {fuel : Nat} {bytes : Bytes} {names : List Bytes} {state state' : ReadState} {entries : List RootEntry},
      readEntries recurse (rawObjectIdLength git.objectFormat) parent fuel bytes names state = .ok (entries, state') →
      state.entries ≤ limits.maximumEntries → state.treeBytes ≤ limits.maximumTreeBytes →
      ∃ treeEntries listed, Encodes (rawObjectIdLength git.objectFormat) bytes treeEntries ∧
        (treeEntries.map fun e => withoutMark e.name).Nodup ∧ (∀ e ∈ treeEntries, withoutMark e.name ∉ names) ∧
        entries = treeEntries.flatMap listed ∧ (∀ e ∈ treeEntries, ReadEntry P parent e (listed e)) ∧
        Counts git entries bytes.length state state' := by
  have hnil : ∀ {names : List Bytes} {state : ReadState}, state.entries ≤ limits.maximumEntries →
      state.treeBytes ≤ limits.maximumTreeBytes →
        ∃ treeEntries listed, Encodes (rawObjectIdLength git.objectFormat) [] treeEntries ∧
        (treeEntries.map fun e => withoutMark e.name).Nodup ∧ (∀ e ∈ treeEntries, withoutMark e.name ∉ names) ∧
        ([] : List RootEntry) = treeEntries.flatMap listed ∧ (∀ e ∈ treeEntries, ReadEntry P parent e (listed e)) ∧
        Counts git [] ([] : Bytes).length state state := fun hentries htree =>
    ⟨[], fun _ => [], encodes_nil, List.nodup_nil, nofun, rfl, nofun, rfl, rfl, Nat.le_refl _, hentries, htree⟩
  intro fuel
  induction fuel with
  | zero =>
    intro bytes names state state' entries h hentries htree
    cases bytes with
    | nil =>
      cases h
      exact hnil hentries htree
    | cons byte bytes => cases h
  | succ fuel ih =>
    intro bytes names state state' entries h hentries htree
    cases bytes with
    | nil =>
      cases h
      exact hnil hentries htree
    | cons byte bytes =>
      obtain ⟨⟨e, rest⟩, htake, h₁⟩ := bind_ok.1 h
      obtain ⟨⟨entry, name, state₁⟩, hcheck, h₂⟩ := bind_ok.1 h₁
      obtain ⟨mode, hmode, hname, hfree, hlimit, hentry, hstate⟩ := checkEntry_ok hcheck
      obtain ⟨⟨below, state₂⟩, hbelow, h₃⟩ := bind_ok.1 h₂
      obtain ⟨⟨others, state₃⟩, hothers, h₄⟩ := bind_ok.1 h₃
      obtain ⟨hbytes, hspace, hzero, hid⟩ := takeEntry_ok htake
      cases h₄
      subst hentry hstate
      have hread : ReadEntry P parent e (⟨mode, parent ++ [name], e.objectId⟩ :: below) ∧
          Counts git below 0 { state with entries := state.entries + 1 } state₂ := by
        rw [readBelow] at hbelow
        split at hbelow
        · rename_i hdirectory
          obtain ⟨hP, hcounts⟩ := hrecurse _ _ _ _ _ hbelow hlimit
          exact ⟨⟨mode, name, below, hmode, hname, rfl, by rw [if_pos hdirectory]; exact hP⟩, hcounts⟩
        · rename_i hno
          cases hbelow
          exact ⟨⟨mode, name, [], hmode, hname, rfl, by rw [if_neg hno]⟩, rfl, rfl, Nat.le_refl _, hlimit, htree⟩
      obtain ⟨hown, hcounts⟩ := hread
      obtain ⟨es, listed, hencodes, hnodup, hnames, rfl, hall, hrest⟩ :=
        ih hothers hcounts.maximumEntries hcounts.maximumTreeBytes
      have hname' : name = withoutMark e.name := decodeName_ok hname
      have hfresh : e ∉ es := fun he => hnames e he (hname' ▸ List.mem_cons_self)
      have hlist : ∀ x ∈ es, (fun x =>
          if x = e then (⟨mode, parent ++ [name], e.objectId⟩ : RootEntry) :: below else listed x) x =
          listed x := by
        intro x hx
        have hne : x ≠ e := by
          rintro rfl
          exact hfresh hx
        exact if_neg hne
      refine ⟨e :: es, fun x => if x = e then ⟨mode, parent ++ [name], e.objectId⟩ :: below else listed x,
        hbytes ▸ hencodes.cons hspace hzero hid, ?_, ?_, ?_, ?_, ?_⟩
      · rw [List.map_cons, List.nodup_cons, List.mem_map]
        refine ⟨?_, hnodup⟩
        rintro ⟨x, hx, heq⟩
        have hsame : withoutMark x.name = name := heq.trans hname'.symm
        exact hnames x hx (hsame ▸ List.mem_cons_self)
      · refine List.forall_mem_cons.2 ⟨hname' ▸ hfree, fun x hx hmem => hnames x hx (List.mem_cons_of_mem _ hmem)⟩
      · rw [List.flatMap_cons, if_pos rfl, List.flatMap_congr hlist]
      · refine List.forall_mem_cons.2 ⟨?_, fun x hx => ?_⟩
        · simpa using hown
        · exact (hlist x hx).symm ▸ hall x hx
      · have hsize := @treeSize_le _ e mode name parent hid hmode hname
        refine ⟨?_, hrest.bytes.trans hcounts.bytes, ?_, hrest.maximumEntries, hrest.maximumTreeBytes⟩
        · rw [hrest.entries, hcounts.entries]
          simp only [List.length_append, List.length_cons]
          omega
        · have hbelow' := hcounts.treeBytes
          have hothers' := hrest.treeBytes
          have hlength := congrArg List.length hbytes
          rw [List.length_append] at hlength
          rw [sizes_append, ReadState.add_treeBytes]
          simp only [sizes, List.map_cons, List.sum_cons] at hbelow' hothers' ⊢
          omega

variable {type : ObjectType} {objectId bytes : Bytes} {maximum : Nat}

theorem assertObjectId_ok {expected : Bytes} (h : assertObjectId d git type bytes expected = .ok ()) :
    hashObject (d.digest git.objectFormat) type bytes = expected := by
  rw [assertObjectId] at h
  split at h
  · cases h
  · rename_i heq
    exact not_not.1 heq

theorem readVerifiedTreeBytes_ok (h : readVerifiedTreeBytes d git objectId maximum = .ok bytes) :
    git.catFile .tree objectId = some bytes ∧ hashObject (d.digest git.objectFormat) .tree bytes = objectId ∧
      bytes.length ≤ maximum := by
  rw [readVerifiedTreeBytes] at h
  split at h
  · cases h
  · rename_i hfile
    split at h
    · cases h
    · rename_i hlength
      obtain ⟨_, hassert, h'⟩ := bind_ok.1 h
      cases h'
      exact ⟨hfile, assertObjectId_ok hassert, Nat.not_lt.1 hlength⟩

theorem readVerifiedBlobObject_ok (h : readVerifiedBlobObject d git objectId maximum = .ok bytes) :
    git.catFile .blob objectId = some bytes ∧ hashObject (d.digest git.objectFormat) .blob bytes = objectId ∧
      bytes.length ≤ maximum := by
  rw [readVerifiedBlobObject] at h
  split at h
  · cases h
  · split at h
    · cases h
    · rename_i hlimit
      split at h
      · cases h
      · rename_i hfile
        split at h
        · cases h
        · rename_i hsize
          obtain ⟨_, hassert, h'⟩ := bind_ok.1 h
          cases h'
          exact ⟨hfile, assertObjectId_ok hassert, not_not.1 hsize ▸ Nat.not_lt.1 hlimit⟩

/-- What `readRootEntries` ends with. -/
theorem readRootEntries_ok :
    ∀ {fuel : Nat} {tree : Bytes} {parent : Path} {state state' : ReadState} {entries : List RootEntry},
    readRootEntries d git fuel tree parent state = .ok (entries, state') → state.entries ≤ limits.maximumEntries →
      Reads d git fuel tree parent entries ∧ Counts git entries 0 state state' := by
  intro fuel
  induction fuel with
  | zero => exact fun h => nomatch h
  | succ fuel ih =>
    intro tree parent state state' entries h hentries
    obtain ⟨bytes, hbytes, h⟩ := bind_ok.1 h
    obtain ⟨hfile, hhash, -⟩ := readVerifiedTreeBytes_ok hbytes
    split at h
    · cases h
    · rename_i hlimit
      have hrecurse : ∀ tree parent state entries state',
        readRootEntries d git fuel tree parent state = .ok (entries, state') →
          state.entries ≤ limits.maximumEntries → Reads d git fuel tree parent entries ∧ Counts git entries 0 state state' :=
        fun _ _ _ _ _ h => ih h
      obtain ⟨es, listed, hencodes, hnodup, -, heq, hall, hcounts⟩ :=
        readEntries_ok hrecurse h hentries (Nat.not_lt.1 hlimit)
      refine ⟨⟨bytes, es, listed, hfile, hhash, hencodes, hnodup, heq, hall⟩, hcounts.entries, hcounts.bytes, ?_,
        hcounts.maximumEntries, hcounts.maximumTreeBytes⟩
      have htree := hcounts.treeBytes
      simp only at htree
      omega

/-- What is read is below the directory it is read for. -/
theorem path_of_reads : ∀ {fuel : Nat} {tree : Bytes} {parent : Path} {entries : List RootEntry},
    Reads d git fuel tree parent entries → ∀ entry ∈ entries, ∃ name rest, entry.path = parent ++ name :: rest
  | 0, _, _, _, h => h.elim
  | fuel + 1, tree, parent, entries, ⟨_, es, listed, _, _, _, _, heq, hall⟩ => by
    intro entry hentry
    rw [heq, List.mem_flatMap] at hentry
    obtain ⟨e, he, hlisted⟩ := hentry
    obtain ⟨mode, name, below, -, -, hown, hbelow⟩ := hall e he
    rw [hown] at hlisted
    rcases List.mem_cons.1 hlisted with rfl | hmem
    · exact ⟨name, [], rfl⟩
    · split at hbelow
      · obtain ⟨name', rest, hpath⟩ := path_of_reads hbelow entry hmem
        exact ⟨name, name' :: rest, by rw [hpath, List.append_assoc]; rfl⟩
      · rw [hbelow] at hmem
        cases hmem

end Read

/-! ## Writing -/

section Write

variable {d : Digest} {git : Repository} {host : Host}

/-- A blob that is written was checked, and fits its limit. -/
def Verified (d : Digest) (git : Repository) (entry : RootEntry) : Prop :=
  entry.mode ≠ .directory → ∃ bytes, git.catFile .blob entry.objectId = some bytes ∧
    hashObject (d.digest git.objectFormat) .blob bytes = entry.objectId ∧
    bytes.length ≤ if entry.mode = .link then limits.maximumLinkBytes else limits.maximumBlobBytes

theorem addFile_ok {fs fs' : FileTree} {path : Path} {content : Content} (h : addFile fs path content = .ok fs') :
    fs'.entries = fs.entries ++ [(path, content)] := by
  rw [addFile] at h
  split at h
  · cases h
  · rename_i hadd
    cases h
    exact FileTree.add_eq_some hadd

def RootEntry.isLink (entry : RootEntry) : Bool := entry.mode = .link

/-- The file of an entry. -/
def RootEntry.file (git : Repository) (entry : RootEntry) : Path × Content := (entry.path, entry.content git)

/-- A file that is added, and the rest after it. -/
theorem entries_cons {fs fs₁ fs' : FileTree} {entry : RootEntry} {rest : List RootEntry}
    (hadd : addFile fs entry.path (entry.content git) = .ok fs₁)
    (hrest : fs'.entries = fs₁.entries ++ rest.map (·.file git)) :
    fs'.entries = fs.entries ++ (entry :: rest).map (·.file git) := by
  rw [hrest, addFile_ok hadd, List.append_assoc]
  rfl

theorem sizes_cons_bytes (entry : RootEntry) (rest : List RootEntry) :
    (sizes git (entry :: rest)).bytes = (entry.content git).size + (sizes git rest).bytes := by
  simp [sizes]

/-- What a loop over entries leaves: the files of those that it keeps, which are verified and counted. -/
structure Wrote (d : Digest) (git : Repository) (keep : RootEntry → Bool) (entries : List RootEntry) (fs fs' : FileTree)
    (state state' : ReadState) : Prop where
  files : fs'.entries = fs.entries ++ (entries.filter keep).map (·.file git)
  verified : ∀ e ∈ entries, keep e = true → Verified d git e
  bytes : state.bytes + (sizes git (entries.filter keep)).bytes ≤ state'.bytes
  limit : state'.bytes ≤ limits.maximumMaterializedBytes

section Wrote

variable {keep : RootEntry → Bool} {entry : RootEntry} {rest : List RootEntry} {fs fs₁ fs' : FileTree}
  {state state₁ state' : ReadState}

theorem Wrote.skip (h : Wrote d git keep rest fs fs' state state') (hkeep : keep entry = false) :
    Wrote d git keep (entry :: rest) fs fs' state state' := by
  have hfilter : (entry :: rest).filter keep = rest.filter keep := List.filter_cons_of_neg (by simp [hkeep])
  exact ⟨hfilter ▸ h.files, List.forall_mem_cons.2 ⟨fun hkept => absurd hkept (by simp [hkeep]), h.verified⟩,
    hfilter ▸ h.bytes, h.limit⟩

theorem Wrote.take {content : Content} (h : Wrote d git keep rest fs₁ fs' state₁ state') (hkeep : keep entry = true)
    (hcontent : entry.content git = content) (hadd : addFile fs entry.path content = .ok fs₁)
    (hverified : Verified d git entry)
    (hbytes : state.bytes + content.size ≤ state₁.bytes) : Wrote d git keep (entry :: rest) fs fs' state state' := by
  have hfilter : (entry :: rest).filter keep = entry :: rest.filter keep := List.filter_cons_of_pos hkeep
  refine ⟨hfilter ▸ entries_cons (hcontent ▸ hadd) h.files, List.forall_mem_cons.2 ⟨fun _ => hverified, h.verified⟩, ?_,
    h.limit⟩
  have hrest := h.bytes
  rw [hfilter, sizes_cons_bytes, hcontent]
  omega

end Wrote

theorem writeFiles_ok : ∀ {entries : List RootEntry} {fs fs' : FileTree} {state state' : ReadState},
    writeFiles d git entries fs state = .ok (fs', state') → state.bytes ≤ limits.maximumMaterializedBytes →
      Wrote d git (fun e => !e.isLink) entries fs fs' state state' := by
  intro entries
  induction entries with
  | nil =>
    intro fs fs' state state' h hlimit
    cases h
    exact ⟨by simp, nofun, by simp [sizes], hlimit⟩
  | cons entry rest ih =>
    intro fs fs' state state' h hlimit
    rw [writeFiles] at h
    split at h
    · rename_i hmode
      obtain ⟨fs₁, hadd, h⟩ := bind_ok.1 h
      exact (ih h hlimit).take (by simp [RootEntry.isLink, hmode]) (by simp [RootEntry.content, hmode]) hadd
        (fun hno => absurd hmode hno) le_rfl
    · rename_i hmode
      exact (ih h hlimit).skip (by simp [RootEntry.isLink, hmode])
    · rename_i hdirectory hlink
      obtain ⟨bytes, hread, h⟩ := bind_ok.1 h
      obtain ⟨fs₁, hadd, h⟩ := bind_ok.1 h
      obtain ⟨hfile, hhash, hsize⟩ := readVerifiedBlobObject_ok hread
      have hfits := Nat.le_min.1 hsize
      have hcontent : entry.content git = .file (entry.mode = .executable) bytes := by
        rw [RootEntry.content, hfile]
        cases hmode : entry.mode with
        | directory => exact absurd hmode hdirectory
        | link => exact absurd hmode hlink
        | regular => rfl
        | executable => rfl
      refine (ih h (by simp only; omega)).take (by simpa [RootEntry.isLink] using hlink) hcontent hadd
        (fun _ => ⟨bytes, hfile, hhash, ?_⟩) le_rfl
      rw [if_neg hlink]
      exact hfits.1

theorem writeLinks_ok : ∀ {entries : List RootEntry} {fs fs' : FileTree} {state state' : ReadState},
    writeLinks d git host entries fs state = .ok (fs', state') → state.bytes ≤ limits.maximumMaterializedBytes →
      Wrote d git RootEntry.isLink entries fs fs' state state' := by
  intro entries
  induction entries with
  | nil =>
    intro fs fs' state state' h hlimit
    cases h
    exact ⟨by simp, nofun, by simp [sizes], hlimit⟩
  | cons entry rest ih =>
    intro fs fs' state state' h hlimit
    rw [writeLinks] at h
    split at h
    · rename_i hmode
      exact (ih h hlimit).skip (by simpa [RootEntry.isLink] using hmode)
    rename_i hmode
    have hmode : entry.mode = .link := not_not.1 hmode
    split at h
    · cases h
    obtain ⟨bytes, hread, h⟩ := bind_ok.1 h
    obtain ⟨hfile, hhash, hsize⟩ := readVerifiedBlobObject_ok hread
    split at h
    · cases h
    rename_i hmax
    obtain ⟨link, hlink, h⟩ := bind_ok.1 h
    obtain ⟨_, -, h⟩ := bind_ok.1 h
    obtain ⟨fs₁, hadd, h⟩ := bind_ok.1 h
    have hcontent : entry.content git = .link link := by
      rw [RootEntry.content, hmode, hfile, decodeLink_ok hlink]
      rfl
    have hshorter : link.length ≤ bytes.length := decodeLink_ok hlink ▸ length_withoutMark_le _
    refine (ih h (Nat.not_lt.1 hmax)).take (by simp [RootEntry.isLink, hmode]) hcontent hadd
      (fun _ => ⟨bytes, hfile, hhash, ?_⟩) (Nat.add_le_add_left hshorter _)
    rw [if_pos hmode]
    exact hsize

/-- Entries and the files below a directory. -/
def Written (git : Repository) (fs : FileTree) (parent : Path) (entries : List RootEntry) : Prop :=
  ∀ path, parent <+: path → path ≠ parent → ∀ content, (path, content) ∈ fs.entries ↔
    ∃ e ∈ entries, e.file git = (path, content)

/-- What `writeRootEntries` ends with. -/
theorem writeRootEntries_ok {entries : List RootEntry} {state : ReadState} {fs : FileTree}
    (h : writeRootEntries d git host entries state = .ok fs) (hstate : state.bytes = 0) :
    Written git fs [] entries ∧ (∀ e ∈ entries, Verified d git e) ∧
      (sizes git entries).bytes ≤ limits.maximumMaterializedBytes := by
  obtain ⟨⟨fs₁, state₁⟩, hfiles, h⟩ := bind_ok.1 h
  obtain ⟨⟨fs₂, state₂⟩, hlinks, h⟩ := bind_ok.1 h
  obtain ⟨_, -, h⟩ := bind_ok.1 h
  cases h
  obtain ⟨hentries, hverified, hbytes, hmax⟩ := writeFiles_ok hfiles (by omega)
  obtain ⟨hentries', hverified', hbytes', hmax'⟩ := writeLinks_ok hlinks hmax
  have hperm : (entries.filter (fun e => !e.isLink) ++ entries.filter RootEntry.isLink).Perm entries :=
    List.perm_append_comm.trans (List.filter_append_perm _ entries)
  refine ⟨fun path _ _ content => ?_, fun e he => ?_, ?_⟩
  · rw [hentries', hentries, FileTree.empty, List.nil_append, ← List.map_append, List.mem_map]
    exact exists_congr fun e => and_congr_left fun _ => hperm.mem_iff
  · cases hkind : e.isLink with
    | true => exact hverified' e he hkind
    | false => exact hverified e he (by simp [hkind])
  · rw [← sizes_perm hperm, sizes_append, ReadState.add_bytes]
    omega

end Write

end Dim.Snapshot
