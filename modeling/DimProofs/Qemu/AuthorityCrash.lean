/-
What a crash or a failed call leaves of the QEMU authority's file. From the link of a state on, the next read
returns that state; before it, `state.json` still holds the state before, and a read refuses the file that was
not linked. So no answer that was given is ever lost.
-/
import DimProofs.Qemu.AuthorityHistory

namespace Dim.Qemu.Authority

open Effectful Files

/-! ## Names -/

theorem namePattern_publicationName {suffix digest identity : String} (hd : Pattern.hexString 64 digest = true)
    (hu : Pattern.uuid identity = true) :
    namePattern suffix (publicationName suffix digest identity) = some (digest, identity) := by
  have hdigest : digest.toList.length = 64 := by
    have := Pattern.length_of_sequence hd
    simpa using this
  have hidentity := (Pattern.uuid_chars hu).2
  have htoList : (publicationName suffix digest identity).toList =
      ".state.json.".toList ++ (digest.toList ++ (['.'] ++ (identity.toList ++ suffix.toList))) := by
    simp [publicationName, publicationPrefix, String.toList_append]
  have hstart : (".state.json.".toList).length = 12 := by decide
  have h12 : (publicationName suffix digest identity).toList.drop 12 =
      digest.toList ++ (['.'] ++ (identity.toList ++ suffix.toList)) := by
    rw [htoList, ← hstart, List.drop_left]
  have h76 : (publicationName suffix digest identity).toList.drop 76 = ['.'] ++ (identity.toList ++ suffix.toList) := by
    rw [show 76 = 12 + 64 from rfl, ← List.drop_drop, h12, ← hdigest, List.drop_left]
  have h77 : (publicationName suffix digest identity).toList.drop 77 = identity.toList ++ suffix.toList := by
    rw [show 77 = 76 + 1 from rfl, ← List.drop_drop, h76]
    rfl
  have h113 : (publicationName suffix digest identity).toList.drop 113 = suffix.toList := by
    rw [show 113 = 77 + 36 from rfl, ← List.drop_drop, h77, ← hidentity, List.drop_left]
  have htake : (publicationName suffix digest identity).toList.take 12 = publicationPrefix.toList := by
    rw [htoList, ← hstart, List.take_left]
    rfl
  have h64 : ((publicationName suffix digest identity).toList.drop 12).take 64 = digest.toList := by
    rw [h12, ← hdigest, List.take_left]
  have h36 : ((publicationName suffix digest identity).toList.drop 77).take 36 = identity.toList := by
    rw [h77, ← hidentity, List.take_left]
  unfold namePattern
  dsimp only
  rw [h64, h36, h76, h113, htake, String.ofList_toList, String.ofList_toList]
  exact if_pos ⟨rfl, hd, rfl, hu, rfl⟩

theorem drop_of_namePattern {suffix name : String} {key : String × String} (h : namePattern suffix name = some key) :
    name.toList.drop 113 = suffix.toList := by
  unfold namePattern at h
  dsimp only at h
  split at h
  · rename_i hc
    exact hc.2.2.2.2
  · cases h

theorem not_isPublication {name : String} (h : isStaging name = true) : isPublication name = false := by
  obtain ⟨key, hkey⟩ := Option.isSome_iff_exists.mp h
  rw [isPublication, Option.isSome_eq_false_iff, Option.isNone_iff_eq_none, Option.eq_none_iff_forall_ne_some]
  intro key' hkey'
  have := (drop_of_namePattern hkey).symm.trans (drop_of_namePattern hkey')
  revert this
  decide

theorem not_isStaging {name : String} (h : isPublication name = true) : isStaging name = false := by
  by_contra hs
  rw [not_isPublication (by simpa using hs)] at h
  cases h

@[simp] theorem isStaging_stateName : isStaging stateName = false := by decide +kernel

@[simp] theorem isPublication_stateName : isPublication stateName = false := by decide +kernel

theorem stateName_ne_staging {name : String} (h : isStaging name = true) : stateName ≠ name := by
  rintro rfl
  simp at h

theorem stateName_ne_publication {name : String} (h : isPublication name = true) : stateName ≠ name := by
  rintro rfl
  simp at h

theorem staging_ne_publication {staging publication : String} (hs : isStaging staging = true)
    (hp : isPublication publication = true) : staging ≠ publication := by
  rintro rfl
  rw [not_isPublication hs] at hp
  cases hp

/-! ## Layouts -/

section
variable [HexSha256] (serviceUid : Nat)

/-- The file of a state under `nlink` names. -/
def stateInode (text : String) (nlink : Nat) : Inode := { kind := .regular, uid := serviceUid, mode := 0o600, nlink, text }

/-- The entry of `state.json`, where a state was published. -/
inductive Final (inodes : List Inode) : Option String → List (String × Nat) → Prop
  | absent : Final inodes none []
  | present {text : String} {file : Nat} (h : inodes[file]? = some (stateInode serviceUid text 1)) :
    Final inodes (some text) [(stateName, file)]

/-- Nothing but the last published state. -/
def Idle (fs : FileSystem Unit) (last : Option String) : Prop := Final serviceUid fs.inodes last (fs.entries ())

/-- A staging file that was not linked. -/
structure Staged (fs : FileSystem Unit) (last : Option String) (kept : List (String × Nat)) (staging : String) (file : Nat)
    (text : String) : Prop where
  final : Final serviceUid fs.inodes last kept
  fresh : ∀ entry ∈ kept, entry.2 ≠ file
  entries : fs.entries () = kept ++ [(staging, file)]
  staging : isStaging staging = true
  file : fs.inodes[file]? = some (stateInode serviceUid text 1)

/-- A publication that is not renamed yet. -/
structure Linked (fs : FileSystem Unit) (last : Option String) (kept : List (String × Nat)) (staging publication : String)
    (file : Nat) (text : String) : Prop where
  final : Final serviceUid fs.inodes last kept
  fresh : ∀ entry ∈ kept, entry.2 ≠ file
  entries : fs.entries () = kept ++ [(staging, file), (publication, file)]
  names : stagingPattern staging = publicationPattern publication
  digest : (stagingPattern staging).map (·.1) = some (Ordinary.Sha256.hex text)
  file : fs.inodes[file]? = some (stateInode serviceUid text 2)

/-- The publication is `state.json`, and the staging file has its name still. -/
structure Renamed (fs : FileSystem Unit) (staging : String) (file : Nat) (text : String) : Prop where
  entries : fs.entries () = [(staging, file), (stateName, file)]
  digest : (stagingPattern staging).map (·.1) = some (Ordinary.Sha256.hex text)
  file : fs.inodes[file]? = some (stateInode serviceUid text 2)

/-- The files that a save can leave, with the texts that were published. -/
inductive Layout (fs : FileSystem Unit) : List String → Prop
  | idle {published : List String} (h : Idle serviceUid fs published.getLast?) : Layout fs published
  | staged {published : List String} {kept : List (String × Nat)} {staging text : String} {file : Nat}
    (h : Staged serviceUid fs published.getLast? kept staging file text) : Layout fs published
  | linked {published : List String} {kept : List (String × Nat)} {staging publication text : String} {file : Nat}
    (h : Linked serviceUid fs published.getLast? kept staging publication file text) : Layout fs (published ++ [text])
  | renamed {published : List String} {staging text : String} {file : Nat} (h : Renamed serviceUid fs staging file text) :
    Layout fs (published ++ [text])

variable {serviceUid} {fs fs' : FileSystem Unit} {last : Option String} {kept : List (String × Nat)}
  {staging publication text : String} {file : Nat}

omit [HexSha256] in
theorem isStaging_of_digest {name digest : String} (h : (stagingPattern name).map (·.1) = some digest) :
    isStaging name = true := by
  rw [isStaging]
  cases hname : stagingPattern name with
  | none => simp [hname] at h
  | some key => rfl

theorem Linked.isStaging (h : Linked serviceUid fs last kept staging publication file text) : isStaging staging = true :=
  isStaging_of_digest h.digest

theorem Linked.isPublication (h : Linked serviceUid fs last kept staging publication file text) :
    isPublication publication = true := by
  have := h.isStaging
  rwa [Authority.isStaging, h.names] at this

section
omit [HexSha256]

theorem Final.names {inodes : List Inode} (h : Final serviceUid inodes last kept) : ∀ entry ∈ kept, entry.1 = stateName := by
  cases h <;> simp

/-- `state.json` is the only name of what was published before. -/
theorem Final.lookup {inodes : List Inode} (h : Final serviceUid inodes last kept) {name : String} (hne : stateName ≠ name) :
    kept.lookup name = none := by
  cases h with
  | absent => rfl
  | present => simp [List.lookup, beq_false_of_ne hne.symm]

theorem Final.modify {inodes : List Inode} (h : Final serviceUid inodes last kept) (hfresh : ∀ entry ∈ kept, entry.2 ≠ file)
    (f : Inode → Inode) : Final serviceUid (inodes.modify file f) last kept := by
  cases h with
  | absent => exact .absent
  | present h =>
    refine .present ?_
    have hne := hfresh _ (List.mem_singleton.mpr rfl)
    rw [List.getElem?_modify, h]
    exact congrArg some (if_neg (Ne.symm hne))

end

/-! ## What the calls do -/

section
omit [HexSha256]

theorem Idle.create (h : Idle serviceUid fs last) {file : Nat} (hs : isStaging staging = true)
    (hc : fs.create () staging serviceUid 0o600 = .ok (file, fs')) :
    Staged serviceUid fs' last (fs.entries ()) staging file "" := by
  unfold FileSystem.create at hc
  split at hc
  · cases hc
  cases hc
  refine ⟨?_, ?_, by simp [FileSystem.setEntries], hs, ?_⟩
  · unfold Idle at h
    revert h
    generalize fs.entries () = entries
    rintro (_ | ⟨h⟩)
    · exact .absent
    · refine .present ?_
      rw [List.getElem?_append_left (List.getElem?_eq_some_iff.mp h).1]
      exact h
  · unfold Idle at h
    revert h
    generalize fs.entries () = entries
    rintro (_ | ⟨h⟩) entry hentry
    · cases hentry
    · rw [List.mem_singleton.mp hentry]
      exact Nat.ne_of_lt (List.getElem?_eq_some_iff.mp h).1
  · simp [stateInode]

/-- A call on the staging file alone. -/
theorem Staged.modify (h : Staged serviceUid fs last kept staging file text) {f : Inode → Inode} {text' : String}
    (hf : f (stateInode serviceUid text 1) = stateInode serviceUid text' 1) :
    Staged serviceUid (fs.modify file f) last kept staging file text' := by
  refine ⟨h.final.modify h.fresh f, h.fresh, h.entries, h.staging, ?_⟩
  rw [FileSystem.inodes_modify, if_pos rfl, h.file, Option.map_some, hf]

theorem Staged.lookup (h : Staged serviceUid fs last kept staging file text) : fs.lookup () staging = some file := by
  rw [FileSystem.lookup, h.entries, List.lookup_append, h.final.lookup (stateName_ne_staging h.staging)]
  simp

end

theorem Staged.link (h : Staged serviceUid fs last kept staging file text)
    (hnames : stagingPattern staging = publicationPattern publication)
    (hdigest : (stagingPattern staging).map (·.1) = some (Ordinary.Sha256.hex text))
    (hl : fs.link () staging () publication = .ok fs') :
    Linked serviceUid fs' last kept staging publication file text := by
  unfold FileSystem.link at hl
  rw [h.lookup] at hl
  dsimp only at hl
  split at hl
  · cases hl
  cases hl
  refine ⟨h.final.modify h.fresh _, h.fresh, ?_, hnames, hdigest, ?_⟩
  · rw [FileSystem.entries_modify, FileSystem.entries_setEntries, h.entries, List.append_assoc]
    rfl
  · rw [FileSystem.inodes_modify, if_pos rfl, FileSystem.inodes_setEntries, h.file]
    rfl

theorem Linked.lookup (h : Linked serviceUid fs last kept staging publication file text) :
    fs.lookup () staging = some file ∧ fs.lookup () publication = some file := by
  have hne := staging_ne_publication h.isStaging h.isPublication
  constructor
  · rw [FileSystem.lookup, h.entries, List.lookup_append, h.final.lookup (stateName_ne_staging h.isStaging)]
    simp
  · rw [FileSystem.lookup, h.entries, List.lookup_append, h.final.lookup (stateName_ne_publication h.isPublication)]
    simp [List.lookup, beq_false_of_ne hne.symm]

theorem Linked.rename (h : Linked serviceUid fs last kept staging publication file text)
    (hr : fs.rename () publication () stateName = .ok fs') : Renamed serviceUid fs' staging file text := by
  have hs := stateName_ne_staging h.isStaging
  have hp := stateName_ne_publication h.isPublication
  have hne := staging_ne_publication h.isStaging h.isPublication
  have hentries := h.entries
  have hfinal := h.final
  have hfresh := h.fresh
  unfold FileSystem.rename at hr
  rw [h.lookup.2] at hr
  dsimp only at hr
  cases hfinal with
  | absent =>
    have hnone : fs.lookup () stateName = none := by
      simp [FileSystem.lookup, hentries, List.lookup, beq_false_of_ne hs, beq_false_of_ne hp]
    rw [hnone] at hr
    cases hr
    refine ⟨?_, h.digest, h.file⟩
    simp [FileSystem.remove, hentries, hne]
  | @present old k hk =>
    have hold : fs.lookup () stateName = some k := by
      simp [FileSystem.lookup, hentries]
    have hkf : k ≠ file := hfresh (stateName, k) (List.mem_singleton.mpr rfl)
    rw [hold] at hr
    dsimp only at hr
    rw [if_neg hkf] at hr
    cases hr
    refine ⟨?_, h.digest, ?_⟩
    · simp [FileSystem.remove, hentries, hne, hs.symm, hp]
    · rw [FileSystem.inodes_modify, if_neg hkf]
      exact h.file

theorem Renamed.isStaging (h : Renamed serviceUid fs staging file text) : isStaging staging = true :=
    isStaging_of_digest h.digest

theorem Renamed.unlink (h : Renamed serviceUid fs staging file text) (hu : fs.unlink () staging = .ok fs') :
    Idle serviceUid fs' (some text) := by
  have hs := stateName_ne_staging h.isStaging
  have hlookup : fs.lookup () staging = some file := by simp [FileSystem.lookup, h.entries]
  unfold FileSystem.unlink at hu
  rw [hlookup] at hu
  cases hu
  have hentries : ((fs.remove () staging).modify file fun i => { i with nlink := i.nlink - 1 }).entries () =
      [(stateName, file)] := by
    simp [FileSystem.remove, h.entries, hs]
  unfold Idle
  rw [hentries]
  refine .present ?_
  rw [FileSystem.inodes_modify, if_pos rfl]
  simp [FileSystem.remove, h.file, stateInode]

end

/-! ## The invariant -/

section
variable {Event : Type} [DecidableEq Event] [StateText Event] [HexSha256] (serviceUid : Nat) (schemas : RecordSchemas Event)

structure Inv (w : World (Response Event)) : Prop where
  directory : ∀ directory, w.directory = some directory → directory = { uid := serviceUid, mode := 0o700 }
  absent : w.directory = none → w.files.entries () = []
  fits : ∀ text ∈ w.published, text.utf8ByteSize ≤ maximumStateBytes
  held : ∃ state, History schemas w.published state ∧ ∀ response ∈ w.acknowledged, Holds state response
  layout : Layout serviceUid w.files w.published

/-- The two worlds differ in their files alone. -/
structure SameBut (w w' : World (Response Event)) : Prop where
  directory : w'.directory = w.directory
  published : w'.published = w.published
  acknowledged : w'.acknowledged = w.acknowledged

variable {serviceUid schemas} {w w' w'' : World (Response Event)} {texts : List String} {s s' : State Event}

section
omit [DecidableEq Event] [StateText Event] [HexSha256]

theorem SameBut.refl (w : World (Response Event)) : SameBut w w := ⟨rfl, rfl, rfl⟩

theorem SameBut.trans (h : SameBut w w') (h' : SameBut w' w'') : SameBut w w'' :=
  ⟨h'.directory.trans h.directory, h'.published.trans h.published, h'.acknowledged.trans h.acknowledged⟩

end

theorem Inv.withFiles (h : Inv serviceUid schemas w) (hd : w.directory.isSome = true) {files : FileSystem Unit}
    (hl : Layout serviceUid files w.published) : Inv serviceUid schemas { w with files } where
  directory := h.directory
  absent := fun hnone => by simp only at hnone; rw [hnone] at hd; cases hd
  fits := h.fits
  held := h.held
  layout := hl

omit [DecidableEq Event] [HexSha256] in
theorem serialized_inj (h : serialized s = serialized s') : s = s' := by
  have hs : StateText.parse (serialized s) = some s := StateText.parse_stringify s
  have hs' : StateText.parse (serialized s') = some s' := StateText.parse_stringify s'
  rw [h, hs'] at hs
  exact (Option.some.inj hs).symm

omit [HexSha256] in
theorem History.last (h : History schemas texts s) :
    texts = [] ∧ s = emptyState ∨ texts.getLast? = some (serialized s) := by
  cases h with
  | empty => exact .inl ⟨rfl, rfl⟩
  | next => exact .inr (by simp)

variable {text : String}

section
omit [HexSha256]

theorem History.before (h : History schemas (texts ++ [text]) s') :
    ∃ s, History schemas texts s ∧ Next schemas s s' ∧ text = serialized s' := by
  generalize hall : texts ++ [text] = all at h
  cases h with
  | empty => simp at hall
  | next h hnext =>
    obtain ⟨rfl, htext⟩ := List.append_inj' hall rfl
    exact ⟨_, h, hnext, by simpa using htext⟩

/-- The texts determine the state. -/
theorem History.unique (h : History schemas texts s) (h' : History schemas texts s') : s = s' := by
  rcases h.last with ⟨rfl, rfl⟩ | hlast
  · rcases h'.last with ⟨-, rfl⟩ | hlast'
    · rfl
    · cases hlast'
  · rcases h'.last with ⟨rfl, -⟩ | hlast'
    · cases hlast
    · exact serialized_inj (by rw [hlast] at hlast'; exact Option.some.inj hlast')

theorem History.parse (h : History schemas texts s) : (stateCodec schemas).parse (serialized s) = some s := by
  simp [stateCodec, serialized, StateText.parse_stringify, h.valid]

end

/-! ## The rules of the calls -/

/-- The calls that change nothing. -/
def AuthorityCall.reads {Response : Type} : AuthorityCall Response → Bool
  | .pathExists | .lstatDirectory | .readdir | .openFile
      _ | .randomUUID | .now | .sync | .close | .syncDirectory | .request => true
  | _ => false

variable {faulty : Prop}

abbrev Performing (serviceUid : Nat) (faulty : Prop) (c : AuthorityCall (Response Event)) (w : World (Response Event))
    (answer : Except AuthorityFailure (c.Value (Request Event))) (w' : World (Response Event)) : Prop :=
  Performs (perform serviceUid) left faulty c w answer w'

omit [DecidableEq Event] [StateText Event] [HexSha256] in
theorem still {c : AuthorityCall (Response Event)} (hc : c.reads = true) :
    Still (perform serviceUid : Choice (Request Event) → _) left c := by
  refine ⟨fun choice w => ?_, fun w w' h => ?_⟩
  · cases c with
    | lstatDirectory =>
      simp only [perform]
      split <;> rfl
    | openFile =>
      simp only [perform]
      split <;> try split <;> try split
      all_goals rfl
    | pathExists | readdir | randomUUID | now | sync | close | syncDirectory | request => rfl
    | _ => cases hc
  · cases c <;> first | exact h | cases hc

/-- What `readState` reads, or why it fails. -/
def ReadState (faulty : Prop) (codec : StateCodec (State Event)) (serviceUid : Nat) (name : String)
    (w : World (Response Event)) : Except AuthorityFailure (StateFile (State Event)) → Prop
  | .ok read => w.files.lookup () name = some read.file ∧ w.files.inodes[read.file]? = some read.metadata ∧
      codec.parse read.metadata.text = some read.state
  | .error _ => faulty ∨ ∀ file text nlink state, w.files.lookup () name = some file →
      w.files.inodes[file]? = some (stateInode serviceUid text nlink) → text.utf8ByteSize ≤ maximumStateBytes →
        codec.parse text ≠ some state

variable {name : String}

omit [DecidableEq Event] [StateText Event] [HexSha256] in
theorem reading_openFile : Reading (Performing serviceUid faulty)
    (ask (.openFile name) : Operation Event (Nat × Inode)) (fun r => match r with
      | .ok opened => w.files.lookup () name = some opened.1 ∧ w.files.inodes[opened.1]? = some opened.2
      | .error _ => faulty ∨ ∀ file text nlink, w.files.lookup () name = some file →
          w.files.inodes[file]? ≠ some (stateInode serviceUid text nlink)) w := by
  refine reading_call (still rfl) (fun choice => ?_) fun hfaulty _ => .inl hfaulty
  cases hlookup : w.files.lookup () name with
  | none =>
    simp only [perform, hlookup]
    exact .inr fun file text nlink hfile => by cases hfile
  | some k =>
    cases hinode : w.files.inodes[k]? with
    | none =>
      simp only [perform, hlookup, hinode]
      refine .inr fun file text nlink hfile hinode' => ?_
      rw [← Option.some.inj hfile, hinode] at hinode'
      cases hinode'
    | some inode =>
      by_cases hkind : inode.kind = .symlink
      · simp only [perform, hlookup, hinode, hkind, if_true]
        refine .inr fun file text nlink hfile hinode' => ?_
        rw [← Option.some.inj hfile, hinode, Option.some.injEq] at hinode'
        rw [hinode'] at hkind
        cases hkind
      · simp only [perform, hlookup, hinode, hkind, if_false]
        exact ⟨trivial, trivial⟩

variable {codec : StateCodec (State Event)}

omit [DecidableEq Event] [StateText Event] [HexSha256] in
theorem reading_readState : Reading (Performing serviceUid faulty)
    (readState serviceUid codec name : Operation Event (StateFile (State Event)))
    (ReadState faulty codec serviceUid name w) w := by
  unfold readState
  refine reading_openFile.andThen ?_ ?_
  · rintro ⟨file, metadata⟩ ⟨hlookup, hinode⟩
    have hgood : ∀ {k text nlink}, w.files.lookup () name = some k →
      w.files.inodes[k]? = some (stateInode serviceUid text nlink) →
        k = file ∧ metadata = stateInode serviceUid text nlink := by
      intro k text nlink hk hki
      rw [hlookup, Option.some.injEq] at hk
      subst hk
      rw [hinode, Option.some.injEq] at hki
      exact ⟨rfl, hki⟩
    dsimp only
    unfold assertPrivateFile
    split
    · refine (reading_pure (R := fun r => r = .ok ()) rfl).andThen (fun _ _ => ?_) fun _ hf => by cases hf
      split
      · rename_i hsize
        refine reading_throw (.inr fun k text nlink state hk hki hfits => ?_)
        obtain ⟨-, rfl⟩ := hgood hk hki
        exact absurd hsize (Nat.not_lt.mpr hfits)
      · unfold parsed
        cases hparse : codec.parse metadata.text with
        | none =>
          refine (reading_throw (R := fun r => ∃ failure, r = .error failure) ⟨_, rfl⟩).andThen
            (fun _ h => by simp at h) fun _ _ => ?_
          refine .inr fun k text nlink state hk hki _ => ?_
          obtain ⟨-, rfl⟩ := hgood hk hki
          exact fun h => by cases hparse.symm.trans h
        | some state =>
          refine (reading_pure (R := fun r => r = .ok state) rfl).andThen (fun _ h => ?_) fun _ h => by cases h
          cases h
          exact reading_pure ⟨hlookup, hinode, hparse⟩
    · rename_i hprivate
      refine (reading_throw (R := fun r => ∃ failure, r = .error failure) ⟨_, rfl⟩).andThen (fun _ h => by simp at h)
        fun _ _ => ?_
      refine .inr fun k text nlink state hk hki _ => ?_
      obtain ⟨-, rfl⟩ := hgood hk hki
      exact absurd ⟨rfl, rfl, rfl⟩ hprivate
  · rintro failure (hfaulty | h)
    · exact .inl hfaulty
    · exact .inr fun file text nlink state hk hki _ => absurd hki (h file text nlink hk)

/-! ## Reading -/

omit [DecidableEq Event] [StateText Event] [HexSha256] in
theorem reading_readdir {codec : List (String × Nat)} (hentries : w.files.entries () = codec)
    (hregular : ∀ entry ∈ codec, ∃ text nlink, w.files.inodes[entry.2]? = some (stateInode serviceUid text nlink)) :
    Reading (Performing serviceUid faulty) (ask .readdir : Operation Event (List (String × Kind))) (fun r => match r with
      | .ok names => names = (codec.map (·.1)).map fun name => (name, .regular)
      | .error _ => faulty) w := by
  refine reading_call (still rfl) (fun choice => ?_) fun hfaulty _ => hfaulty
  simp only [perform, hentries]
  clear hentries
  induction codec with
  | nil => rfl
  | cons entry rest ih =>
    obtain ⟨text, nlink, h⟩ := hregular entry List.mem_cons_self
    rw [List.filterMap_cons, h, ih fun e he => hregular e (List.mem_cons_of_mem _ he)]
    rfl

variable {names : List String}

omit [DecidableEq Event] [StateText Event] in
/-- The layouts that are accepted. -/
theorem readEntries_eq (staging publications : List String)
    (hnames : ∀ name ∈ names, name = stateName ∨ isStaging name = true ∨ isPublication name = true)
    (hs : names.filter isStaging = staging) (hs1 : staging.length ≤ 1)
    (hp : names.filter isPublication = publications) (hp1 : publications.length ≤ 1) :
    (readEntries serviceUid codec (names.map fun name => (name, .regular)) : Operation Event (State Event)) =
      readLayout serviceUid codec (names.map fun name => (name, .regular)) staging.head? publications.head? := by
  have hmap : (names.map fun name => (name, Kind.regular)).map (·.1) = names := by
    rw [List.map_map]
    exact List.map_id names
  have hany : ((names.map fun name => (name, Kind.regular)).any fun e =>
      e.2 ≠ .regular ∨ (e.1 ≠ stateName ∧ isStaging e.1 = false ∧ isPublication e.1 = false)) = false := by
    rw [List.any_map, List.any_eq_false]
    intro name hname
    have := hnames name hname
    simp only [Function.comp_apply, ne_eq, not_true_eq_false, false_or, decide_eq_true_eq]
    rintro ⟨h1, h2, h3⟩
    simp [h1, h2, h3] at this
  unfold readEntries
  simp only [hmap, hs, hp, hany]
  rw [if_neg (by simp; omega)]

/-- What `readFinal` reads of `state.json`. -/
def ReadFinal (faulty : Prop) (codec : StateCodec (State Event)) (serviceUid : Nat) (names : List String)
    (w : World (Response Event)) : Except AuthorityFailure (Option (StateFile (State Event))) → Prop
  | .ok none => stateName ∉ names
  | .ok (some read) => ReadState faulty codec serviceUid stateName w (.ok read)
  | .error failure => stateName ∈ names ∧ ReadState faulty codec serviceUid stateName w (.error failure)

omit [DecidableEq Event] [StateText Event] [HexSha256] in
theorem reading_readFinal : Reading (Performing serviceUid faulty)
    (readFinal serviceUid codec (names.map fun name => (name, .regular)) : Operation Event
      (Option (StateFile (State Event))))
    (ReadFinal faulty codec serviceUid names w) w := by
  unfold readFinal
  have hany : ((names.map fun name => (name, Kind.regular)).any fun e => e.1 = stateName) = names.contains stateName := by
    rw [List.any_map, List.contains_eq_any_beq]
    congr 1
    funext name
    rw [Function.comp_apply, beq_eq_decide]
    exact decide_eq_decide.mpr eq_comm
  rw [hany]
  split
  · rename_i hmem
    rw [List.contains_iff_mem] at hmem
    exact reading_readState.andThen (fun _ h => reading_pure h) fun _ h => ⟨hmem, h⟩
  · rename_i hmem
    rw [List.contains_iff_mem] at hmem
    exact reading_pure hmem

/-! ## Recovery -/

omit [DecidableEq Event] [StateText Event] [HexSha256] in
theorem ask_read {c : AuthorityCall (Response Event)}
    {Q : Except AuthorityFailure (c.Value (Request Event)) → World (Response Event) → Prop}
    {I : World (Response Event) → Prop} (hc : c.reads = true) (hI : I w)
    (hperform : ∀ choice, Q (perform serviceUid choice c w).1 w) (hleft : faulty → ∀ failure, Q (.error failure) w) :
    Safe (Performing serviceUid faulty) I (ask c) Q w :=
  safe_read (still hc) hI hperform hleft

variable {file : Nat} {staging : String}

theorem removeStaging_safe (h : Inv serviceUid schemas w) (hd : w.directory.isSome = true)
    (hr : Renamed serviceUid w.files staging file text) (hlast : w.published.getLast? = some text) :
    Safe (Performing serviceUid faulty) (Inv serviceUid schemas) (removeStaging staging : Operation Event Unit)
      (fun r w' => Inv serviceUid schemas w' ∧ SameBut w w' ∧ match r with
        | .ok _ => Idle serviceUid w'.files w'.published.getLast?
        | .error _ => faulty) w := by
  unfold removeStaging
  refine Safe.andThen (P := fun r w' => w' = w ∧ (r = .ok () ∨ faulty)) ?_ ?_ ?_
  · exact ask_read rfl h (fun _ => ⟨rfl, .inl rfl⟩) fun hf _ => ⟨rfl, .inr hf⟩
  · rintro _ w' ⟨rfl, -⟩
    refine Safe.andThen (P := fun r w'' => Inv serviceUid schemas w'' ∧ SameBut w' w'' ∧ match r with
        | .ok _ => Idle serviceUid w''.files w''.published.getLast?
        | .error _ => faulty) ?_ ?_ fun _ _ h => h
    · refine safe_call (fun choice answer w'' hp => ?_) fun hf failure w'' hleft => ?_
      · obtain ⟨files, hfiles⟩ : ∃ files, w'.files.unlink () staging = .ok files := by
          have hlookup : w'.files.lookup () staging = some file := by simp [FileSystem.lookup, hr.entries]
          unfold FileSystem.unlink
          rw [hlookup]
          exact ⟨_, rfl⟩
        simp only [perform, hfiles, World.fileSystem, Prod.mk.injEq] at hp
        obtain ⟨rfl, rfl⟩ := hp
        have hidle : Idle serviceUid files w'.published.getLast? := hlast ▸ hr.unlink hfiles
        have hinv := h.withFiles hd (.idle hidle)
        exact ⟨hinv, hinv, ⟨rfl, rfl, rfl⟩, hidle⟩
      · obtain rfl : w'' = w' := hleft
        exact ⟨h, h, .refl _, hf⟩
    · rintro _ w'' ⟨hinv, hsame, hidle⟩
      exact ask_read rfl hinv (fun _ => ⟨hinv, hsame, hidle⟩) fun hf _ => ⟨hinv, hsame, hf⟩
  · rintro failure w' ⟨rfl, hcases⟩
    exact ⟨h, .refl _, hcases.resolve_left (by simp)⟩

/-- The world where a read returned `state`, or refused. -/
def Loaded (faulty : Prop) (serviceUid : Nat) (schemas : RecordSchemas Event) (w : World (Response Event))
    (r : Except AuthorityFailure (State Event)) (w' : World (Response Event)) : Prop :=
  Inv serviceUid schemas w' ∧ SameBut w w' ∧ match r with
    | .ok state => Idle serviceUid w'.files w'.published.getLast? ∧ History schemas w.published state
    | .error _ => faulty

omit [DecidableEq Event] [StateText Event] in
theorem reading_assertDigest {nlink : Nat}
    (hdigest : (stagingPattern staging).map (·.1) = some (Ordinary.Sha256.hex text)) :
    (assertDigest staging (stateInode serviceUid text nlink) : Operation Event Unit) = pure () := if_pos hdigest

/-- What `readState` answers for the name of a file that holds the text of `state`. -/
structure ReadsAs (faulty : Prop) (codec : StateCodec (State Event)) (serviceUid : Nat) (w : World (Response Event))
    (name : String) (read : StateFile (State Event)) : Prop where
  ok : ∀ read', ReadState faulty codec serviceUid name w (.ok read') → read' = read
  error : ∀ failure, ReadState faulty codec serviceUid name w (.error failure) → faulty

omit [DecidableEq Event] [StateText Event] [HexSha256] in
theorem readsAs {nlink : Nat} {state : State Event}
    (hlookup : w.files.lookup () name = some file) (hfile : w.files.inodes[file]? = some (stateInode serviceUid text nlink))
    (hfits : text.utf8ByteSize ≤ maximumStateBytes) (hparse : codec.parse text = some state) :
    ReadsAs faulty codec serviceUid w name { file, metadata := stateInode serviceUid text nlink, state } where
  ok := by
    rintro ⟨k, metadata, s⟩ ⟨hk, hinode, hs⟩
    simp only at hk hinode hs
    rw [hlookup, Option.some.injEq] at hk
    subst hk
    rw [hfile, Option.some.injEq] at hinode
    subst hinode
    rw [show (stateInode serviceUid text nlink).text = text from rfl, hparse, Option.some.injEq] at hs
    rw [hs]
  error := by
    rintro failure (hf | hnot)
    · exact hf
    · exact absurd hparse (hnot file text nlink state hlookup hfile hfits)

theorem Renamed.recover (h : Inv serviceUid schemas w) (hd : w.directory.isSome = true)
    (hr : Renamed serviceUid w.files staging file text) (hpublished : w.published = texts ++ [text]) :
    Safe (Performing serviceUid faulty) (Inv serviceUid schemas)
      (readEntries serviceUid (stateCodec schemas)
        ([staging, stateName].map fun name => (name, .regular)) : Operation Event (State Event))
      (Loaded faulty serviceUid schemas w) w := by
  have hs := hr.isStaging
  obtain ⟨state, hhistory, -⟩ := h.held
  have htext : text = serialized state := by
    rw [hpublished] at hhistory
    exact hhistory.before.choose_spec.2.2
  have hparse : (stateCodec schemas).parse text = some state := htext ▸ hhistory.parse
  have hfits : text.utf8ByteSize ≤ maximumStateBytes := h.fits text (by simp [hpublished])
  have hlookup : w.files.lookup () staging = some file := by simp [FileSystem.lookup, hr.entries]
  have hstate : w.files.lookup () stateName = some file := by
    simp [FileSystem.lookup, hr.entries, List.lookup, beq_false_of_ne (stateName_ne_staging hs)]
  have hread : ∀ {name}, w.files.lookup () name = some file → ReadsAs faulty (stateCodec schemas) serviceUid w name
      { file, metadata := stateInode serviceUid text 2, state } := fun hname => readsAs hname hr.file hfits hparse
  rw [readEntries_eq [staging] [] (by simp [hs]) (by simp [hs]) (by simp)
    (by simp [not_isPublication hs]) (by simp)]
  unfold readLayout
  refine reading_readFinal.thenSafe h (fun final hfinal => ?_) fun failure hf => ⟨h, .refl w, (hread hstate).error _ hf.2⟩
  obtain ⟨read, rfl⟩ : ∃ read, final = some read := by
    cases final with
    | none => exact absurd (by simp) hfinal
    | some read => exact ⟨read, rfl⟩
  obtain rfl := (hread hstate).ok _ hfinal
  refine reading_readState.thenSafe h (fun staged hstaged => ?_) fun failure hf => ⟨h, .refl w, (hread hlookup).error _ hf⟩
  obtain rfl := (hread hlookup).ok _ hstaged
  dsimp only [List.head?_cons, List.head?_nil]
  rw [reading_assertDigest hr.digest, Program.pure_andThen]
  unfold recoverAfterRename
  dsimp only
  rw [if_pos ⟨rfl, rfl, rfl, rfl⟩]
  refine (removeStaging_safe h hd hr (by simp [hpublished])).andThen ?_ ?_
  · rintro _ w' ⟨hinv, hsame, hidle⟩
    exact ⟨hinv, hsame, hidle, hhistory⟩
  · rintro failure w' ⟨hinv, hsame, hf⟩
    exact ⟨hinv, hsame, hf⟩

/-- The state of `state.json` beside a publication that was not renamed. -/
theorem reading_previous (h : Inv serviceUid schemas w) {kept : List (String × Nat)} {s : State Event}
    (hs : History schemas texts s) (hsub : texts ⊆ w.published)
    (hfinal : Final serviceUid w.files.inodes texts.getLast? kept)
    (hlookup : w.files.lookup () stateName = kept.lookup stateName)
    (hnames : stateName ∈ names ↔ stateName ∈ kept.map (·.1)) :
    Reading (Performing serviceUid faulty)
      (readFinal serviceUid (stateCodec schemas) (names.map fun name => (name, .regular)) : Operation Event
        (Option (StateFile (State Event))))
      (fun r => match r with
        | .ok final => (final.map (·.state)).getD emptyState = s ∧ (final = none → texts = []) ∧
            ∀ read, final = some read → read.metadata.nlink = 1 ∧ (stateName, read.file) ∈ kept
        | .error _ => faulty) w := by
  refine reading_readFinal.imp fun r hr => ?_
  generalize hlast : texts.getLast? = last at hfinal
  cases hfinal with
  | absent =>
    have hnot : stateName ∉ names := by simp [hnames]
    rcases r with failure | final | read
    · exact absurd hr.1 hnot
    · refine ⟨?_, fun _ => List.getLast?_eq_none_iff.mp hlast, fun read hread => by cases hread⟩
      rcases hs.last with ⟨-, rfl⟩ | hsome
      · rfl
      · rw [hlast] at hsome
        cases hsome
    · have := hr.1
      rw [hlookup] at this
      cases this
  | @present text file hfile =>
    have htext : text = serialized s := by
      rcases hs.last with ⟨rfl, -⟩ | hsome
      · cases hlast
      · rw [hlast] at hsome
        exact Option.some.inj hsome
    have hname : w.files.lookup () stateName = some file := by simp [hlookup]
    have hmem : text ∈ texts := List.mem_of_getLast? hlast
    have hread : ReadsAs faulty (stateCodec schemas) serviceUid w
      stateName { file, metadata := stateInode serviceUid text 1, state := s } :=
      readsAs hname hfile (h.fits text (hsub hmem)) (htext ▸ hs.parse)
    rcases r with failure | final | read
    · exact hread.error _ hr.2
    · exact absurd (hnames.mpr (by simp)) hr
    · obtain rfl := hread.ok _ hr
      refine ⟨rfl, nofun, fun read hr => ?_⟩
      obtain rfl := Option.some.inj hr
      exact ⟨rfl, List.mem_singleton.mpr rfl⟩

/-- The publication is renamed, and its staging name removed. -/
theorem Linked.finish (h : Inv serviceUid schemas w) (hd : w.directory.isSome = true) {last : Option String}
    {kept : List (String × Nat)}
    {publication : String} (hl : Linked serviceUid w.files last kept staging publication file text)
    (hpublished : w.published = texts ++ [text]) :
    Safe (Performing serviceUid faulty) (Inv serviceUid schemas)
      (do ask (.rename publication stateName); removeStaging staging : Operation Event Unit)
      (fun r w' => Inv serviceUid schemas w' ∧ SameBut w w' ∧ match r with
        | .ok _ => Idle serviceUid w'.files w'.published.getLast?
        | .error _ => faulty) w := by
  refine Safe.andThen (P := fun r w' => Inv serviceUid schemas w' ∧ SameBut w w' ∧ match r with
    | .ok _ => Renamed serviceUid w'.files staging file text
    | .error _ => faulty) ?_ ?_ fun _ _ h => h
  · refine safe_call (fun choice answer w' hp => ?_) fun hf failure w' hleft => ?_
    · obtain ⟨files, hfiles⟩ : ∃ files, w.files.rename () publication () stateName = .ok files := by
        unfold FileSystem.rename
        rw [hl.lookup.2]
        dsimp only
        split
        · exact ⟨_, rfl⟩
        · split <;> exact ⟨_, rfl⟩
      simp only [perform, hfiles, World.fileSystem, Prod.mk.injEq] at hp
      obtain ⟨rfl, rfl⟩ := hp
      have hrenamed := hl.rename hfiles
      have hinv := h.withFiles hd (by rw [hpublished]; exact .renamed hrenamed)
      exact ⟨hinv, hinv, ⟨rfl, rfl, rfl⟩, hrenamed⟩
    · obtain rfl : w' = w := hleft
      exact ⟨h, h, .refl _, hf⟩
  · rintro _ w' ⟨hinv, hsame, hrenamed⟩
    refine (removeStaging_safe hinv (hsame.directory ▸ hd) hrenamed (by simp [hsame.published, hpublished])).mono ?_
    exact fun r w'' hr => ⟨hr.1, hsame.trans hr.2.1, hr.2.2⟩

theorem Linked.recover (h : Inv serviceUid schemas w) (hd : w.directory.isSome = true) {kept : List (String × Nat)}
    {publication : String}
    (hl : Linked serviceUid w.files texts.getLast? kept staging publication file text)
    (hpublished : w.published = texts ++ [text]) :
    Safe (Performing serviceUid faulty) (Inv serviceUid schemas)
      (readEntries serviceUid (stateCodec schemas)
        ((kept.map (·.1) ++ [staging, publication]).map fun name => (name, .regular)) :
        Operation Event (State Event)) (Loaded faulty serviceUid schemas w) w := by
  have hs := hl.isStaging
  have hp := hl.isPublication
  obtain ⟨state, hhistory, -⟩ := h.held
  obtain ⟨previous, hprevious, hnext, htext⟩ : ∃ s, History schemas texts s ∧ Next schemas s state ∧
      text = serialized state := by
    rw [hpublished] at hhistory
    exact hhistory.before
  have hparse : (stateCodec schemas).parse text = some state := htext ▸ hhistory.parse
  have hfits : text.utf8ByteSize ≤ maximumStateBytes := h.fits text (by simp [hpublished])
  have hread : ∀ {name}, w.files.lookup () name = some file → ReadsAs faulty (stateCodec schemas) serviceUid w name
      { file, metadata := stateInode serviceUid text 2, state } := fun hname => readsAs hname hl.file hfits hparse
  have hkept : ∀ name ∈ kept.map (·.1), name = stateName := List.forall_mem_map.mpr hl.final.names
  have hstate : w.files.lookup () stateName = kept.lookup stateName := by
    rw [FileSystem.lookup, hl.entries, List.lookup_append]
    simp [List.lookup, beq_false_of_ne (stateName_ne_staging hs), beq_false_of_ne (stateName_ne_publication hp)]
  rw [readEntries_eq [staging] [publication] ?_ ?_ (by simp) ?_ (by simp)]
  · unfold readLayout
    refine (reading_previous h hprevious (by simp [hpublished]) hl.final hstate ?_).thenSafe h ?_ fun failure hf =>
      ⟨h, .refl w, hf⟩
    · simp [(stateName_ne_staging hs), (stateName_ne_publication hp)]
    rintro final ⟨hfinal, hnone, hsingle⟩
    refine reading_readState.thenSafe h (fun staged hstaged => ?_) fun failure hf =>
      ⟨h, .refl w, (hread hl.lookup.1).error _ hf⟩
    obtain rfl := (hread hl.lookup.1).ok _ hstaged
    dsimp only [List.head?_cons]
    rw [reading_assertDigest hl.digest, Program.pure_andThen]
    unfold recoverBeforeRename
    rw [if_neg (by simp [hl.names])]
    refine Safe.andThen (P := fun r w' => Inv serviceUid schemas w' ∧ SameBut w w' ∧ match r with
        | .ok _ => Idle serviceUid w'.files w'.published.getLast?
        | .error _ => faulty) ?_ ?_ ?_
    · refine reading_readState.thenSafe h (fun read hread' => ?_) fun failure hf =>
        ⟨h, .refl w, (hread hl.lookup.2).error _ hf⟩
      obtain rfl := (hread hl.lookup.2).ok _ hread'
      have hsuccessor : isSuccessor (final.map (·.state)) state = true := by
        have hn := hnext.successor
        rw [← hfinal] at hn
        cases final <;> exact hn
      rw [if_neg (by simp [stateCodec, hsuccessor, stateInode])]
      have hlinks : ∀ read, final = some read → (assertSingleLink read.metadata : Operation Event Unit) = pure () :=
        fun read hf => if_pos (hsingle read hf).1
      cases final with
      | none => exact hl.finish h hd hpublished
      | some read =>
        dsimp only
        rw [hlinks read rfl, Program.pure_andThen]
        exact hl.finish h hd hpublished
    · rintro _ w' ⟨hinv, hsame, hidle⟩
      exact ⟨hinv, hsame, hidle, hhistory⟩
    · rintro failure w' ⟨hinv, hsame, hf⟩
      exact ⟨hinv, hsame, hf⟩
  · intro name hname
    rcases List.mem_append.mp hname with hname | hname
    · exact .inl (hkept name hname)
    · simp only [List.mem_cons, List.not_mem_nil, or_false] at hname
      rcases hname with rfl | rfl
      · exact .inr (.inl hs)
      · exact .inr (.inr hp)
  · rw [List.filter_append, List.filter_eq_nil_iff.mpr fun name hname => by simp [hkept name hname]]
    simp [hs, not_isStaging hp]
  · rw [List.filter_append, List.filter_eq_nil_iff.mpr fun name hname => by simp [hkept name hname]]
    simp [hp, not_isPublication hs]

/-- A save was begun and its state not linked: the staging file has no other name, or there is none yet. -/
def Unlinked (w : World (Response Event)) : Prop :=
  (∃ staging file inode, isStaging staging = true ∧ w.files.lookup () staging = some file ∧
    w.files.inodes[file]? = some inode ∧ inode.nlink = 1) ∨
  (w.directory.isSome = true ∧ w.published = [])

theorem Idle.reads (h : Inv serviceUid schemas w) (hidle : Idle serviceUid w.files w.published.getLast?)
    (hd : w.directory.isSome = true) :
    Safe (Performing serviceUid faulty) (Inv serviceUid schemas)
      (readEntries serviceUid (stateCodec schemas) (((w.files.entries ()).map (·.1)).map fun name => (name, .regular)) :
        Operation Event (State Event)) (Loaded (faulty ∨ Unlinked w) serviceUid schemas w) w := by
  obtain ⟨state, hhistory, -⟩ := h.held
  unfold Idle at hidle
  have hnames : ∀ name ∈ (w.files.entries ()).map (·.1), name = stateName := by
    revert hidle
    generalize w.files.entries () = entries
    generalize w.published.getLast? = last
    rintro (_ | _) <;> simp
  rw [readEntries_eq [] [] (fun name hname => .inl (hnames name hname))
    (List.filter_eq_nil_iff.mpr fun name hname => by simp [hnames name hname]) (by simp)
    (List.filter_eq_nil_iff.mpr fun name hname => by simp [hnames name hname]) (by simp)]
  unfold readLayout
  refine (reading_previous h hhistory (List.Subset.refl _) hidle rfl Iff.rfl).thenSafe h ?_ fun failure hf =>
    ⟨h, .refl w, .inl hf⟩
  rintro final ⟨hfinal, hnone, hsingle⟩
  dsimp only [List.head?_nil]
  cases final with
  | none =>
    have hpublished := hnone rfl
    exact ⟨h, .refl w, .inr (.inr ⟨hd, hpublished⟩)⟩
  | some read =>
    dsimp only
    rw [show (assertSingleLink read.metadata : Operation Event Unit) = pure () from if_pos (hsingle read rfl).1,
      Program.pure_andThen]
    obtain rfl : read.state = state := hfinal
    exact ⟨h, .refl w, hidle, hhistory⟩

section
omit [DecidableEq Event] [StateText Event] [HexSha256]

theorem Staged.unlinked {kept : List (String × Nat)}
    (h : Staged serviceUid w.files w.published.getLast? kept staging file text) : Unlinked w :=
  .inl ⟨staging, file, _, h.staging, h.lookup, h.file, rfl⟩

/-- Before the link, `state.json` is as the last publication left it. -/
theorem Final.read {fs : FileSystem Unit} {last : Option String} {kept rest : List (String × Nat)}
    (h : Final serviceUid fs.inodes last kept) (hentries : fs.entries () = kept ++ rest)
    (hrest : ∀ entry ∈ rest, stateName ≠ entry.1) : fs.read () stateName = last := by
  have hlookup : rest.lookup stateName = none := by
    clear hentries
    induction rest with
    | nil => rfl
    | cons entry rest ih =>
      rw [List.lookup_cons, beq_false_of_ne (hrest entry List.mem_cons_self)]
      exact ih fun e he => hrest e (List.mem_cons_of_mem _ he)
  cases h with
  | absent => simp [FileSystem.read, FileSystem.stat, FileSystem.lookup, hentries, hlookup]
  | present hk => simp [FileSystem.read, FileSystem.stat, FileSystem.lookup, hentries, hk, stateInode]

theorem mem_of_lookup {name : String} {file : Nat} (h : w.files.lookup () name = some file) :
    (name, file) ∈ w.files.entries () := by
  obtain ⟨before, after, hentries, -⟩ := List.lookup_eq_some_iff.mp h
  simp [hentries]

end

/-- Before the link of a state, `state.json` holds the state before. -/
theorem Inv.kept (h : Inv serviceUid schemas w) (hunlinked : Unlinked w) :
    w.files.read () stateName = w.published.getLast? := by
  have hlayout := h.layout
  -- a staging file with two links is a publication
  have htwo : ∀ {text : String} {file : Nat} {texts : List String},
    w.files.inodes[file]? = some (stateInode serviceUid text 2) →
      w.published = texts ++ [text] → (∀ name k, isStaging name = true → w.files.lookup () name = some k → k = file) →
        False := by
    intro text file texts hfile hpublished hall
    rcases hunlinked with ⟨name, k, inode, hname, hlookup, hinode, hlink⟩ | ⟨-, hempty⟩
    · obtain rfl := hall name k hname hlookup
      rw [hfile, Option.some.injEq] at hinode
      subst hinode
      cases hlink
    · simp [hpublished] at hempty
  generalize hpublished : w.published = published at hlayout
  cases hlayout with
  | idle hidle => exact Final.read hidle (List.append_nil _).symm (by simp)
  | staged hst => exact hst.final.read hst.entries (by simpa using stateName_ne_staging hst.staging)
  | linked hl =>
    refine (htwo hl.file hpublished fun name k hname hlookup => ?_).elim
    have hmem := mem_of_lookup hlookup
    rw [hl.entries] at hmem
    rcases List.mem_append.mp hmem with hmem | hmem
    · exact absurd (hl.final.names _ hmem).symm (stateName_ne_staging hname)
    · simp only [List.mem_cons, Prod.mk.injEq, List.not_mem_nil, or_false] at hmem
      rcases hmem with ⟨-, rfl⟩ | ⟨-, rfl⟩ <;> rfl
  | renamed hr =>
    refine (htwo hr.file hpublished fun name k hname hlookup => ?_).elim
    have hmem := mem_of_lookup hlookup
    rw [hr.entries] at hmem
    simp only [List.mem_cons, Prod.mk.injEq, List.not_mem_nil, or_false] at hmem
    rcases hmem with ⟨-, rfl⟩ | ⟨-, rfl⟩ <;> rfl

/-- A staging file that was not linked is refused, and stays. -/
theorem Staged.refused (h : Inv serviceUid schemas w) {kept : List (String × Nat)}
    (hst : Staged serviceUid w.files w.published.getLast? kept staging file text) :
    Safe (Performing serviceUid faulty) (Inv serviceUid schemas)
      (readEntries serviceUid (stateCodec schemas) ((kept.map (·.1) ++ [staging]).map fun name => (name, .regular)) :
        Operation Event (State Event)) (Loaded (faulty ∨ Unlinked w) serviceUid schemas w) w := by
  have hs := hst.staging
  obtain ⟨state, hhistory, -⟩ := h.held
  have hkept : ∀ name ∈ kept.map (·.1), name = stateName := List.forall_mem_map.mpr hst.final.names
  have hstate : w.files.lookup () stateName = kept.lookup stateName := by
    rw [FileSystem.lookup, hst.entries, List.lookup_append]
    simp [List.lookup, beq_false_of_ne (stateName_ne_staging hs)]
  rw [readEntries_eq [staging] [] ?_ ?_ (by simp) ?_ (by simp)]
  · unfold readLayout
    refine (reading_previous h hhistory (List.Subset.refl _) hst.final hstate ?_).thenSafe h ?_ fun failure hf =>
      ⟨h, .refl w, .inl hf⟩
    · simp [(stateName_ne_staging hs)]
    rintro final ⟨-, -, hsingle⟩
    refine reading_readState.thenSafe h (fun staged hstaged => ?_) fun failure hf => ⟨h, .refl w, .inr hst.unlinked⟩
    have hfile : staged.file = file := by
      have := hstaged.1
      rw [hst.lookup] at this
      exact (Option.some.inj this).symm
    dsimp only [List.head?_cons, List.head?_nil]
    unfold assertDigest
    split
    · rw [Program.pure_andThen]
      unfold recoverAfterRename
      cases final with
      | none => exact ⟨h, .refl w, .inr hst.unlinked⟩
      | some read =>
        have hne : read.file ≠ file := hst.fresh _ (hsingle read rfl).2
        dsimp only
        rw [if_neg fun hc => hne (hc.1.symm.trans hfile)]
        exact ⟨h, .refl w, .inr hst.unlinked⟩
    · exact ⟨h, .refl w, .inr hst.unlinked⟩
  · intro name hname
    rcases List.mem_append.mp hname with hname | hname
    · exact .inl (hkept name hname)
    · simp only [List.mem_cons, List.not_mem_nil, or_false] at hname
      exact .inr (.inl (hname ▸ hs))
  · rw [List.filter_append, List.filter_eq_nil_iff.mpr fun name hname => by simp [hkept name hname]]
    simp [hs]
  · rw [List.filter_append, List.filter_eq_nil_iff.mpr fun name hname => by simp [hkept name hname]]
    simp [not_isPublication hs]

omit [DecidableEq Event] [StateText Event] [HexSha256] in
/-- The files of the store are regular files of the service. -/
theorem Final.regular {inodes : List Inode} {last : Option String} {kept : List (String × Nat)}
    (h : Final serviceUid inodes last kept) :
    ∀ entry ∈ kept, ∃ text nlink, inodes[entry.2]? = some (stateInode serviceUid text nlink) := by
  intro entry hentry
  cases h with
  | absent => cases hentry
  | present h =>
    obtain rfl := List.mem_singleton.mp hentry
    exact ⟨_, _, h⟩

theorem readEntries_safe (h : Inv serviceUid schemas w) (hd : w.directory.isSome = true) :
    Safe (Performing serviceUid faulty) (Inv serviceUid schemas)
      (do
        let entries : List (String × Kind) ← ask .readdir
        readEntries serviceUid (stateCodec schemas) entries : Operation Event (State Event))
      (Loaded (faulty ∨ Unlinked w) serviceUid schemas w) w := by
  have himp : ∀ {p : Operation Event (State Event)},
      Safe (Performing serviceUid faulty) (Inv serviceUid schemas) p (Loaded faulty serviceUid schemas w) w →
        Safe (Performing serviceUid faulty) (Inv serviceUid schemas) p
          (Loaded (faulty ∨ Unlinked w) serviceUid schemas w) w := by
    intro p hp
    refine hp.mono fun r w' hr => ⟨hr.1, hr.2.1, ?_⟩
    cases r with
    | ok state => exact hr.2.2
    | error failure => exact .inl hr.2.2
  have hlayout := h.layout
  generalize hpublished : w.published = published at hlayout
  cases hlayout with
  | idle hidle =>
    refine (reading_readdir rfl (Final.regular hidle)).thenSafe h ?_ fun _ hf => ⟨h, .refl w, .inl hf⟩
    rintro _ rfl
    exact Idle.reads h (hpublished ▸ hidle) hd
  | @staged _ kept staging text file hst =>
    refine (reading_readdir hst.entries ?_).thenSafe h ?_ fun _ hf => ⟨h, .refl w, .inl hf⟩
    · intro entry hentry
      rcases List.mem_append.mp hentry with hentry | hentry
      · exact hst.final.regular entry hentry
      · obtain rfl := List.mem_singleton.mp hentry
        exact ⟨_, _, hst.file⟩
    · rintro _ rfl
      rw [List.map_append]
      exact Staged.refused h (hpublished ▸ hst)
  | @linked texts kept staging publication text file hl =>
    refine (reading_readdir hl.entries ?_).thenSafe h ?_ fun _ hf => ⟨h, .refl w, .inl hf⟩
    · intro entry hentry
      rcases List.mem_append.mp hentry with hentry | hentry
      · exact hl.final.regular entry hentry
      · simp only [List.mem_cons, List.not_mem_nil, or_false] at hentry
        rcases hentry with rfl | rfl <;> exact ⟨_, _, hl.file⟩
    · rintro _ rfl
      rw [List.map_append]
      exact himp (hl.recover h hd hpublished)
  | @renamed texts staging text file hr =>
    refine (reading_readdir hr.entries ?_).thenSafe h ?_ fun _ hf => ⟨h, .refl w, .inl hf⟩
    · intro entry hentry
      simp only [List.mem_cons, List.not_mem_nil, or_false] at hentry
      rcases hentry with rfl | rfl <;> exact ⟨_, _, hr.file⟩
    · rintro _ rfl
      exact himp (hr.recover h hd hpublished)

/-- A store whose directory is missing holds nothing. -/
theorem Inv.missing (h : Inv serviceUid schemas w) (hd : w.directory = none) :
    w.published = [] ∧ w.files.entries () = [] := by
  have hentries := h.absent hd
  refine ⟨?_, hentries⟩
  have hlayout := h.layout
  generalize w.published = published at hlayout
  cases hlayout with
  | idle hidle =>
    unfold Idle at hidle
    rw [hentries] at hidle
    generalize hlast : published.getLast? = last at hidle
    cases hidle
    exact List.getLast?_eq_none_iff.mp hlast
  | staged hst => simp [hst.entries] at hentries
  | linked hl => simp [hl.entries] at hentries
  | renamed hr => simp [hr.entries] at hentries

/-- A read returns the last state that was linked, unless a call fails or a save was cut before its link. -/
theorem load_safe (h : Inv serviceUid schemas w) :
    Safe (Performing serviceUid faulty) (Inv serviceUid schemas) (load serviceUid schemas : Operation Event (State Event))
      (Loaded (faulty ∨ Unlinked w) serviceUid schemas w) w := by
  have herror : ∀ failure : AuthorityFailure, faulty →
      Loaded (faulty ∨ Unlinked w) serviceUid schemas w (.error failure) w := fun _ hf => ⟨h, .refl w, .inl hf⟩
  unfold load readNativeQemuAuthorityStateFile
  refine Safe.andThen (P := fun r w' => match r with
    | .ok state => Loaded (faulty ∨ Unlinked w) serviceUid schemas w (.ok (state.getD emptyState)) w'
    | .error failure => Loaded (faulty ∨ Unlinked w) serviceUid schemas w (.error failure) w') ?_ (fun _ _ h => h)
        fun _ _ h => h
  have hexists : Reading (Performing serviceUid faulty) (ask .pathExists : Operation Event Bool)
      (fun r => match r with
        | .ok present => present = w.directory.isSome
        | .error _ => faulty) w := reading_call (still rfl) (fun _ => rfl) fun hf _ => hf
  refine hexists.thenSafe h (fun present hpresent => ?_) fun failure hf => herror failure hf
  subst hpresent
  split
  · rename_i hd
    obtain ⟨directory, hdirectory⟩ := Option.isSome_iff_exists.mp hd
    have hprivate : Reading (Performing serviceUid faulty) (assertPrivateDirectory serviceUid : Operation Event Unit)
        (fun r => match r with
          | .ok _ => True
          | .error _ => faulty) w := by
      unfold assertPrivateDirectory
      refine Reading.andThen (R := fun r => match r with
        | .ok metadata => metadata = { uid := serviceUid, mode := 0o700 }
        | .error _ => faulty) ?_ ?_ fun _ h => h
      · refine reading_call (still rfl) (fun choice => ?_) fun hf _ => hf
        simp only [perform, hdirectory]
        exact h.directory directory hdirectory
      · rintro _ rfl
        rw [if_pos ⟨rfl, rfl⟩]
        exact reading_pure trivial
    refine hprivate.thenSafe h (fun _ _ => ?_) fun failure hf => herror failure hf
    rw [safe_bind]
    refine ((safe_bind _ _ _ _).mp (readEntries_safe h hd)).mono ?_
    rintro (failure | entries) w' hr
    · exact hr
    · refine Safe.andThen hr (fun state w'' hs => hs) fun _ _ hf => hf
  · rename_i hd
    have hdirectory : w.directory = none := by simpa using hd
    obtain ⟨hpublished, hentries⟩ := h.missing hdirectory
    obtain ⟨state, hhistory, -⟩ := h.held
    have hempty : state = emptyState := by
      rcases hhistory.last with ⟨-, rfl⟩ | hlast
      · rfl
      · simp [hpublished] at hlast
    subst hempty
    refine ⟨h, .refl w, ?_, hhistory⟩
    rw [hpublished]
    unfold Idle
    rw [hentries]
    exact .absent

end

end Dim.Qemu.Authority
