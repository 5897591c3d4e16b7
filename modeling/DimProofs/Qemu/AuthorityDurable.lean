/-
The QEMU authority as a process that may crash between any two calls, and whose calls may fail. The states it
saves follow one another, every answer it gave is held by the state that it saved last, and the next read
returns that state, or finds a save that was cut before its link, beside the state before in `state.json`.
-/
import DimProofs.Qemu.AuthorityCrash

namespace Dim.Qemu.Authority

open Effectful Files

section
variable {Event : Type} [DecidableEq Event] [StateText Event] [HexSha256] {serviceUid : Nat} {schemas : RecordSchemas Event}
  {w w' w'' : World (Response Event)} {s s' : State Event} {faulty : Prop}

/-! ## Saving -/

/-- The directory is there, and nothing else has changed. -/
structure Prepared (serviceUid : Nat) (schemas : RecordSchemas Event) (w w' : World (Response Event)) : Prop where
  inv : Inv serviceUid schemas w'
  present : w'.directory.isSome = true
  files : w'.files = w.files
  published : w'.published = w.published
  acknowledged : w'.acknowledged = w.acknowledged

theorem Inv.withDirectory (h : Inv serviceUid schemas w) :
    Prepared serviceUid schemas w { w with directory := some { uid := serviceUid, mode := 0o700 } } where
  inv := { h with
    directory := fun directory hd => (Option.some.inj hd).symm
    absent := fun hnone => by cases hnone }
  present := rfl
  files := rfl
  published := rfl
  acknowledged := rfl

theorem ensurePrivateDirectory_safe (h : Inv serviceUid schemas w) :
    Safe (Performing serviceUid faulty) (Inv serviceUid schemas) (ensurePrivateDirectory serviceUid : Operation Event Unit)
      (fun r w' => match r with
        | .ok _ => Prepared serviceUid schemas w w'
        | .error _ => Inv serviceUid schemas w' ∧ w'.acknowledged = w.acknowledged) w := by
  have hmkdir : w.directory.getD { uid := serviceUid, mode := 0o700 } = { uid := serviceUid, mode := 0o700 } := by
    cases hd : w.directory with
    | none => rfl
    | some directory => exact h.directory directory hd
  unfold ensurePrivateDirectory
  refine Safe.andThen (P := fun r w' => match r with
    | .ok _ => w' = { w with directory := some { uid := serviceUid, mode := 0o700 } }
    | .error _ => Inv serviceUid schemas w' ∧ w'.acknowledged = w.acknowledged) ?_ ?_ fun _ _ h => h
  · refine safe_call (fun choice answer w' hp => ?_) fun _ failure w' hleft => ?_
    · simp only [perform, hmkdir, Prod.mk.injEq] at hp
      obtain ⟨rfl, rfl⟩ := hp
      exact ⟨h.withDirectory.inv, rfl⟩
    · obtain rfl : w' = w := hleft
      exact ⟨h, h, rfl⟩
  rintro _ w' rfl
  have hp := h.withDirectory
  refine Safe.andThen (P := fun r w' => match r with
    | .ok _ => w' = { w with directory := some { uid := serviceUid, mode := 0o700 } }
    | .error _ => Inv serviceUid schemas w' ∧ w'.acknowledged = w.acknowledged) ?_ ?_ fun _ _ h => h
  · refine safe_call (fun choice answer w' hq => ?_) fun _ failure w' hleft => ?_
    · simp only [perform, Option.map_some, Prod.mk.injEq] at hq
      obtain ⟨rfl, rfl⟩ := hq
      exact ⟨hp.inv, rfl⟩
    · subst hleft
      exact ⟨hp.inv, hp.inv, rfl⟩
  rintro _ w' rfl
  unfold assertPrivateDirectory
  refine Safe.andThen (P := fun r w' => w' = { w with directory := some { uid := serviceUid, mode := 0o700 } } ∧
    ∀ metadata, r = .ok metadata → metadata = { uid := serviceUid, mode := 0o700 }) ?_ ?_ ?_
  · refine ask_read rfl hp.inv (fun choice => ⟨rfl, fun metadata hm => ?_⟩) fun _ failure => ⟨rfl, fun _ hm => by cases hm⟩
    simp only [perform] at hm
    exact (Except.ok.inj hm).symm
  · rintro metadata w' ⟨rfl, hm⟩
    obtain rfl := hm metadata rfl
    rw [if_pos ⟨rfl, rfl⟩]
    exact hp
  · rintro failure w' ⟨rfl, -⟩
    exact ⟨hp.inv, rfl⟩

/-- The staging file is filled. -/
theorem fill_safe (h : Inv serviceUid schemas w) (hd : w.directory.isSome = true) {kept : List (String × Nat)}
    {staging text : String} {file : Nat} (hst : Staged serviceUid w.files w.published.getLast? kept staging file "") :
    Safe (Performing serviceUid faulty) (Inv serviceUid schemas)
      (Program.tryFinally (do ask (.write file text); ask (.chmod file); ask .sync) (ask .close) : Operation Event Unit)
      (fun r w' => Inv serviceUid schemas w' ∧ SameBut w w' ∧ match r with
        | .ok _ => Staged serviceUid w'.files w'.published.getLast? kept staging file text
        | .error _ => True) w := by
  -- a change of the text keeps the layout
  have hmodify : ∀ {w' : World (Response Event)} (f : Inode → Inode) {text : String} (text' : String),
    Inv serviceUid schemas w' →
      SameBut w w' → Staged serviceUid w'.files w'.published.getLast? kept staging file text →
      f (stateInode serviceUid text 1) = stateInode serviceUid text' 1 →
        Inv serviceUid schemas { w' with files := w'.files.modify file f } ∧
          SameBut w { w' with files := w'.files.modify file f } ∧
          Staged serviceUid (w'.files.modify file f) w'.published.getLast? kept staging file text' := by
    intro w' f _ text' hinv hsame hs hf
    have hs' := hs.modify hf
    exact ⟨hinv.withFiles (hsame.directory ▸ hd) (.staged hs'), ⟨hsame.directory, hsame.published, hsame.acknowledged⟩, hs'⟩
  refine Safe.andFinally (P := fun r w' => Inv serviceUid schemas w' ∧ SameBut w w' ∧ match r with
    | .ok _ => Staged serviceUid w'.files w'.published.getLast? kept staging file text
    | .error _ => True) ?_ ?_
  · refine Safe.andThen (P := fun r w' => Inv serviceUid schemas w' ∧ SameBut w w' ∧ match r with
      | .ok _ => Staged serviceUid w'.files w'.published.getLast? kept staging file text
      | .error _ => True) ?_ ?_ fun _ _ h => h
    · refine safe_call (fun choice answer w' hp => ?_) fun _ failure w' hleft => ?_
      · simp only [perform, Prod.mk.injEq] at hp
        obtain ⟨rfl, rfl⟩ := hp
        obtain ⟨hinv, hsame, hs⟩ := hmodify (fun i => { i with text := i.text ++ text }) text h (.refl w) hst
          (by simp [stateInode])
        exact ⟨hinv, hinv, hsame, hs⟩
      · obtain ⟨part, -, rfl⟩ := hleft
        obtain ⟨hinv, hsame, -⟩ := hmodify (fun i => { i with text := i.text ++ part }) part h (.refl w) hst
          (by simp [stateInode])
        exact ⟨hinv, hinv, hsame, trivial⟩
    rintro _ w' ⟨hinv, hsame, hs⟩
    refine Safe.andThen (P := fun r w' => Inv serviceUid schemas w' ∧ SameBut w w' ∧ match r with
      | .ok _ => Staged serviceUid w'.files w'.published.getLast? kept staging file text
      | .error _ => True) ?_ ?_ fun _ _ h => h
    · refine safe_call (fun choice answer w'' hp => ?_) fun _ failure w'' hleft => ?_
      · simp only [perform, Prod.mk.injEq] at hp
        obtain ⟨rfl, rfl⟩ := hp
        obtain ⟨hinv, hsame, hs⟩ := hmodify (fun i => { i with mode := 0o600 }) text hinv hsame hs rfl
        exact ⟨hinv, hinv, hsame, hs⟩
      · obtain rfl : w'' = w' := hleft
        exact ⟨hinv, hinv, hsame, trivial⟩
    rintro _ w'' ⟨hinv, hsame, hs⟩
    exact ask_read rfl hinv (fun _ => ⟨hinv, hsame, hs⟩) fun _ _ => ⟨hinv, hsame, trivial⟩
  · rintro r w' ⟨hinv, hsame, hr⟩
    refine ask_read rfl hinv (fun _ => ⟨hinv, hsame, hr⟩) fun _ _ => ⟨hinv, hsame, trivial⟩

/-- The link of a filled staging file publishes its state. -/
theorem Staged.publish (h : Inv serviceUid schemas w) (hd : w.directory.isSome = true) {kept : List (String × Nat)}
    {staging publication : String} {file : Nat}
    (hst : Staged serviceUid w.files w.published.getLast? kept staging file (serialized s'))
    (hnames : stagingPattern staging = publicationPattern publication)
    (hdigest : (stagingPattern staging).map (·.1) = some (Ordinary.Sha256.hex (serialized s')))
    (hfits : (serialized s').utf8ByteSize ≤ maximumStateBytes) (hs : History schemas w.published s)
    (hnext : Next schemas s s')
    (hheld : ∀ response ∈ w.acknowledged, Holds s response) {files : FileSystem Unit}
    (hl : w.files.link () staging () publication = .ok files) :
    Inv serviceUid schemas { w with files, published := w.published ++ [serialized s'] } ∧
      Linked serviceUid files w.published.getLast? kept staging publication file (serialized s') := by
  have hlinked := hst.link hnames hdigest hl
  refine ⟨⟨h.directory, fun hnone => ?_, ?_, ⟨s', .next hs hnext, fun response hr => hnext.holds (hheld response hr)⟩,
    .linked hlinked⟩, hlinked⟩
  · simp only at hnone
    rw [hnone] at hd
    cases hd
  · intro text htext
    rcases List.mem_append.mp htext with htext | htext
    · exact h.fits text htext
    · rw [List.mem_singleton.mp htext]
      exact hfits

/-- What holds of the value of a step that has one. -/
def Gives {ε α : Type} (P : α → Prop) : Except ε α → Prop
  | .ok value => P value
  | .error _ => True

theorem publish_safe (h : Inv serviceUid schemas w) (hidle : Idle serviceUid w.files w.published.getLast?)
    (hs : History schemas w.published s) (hnext : Next schemas s s') :
    Safe (Performing serviceUid faulty) (Inv serviceUid schemas)
      (publishNativeQemuAuthorityState serviceUid (serialized s') : Operation Event Unit)
      (fun r w' => Inv serviceUid schemas w' ∧ w'.acknowledged = w.acknowledged ∧ match r with
        | .ok _ => Idle serviceUid w'.files w'.published.getLast? ∧ History schemas w'.published s'
        | .error _ => True) w := by
  have hheld : ∀ response ∈ w.acknowledged, Holds s response := by
    obtain ⟨state, hstate, hheld⟩ := h.held
    rw [hs.unique hstate]
    exact hheld
  unfold publishNativeQemuAuthorityState
  split
  · exact ⟨h, rfl, trivial⟩
  rename_i hsize
  have hfits : (serialized s').utf8ByteSize ≤ maximumStateBytes := Nat.not_lt.mp hsize
  refine (ensurePrivateDirectory_safe h).andThen ?_ fun _ w' hf => ⟨hf.1, hf.2, trivial⟩
  rintro _ w₁ hprepared
  have hidle₁ : Idle serviceUid w₁.files w₁.published.getLast? := by rw [hprepared.files, hprepared.published]; exact hidle
  refine Safe.andThen (P := fun r w' => w' = w₁ ∧ ∀ uuid, r = .ok uuid → Pattern.uuid uuid = true) ?_ ?_ ?_
  · exact ask_read rfl hprepared.inv (fun choice => ⟨rfl, fun uuid hu => (Except.ok.inj hu) ▸ choice.valid⟩)
      fun _ _ => ⟨rfl, fun _ hu => by cases hu⟩
  · rintro identity w₁ ⟨rfl, hu⟩
    have hhex := HexSha256.pattern (serialized s')
    have hstaging : stagingPattern (publicationName ".tmp" (Ordinary.Sha256.hex (serialized s')) identity) =
        some (Ordinary.Sha256.hex (serialized s'), identity) := namePattern_publicationName hhex (hu identity rfl)
    have hpublication : publicationPattern (publicationName ".publish" (Ordinary.Sha256.hex (serialized s')) identity) =
        some (Ordinary.Sha256.hex (serialized s'), identity) := namePattern_publicationName hhex (hu identity rfl)
    dsimp only
    generalize publicationName ".tmp" (Ordinary.Sha256.hex (serialized s')) identity = staging at hstaging ⊢
    generalize publicationName ".publish" (Ordinary.Sha256.hex (serialized s')) identity = publication at hpublication ⊢
    have hisStaging : isStaging staging = true := by rw [isStaging, hstaging]; rfl
    refine Safe.andThen (P := fun r w' => Inv serviceUid schemas w' ∧ SameBut w₁ w' ∧
      Gives (fun file => Staged serviceUid w'.files w'.published.getLast? (w₁.files.entries ()) staging file "")
        r) ?_ ?_ fun _ w' hf => ⟨hf.1, hf.2.1.acknowledged.trans hprepared.acknowledged, trivial⟩
    · refine safe_call (fun choice answer w₂ hp => ?_) fun _ failure w₂ hleft => ?_
      · cases hc : w₁.files.create () staging serviceUid 0o600 with
        | error errno =>
          simp only [perform, hc, Prod.mk.injEq] at hp
          obtain ⟨rfl, rfl⟩ := hp
          exact ⟨hprepared.inv, hprepared.inv, .refl _, trivial⟩
        | ok created =>
          obtain ⟨file, files⟩ := created
          simp only [perform, hc, Prod.mk.injEq] at hp
          obtain ⟨rfl, rfl⟩ := hp
          have hst := hidle₁.create hisStaging hc
          have hinv := hprepared.inv.withFiles hprepared.present (.staged hst)
          exact ⟨hinv, hinv, ⟨rfl, rfl, rfl⟩, hst⟩
      · obtain rfl : w₂ = w₁ := hleft
        exact ⟨hprepared.inv, hprepared.inv, .refl _, trivial⟩
    rintro file w₂ ⟨hinv₂, hsame₂, hst₂⟩
    have hd₂ : w₂.directory.isSome = true := hsame₂.directory ▸ hprepared.present
    refine (fill_safe hinv₂ hd₂ hst₂).andThen ?_ fun _ w' hf =>
      ⟨hf.1, (hsame₂.trans hf.2.1).acknowledged.trans hprepared.acknowledged, trivial⟩
    rintro _ w₃ ⟨hinv₃, hsame₃, hst₃⟩
    have hsame := hsame₂.trans hsame₃
    have hpublished : w₃.published = w.published := hsame.published.trans hprepared.published
    have hacknowledged : w₃.acknowledged = w.acknowledged := hsame.acknowledged.trans hprepared.acknowledged
    have hd₃ : w₃.directory.isSome = true := hsame₃.directory ▸ hd₂
    refine Safe.andThen (P := fun r w' => Inv serviceUid schemas w' ∧ w'.acknowledged = w.acknowledged ∧
      Gives (fun _ => w'.published = w.published ++ [serialized s'] ∧ w'.directory.isSome = true ∧
        Linked serviceUid w'.files w.published.getLast? (w₁.files.entries ()) staging publication file (serialized s'))
          r) ?_ ?_ fun _ _ h => h
    · refine safe_call (fun choice answer w₄ hp => ?_) fun _ failure w₄ hleft => ?_
      · cases hl : w₃.files.link () staging () publication with
        | error errno =>
          simp only [perform, World.link, hl, Prod.mk.injEq] at hp
          obtain ⟨rfl, rfl⟩ := hp
          exact ⟨hinv₃, hinv₃, hacknowledged, trivial⟩
        | ok files =>
          have hread : w₃.files.read () staging = some (serialized s') := by
            simp [FileSystem.read, FileSystem.stat, hst₃.lookup, hst₃.file, stateInode]
          simp only [perform, World.link, hl, hread, Option.toList_some, Prod.mk.injEq] at hp
          obtain ⟨rfl, rfl⟩ := hp
          obtain ⟨hinv, hlinked⟩ := hst₃.publish hinv₃ hd₃ (hstaging.trans hpublication.symm) (by rw [hstaging]; rfl) hfits
            (hpublished ▸ hs) hnext (hacknowledged ▸ hheld) hl
          exact ⟨hinv, hinv, hacknowledged, by rw [hpublished], hd₃, hpublished ▸ hlinked⟩
      · obtain rfl : w₄ = w₃ := hleft
        exact ⟨hinv₃, hinv₃, hacknowledged, trivial⟩
    rintro _ w₄ ⟨hinv₄, hack₄, hpub₄, hd₄, hlinked₄⟩
    refine (hlinked₄.finish hinv₄ hd₄ hpub₄).mono ?_
    rintro r w₅ ⟨hinv₅, hsame₅, hr⟩
    refine ⟨hinv₅, hsame₅.acknowledged.trans hack₄, ?_⟩
    cases r with
    | error failure => trivial
    | ok value =>
      refine ⟨hr, ?_⟩
      rw [hsame₅.published, hpub₄]
      exact .next hs hnext
  · rintro failure w' ⟨rfl, -⟩
    exact ⟨hprepared.inv, hprepared.acknowledged, trivial⟩

/-! ## The operations -/

/-- What an operation leaves: the store, and where it is answered a state that holds the answer. -/
def Handled (serviceUid : Nat) (schemas : RecordSchemas Event) (w : World (Response Event)) {α : Type}
    (answer : α → Response Event) (r : Except AuthorityFailure α) (w' : World (Response Event)) : Prop :=
  Inv serviceUid schemas w' ∧ w'.acknowledged = w.acknowledged ∧ match r with
    | .ok value => ∃ state, History schemas w'.published state ∧ Holds state (answer value)
    | .error _ => True

/-- An operation on the state that was loaded. -/
theorem loaded_safe {α : Type} {answer : α → Response Event} {f : State Event → Operation Event α}
    (h : Inv serviceUid schemas w)
    (hf : ∀ state w', Inv serviceUid schemas w' → Idle serviceUid w'.files w'.published.getLast? →
      History schemas w'.published state →
      Safe (Performing serviceUid faulty) (Inv serviceUid schemas) (f state) (Handled serviceUid schemas w' answer) w') :
    Safe (Performing serviceUid faulty) (Inv serviceUid schemas) (load serviceUid schemas >>= f)
      (Handled serviceUid schemas w answer) w := by
  refine (load_safe h).andThen (fun state w' hl => ?_) fun _ w' hl => ⟨hl.1, hl.2.1.acknowledged, trivial⟩
  obtain ⟨hinv, hsame, hidle, hhistory⟩ := hl
  refine (hf state w' hinv hidle (hsame.published ▸ hhistory)).mono fun r w'' hr => ?_
  exact ⟨hr.1, hr.2.1.trans hsame.acknowledged, hr.2.2⟩

/-- An answer that the state holds already. -/
theorem handled_pure {α : Type} {answer : α → Response Event} {value : α} (h : Inv serviceUid schemas w)
    (hs : History schemas w.published s) (hv : Holds s (answer value)) :
    Safe (Performing serviceUid faulty) (Inv serviceUid schemas) (pure value : Operation Event α)
      (Handled serviceUid schemas w answer) w :=
  ⟨h, rfl, s, hs, hv⟩

/-- A new state is saved, and the answer is one that it holds. -/
theorem save_safe {α : Type} {answer : α → Response Event} {value : α} (h : Inv serviceUid schemas w)
    (hidle : Idle serviceUid w.files w.published.getLast?) (hs : History schemas w.published s)
    (hsuccessor : isSuccessor (some s) s' = true)
    (hrecorded : ∀ status ∈ s'.statuses, status ∈ s.statuses ∨
      ∃ attempt ∈ s.attempts, attempt.attemptId = status.attemptId ∧ attempt.revokedAt = none)
    (hv : Holds s' (answer value)) :
    Safe (Performing serviceUid faulty) (Inv serviceUid schemas)
      (do save serviceUid schemas s'; return value : Operation Event α)
      (Handled serviceUid schemas w answer) w := by
  unfold save
  split
  · rename_i hvalid
    refine (publish_safe h hidle hs ⟨hvalid, hsuccessor, hrecorded⟩).andThen (fun _ w' hp => ?_) fun _ w' hp =>
      ⟨hp.1, hp.2.1, trivial⟩
    exact ⟨hp.1, hp.2.1, s', hp.2.2.2, hv⟩
  · exact ⟨h, rfl, trivial⟩

theorem issue_safe {input : IssueInput} (h : Inv serviceUid schemas w) :
    Safe (Performing serviceUid faulty) (Inv serviceUid schemas) (issue serviceUid schemas input)
      (Handled serviceUid schemas w Response.issued) w := by
  unfold issue
  refine loaded_safe h fun state w' hinv hidle hhistory => ?_
  split
  · -- the request was answered before
    rename_i replay hreplay
    split
    · exact handled_pure hinv hhistory ⟨replay, List.mem_of_find?_eq_some hreplay, .inl rfl⟩
    · exact ⟨hinv, rfl, trivial⟩
  split
  · exact ⟨hinv, rfl, trivial⟩
  refine Safe.andThen (P := fun _ w'' => w'' = w') (ask_read rfl hinv (fun _ => rfl) fun _ _ => rfl) ?_
    (by rintro _ w'' rfl; exact ⟨hinv, rfl, trivial⟩)
  rintro uuid w'' rfl
  refine Safe.andThen (P := fun _ w' => w' = w'') (ask_read rfl hinv (fun _ => rfl) fun _ _ => rfl) ?_
    (by rintro _ w' rfl; exact ⟨hinv, rfl, trivial⟩)
  rintro issuedAt w' rfl
  unfold parseAttempt
  split
  · rw [Program.pure_andThen]
    exact save_safe hinv hidle hhistory isSuccessor_issue (fun status hm => .inl hm)
      ⟨_, List.mem_append_right _ (List.mem_singleton.mpr rfl), .inl rfl⟩
  · exact ⟨hinv, rfl, trivial⟩

theorem revoke_safe {reviewId jobName attemptId : String} (h : Inv serviceUid schemas w) :
    Safe (Performing serviceUid faulty) (Inv serviceUid schemas) (revoke serviceUid schemas reviewId jobName attemptId)
      (Handled serviceUid schemas w Response.revoked) w := by
  unfold revoke
  refine loaded_safe h fun state w' hinv hidle hhistory => ?_
  split
  · exact ⟨hinv, rfl, trivial⟩
  rename_i selected hselected
  have hmem := List.mem_of_find?_eq_some hselected
  obtain rfl : selected.attemptId = attemptId := by
    have := List.find?_some hselected
    simp only [Bool.and_eq_true, decide_eq_true_eq] at this
    exact this.2
  split
  · exact handled_pure hinv hhistory ⟨selected, hmem, .inl rfl⟩
  rename_i hnone
  have hnone : selected.revokedAt = none := by simpa using hnone
  refine Safe.andThen (P := fun _ w'' => w'' = w') (ask_read rfl hinv (fun _ => rfl) fun _ _ => rfl) ?_
    (by rintro _ w'' rfl; exact ⟨hinv, rfl, trivial⟩)
  rintro revokedAt w'' rfl
  unfold parseAttempt
  split
  · rw [Program.pure_andThen]
    have hids := (stateSchema_iff.mp hhistory.valid).attemptIds
    refine save_safe hinv hidle hhistory (isSuccessor_revoke hids hmem hnone revokedAt) (fun status hm => .inl hm) ?_
    exact ⟨_, List.mem_map.mpr ⟨selected, hmem, if_pos rfl⟩, .inl rfl⟩
  · exact ⟨hinv, rfl, trivial⟩

theorem status_safe {record : StatusRecord Event} (h : Inv serviceUid schemas w) :
    Safe (Performing serviceUid faulty) (Inv serviceUid schemas) (status serviceUid schemas record)
      (Handled serviceUid schemas w Response.recorded) w := by
  unfold status
  split
  · exact ⟨h, rfl, trivial⟩
  refine loaded_safe h fun state w' hinv hidle hhistory => ?_
  split
  · -- the attempt has its status
    rename_i existing hexisting
    split
    · exact handled_pure hinv hhistory (List.mem_of_find?_eq_some hexisting)
    · exact ⟨hinv, rfl, trivial⟩
  split
  · exact ⟨hinv, rfl, trivial⟩
  rename_i attempt hattempt
  split
  · exact ⟨hinv, rfl, trivial⟩
  rename_i hcurrent
  have hnone : attempt.revokedAt = none := by
    by_contra hsome
    exact hcurrent (.inl (Option.isSome_iff_ne_none.mpr hsome))
  have hid : attempt.attemptId = record.attemptId := by simpa using List.find?_some hattempt
  refine save_safe hinv hidle hhistory isSuccessor_status (fun status hm => ?_)
    (List.mem_append_right _ (List.mem_singleton.mpr rfl))
  rcases List.mem_append.mp hm with hm | hm
  · exact .inl hm
  · rw [List.mem_singleton.mp hm]
    exact .inr ⟨attempt, List.mem_of_find?_eq_some hattempt, hid, hnone⟩

theorem handle_safe {request : Request Event} (h : Inv serviceUid schemas w) :
    Safe (Performing serviceUid faulty) (Inv serviceUid schemas) (handle serviceUid schemas request)
      (Handled serviceUid schemas w id) w := by
  have hmap : ∀ {α : Type} {answer : α → Response Event} {p : Operation Event α},
      Safe (Performing serviceUid faulty) (Inv serviceUid schemas) p (Handled serviceUid schemas w answer) w →
        Safe (Performing serviceUid faulty) (Inv serviceUid schemas) (answer <$> p) (Handled serviceUid schemas w id) w :=
    fun hp => hp.andThen (fun _ _ hv => hv) fun _ _ hf => hf
  cases request with
  | issue input => exact hmap (issue_safe h)
  | revoke reviewId jobName attemptId => exact hmap (revoke_safe h)
  | status record => exact hmap (status_safe h)
  | snapshot =>
    refine hmap ((load_safe h).mono fun r w' hr => ⟨hr.1, hr.2.1.acknowledged, ?_⟩)
    cases r with
    | error failure => trivial
    | ok state => exact ⟨state, hr.2.1.published ▸ hr.2.2.2, holds_self state⟩

theorem serve_safe (h : Inv serviceUid schemas w) :
    Safe (Performing serviceUid faulty) (Inv serviceUid schemas) (serve serviceUid schemas)
      (fun _ => Inv serviceUid schemas) w := by
  unfold serve
  refine Safe.andThen (P := fun _ w' => w' = w) (ask_read rfl h (fun _ => rfl) fun _ _ => rfl) ?_
    (by rintro _ w' rfl; exact h)
  rintro request w' rfl
  refine Safe.orElse (P := fun _ => Inv serviceUid schemas) ?_ (fun _ _ h => h) fun _ _ h => h
  refine (handle_safe h).andThen (fun response w'' hr => ?_) fun _ _ hf => hf.1
  obtain ⟨hinv, -, state, hhistory, hholds⟩ := hr
  refine safe_call (fun choice answer w₁ hp => ?_) fun _ failure w₁ hleft => ?_
  · simp only [perform, Prod.mk.injEq] at hp
    obtain ⟨-, rfl⟩ := hp
    have hinv' : Inv serviceUid schemas { w'' with acknowledged := w''.acknowledged ++ [response] } := by
      obtain ⟨state', hhistory', hheld⟩ := hinv.held
      obtain rfl := hhistory.unique hhistory'
      refine { hinv with held := ⟨state, hhistory, fun r hr => ?_⟩ }
      rcases List.mem_append.mp hr with hr | hr
      · exact hheld r hr
      · rw [List.mem_singleton.mp hr]
        exact hholds
    exact ⟨hinv', hinv'⟩
  · obtain rfl : w₁ = w'' := hleft
    exact ⟨hinv, hinv⟩

/-! ## Every run -/

/-- The service: it checks the store when it starts, and then answers one request after another. -/
def authority (serviceUid : Nat) (schemas : RecordSchemas Event) :
    Machine (World (Response Event)) (AuthorityCall (Response Event))
    (fun c => Except AuthorityFailure (c.Value (Request Event))) AuthorityFailure where
  performs := Performing serviceUid True
  boot := assertNativeQemuAuthorityStore serviceUid schemas
  loop := serve serviceUid schemas

/-- A repository without a store. -/
def World.fresh : World (Response Event) :=
  { directory := none, files := ⟨[], fun _ => []⟩, published := [], acknowledged := [] }

theorem fresh_inv : Inv serviceUid schemas (World.fresh : World (Response Event)) where
  directory := nofun
  absent _ := rfl
  fits := nofun
  held := ⟨emptyState, .empty, nofun⟩
  layout := .idle .absent

theorem boot_safe (h : Inv serviceUid schemas w) :
    Safe (Performing serviceUid faulty) (Inv serviceUid schemas) (assertNativeQemuAuthorityStore serviceUid schemas)
      (fun _ => Inv serviceUid schemas) w := by
  unfold assertNativeQemuAuthorityStore
  exact (load_safe h).andThen (fun _ _ hl => hl.1) fun _ _ hl => hl.1

theorem authority_inv {m : Machine.State (World (Response Event)) (AuthorityCall (Response Event))
    (fun c => Except AuthorityFailure (c.Value (Request Event))) AuthorityFailure}
    (run : Relation.ReflTransGen (authority serviceUid schemas).Step ⟨World.fresh, none⟩ m) :
    Inv serviceUid schemas m.world := by
  refine (Machine.Running.steps (L := Inv serviceUid schemas) ?_ ?_ ⟨fresh_inv, fun _ h => by cases h⟩ run).world
  · exact fun w h => (boot_safe h).mono fun r w' hr => by cases r <;> exact hr
  · exact fun w h => (serve_safe h).mono fun r w' hr => by cases r <;> exact hr

omit [HexSha256] in
/-- A state that was saved before. -/
theorem History.keeps {texts earlier : List String} {state before : State Event} (h : History schemas texts state)
    (hbefore : History schemas earlier before) (hearlier : earlier <+: texts) :
    before.statuses <+: state.statuses ∧
      ∀ attempt ∈ before.attempts, ∃ attempt' ∈ state.attempts, Follows attempt attempt' := by
  induction h with
  | empty =>
    obtain rfl := List.prefix_nil.mp hearlier
    obtain rfl := hbefore.unique .empty
    exact ⟨List.prefix_rfl, fun attempt ha => ⟨attempt, ha, .inl rfl⟩⟩
  | @next texts s s' h hnext ih =>
    rcases List.prefix_concat_iff.mp hearlier with rfl | hearlier
    · obtain rfl := hbefore.unique (.next h hnext)
      exact ⟨List.prefix_rfl, fun attempt ha => ⟨attempt, ha, .inl rfl⟩⟩
    · have hbefore : Holds s (.loaded before) := (ih hearlier).symm
      obtain ⟨hattempts, hstatuses⟩ := hnext.holds hbefore
      exact ⟨hstatuses, hattempts⟩

/-- What the store has of the states that were saved, the last of which is `state`. -/
structure Durable (serviceUid : Nat) (schemas : RecordSchemas Event) (w : World (Response Event))
    (state : State Event) : Prop where
  /-- The texts that were linked are states, each the successor of the one before. -/
  history : History schemas w.published state
  valid : Valid schemas state
  /-- A later state keeps the statuses and the attempts of an earlier one. -/
  keeps : ∀ earlier before, History schemas earlier before → earlier <+: w.published →
    before.statuses <+: state.statuses ∧ ∀ attempt ∈ before.attempts, ∃ attempt' ∈ state.attempts, Follows attempt attempt'
  acknowledged : ∀ response ∈ w.acknowledged, Holds state response
  /-- Before the link of a state, `state.json` holds the state before. -/
  unlinked : Unlinked w → w.files.read () stateName = w.published.getLast?
  /-- From the link of a state on, the next read returns it. -/
  linked : ¬ Unlinked w → ∀ choice, ((load serviceUid schemas).exec (perform serviceUid choice) w).1 = .ok state

/-- In every state that a run reaches, with a crash between any two calls and any call failing, the states that
were saved are durable. -/
theorem authority_durable {process : Option (Operation Event Unit)}
    (run : Relation.ReflTransGen (authority serviceUid schemas).Step ⟨World.fresh, none⟩ ⟨w, process⟩) :
    ∃ state, Durable serviceUid schemas w state := by
  have h : Inv serviceUid schemas w := authority_inv run
  obtain ⟨state, hhistory, hheld⟩ := h.held
  refine ⟨state, hhistory, stateSchema_iff.mp hhistory.valid, fun _ _ hb hp => hhistory.keeps hb hp, hheld, h.kept, ?_⟩
  intro hlinked choice
  have hsafe : Safe (Performing serviceUid False) (Inv serviceUid schemas) (load serviceUid schemas)
      (Loaded (False ∨ Unlinked w) serviceUid schemas w) w := load_safe h
  have hloaded := hsafe.exec (performs_perform choice)
  generalize (load serviceUid schemas).exec (perform serviceUid choice) w = outcome at hloaded ⊢
  obtain ⟨r, w'⟩ := outcome
  obtain ⟨-, -, hr⟩ := hloaded
  cases r with
  | ok loaded => rw [hr.2.unique hhistory]
  | error failure => exact absurd hr (by simp [hlinked])

end

/-! ## A run -/

namespace Sample

/-- A text from which a list of texts is read back. -/
def text (words : List String) : String := String.join (words.map Json.string)

theorem text_injective : Function.Injective text := by
  intro words
  induction words with
  | nil =>
    rintro (_ | ⟨word, words⟩) h
    · rfl
    · have := congrArg String.toList h
      simp [text, String.toList_join, Json.string_toList] at this
  | cons word words ih =>
    rintro (_ | ⟨word', words'⟩) h
    · have := congrArg String.toList h
      simp [text, String.toList_join, Json.string_toList] at this
    · have hlist := congrArg String.toList h
      simp only [text, List.map_cons, String.join_cons, String.toList_append] at hlist
      obtain ⟨hword, hrest⟩ := Json.string_cancels word word' _ _ hlist
      rw [Json.string_inj.mp hword, ih (String.toList_inj.mp hrest)]

def number (n : Nat) : String := String.ofList (List.replicate n '1')

theorem number_injective : Function.Injective number := by
  intro n m h
  have := congrArg (fun s => s.toList.length) h
  simpa [number] using this

def descriptorText (d : QemuExecutionDescriptor) : String :=
  text [d.admissionGeneration, d.jobName, d.runnerBaseImage, number d.bounds.cpu, number d.bounds.memoryBytes,
    number d.bounds.pids,
    number d.bounds.wallClockSeconds, number d.bounds.outputBytes, d.projectId, d.repositoryId, d.protectedRef,
    d.expectedProtectedHead, d.candidateCommit, d.candidateTree, d.policyRevision, d.requiredReviewRevision,
    d.requiredJobSetRevision, d.configBlob.objectId, d.configBlob.sha256, d.script.path, d.script.objectId,
      d.script.sha256, d.jobImage]

theorem descriptorText_injective : Function.Injective descriptorText := by
  rintro ⟨_, _, _, ⟨_, _, _, _, _⟩, _, _, _, _, _, _, _, _, _, ⟨_, _⟩, ⟨_, _, _⟩, _⟩
    ⟨_, _, _, ⟨_, _, _, _, _⟩, _, _, _, _, _, _, _, _, _, ⟨_, _⟩, ⟨_, _, _⟩, _⟩ h
  have := text_injective h
  simpa [number_injective.eq_iff, and_assoc] using this

def attemptText (a : NativeQemuAttemptRecord) : String :=
  text [a.issuanceRequestId, a.attemptId, a.reviewId, number a.attempt, descriptorText a.descriptor, a.descriptorDigest,
    a.hostId, a.capacity, a.issuedAt, text a.revokedAt.toList]

theorem attemptText_injective : Function.Injective attemptText := by
  rintro ⟨_, _, _, _, _, _, _, _, _, revokedAt⟩ ⟨_, _, _, _, _, _, _, _, _, revokedAt'⟩ h
  have := text_injective h
  have hrevoked : revokedAt.toList = revokedAt'.toList ↔ revokedAt = revokedAt' := by
    cases revokedAt <;> cases revokedAt' <;> simp
  simpa [number_injective.eq_iff, descriptorText_injective.eq_iff, text_injective.eq_iff, hrevoked] using this

def resultText : QemuResult → String
  | .success => "success"
  | .failure => "failure"
  | .cancelled => "cancelled"

theorem resultText_injective : Function.Injective resultText := by
  intro result result'
  cases result <;> cases result' <;> decide

def statusText (status : StatusRecord String) : String :=
  text [status.eventId, status.attemptId, status.descriptorDigest, resultText status.result, status.event]

theorem statusText_injective : Function.Injective statusText := by
  rintro ⟨_, _, _, _, _⟩ ⟨_, _, _, _, _⟩ h
  have := text_injective h
  simpa [resultText_injective.eq_iff] using this

def stateText (state : State String) : String :=
  text [text (state.attempts.map attemptText), text (state.statuses.map statusText)]

theorem stateText_injective : Function.Injective stateText := by
  rintro ⟨attempts, statuses⟩ ⟨attempts', statuses'⟩ h
  have := text_injective h
  simpa [text_injective.eq_iff, (List.map_injective_iff.mpr attemptText_injective).eq_iff,
    (List.map_injective_iff.mpr statusText_injective).eq_iff] using this

noncomputable instance : StateText String where
  stringify := stateText
  parse text := open Classical in if h : ∃ state, stateText state ++ "\n" = text then some h.choose else none
  parse_stringify state := by
    have h : ∃ state', stateText state' ++ "\n" = stateText state ++ "\n" := ⟨state, rfl⟩
    rw [dif_pos h, Option.some.injEq]
    have htext := congrArg String.toList h.choose_spec
    simp only [String.toList_append] at htext
    exact stateText_injective (String.toList_inj.mp (List.append_cancel_right htext))

instance : HexSha256 where
  hex _ := "5a1f0c3be6d27498a0b1c2d3e4f5061728394a5b6c7d8e9f00112233445566aa"
  pattern _ := by decide +kernel

def descriptor : QemuExecutionDescriptor :=
  { admissionGeneration := "generation-a", jobName := "integration", runnerBaseImage := "runner", projectId := "project-a",
    bounds := { cpu := 2, memoryBytes := 1024, pids := 64, wallClockSeconds := 60, outputBytes := 1024 },
    repositoryId := "root", protectedRef := "refs/heads/main", expectedProtectedHead := "head", candidateCommit := "commit",
    candidateTree := "tree", policyRevision := "policy-a", requiredReviewRevision := "review-a",
      requiredJobSetRevision := "jobs-a",
    configBlob := { objectId := "config", sha256 := "sha256:config" },
    script := { path := ".dim/ci/jobs/integration.bash", objectId := "script", sha256 := "sha256:script" },
      jobImage := "job" }

def input : IssueInput :=
  { issuanceRequestId := "00000000-0000-4000-8000-000000000001", reviewId := "review", descriptor,
    descriptorDigest := "sha256:descriptor", hostId := "host-a", capacity := "kvm-a" }

def choice : Choice (Request String) where
  uuid := "00000000-0000-4000-8000-000000000021"
  valid := by decide +kernel
  now := "2026-01-01T00:00:00.000Z"
  request := .issue input

def schemas : RecordSchemas String := ⟨fun _ => true, fun _ => true⟩

theorem boot_exec :
    (assertNativeQemuAuthorityStore 0 schemas).exec (perform 0 choice) World.fresh = (.ok (), World.fresh) := rfl

/-- What is left of a program, and the world, where every call does what it may do. -/
theorem steps_exec (p : Operation String Unit) (w : World (Response String)) :
    Relation.ReflTransGen (authority 0 schemas).Step ⟨w, some p⟩
      ⟨(p.exec (perform 0 choice) w).2, some (.ended (p.exec (perform 0 choice) w).1)⟩ :=
  Machine.steps_of_reaches (reaches_exec (performs_perform choice) p w)

/-- The start and the request, and then a crash. -/
theorem issued_reached : Relation.ReflTransGen (authority 0 schemas).Step ⟨World.fresh, none⟩
    ⟨((serve 0 schemas).exec (perform 0 choice) World.fresh).2, none⟩ := by
  have hboot := steps_exec (assertNativeQemuAuthorityStore 0 schemas) World.fresh
  rw [boot_exec] at hboot
  have hstarted : Relation.ReflTransGen (authority 0 schemas).Step ⟨World.fresh, none⟩
    ⟨World.fresh, some (serve 0 schemas)⟩ :=
    ((Relation.ReflTransGen.single .started).trans hboot).tail .again
  exact Machine.steps_crash (hstarted.trans (steps_exec (serve 0 schemas) World.fresh))

end Sample

/-- The attempt that a request issued is held after a crash. -/
theorem authority_durable_issued :
    ∃ state, Durable 0 Sample.schemas ((serve 0 Sample.schemas).exec (perform 0 Sample.choice) World.fresh).2 state :=
  authority_durable Sample.issued_reached

end Dim.Qemu.Authority
