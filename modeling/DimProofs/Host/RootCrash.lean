/-
What creations and cleanups of a private root leave, with a crash between any two calls. A cleanup removes
nothing but a directory of its claim, and succeeds on whatever a crash left, unless a recursive removal was
interrupted when it had removed the marker: then no later cleanup removes the rest.
-/
import DimProofs.Host.PrivateRoot
import DimProofs.Lib.Run

namespace Dim.Host

open Effectful Files

/-! ## The text of a marker -/

section
open Pattern

theorem escape_uuidChar {c : Char} (h : uuidChar c = true) : Json.escape c = String.ofList [c] := by
  have hle : ∀ a b : Char, a ≤ b → a.toNat ≤ b.toNat := fun a b h => UInt32.le_iff_toNat_le.mp h
  have hrange : 0x2d ≤ c.toNat ∧ c.toNat < 0x5c ∨ 0x61 ≤ c.toNat := by
    simp only [uuidChar, hex, digit, within, Bool.or_eq_true, Bool.and_eq_true, decide_eq_true_eq] at h
    rcases h with (⟨hlow, hhigh⟩ | ⟨hlow, -⟩) | rfl
    · have h₁ : 0x30 ≤ c.toNat := hle _ _ hlow
      have h₂ : c.toNat ≤ 0x39 := hle _ _ hhigh
      omega
    · exact .inr (hle _ _ hlow)
    · decide
  unfold Json.escape
  rw [if_neg (by omega), if_neg (by omega), if_neg (by omega), if_neg (by omega), if_neg (by omega), if_neg (by omega),
    if_neg (by omega), if_neg (by omega)]

theorem string_uuidChar {s : String} (h : s.toList.all uuidChar = true) :
    (Json.string s).toList = '"' :: s.toList ++ ['"'] := by
  rw [List.all_eq_true] at h
  have hflat : s.toList.flatMap (fun c => (Json.escape c).toList) = s.toList := by
    calc s.toList.flatMap (fun c => (Json.escape c).toList)
        = s.toList.flatMap (fun c => [c]) := List.flatMap_congr fun c hc => by
          rw [escape_uuidChar (h c hc), String.toList_ofList]
      _ = s.toList := by simp
  rw [Json.string_toList, hflat]

theorem rootId_chars {s : String} (h : rootIdPattern s = true) : s.toList.all uuidChar = true ∧ s.toList.length = 36 := by
  refine sequence_all h ?_
  intro p hp
  simp only [List.mem_append, List.mem_cons, List.mem_replicate, List.not_mem_nil, or_false] at hp
  have hcases : p = hex ∨ p = only '-' := by tauto
  rcases hcases with rfl | rfl
  · exact Narrows.left (.refl hex)
  · exact Narrows.only (by decide)

theorem markerBytes_toList (root : ClaimRoot) : root.markerBytes.toList =
    "\x7b\"schemaVersion\":1,\"rootId\":\"".toList ++ root.rootId.toList ++ "\",\"claimId\":\"".toList ++
      root.claimId.toList ++ "\"\x7d".toList := by
  have hrootId := string_uuidChar (rootId_chars root.rootIdValid).1
  have hclaimId := string_uuidChar (uuid_chars root.claimIdValid).1
  have hname₁ : (Json.string "schemaVersion").toList = "\"schemaVersion\"".toList := by decide +kernel
  have hname₂ : (Json.string "rootId").toList = "\"rootId\"".toList := by decide +kernel
  have hname₃ : (Json.string "claimId").toList = "\"claimId\"".toList := by decide +kernel
  simp [ClaimRoot.markerBytes, Json.object, String.intercalate_cons_cons, hrootId, hclaimId, hname₁, hname₂, hname₃]

theorem markerBytes_ascii (root : ClaimRoot) : root.markerBytes.toList.all ascii = true := by
  have hnarrow : ∀ s : String, s.toList.all uuidChar = true → s.toList.all ascii = true := fun s h => by
    rw [List.all_eq_true] at h ⊢
    exact fun c hc => uuidChar_ascii c (h c hc)
  rw [markerBytes_toList]
  simp only [List.all_append, Bool.and_eq_true]
  refine ⟨⟨⟨⟨by decide +kernel, hnarrow _ (rootId_chars root.rootIdValid).1⟩, by decide +kernel⟩,
    hnarrow _ (uuid_chars root.claimIdValid).1⟩, by decide +kernel⟩

/-- Every part of a marker is as long in bytes as in characters. -/
theorem size_of_part {root : ClaimRoot} {text : String} (h : text.toList <+: root.markerBytes.toList) :
    text.utf8ByteSize = text.length ∧ text.length ≤ root.markerBytes.length := by
  refine ⟨utf8ByteSize_ascii text ?_, by rw [← String.length_toList, ← String.length_toList]; exact h.length_le⟩
  have hall := markerBytes_ascii root
  rw [List.all_eq_true] at hall ⊢
  exact fun c hc => hall c (h.subset hc)

theorem markerBytes_length (root : ClaimRoot) : root.markerBytes.length = 116 := by
  have h := congrArg List.length (markerBytes_toList root)
  simp only [List.length_append, (rootId_chars root.rootIdValid).2, (uuid_chars root.claimIdValid).2] at h
  rw [← String.length_toList, h]
  decide +kernel

end

section
variable {serviceUid : Nat} {left : List (String × Node) → List (String × Node) → Prop}
  {parse : String → Option MarkerRecord} {root : ClaimRoot} {identity : NativeHostPrivateRootIdentity}

/-! ## The rules of the calls -/

section
variable {I : RootFiles → Prop} {w : RootFiles} {α : Type}

theorem safe_call {c : RootCall} {Q : Except RootFailure c.Value → RootFiles → Prop}
    (hok : ∀ value w', perform serviceUid c w = (.ok value, w') → I w' ∧ Q (.ok value) w')
    (herror : ∀ errno w', perform serviceUid c w = (.error errno, w') → I w' ∧ Q (.error (.errno errno)) w')
    (hfail : ∀ w', FailedAfter left c w w' → I w' ∧ Q (.error (.errno .other)) w') :
    Safe (performs serviceUid left) I (call c) Q w := by
  rintro (errno | value) w' (h | ⟨h, hfailed⟩)
  · exact herror errno w' h.symm
  · cases h
    exact hfail w' hfailed
  · exact hok value w' h.symm
  · cases h

theorem performs_perform (c : RootCall) (w : RootFiles) :
    performs serviceUid left c w (perform serviceUid c w).1 (perform serviceUid c w).2 := .inl rfl

/-- The calls that change nothing. -/
def RootCall.reads : RootCall → Bool
  | .lstatParent | .lstat _ | .sync | .close | .openMarker _ | .lstatMarker _ | .readdir => true
  | _ => false

theorem perform_reads {c : RootCall} (hc : c.reads = true) : (perform serviceUid c w).2 = w := by
  cases c with
  | lstatParent | lstat | lstatMarker =>
    simp only [perform, RootFiles.answer]
    split <;> rfl
  | openMarker =>
    simp only [perform]
    split <;> try split
    all_goals rfl
  | readdir =>
    simp only [perform]
    split <;> rfl
  | sync | close => rfl
  | _ => cases hc

theorem failedAfter_reads {c : RootCall} {w' : RootFiles} (hc : c.reads = true) (h : FailedAfter left c w w') : w' = w := by
  cases c <;> first | exact h | cases hc

/-- A call that changes nothing answers what it reads, or an error. -/
theorem safe_read {c : RootCall} {Q : Except RootFailure c.Value → RootFiles → Prop} (hc : c.reads = true) (hI : I w)
    (hok : ∀ value, perform serviceUid c w = (.ok value, w) → Q (.ok value) w)
    (herror : ∀ failure, Q (.error failure) w) : Safe (performs serviceUid left) I (call c) Q w := by
  refine safe_call (fun value w' h => ?_) (fun errno w' h => ?_) fun w' h => ?_
  · obtain rfl : w' = w := (congrArg Prod.snd h).symm.trans (perform_reads hc)
    exact ⟨hI, hok value h⟩
  · obtain rfl : w' = w := (congrArg Prod.snd h).symm.trans (perform_reads hc)
    exact ⟨hI, herror _⟩
  · rw [failedAfter_reads hc h]
    exact ⟨hI, herror _⟩

end

/-! ## Programs that read -/

section
variable {w : RootFiles} {place : Place}

theorem reads_call {c : RootCall} {R : Except RootFailure c.Value → Prop} (hc : c.reads = true)
    (hok : ∀ value, perform serviceUid c w = (.ok value, w) → R (.ok value)) (herror : ∀ failure, R (.error failure)) :
    Reading (performs serviceUid left) (call c) R w :=
  safe_read hc rfl (fun value h => ⟨rfl, hok value h⟩) fun failure => ⟨rfl, herror failure⟩

theorem reads_any {c : RootCall} (hc : c.reads = true) : Reading (performs serviceUid left) (call c) (fun _ => True) w :=
  reads_call hc (fun _ _ => trivial) fun _ => trivial

theorem answer_ok {α : Type} {o : Option α} {value : α} {w' : RootFiles} (h : w.answer o = (.ok value, w')) :
    o = some value := by
  cases o <;> cases h
  rfl

/-- `true` is answered for a name that exists, `false` for one that does not. -/
theorem reads_pathExists : Reading (performs serviceUid left) (pathExists place)
    (fun r => ∀ b, r = .ok b → (b = true ↔ (w.at place).isSome)) w := by
  refine Reading.orElse (R := fun r => (∀ b, r = .ok b → b = true ∧ (w.at place).isSome) ∧
    (r = .error (.errno .missing) → (w.at place) = none)) ?_ ?_ ?_
  · refine Safe.andThen (P := fun r w' => w' = w ∧ (∀ m, r = .ok m → (w.at place).isSome) ∧
      (r = .error (.errno .missing) → w.at place = none)) ?_ ?_ ?_
    · refine safe_call (fun m w' h => ?_) (fun errno w' h => ?_) fun w' h => ?_
      · obtain rfl : w' = w := (congrArg Prod.snd h).symm.trans (perform_reads rfl)
        obtain ⟨node, hnode, -⟩ := Option.map_eq_some_iff.mp (answer_ok h)
        exact ⟨rfl, rfl, fun _ _ => by simp [hnode], nofun⟩
      · obtain rfl : w' = w := (congrArg Prod.snd h).symm.trans (perform_reads rfl)
        refine ⟨rfl, rfl, nofun, fun _ => ?_⟩
        cases hat : w'.at place with
        | none => rfl
        | some node =>
          simp only [perform, hat, RootFiles.answer] at h
          cases h
      · obtain rfl : w' = w := h
        exact ⟨rfl, rfl, nofun, nofun⟩
    · rintro m w' ⟨rfl, h, -⟩
      exact ⟨rfl, fun b hb => ⟨(Except.ok.inj hb).symm, h m rfl⟩, nofun⟩
    · rintro failure w' ⟨rfl, -, h⟩
      exact ⟨rfl, nofun, fun he => h (by cases he; rfl)⟩
  · rintro b ⟨h, -⟩ b' hb
    cases hb
    obtain ⟨rfl, hsome⟩ := h b rfl
    simp [hsome]
  · rintro failure ⟨-, h⟩
    split
    · rename_i hf
      subst hf
      refine reading_pure fun b hb => ?_
      cases hb
      simp [h rfl]
    · exact reading_throw nofun

theorem reads_orNone {c : RootCall} {S : c.Value → Prop} (hc : c.reads = true)
    (hok : ∀ value, perform serviceUid c w = (.ok value, w) → S value) :
    Reading (performs serviceUid left) (tryCatch (do let value ← call c; pure (some value)) fun _ => pure none)
      (fun r => ∃ o, r = .ok o ∧ ∀ value, o = some value → S value) w := by
  refine Reading.orElse (R := fun r => ∀ o, r = .ok o → ∀ value, o = some value → S value) ?_ (fun o h => ⟨o, rfl, h o rfl⟩)
    fun _ _ => reading_pure ⟨none, rfl, nofun⟩
  refine Reading.andThen (R := fun r => ∀ value, r = .ok value → S value)
    (reads_call hc (fun value h _ hv => Except.ok.inj hv ▸ hok value h) fun _ => nofun) (fun value h => ?_) fun _ _ => nofun
  refine reading_pure ?_
  rintro o ho value' rfl
  cases ho
  exact h value rfl

theorem reads_safeLstat : Reading (performs serviceUid left) (safeLstat place)
    (fun r => ∃ o, r = .ok o ∧ ∀ m, o = some m → (w.at place).map Node.metadata = some m) w :=
  reads_orNone rfl fun _ => answer_ok

theorem reads_safeLstatParent : Reading (performs serviceUid left) safeLstatParent
    (fun r => ∃ o, r = .ok o ∧ ∀ m, o = some m → w.parent = some m) w :=
  reads_orNone rfl fun _ => answer_ok

/-- What `true` says of the marker. -/
theorem reads_withOpenMarker {body : Metadata × String → RootProgram Bool} {test : Metadata × String → Bool}
    (hbody : ∀ marker, Reading (performs serviceUid left) (body marker) (fun r => r = .ok true → test marker = true) w) :
    Reading (performs serviceUid left) (withOpenMarker place body)
      (fun r => r = .ok true → ∃ marker, perform serviceUid (.openMarker place) w = (.ok marker, w) ∧
        test marker = true) w := by
  refine Reading.andThen (R := fun r => ∀ marker, r = .ok (some marker) →
    perform serviceUid (.openMarker place) w = (.ok marker, w)) ?_ ?_ fun _ _ => nofun
  · refine Reading.orElse (R := fun r => ∀ marker, r = .ok (some marker) →
      perform serviceUid (.openMarker place) w = (.ok marker, w)) ?_ (fun _ h => h) fun _ _ => reading_pure nofun
    refine Reading.andThen (R := fun r => ∀ marker, r = .ok marker →
      perform serviceUid (.openMarker place) w = (.ok marker, w))
      (reads_call rfl (fun marker h m hm => by cases hm; exact h) nofun) (fun marker h => ?_) fun _ _ => nofun
    refine reading_pure fun m hm => ?_
    cases hm
    exact h marker rfl
  · intro o ho
    cases o with
    | none => exact reading_pure nofun
    | some marker =>
      refine Reading.andFinally (Reading.orElse (hbody marker) (fun value h hv => ⟨marker, ho marker rfl, h hv⟩)
        fun _ _ => reading_pure nofun) (reads_call rfl (fun _ _ => trivial) fun _ => trivial) fun _ => nofun

theorem openMarker_regular {marker : Metadata × String} (h : perform serviceUid (.openMarker place) w = (.ok marker, w))
    (hkind : marker.1.kind = .regular) : ∃ attributes text, w.marker place = some (.file .regular attributes text) ∧
      marker = ({ attributes with kind := .regular }, text) := by
  simp only [perform] at h
  split at h
  · cases h
  · cases h
  · rename_i kind attributes text hne hmarker
    cases h
    cases kind with
    | regular => exact ⟨attributes, text, hmarker, rfl⟩
    | symlink => cases hkind
    | special => cases hkind
  · cases h
    cases hkind

end

/-! ## What a cleanup does -/

/-- A private directory that holds nothing but a part of the claim's marker. -/
structure OwnedStaging (serviceUid : Nat) (root : ClaimRoot) (attributes : Attributes) (entries : List (String × Node)) :
    Prop where
  directory : isPrivateDirectory serviceUid { attributes with kind := .directory } = true
  marker : entries = [] ∨ ∃ a text, entries = [(markerName, .file .regular a text)] ∧
    isPrivateMarker serviceUid { a with kind := .regular } = true ∧ text.toList <+: root.markerBytes.toList

/-- A private directory of the identity, with a marker of the claim. -/
structure OwnedFinal (serviceUid : Nat) (parse : String → Option MarkerRecord) (identity : NativeHostPrivateRootIdentity)
    (root : ClaimRoot) (attributes : Attributes) (entries : List (String × Node)) : Prop where
  directory : isPrivateDirectory serviceUid { attributes with kind := .directory } = true
  identity : matchesCreatedIdentity { attributes with kind := .directory } identity = true
  marker : ∃ a text, entries.lookup markerName = some (.file .regular a text) ∧
    isPrivateMarker serviceUid { a with kind := .regular } = true ∧ parse text = some root.record

/-- The files at any point of a cleanup that began with `w`. -/
inductive Cleaned (serviceUid : Nat) (left : List (String × Node) → List (String × Node) → Prop)
    (parse : String → Option MarkerRecord) (identity : NativeHostPrivateRootIdentity) (root : ClaimRoot) (w : RootFiles) :
    RootFiles → Prop
  | unchanged : Cleaned serviceUid left parse identity root w w
  | emptied {attributes : Attributes} {entries : List (String × Node)} (h : w.staging = some (.directory attributes entries))
    (ho : OwnedStaging serviceUid root attributes entries) :
    Cleaned serviceUid left parse identity root w { w with staging := some (.directory attributes []) }
  | unstaged {attributes : Attributes} {entries : List (String × Node)}
      (h : w.staging = some (.directory attributes entries))
    (ho : OwnedStaging serviceUid root attributes entries) :
    Cleaned serviceUid left parse identity root w { w with staging := none }
  | shrunk {attributes : Attributes} {entries entries' : List (String × Node)}
    (h : w.final = some (.directory attributes entries)) (ho : OwnedFinal serviceUid parse identity root attributes entries)
    (hl : left entries entries') :
    Cleaned serviceUid left parse identity root w { w with final := some (.directory attributes entries') }
  | removed {attributes : Attributes} {entries : List (String × Node)} (h : w.final = some (.directory attributes entries))
    (ho : OwnedFinal serviceUid parse identity root attributes entries) :
    Cleaned serviceUid left parse identity root w { w with final := none }

section
variable {w w' : RootFiles}

theorem perform_error {c : RootCall} {errno : Errno} (h : perform serviceUid c w = (.error errno, w')) : w' = w := by
  by_cases hc : c.reads = true
  · exact (congrArg Prod.snd h).symm.trans (perform_reads hc)
  cases c with
  | mkdir | chmod | createMarker | rename | unlinkMarker | rmdir | rm =>
    simp only [perform] at h
    split at h <;> try split at h
    all_goals cases h
    all_goals rfl
  | chmodMarker | writeMarker => cases h
  | _ => exact absurd rfl hc

/-- A call that fails as if it had not been made. -/
theorem safe_change {I : RootFiles → Prop} {c : RootCall} {Q : Except RootFailure c.Value → RootFiles → Prop}
    (hfailed : ∀ w', FailedAfter left c w w' → w' = w) (hI : I w) (herror : ∀ failure, Q (.error failure) w)
    (hok : ∀ value w', perform serviceUid c w = (.ok value, w') → I w' ∧ Q (.ok value) w') :
    Safe (performs serviceUid left) I (call c) Q w :=
  safe_call hok (fun _ _ hp => perform_error hp ▸ ⟨hI, herror _⟩) fun w' h => hfailed w' h ▸ ⟨hI, herror _⟩

theorem removeStaging_safe {attributes : Attributes} {entries : List (String × Node)}
    (h : w.staging = some (.directory attributes entries)) (ho : OwnedStaging serviceUid root attributes entries) :
    Safe (performs serviceUid left) (Cleaned serviceUid left parse identity root w) (removeStaging (entries.map (·.1)))
      (fun _ => Cleaned serviceUid left parse identity root w) w := by
  have hrmdir : ∀ w₁, (w₁ = w ∧ entries = [] ∨ w₁ = { w with staging := some (.directory attributes []) }) →
      Safe (performs serviceUid left) (Cleaned serviceUid left parse identity root w)
        (do call .rmdir; call .sync; return true) (fun _ => Cleaned serviceUid left parse identity root w) w₁ := by
    intro w₁ hw₁
    have hempty : w₁.staging = some (.directory attributes []) := by
      rcases hw₁ with ⟨rfl, rfl⟩ | rfl
      · exact h
      · rfl
    have hsame : ({ w₁ with staging := none } : RootFiles) = { w with staging := none } := by
      rcases hw₁ with ⟨rfl, -⟩ | rfl <;> rfl
    have hstart : Cleaned serviceUid left parse identity root w w₁ := by
      rcases hw₁ with ⟨rfl, -⟩ | rfl
      · exact .unchanged
      · exact .emptied h ho
    refine Safe.andThen (P := fun _ => Cleaned serviceUid left parse identity root w) ?_ ?_ fun _ _ h => h
    · refine safe_change (fun _ h => h) hstart (fun _ => hstart) fun _ w' hp => ?_
      simp only [perform, hempty] at hp
      have hw' : { w₁ with staging := none } = w' := congrArg Prod.snd hp
      rw [← hw', hsame]
      exact ⟨.unstaged h ho, .unstaged h ho⟩
    · intro _ w₂ h₂
      exact (reads_any rfl).thenSafe h₂ (fun _ _ => h₂) fun _ _ => h₂
  unfold removeStaging
  rcases ho.marker with hnil | ⟨a, text, hentries, -, -⟩
  · rw [if_pos (by simp [hnil])]
    exact hrmdir w (.inl ⟨rfl, hnil⟩)
  · rw [if_neg (by simp [hentries])]
    refine Safe.andThen (P := fun r w₁ => Cleaned serviceUid left parse identity root w w₁ ∧
      (r = .ok () → w₁ = { w with staging := some (.directory attributes []) })) ?_ ?_ fun _ _ h => h.1
    · refine safe_change (fun _ h => h) .unchanged (fun _ => ⟨.unchanged, nofun⟩) fun _ w' hp => ?_
      simp only [perform, h, hentries, List.lookup, beq_self_eq_true] at hp
      have hw' : w' = { w with staging := some (.directory attributes []) } := by
        refine (congrArg Prod.snd hp).symm.trans ?_
        simp
      rw [hw']
      exact ⟨.emptied h ho, .emptied h ho, fun _ => rfl⟩
    · rintro _ w₁ ⟨-, hw₁⟩
      exact hrmdir w₁ (.inr (hw₁ rfl))

theorem node_directory {node : Node} (h : isPrivateDirectory serviceUid node.metadata = true) :
    ∃ attributes entries, node = .directory attributes entries ∧
      isPrivateDirectory serviceUid { attributes with kind := .directory } = true := by
  cases node with
  | file kind attributes text => cases kind <;> simp [isPrivateDirectory, Node.metadata, FileKind.kind] at h
  | directory attributes entries => exact ⟨attributes, entries, rfl, h⟩

theorem isPrivateMarker_regular {metadata : Metadata} (h : isPrivateMarker serviceUid metadata = true) :
    metadata.kind = .regular := by
  simp only [isPrivateMarker, Bool.and_eq_true, decide_eq_true_eq] at h
  exact h.1.1.1

/-- A staging directory that `cleanupStaging` accepts. -/
theorem ownedStaging_of_names {attributes : Attributes} {entries : List (String × Node)}
    (h : w.staging = some (.directory attributes entries))
    (hd : isPrivateDirectory serviceUid { attributes with kind := .directory } = true)
    (hnames : stagingNames (entries.map (·.1)) = true)
    (hmarker : entries.map (·.1) ≠ [] → ∃ marker, perform serviceUid (.openMarker .staging) w = (.ok marker, w) ∧
      (isPrivateMarker serviceUid marker.1 && marker.2.toList.isPrefixOf root.markerBytes.toList) = true) :
    OwnedStaging serviceUid root attributes entries := by
  refine ⟨hd, ?_⟩
  simp only [stagingNames, Bool.or_eq_true, decide_eq_true_eq] at hnames
  rcases hnames with hnil | hone
  · exact .inl (List.map_eq_nil_iff.mp hnil)
  · obtain ⟨marker, hopen, htest⟩ := hmarker (by rw [hone]; exact List.cons_ne_nil _ _)
    simp only [Bool.and_eq_true, List.isPrefixOf_iff_prefix] at htest
    obtain ⟨a, text, hnode, rfl⟩ := openMarker_regular hopen (isPrivateMarker_regular htest.1)
    cases entries with
    | nil => cases hone
    | cons entry rest =>
      obtain ⟨name, node⟩ := entry
      simp only [List.map_cons, List.cons.injEq, List.map_eq_nil_iff] at hone
      obtain ⟨rfl, rfl⟩ := hone
      simp only [RootFiles.marker, RootFiles.at, h, List.lookup, beq_self_eq_true, Option.some.injEq] at hnode
      subst hnode
      exact .inr ⟨a, text, rfl, htest⟩

theorem cleanupStaging_safe {parent : Metadata} :
    Safe (performs serviceUid left) (Cleaned serviceUid left parse identity root w)
      (cleanupStaging serviceUid parent root.markerBytes) (fun _ => Cleaned serviceUid left parse identity root w) w := by
  have hstart : Cleaned serviceUid left parse identity root w w := .unchanged
  refine Safe.orElse (P := fun _ => Cleaned serviceUid left parse identity root w) ?_ (fun _ _ h => h) fun _ _ h => h
  refine Reading.thenSafe (R := fun r => ∀ m, r = .ok m → w.staging.map Node.metadata = some m)
    (reads_call rfl (fun m h m' hm => Except.ok.inj hm ▸ answer_ok h) fun _ => nofun) hstart
      (fun m hm => ?_) fun _ _ => hstart
  split
  · exact hstart
  rename_i hprivate
  obtain ⟨node, hnode, rfl⟩ := Option.map_eq_some_iff.mp (hm m rfl)
  obtain ⟨attributes, entries, rfl, hd⟩ := node_directory (by simpa using hprivate)
  refine Reading.thenSafe (R := fun r => ∀ names, r = .ok names → names = entries.map (·.1))
    (reads_call rfl (fun names h names' hn => ?_) fun _ => nofun) hstart (fun names hnames => ?_) fun _ _ => hstart
  · cases hn
    simp only [perform, hnode] at h
    exact (Except.ok.inj (congrArg Prod.fst h)).symm
  obtain rfl := hnames names rfl
  split
  · exact hstart
  rename_i hstaging
  have hremovable : Reading (performs serviceUid left) (removableEntries serviceUid root.markerBytes (entries.map (·.1)))
      (fun r => r = .ok true → entries.map (·.1) ≠ [] → ∃ marker,
        perform serviceUid (.openMarker .staging) w = (.ok marker, w) ∧
          (isPrivateMarker serviceUid marker.1 && marker.2.toList.isPrefixOf root.markerBytes.toList) = true) w := by
    unfold removableEntries
    split
    · rename_i hnil
      exact reading_pure fun _ hne => absurd hnil hne
    · refine (reads_withOpenMarker fun marker => ?_).imp fun r h hr _ => h hr
      refine Reading.andThen (R := fun _ => True) (reads_call rfl (fun _ _ => trivial) fun _ => trivial)
        (fun current _ => reading_pure fun h => ?_) fun _ _ => nofun
      simp only [Except.ok.injEq, removableMarker, Bool.and_eq_true] at h
      simp [h.1.1.1, h.1.2]
  refine hremovable.thenSafe hstart (fun removable hmarker => ?_) fun _ _ => hstart
  split
  · exact hstart
  rename_i hr
  have ho : OwnedStaging serviceUid root attributes entries :=
    ownedStaging_of_names hnode hd (by simpa using hstaging) (hmarker (by simpa using hr))
  refine (reads_any rfl).thenSafe hstart (fun current _ => ?_) fun _ _ => hstart
  refine (reads_any rfl).thenSafe hstart (fun currentParent _ => ?_) fun _ _ => hstart
  split
  · exact hstart
  · exact removeStaging_safe hnode ho

/-- The recursive removal, which may be interrupted. -/
theorem removeFinal_safe {attributes : Attributes} {entries : List (String × Node)}
    (h : w.final = some (.directory attributes entries))
    (ho : OwnedFinal serviceUid parse identity root attributes entries) :
    Safe (performs serviceUid left) (Cleaned serviceUid left parse identity root w)
      (tryCatch (do call .rm; call .sync; pure true) fun _ => pure false : RootProgram Bool)
      (fun _ => Cleaned serviceUid left parse identity root w) w := by
  refine Safe.orElse (P := fun _ => Cleaned serviceUid left parse identity root w) ?_ (fun _ _ h => h) fun _ _ h => h
  refine Safe.andThen (P := fun _ => Cleaned serviceUid left parse identity root w) ?_ (fun _ w₁ h₁ => ?_) fun _ _ h => h
  · refine safe_call (fun _ w' hp => ?_) (fun _ w' hp => ?_) fun w' hp => ?_
    · simp only [perform, h] at hp
      have hw' : { w with final := none } = w' := congrArg Prod.snd hp
      rw [← hw']
      exact ⟨.removed h ho, .removed h ho⟩
    · rw [perform_error hp]
      exact ⟨.unchanged, .unchanged⟩
    · rcases hp with rfl | ⟨attributes', entries', entries'', hfinal, hl, rfl⟩
      · exact ⟨.unchanged, .unchanged⟩
      · cases h.symm.trans hfinal
        exact ⟨.shrunk h ho hl, .shrunk h ho hl⟩
  · exact (reads_any rfl).thenSafe h₁ (fun _ _ => h₁) fun _ _ => h₁

theorem cleanupFinal_safe {parent : Metadata} :
    Safe (performs serviceUid left) (Cleaned serviceUid left parse identity root w)
      (cleanupFinal serviceUid parse identity root parent) (fun _ => Cleaned serviceUid left parse identity root w) w := by
  have hstart : Cleaned serviceUid left parse identity root w w := .unchanged
  refine reads_safeLstat.thenSafe hstart (fun o ho => ?_) fun _ _ => hstart
  obtain ⟨_, ho, hm⟩ := ho
  cases ho
  split
  · exact hstart
  rename_i metadata
  split
  · exact hstart
  rename_i hmatch
  simp only [Bool.not_eq_true, Bool.not_eq_false', Bool.and_eq_true] at hmatch
  obtain ⟨node, hnode, rfl⟩ := Option.map_eq_some_iff.mp (hm metadata rfl)
  obtain ⟨attributes, entries, rfl, hd⟩ := node_directory hmatch.1
  have hfinal : w.final = some (.directory attributes entries) := hnode
  have hmarker : Reading (performs serviceUid left) (markerMatches serviceUid parse .final root)
      (fun r => r = .ok true → ∃ marker, perform serviceUid (.openMarker .final) w = (.ok marker, w) ∧
        matchingMarker serviceUid parse root marker = true) w :=
    reads_withOpenMarker fun marker => reading_pure fun h => Except.ok.inj h
  refine hmarker.thenSafe hstart (fun matching ho => ?_) fun _ _ => hstart
  split
  · exact hstart
  rename_i htrue
  have hown : OwnedFinal serviceUid parse identity root attributes entries := by
    obtain ⟨marker, hopen, htest⟩ := ho (by simpa using htrue)
    simp only [matchingMarker, Bool.and_eq_true, decide_eq_true_eq] at htest
    obtain ⟨a, text, hfile, rfl⟩ := openMarker_regular hopen (isPrivateMarker_regular htest.1.1.1)
    simp only [RootFiles.marker, RootFiles.at, hfinal] at hfile
    exact ⟨hd, hmatch.2, a, text, hfile, htest.1.1.1, htest.2⟩
  refine reads_safeLstat.thenSafe hstart (fun current _ => ?_) fun _ _ => hstart
  refine reads_safeLstatParent.thenSafe hstart (fun currentParent _ => ?_) fun _ _ => hstart
  split
  · split
    · exact hstart
    · exact removeFinal_safe hfinal hown
  · exact hstart

/-- Whatever happens in a cleanup, it changes no directory but the claim's. -/
theorem cleanup_safe : Safe (performs serviceUid left) (Cleaned serviceUid left parse identity root w)
    (cleanup serviceUid parse identity root) (fun _ => Cleaned serviceUid left parse identity root w) w := by
  have hstart : Cleaned serviceUid left parse identity root w w := .unchanged
  refine reads_safeLstatParent.thenSafe hstart (fun o _ => ?_) fun _ _ => hstart
  split
  · exact hstart
  split
  · exact hstart
  refine reads_pathExists.thenSafe hstart (fun stagingExists _ => ?_) fun _ _ => hstart
  refine reads_pathExists.thenSafe hstart (fun finalExists _ => ?_) fun _ _ => hstart
  split
  · exact hstart
  split
  · exact cleanupStaging_safe
  split
  · exact hstart
  · exact cleanupFinal_safe

end

/-! ## What a creation does -/

/-- The staging directory before its marker is there. -/
structure EmptyStaging (serviceUid : Nat) (w w' : RootFiles) : Prop where
  absent : w.staging = none
  parent : w'.parent = w.parent
  final : w'.final = w.final
  staging : ∃ a, w'.staging = some (.directory a []) ∧ isPrivateDirectory serviceUid { a with kind := .directory } = true

/-- The staging directory with a marker of this text. -/
structure MarkedStaging (serviceUid : Nat) (w : RootFiles) (text : String) (w' : RootFiles) : Prop where
  absent : w.staging = none
  parent : w'.parent = w.parent
  final : w'.final = w.final
  staging : ∃ a m, w'.staging = some (.directory a [(markerName, .file .regular m text)]) ∧
    isPrivateDirectory serviceUid { a with kind := .directory } = true ∧
    isPrivateMarker serviceUid { m with kind := .regular } = true

/-- The directory under its name, with its marker. -/
structure Published (serviceUid : Nat) (root : ClaimRoot) (w w' : RootFiles) : Prop where
  absent : w.staging = none ∧ w.final = none
  parent : w'.parent = w.parent
  staging : w'.staging = none
  final : ∃ a m, w'.final = some (.directory a [(markerName, .file .regular m root.markerBytes)]) ∧
    isPrivateDirectory serviceUid { a with kind := .directory } = true ∧
    isPrivateMarker serviceUid { m with kind := .regular } = true

/-- The files at any point of a creation that began with `w`. -/
inductive Created (serviceUid : Nat) (root : ClaimRoot) (w w' : RootFiles) : Prop
  | unchanged (h : w' = w)
  | empty (h : EmptyStaging serviceUid w w')
  | marked {text : String} (h : MarkedStaging serviceUid w text w') (ht : text.toList <+: root.markerBytes.toList)
  | published (h : Published serviceUid root w w')

section
variable {w w' : RootFiles} {text : String}

theorem mkdir_safe : Safe (performs serviceUid left) (Created serviceUid root w) (call .mkdir)
    (fun r w' => Created serviceUid root w w' ∧ (r = .ok () → EmptyStaging serviceUid w w')) w := by
  refine safe_change (fun _ h => h) (.unchanged rfl) (fun _ => ⟨.unchanged rfl, nofun⟩) fun _ w' hp => ?_
  simp only [perform] at hp
  split at hp
  · cases hp
  · cases hp
  · rename_i parent hparent hstaging
    have hw' : EmptyStaging serviceUid w w' := by
      rw [← show _ = w' from congrArg Prod.snd hp]
      exact ⟨hstaging, rfl, rfl, _, rfl, by simp [isPrivateDirectory, RootFiles.stagingDirectory]⟩
    exact ⟨.empty hw', .empty hw', fun _ => hw'⟩

theorem chmod_safe (h : EmptyStaging serviceUid w w') : Safe (performs serviceUid left) (Created serviceUid root w)
    (call .chmod) (fun _ => EmptyStaging serviceUid w) w' := by
  refine safe_change (fun _ h => h) (.empty h) (fun _ => h) fun _ w'' hp => ?_
  obtain ⟨a, hstaging, hd⟩ := h.staging
  simp only [perform, hstaging] at hp
  have hw'' : EmptyStaging serviceUid w w'' := by
    rw [← show _ = w'' from congrArg Prod.snd hp]
    refine ⟨h.absent, h.parent, h.final, _, rfl, ?_⟩
    simp only [isPrivateDirectory, Bool.and_eq_true, decide_eq_true_eq] at hd ⊢
    exact ⟨⟨trivial, hd.1.2⟩, trivial⟩
  exact ⟨.empty hw'', hw''⟩

theorem createMarker_safe (h : EmptyStaging serviceUid w w') : Safe (performs serviceUid left) (Created serviceUid root w)
    (call .createMarker)
    (fun r w'' => Created serviceUid root w w'' ∧ (r = .ok () → MarkedStaging serviceUid w "" w'')) w' := by
  refine safe_change (fun _ h => h) (.empty h) (fun _ => ⟨.empty h, nofun⟩) fun _ w'' hp => ?_
  obtain ⟨a, hstaging, hd⟩ := h.staging
  simp only [perform, hstaging, List.lookup, Option.isSome_none, Bool.false_eq_true, if_false, List.nil_append] at hp
  have hw'' : MarkedStaging serviceUid w "" w'' := by
    rw [← show _ = w'' from congrArg Prod.snd hp]
    exact ⟨h.absent, h.parent, h.final, a, _, rfl, hd, by simp [isPrivateMarker, RootFiles.markerFile]⟩
  exact ⟨.marked hw'' (by simp), .marked hw'' (by simp), fun _ => hw''⟩

/-- The marker file is changed through its handle. -/
theorem MarkedStaging.withMarker {f : Attributes → String → Attributes × String} {text' : String}
    (h : MarkedStaging serviceUid w text w') (htext : ∀ m, (f m text).2 = text')
    (hprivate : ∀ m, isPrivateMarker serviceUid { m with kind := .regular } = true →
      isPrivateMarker serviceUid { (f m text).1 with kind := .regular } = true) :
    MarkedStaging serviceUid w text' (w'.withMarker f) := by
  obtain ⟨a, m, hstaging, hd, hm⟩ := h.staging
  have hnew : w'.withMarker f = { w' with
      staging := some (.directory a [(markerName, .file .regular (f m text).1 (f m text).2)]) } := by
    simp [RootFiles.withMarker, hstaging]
  rw [hnew]
  exact ⟨h.absent, h.parent, h.final, a, (f m text).1, by rw [htext], hd, hprivate m hm⟩

theorem chmodMarker_safe (h : MarkedStaging serviceUid w text w') (ht : text.toList <+: root.markerBytes.toList) :
    Safe (performs serviceUid left) (Created serviceUid root w) (call .chmodMarker)
      (fun _ => MarkedStaging serviceUid w text) w' := by
  refine safe_change (fun _ h => h) (.marked h ht) (fun _ => h) fun _ w'' hp => ?_
  have hw'' : MarkedStaging serviceUid w text w'' := by
    rw [← show _ = w'' from congrArg Prod.snd hp]
    refine h.withMarker (fun _ => rfl) fun m hm => ?_
    simp only [isPrivateMarker, Bool.and_eq_true, decide_eq_true_eq] at hm ⊢
    exact ⟨⟨⟨trivial, hm.1.1.2⟩, trivial⟩, hm.2⟩
  exact ⟨.marked hw'' ht, hw''⟩

/-- A write of the next part, or of a part of it. -/
theorem writeMarker_safe {part : String} (h : MarkedStaging serviceUid w text w')
    (ht : text.toList ++ part.toList <+: root.markerBytes.toList) :
    Safe (performs serviceUid left) (Created serviceUid root w) (call (.writeMarker part))
      (fun r w'' => Created serviceUid root w w'' ∧ (r = .ok () → MarkedStaging serviceUid w (text ++ part) w'')) w' := by
  have happend : ∀ part : String, MarkedStaging serviceUid w (text ++ part) (w'.appendMarker part) := fun part =>
    h.withMarker (fun _ => rfl) fun _ hm => hm
  have hinitial : ∀ p : String, p.toList <+: part.toList → (text ++ p).toList <+: root.markerBytes.toList := fun p hp => by
    rw [String.toList_append]
    exact (List.prefix_append_right_inj _).mpr hp |>.trans ht
  refine safe_call (fun _ w'' hp => ?_) (fun _ w'' hp => ?_) fun w'' hp => ?_
  · rw [← show _ = w'' from congrArg Prod.snd hp]
    exact ⟨.marked (happend part) (hinitial part List.prefix_rfl), .marked (happend part) (hinitial part List.prefix_rfl),
      fun _ => happend part⟩
  · cases hp
  · obtain ⟨p, hpre, rfl⟩ := hp
    exact ⟨.marked (happend p) (hinitial p hpre), .marked (happend p) (hinitial p hpre), nofun⟩

theorem fillMarker_safe (h : MarkedStaging serviceUid w "" w') (split : Nat) :
    Safe (performs serviceUid left) (Created serviceUid root w)
      (do call .chmodMarker
          call (.writeMarker (String.ofList (root.markerBytes.toList.take split)))
          call (.writeMarker (String.ofList (root.markerBytes.toList.drop split)))
          call .sync)
      (fun r w'' => Created serviceUid root w w'' ∧ (r = .ok () → MarkedStaging serviceUid w root.markerBytes w'')) w' := by
  refine Safe.andThen (chmodMarker_safe h (by simp)) (fun _ w₁ h₁ => ?_) fun _ w₁ h₁ => ⟨.marked h₁ (by simp), nofun⟩
  refine Safe.andThen (writeMarker_safe h₁ (by simpa using List.take_prefix split _)) ?_ fun _ _ h => ⟨h.1, nofun⟩
  rintro _ w₂ ⟨-, h₂⟩
  refine Safe.andThen (writeMarker_safe (h₂ rfl) (by simp)) ?_ fun _ _ h => ⟨h.1, nofun⟩
  rintro _ w₃ ⟨hc, h₃⟩
  have hbytes : "" ++ String.ofList (root.markerBytes.toList.take split) ++
    String.ofList (root.markerBytes.toList.drop split) =
      root.markerBytes := by
    rw [← String.toList_inj]
    simp
  have hwhole := h₃ rfl
  rw [hbytes] at hwhole
  exact safe_read rfl hc (fun _ _ => ⟨hc, fun _ => hwhole⟩) fun _ => ⟨hc, fun _ => hwhole⟩

/-- The staging directory, whatever fails. -/
theorem stageRoot_safe : Safe (performs serviceUid left) (Created serviceUid root w) (stageRoot root)
    (fun r w' => Created serviceUid root w w' ∧ (r = .ok () → MarkedStaging serviceUid w root.markerBytes w')) w := by
  refine Safe.andThen mkdir_safe ?_ fun _ _ h => ⟨h.1, nofun⟩
  rintro _ w₁ ⟨-, h₁⟩
  refine Safe.andThen (chmod_safe (h₁ rfl)) (fun _ w₂ h₂ => ?_) fun _ _ h => ⟨.empty h, nofun⟩
  refine Safe.andThen (createMarker_safe h₂) ?_ fun _ _ h => ⟨h.1, nofun⟩
  rintro _ w₃ ⟨-, h₃⟩
  dsimp only
  refine Safe.andThen (P := fun r w' => Created serviceUid root w w' ∧
    (r = .ok () → MarkedStaging serviceUid w root.markerBytes w')) (Safe.andFinally (fillMarker_safe (h₃ rfl) _) ?_) ?_
    fun _ _ h => ⟨h.1, nofun⟩
  · rintro r w₄ ⟨hc, h₄⟩
    exact safe_read rfl hc (fun _ _ => ⟨hc, h₄⟩) fun _ => ⟨hc, nofun⟩
  · rintro _ w₄ ⟨hc, h₄⟩
    exact safe_read rfl hc (fun _ _ => ⟨hc, fun _ => h₄ rfl⟩) fun _ => ⟨hc, nofun⟩

theorem rename_safe (h : MarkedStaging serviceUid w root.markerBytes w') (hfinal : w.final = none) :
    Safe (performs serviceUid left) (Created serviceUid root w) (call .rename)
      (fun r w'' => Created serviceUid root w w'' ∧ (r = .ok () → Published serviceUid root w w'')) w' := by
  have hc : Created serviceUid root w w' := .marked h List.prefix_rfl
  refine safe_change (fun _ h => h) hc (fun _ => ⟨hc, nofun⟩) fun _ w'' hp => ?_
  obtain ⟨a, m, hstaging, hd, hm⟩ := h.staging
  simp only [perform, hstaging, h.final, hfinal] at hp
  have hw'' : Published serviceUid root w w'' := by
    rw [← show _ = w'' from congrArg Prod.snd hp]
    exact ⟨⟨h.absent, hfinal⟩, h.parent, rfl, a, m, rfl, hd, hm⟩
  exact ⟨.published hw'', .published hw'', fun _ => hw''⟩

/-- The identity that a creation returns is the one of the directory. -/
def Identified (identity : NativeHostPrivateRootIdentity) (w : RootFiles) : Prop :=
  ∀ attributes entries, w.final = some (.directory attributes entries) →
    matchesCreatedIdentity { attributes with kind := .directory } identity = true

theorem reads_throwUnless {condition : Bool} {message : String} :
    Reading (performs serviceUid left) (throwUnless condition message) (fun r => r = .ok () → condition = true) w' := by
  unfold throwUnless
  split
  · rename_i hcondition
    exact reading_pure fun _ => hcondition
  · exact reading_throw nofun

/-- What a creation leaves where it ends, and what it returns. -/
def Creation (serviceUid : Nat) (root : ClaimRoot) (w : RootFiles) (r : Except RootFailure NativeHostPrivateRootIdentity)
    (w' : RootFiles) : Prop :=
  Created serviceUid root w w' ∧ ∀ identity, r = .ok identity → Published serviceUid root w w' ∧ Identified identity w'

theorem Creation.error {failure : RootFailure} (h : Created serviceUid root w w') :
    Creation serviceUid root w (.error failure) w' := ⟨h, nofun⟩

/-- A part of a creation that reads, and what comes after it. -/
theorem reads_thenCreate {α : Type} {p : RootProgram α} {R : Except RootFailure α → Prop}
    {f : α → RootProgram NativeHostPrivateRootIdentity} (h : Reading (performs serviceUid left) p R w')
    (hc : Created serviceUid root w w')
    (hnext : ∀ value, R (.ok value) →
      Safe (performs serviceUid left) (Created serviceUid root w) (f value) (Creation serviceUid root w) w') :
    Safe (performs serviceUid left) (Created serviceUid root w) (p >>= f) (Creation serviceUid root w) w' :=
  h.thenSafe hc hnext fun _ _ => .error hc

theorem identified_created {metadata : Metadata} (rootId : String) (hm : w'.final.map Node.metadata = some metadata) :
    Identified (.created rootId (toString metadata.device) (toString metadata.inode)) w' := by
  intro attributes entries' h
  rw [h] at hm
  cases hm
  simp [matchesCreatedIdentity, Node.metadata]

/-- After the rename only the identity is read. -/
theorem published_safe {staged parent : Metadata} (hp : Published serviceUid root w w') :
    Safe (performs serviceUid left) (Created serviceUid root w)
      (do call .sync
          let metadata ← call (.lstat .final)
          let publishedParent ← call .lstatParent
          throwUnless (sameDirectory staged metadata && sameDirectory parent publishedParent)
            "native ordinary private root changed during publication"
          return .created root.rootId (toString metadata.device) (toString metadata.inode))
      (Creation serviceUid root w) w' := by
  have hc : Created serviceUid root w w' := .published hp
  refine reads_thenCreate (reads_any rfl) hc fun _ _ => ?_
  refine reads_thenCreate (R := fun r => ∀ m, r = .ok m → w'.final.map Node.metadata = some m)
    (reads_call rfl (fun m h m' hm => by cases hm; exact answer_ok h) nofun) hc fun metadata hm => ?_
  refine reads_thenCreate (reads_any rfl) hc fun _ _ => ?_
  refine reads_thenCreate reads_throwUnless hc fun _ _ => ⟨hc, fun identity hi => ⟨hp, ?_⟩⟩
  cases hi
  exact identified_created root.rootId (hm metadata rfl)

theorem publishRoot_safe {parent : Metadata} (h : MarkedStaging serviceUid w root.markerBytes w') :
    Safe (performs serviceUid left) (Created serviceUid root w) (publishRoot serviceUid parse root parent)
      (Creation serviceUid root w) w' := by
  have hc : Created serviceUid root w w' := .marked h List.prefix_rfl
  have hmarked : ∀ staged, Reading (performs serviceUid left) (privateAndMarked serviceUid parse staged root)
      (fun _ => True) w' := by
    intro staged
    unfold privateAndMarked
    split
    · exact (@reads_withOpenMarker _ _ _ _ _ (fun _ => true) fun _ => reading_pure fun _ => rfl).imp fun _ _ => trivial
    · exact reading_pure trivial
  unfold publishRoot
  refine reads_thenCreate (reads_any rfl) hc fun _ _ => ?_
  refine reads_thenCreate reads_throwUnless hc fun _ _ => ?_
  refine reads_thenCreate (reads_any rfl) hc fun staged _ => ?_
  refine reads_thenCreate (hmarked staged) hc fun _ _ => ?_
  refine reads_thenCreate reads_throwUnless hc fun _ _ => ?_
  refine reads_thenCreate reads_pathExists hc fun finalExists hexists => ?_
  refine reads_thenCreate reads_throwUnless hc fun _ hnot => ?_
  have hfinal : w.final = none := by
    have hsome : (w'.at .final).isSome = false := by
      have := hexists finalExists rfl
      have := hnot rfl
      cases finalExists <;> simp_all
    rw [← h.final]
    exact Option.not_isSome_iff_eq_none.mp (by rw [show w'.final = w'.at .final from rfl, hsome]; decide)
  refine Safe.andThen (rename_safe h hfinal) ?_ fun _ _ h => .error h.1
  rintro _ w₁ ⟨-, hp⟩
  exact published_safe (hp rfl)

/-- Whatever happens in a creation, it changes nothing that was there. -/
theorem create_safe {rootId : String} : Safe (performs serviceUid left) (Created serviceUid root w)
    (create serviceUid parse (.planned rootId) root) (Creation serviceUid root w) w := by
  have hc : Created serviceUid root w w := .unchanged rfl
  refine reads_thenCreate (reads_any rfl) hc fun parent _ => ?_
  refine reads_thenCreate reads_throwUnless hc fun _ _ => ?_
  refine Safe.andThen stageRoot_safe ?_ fun _ _ h => .error h.1
  rintro _ w₁ ⟨-, h₁⟩
  exact publishRoot_safe (h₁ rfl)

end

/-! ## A cleanup that nothing interrupts -/

section
variable {w : RootFiles} {place : Place}

theorem exec_call (c : RootCall) : (call c).exec (perform serviceUid) w = match perform serviceUid c w with
    | (.ok value, w') => (.ok value, w')
    | (.error errno, w') => (.error (.errno errno), w') := by
  show Program.exec _ (Program.bind _ _) w = _
  simp only [Program.effect, Program.bind, Program.exec]
  rcases perform serviceUid c w with ⟨errno | value, w'⟩ <;> rfl

theorem exec_pathExists : (pathExists place).exec (perform serviceUid) w = (.ok (w.at place).isSome, w) := by
  rw [pathExists, exec_tryCatch, exec_bind, exec_call]
  cases hat : w.at place with
  | none =>
    simp only [perform, hat, RootFiles.answer]
    rfl
  | some node =>
    simp only [perform, hat, RootFiles.answer]
    rfl

/-- A missing name is read as none. -/
theorem exec_orNone {c : RootCall} {o : Option c.Value} (h : perform serviceUid c w = w.answer o) :
    (tryCatch (do let value ← call c; pure (some value)) fun _ => pure none : RootProgram (Option c.Value)).exec
      (perform serviceUid) w = (.ok o, w) := by
  rw [exec_tryCatch, exec_bind, exec_call, h]
  cases o <;> rfl

theorem exec_safeLstat : (safeLstat place).exec (perform serviceUid) w = (.ok ((w.at place).map Node.metadata), w) :=
  exec_orNone rfl

theorem exec_safeLstatParent : safeLstatParent.exec (perform serviceUid) w = (.ok w.parent, w) := exec_orNone rfl

/-- A regular marker is opened, and closed again. -/
theorem exec_withOpenMarker {attributes : Attributes} {text : String} {b : Bool}
    {body : Metadata × String → RootProgram Bool}
    (hmarker : w.marker place = some (.file .regular attributes text))
    (hbody : (body ({ attributes with kind := .regular }, text)).exec (perform serviceUid) w = (.ok b, w)) :
    (withOpenMarker place body).exec (perform serviceUid) w = (.ok b, w) := by
  have hopen : perform serviceUid (.openMarker place) w = (.ok ({ attributes with kind := .regular }, text), w) := by
    simp only [perform, hmarker]
    rfl
  rw [withOpenMarker, exec_bind, exec_tryCatch, exec_bind, exec_call, hopen]
  show Program.exec _ (Program.tryFinally _ _) w = _
  rw [exec_tryFinally, exec_tryCatch, hbody]
  rfl

variable {parent : Metadata} {attributes : Attributes} {entries : List (String × Node)}

theorem sameDirectory_refl (m : Metadata) : sameDirectory m m = true := by simp [sameDirectory]

theorem exec_lstat {node : Node} (h : w.at place = some node) :
    (call (.lstat place)).exec (perform serviceUid) w = (.ok node.metadata, w) := by
  rw [exec_call]
  simp only [perform, h]
  rfl

theorem exec_lstatParent (h : w.parent = some parent) :
    (call .lstatParent).exec (perform serviceUid) w = (.ok parent, w) := by
  rw [exec_call]
  simp only [perform, h]
  rfl

theorem exec_removeStaging (h : w.staging = some (.directory attributes entries))
    (ho : OwnedStaging serviceUid root attributes entries) :
    (removeStaging (entries.map (·.1))).exec (perform serviceUid) w = (.ok true, { w with staging := none }) := by
  unfold removeStaging
  rcases ho.marker with rfl | ⟨a, text, rfl, -, -⟩
  · rw [if_pos (by simp), exec_bind, exec_call]
    simp only [perform, h]
    rfl
  · rw [if_neg (by simp), exec_bind, exec_call]
    simp only [perform, h, List.lookup, beq_self_eq_true]
    have hfilter : ([(markerName, Node.file .regular a text)].filter (·.1 ≠ markerName)) = [] := by simp
    rw [hfilter]
    rfl

theorem exec_removableEntries (h : w.staging = some (.directory attributes entries))
    (ho : OwnedStaging serviceUid root attributes entries) :
    (removableEntries serviceUid root.markerBytes (entries.map (·.1))).exec (perform serviceUid) w = (.ok true, w) := by
  unfold removableEntries
  rcases ho.marker with rfl | ⟨a, text, rfl, hprivate, hinitial⟩
  · rw [if_pos (by simp)]
    rfl
  · rw [if_neg (by simp)]
    have hmarker : w.marker .staging = some (.file .regular a text) := by
      simp [RootFiles.marker, RootFiles.at, h, List.lookup]
    refine exec_withOpenMarker hmarker ?_
    rw [exec_bind, exec_call]
    simp only [perform, hmarker, Option.map_some, RootFiles.answer]
    obtain ⟨hsize, hlength⟩ := size_of_part hinitial
    have hremovable : removableMarker serviceUid root.markerBytes ({ a with kind := .regular }, text)
        (Node.file .regular a text).metadata = true := by
      simp only [removableMarker, Bool.and_eq_true, decide_eq_true_eq, List.isPrefixOf_iff_prefix]
      exact ⟨⟨⟨hprivate, by omega⟩, hinitial⟩, sameDirectory_refl _⟩
    exact congrArg (fun b => (Except.ok b, w)) hremovable

theorem exec_cleanupStaging (hparent : w.parent = some parent) (h : w.staging = some (.directory attributes entries))
    (ho : OwnedStaging serviceUid root attributes entries) :
    (cleanupStaging serviceUid parent root.markerBytes).exec (perform serviceUid) w =
      (.ok true, { w with staging := none }) := by
  have hnames : stagingNames (entries.map (·.1)) = true := by
    rcases ho.marker with rfl | ⟨a, text, rfl, -, -⟩ <;> simp [stagingNames]
  have hat : w.at .staging = some (.directory attributes entries) := h
  have hread : (call .readdir).exec (perform serviceUid) w = (.ok (entries.map (·.1)), w) := by
    rw [exec_call]
    simp only [perform, h]
  rw [cleanupStaging, exec_tryCatch, exec_bind, exec_lstat hat]
  dsimp only
  rw [if_neg (by simpa [Node.metadata] using ho.directory), exec_bind, hread]
  dsimp only
  rw [if_neg (by simpa using hnames), exec_bind, exec_removableEntries h ho]
  dsimp only
  rw [if_neg (by simp), exec_bind, exec_lstat hat]
  dsimp only
  rw [exec_bind, exec_lstatParent hparent]
  dsimp only
  rw [if_neg (by simp [sameDirectory_refl]), exec_removeStaging h ho]

/-- A marker of the claim that `markerMatches` accepts. -/
theorem exec_markerMatches {a : Attributes} {text : String} (h : w.marker place = some (.file .regular a text))
    (hm : matchingMarker serviceUid parse root ({ a with kind := .regular }, text) = true) :
    (markerMatches serviceUid parse place root).exec (perform serviceUid) w = (.ok true, w) :=
  exec_withOpenMarker h (congrArg (fun b => (Except.ok b, w)) hm)

theorem exec_cleanupFinal {a : Attributes} {text : String} (hparent : w.parent = some parent)
    (h : w.final = some (.directory attributes entries))
    (hd : isPrivateDirectory serviceUid { attributes with kind := .directory } = true)
    (hi : matchesCreatedIdentity { attributes with kind := .directory } identity = true)
    (hmarker : entries.lookup markerName = some (.file .regular a text))
    (hm : matchingMarker serviceUid parse root ({ a with kind := .regular }, text) = true) :
    (cleanupFinal serviceUid parse identity root parent).exec (perform serviceUid) w =
      (.ok true, { w with final := none }) := by
  have hat : w.at .final = some (.directory attributes entries) := h
  have hnode : w.marker .final = some (.file .regular a text) := by simp [RootFiles.marker, hat, hmarker]
  rw [cleanupFinal, exec_bind, exec_safeLstat, hat]
  dsimp only [Option.map_some, Node.metadata]
  rw [if_neg (by simp [hd, hi]), exec_bind, exec_markerMatches hnode hm]
  dsimp only
  rw [if_neg (by simp), exec_bind, exec_safeLstat, hat]
  dsimp only [Option.map_some, Node.metadata]
  rw [exec_bind, exec_safeLstatParent, hparent]
  dsimp only
  rw [if_neg (by simp [sameDirectory_refl]), exec_tryCatch, exec_bind, exec_call]
  simp only [perform, h, ← hparent]
  rfl

theorem exec_cleanup (hparent : w.parent = some parent) (hprivate : isPrivateDirectory serviceUid parent = true) :
    (cleanup serviceUid parse identity root).exec (perform serviceUid) w =
      Program.exec (perform serviceUid)
        (if (w.staging.isSome && w.final.isSome) = true then pure false
        else if w.staging.isSome = true then cleanupStaging serviceUid parent root.markerBytes
        else if (!w.final.isSome) = true then pure true
        else cleanupFinal serviceUid parse identity root parent) w := by
  rw [cleanup, exec_bind, exec_safeLstatParent, hparent]
  dsimp only
  rw [if_neg (by simp [hprivate]), exec_bind, exec_pathExists]
  dsimp only
  rw [exec_bind, exec_pathExists]
  rfl

end

/-! ## Histories -/

/-- The files of a root id, with the identity that a creation returned: the host may have it, or still the
planned one. -/
structure RootWorld where
  files : RootFiles
  created : Option NativeHostPrivateRootIdentity

/-- Nothing of the root id is there, which is a fresh one. -/
def RootInitial (serviceUid : Nat) (w : RootWorld) : Prop :=
  (∃ parent, w.files.parent = some parent ∧ isPrivateDirectory serviceUid parent = true) ∧
    w.files.staging = none ∧ w.files.final = none ∧ w.created = none

/-- The identities that a host may have of its root. -/
def RootWorld.Knows (w : RootWorld) (root : ClaimRoot) (identity : NativeHostPrivateRootIdentity) : Prop :=
  identity = .planned root.rootId ∨ w.created = some identity

/-- What a host does with the root of a claim. A creation or a cleanup may stop anywhere; between them the
executor and its job change what is in the directory, and leave the marker. -/
inductive RootStep (serviceUid : Nat) (left : List (String × Node) → List (String × Node) → Prop)
    (parse : String → Option MarkerRecord) (root : ClaimRoot) : RootWorld → RootWorld → Prop
  | create {w : RootWorld} {files : RootFiles} {created : Option NativeHostPrivateRootIdentity}
    {rest : RootProgram NativeHostPrivateRootIdentity} (hstaging : w.files.staging = none) (hfinal : w.files.final = none)
    (hr : Reaches (performs serviceUid left) (create serviceUid parse (.planned root.rootId) root) w.files rest files)
    (hcreated : ∀ identity, created = some identity → rest = .done identity) :
    RootStep serviceUid left parse root w { files, created }
  | use {w : RootWorld} {attributes : Attributes} {nlink : Nat} {entries entries' : List (String × Node)}
    (h : w.files.final = some (.directory attributes entries))
    (hmarker : entries'.lookup markerName = entries.lookup markerName) :
    RootStep serviceUid left parse root w
      { w with files := { w.files with final := some (.directory { attributes with nlink } entries') } }
  | cleanup {w : RootWorld} {files : RootFiles} {identity : NativeHostPrivateRootIdentity} {rest : RootProgram Bool}
    (hi : w.Knows root identity)
    (hr : Reaches (performs serviceUid left) (cleanup serviceUid parse identity root) w.files rest files) :
    RootStep serviceUid left parse root w { w with files }

/-- What creations and cleanups leave: a staging directory or a root, each with its marker. -/
structure Residue (serviceUid : Nat) (root : ClaimRoot) (w : RootWorld) : Prop where
  parent : ∃ parent, w.files.parent = some parent ∧ isPrivateDirectory serviceUid parent = true
  staging : ∀ node, w.files.staging = some node → w.files.final = none ∧ ∃ attributes entries,
    node = .directory attributes entries ∧ OwnedStaging serviceUid root attributes entries
  final : ∀ node, w.files.final = some node → ∃ attributes entries m, node = .directory attributes entries ∧
    isPrivateDirectory serviceUid { attributes with kind := .directory } = true ∧
    entries.lookup markerName = some (.file .regular m root.markerBytes) ∧
    isPrivateMarker serviceUid { m with kind := .regular } = true
  identified : ∀ identity, w.created = some identity → Identified identity w.files

section
variable {w w' : RootWorld}

theorem Residue.initial (h : RootInitial serviceUid w) : Residue serviceUid root w := by
  obtain ⟨hparent, hstaging, hfinal, hcreated⟩ := h
  refine ⟨hparent, fun node h => ?_, fun node h => ?_, fun identity h => ?_⟩
  · rw [hstaging] at h
    cases h
  · rw [hfinal] at h
    cases h
  · rw [hcreated] at h
    cases h

theorem Residue.afterCreate {files : RootFiles} {created : Option NativeHostPrivateRootIdentity}
    (h : Residue serviceUid root w) (hfinal : w.files.final = none) (hc : Created serviceUid root w.files files)
    (hi : ∀ identity, created = some identity → Identified identity files) : Residue serviceUid root { files, created } := by
  have hnone : ∀ {files' : RootFiles}, files'.final = w.files.final → ∀ node, files'.final ≠ some node := by
    intro files' heq node hnode
    rw [heq, hfinal] at hnode
    cases hnode
  cases hc with
  | unchanged heq =>
    subst heq
    exact ⟨h.parent, h.staging, h.final, hi⟩
  | empty he =>
    obtain ⟨a, hdir, hd⟩ := he.staging
    refine ⟨he.parent ▸ h.parent, fun node hnode => ?_, fun node hnode => absurd hnode (hnone he.final node), hi⟩
    cases hdir.symm.trans hnode
    exact ⟨he.final.trans hfinal, a, [], rfl, hd, .inl rfl⟩
  | @marked text he ht =>
    obtain ⟨a, m, hdir, hd, hm⟩ := he.staging
    refine ⟨he.parent ▸ h.parent, fun node hnode => ?_, fun node hnode => absurd hnode (hnone he.final node), hi⟩
    cases hdir.symm.trans hnode
    exact ⟨he.final.trans hfinal, a, _, rfl, hd, .inr ⟨m, text, rfl, hm, ht⟩⟩
  | published hp =>
    obtain ⟨a, m, hdir, hd, hm⟩ := hp.final
    refine ⟨hp.parent ▸ h.parent, fun node hnode => ?_, fun node hnode => ?_, hi⟩
    · cases hp.staging.symm.trans hnode
    · cases hdir.symm.trans hnode
      exact ⟨a, _, m, rfl, hd, by simp [List.lookup], hm⟩

theorem Residue.afterCleanup {files : RootFiles} {identity : NativeHostPrivateRootIdentity} (h : Residue serviceUid root w)
    (hc : Cleaned serviceUid ShrinksMarked parse identity root w.files files) :
    Residue serviceUid root { w with files } := by
  cases hc with
  | unchanged => exact h
  | @emptied attributes entries hdir ho =>
    refine ⟨h.parent, fun node hnode => ?_, h.final, h.identified⟩
    cases hnode
    exact ⟨(h.staging _ hdir).1, attributes, [], rfl, ho.directory, .inl rfl⟩
  | unstaged hdir ho => exact ⟨h.parent, nofun, h.final, h.identified⟩
  | @shrunk attributes entries entries' hdir ho hl =>
    refine ⟨h.parent, fun node hnode => ?_, fun node hnode => ?_, fun identity hi a es hfinal => ?_⟩
    · obtain ⟨hnone, -⟩ := h.staging node hnode
      rw [hdir] at hnone
      cases hnone
    · cases hnode
      obtain ⟨a, es, m, heq, hd, hm, hp⟩ := h.final _ hdir
      cases heq
      exact ⟨attributes, entries', m, rfl, hd, hl.2.trans hm, hp⟩
    · cases hfinal
      exact h.identified identity hi attributes entries hdir
  | removed hdir ho =>
    refine ⟨h.parent, fun node hnode => ?_, nofun, fun _ _ _ _ => nofun⟩
    obtain ⟨hnone, -⟩ := h.staging node hnode
    rw [hdir] at hnone
    cases hnone

theorem Residue.step (h : Residue serviceUid root w) (hs : RootStep serviceUid ShrinksMarked parse root w w') :
    Residue serviceUid root w' := by
  cases hs with
  | create hstaging hfinal hr hcreated =>
    obtain ⟨hc, hrest⟩ := create_safe.reaches (.unchanged rfl) hr
    refine h.afterCreate hfinal hc fun identity hi => ?_
    cases hcreated identity hi
    exact (hrest.2 identity rfl).2
  | @use attributes nlink entries entries' hdir hmarker =>
    obtain ⟨a, es, m, heq, hd, hm, hp⟩ := h.final _ hdir
    cases heq
    refine ⟨h.parent, fun node hnode => ?_, fun node hnode => ?_, fun identity hi a es hfinal => ?_⟩
    · obtain ⟨hnone, -⟩ := h.staging node hnode
      rw [hdir] at hnone
      cases hnone
    · cases hnode
      exact ⟨_, entries', m, rfl, hd, hmarker.trans hm, hp⟩
    · cases hfinal
      exact h.identified identity hi attributes entries hdir
  | cleanup hi hr => exact h.afterCleanup (cleanup_safe.reaches .unchanged hr).1

/-- A cleanup of what was left succeeds, and leaves nothing. -/
theorem Residue.cleans {identity : NativeHostPrivateRootIdentity} (h : Residue serviceUid root w)
    (hparse : parse root.markerBytes = some root.record) (hi : w.Knows root identity) :
    ∃ files, (cleanup serviceUid parse identity root).exec (perform serviceUid) w.files = (.ok true, files) ∧
      files.staging = none ∧ files.final = none := by
  obtain ⟨parent, hparent, hprivate⟩ := h.parent
  rw [exec_cleanup hparent hprivate]
  cases hstaging : w.files.staging with
  | some node =>
    obtain ⟨hnone, attributes, entries, rfl, ho⟩ := h.staging node hstaging
    rw [if_neg (by simp [hnone]), if_pos (by simp), exec_cleanupStaging hparent hstaging ho]
    exact ⟨_, rfl, rfl, hnone⟩
  | none =>
    rw [if_neg (by simp), if_neg (by simp)]
    cases hfinal : w.files.final with
    | none =>
      rw [if_pos (by simp)]
      exact ⟨_, rfl, hstaging, hfinal⟩
    | some node =>
      obtain ⟨attributes, entries, m, rfl, hd, hm, hp⟩ := h.final node hfinal
      have hmatch : matchesCreatedIdentity { attributes with kind := .directory } identity = true := by
        rcases hi with rfl | hi
        · rfl
        · exact h.identified identity hi attributes entries hfinal
      have hmarker : matchingMarker serviceUid parse root ({ m with kind := .regular }, root.markerBytes) = true := by
        obtain ⟨hsize, -⟩ := @size_of_part root _ List.prefix_rfl
        simp [matchingMarker, hp, hsize, markerBytes_length, hparse]
      rw [if_neg (by simp), exec_cleanupFinal hparent hfinal hd hmatch hm hmarker]
      exact ⟨_, rfl, hstaging, rfl⟩

end

/-! ## Crash safety -/

theorem kept_of_none {o o' : Option Node} (h : o = none) : ∀ node, o = some node → o' = some node := by
  intro node hn
  rw [h] at hn
  cases hn

/-- Where no removal is interrupted without its marker, the cleanup of a claim succeeds whatever happened before.
No cleanup and no creation changes a directory of another. -/
theorem privateRoot_crashes (hparse : parse root.markerBytes = some root.record) :
    (∀ w identity, Transition.Reachable (RootInitial serviceUid) (RootStep serviceUid ShrinksMarked parse root) w →
      w.Knows root identity → ∃ files,
        (cleanup serviceUid parse identity root).exec (perform serviceUid) w.files = (.ok true, files) ∧
          files.staging = none ∧ files.final = none) ∧
    (∀ w w' identity rest, Reaches (performs serviceUid Shrinks) (cleanup serviceUid parse identity root) w rest w' →
      (w'.staging = w.staging ∨ ∃ attributes entries, w.staging = some (.directory attributes entries) ∧
        OwnedStaging serviceUid root attributes entries) ∧
      (w'.final = w.final ∨ ∃ attributes entries, w.final = some (.directory attributes entries) ∧
        OwnedFinal serviceUid parse identity root attributes entries)) ∧
    (∀ w w' identity rest, Reaches (performs serviceUid Shrinks) (create serviceUid parse identity root) w rest w' →
      (∀ node, w.staging = some node → w'.staging = some node) ∧ (∀ node, w.final = some node → w'.final = some node)) := by
  refine ⟨fun w identity hr hi => ?_, fun w w' identity rest hr => ?_, fun w w' identity rest hr => ?_⟩
  · have h : Residue serviceUid root w := hr.invariant (fun _ h => Residue.initial h) fun _ _ h hs => h.step hs
    exact h.cleans hparse hi
  · obtain ⟨hc, -⟩ := cleanup_safe.reaches .unchanged hr
    cases hc with
    | unchanged => exact ⟨.inl rfl, .inl rfl⟩
    | emptied h ho | unstaged h ho => exact ⟨.inr ⟨_, _, h, ho⟩, .inl rfl⟩
    | shrunk h ho _ | removed h ho => exact ⟨.inl rfl, .inr ⟨_, _, h, ho⟩⟩
  · cases identity with
    | planned rootId =>
      obtain ⟨hc, -⟩ := create_safe.reaches (.unchanged rfl) hr
      cases hc with
      | unchanged h => subst h; exact ⟨fun _ h => h, fun _ h => h⟩
      | empty h => exact ⟨kept_of_none h.absent, fun _ hn => h.final.trans hn⟩
      | marked h _ => exact ⟨kept_of_none h.absent, fun _ hn => h.final.trans hn⟩
      | published h => exact ⟨kept_of_none h.absent.1, kept_of_none h.absent.2⟩
    | created rootId device inode =>
      cases hr
      exact ⟨fun _ h => h, fun _ h => h⟩

end

namespace RootSample

def root : ClaimRoot :=
  { rootId := "91000000-0000-4000-8000-000000000001", claimId := "92000000-0000-4000-8000-000000000001",
    rootIdValid := by decide +kernel, claimIdValid := by decide +kernel }

def parse (text : String) : Option MarkerRecord := if text = root.markerBytes then some root.record else none

def parent : Metadata := { kind := .directory, uid := 0, mode := 0o700, nlink := 2, device := 1, inode := 1 }

def start : RootFiles := { parent := some parent, staging := none, final := none, nextInode := 2 }

def directory : Attributes := { uid := 0, mode := 0o700, nlink := 2, device := 1, inode := 2 }

def marker : Attributes := { uid := 0, mode := 0o600, nlink := 1, device := 1, inode := 3 }

/-- A root that holds its marker and nothing else. -/
def published : RootFiles :=
  { parent := some parent, staging := none
    final := some (.directory directory [(markerName, .file .regular marker root.markerBytes)]), nextInode := 4 }

def identity : NativeHostPrivateRootIdentity := .created root.rootId "1" "2"

/-- The root after a removal that was interrupted between the marker and the directory itself. -/
def orphaned : RootFiles := { published with final := some (.directory directory []) }

set_option maxRecDepth 4000 in
theorem exec_create :
    (create 0 parse (.planned root.rootId) root).exec (perform 0) start = (.ok identity, published) := by rfl

/-- A removal that is interrupted after the only file of a directory. -/
def interrupt : (c : RootCall) → RootFiles → c.Answer × RootFiles
  | .rm, w =>
    match w.final with
    | some (.directory attributes [(_, .file _ _ _)]) => (.error .other, { w with final := some (.directory attributes []) })
    | _ => perform 0 .rm w
  | c, w => perform 0 c w

theorem performs_interrupt (c : RootCall) (w : RootFiles) : performs 0 Shrinks c w (interrupt c w).1 (interrupt c w).2 := by
  cases c with
  | rm =>
    simp only [interrupt]
    split
    · rename_i attributes name kind a text hfinal
      exact .inr ⟨rfl, .inr ⟨attributes, _, [], hfinal,
        Relation.ReflTransGen.single (@RemoveStep.file [] [] name _ kind a), rfl⟩⟩
    · exact .inl rfl
  | _ => exact .inl rfl

set_option maxRecDepth 4000 in
theorem exec_interrupted : (cleanup 0 parse identity root).exec interrupt published = (.ok false, orphaned) := by rfl

theorem exec_orphaned : (cleanup 0 parse identity root).exec (perform 0) orphaned = (.ok false, orphaned) := rfl

theorem reachable_published {left : List (String × Node) → List (String × Node) → Prop} :
    Transition.Reachable (RootInitial 0) (RootStep 0 left parse root) { files := published, created := some identity } := by
  have hr := reaches_exec (@performs_perform 0 left) (create 0 parse (.planned root.rootId) root) start
  rw [exec_create] at hr
  have hstart : RootInitial 0 { files := start, created := none } := ⟨⟨parent, rfl, rfl⟩, rfl, rfl, rfl⟩
  exact .step (.init hstart) (.create rfl rfl hr fun i hi => by cases hi; rfl)

/-- A crash in the recursive removal leaves a directory that no cleanup removes. -/
theorem orphaned_root : ¬ ∀ w identity, Transition.Reachable (RootInitial 0) (RootStep 0 Shrinks parse root) w →
    w.Knows root identity → ∃ files, (cleanup 0 parse identity root).exec (perform 0) w.files = (.ok true, files) ∧
      files.staging = none ∧ files.final = none := by
  intro h
  have hr := reaches_exec performs_interrupt (cleanup 0 parse identity root) published
  rw [exec_interrupted] at hr
  have horphaned := reachable_published.step (.cleanup (.inr rfl) hr)
  obtain ⟨files, hexec, -⟩ := h _ identity horphaned (.inr rfl)
  rw [exec_orphaned] at hexec
  cases hexec

/-- The root that was just made is removed. -/
theorem privateRoot_crashes_published : ∃ files,
    (cleanup 0 parse identity root).exec (perform 0) published = (.ok true, files) ∧
      files.staging = none ∧ files.final = none := by
  have hparse : parse root.markerBytes = some root.record := by
    unfold parse
    rw [if_pos rfl]
  have hclean := (privateRoot_crashes hparse).1 { files := published, created := some identity } identity
    reachable_published (.inr rfl)
  dsimp only at hclean
  exact hclean

end RootSample

end Dim.Host
