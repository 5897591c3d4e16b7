/-
What the digests of descriptors, review jobs and capacity configurations are taken of. Texts are JavaScript strings,
sequences of UTF-16 code units; hashing writes them as UTF-8, where a surrogate without its partner becomes U+FFFD. The
fields are written one after another, each after its length in bytes.
-/
import DimProofs.Lib.Decimal
import DimProofs.Lib.Utf16
import DimProofs.Ordinary.Protocol
import DimProofs.Projects.Draft

namespace Dim.Ordinary

/-! ## Texts in UTF-8 -/

/-- A JavaScript string. -/
abbrev Text := List Nat

def highSurrogate (u : Nat) : Bool := 0xd800 ≤ u && u < 0xdc00

def lowSurrogate (u : Nat) : Bool := 0xdc00 ≤ u && u < 0xe000

/-- A code unit on its own. -/
def lone (u : Nat) : Char := if highSurrogate u || lowSurrogate u then '\uFFFD' else Char.ofNat u

/-- The characters of a text, as its conversion to UTF-8 reads them. -/
def scalars : Text → List Char
  | [] => []
  | [u] => [lone u]
  | u :: v :: rest =>
    if highSurrogate u && lowSurrogate v then Char.ofNat (0x10000 + (u - 0xd800) * 0x400 + (v - 0xdc00)) :: scalars rest
    else lone u :: scalars (v :: rest)

/-- What is hashed of a text: the string that has these bytes. -/
def utf8 (text : Text) : String := String.ofList (scalars text)

/-- `isWellFormed()`: no surrogate is without its partner. -/
def WellFormed (text : Text) : Prop := Utf16.units (scalars text) = text

instance (text : Text) : Decidable (WellFormed text) := inferInstanceAs (Decidable (_ = _))

/-- A well-formed text is read back from its bytes. -/
theorem units_utf8 {text : Text} (h : WellFormed text) : Utf16.units (utf8 text).toList = text := by
  rw [utf8, String.toList_ofList]
  exact h

theorem scalars_cons {u : Nat} (h : highSurrogate u = false) (text : Text) :
    scalars (u :: text) = lone u :: scalars text := by
  cases text <;> simp [scalars, h]

/-- A character is read back from its code units, whatever follows them. -/
theorem scalars_encode (c : Char) (text : Text) : scalars (Utf16.encode c ++ text) = c :: scalars text := by
  have hc := Utf16.toNat_valid c
  unfold Utf16.encode
  split
  · have hhigh : highSurrogate c.toNat = false := by simp [highSurrogate]; omega
    have hlow : lowSurrogate c.toNat = false := by simp [lowSurrogate]; omega
    rw [List.singleton_append, scalars_cons hhigh, lone, hhigh, hlow]
    simp
  · have hpair : (highSurrogate (0xd800 + (c.toNat - 0x10000) / 0x400) &&
        lowSurrogate (0xdc00 + (c.toNat - 0x10000) % 0x400)) = true := by
      simp only [highSurrogate, lowSurrogate, Bool.and_eq_true, decide_eq_true_eq]
      omega
    have hvalue : 0x10000 + (0xd800 + (c.toNat - 0x10000) / 0x400 - 0xd800) * 0x400 +
        (0xdc00 + (c.toNat - 0x10000) % 0x400 - 0xdc00) = c.toNat := by omega
    simp only [List.cons_append, List.nil_append, scalars, hpair, if_true, hvalue, Char.ofNat_toNat]

theorem scalars_units : ∀ chars : List Char, scalars (Utf16.units chars) = chars
  | [] => rfl
  | c :: chars => by rw [Utf16.units_cons, scalars_encode, scalars_units chars]

/-- The well-formed text that has the bytes of a text. -/
def repaired (text : Text) : Text := Utf16.units (scalars text)

theorem repaired_wellFormed (text : Text) : WellFormed (repaired text) := by rw [WellFormed, repaired, scalars_units]

theorem utf8_repaired (text : Text) : utf8 (repaired text) = utf8 text := by rw [utf8, utf8, repaired, scalars_units]

/-- Texts that are told apart by their bytes, the well-formed ones among them, are all well-formed. -/
theorem wellFormed_of_told {Admitted : Text → Prop} (hwell : ∀ text, WellFormed text → Admitted text)
    (h : ∀ text text', Admitted text → Admitted text' → utf8 text = utf8 text' → text = text') {text : Text}
    (ht : Admitted text) : WellFormed text := by
  have hrepaired := repaired_wellFormed text
  rwa [← h text _ ht (hwell _ hrepaired) (utf8_repaired text).symm] at hrepaired

/-! ## Frames -/

theorem append_sized {f g r r' : String} (hsize : f.utf8ByteSize = g.utf8ByteSize) (h : f ++ r = g ++ r') :
    f = g ∧ r = r' := by
  have hlist : f.toList ++ r.toList = g.toList ++ r'.toList := by simpa using congrArg String.toList h
  have hno : ∀ {x y z : String}, x = y ++ z → x.utf8ByteSize = y.utf8ByteSize → x = y ∧ z = "" := by
    rintro x y z rfl hxy
    rw [String.utf8ByteSize_append, Nat.add_eq_left, String.utf8ByteSize_eq_zero_iff] at hxy
    exact ⟨by rw [hxy, String.append_empty], hxy⟩
  rcases List.append_eq_append_iff.mp hlist with ⟨z, hg, hr⟩ | ⟨z, hf, hr⟩
  · obtain ⟨hgf, hz⟩ := @hno g f (String.ofList z) (by rw [← String.toList_inj]; simpa using hg) hsize.symm
    obtain rfl : z = [] := by simpa using congrArg String.toList hz
    exact ⟨hgf.symm, String.toList_inj.mp (by simpa using hr)⟩
  · obtain ⟨hfg, hz⟩ := @hno f g (String.ofList z) (by rw [← String.toList_inj]; simpa using hf) hsize
    obtain rfl : z = [] := by simpa using congrArg String.toList hz
    exact ⟨hfg, String.toList_inj.mp (by simpa using hr.symm)⟩

/-- Two lists that go on after their first separator. -/
theorem separated {α : Type} {c : α} {u u' r r' : List α} (hu : c ∉ u) (hu' : c ∉ u') (h : u ++ c :: r = u' ++ c :: r') :
    u = u' ∧ r = r' := by
  rcases List.append_eq_append_iff.mp h with ⟨_ | ⟨d, z⟩, hleft, hright⟩ | ⟨_ | ⟨d, z⟩, hleft, hright⟩
  · simp_all
  · simp only [List.cons_append, List.cons.injEq] at hright
    exact absurd (by rw [hleft, hright.1]; simp) hu'
  · simp_all
  · simp only [List.cons_append, List.cons.injEq] at hright
    exact absurd (by rw [hleft, hright.1]; simp) hu

theorem frame_cancels {f g r r' : String}
    (h : toString f.utf8ByteSize ++ ":" ++ f ++ r = toString g.utf8ByteSize ++ ":" ++ g ++ r') : f = g ∧ r = r' := by
  have hcolon : ∀ n : Nat, ':' ∉ (toString n).toList := fun n => by
    rw [Nat.toString_eq_ofList_toDigits, String.toList_ofList]
    exact (Decimal.digits_toDigits n).notMem rfl
  have hlist : (toString f.utf8ByteSize).toList ++ ':' :: (f.toList ++ r.toList) =
      (toString g.utf8ByteSize).toList ++ ':' :: (g.toList ++ r'.toList) := by simpa using congrArg String.toList h
  obtain ⟨hsize, hrest⟩ := separated (hcolon _) (hcolon _) hlist
  refine append_sized ?_ (String.toList_inj.mp (by simpa using hrest))
  rw [Nat.toString_eq_ofList_toDigits, Nat.toString_eq_ofList_toDigits, String.toList_ofList, String.toList_ofList] at hsize
  simpa using congrArg Decimal.value hsize

theorem framed_cons (f : String) (fields : List String) :
    framed (f :: fields) = toString f.utf8ByteSize ++ ":" ++ f ++ framed fields := by
  simp [framed, String.append_assoc]

theorem framed_ne (f : String) (fields : List String) : framed (f :: fields) ≠ framed [] := by
  intro h
  have hsize := congrArg String.utf8ByteSize h
  have hcolon : ":".utf8ByteSize = 1 := by decide
  rw [framed_cons, String.utf8ByteSize_append, String.utf8ByteSize_append, String.utf8ByteSize_append, hcolon] at hsize
  change _ = 0 at hsize
  omega

/-- The fields are read back from their frames. -/
theorem framed_injective : Function.Injective framed
  | [], [], _ => rfl
  | [], g :: gs, h => absurd h.symm (framed_ne g gs)
  | f :: fs, [], h => absurd h (framed_ne f fs)
  | f :: fs, g :: gs, h => by
    rw [framed_cons, framed_cons] at h
    obtain ⟨rfl, hrest⟩ := frame_cancels h
    rw [framed_injective hrest]

/-- What is hashed of fields after the name of the encoding. -/
def hashed (name : String) (fields : List Text) : String := name ++ framed (fields.map utf8)

theorem hashed_congr {name : String} {fields fields' : List Text} (h : fields.map utf8 = fields'.map utf8) :
    hashed name fields = hashed name fields' := by rw [hashed, hashed, h]

theorem hashed_cancels {name : String} {fields fields' : List Text} (h : hashed name fields = hashed name fields') :
    fields.map utf8 = fields'.map utf8 := framed_injective (append_sized rfl h).2

theorem hashed_injective {name : String} {fields fields' : List Text} (hf : ∀ text ∈ fields, WellFormed text)
    (hf' : ∀ text ∈ fields', WellFormed text) (h : hashed name fields = hashed name fields') : fields = fields' := by
  have hread : ∀ {texts : List Text}, (∀ text ∈ texts, WellFormed text) →
      (texts.map utf8).map (fun s => Utf16.units s.toList) = texts := fun h => by
    rw [List.map_map]
    exact (List.map_congr_left fun text ht => units_utf8 (h text ht)).trans (List.map_id _)
  rw [← hread hf, ← hread hf', hashed_cancels h]

/-- A text of ASCII characters. -/
def ascii (s : String) : Text := s.toList.map Char.toNat

/-! ## The values -/

structure ResourceBoundsText where
  (cpu memoryBytes pids wallClockSeconds outputBytes : Text)

def ResourceBoundsText.fields (bounds : ResourceBoundsText) : List Text :=
  [bounds.cpu, bounds.memoryBytes, bounds.pids, bounds.wallClockSeconds, bounds.outputBytes]

/-- `NativeOrdinaryDescriptor`, but for its evidence class and arguments, which have one value each. -/
structure DescriptorText where
  (projectId repositoryId protectedRef expectedProtectedHead candidateCommit candidateTree : Text)
  (policyRevision requiredReviewRevision requiredJobSetRevision admissionGeneration jobName : Text)
  runnerBaseImage : Text
  bounds : ResourceBoundsText
  (configBlobObjectId configBlobSha256 scriptPath scriptObjectId scriptSha256 jobImage : Text)

/-- The fields that `nativeDescriptorDigest` hashes. -/
def DescriptorText.fields (d : DescriptorText) : List Text :=
  [d.projectId, d.repositoryId, d.protectedRef, d.expectedProtectedHead, d.candidateCommit, d.candidateTree,
    d.policyRevision, d.requiredReviewRevision, d.requiredJobSetRevision, d.admissionGeneration, d.jobName,
    ascii "candidate-controlled", d.configBlobObjectId, d.configBlobSha256, d.scriptPath, d.scriptObjectId, d.scriptSha256]
  ++ descriptorArgv.map ascii ++ [d.jobImage, d.runnerBaseImage] ++ d.bounds.fields

def descriptorPreimage (d : DescriptorText) : String := hashed "dim-native-ordinary-execution-v1" d.fields

/-- The part of `NativeReviewJobEvent` that names a review and a job. -/
structure ReviewJobText where
  (projectId repositoryId protectedRef reviewId expectedProtectedHead candidateCommit : Text)
  (candidateTree policyRevision requiredReviewRevision requiredJobSetRevision jobName : Text)

/-- The fields that `nativeReviewJobTupleDigest` hashes. -/
def ReviewJobText.fields (event : ReviewJobText) : List Text :=
  [event.projectId, event.repositoryId, event.protectedRef, event.reviewId, event.expectedProtectedHead,
    event.candidateCommit, event.candidateTree, event.policyRevision, event.requiredReviewRevision,
    event.requiredJobSetRevision, event.jobName, ascii "candidate-controlled"]

def reviewJobPreimage (event : ReviewJobText) : String := hashed "dim-native-review-job-tuple-v1" event.fields

structure CapacityText where
  (hostId capacity runnerBaseImage jobBaseImage : Text)
  bounds : ResourceBoundsText

def CapacityText.fields (item : CapacityText) : List Text :=
  [item.hostId, item.capacity, item.runnerBaseImage, item.jobBaseImage] ++ item.bounds.fields

/-- The key that the entries are sorted by. -/
def CapacityText.key (item : CapacityText) : Text := item.hostId ++ 0 :: item.capacity

def orderedCapacities (capacities : List CapacityText) : List CapacityText :=
  capacities.insertionSort fun left right => left.key ≤ right.key

/-- What `nativeCapacityConfigDigest` hashes. -/
def capacityPreimage (capacities : List CapacityText) : String :=
  hashed "dim-native-ordinary-capacities-v2" ((orderedCapacities capacities).flatMap CapacityText.fields)

/-! ## What the parser of events admits -/

/-- A text that is tested against a pattern of ASCII characters. -/
def matching (pattern : String → Bool) (text : Text) : Bool :=
  text.all (· < 128) && pattern (String.ofList (text.map Char.ofNat))

/-- `/^[A-Za-z0-9](?:[A-Za-z0-9._-]{0,126}[A-Za-z0-9])?$/`. -/
def revisionPattern (s : String) : Bool :=
  Pattern.bounded Pattern.alphanumeric Pattern.generationRest 127 s.toList && s.toList.getLast?.any Pattern.alphanumeric

/-- `includes`. -/
def includes (part text : Text) : Bool := text.tails.any part.isPrefixOf

/-- `protectedRef`: `.+` has no line terminator. -/
def protectedRef (ref : Text) : Bool :=
  (ascii "refs/heads/").isPrefixOf ref && 11 < ref.length && (ref.drop 11).all
    (fun u => !([10, 13, 0x2028, 0x2029].contains u))
    && !(ascii "/").isSuffixOf ref && !(ascii ".").isSuffixOf ref && !(ascii ".lock").isSuffixOf ref
    && !includes (ascii "..") ref && !includes (ascii "@\x7b") ref
    && ref.all fun u => 0x20 < u && u ≠ 0x7f && !(ascii "\\~^:?*[]").contains u

/-- What `parseNativeReviewJobEvent` asks of the fields that are hashed. -/
def parsesReviewJob (event : ReviewJobText) : Bool :=
  [event.projectId, event.repositoryId].all (matching Projects.projectIdPattern) && protectedRef event.protectedRef
    && matching (Pattern.hexString 64) event.reviewId
    && [event.expectedProtectedHead, event.candidateCommit, event.candidateTree].all (matching Projects.objectIdPattern)
    && [event.policyRevision, event.requiredReviewRevision, event.requiredJobSetRevision].all (matching revisionPattern)
    && matching Pattern.label event.jobName

/-! ## The fields tell the values apart -/

theorem descriptorFields_injective : Function.Injective DescriptorText.fields := by
  rintro ⟨_, _, _, _, _, _, _, _, _, _, _, _, ⟨_, _, _, _, _⟩, _, _, _, _, _, _⟩
    ⟨_, _, _, _, _, _, _, _, _, _, _, _, ⟨_, _, _, _, _⟩, _, _, _, _, _, _⟩ h
  simpa [DescriptorText.fields, ResourceBoundsText.fields, and_assoc, and_left_comm, and_comm] using h

theorem reviewJobFields_injective : Function.Injective ReviewJobText.fields := by
  rintro ⟨⟩ ⟨⟩ h
  simpa [ReviewJobText.fields] using h

theorem capacityFields_injective : Function.Injective CapacityText.fields := by
  rintro ⟨_, _, _, _, ⟨_, _, _, _, _⟩⟩ ⟨_, _, _, _, ⟨_, _, _, _, _⟩⟩ h
  simpa [CapacityText.fields, ResourceBoundsText.fields] using h

theorem capacitiesFields_injective : Function.Injective fun items : List CapacityText => items.flatMap CapacityText.fields
  | [], [], _ => rfl
  | [], item :: items, h => by simp [CapacityText.fields] at h
  | item :: items, [], h => by simp [CapacityText.fields] at h
  | item :: items, item' :: items', h => by
    have hlength : item.fields.length = item'.fields.length := rfl
    obtain ⟨hitem, hitems⟩ := List.append_inj (by simpa only [List.flatMap_cons] using h) hlength
    rw [capacityFields_injective hitem, capacitiesFields_injective hitems]

/-! ## The order of the entries -/

/-- What is hashed of an entry. -/
def CapacityText.bytes (item : CapacityText) : List String := item.fields.map utf8

/-- Where the entries of one key have the same bytes, they are hashed alike in every order. -/
theorem orderedCapacities_perm {items items' : List CapacityText} (h : items.Perm items')
    (hkey : ∀ a ∈ items, ∀ b ∈ items, a.key = b.key → a.bytes = b.bytes) :
    (orderedCapacities items).map CapacityText.bytes = (orderedCapacities items').map CapacityText.bytes := by
  let keyed : CapacityText → Text × List String := fun item => (item.key, item.bytes)
  let order : Text × List String → Text × List String → Prop := fun left right => left.1 ≤ right.1
  have : DecidableRel order := fun left right => inferInstanceAs (Decidable (left.1 ≤ right.1))
  have : Std.Total order := ⟨fun a b => le_total a.1 b.1⟩
  have : IsTrans _ order := ⟨fun _ _ _ => le_trans⟩
  have hsorted : ∀ l : List CapacityText, (orderedCapacities l).map keyed = (l.map keyed).insertionSort order := fun l =>
    List.map_insertionSort _ _ _ _ fun _ _ _ _ => Iff.rfl
  have hsame : (items.map keyed).insertionSort order = (items'.map keyed).insertionSort order := by
    have hperm := (List.perm_insertionSort order _).trans ((h.map keyed).trans (List.perm_insertionSort order _).symm)
    refine hperm.eq_of_pairwise (fun p q hp hq hle hge => ?_) (List.pairwise_insertionSort _ _)
      (List.pairwise_insertionSort _ _)
    obtain ⟨a, ha, rfl⟩ := List.mem_map.mp ((List.perm_insertionSort _ _).mem_iff.mp hp)
    obtain ⟨b, hb, rfl⟩ := List.mem_map.mp ((List.perm_insertionSort _ _).mem_iff.mp hq)
    have heq : a.key = b.key := le_antisymm hle hge
    exact Prod.ext heq (hkey a ha b (h.mem_iff.mpr hb) heq)
  have hbytes : ∀ l : List CapacityText, (orderedCapacities l).map CapacityText.bytes =
      ((orderedCapacities l).map keyed).map Prod.snd := fun l => by rw [List.map_map]; rfl
  rw [hbytes, hbytes, hsorted, hsorted, hsame]

/-- Two entries of one key keep their order. -/
theorem orderedInsert_twice {a b : CapacityText} (hkey : a.key = b.key) : ∀ rest : List CapacityText, ∃ before after,
    (rest.orderedInsert (fun l r => l.key ≤ r.key) b).orderedInsert (fun l r => l.key ≤ r.key) a =
      before ++ a :: b :: after ∧
    (rest.orderedInsert (fun l r => l.key ≤ r.key) a).orderedInsert (fun l r => l.key ≤ r.key) b =
      before ++ b :: a :: after
  | [] => ⟨[], [], by simp [hkey], by simp [hkey]⟩
  | first :: rest => by
    by_cases hle : b.key ≤ first.key
    · exact ⟨[], first :: rest, by simp [hle, hkey], by simp [hle, hkey]⟩
    · obtain ⟨before, after, h, h'⟩ := orderedInsert_twice hkey rest
      have hle' : ¬ a.key ≤ first.key := hkey ▸ hle
      simp only [List.orderedInsert_cons, hle, hle', if_false, h, h']
      exact ⟨first :: before, after, rfl, rfl⟩

/-- A configuration is hashed alike in every order if and only if its entries of one key have the same bytes. -/
theorem capacityPreimage_perm {items : List CapacityText} :
    (∀ items', items.Perm items' → capacityPreimage items = capacityPreimage items') ↔
      ∀ a ∈ items, ∀ b ∈ items, a.key = b.key → a.bytes = b.bytes := by
  constructor
  · intro h a ha b hb hkey
    obtain ⟨before, after, rfl⟩ := List.append_of_mem ha
    have hfirst : (before ++ a :: after).Perm (a :: (before ++ after)) := List.perm_middle
    rcases List.mem_cons.mp (hfirst.mem_iff.mp hb) with rfl | hb
    · rfl
    obtain ⟨before', after', hrest⟩ := List.append_of_mem hb
    have hab : (before ++ a :: after).Perm (a :: b :: (before' ++ after')) := by
      rw [hrest] at hfirst
      exact hfirst.trans (.cons a List.perm_middle)
    have hsame := hashed_cancels ((h _ hab).symm.trans (h _ (hab.trans (.swap b a _))))
    obtain ⟨l, r, hleft, hright⟩ := orderedInsert_twice hkey (orderedCapacities (before' ++ after'))
    rw [orderedCapacities, orderedCapacities, List.insertionSort_cons, List.insertionSort_cons, List.insertionSort_cons,
      List.insertionSort_cons, ← orderedCapacities, hleft, hright] at hsame
    simp only [List.flatMap_append, List.flatMap_cons, List.map_append, List.append_cancel_left_eq] at hsame
    exact (List.append_inj hsame rfl).1
  · intro hkey items' h
    have hall : ∀ l : List CapacityText, (l.flatMap CapacityText.fields).map utf8 = (l.map CapacityText.bytes).flatten :=
      fun l => by rw [List.map_flatMap, List.flatMap_def]; rfl
    exact hashed_congr (by rw [hall, hall, orderedCapacities_perm h hkey])

/-! ## The digests -/

/-- The value whose other texts are empty. -/
def DescriptorText.ofPath (scriptPath : Text) : DescriptorText :=
  ⟨[], [], [], [], [], [], [], [], [], [], [], [], ⟨[], [], [], [], []⟩, [], [], scriptPath, [], [], []⟩

def ReviewJobText.ofRef (protectedRef : Text) : ReviewJobText := ⟨[], [], protectedRef, [], [], [], [], [], [], [], []⟩

def CapacityText.ofImage (jobBaseImage : Text) : CapacityText := ⟨[], [], [], jobBaseImage, ⟨[], [], [], [], []⟩⟩

section
variable {Admitted : Text → Prop} {t t' : Text}

theorem admitted_ofPath (hwell : ∀ text, WellFormed text → Admitted text) (ht : Admitted t) :
    ∀ text ∈ (DescriptorText.ofPath t).fields, Admitted text := by
  have hempty : Admitted [] := hwell _ rfl
  have hclass : Admitted (ascii "candidate-controlled") := hwell _ (by decide)
  have hargv : ∀ argument ∈ descriptorArgv, Admitted (ascii argument) := fun argument h =>
    hwell _ ((by decide : ∀ argument ∈ descriptorArgv, WellFormed (ascii argument)) argument h)
  simpa [DescriptorText.fields, DescriptorText.ofPath, ResourceBoundsText.fields, hempty, hclass, ht, or_imp, forall_and]
    using hargv

theorem admitted_ofRef (hwell : ∀ text, WellFormed text → Admitted text) (ht : Admitted t) :
    ∀ text ∈ (ReviewJobText.ofRef t).fields, Admitted text := by
  have hempty : Admitted [] := hwell _ rfl
  have hclass : Admitted (ascii "candidate-controlled") := hwell _ (by decide)
  simp [ReviewJobText.fields, ReviewJobText.ofRef, hempty, hclass, ht]

theorem admitted_ofImage (hwell : ∀ text, WellFormed text → Admitted text) (ht : Admitted t) :
    ∀ text ∈ (CapacityText.ofImage t).fields, Admitted text := by
  have hempty : Admitted [] := hwell _ rfl
  simp [CapacityText.fields, CapacityText.ofImage, ResourceBoundsText.fields, hempty, ht]

end

/-- What is hashed determines the value, a capacity configuration up to the order of its entries, where every text has
its surrogates in pairs; and among texts with all of these no other may be admitted. A configuration is hashed alike in
every order if and only if its entries of one key have the same bytes. -/
theorem preimages_injective (Admitted : Text → Prop) (hwell : ∀ text, WellFormed text → Admitted text) :
    ((∀ d d' : DescriptorText, (∀ text ∈ d.fields ++ d'.fields, Admitted text) →
      (descriptorPreimage d).toUTF8 = (descriptorPreimage d').toUTF8 → d = d') ↔ ∀ text, Admitted text → WellFormed text)
    ∧ ((∀ event event' : ReviewJobText, (∀ text ∈ event.fields ++ event'.fields, Admitted text) →
      (reviewJobPreimage event).toUTF8 = (reviewJobPreimage event').toUTF8 → event = event') ↔
        ∀ text, Admitted text → WellFormed text)
    ∧ ((∀ items items' : List CapacityText, (∀ item ∈ items ++ items', ∀ text ∈ item.fields, Admitted text) →
      (capacityPreimage items).toUTF8 = (capacityPreimage items').toUTF8 → items.Perm items') ↔
        ∀ text, Admitted text → WellFormed text)
    ∧ ∀ items : List CapacityText,
      (∀ items', items.Perm items' → (capacityPreimage items).toUTF8 = (capacityPreimage items').toUTF8) ↔
        ∀ item ∈ items, ∀ item' ∈ items, item.key = item'.key → item.bytes = item'.bytes := by
  have hbytes : ∀ {s t : String}, s.toUTF8 = t.toUTF8 → s = t := String.toByteArray_inj.mp
  refine ⟨⟨fun h _ => wellFormed_of_told hwell fun t t' ht ht' heq => ?_, fun hall d d' hf h => ?_⟩,
    ⟨fun h _ => wellFormed_of_told hwell fun t t' ht ht' heq => ?_, fun hall event event' hf h => ?_⟩,
    ⟨fun h _ => wellFormed_of_told hwell fun t t' ht ht' heq => ?_, fun hall items items' hf h => ?_⟩, fun items => ?_⟩
  · have hsame : descriptorPreimage (.ofPath t) = descriptorPreimage (.ofPath t') :=
      hashed_congr (by simp [DescriptorText.fields, DescriptorText.ofPath, heq])
    refine congrArg DescriptorText.scriptPath (h (.ofPath t) (.ofPath t') ?_ (congrArg String.toUTF8 hsame))
    exact List.forall_mem_append.mpr ⟨admitted_ofPath hwell ht, admitted_ofPath hwell ht'⟩
  · obtain ⟨hd, hd'⟩ := List.forall_mem_append.mp fun text htext => hall text (hf text htext)
    exact descriptorFields_injective (hashed_injective hd hd' (hbytes h))
  · have hsame : reviewJobPreimage (.ofRef t) = reviewJobPreimage (.ofRef t') :=
      hashed_congr (by simp [ReviewJobText.fields, ReviewJobText.ofRef, heq])
    refine congrArg ReviewJobText.protectedRef (h (.ofRef t) (.ofRef t') ?_ (congrArg String.toUTF8 hsame))
    exact List.forall_mem_append.mpr ⟨admitted_ofRef hwell ht, admitted_ofRef hwell ht'⟩
  · obtain ⟨he, he'⟩ := List.forall_mem_append.mp fun text htext => hall text (hf text htext)
    exact reviewJobFields_injective (hashed_injective he he' (hbytes h))
  · have hsame : capacityPreimage [.ofImage t] = capacityPreimage [.ofImage t'] :=
      hashed_congr (by simp [orderedCapacities, CapacityText.fields, CapacityText.ofImage, heq])
    have hperm := h [.ofImage t] [.ofImage t'] ?_ (congrArg String.toUTF8 hsame)
    · exact congrArg CapacityText.jobBaseImage (List.singleton_perm_singleton.mp hperm)
    · exact List.forall_mem_append.mpr ⟨List.forall_mem_singleton.mpr (admitted_ofImage hwell ht),
        List.forall_mem_singleton.mpr (admitted_ofImage hwell ht')⟩
  · have hfields : ∀ l : List CapacityText, (∀ item ∈ l, ∀ text ∈ item.fields, Admitted text) →
        ∀ text ∈ (orderedCapacities l).flatMap CapacityText.fields, WellFormed text := by
      intro l hl text ht
      obtain ⟨item, hitem, htext⟩ := List.mem_flatMap.mp ht
      exact hall text (hl item ((List.perm_insertionSort _ l).mem_iff.mp hitem) text htext)
    obtain ⟨hi, hi'⟩ := List.forall_mem_append.mp hf
    have hsorted := capacitiesFields_injective (hashed_injective (hfields items hi) (hfields items' hi') (hbytes h))
    have hperm : (orderedCapacities items').Perm items' := List.perm_insertionSort _ _
    exact (List.perm_insertionSort _ items).symm.trans (hsorted ▸ hperm)
  · rw [← capacityPreimage_perm]
    exact forall₂_congr fun _ _ => String.toByteArray_inj

namespace Sample

def reviewJob (protectedRef : Text) : ReviewJobText :=
  { projectId := ascii "project", repositoryId := ascii "root", protectedRef, reviewId := List.replicate 64 48,
    expectedProtectedHead := List.replicate 40 48, candidateCommit := List.replicate 40 49,
    candidateTree := List.replicate 40 50, policyRevision := ascii "1", requiredReviewRevision := ascii "1",
    requiredJobSetRevision := ascii "1", jobName := ascii "test" }

def capacityItem (hostId jobBaseImage : Text) : CapacityText := { CapacityText.ofImage jobBaseImage with hostId }

end Sample

/-- A review job with a ref of two surrogates, and another one; two entries in either order. -/
theorem preimages_injective_sample :
    (reviewJobPreimage (Sample.reviewJob [0xd83d, 0xde00])).toUTF8 ≠ (reviewJobPreimage (Sample.reviewJob [])).toUTF8
    ∧ (capacityPreimage [Sample.capacityItem [97] [], Sample.capacityItem [98] []]).toUTF8
      = (capacityPreimage [Sample.capacityItem [98] [], Sample.capacityItem [97] []]).toUTF8 := by
  obtain ⟨-, hevents, -, horder⟩ := preimages_injective WellFormed fun _ h => h
  refine ⟨fun h => ?_, (horder _).mpr (by decide) _ (.swap _ _ _)⟩
  exact absurd (congrArg ReviewJobText.protectedRef (hevents.mpr (fun _ h => h) _ _ (by decide +kernel) h)) (by decide)

/-- Two events that their parser admits have the same bytes: a surrogate without its partner is hashed as any other. And
entries of one key are hashed in the order in which they come. -/
theorem lone_surrogates_collide :
    (∃ event event' : ReviewJobText, parsesReviewJob event ∧ parsesReviewJob event' ∧ event ≠ event' ∧
      (reviewJobPreimage event).toUTF8 = (reviewJobPreimage event').toUTF8)
    ∧ ∃ items items' : List CapacityText, items.Perm items' ∧
      (capacityPreimage items).toUTF8 ≠ (capacityPreimage items').toUTF8 := by
  refine ⟨⟨Sample.reviewJob (ascii "refs/heads/" ++ [0xd800]), Sample.reviewJob (ascii "refs/heads/" ++ [0xd801]),
    by decide +kernel, by decide +kernel, fun h => absurd (congrArg ReviewJobText.protectedRef h) (by decide),
    congrArg String.toUTF8 (hashed_congr (by decide +kernel))⟩,
    [Sample.capacityItem [] [97], Sample.capacityItem [] [98]], [Sample.capacityItem [] [98], Sample.capacityItem [] [97]],
    .swap _ _ _, fun h => ?_⟩
  exact absurd (String.toByteArray_inj.mp h) (by decide)

end Dim.Ordinary
