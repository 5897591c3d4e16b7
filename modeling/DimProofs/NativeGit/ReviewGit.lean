/-
The changes of a review, as `git diff --raw -z` writes them: records that end in NUL, of a header and one path, or two for a
rename or a copy. Texts for display, which are made of the bytes, are left out.
-/
import DimProofs.Lib.Decimal
import DimProofs.Lib.Pattern
import DimProofs.NativeGit.Queue

namespace Dim.NativeGit

open Ordinary RootCi

/-! ## The parser -/

inductive RawDiffError where
  | notTerminated | incomplete | unsupported | renameIncomplete | unreadable
deriving DecidableEq

/-- The fields from where the scan is; `field` is what it has passed of the field it is in. -/
def splitFields (field : List UInt8) : List UInt8 → Except RawDiffError (List (List UInt8))
  | [] => if field = [] then .ok [] else .error .notTerminated
  | byte :: rest =>
    if byte = 0 then (splitFields [] rest).map (field :: ·) else splitFields (field ++ [byte]) rest

def splitNul (value : List UInt8) : Except RawDiffError (List (List UInt8)) := splitFields [] value

/-- `toString("ascii")`. -/
def asciiText (bytes : List UInt8) : List Char := bytes.map fun byte => Char.ofNat (byte.toNat % 128)

def octal : Pattern.CharClass := Pattern.within '0' '7'

structure Metadata where
  (status oldMode newMode oldObjectId newObjectId : String)
  similarity : Option Nat

def statusOf : Char → Option String
  | 'A' => some "added"
  | 'D' => some "deleted"
  | 'M' => some "modified"
  | 'R' => some "renamed"
  | 'C' => some "copied"
  | 'T' => some "type-changed"
  | _ => none

/-- An object id without digits other than zero is written as one zero. -/
def objectIdOf (text : List Char) : String := if text.all (· = '0') then "0" else String.ofList text

def isMode (text : List Char) : Bool := text.length = 6 && text.all octal

def isObject (text : List Char) : Bool := text ≠ [] && text.all Pattern.hex

/-- `^:([0-7]{6}) ([0-7]{6}) ([0-9a-f]+) ([0-9a-f]+) ([ADMTRC])([0-9]{1,3})?$`; none of the parts has a space. -/
def parseMetadata (value : List Char) : Except RawDiffError Metadata :=
  match value.splitOn ' ' with
  | [':' :: oldMode, newMode, oldObject, newObject, code :: score] =>
    match statusOf code with
    | some status =>
      if isMode oldMode && isMode newMode && isObject oldObject && isObject newObject
          && score.length ≤ 3 && score.all Pattern.digit then
        .ok {
          status, oldMode := String.ofList oldMode, newMode := String.ofList newMode
          oldObjectId := objectIdOf oldObject, newObjectId := objectIdOf newObject
          similarity := if score = [] then none else some (Decimal.value score) }
      else .error .unsupported
    | none => .error .unsupported
  | _ => .error .unsupported

section
variable (catFile : String → Except RawDiffError (List UInt8))

def readBlob (objectId : String) : Except RawDiffError (List UInt8) := if objectId = "0" then .ok [] else catFile objectId

/-- The target of a symbolic link. -/
def targetOf (mode objectId : String) : Except RawDiffError (Option (List UInt8)) :=
  if mode = "120000" then (readBlob catFile objectId).map some else .ok none

def isPair (status : String) : Bool := status = "renamed" || status = "copied"

def changeOf (parsed : Metadata) (firstPath : List UInt8) (secondPath : Option (List UInt8)) :
    Except RawDiffError AuthoritativeNativeChangedPath := do
  let oldTarget ← targetOf catFile parsed.oldMode parsed.oldObjectId
  let newTarget ← targetOf catFile parsed.newMode parsed.newObjectId
  return {
    status := parsed.status, oldMode := parsed.oldMode, newMode := parsed.newMode
    oldObjectId := parsed.oldObjectId, newObjectId := parsed.newObjectId, similarity := parsed.similarity
    oldPathBytes := if parsed.status = "added" then [] else firstPath
    newPathBytes := if parsed.status = "deleted" then [] else secondPath.getD firstPath
    oldSymlinkTargetBytes := oldTarget, newSymlinkTargetBytes := newTarget }

/-- One record of the fields, and the fields after it. -/
def parseRecord (metadata : List UInt8) (fields : List (List UInt8)) :
    Except RawDiffError (AuthoritativeNativeChangedPath × List (List UInt8)) :=
  match fields with
  | [] => .error .incomplete
  | firstPath :: rest => do
    let parsed ← parseMetadata (asciiText metadata)
    if isPair parsed.status then
      match rest with
      | [] => .error .renameIncomplete
      | secondPath :: rest => return (← changeOf catFile parsed firstPath (some secondPath), rest)
    else return (← changeOf catFile parsed firstPath none, rest)

/-- The loop over the fields, which takes two or three at a time. -/
def parseFields : Nat → List (List UInt8) → Except RawDiffError (List AuthoritativeNativeChangedPath)
  | _, [] => .ok []
  | 0, _ :: _ => .error .incomplete
  | fuel + 1, metadata :: fields => do
    let (change, rest) ← parseRecord catFile metadata fields
    return change :: (← parseFields fuel rest)

def parseChanges (output : List UInt8) : Except RawDiffError (List AuthoritativeNativeChangedPath) := do
  let fields ← splitNul output
  parseFields catFile fields.length fields

end

/-! ## What Git writes -/

def statusCode (status : String) : Char :=
  if status = "added" then 'A' else if status = "deleted" then 'D' else if status = "modified" then 'M'
  else if status = "renamed" then 'R' else if status = "copied" then 'C' else 'T'

/-- An object id of `width` digits. -/
def printedObject (width : Nat) (objectId : String) : List Char :=
  if objectId = "0" then List.replicate width '0' else objectId.toList

/-- `%03d`. -/
def printedScore : Option Nat → List Char
  | none => []
  | some score => Decimal.padStart 3 (Nat.toDigits 10 score)

def header (width : Nat) (change : AuthoritativeNativeChangedPath) : List Char :=
  List.intercalate [' '] [':' :: change.oldMode.toList, change.newMode.toList, printedObject width change.oldObjectId,
    printedObject width change.newObjectId, statusCode change.status :: printedScore change.similarity]

def asciiBytes (text : List Char) : List UInt8 := text.map fun c => UInt8.ofNat c.toNat

def printedPaths (change : AuthoritativeNativeChangedPath) : List (List UInt8) :=
  if isPair change.status then [change.oldPathBytes, change.newPathBytes]
  else if change.status = "added" then [change.newPathBytes]
  else [change.oldPathBytes]

def printedRecord (width : Nat) (change : AuthoritativeNativeChangedPath) : List (List UInt8) :=
  asciiBytes (header width change) :: printedPaths change

/-- The output of `git diff --raw -z` for these changes. -/
def rawDiff (width : Nat) (changes : List AuthoritativeNativeChangedPath) : List UInt8 :=
  (changes.flatMap (printedRecord width)).flatMap (· ++ [0])

/-- An object id, or zero where there is no object. -/
def ObjectId (objectId : String) : Prop :=
  objectId = "0" ∨ isObject objectId.toList = true ∧ objectId.toList.all (· = '0') = false

/-- A change that Git has, whose links have these targets. -/
structure GitChange (catFile : String → Except RawDiffError (List UInt8)) (change : AuthoritativeNativeChangedPath) :
    Prop where
  status : change.status ∈ ["added", "deleted", "modified", "renamed", "copied", "type-changed"]
  oldMode : isMode change.oldMode.toList = true
  newMode : isMode change.newMode.toList = true
  oldObject : ObjectId change.oldObjectId
  newObject : ObjectId change.newObjectId
  score : ∀ score, change.similarity = some score → score < 1000
  oldPath : 0 ∉ change.oldPathBytes
  newPath : 0 ∉ change.newPathBytes
  added : change.status = "added" → change.oldPathBytes = []
  deleted : change.status = "deleted" → change.newPathBytes = []
  same : change.status = "modified" ∨ change.status = "type-changed" → change.newPathBytes = change.oldPathBytes
  oldTarget : targetOf catFile change.oldMode change.oldObjectId = .ok change.oldSymlinkTargetBytes
  newTarget : targetOf catFile change.newMode change.newObjectId = .ok change.newSymlinkTargetBytes

/-! ## The texts of a header -/

/-- A character of a header other than the space. -/
def Visible (c : Char) : Prop := 32 < c.toNat ∧ c.toNat < 128

theorem Visible.within {low high c : Char} (h : Pattern.within low high c = true) (hlow : 32 < low.toNat)
    (hhigh : high.toNat < 128) : Visible c := by
  simp only [Pattern.within, Bool.and_eq_true, decide_eq_true_eq] at h
  have hl : low.toNat ≤ c.toNat := UInt32.le_iff_toNat_le.mp h.1
  have hh : c.toNat ≤ high.toNat := UInt32.le_iff_toNat_le.mp h.2
  exact ⟨Nat.lt_of_lt_of_le hlow hl, Nat.lt_of_le_of_lt hh hhigh⟩

theorem Visible.hex {c : Char} (h : Pattern.hex c = true) : Visible c := by
  rcases Bool.or_eq_true _ _ ▸ h with h | h
  · exact Visible.within h (by decide) (by decide)
  · exact Visible.within h (by decide) (by decide)

/-- Every character is visible. -/
def VisibleText (text : List Char) : Prop := ∀ c ∈ text, Visible c

theorem VisibleText.cons {c : Char} {text : List Char} (hc : Visible c) (h : VisibleText text) : VisibleText (c :: text) :=
  List.forall_mem_cons.mpr ⟨hc, h⟩

theorem VisibleText.no_space {text : List Char} (h : VisibleText text) : ' ' ∉ text := fun hm => by
  have := (h _ hm).1
  exact absurd this (by decide)

theorem VisibleText.mode {mode : List Char} (h : isMode mode = true) : VisibleText mode := fun c hc => by
  have hall := (Bool.and_eq_true _ _ ▸ h : _ ∧ _).2
  exact Visible.within (List.all_eq_true.mp hall c hc) (by decide) (by decide)

theorem VisibleText.object {objectId : List Char} (h : isObject objectId = true) : VisibleText objectId := fun c hc => by
  have hall := (Bool.and_eq_true _ _ ▸ h : _ ∧ _).2
  exact Visible.hex (List.all_eq_true.mp hall c hc)

theorem isDigit_iff {c : Char} : c.isDigit = true ↔ Pattern.digit c = true := by
  simp [Char.isDigit, Pattern.digit, Pattern.within, Char.le_def]

theorem printedObject_spec {width : Nat} (hwidth : 0 < width) {objectId : String} (h : ObjectId objectId) :
    isObject (printedObject width objectId) = true ∧ objectIdOf (printedObject width objectId) = objectId := by
  unfold printedObject
  split
  · rename_i hzero
    have hne : List.replicate width '0' ≠ [] := by simpa using Nat.pos_iff_ne_zero.mp hwidth
    have hhex : (List.replicate width '0').all Pattern.hex = true := by
      rw [List.all_eq_true]
      intro c hc
      rw [List.eq_of_mem_replicate hc]
      decide
    have hall : (List.replicate width '0').all (· = '0') = true := by simp
    exact ⟨by simp [isObject, hne, hhex], by rw [objectIdOf, if_pos hall, hzero]⟩
  · rename_i hne
    obtain ⟨hobject, hsome⟩ := h.resolve_left hne
    exact ⟨hobject, by simp [objectIdOf, hsome]⟩

theorem printedScore_spec {similarity : Option Nat} (h : ∀ score, similarity = some score → score < 1000) :
    (printedScore similarity).length ≤ 3 ∧ (printedScore similarity).all Pattern.digit = true
      ∧ (if printedScore similarity = [] then none else some (Decimal.value (printedScore similarity))) = similarity := by
  cases similarity with
  | none => exact ⟨Nat.zero_le _, rfl, rfl⟩
  | some score =>
    have hlength : (printedScore (some score)).length = 3 := Decimal.length_padStart (by decide) (h score rfl)
    have hne : printedScore (some score) ≠ [] := fun he => by rw [he] at hlength; cases hlength
    refine ⟨Nat.le_of_eq hlength, ?_, ?_⟩
    · rw [List.all_eq_true]
      exact fun c hc => isDigit_iff.mp ((Decimal.digits_toDigits score).padStart 3 c hc)
    · rw [if_neg hne, printedScore, Decimal.value_padStart, Decimal.value_toDigits]

theorem statusOf_code {status : String}
    (h : status ∈ ["added", "deleted", "modified", "renamed", "copied", "type-changed"]) :
    statusOf (statusCode status) = some status ∧ Visible (statusCode status) := by
  simp only [List.mem_cons, List.not_mem_nil, or_false] at h
  rcases h with rfl | rfl | rfl | rfl | rfl | rfl <;> exact ⟨by decide +kernel, by unfold Visible; decide +kernel⟩

variable {catFile : String → Except RawDiffError (List UInt8)} {change : AuthoritativeNativeChangedPath} {width : Nat}

theorem asciiText_asciiBytes : ∀ {text : List Char}, (∀ c ∈ text, c.toNat < 128) → asciiText (asciiBytes text) = text
  | [], _ => rfl
  | c :: text, h => by
    have hc := h c List.mem_cons_self
    have htext : asciiText (asciiBytes text) = text := asciiText_asciiBytes fun d hd => h d (List.mem_cons_of_mem _ hd)
    have hbyte : (UInt8.ofNat c.toNat).toNat % 128 = c.toNat := by
      rw [UInt8.toNat_ofNat']
      omega
    calc asciiText (asciiBytes (c :: text))
        = Char.ofNat ((UInt8.ofNat c.toNat).toNat % 128) :: asciiText (asciiBytes text) := rfl
      _ = c :: text := by rw [hbyte, Char.ofNat_toNat, htext]

/-- The parts of a header are visible, and so are told apart by the spaces. -/
theorem GitChange.parts (h : GitChange catFile change) (hwidth : 0 < width) :
    ∀ part ∈ [':' :: change.oldMode.toList, change.newMode.toList, printedObject width change.oldObjectId,
      printedObject width change.newObjectId, statusCode change.status :: printedScore change.similarity],
        VisibleText part := by
  simp only [List.forall_mem_cons, List.not_mem_nil, IsEmpty.forall_iff, implies_true, and_true]
  refine ⟨.cons ⟨by decide, by decide⟩ (.mode h.oldMode), .mode h.newMode, .object (printedObject_spec hwidth h.oldObject).1,
    .object (printedObject_spec hwidth h.newObject).1, .cons (statusOf_code h.status).2 fun c hc => ?_⟩
  exact Visible.within (List.all_eq_true.mp (printedScore_spec h.score).2.1 c hc) (by decide) (by decide)

theorem mem_intercalate {α : Type} {a c : α} : ∀ {parts : List (List α)}, c ∈ List.intercalate [a] parts →
    c = a ∨ ∃ part ∈ parts, c ∈ part
  | [], h => by simp [List.intercalate] at h
  | [part], h => .inr ⟨part, List.mem_cons_self, by simpa [List.intercalate] using h⟩
  | part :: next :: parts, h => by
    have hsplit : List.intercalate [a] (part :: next :: parts) = part ++ a :: List.intercalate [a] (next :: parts) := by
      simp [List.intercalate]
    rw [hsplit, List.mem_append, List.mem_cons] at h
    rcases h with h | rfl | h
    · exact .inr ⟨part, List.mem_cons_self, h⟩
    · exact .inl rfl
    · exact (mem_intercalate h).imp_right fun ⟨p, hp, hc⟩ => ⟨p, List.mem_cons_of_mem _ hp, hc⟩

theorem GitChange.header_range (h : GitChange catFile change) (hwidth : 0 < width) {c : Char}
    (hc : c ∈ header width change) : 0 < c.toNat ∧ c.toNat < 128 := by
  rcases mem_intercalate hc with rfl | ⟨part, hpart, hc⟩
  · exact ⟨by decide, by decide⟩
  · have := h.parts hwidth part hpart c hc
    exact ⟨Nat.lt_trans (by decide) this.1, this.2⟩

/-- The metadata of a change is read back from its header. -/
theorem GitChange.parseMetadata (h : GitChange catFile change) (hwidth : 0 < width) :
    parseMetadata (header width change) = .ok {
      status := change.status, oldMode := change.oldMode, newMode := change.newMode, oldObjectId := change.oldObjectId
      newObjectId := change.newObjectId, similarity := change.similarity } := by
  obtain ⟨hold, holdId⟩ := printedObject_spec hwidth h.oldObject
  obtain ⟨hnew, hnewId⟩ := printedObject_spec hwidth h.newObject
  obtain ⟨hlength, hdigits, hscore⟩ := printedScore_spec h.score
  have hsplit := List.splitOn_intercalate ' ' (fun part hp => (h.parts hwidth part hp).no_space) (by simp)
  rw [NativeGit.parseMetadata, header, hsplit]
  simp only [(statusOf_code h.status).1, h.oldMode, h.newMode, hold, hnew, holdId, hnewId, hdigits, hlength, hscore,
    decide_true, Bool.and_self, if_true, String.ofList_toList]

/-! ## Fields and records -/

theorem splitFields_field : ∀ {field before : List UInt8}, 0 ∉ field → ∀ rest,
    splitFields before (field ++ 0 :: rest) = (splitFields [] rest).map ((before ++ field) :: ·)
  | [], before, _, rest => by simp [splitFields]
  | byte :: field, before, h, rest => by
    have hbyte : byte ≠ 0 := fun he => h (he ▸ List.mem_cons_self)
    rw [List.cons_append, splitFields, if_neg hbyte, splitFields_field fun hm => h (List.mem_cons_of_mem _ hm)]
    simp

theorem splitNul_fields : ∀ {fields : List (List UInt8)}, (∀ field ∈ fields, 0 ∉ field) →
    splitNul (fields.flatMap (· ++ [0])) = .ok fields
  | [], _ => rfl
  | field :: fields, h => by
    have htail := splitNul_fields fun field hf => h field (List.mem_cons_of_mem _ hf)
    rw [List.flatMap_cons, List.append_assoc, List.singleton_append, splitNul,
      splitFields_field (h field List.mem_cons_self)]
    rw [splitNul] at htail
    rw [htail]
    rfl

theorem GitChange.no_nul (h : GitChange catFile change) (hwidth : 0 < width) :
    ∀ field ∈ printedRecord width change, 0 ∉ field := by
  refine List.forall_mem_cons.mpr ⟨fun hm => ?_, ?_⟩
  · obtain ⟨c, hc, hzero⟩ := List.mem_map.mp hm
    have hrange := h.header_range hwidth hc
    have := congrArg UInt8.toNat hzero
    rw [UInt8.toNat_ofNat', UInt8.toNat_zero] at this
    omega
  · unfold printedPaths
    split
    · exact List.forall_mem_cons.mpr ⟨h.oldPath, List.forall_mem_singleton.mpr h.newPath⟩
    · split
      · exact List.forall_mem_singleton.mpr h.newPath
      · exact List.forall_mem_singleton.mpr h.oldPath

theorem GitChange.changeOf (h : GitChange catFile change) (firstPath : List UInt8) (secondPath : Option (List UInt8))
    (hold : (if change.status = "added" then [] else firstPath) = change.oldPathBytes)
    (hnew : (if change.status = "deleted" then [] else secondPath.getD firstPath) = change.newPathBytes) :
    changeOf catFile {
      status := change.status, oldMode := change.oldMode, newMode := change.newMode, oldObjectId := change.oldObjectId
      newObjectId := change.newObjectId, similarity := change.similarity } firstPath secondPath = .ok change := by
  simp only [NativeGit.changeOf, h.oldTarget, h.newTarget, hold, hnew]
  rfl

/-- A record of two or three fields is read back, and what follows it is left. -/
theorem GitChange.parseRecord (h : GitChange catFile change) (hwidth : 0 < width) (rest : List (List UInt8)) :
    parseRecord catFile (asciiBytes (header width change)) (printedPaths change ++ rest) = .ok (change, rest) := by
  have hascii : asciiText (asciiBytes (header width change)) = header width change :=
    asciiText_asciiBytes fun c hc => (h.header_range hwidth hc).2
  unfold printedPaths
  by_cases hpair : isPair change.status = true
  · have hnames : change.status = "renamed" ∨ change.status = "copied" := by simpa [isPair] using hpair
    have hne : change.status ≠ "added" ∧ change.status ≠ "deleted" := by
      rcases hnames with he | he <;> rw [he] <;> decide +kernel
    have hchange := h.changeOf change.oldPathBytes (some change.newPathBytes)
      (if_neg hne.1) (if_neg hne.2)
    rw [if_pos hpair]
    simp only [List.cons_append, List.nil_append, NativeGit.parseRecord, hascii, h.parseMetadata hwidth, hpair, if_true,
      hchange, bind, Except.bind, pure, Except.pure]
  · rw [if_neg hpair]
    by_cases hadded : change.status = "added"
    · have hne : change.status ≠ "deleted" := by rw [hadded]; decide +kernel
      have hchange := h.changeOf change.newPathBytes none
        (by rw [if_pos hadded, h.added hadded]) (if_neg hne)
      rw [if_pos hadded]
      simp only [List.cons_append, List.nil_append, NativeGit.parseRecord, hascii, h.parseMetadata hwidth, if_neg hpair,
        hchange, bind, Except.bind, pure, Except.pure]
    · have hnew : (if change.status = "deleted" then [] else (none : Option (List UInt8)).getD change.oldPathBytes) =
          change.newPathBytes := by
        split
        · exact (h.deleted ‹_›).symm
        · refine (h.same ?_).symm
          have hstatus := h.status
          simp only [isPair, Bool.or_eq_true, decide_eq_true_eq] at hpair
          simp only [List.mem_cons, List.not_mem_nil, or_false] at hstatus
          tauto
      have hchange := h.changeOf change.oldPathBytes none (if_neg hadded) hnew
      rw [if_neg hadded]
      simp only [List.cons_append, List.nil_append, NativeGit.parseRecord, hascii, h.parseMetadata hwidth, if_neg hpair,
        hchange, bind, Except.bind, pure, Except.pure]

theorem parseFields_records (hwidth : 0 < width) : ∀ {changes : List AuthoritativeNativeChangedPath} {fuel : Nat},
    (∀ change ∈ changes, GitChange catFile change) → changes.length ≤ fuel →
    parseFields catFile fuel (changes.flatMap (printedRecord width)) = .ok changes
  | [], fuel, _, _ => by cases fuel <;> rfl
  | change :: changes, fuel + 1, h, hfuel => by
    have hhead := (h change List.mem_cons_self).parseRecord hwidth (changes.flatMap (printedRecord width))
    have htail := parseFields_records hwidth (fun c hc => h c (List.mem_cons_of_mem _ hc)) (Nat.le_of_succ_le_succ hfuel)
    rw [List.flatMap_cons, printedRecord, List.cons_append, parseFields, hhead]
    simp only [bind, Except.bind, htail, pure, Except.pure]

theorem length_records (changes : List AuthoritativeNativeChangedPath) :
    changes.length ≤ (changes.flatMap (printedRecord width)).length := by
  induction changes with
  | nil => exact Nat.zero_le _
  | cons change changes ih =>
    rw [List.flatMap_cons, printedRecord, List.cons_append, List.length_cons, List.length_cons, List.length_append]
    omega

/-- What Git writes is read back. -/
theorem parseChanges_rawDiff (hwidth : 0 < width) {changes : List AuthoritativeNativeChangedPath}
    (h : ∀ change ∈ changes, GitChange catFile change) : parseChanges catFile (rawDiff width changes) = .ok changes := by
  have hsplit : splitNul (rawDiff width changes) = .ok (changes.flatMap (printedRecord width)) :=
    splitNul_fields fun field hf => by
      obtain ⟨change, hc, hf⟩ := List.mem_flatMap.mp hf
      exact (h change hc).no_nul hwidth field hf
  rw [parseChanges, hsplit]
  exact parseFields_records hwidth h (length_records changes)

/-! ## The reviewers -/

/-- A rule's prefix starts an old or a new path of a change. -/
def Touches (rule : NativeRootCiPathReviewerRule) (change : AuthoritativeNativeChangedPath) : Prop :=
  rule.pathPrefix.toUTF8.toList <+: change.oldPathBytes ∨ rule.pathPrefix.toUTF8.toList <+: change.newPathBytes

variable {policy : NativeRootCiPolicy} {changes : List AuthoritativeNativeChangedPath} {reviewer : String}

theorem requiredReviewers_iff : reviewer ∈ requiredReviewers policy changes ↔ reviewer ∈ policy.requiredReviewerIds ∨
    ∃ rule ∈ policy.pathReviewerRules, reviewer ∈ rule.reviewerIds ∧ ∃ change ∈ changes, Touches rule change := by
  unfold requiredReviewers
  rw [List.mem_insertionSort, List.mem_dedup, List.mem_append, List.mem_flatMap]
  refine or_congr_right (exists_congr fun rule => and_congr_right fun _ => ?_)
  have hany : (changes.any fun change => pathMatches rule.pathPrefix change.oldPathBytes
      || pathMatches rule.pathPrefix change.newPathBytes) = true ↔ ∃ change ∈ changes, Touches rule change := by
    simp [pathMatches, Touches]
  split
  · exact ⟨fun hr => ⟨hr, hany.mp ‹_›⟩, fun hr => hr.1⟩
  · exact ⟨fun hr => absurd hr List.not_mem_nil, fun hr => absurd (hany.mpr hr.2) ‹_›⟩

theorem requiredReviewers_sorted (policy : NativeRootCiPolicy) (changes : List AuthoritativeNativeChangedPath) :
    (requiredReviewers policy changes).Pairwise (· < ·) := by
  have hsorted : ∀ reviewers : List String, (reviewers.dedup.insertionSort (· ≤ ·)).Pairwise (· < ·) := fun reviewers => by
    have hle := List.pairwise_insertionSort (α := String) (· ≤ ·) reviewers.dedup
    have hne := (List.perm_insertionSort (α := String) (· ≤ ·) reviewers.dedup).nodup_iff.mpr (List.nodup_dedup reviewers)
    exact (hle.and hne).imp fun ⟨hle, hne⟩ => String.not_le.mp fun hge => hne (String.le_antisymm hle hge)
  exact hsorted _

/-- The changes that Git writes are read back as they are; the reviewers they require are those of the policy and of the
rules
that an old or a new path begins like, in order and each once; and no change or rule that is added takes a reviewer away. -/
theorem raw_diff_reviewers (hwidth : 0 < width) (h : ∀ change ∈ changes, GitChange catFile change)
    (policy : NativeRootCiPolicy) : parseChanges catFile (rawDiff width changes) = .ok changes
    ∧ (∀ reviewer, reviewer ∈ requiredReviewers policy changes ↔ reviewer ∈ policy.requiredReviewerIds ∨
        ∃ rule ∈ policy.pathReviewerRules, reviewer ∈ rule.reviewerIds ∧ ∃ change ∈ changes, Touches rule change)
    ∧ (requiredReviewers policy changes).Pairwise (· < ·)
    ∧ (∀ more, changes ⊆ more → requiredReviewers policy changes ⊆ requiredReviewers policy more)
    ∧ ∀ rules, policy.pathReviewerRules ⊆ rules →
        requiredReviewers policy changes ⊆ requiredReviewers { policy with pathReviewerRules := rules } changes := by
  refine ⟨parseChanges_rawDiff hwidth h, fun reviewer => requiredReviewers_iff, requiredReviewers_sorted policy changes,
    fun more hmore reviewer hr => ?_, fun rules hrules reviewer hr => ?_⟩
  · refine requiredReviewers_iff.mpr ((requiredReviewers_iff.mp hr).imp_right ?_)
    rintro ⟨rule, hrule, hmem, change, hc, htouches⟩
    exact ⟨rule, hrule, hmem, change, hmore hc, htouches⟩
  · refine requiredReviewers_iff.mpr ((requiredReviewers_iff.mp hr).imp_right ?_)
    rintro ⟨rule, hrule, hrest⟩
    exact ⟨rule, hrules hrule, hrest⟩

/-- A rename to a path that looks like a header, and a new link. -/
def namedLikeHeaders : List AuthoritativeNativeChangedPath := [
  { status := "renamed", oldMode := "100644", newMode := "100644", oldObjectId := "a1", newObjectId := "a1"
    similarity := some 86
    oldPathBytes := [100, 47, 10], newPathBytes := asciiBytes ":100644 000000 a1 0 D".toList
    oldSymlinkTargetBytes := none, newSymlinkTargetBytes := none },
  { status := "added", oldMode := "000000", newMode := "120000", oldObjectId := "0", newObjectId := "b2", similarity := none
    oldPathBytes := [], newPathBytes := [255], oldSymlinkTargetBytes := none, newSymlinkTargetBytes := some [46, 46] }]

theorem namedLikeHeaders_git : ∀ change ∈ namedLikeHeaders, GitChange (fun _ => .ok [46, 46]) change := by
  refine List.forall_mem_cons.mpr ⟨?_, List.forall_mem_singleton.mpr ?_⟩
  · constructor <;> try decide +kernel
    · exact .inr (by decide +kernel)
    · exact .inr (by decide +kernel)
  · constructor <;> try decide +kernel
    · exact .inl rfl
    · exact .inr (by decide +kernel)

def directoryPolicy : NativeRootCiPolicy where
  protectedRef := "refs/heads/main"
  policyRevision := "p"
  requiredReviewRevision := "r"
  requiredJobSetRevision := "j"
  requiredJobs := []
  requiredReviewerIds := ["zoe"]
  pathReviewerRules := [{ pathPrefix := "d/", reviewerIds := ["ann"] }]

theorem raw_diff_reviewers_named_like_headers :
    parseChanges (fun _ => .ok [46, 46]) (rawDiff 40 namedLikeHeaders) = .ok namedLikeHeaders
    ∧ "ann" ∈ requiredReviewers directoryPolicy namedLikeHeaders := by
  have h := @raw_diff_reviewers _ 40 _ (by decide) namedLikeHeaders_git directoryPolicy
  refine ⟨h.1, (h.2.1 "ann").mpr (.inr ⟨_, List.mem_cons_self, List.mem_cons_self, _, List.mem_cons_self, .inl ?_⟩)⟩
  decide +kernel

end Dim.NativeGit
