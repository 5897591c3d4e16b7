/-
Reads of records among calls that change them. A file that is opened while no one writes it is whole, and stays as
it is however its name moves, so each read gives a record as some call left it; a listing gives one for every name
it found.
-/
import DimProofs.Lifecycle.Writers

namespace Dim.Lifecycle

open Effectful Files

/-! ## Worlds that a stretch of steps passes -/

/-- Every step leads to a world where `P` holds. -/
def Passes (K : World → World → Prop) (P : World → Prop) : Prop := ∀ w w', K w w' → P w'

/-- Some step leads to a world where `P` holds. -/
def Passed (K : World → World → Prop) (P : World → Prop) : Prop := ∃ w w', K w w' ∧ P w'

theorem Passes.passed {K : World → World → Prop} {P Q : World → Prop} (h : Passes K P) (hQ : Passed K Q) :
    ∃ w, P w ∧ Q w := by
  obtain ⟨w, w', hK, hw'⟩ := hQ
  exact ⟨w', h w w' hK, hw'⟩

variable [Format] {lists grants : Prop} {K : World → World → Prop} {i : Nat} {op : Operation}
  {acts : (e : Effect) → World → Answer e → World → Prop} {rely : World → World → Prop} {w w' : World} {kind : Kind}

/-- The record is in its file. -/
def Current (record : Record kind) (w : World) : Prop :=
  ∃ k, w.lookup (.records kind) (recordFile record.name) = some k ∧ w.text? k = some (stored record)

omit [Format] in
/-- The record has a file. -/
def Present (kind : Kind) (name : String) (w : World) : Prop := w.lookup (.records kind) (recordFile name) ≠ none

theorem Current.unique {record record' : Record kind} (h : Current record w) (h' : Current record' w)
    (hname : record.name = record'.name) : record = record' := by
  obtain ⟨k, hk, htext⟩ := h
  obtain ⟨k', hk', htext'⟩ := h'
  rw [hname, hk', Option.some.injEq] at hk
  subst hk
  rw [htext, Option.some.injEq] at htext'
  have hparse := congrArg (Format.parse kind) htext'
  rw [parse_stored, parse_stored] at hparse
  exact Option.some.inj hparse

/-- A file that was found whole. -/
def Found (n : String) (k : Nat) (record : Record kind) (w : World) : Prop :=
  n = recordFile record.name ∧ Given w record ∧ Closed k (stored record) w

namespace Among

variable (H : Among lists grants K i op acts rely)
include H

theorem stable_found (n : String) (k : Nat) (record : Record kind) :
    Stable rely (Found n k record) :=
  H.stable fun _ _ _ _ _ hd _ h => ⟨h.1, h.2.1.mono hd.begun, h.2.2.does hd⟩

/-! ## The steps of a read -/

theorem openRecord (hw : Whole grants w) {n : String} (hn : isRecordFile n = true)
    {a : Option Nat} (h : acts (.openFile (.records kind) n) w a w') :
    w' = w ∧ K w w ∧ ((a = none ∧ w.lookup (.records kind) n = none ∧ op ≠ .list kind) ∨
      ∃ k, ∃ record : Record kind, a = some k ∧ w.lookup (.records kind) n = some k ∧ Found n k record w) := by
  obtain ⟨⟨hclosed, hlisted⟩, ⟨choice, hp⟩, hK⟩ := H.acts _ _ _ _ h
  simp only [perform, Option.some.injEq, Prod.mk.injEq] at hp
  obtain ⟨rfl, rfl⟩ := hp
  refine ⟨rfl, hK, ?_⟩
  cases hk : w.lookup (.records kind) n with
  | none => exact .inl ⟨hk, rfl, fun hop => hlisted hop hk⟩
  | some k =>
    rcases hw.records kind n k hk hn with ⟨j, hj⟩ | ⟨record, hname, htext, hgiven⟩
    · exact absurd hj (hclosed k hk j)
    · exact .inr ⟨k, record, hk, rfl, hname, hgiven, htext, hclosed k hk⟩

omit [Format] in
omit H in
theorem readFile_text {choice : Choice} {k : Nat} {s a : String} (h : perform choice i (.readFile k) w = some (a, w'))
    (hs : Closed k s w) : a = s ∧ w' = w := by
  simp only [perform, Option.some.injEq, Prod.mk.injEq] at h
  exact ⟨h.1.symm.trans (World.read_of_text hs.1), h.2.symm⟩

/-- What a read of a record tells. -/
def ReadWell (K : World → World → Prop) (name : String) (r : Except Failure (Record kind)) (w : World) : Prop :=
  (∀ record, r = .ok record → record.name = name ∧ Given w record ∧ Passed K (Current record)) ∧
    ∀ failure, r = .error failure → failure ≠ .syntaxError ∧ Passed K fun w => ¬ Present kind name w

theorem readJson (name missing : String) :
    Amid acts (Whole grants) (Does i) rely (readJson kind (recordFile name) missing) (ReadWell K name) w := by
  refine amid_effect stable_true trivial fun w₁ a w₂ _ hI hact => ?_
  obtain ⟨rfl, hK, ⟨rfl, hnone, -⟩ | ⟨k, record, rfl, hk, hfound⟩⟩ := H.openRecord hI (isRecordFile_recordFile name) hact
  · refine ⟨hI, .refl i _, amid_throw stable_true trivial fun _ _ => ⟨nofun, fun failure hf => ?_⟩⟩
    cases hf
    exact ⟨nofun, _, _, hK, fun hpresent => hpresent hnone⟩
  have hcurrent : Passed K (Current record) := ⟨_, _, hK, k, hfound.1 ▸ hk, hfound.2.2.1⟩
  refine ⟨hI, .refl i _, amid_effect (H.stable_found _ k record) hfound fun w₃ a w₄ hfound hI hact => ?_⟩
  obtain ⟨-, ⟨choice, hp⟩, -⟩ := H.acts _ _ _ _ hact
  obtain ⟨rfl, rfl⟩ := readFile_text hp hfound.2.2
  refine ⟨hI, .refl i _, ?_⟩
  rw [parseRecord, parse_stored]
  refine amid_pure (H.stable_given record) hfound.2.1 fun w hgiven => ⟨fun record' hr => ?_, nofun⟩
  cases hr
  exact ⟨(recordFile_injective hfound.1).symm, hgiven, hcurrent⟩

/-- `readWorkspace`, where a name that no record can have is refused. -/
theorem readWorkspace (name : String) :
    Amid acts (Whole grants) (Does i) rely (readWorkspace name)
      (fun r w => (validLifecycleName name = true → @ReadWell _ .workspace K name r w) ∧
        (validLifecycleName name ≠ true → ∃ message, r = .error (.user message))) w := by
  rw [Lifecycle.readWorkspace, validateLifecycleName]
  split
  · rename_i hname
    exact (H.readJson name _).mono fun r w h => ⟨fun _ => h, fun hno => absurd hname hno⟩
  · rename_i hname
    exact amid_throw stable_true trivial fun _ _ => ⟨fun h => absurd h hname, fun _ => ⟨_, rfl⟩⟩

omit H in
/-- What a read of a workspace returned. -/
theorem readWorkspace_ok {name : String} {record : WorkspaceRecord}
    (h : (validLifecycleName name = true → @ReadWell _ .workspace K name (.ok record) w) ∧
      (validLifecycleName name ≠ true →
        ∃ message, (Except.ok record : Except Failure WorkspaceRecord) = .error (.user message))) :
    record.name = name ∧ @Given w .workspace record ∧ Passed K (@Current _ .workspace record) := by
  by_cases hname : validLifecycleName name = true
  · exact (h.1 hname).1 record rfl
  · obtain ⟨_, hr⟩ := h.2 hname
    cases hr

end Among

/-! ## The reads of a listing -/

/-- One read, of the file that was found under `entry`. -/
def Reads (entry : String) : Task kind → World → Prop
  | .named name, _ => name = entry
  | .opened k, w => ∃ record : Record kind, Found entry k record w
  | .ended record, w => entry = recordFile record.name ∧ Given w record

def Task.steps : Task kind → Nat
  | .named _ => 2
  | .opened _ => 1
  | .ended _ => 0

/-- All reads, with the steps that are left. -/
def Reading (entries : List String) (steps : Nat) (tasks : List (Task kind)) (w : World) : Prop :=
  List.Forall₂ (fun entry task => Reads entry task w) entries tasks ∧ (tasks.map Task.steps).sum = steps

theorem stable_reading (H : Among lists grants K i op acts rely) (entries : List String) (steps : Nat)
    (tasks : List (Task kind)) : Stable rely (Reading entries steps tasks) := by
  refine H.stable fun w w' j _ _ hd _ h => ⟨List.Forall₂.imp (fun entry task hreads => ?_) h.1, h.2⟩
  match task, hreads with
  | .named _, hreads => exact hreads
  | .opened k, ⟨record, hfound⟩ => exact ⟨record, hfound.1, hfound.2.1.mono hd.begun, hfound.2.2.does hd⟩
  | .ended _, hreads => exact ⟨hreads.1, hreads.2.mono hd.begun⟩

section
omit [Format]

theorem sum_set {tasks : List (Task kind)} {index : Nat} {task task' : Task kind} (hi : tasks[index]? = some task) :
    ((tasks.set index task').map Task.steps).sum + task.steps = (tasks.map Task.steps).sum + task'.steps := by
  induction tasks generalizing index with
  | nil => cases hi
  | cons first rest ih =>
    cases index with
    | zero =>
      obtain rfl := Option.some.inj hi
      simp only [List.set_cons_zero, List.map_cons, List.sum_cons]
      omega
    | succ index =>
      have hrest := @ih index hi
      simp only [List.set_cons_succ, List.map_cons, List.sum_cons]
      omega

theorem forall₂_set {R : String → Task kind → Prop} {entries : List String} {tasks : List (Task kind)}
    (h : List.Forall₂ R entries tasks) {index : Nat} {task' : Task kind}
    (hR : ∀ entry, entries[index]? = some entry → R entry task') : List.Forall₂ R entries (tasks.set index task') := by
  induction h generalizing index with
  | nil => exact .nil
  | cons hfirst hrest ih =>
    cases index with
    | zero => exact .cons (hR _ rfl) hrest
    | succ index => exact .cons hfirst (ih fun entry he => hR entry he)

/-- Reads that have all still to begin. -/
theorem steps_named (entries : List String) :
    ((entries.map (@Task.named kind)).map Task.steps).sum = 2 * (entries.map (@Task.named kind)).length := by
  induction entries with
  | nil => rfl
  | cons entry rest ih =>
    simp only [List.map_cons, List.sum_cons, List.length_cons, ih]
    simp only [Task.steps]
    omega

end

theorem reading_named (entries : List String) :
    Reading entries (2 * (entries.map (@Task.named kind)).length) (entries.map (@Task.named kind)) w := by
  refine ⟨?_, steps_named entries⟩
  rw [List.forall₂_map_right_iff]
  exact List.forall₂_same.mpr fun _ _ => rfl

/-- Reads that have all ended. -/
theorem Reading.ended {entries : List String} {tasks : List (Task kind)} (h : Reading entries 0 tasks w) :
    List.Forall₂ (fun entry (record : Record kind) => entry = recordFile record.name ∧ Given w record) entries
      (tasks.filterMap Task.record?) := by
  obtain ⟨hreads, hsum⟩ := h
  induction hreads with
  | nil => exact .nil
  | @cons entry task entries tasks hfirst hrest ih =>
    rw [List.map_cons, List.sum_cons] at hsum
    cases task with
    | named _ => simp only [Task.steps] at hsum; omega
    | opened _ => simp only [Task.steps] at hsum; omega
    | ended record =>
      rw [List.filterMap_cons]
      exact .cons hfirst (ih (by simp only [Task.steps] at hsum; omega))

namespace Among

variable (H : Among lists grants K i op acts rely)
include H

/-- One step of one read. -/
theorem advance (hop : op = .list kind) {entry : String}
    (hentry : isRecordFile entry = true) {task : Task kind} {S : World → Prop} (hS : Stable rely S)
    (hreads : ∀ w, S w → Reads entry task w) (hw : S w) (hwaiting : task.record? = none) :
    Amid acts (Whole grants) (Does i) rely task.advance
      (fun r w => S w ∧ ∃ task', r = .ok task' ∧ Reads entry task' w ∧ task'.steps + 1 = task.steps) w := by
  cases task with
  | named name =>
    have hname : name = entry := hreads w hw
    subst hname
    refine amid_effect hS hw fun w₁ a w₂ hw hI hact => ?_
    obtain ⟨rfl, hK, ⟨-, -, hno⟩ | ⟨k, record, rfl, hk, hfound⟩⟩ := H.openRecord hI hentry hact
    · exact absurd hop hno
    · exact ⟨hI, .refl i _, amid_pure (hS.and (H.stable_found _ k record)) ⟨hw, hfound⟩
        fun w h => ⟨h.1, _, rfl, ⟨record, h.2⟩, rfl⟩⟩
  | opened k =>
    refine amid_effect hS hw fun w₁ a w₂ hw hI hact => ?_
    obtain ⟨record, hfound⟩ := hreads w₁ hw
    obtain ⟨-, ⟨choice, hp⟩, -⟩ := H.acts _ _ _ _ hact
    obtain ⟨rfl, rfl⟩ := readFile_text hp hfound.2.2
    refine ⟨hI, .refl i _, ?_⟩
    rw [parseRecord, parse_stored]
    exact amid_pure (hS.and (H.stable_given record)) ⟨hw, hfound.2.1⟩
      fun w h => ⟨h.1, _, rfl, ⟨hfound.1, h.2⟩, rfl⟩
  | ended record => cases hwaiting

theorem readRecords (hop : op = .list kind)
    {entries : List String} (hentries : ∀ entry ∈ entries, isRecordFile entry = true) :
    ∀ (steps : Nat) (tasks : List (Task kind)) (w : World), Reading entries steps tasks w →
      Amid acts (Whole grants) (Does i) rely (readRecords steps tasks) (fun r w => ∃ records : List (Record kind),
        r = .ok records ∧
          List.Forall₂ (fun entry record => entry = recordFile record.name ∧ Given w record) entries records) w
  | 0, tasks, w, h => amid_pure (stable_reading H entries 0 tasks) h fun _ h => ⟨_, rfl, h.ended⟩
  | steps + 1, tasks, w, h => by
    have hS := stable_reading H entries (steps + 1) tasks
    refine amid_effect hS h fun w₁ index w₂ hw hI hact => ?_
    obtain ⟨-, ⟨choice, hp⟩, -⟩ := H.acts _ _ _ _ hact
    simp only [perform] at hp
    split at hp
    · rename_i hmem
      simp only [Option.some.injEq, Prod.mk.injEq] at hp
      obtain ⟨rfl, rfl⟩ := hp
      refine ⟨hI, .refl i _, ?_⟩
      simp only [waiting, List.mem_filter, List.mem_range] at hmem
      have htask : tasks[choice.index]? = some tasks[choice.index] := List.getElem?_eq_getElem hmem.1
      have hwaiting : tasks[choice.index].record? = none := by simpa [htask] using hmem.2
      have hlength : choice.index < entries.length := by rw [hw.1.length_eq]; exact hmem.1
      have hentry := hentries _ (List.getElem_mem hlength)
      rw [htask]
      refine Amid.andThen ?_ (fun failure w h => ?_) (H.advance hop hentry hS
        (fun w h => h.1.get hlength hmem.1) hw hwaiting)
      · rintro task' w₃ ⟨hw, task', hok, hreads, hsteps⟩
        cases hok
        refine readRecords hop hentries steps _ w₃ ⟨forall₂_set hw.1 fun entry he => ?_, ?_⟩
        · rw [List.getElem?_eq_getElem hlength, Option.some.injEq] at he
          exact he ▸ hreads
        · have hsum := @sum_set _ _ _ _ task' htask
          have hw := hw.2
          omega
      · obtain ⟨-, task', hok, -⟩ := h
        cases hok
    · cases hp

/-- A listing ends well, with a record for every name that had a file all the time. -/
theorem listRecords (hop : op = .list kind) :
    Amid acts (Whole grants) (Does i) rely (listRecords kind) (fun r w => ∃ records : List (Record kind),
      r = .ok records ∧ (∀ record ∈ records, Given w record) ∧
        ∀ name, Passes K (Present kind name) → ∃ record ∈ records, record.name = name) w := by
  refine amid_effect stable_true trivial fun w₁ names w₂ _ hI hact => ?_
  obtain ⟨-, ⟨choice, hp⟩, hK⟩ := H.acts _ _ _ _ hact
  simp only [perform, Option.some.injEq, Prod.mk.injEq] at hp
  obtain ⟨rfl, rfl⟩ := hp
  refine ⟨hI, .refl i _, ?_⟩
  generalize hentries : ((w₁.files.entries (.records kind)).map (·.1)).filter isRecordFile = entries
  have hfiles : ∀ entry ∈ entries, isRecordFile entry = true := fun entry he => by
    rw [← hentries] at he
    exact (List.mem_filter.mp he).2
  refine (readRecords H hop hfiles _ _ _ (reading_named entries)).mono fun r w h => ?_
  obtain ⟨records, rfl, hrecords⟩ := h
  have hlength := hrecords.length_eq
  refine ⟨records, rfl, fun record hr => ?_, fun name hpresent => ?_⟩
  · obtain ⟨n, hn, rfl⟩ := List.mem_iff_getElem.mp hr
    exact (hrecords.get (show n < entries.length by omega) hn).2
  · have hnow := hpresent _ _ hK
    obtain ⟨k, hk⟩ := Option.ne_none_iff_exists'.mp hnow
    have hmem : recordFile name ∈ entries := by
      rw [← hentries, List.mem_filter]
      refine ⟨?_, isRecordFile_recordFile name⟩
      have hlookup : (w₁.files.entries (.records kind)).lookup (recordFile name) = some k := hk
      obtain ⟨before, after, heq, -⟩ := List.lookup_eq_some_iff.mp hlookup
      rw [heq]
      simp
    obtain ⟨n, hn, heq⟩ := List.mem_iff_getElem.mp hmem
    have hn' : n < records.length := by omega
    have hat : entries[n] = recordFile records[n].name := (hrecords.get hn hn').1
    exact ⟨records[n], List.getElem_mem hn', recordFile_injective (hat ▸ heq)⟩

end Among

end Dim.Lifecycle
