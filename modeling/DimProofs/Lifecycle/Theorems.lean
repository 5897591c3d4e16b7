/-
What holds of the state directory in every run: listings end well and leave out no record, and a workspace
instance has one grant for each audience, good for it alone. Both hold while no file is read before it is
whole: a record and a grant are made under their final name and only then filled.
-/
import DimProofs.Lifecycle.Runs

namespace Dim.Lifecycle

open Effectful Files Relation

/-! ## Records -/

section Records

variable [Format] {s s' : State} {i : Nat}

variable {kind : Kind}

/-- A listing does not fail, and what it returns are records that were stored. -/
theorem Careful.list (hs : Careful True False s) : (∀ failure, ¬ Failed s i (.list kind) failure) ∧
    ∀ outcome, Ended s i (.list kind) outcome → ∃ records : List (Record kind), outcome = .records records ∧
      ∀ record ∈ records, Given s.world record := by
  constructor
  · intro failure hcall
    obtain ⟨records, hr, -⟩ := hs.sound.failed hcall
    cases hr
  · intro outcome hcall
    obtain ⟨records, hr, hgiven, -⟩ := hs.sound.ended hcall
    exact ⟨records, Except.ok.inj hr, hgiven⟩

/-- A read finds no part of a record. -/
theorem Careful.read (hs : Careful True False s) {name : String} : ¬ Failed s i (.readWorkspace name) .syntaxError ∧
    ∀ record, Ended s i (.readWorkspace name) (.workspace record) → @Given s.world .workspace record := by
  constructor
  · intro hcall
    exact (hs.sound.failed hcall).2 rfl
  · intro record hcall
    exact (hs.sound.ended hcall).1 record rfl

/-- A listing leaves out no record that has a file all the time. -/
theorem Careful.listed (hs : Careful True False s) {name : String}
    (hstretch : ReflTransGen (system.Moves (careful True False) fun _ w => Present kind name w) s s')
    (hi : s.calls.length ≤ i) {records : List (Record kind)} (hcall : Ended s' i (.list kind) (.records records)) :
    ∃ record ∈ records, record.name = name := by
  obtain ⟨records', hr, -, hnames⟩ := hs.sound.promise hstretch hi hcall
  cases hr
  exact hnames name fun _ _ h => h

/-- Listings and reads among claims, writes and removals: a listing ends well with records that were stored, and with
one for each name that has a file from its beginning to its end; a read finds no part of a record. -/
theorem records_stay_readable (hs : Careful True False s) :
    (∀ i kind failure, ¬ Failed s i (.list kind) failure) ∧
    (∀ i kind outcome, Ended s i (.list kind) outcome → ∃ records : List (Record kind), outcome = .records records ∧
      ∀ record ∈ records, Given s.world record) ∧
    (∀ i name, ¬ Failed s i (.readWorkspace name) .syntaxError) ∧
    (∀ i name record, Ended s i (.readWorkspace name) (.workspace record) → @Given s.world .workspace record) ∧
    ∀ kind name s', ReflTransGen (system.Moves (careful True False) fun _ w => Present kind name w) s s' →
      ∀ i, s.calls.length ≤ i → ∀ records : List (Record kind), Ended s' i (.list kind) (.records records) →
        ∃ record ∈ records, record.name = name :=
  ⟨fun _ _ => hs.list.1, fun _ _ => hs.list.2, fun _ _ => hs.read.1, fun _ _ => hs.read.2,
    fun _ _ _ hstretch _ hi _ => hs.listed hstretch hi⟩

end Records

/-! ## A text for records, and runs that are computed with it -/

namespace Sample

def projectText (name readyAt : String) : String :=
  "\x7b\"name\":\"" ++ name ++ "\",\"readyAt\":\"" ++ readyAt ++ "\"\x7d"

def environmentText : WorkspaceEnvironment → String
  | .recommended => "recommended"
  | .custom => "custom"

def phaseText : WorkspacePhase → String
  | .creating => "creating"
  | .settingUp => "setting-up"
  | .ready => "ready"
  | .stopped => "stopped"
  | .setupError => "setup-error"
  | .error => "error"
  | .discarding => "discarding"

def workspaceText (name workspaceId environment phase : String) : String :=
  "\x7b\"name\":\"" ++ name ++ "\",\"workspaceId\":\"" ++ workspaceId ++ "\",\"environment\":\"" ++ environment ++
    "\",\"phase\":\"" ++ phase ++ "\"\x7d"

def stringify : {kind : Kind} → Record kind → String
  | .project, record => projectText record.name (ProjectRecord.readyAt record)
  | .workspace, record => workspaceText record.name (WorkspaceRecord.workspaceId record)
      (environmentText (WorkspaceRecord.environment record)) (phaseText (WorkspaceRecord.phase record))

/-- The text up to the next quote, and what follows it. -/
def quoted (cs : List Char) : String × List Char := (String.ofList (cs.takeWhile (· ≠ '"')), cs.dropWhile (· ≠ '"'))

theorem quoted_append {s : String} (hs : ∀ c ∈ s.toList, c ≠ '"') (rest : List Char) :
    quoted (s.toList ++ '"' :: rest) = (s, '"' :: rest) := by
  have htake : (s.toList ++ '"' :: rest).takeWhile (· ≠ '"') = s.toList := by
    rw [List.takeWhile_append_of_pos fun c hc => decide_eq_true (hs c hc)]
    simp
  have hdrop : (s.toList ++ '"' :: rest).dropWhile (· ≠ '"') = '"' :: rest := by
    rw [List.dropWhile_append_of_pos fun c hc => decide_eq_true (hs c hc)]
    simp
  rw [quoted, htake, hdrop, String.ofList_toList]

def environmentOf (text : String) : Option WorkspaceEnvironment :=
  [WorkspaceEnvironment.recommended, .custom].find? fun environment => environmentText environment = text

def phaseOf (text : String) : Option WorkspacePhase :=
  [WorkspacePhase.creating, .settingUp, .ready, .stopped, .setupError, .error, .discarding].find? fun phase =>
    phaseText phase = text

def projectOf (name readyAt : String) : Option ProjectRecord :=
  if h : validLifecycleName name = true then some ⟨name, readyAt, h⟩ else none

def workspaceOf (name workspaceId environment phase : String) : Option WorkspaceRecord :=
  match environmentOf environment, phaseOf phase with
  | some environment, some phase =>
    if h : validLifecycleName name = true ∧ validWorkspaceId workspaceId = true then
      some ⟨name, workspaceId, environment, phase, h.1, h.2⟩
    else none
  | _, _ => none

def parseProject (text : String) : Option ProjectRecord :=
  let (name, rest) := quoted (text.toList.drop 9)
  let readyAt := String.ofList ((rest.drop 13).take (rest.length - 16))
  (projectOf name readyAt).filter fun record => projectText record.name record.readyAt ++ "\n" = text

def parseWorkspace (text : String) : Option WorkspaceRecord :=
  let (name, rest) := quoted (text.toList.drop 9)
  let (workspaceId, rest) := quoted (rest.drop 17)
  let (environment, rest) := quoted (rest.drop 17)
  let (phase, _) := quoted (rest.drop 11)
  (workspaceOf name workspaceId environment phase).filter fun record =>
    workspaceText record.name record.workspaceId (environmentText record.environment) (phaseText record.phase) ++ "\n" = text

def parse : (kind : Kind) → String → Option (Record kind)
  | .project, text => parseProject text
  | .workspace, text => parseWorkspace text

theorem name_unquoted {name : String} (h : validLifecycleName name = true) : ∀ c ∈ name.toList, c ≠ '"' := by
  rw [validLifecycleName] at h
  cases hname : name.toList with
  | nil => simp
  | cons c cs =>
    rw [hname] at h
    simp only [Pattern.bounded, Bool.and_eq_true, List.all_eq_true] at h
    rintro d hd rfl
    rcases List.mem_cons.mp hd with heq | hd
    · rw [← heq] at h
      exact absurd h.1.1 (by decide)
    · exact absurd (h.2 _ hd) (by decide)

theorem id_unquoted {id : String} (h : validWorkspaceId id = true) : ∀ c ∈ id.toList, c ≠ '"' := by
  rintro c hc rfl
  exact absurd (idChars h _ hc) (by decide)

theorem environment_unquoted (environment : WorkspaceEnvironment) : ∀ c ∈ (environmentText environment).toList, c ≠ '"' := by
  cases environment <;> exact fun c hc h => absurd (h ▸ hc) (by decide +kernel)

theorem phase_unquoted (phase : WorkspacePhase) : ∀ c ∈ (phaseText phase).toList, c ≠ '"' := by
  cases phase <;> exact fun c hc h => absurd (h ▸ hc) (by decide +kernel)

theorem parseProject_text (record : ProjectRecord) :
    parseProject (projectText record.name record.readyAt ++ "\n") = some record := by
  have hname : ((projectText record.name record.readyAt ++ "\n").toList).drop 9 =
      record.name.toList ++ '"' :: (",\"readyAt\":\"".toList ++ (record.readyAt.toList ++ "\"\x7d\n".toList)) := by
    simp [projectText]
  rw [parseProject, hname, quoted_append (name_unquoted record.named)]
  have hready : (('"' :: (",\"readyAt\":\"".toList ++ (record.readyAt.toList ++ "\"\x7d\n".toList))).drop 13).take
      (('"' :: (",\"readyAt\":\"".toList ++ (record.readyAt.toList ++ "\"\x7d\n".toList))).length - 16) =
        record.readyAt.toList := by
    simp
  simp only [hready, String.ofList_toList, projectOf, dif_pos record.named, Option.filter_some, decide_true, if_true]

theorem parseWorkspace_text (record : WorkspaceRecord) :
    parseWorkspace (workspaceText record.name record.workspaceId (environmentText record.environment)
      (phaseText record.phase) ++ "\n") = some record := by
  have hparts : ∀ name id environment phase : String,
      ((workspaceText name id environment phase ++ "\n").toList).drop 9 =
        name.toList ++ '"' :: (",\"workspaceId\":\"".toList ++ (id.toList ++ '"' :: (",\"environment\":\"".toList ++
          (environment.toList ++ '"' :: (",\"phase\":\"".toList ++ (phase.toList ++ '"' :: "\x7d\n".toList)))))) := by
    simp [workspaceText]
  have henvironment : environmentOf (environmentText record.environment) = some record.environment := by
    cases record.environment <;> decide
  have hphase : phaseOf (phaseText record.phase) = some record.phase := by
    cases record.phase <;> decide
  rw [parseWorkspace, hparts, quoted_append (name_unquoted record.named)]
  simp only
  rw [show ∀ rest, List.drop 17 ('"' :: (",\"workspaceId\":\"".toList ++ rest)) = rest from fun rest => rfl,
    quoted_append (id_unquoted record.identified)]
  simp only
  rw [show ∀ rest, List.drop 17 ('"' :: (",\"environment\":\"".toList ++ rest)) = rest from fun rest => rfl,
    quoted_append (environment_unquoted record.environment)]
  simp only
  rw [show ∀ rest, List.drop 11 ('"' :: (",\"phase\":\"".toList ++ rest)) = rest from fun rest => rfl,
    quoted_append (phase_unquoted record.phase)]
  simp only [workspaceOf, henvironment, hphase, dif_pos (And.intro record.named record.identified), Option.filter_some,
    decide_true, if_true]

scoped instance : Format where
  stringify := stringify
  parse := parse
  parse_stringify := fun {kind} record =>
    match kind, record with
    | .project, record => parseProject_text record
    | .workspace, record => parseWorkspace_text record

abbrev Event := Concurrent.Event Choice Operation

/-- The checks of a careful effect. -/
def checked (_ : Operation) : (e : Effect) → World → Answer e → Bool
  | .openFile (.records kind) n, w, _ => w.handles.all (fun h => w.lookup (.records kind) n ≠ some h.2) &&
      (w.lookup (.records kind) n).isSome
  | .openFile (.grants audience) n, w, _ => w.handles.all fun h => w.lookup (.grants audience) n ≠ some h.2
  | .temporary _ _, w, _ => w.temporaries.isEmpty
  | _, _, _ => true

theorem careful_of_checked {lists grants : Prop} (op : Operation) (e : Effect) (w : World) (a : Answer e)
    (h : checked op e w a = true) : (careful lists grants).effect op e w a := by
  have hopen : ∀ d n, (w.handles.all fun h => w.lookup d n ≠ some h.2) = true → ∀ k, w.lookup d n = some k →
      ∀ i, (i, k) ∉ w.handles := by
    intro d n hall k hk i hi
    exact of_decide_eq_true (List.all_eq_true.mp hall _ hi) hk
  cases e with
  | openFile d n =>
    cases d with
    | records kind =>
      simp only [checked, Bool.and_eq_true] at h
      exact ⟨hopen _ _ h.1, fun _ => Option.isSome_iff_ne_none.mp h.2⟩
    | grants audience => exact fun _ => hopen _ _ h
  | temporary d target =>
    rw [checked, List.isEmpty_iff] at h
    intro i hi
    rw [h] at hi
    cases hi
  | _ => trivial

/-- A call goes on for a number of effects. -/
def goes (call effects : Nat) (choice : Choice) : List Event := List.replicate effects (.performs call choice)

def follow (events : List Event) : Option State := Concurrent.followAll perform (fun _ _ _ _ => true) system events initial

def followCareful (events : List Event) : Option State := Concurrent.followAll perform checked system events initial

theorem followCareful_append (before after : List Event) :
    followCareful (before ++ after) = (followCareful before).bind (Concurrent.followAll perform checked system after) := by
  rw [followCareful, followCareful]
  generalize initial = s
  induction before generalizing s with
  | nil => rfl
  | cons event events ih =>
    rw [List.cons_append, Concurrent.followAll, Concurrent.followAll, Option.bind_assoc]
    exact congrArg _ (funext ih)

/-- Any run, from any state. -/
theorem moves_of_follow {effects : Operation → (e : Effect) → World → Answer e → Bool} {events : List Event} {s s' : State}
    (h : Concurrent.followAll perform effects system events s = some s') :
    ReflTransGen (system.Moves .all fun _ _ => True) s s' :=
  Concurrent.moves_of_followAll (fun choice _ _ _ _ _ hp => ⟨choice, hp⟩) (fun _ _ _ _ _ => trivial)
    (fun _ _ => trivial) (fun _ _ _ => trivial) h

/-- The events of a careful run without a crash. -/
def permitted (lists grants : Prop) [Decidable lists] [Decidable grants] : Event → Bool
  | .begins (.list _) => decide lists
  | .begins (.ensureGrant _ _) | .begins (.authenticate _ _) | .begins (.removeGrant _ _ _) | .begins (.discard _ _) =>
    decide grants
  | .crashes _ => false
  | _ => true

theorem careful_of_follow {lists grants : Prop} [Decidable lists] [Decidable grants] {events : List Event} {s : State}
    (h : followCareful events = some s) (hevents : events.all (permitted lists grants) = true) : Careful lists grants s := by
  rw [List.all_eq_true] at hevents
  refine Concurrent.moves_of_followAll (fun choice _ _ _ _ _ hp => ⟨choice, hp⟩) careful_of_checked (fun op hop => ?_)
    (fun i _ hi => absurd (hevents _ hi) Bool.false_ne_true) h
  have hpermit := hevents _ hop
  cases op with
  | list kind => exact (decide_eq_true_iff (p := lists)).mp hpermit
  | ensureGrant audience name => exact (decide_eq_true_iff (p := grants)).mp hpermit
  | authenticate audience token => exact (decide_eq_true_iff (p := grants)).mp hpermit
  | removeGrant audience name workspaceId => exact (decide_eq_true_iff (p := grants)).mp hpermit
  | discard name keepVolume => exact (decide_eq_true_iff (p := grants)).mp hpermit
  | _ => trivial

end Sample

section Sample

open Sample

def sampleId : String := String.ofList (List.replicate 43 'A')

def sampleWorkspace : WorkspaceRecord := ⟨"a", sampleId, .custom, .ready, by decide +kernel, by decide +kernel⟩

def claimed : List Event := .begins (@Operation.claim .workspace sampleWorkspace) :: goes 0 114 {}

def claimedState : State :=
  ⟨⟨⟨[⟨.regular, 0, 0o600, 1, @stored _ .workspace sampleWorkspace⟩],
      Function.update (fun _ => []) (.records .workspace) [("a.json", 0)]⟩,
    [], [], [], [], [@Operation.claim .workspace sampleWorkspace]⟩,
    [⟨@Operation.claim .workspace sampleWorkspace, some (.done .done)⟩]⟩

set_option maxRecDepth 8000 in
theorem claimed_ends : followCareful claimed = some claimedState := by rfl

def failsToParse (s : State) : Bool :=
  match s.calls[(1 : Nat)]? with
  | some ⟨.list .workspace, some (.fail .syntaxError)⟩ => true
  | _ => false

/-- A listing that reads the file which a claim has made and not filled. -/
def listedTooEarly : List Event :=
  .begins (@Operation.claim .workspace sampleWorkspace) :: goes 0 1 {} ++ .begins (.list .workspace) :: goes 1 5 {}

/-- A claim of one workspace makes a listing of all fail. -/
theorem claim_breaks_listing : ¬ ∀ s : State, ReflTransGen (system.Moves .all fun _ _ => True) initial s →
    ∀ i kind failure, ¬ Failed s i (.list kind) failure := by
  intro h
  obtain ⟨s, hs, hfails⟩ := (Option.any_eq_true _ _).mp
    (show (follow listedTooEarly).any failsToParse = true by decide +kernel)
  refine h s (moves_of_follow hs) 1 .workspace .syntaxError ?_
  rw [failsToParse] at hfails
  split at hfails
  · assumption
  · cases hfails

def listed (s : State) : Bool :=
  match s.calls[(1 : Nat)]? with
  | some ⟨.list .workspace, some (.done (@Outcome.records .workspace records))⟩ => records.length = 1
  | _ => false

/-- A listing that has begun when another claim begins, and ends while that claim goes on. -/
def listedAmidClaim : List Event :=
  .begins (.list .workspace) :: goes 1 2 {} ++
    .begins (@Operation.claim .workspace { sampleWorkspace with name := "b", named := by decide +kernel }) ::
    goes 2 30 {} ++ goes 1 3 {}

/-- A workspace that was claimed is listed. -/
theorem claimed_is_listed : ∃ s : State, ∃ record : WorkspaceRecord,
    Ended s 1 (.list .workspace) (@Outcome.records .workspace [record]) ∧ @Given s.world .workspace record := by
  obtain ⟨s, hs, hlisted⟩ := (Option.any_eq_true _ _).mp
    (show (followCareful (claimed ++ listedAmidClaim)).any listed = true by
      rw [followCareful_append, claimed_ends, Option.bind_some]
      decide +kernel)
  have hcareful : Careful True False s := careful_of_follow hs (by decide +kernel)
  rw [listed] at hlisted
  split at hlisted
  · rename_i records hcall
    obtain ⟨record, rfl⟩ := List.length_eq_one_iff.mp (of_decide_eq_true hlisted)
    obtain ⟨-, hgiven, -⟩ := records_stay_readable hcareful
    obtain ⟨records', hr, hgiven⟩ := hgiven 1 .workspace _ hcall
    cases hr
    exact ⟨s, record, hcall, hgiven record List.mem_cons_self⟩
  · cases hlisted

end Sample

/-! ## Grants -/

section Grants

variable [Format] {s s' : State} {i j : Nat} {audience audience' : GrantAudience} {name workspaceId token : String}

omit [Format] in
/-- A step that does not remove the grant. -/
def GrantStays (audience : GrantAudience) (name workspaceId : String) (w w' : World) : Prop :=
  ∀ k, w.lookup (.grants audience) (grantFile name workspaceId) = some k →
    w'.lookup (.grants audience) (grantFile name workspaceId) = some k

variable {w : World}

omit [Format] in
theorem Granted.unique {token' : String} (h : Granted audience name workspaceId token w)
    (h' : Granted audience name workspaceId token' w) : token = token' := by
  obtain ⟨k, hk, hclosed⟩ := h
  obtain ⟨k', hk', hclosed'⟩ := h'
  rw [hk, Option.some.injEq] at hk'
  subst hk'
  exact append_newline_injective (Option.some.inj (hclosed.1.symm.trans hclosed'.1))

/-- A token was drawn for one grant. -/
theorem Invariant.tokenOf_unique (h : Invariant w) {name' workspaceId' : String}
    (ht : TokenOf w audience name workspaceId token) (ht' : TokenOf w audience' name' workspaceId' token) :
    audience = audience' ∧ name = name' ∧ workspaceId = workspaceId' := by
  obtain ⟨random, hdrawn, hrandom, rfl⟩ := ht
  obtain ⟨random', hdrawn', hrandom', heq⟩ := ht'
  have hparts := congrArg (fun t : String => t.toList.splitOn '.') heq
  simp only [splitOn_grantToken hdrawn.identified hrandom, splitOn_grantToken hdrawn'.identified hrandom',
    List.cons.injEq] at hparts
  obtain rfl := String.toList_inj.mp hparts.2.2.1
  simpa using h.drawnOne _ _ _ hdrawn.drawn hdrawn'.drawn

omit [Format] in
theorem TokenOf.ne_empty {w : World} (h : TokenOf w audience name workspaceId token) : token ≠ "" := by
  rintro rfl
  obtain ⟨random, -, -, htoken⟩ := h
  have hlength := congrArg String.toList htoken
  rw [toList_grantToken] at hlength
  simp at hlength

variable {record : WorkspaceRecord}

/-- While the grant stays, whoever ensures it gets the token in its file. -/
theorem Careful.ensured (hs : Careful False True s)
    (hstretch : ReflTransGen (system.Moves (careful False True) (GrantStays audience name workspaceId)) s s')
    (hi : s.calls.length ≤ i) (hid : record.workspaceId = workspaceId)
    (hcall : Ended s' i (.ensureGrant audience name) (.granted record token)) :
    token ≠ "" ∧ Granted audience name workspaceId token s'.world := by
  obtain ⟨rfl, hensured⟩ := hs.sound.promise hstretch hi hcall record token rfl
  subst hid
  obtain ⟨htoken, hgranted⟩ := hensured token rfl
  exact ⟨htoken.ne_empty, hgranted fun w w' k hK hk => hK k hk⟩

/-- While the grant stays and the instance is active, the token is good. -/
theorem Careful.good (hs : Careful False True s) (hgranted : Granted audience name workspaceId token s.world)
    (hstretch : ReflTransGen (system.Moves (careful False True) fun w w' =>
      GrantStays audience name workspaceId w w' ∧ Active name workspaceId w') s s')
    (hi : s.calls.length ≤ i) {outcome : Outcome} (hcall : Ended s' i (.authenticate audience token) outcome) :
    ∃ record, outcome = .authenticated (some record) ∧ record.name = name ∧ record.workspaceId = workspaceId := by
  have hkeep : ∀ i w w', Whole True w → Granted audience name workspaceId token w → Does i w w' →
      GrantStays audience name workspaceId w w' ∧ Active name workspaceId w' →
        Granted audience name workspaceId token w' := by
    rintro i w w' - ⟨k, hk, hclosed⟩ hd hK
    exact ⟨k, hK.1 k hk, hclosed.does hd⟩
  have hkept := (Concurrent.Sound.keeping (keeps False True) hs.sound hkeep hgranted hstretch).2
  obtain ⟨found, hr, hauthenticates⟩ := hs.sound.promise hkept hi hcall
  obtain ⟨record, hfound, hname, hid⟩ := hauthenticates.complete name workspaceId (fun _ _ h => h.2) fun _ _ h => h.1.2
  cases hr
  cases hfound
  exact ⟨record, rfl, hname, hid⟩

/-- Whoever is let in has a token that was drawn for the grant. -/
theorem Careful.owned (hs : Careful False True s)
    (hcall : Ended s i (.authenticate audience token) (.authenticated (some record))) :
    record.phase ≠ .discarding ∧ TokenOf s.world audience record.name record.workspaceId token := by
  obtain ⟨found, hr, hauthenticates⟩ := hs.sound.ended hcall
  cases hr
  obtain ⟨hphase, htoken, -⟩ := hauthenticates.sound record rfl
  exact ⟨hphase, htoken⟩

/-- Whoever is let in while calls go on was active, and had a grant, at some time. -/
theorem Careful.letIn (hs : Careful False True s) {K : World → World → Prop}
    (hstretch : ReflTransGen (system.Moves (careful False True) K) s s') (hi : s.calls.length ≤ i)
    (hcall : Ended s' i (.authenticate audience token) (.authenticated (some record))) :
    Passed K (Active record.name record.workspaceId) ∧ Passed K (HasGrant audience record.name record.workspaceId) := by
  obtain ⟨found, hr, hauthenticates⟩ := hs.sound.promise hstretch hi hcall
  cases hr
  obtain ⟨hphase, -, ⟨w, w', hK, hcurrent⟩, hgrant⟩ := hauthenticates.sound record rfl
  exact ⟨⟨w, w', hK, record, hcurrent, rfl, rfl, hphase⟩, hgrant⟩

variable {record' : WorkspaceRecord}

/-- Whoever is told a token and whoever is let in with it have the same grant. -/
theorem Careful.told (hs : Careful False True s)
    (hcall : Ended s i (.ensureGrant audience name) (.granted record token))
    (hcall' : Ended s j (.authenticate audience' token) (.authenticated (some record'))) :
    audience = audience' ∧ record.name = record'.name ∧ record.workspaceId = record'.workspaceId := by
  obtain ⟨rfl, hensured⟩ := hs.sound.ended hcall record token rfl
  exact hs.sound.world.tokenOf_unique (hensured token rfl).1 (hs.owned hcall').2

theorem Careful.same (hs : Careful False True s)
    (hcall : Ended s i (.authenticate audience token) (.authenticated (some record)))
    (hcall' : Ended s j (.authenticate audience' token) (.authenticated (some record'))) :
    audience = audience' ∧ record.name = record'.name ∧ record.workspaceId = record'.workspaceId :=
  hs.sound.world.tokenOf_unique (hs.owned hcall).2 (hs.owned hcall').2

/-- Grants among calls that make, check and remove them. While a grant stays, all who ensure it are told one token
that is not empty, and that is good for its instance as long as it is active. No token is good for two audiences or
two instances, and none for an instance that is not active or has no grant. -/
theorem grants_are_single (hs : Careful False True s) :
    (∀ audience name workspaceId s',
      ReflTransGen (system.Moves (careful False True) (GrantStays audience name workspaceId)) s s' →
      ∀ i j (record record' : WorkspaceRecord) token token', s.calls.length ≤ i → s.calls.length ≤ j →
        record.workspaceId = workspaceId → record'.workspaceId = workspaceId →
        Ended s' i (.ensureGrant audience name) (.granted record token) →
        Ended s' j (.ensureGrant audience name) (.granted record' token') →
        token = token' ∧ token ≠ "" ∧ Granted audience name workspaceId token s'.world) ∧
    (∀ audience name workspaceId token s', Granted audience name workspaceId token s.world →
      ReflTransGen (system.Moves (careful False True) fun w w' =>
        GrantStays audience name workspaceId w w' ∧ Active name workspaceId w') s s' →
      ∀ i outcome, s.calls.length ≤ i → Ended s' i (.authenticate audience token) outcome →
        ∃ record, outcome = .authenticated (some record) ∧ record.name = name ∧ record.workspaceId = workspaceId) ∧
    (∀ i j audience audience' name token (record record' : WorkspaceRecord),
      Ended s i (.ensureGrant audience name) (.granted record token) ∨
        Ended s i (.authenticate audience token) (.authenticated (some record)) →
      Ended s j (.authenticate audience' token) (.authenticated (some record')) →
      audience = audience' ∧ record.name = record'.name ∧ record.workspaceId = record'.workspaceId) ∧
    (∀ i audience token failure, ¬ Failed s i (.authenticate audience token) failure) ∧
    (∀ i audience token record, Ended s i (.authenticate audience token) (.authenticated (some record)) →
      record.phase ≠ .discarding) ∧
    (∀ name workspaceId s',
      ReflTransGen (system.Moves (careful False True) fun _ w => ¬ Active name workspaceId w) s s' →
      ∀ i audience token record, s.calls.length ≤ i →
        Ended s' i (.authenticate audience token) (.authenticated (some record)) →
        ¬ (record.name = name ∧ record.workspaceId = workspaceId)) ∧
    ∀ audience name workspaceId s',
      ReflTransGen (system.Moves (careful False True) fun _ w => ¬ HasGrant audience name workspaceId w) s s' →
      ∀ i token record, s.calls.length ≤ i → Ended s' i (.authenticate audience token) (.authenticated (some record)) →
        ¬ (record.name = name ∧ record.workspaceId = workspaceId) := by
  refine ⟨?_, ?_, ?_, ?_, ?_, ?_, ?_⟩
  · intro audience name workspaceId s' hstretch i j record record' token token' hi hj hid hid' hcall hcall'
    obtain ⟨htoken, hgranted⟩ := hs.ensured hstretch hi hid hcall
    exact ⟨hgranted.unique (hs.ensured hstretch hj hid' hcall').2, htoken, hgranted⟩
  · exact fun _ _ _ _ _ hgranted hstretch _ _ hi hcall => hs.good hgranted hstretch hi hcall
  · rintro i j audience audience' name token record record' (hcall | hcall) hcall'
    · exact hs.told hcall hcall'
    · exact hs.same hcall hcall'
  · intro i audience token failure hcall
    obtain ⟨found, hr, -⟩ := hs.sound.failed hcall
    cases hr
  · exact fun _ _ _ _ hcall => (hs.owned hcall).1
  · rintro name workspaceId s' hstretch i audience token record hi hcall ⟨rfl, rfl⟩
    obtain ⟨⟨w, w', hinactive, hactive⟩, -⟩ := hs.letIn hstretch hi hcall
    exact hinactive hactive
  · rintro audience name workspaceId s' hstretch i token record hi hcall ⟨rfl, rfl⟩
    obtain ⟨-, w, w', hnone, hgrant⟩ := hs.letIn hstretch hi hcall
    exact hnone hgrant

end Grants

section Sample

open Sample

def emptyGrant (s : State) : Bool :=
  match s.calls[(2 : Nat)]? with
  | some ⟨.ensureGrant .agent "a", some (.done (.granted _ token))⟩ => token = ""
  | _ => false

/-- After the claim two calls ensure one grant, and the second reads the file that the first has made and not filled. -/
def ensuredTooEarly : List Event :=
  .begins (.ensureGrant .agent "a") :: goes 1 5 { random := sampleId } ++
    .begins (.ensureGrant .agent "a") :: goes 2 4 {}

/-- A call that ensures a grant is told an empty token. -/
theorem ensure_returns_empty : ¬ ∀ s : State, ReflTransGen (system.Moves .all fun _ _ => True) initial s →
    ∀ i audience name record token, Ended s i (.ensureGrant audience name) (.granted record token) → token ≠ "" := by
  intro h
  obtain ⟨s, hs, hempty⟩ := (Option.any_eq_true _ _).mp
    (show (Concurrent.followAll perform (fun _ _ _ _ => true) system ensuredTooEarly claimedState).any emptyGrant = true by
      decide +kernel)
  rw [emptyGrant] at hempty
  split at hempty
  · rename_i record token hcall
    exact h s ((moves_of_follow claimed_ends).trans (moves_of_follow hs)) 2 .agent "a" record token hcall
      (of_decide_eq_true hempty)
  · cases hempty

def authenticated (s : State) : Bool :=
  match s.calls[(2 : Nat)]? with
  | some ⟨.authenticate .agent _, some (.done (.authenticated (some _)))⟩ => true
  | _ => false

/-- A workspace that was granted and presents its token. -/
def grantedAndPresented : List Event :=
  claimed ++ .begins (.ensureGrant .agent "a") :: goes 1 97 { random := sampleId } ++
    .begins (.authenticate .agent (grantToken "a" sampleId sampleId)) :: goes 2 4 {}

def grantedState : State :=
  let token := "YQ." ++ sampleId ++ "." ++ sampleId
  ⟨{ claimedState.world with
      files := ⟨claimedState.world.files.inodes ++ [⟨.regular, 0, 0o600, 1, token ++ "\n"⟩],
        Function.update claimedState.world.files.entries (.grants .agent) [("a." ++ sampleId, 1)]⟩
      drawn := [(sampleId, .agent, "a", sampleId)]
      begun := .ensureGrant .agent "a" :: claimedState.world.begun },
    claimedState.calls ++ [⟨.ensureGrant .agent "a", some (.done (.granted sampleWorkspace token))⟩]⟩

set_option maxRecDepth 8000 in
theorem granted_ends : Concurrent.followAll perform checked system
    (.begins (.ensureGrant .agent "a") :: goes 1 97 { random := sampleId }) claimedState = some grantedState := by rfl

/-- A token that was told lets its workspace in. -/
theorem granted_is_let_in : ∃ s : State, ∃ token record,
    Ended s 2 (.authenticate .agent token) (.authenticated (some record)) ∧ record.phase ≠ .discarding := by
  obtain ⟨s, hs, hin⟩ := (Option.any_eq_true _ _).mp
    (show (followCareful grantedAndPresented).any authenticated = true by
      rw [grantedAndPresented, followCareful_append, followCareful_append, claimed_ends, Option.bind_some, granted_ends,
        Option.bind_some]
      decide +kernel)
  have hcareful : Careful False True s := careful_of_follow hs (by decide +kernel)
  rw [authenticated] at hin
  split at hin
  · rename_i token record hcall
    obtain ⟨-, -, -, -, hphase, -⟩ := grants_are_single hcareful
    exact ⟨s, token, record, hcall, hphase 2 .agent token record hcall⟩
  · cases hin

end Sample

end Dim.Lifecycle
