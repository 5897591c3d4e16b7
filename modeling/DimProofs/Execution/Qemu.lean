/-
A QEMU job from `docker run` to its terminal event, and `parseNativeQemuTerminalEvent`, which reads such events back.
The output,
the signals that end a run and the timers of the runner come in any order.
-/
import DimProofs.Execution.Collector
import DimProofs.Host.QemuWorker
import DimProofs.Terminal.Texts
import DimProofs.Terminal.Times
import DimProofs.Terminal.Values

namespace Dim.Execution.Qemu

open Dim.Qemu (QemuBounds QemuCompletion QemuExecutionDescriptor QemuResult)
open Host.QemuWorker (NativeQemuHostAssignment)
open Terminal (Value Members get)

/-! ## Terminal events -/

structure TerminalPayload (Descriptor : Type) where
  (reviewId attemptId : String)
  descriptor : Descriptor
  (descriptorDigest hostId capacity startedAt finishedAt : String)
  result : QemuResult
  completion : QemuCompletion
  (stdout stderr : OutputEvidence)

structure NativeQemuTerminalEvent (Descriptor : Type) where
  (eventId occurredAt : String)
  payload : TerminalPayload Descriptor

/-- What the ordinary protocol asks of the output of a success: all of it is there, within the bound. -/
def NativeQemuTerminalEvent.Complete {Descriptor : Type} (event : NativeQemuTerminalEvent Descriptor)
    (bound : Option Nat) : Prop :=
  event.payload.stdout.truncated = false ∧ event.payload.stderr.truncated = false ∧
    ∃ outputBytes, bound = some outputBytes ∧
      Terminal.decimal event.payload.stdout.bytes + Terminal.decimal event.payload.stderr.bytes ≤ outputBytes

/-! ## `runStreaming` -/

/-- The signals that the runner tells apart. -/
inductive Signal where
  | kill
  | term
  | other

def signalExitCode : Signal → Nat
  | .kill => 137
  | .term => 143
  | .other => 1

/-- `terminateTimer` and `killTimer` are timers that fire, `error` and `close` the events of the child process. -/
inductive Event where
  | chunk (stream : Stream) (bytes : Bytes)
  | cancelled
  | timedOut
  | terminateTimer
  | killTimer
  | error
  | close (exitCode : Option Nat) (signal : Signal)

structure StreamingRun where
  output : NativeOutputCollector
  (aborting terminateTimer killTimer closed : Bool)
  settled : Option Nat

namespace StreamingRun

def start (limit : Nat) : StreamingRun :=
  { output := .new limit, aborting := false, terminateTimer := false, killTimer := false, closed := false, settled := none }

def finish (run : StreamingRun) (exitCode : Nat) : StreamingRun :=
  if run.settled.isSome then run else { run with settled := some exitCode, terminateTimer := false, killTimer := false }

def abort (run : StreamingRun) : StreamingRun :=
  if run.settled.isSome || run.aborting then run else { run with aborting := true, terminateTimer := true }

/-- Nothing comes from a child that has closed, and only a timer that is set fires. -/
def step (run : StreamingRun) : Event → Option StreamingRun
  | .chunk stream bytes =>
    if run.closed then none
    else
      let run' := { run with output := run.output.write stream bytes }
      some (if run'.output.aborts ≠ run.output.aborts then run'.abort else run')
  | .cancelled | .timedOut => some run.abort
  | .terminateTimer => if run.terminateTimer then some { run with terminateTimer := false, killTimer := true } else none
  | .killTimer => if run.killTimer then some ({ run with killTimer := false }.finish 137) else none
  | .error => if run.closed then none else some (run.finish 127)
  | .close exitCode signal =>
    if run.closed then none else some ({ run with closed := true }.finish (exitCode.getD (signalExitCode signal)))

def steps (run : StreamingRun) : List Event → Option StreamingRun
  | [] => some run
  | event :: events => (run.step event).bind (·.steps events)

end StreamingRun

/-! ## The executor -/

/-- An assignment as its parser admits it: the bounds are those of the capacity. -/
structure Assignment where
  assignment : NativeQemuHostAssignment
  capacity : QemuBounds
  bounds : assignment.attempt.descriptor.bounds = capacity

inductive Failure where
  | preparation
  | aborted
  | cleanup (claimId : String)

/-- What happens around a job: whether the candidate and the files were prepared, what came from `docker run` until the
output was
taken (`none` where it was never started), whether the cleanup was complete, and the readings of the clock. -/
structure Readings where
  prepared : Bool
  docker : Option (List Event)
  cleanup : Bool
  (startedAt finishedAt eventId : String)

/-- What `docker run` leaves: its exit code or its error, and the output. There is none while it has not ended. -/
def dockerRun (limit : Nat) : Option (List Event) → Option (Except Failure Nat × NativeOutputCollector)
  | none => some (.error .aborted, .new limit)
  | some events => do
    let run ← (StreamingRun.start limit).steps events
    let exitCode ← run.settled
    return (.ok exitCode, run.output)

/-- `catch`: the error of a run whose output exceeded its bound leaves the first value of `exitCode`. -/
def caught (exitCode : Except Failure Nat) (output : NativeOutputCollector) : Except Failure Nat :=
  match exitCode with
  | .ok exitCode => .ok exitCode
  | .error failure => if output.exceeded then .ok 1 else .error failure

section

variable [Sha256]

def terminalEvent (input : Assignment) (readings : Readings) (exitCode : Nat) (output : NativeOutputCollector) :
    NativeQemuTerminalEvent QemuExecutionDescriptor :=
  { eventId := readings.eventId, occurredAt := readings.finishedAt
    payload :=
      { reviewId := input.assignment.claim.event.reviewId, attemptId := input.assignment.attempt.attemptId,
        descriptor := input.assignment.attempt.descriptor, descriptorDigest := input.assignment.attempt.descriptorDigest,
        hostId := input.assignment.claim.hostId, capacity := input.assignment.claim.capacity,
        startedAt := readings.startedAt, finishedAt := readings.finishedAt,
        result := if exitCode = 0 then .success else .failure, completion := .exited exitCode,
        stdout := output.result.stdoutEvidence, stderr := output.result.stderrEvidence } }

/-- The job, once `docker run` has ended; the failure of the cleanup replaces any other. -/
def executeNativeQemuAssignment (input : Assignment) (readings : Readings) :
    Option (Except Failure (NativeQemuTerminalEvent QemuExecutionDescriptor)) :=
  if readings.prepared then
    (dockerRun input.capacity.outputBytes readings.docker).map fun run =>
      if readings.cleanup then (caught run.1 run.2).map fun exitCode => terminalEvent input readings exitCode run.2
      else .error (.cleanup input.assignment.claim.claimId)
  else if readings.cleanup then some (.error .preparation)
  else some (.error (.cleanup input.assignment.claim.claimId))

end

/-! ## `parseNativeQemuTerminalEvent` -/

def require (condition : Bool) : Option Unit := if condition then some () else none

def record : Value → Option Members
  | .object entries => some entries
  | _ => none

def exactKeys (entries : Members) (keys : List String) : Option Unit :=
  require (entries.length = keys.length && keys.all (entries.map Prod.fst).contains)

def exact (value : Value) (keys : List String) : Option Members := do
  let parsed ← record value
  exactKeys parsed keys
  return parsed

def matching (pattern : String → Bool) : Value → Option String
  | .string text => if pattern text then some text else none
  | _ => none

def uuid : Value → Option String := matching Pattern.uuid

def digest : Value → Option String := matching Pattern.digest

def identifier : Value → Option String := matching Pattern.identifier

def hex (length : Nat) : Value → Option String := matching (Pattern.hexString length)

/-- `\.\d{3}Z` after the seconds, and a date that `Date.parse` reads. -/
def timestampPattern (text : String) : Bool :=
  ((Terminal.timestampOf text).any fun time => time.fraction.length = 3) && (Terminal.dateParse text).isSome

def timestamp : Value → Option String := matching timestampPattern

def bounded (minimum maximum : Nat) : Value → Option Nat
  | .number n => if n.isInt && minimum ≤ n && n ≤ maximum then some n.num.toNat else none
  | _ => none

def boolean : Value → Option Bool
  | .boolean b => some b
  | _ => none

def parseCompletion (value : Value) : Option QemuCompletion := do
  let completion ← record value
  match get completion "kind" with
  | .string "exited" => do
    exactKeys completion ["kind", "exitCode"]
    return .exited (← bounded 0 255 (get completion "exitCode"))
  | .string "signaled" => do
    exactKeys completion ["kind", "signal"]
    return .signaled (← bounded 1 64 (get completion "signal"))
  | .string "timed-out" => do
    exactKeys completion ["kind"]
    return .timedOut
  | .string "output-limit-exceeded" => do
    exactKeys completion ["kind"]
    return .outputLimitExceeded
  | .string "cancelled" => do
    exactKeys completion ["kind"]
    return .cancelled
  | _ => none

/-- `output(value)`. -/
def parseOutput (value : Value) : Option OutputEvidence := do
  let evidence ← exact value ["bytes", "sha256", "truncated"]
  let bytes ← matching Terminal.naturalPattern (get evidence "bytes")
  let truncated ← boolean (get evidence "truncated")
  let sha256 ← digest (get evidence "sha256")
  return { bytes, sha256, truncated }

def terminalResult : Value → Option QemuResult
  | .string "success" => some .success
  | .string "failure" => some .failure
  | .string "cancelled" => some .cancelled
  | _ => none

def completionResult : QemuCompletion → QemuResult
  | .exited exitCode => if exitCode = 0 then .success else .failure
  | .cancelled => .cancelled
  | _ => .failure

def later (a b : String) : Bool :=
  match Terminal.dateParse a, Terminal.dateParse b with
  | some a, some b => b < a
  | _, _ => false

def payloadKeys : List String :=
  ["executionKind", "evidenceClass", "reviewId", "attemptId", "descriptor", "descriptorDigest", "hostId", "capacity",
    "startedAt", "finishedAt", "result", "completion", "stdout", "stderr"]

/-- `invalid()` is `none`. -/
def parseNativeQemuTerminalEvent (value : Value) : Option (NativeQemuTerminalEvent Members) := do
  let event ← exact value ["schemaVersion", "eventId", "occurredAt", "eventType", "payload"]
  let payload ← exact (get event "payload") payloadKeys
  require ((get event "schemaVersion").isNumber 1 && (get event "eventType").is "dim.ci.job.completed" &&
    (get payload "executionKind").is "qemu" && (get payload "evidenceClass").is "candidate-controlled")
  let result ← terminalResult (get payload "result")
  let completion ← parseCompletion (get payload "completion")
  require (completionResult completion = result)
  let startedAt ← timestamp (get payload "startedAt")
  let finishedAt ← timestamp (get payload "finishedAt")
  require (!later startedAt finishedAt)
  let eventId ← uuid (get event "eventId")
  let occurredAt ← timestamp (get event "occurredAt")
  let reviewId ← hex 64 (get payload "reviewId")
  let attemptId ← uuid (get payload "attemptId")
  let descriptor ← record (get payload "descriptor")
  let descriptorDigest ← digest (get payload "descriptorDigest")
  let hostId ← identifier (get payload "hostId")
  let capacity ← identifier (get payload "capacity")
  let stdout ← parseOutput (get payload "stdout")
  let stderr ← parseOutput (get payload "stderr")
  return { eventId, occurredAt,
           payload := { reviewId, attemptId, descriptor, descriptorDigest, hostId, capacity, startedAt, finishedAt, result,
                        completion, stdout, stderr } }

/-! ## Runs -/

/-- The exit code that an event settles. -/
def ending : Event → Option Nat
  | .killTimer => some 137
  | .error => some 127
  | .close exitCode signal => some (exitCode.getD (signalExitCode signal))
  | _ => none

/-- The exit code of `docker run`: the first ending settles it. -/
def exitCode (events : List Event) : Option Nat := events.findSome? ending

/-- The chunk that an event brings. -/
def chunk? : Event → Option (Stream × Bytes)
  | .chunk stream bytes => some (stream, bytes)
  | _ => none

/-- The chunks of a run, late ones included. -/
def chunks (events : List Event) : List (Stream × Bytes) := events.filterMap chunk?

namespace StreamingRun

variable {run run' : StreamingRun}

@[simp] theorem output_abort : run.abort.output = run.output := by
  rw [abort]
  split <;> rfl

@[simp] theorem settled_abort : run.abort.settled = run.settled := by
  rw [abort]
  split <;> rfl

@[simp] theorem output_finish (code : Nat) : (run.finish code).output = run.output := by
  rw [finish]
  split <;> rfl

@[simp] theorem settled_finish (code : Nat) : (run.finish code).settled = run.settled.or (some code) := by
  rw [finish]
  cases hsettled : run.settled <;> simp [hsettled]

/-- What an event does to the output and to the promise. -/
theorem step_spec {event : Event} (h : run.step event = some run') :
    run'.output = run.output.writes (chunk? event).toList ∧ run'.settled = run.settled.or (ending event) := by
  cases event with
  | chunk stream bytes =>
    simp only [step] at h
    split at h
    · cases h
    · cases h
      split <;> simp [chunk?, ending, NativeOutputCollector.writes]
  | cancelled =>
    cases h
    simp [chunk?, ending, NativeOutputCollector.writes]
  | timedOut =>
    cases h
    simp [chunk?, ending, NativeOutputCollector.writes]
  | terminateTimer =>
    simp only [step] at h
    split at h
    · cases h
      simp [chunk?, ending, NativeOutputCollector.writes]
    · cases h
  | killTimer =>
    simp only [step] at h
    split at h
    · cases h
      simp [chunk?, ending, NativeOutputCollector.writes]
    · cases h
  | error =>
    simp only [step] at h
    split at h
    · cases h
    · cases h
      simp [chunk?, ending, NativeOutputCollector.writes]
  | close exitCode signal =>
    simp only [step] at h
    split at h
    · cases h
    · cases h
      simp [chunk?, ending, NativeOutputCollector.writes]

/-- A run collects its chunks and settles with its first ending. -/
theorem steps_spec : ∀ {events : List Event} {run run' : StreamingRun}, run.steps events = some run' →
    run'.output = run.output.writes (chunks events) ∧ run'.settled = run.settled.or (exitCode events)
  | [], run, run', h => by
    cases h
    simp [chunks, exitCode, NativeOutputCollector.writes]
  | event :: events, run, run', h => by
    obtain ⟨next, hstep, hsteps⟩ := Option.bind_eq_some_iff.mp h
    obtain ⟨houtput, hsettled⟩ := step_spec hstep
    obtain ⟨houtputs, hsettleds⟩ := steps_spec hsteps
    constructor
    · rw [houtputs, houtput]
      cases hchunk : chunk? event <;> simp [chunks, hchunk, NativeOutputCollector.writes]
    · rw [hsettleds, hsettled, Option.or_assoc]
      cases hending : ending event <;> simp [exitCode, hending]

end StreamingRun

/-! ## Successes of the executor -/

section

variable [Sha256]

/-- A job with an event ended, and its event has the exit code and the output of `docker run`. -/
theorem executed {input : Assignment} {readings : Readings} {event : NativeQemuTerminalEvent QemuExecutionDescriptor}
    (h : executeNativeQemuAssignment input readings = some (.ok event)) :
    ∃ events code, readings.docker = some events ∧ exitCode events = some code ∧
      event = terminalEvent input readings code
        ((NativeOutputCollector.new input.capacity.outputBytes).writes (chunks events)) := by
  rw [executeNativeQemuAssignment] at h
  split at h
  · obtain ⟨⟨result, output⟩, hrun, hevent⟩ := Option.map_eq_some_iff.mp h
    split at hevent
    · cases hdocker : readings.docker with
      | none =>
        rw [hdocker, dockerRun] at hrun
        cases hrun
        cases hevent
      | some events =>
        rw [hdocker, dockerRun] at hrun
        obtain ⟨run, hsteps, hrun⟩ := Option.bind_eq_some_iff.mp hrun
        obtain ⟨code, hsettled, hrun⟩ := Option.bind_eq_some_iff.mp hrun
        cases hrun
        obtain ⟨houtput, hcode⟩ := StreamingRun.steps_spec hsteps
        refine ⟨events, code, rfl, ?_, ?_⟩
        · rw [← hsettled, hcode]
          rfl
        · cases hevent
          rw [houtput]
          rfl
    · cases hevent
  · split at h <;> cases h

/-- The output of a run is complete where all of it fits. -/
theorem complete_output (limit : Nat) (arrivals : List (Stream × Bytes)) :
    let output := ((NativeOutputCollector.new limit).writes arrivals).result
    (output.stdoutEvidence.truncated = false ∧ output.stderrEvidence.truncated = false ∧
      Terminal.decimal output.stdoutEvidence.bytes + Terminal.decimal output.stderrEvidence.bytes ≤ limit) ↔
    (arrived arrivals).length ≤ limit := by
  obtain ⟨kept, dropped, h, heq⟩ := (NativeOutputCollector.holds_new limit).writes arrivals
  simp only [List.nil_append] at heq
  generalize (NativeOutputCollector.new limit).writes arrivals = collector at h
  have hout := h.channels .stdout
  have herr := h.channels .stderr
  have hbytes : collector.stdout.bytes + collector.stderr.bytes = kept.length := by
    rw [← length_split kept, ← hout.bytes, ← herr.bytes]
    rfl
  simp only [NativeOutputCollector.result, evidence, Terminal.decimal_toString, hbytes]
  rw [← heq, List.length_append]
  constructor
  · rintro ⟨hstdout, hstderr, hwithin⟩
    have hnone : dropped = [] := by
      rw [List.eq_nil_iff_forall_not_mem]
      rintro ⟨stream, b⟩ hmem
      cases stream with
      | stdout => exact absurd (hout.truncated.mpr ⟨_, hmem, rfl⟩) (by simpa [NativeOutputCollector.channelOf] using hstdout)
      | stderr => exact absurd (herr.truncated.mpr ⟨_, hmem, rfl⟩) (by simpa [NativeOutputCollector.channelOf] using hstderr)
    simpa [hnone] using hwithin
  · intro hfits
    have hnone : dropped = [] := by
      by_contra hne
      have hfull := h.full hne
      have hpos := List.length_pos_iff.mpr hne
      omega
    subst hnone
    refine ⟨?_, ?_, h.within⟩
    · simpa [NativeOutputCollector.channelOf] using hout.truncated
    · simpa [NativeOutputCollector.channelOf] using herr.truncated

end

/-! ## Successes of the parser -/

def members : Value → Members
  | .object entries => entries
  | _ => []

/-- `value.payload`. -/
def payloadOf (value : Value) : Members := members (get (members value) "payload")

/-- `descriptor.bounds.outputBytes`, as the ordinary protocol reads it. -/
def outputBound (descriptor : Members) : Option Nat :=
  match get (members (get descriptor "bounds")) "outputBytes" with
  | .string text => if Terminal.positivePattern text then some (Terminal.decimal text) else none
  | _ => none

/-- The number in the `bytes` of an output. -/
def recorded (output : Value) : Nat :=
  match get (members output) "bytes" with
  | .string text => Terminal.decimal text
  | _ => 0

/-- The completion that a value reports is an exit with `0`. -/
def ReportsSuccess (value : Value) : Prop :=
  get (members (get (payloadOf value) "completion")) "kind" = .string "exited" ∧
    get (members (get (payloadOf value) "completion")) "exitCode" = .number 0

/-- The output that a value reports is whole and within the bound that its own descriptor has. -/
def ReportsWhole (value : Value) : Prop :=
  get (members (get (payloadOf value) "stdout")) "truncated" = .boolean false ∧
    get (members (get (payloadOf value) "stderr")) "truncated" = .boolean false ∧
    ∃ outputBytes, outputBound (members (get (payloadOf value) "descriptor")) = some outputBytes ∧
      recorded (get (payloadOf value) "stdout") + recorded (get (payloadOf value) "stderr") ≤ outputBytes

variable {value : Value}

theorem members_of_exact {keys : List String} {entries : Members} (h : exact value keys = some entries) :
    members value = entries := by
  obtain ⟨parsed, hrecord, h⟩ := Option.bind_eq_some_iff.mp h
  obtain ⟨-, -, h⟩ := Option.bind_eq_some_iff.mp h
  cases h
  cases value <;> cases hrecord
  rfl

theorem require_some {condition : Bool} {done : Unit} (h : require condition = some done) : condition = true := by
  cases condition
  · cases h
  · rfl

theorem matching_some {pattern : String → Bool} {text : String} (h : matching pattern value = some text) :
    value = .string text ∧ pattern text = true := by
  cases value with
  | string s =>
    rw [matching] at h
    split at h
    · rename_i hpattern
      cases h
      exact ⟨rfl, hpattern⟩
    · cases h
  | _ => cases h

theorem bounded_some {minimum maximum : Nat} {n : Nat} (h : bounded minimum maximum value = some n) :
    value = .number n := by
  cases value with
  | number m =>
    rw [bounded] at h
    split at h
    · rename_i hbounds
      cases h
      simp only [Bool.and_eq_true, decide_eq_true_eq] at hbounds
      rw [← Terminal.Value.eq_natural hbounds.1.1 hbounds.1.2]
    · cases h
  | _ => cases h

theorem output_parsed {output : OutputEvidence} (h : parseOutput value = some output) :
    recorded value = Terminal.decimal output.bytes ∧ get (members value) "truncated" = .boolean output.truncated := by
  obtain ⟨entries, hexact, h⟩ := Option.bind_eq_some_iff.mp h
  obtain ⟨bytes, hbytes, h⟩ := Option.bind_eq_some_iff.mp h
  obtain ⟨truncated, htruncated, h⟩ := Option.bind_eq_some_iff.mp h
  obtain ⟨sha256, -, h⟩ := Option.bind_eq_some_iff.mp h
  cases h
  rw [recorded, members_of_exact hexact, (matching_some hbytes).1]
  refine ⟨rfl, ?_⟩
  cases hvalue : get entries "truncated" <;> rw [hvalue] at htruncated <;> cases htruncated
  rfl

/-- A completion is an exit with `0` where its members say so. -/
theorem completion_parsed {completion : QemuCompletion} (h : parseCompletion value = some completion) :
    completionResult completion = .success ↔
      get (members value) "kind" = .string "exited" ∧ get (members value) "exitCode" = .number 0 := by
  obtain ⟨entries, hrecord, h⟩ := Option.bind_eq_some_iff.mp h
  have hmembers : members value = entries := by
    cases value <;> cases hrecord
    rfl
  rw [hmembers]
  split at h
  · rename_i hkind
    obtain ⟨-, -, h⟩ := Option.bind_eq_some_iff.mp h
    obtain ⟨exitCode, hcode, h⟩ := Option.bind_eq_some_iff.mp h
    cases h
    rw [hkind, bounded_some hcode]
    simp [completionResult]
  · rename_i hkind
    obtain ⟨-, -, h⟩ := Option.bind_eq_some_iff.mp h
    obtain ⟨signal, -, h⟩ := Option.bind_eq_some_iff.mp h
    cases h
    simp [completionResult, hkind]
  · rename_i hkind
    obtain ⟨-, -, h⟩ := Option.bind_eq_some_iff.mp h
    cases h
    simp [completionResult, hkind]
  · rename_i hkind
    obtain ⟨-, -, h⟩ := Option.bind_eq_some_iff.mp h
    cases h
    simp [completionResult, hkind]
  · rename_i hkind
    obtain ⟨-, -, h⟩ := Option.bind_eq_some_iff.mp h
    cases h
    simp [completionResult, hkind]
  · cases h

/-- What an accepted event says of its result and its output is what the value reports. -/
theorem event_parsed {event : NativeQemuTerminalEvent Members} (h : parseNativeQemuTerminalEvent value = some event) :
    (event.payload.result = .success ↔ ReportsSuccess value) ∧
      (event.Complete (outputBound event.payload.descriptor) ↔ ReportsWhole value) := by
  obtain ⟨entries, hentries, h⟩ := Option.bind_eq_some_iff.mp h
  obtain ⟨payload, hpayload, h⟩ := Option.bind_eq_some_iff.mp h
  obtain ⟨-, -, h⟩ := Option.bind_eq_some_iff.mp h
  obtain ⟨result, -, h⟩ := Option.bind_eq_some_iff.mp h
  obtain ⟨completion, hcompletion, h⟩ := Option.bind_eq_some_iff.mp h
  obtain ⟨_, hresult, h⟩ := Option.bind_eq_some_iff.mp h
  obtain ⟨startedAt, -, h⟩ := Option.bind_eq_some_iff.mp h
  obtain ⟨finishedAt, -, h⟩ := Option.bind_eq_some_iff.mp h
  obtain ⟨-, -, h⟩ := Option.bind_eq_some_iff.mp h
  obtain ⟨eventId, -, h⟩ := Option.bind_eq_some_iff.mp h
  obtain ⟨occurredAt, -, h⟩ := Option.bind_eq_some_iff.mp h
  obtain ⟨reviewId, -, h⟩ := Option.bind_eq_some_iff.mp h
  obtain ⟨attemptId, -, h⟩ := Option.bind_eq_some_iff.mp h
  obtain ⟨descriptor, hdescriptor, h⟩ := Option.bind_eq_some_iff.mp h
  obtain ⟨descriptorDigest, -, h⟩ := Option.bind_eq_some_iff.mp h
  obtain ⟨hostId, -, h⟩ := Option.bind_eq_some_iff.mp h
  obtain ⟨capacity, -, h⟩ := Option.bind_eq_some_iff.mp h
  obtain ⟨stdout, hstdout, h⟩ := Option.bind_eq_some_iff.mp h
  obtain ⟨stderr, hstderr, h⟩ := Option.bind_eq_some_iff.mp h
  cases h
  have hpayloadOf : payloadOf value = payload := by rw [payloadOf, members_of_exact hentries, members_of_exact hpayload]
  have hmembers : members (get payload "descriptor") = descriptor := by
    cases hvalue : get payload "descriptor" <;> rw [hvalue] at hdescriptor <;> cases hdescriptor
    rfl
  obtain ⟨hstdoutBytes, hstdoutTruncated⟩ := output_parsed hstdout
  obtain ⟨hstderrBytes, hstderrTruncated⟩ := output_parsed hstderr
  have hsame : completionResult completion = result := of_decide_eq_true (require_some hresult)
  constructor
  · rw [ReportsSuccess, hpayloadOf, ← completion_parsed hcompletion, hsame]
  · simp only [ReportsWhole, NativeQemuTerminalEvent.Complete, hpayloadOf, hmembers, hstdoutBytes, hstderrBytes,
      hstdoutTruncated, hstderrTruncated, Value.boolean.injEq]

/-! ## Successes -/

/-- A success describes all of its output, within its bound, exactly where `docker run` does not end with `0` or
everything that
arrived fits; and where an event was parsed, exactly where its value does not report a success or reports its output so. -/
theorem success_complete_iff [Sha256] :
    (∀ input readings event, executeNativeQemuAssignment input readings = some (.ok event) →
      ∀ events, readings.docker = some events →
      ((event.payload.result = .success → event.Complete (some event.payload.descriptor.bounds.outputBytes)) ↔
        exitCode events ≠ some 0 ∨ (arrived (chunks events)).length ≤ input.capacity.outputBytes)) ∧
    (∀ value event, parseNativeQemuTerminalEvent value = some event →
      ((event.payload.result = .success → event.Complete (outputBound event.payload.descriptor)) ↔
        ¬ ReportsSuccess value ∨ ReportsWhole value)) := by
  constructor
  · intro input readings event h events hevents
    obtain ⟨_, code, hdocker, hcode, rfl⟩ := executed h
    cases hevents.symm.trans hdocker
    have hcomplete := complete_output input.capacity.outputBytes (chunks events)
    simp only at hcomplete
    have hbound : input.assignment.attempt.descriptor.bounds.outputBytes = input.capacity.outputBytes := by rw [input.bounds]
    have hsuccess : (if code = 0 then QemuResult.success else QemuResult.failure) = .success ↔ exitCode events = some 0 := by
      rw [hcode]
      split <;> simp [*]
    simp only [terminalEvent, NativeQemuTerminalEvent.Complete, hbound, Option.some.injEq, exists_eq_left', hsuccess,
      hcomplete]
    exact imp_iff_not_or
  · intro value event h
    obtain ⟨hsuccess, hwhole⟩ := event_parsed h
    rw [hsuccess, hwhole]
    exact imp_iff_not_or

namespace Sample

/-- The digests of nothing and of the byte `a`. -/
@[reducible] def sha256 : Sha256 where
  hex bytes :=
    if bytes = [97] then "ca978112ca1bbdcafac231b39a23dc4da786eff8147c4e72b9807785afee48bb"
    else "e3b0c44298fc1c149afbf4c8996fb92427ae41e4649b934ca495991b7852b855"

def hash : String := "ca978112ca1bbdcafac231b39a23dc4da786eff8147c4e72b9807785afee48bb"

def id : String := "00000000-0000-4000-8000-000000000000"

def capacity : QemuBounds := { cpu := 2, memoryBytes := 1024, pids := 64, wallClockSeconds := 60, outputBytes := 1 }

def descriptor : QemuExecutionDescriptor :=
  { admissionGeneration := "generation-a", jobName := "integration", runnerBaseImage := "runner@sha256:" ++ hash,
    bounds := capacity, projectId := "project-a", repositoryId := "root", protectedRef := "refs/heads/main",
      expectedProtectedHead := hash,
    candidateCommit := hash, candidateTree := hash, policyRevision := "policy-a", requiredReviewRevision := "reviews-a",
    requiredJobSetRevision := "jobs-a", configBlob := { objectId := hash, sha256 := "sha256:" ++ hash },
    script := { path := ".dim/ci/jobs/integration.bash", objectId := hash, sha256 := "sha256:" ++ hash },
    jobImage := "job@sha256:" ++ hash }

def assignment : Assignment where
  assignment :=
    { claim :=
        { claimId := id, requestId := id, hostId := "host-a", capacity := "kvm-a", admissionGeneration := "generation-a",
          leaseExpiresAt := 0,
          event :=
            { eventId := hash, projectId := "project-a", protectedRef := "refs/heads/main", reviewId := hash,
              envelopeId := hash, expectedProtectedHead := hash, candidateCommit := hash, candidateTree := hash,
                policyRevision := "policy-a",
              requiredReviewRevision := "reviews-a", qualityRevision := "jobs-a", executionKind := "qemu",
                jobName := "integration" } }
      attempt := { attemptId := id, descriptorDigest := "sha256:" ++ hash, descriptor } }
  capacity := capacity
  bounds := rfl

/-- The job writes two bytes and exits with `0`. -/
def readings : Readings :=
  { prepared := true, docker := some [.chunk .stdout [97, 97], .close (some 0) .other], cleanup := true,
    startedAt := "2026-01-01T00:00:00.000Z", finishedAt := "2026-01-01T00:00:01.000Z", eventId := id }

def output (bytes : String) (truncated : Bool) : Value :=
  .object [("bytes", .string bytes), ("sha256", .string ("sha256:" ++ hash)), ("truncated", .boolean truncated)]

/-- The event of the job as JSON, with a part of its descriptor. -/
def reported : Value :=
  .object [("schemaVersion", .number 1), ("eventId", .string id), ("occurredAt", .string "2026-01-01T00:00:01.000Z"),
    ("eventType", .string "dim.ci.job.completed"),
    ("payload", .object [("executionKind", .string "qemu"), ("evidenceClass", .string "candidate-controlled"),
      ("reviewId", .string hash), ("attemptId", .string id),
      ("descriptor", .object [("schemaVersion", .number 1), ("executionKind", .string "qemu"),
        ("bounds", .object [("outputBytes", .string "1")])]),
      ("descriptorDigest", .string ("sha256:" ++ hash)), ("hostId", .string "host-a"), ("capacity", .string "kvm-a"),
      ("startedAt", .string "2026-01-01T00:00:00.000Z"), ("finishedAt", .string "2026-01-01T00:00:01.000Z"),
      ("result", .string "success"), ("completion", .object [("kind", .string "exited"), ("exitCode", .number 0)]),
      ("stdout", output "1" true), ("stderr", output "0" false)])]

end Sample

/-- A job that writes more than its bound and exits with `0` is a success with truncated output, and the parser admits it. -/
theorem truncated_success :
    (∃ event, @executeNativeQemuAssignment Sample.sha256 Sample.assignment Sample.readings = some (.ok event) ∧
      event.payload.result = .success ∧ event.payload.stdout.truncated = true) ∧
    ∃ event, parseNativeQemuTerminalEvent Sample.reported = some event ∧
      event.payload.result = .success ∧ event.payload.stdout.truncated = true := by
  constructor
  · exact ⟨_, rfl, rfl, rfl⟩
  · have h : (parseNativeQemuTerminalEvent Sample.reported).map
        (fun event => (event.payload.result, event.payload.stdout.truncated)) = some (.success, true) := by decide +kernel
    obtain ⟨event, hevent, hsays⟩ := Option.map_eq_some_iff.mp h
    cases hpayload : event.payload
    simp only [hpayload, Prod.mk.injEq] at hsays
    exact ⟨event, hevent, by rw [hpayload]; exact hsays.1, by rw [hpayload]; exact hsays.2⟩

end Dim.Execution.Qemu
