/-
From a terminal result to its acknowledgement or to a recovery: the last part of
`executeNativeHostClaim`, which the ordinary host and the root CI host share, with the journal each
worker keeps and the replay after a restart. A process may crash between any two steps; journal
writes succeed. A recovery that replaces a stored result is logged as a `Switch`.
-/
import Mathlib

namespace Dim.Host

inductive HostKind where
  | ordinary
  | rootCi

/-! ## One submission -/

/-- What a submission ends with: `202`, another status, or no usable response in time. -/
inductive SubmissionAnswer where
  | accepted
  | rejected (statusCode : Nat)
  | lost

inductive HostError where
  | requestRejected (statusCode : Nat)
  | client
  | finalizationUncertain
deriving DecidableEq

/-- `client.reportResult` and `client.report`. -/
def clientReport : SubmissionAnswer → Except HostError Unit
  | .accepted => .ok ()
  | .rejected statusCode => .error (.requestRejected statusCode)
  | .lost => .error .client

/-- `isDefinitiveResultRejection` of the ordinary worker, `definitive` of the root CI worker. -/
def isDefinitiveResultRejection : HostError → Bool
  | .requestRejected statusCode => statusCode = 404 || statusCode = 409
  | _ => false

/-- `reportResult` of the ordinary worker, after its journal was saved. -/
def reportResult (answer : SubmissionAnswer) : Except HostError Unit :=
  match clientReport answer with
  | .ok () => .ok ()
  | .error e => if isDefinitiveResultRejection e then .error e else .error .finalizationUncertain

/-- `report` of the root CI executor passes every error of its client on. -/
def report (answer : SubmissionAnswer) : Except HostError Unit := clientReport answer

def HostKind.report : HostKind → SubmissionAnswer → Except HostError Unit
  | .ordinary => reportResult
  | .rootCi => Host.report

/-- The answer is a definitive refusal of the submitted result. -/
def SubmissionAnswer.refuses (answer : SubmissionAnswer) : Bool :=
  match clientReport answer with
  | .ok () => false
  | .error e => isDefinitiveResultRejection e

/-! ## The host -/

/-- The phases of the journal once a claim was answered. -/
inductive HostJournal where
  | active
  | result
  | recovery
deriving DecidableEq

/-- Where the process of the capacity stands. `failures` are the failed calls of `reportResult` in
the loop of `submitNativeResult`, which ends at three. -/
inductive HostProcess where
  | idle
  | executing
  | submitting (failures : List HostError)
  | reporting (failures : List HostError)
  | replaying
  | recovering
  | stopped
deriving DecidableEq

inductive RecoveryCaller where
  | executor
  | worker

/-- The start of a recovery: who asked for it, whether the journal held a terminal result, whether
that result had been refused, and whether the executor's lease was lost. -/
structure Switch where
  caller : RecoveryCaller
  (stored refused leaseLost : Bool)

structure HostState where
  journal : Option HostJournal
  process : HostProcess
  refused : Bool
  switches : List Switch

def HostState.initial : HostState := { journal := none, process := .idle, refused := false, switches := [] }

inductive HostInput where
  | claimed
  | abandoned
  | finished
  | submitted
  | answered (answer : SubmissionAnswer)
  | settled (leaseLost : Bool)
  | recovered (released : Bool)
  | crashed
  | restarted

/-- `recoverClaim`: the journal is saved before the request is sent. -/
def HostState.recoverClaim (s : HostState) (caller : RecoveryCaller) (leaseLost : Bool) : HostState :=
  { s with
    journal := some .recovery
    process := .recovering
    switches := s.switches ++ [{ caller, stored := s.journal = some .result, refused := s.refused, leaseLost }] }

/-- What `executeNativeHostClaim` does with the last failure of `submitNativeResult`. -/
def HostState.settle (s : HostState) (reportFailure : HostError) (leaseLost : Bool) : HostState :=
  if leaseLost then s.recoverClaim .executor leaseLost
  else if reportFailure = .finalizationUncertain then { s with process := .stopped }
  else s.recoverClaim .executor leaseLost

/-- `replayPending` and `replay`, up to the first request. -/
def HostState.replay (s : HostState) : HostState :=
  match s.journal with
  | none => { s with process := .idle }
  | some .active => s.recoverClaim .worker false
  | some .result => { s with process := .replaying }
  | some .recovery => { s with process := .recovering }

/-- `replayResult`, after the answer to the stored request. -/
def HostState.replayAnswered (s : HostState) (answer : SubmissionAnswer) : HostState :=
  match clientReport answer with
  | .ok () => { s with journal := none, process := .idle }
  | .error e =>
    if isDefinitiveResultRejection e then { s with refused := true }.recoverClaim .worker false
    else { s with process := .stopped }

/-- One step of the host. An input that the process does not wait for changes nothing. -/
def step (kind : HostKind) (s : HostState) : HostInput → HostState
  | .claimed =>
    if s.process = .idle ∧ s.journal = none then
      { s with journal := some .active, process := .executing, refused := false }
    else s
  | .abandoned => if s.process = .executing then s.recoverClaim .executor false else s
  | .finished => if s.process = .executing then { s with process := .submitting [] } else s
  | .submitted =>
    match s.process with
    | .submitting failures =>
      if failures.length < 3 then { s with journal := some .result, process := .reporting failures } else s
    | _ => s
  | .answered answer =>
    match s.process with
    | .reporting failures =>
      match kind.report answer with
      | .ok () => { s with journal := none, process := .idle }
      | .error e => { s with process := .submitting (failures ++ [e]), refused := s.refused || answer.refuses }
    | .replaying => s.replayAnswered answer
    | _ => s
  | .settled leaseLost =>
    match s.process with
    | .submitting failures =>
      if failures.length < 3 then s
      else match failures.getLast? with
      | some reportFailure => s.settle reportFailure leaseLost
      | none => s
    | _ => s
  | .recovered released =>
    if s.process = .recovering then
      if released then { s with journal := none, process := .idle } else { s with process := .stopped }
    else s
  | .crashed => { s with process := .stopped }
  | .restarted => if s.process = .stopped then s.replay else s

def run (kind : HostKind) (inputs : List HostInput) : HostState := inputs.foldl (step kind) .initial

/-! ## Which recoveries replace a stored result -/

/-- A stored result gives way only to its definitive refusal, or to an executor that lost its lease
or takes every failure for a refusal. -/
def Switch.Justified (kind : HostKind) (switch : Switch) : Prop :=
  switch.stored = true → switch.refused = true ∨
    (switch.caller = .executor ∧ (switch.leaseLost = true ∨ kind = .rootCi))

/-- The stored result stays in the journal, unless it was just accepted or a recovery replaces it. -/
def Kept (s s' : HostState) (input : HostInput) : Prop :=
  s'.journal = some .result ∨ (input = .answered .accepted ∧ s'.journal = none) ∨
    (s'.journal = some .recovery ∧ ∃ switch, s'.switches = s.switches ++ [switch] ∧ switch.stored = true)

/-- The failures that a running executor holds. -/
def HostProcess.failures : HostProcess → List HostError
  | .submitting failures | .reporting failures => failures
  | _ => []

/-- Every failure that an ordinary executor holds is uncertain, unless the result was refused. -/
structure HostInv (kind : HostKind) (s : HostState) : Prop where
  failures : kind = .ordinary → ∀ e ∈ s.process.failures, e = .finalizationUncertain ∨ s.refused = true
  running : s.journal = some .result → s.process ≠ .idle ∧ s.process ≠ .executing ∧ s.process ≠ .recovering
  switches : ∀ switch ∈ s.switches, switch.Justified kind

theorem HostInv.initial (kind : HostKind) : HostInv kind .initial where
  failures _ e he := by cases he
  running h := by cases h
  switches switch h := by cases h

/-- A recovery that is justified keeps the invariant. -/
theorem HostInv.recoverClaim {kind : HostKind} {s : HostState} (h : HostInv kind s) {caller : RecoveryCaller}
    {leaseLost : Bool} (hj : s.journal = some .result → s.refused = true ∨
      (caller = .executor ∧ (leaseLost = true ∨ kind = .rootCi))) : HostInv kind (s.recoverClaim caller leaseLost) where
  failures _ e he := by cases he
  running hr := by cases hr
  switches switch hs := by
    rcases List.mem_append.mp hs with hs | hs
    · exact h.switches switch hs
    · rw [List.mem_singleton] at hs
      subst hs
      intro hstored
      exact hj (by simpa using hstored)

/-- A step that starts no recovery and reports no new failure keeps the invariant. -/
theorem HostInv.of_quiet {kind : HostKind} {s s' : HostState} (h : HostInv kind s) (hs : s'.switches = s.switches)
    (hf : s'.process.failures = [] ∨ (s'.process.failures = s.process.failures ∧ s'.refused = s.refused))
    (hr : s'.journal = some .result → s'.process ≠ .idle ∧ s'.process ≠ .executing ∧ s'.process ≠ .recovering) :
    HostInv kind s' where
  failures hk e he := by
    rcases hf with hf | ⟨hf, hrefused⟩
    · rw [hf] at he; cases he
    · rw [hf] at he
      rw [hrefused]
      exact h.failures hk e he
  running := hr
  switches := by rw [hs]; exact h.switches

/-- The failure of an ordinary submission is a definitive refusal or uncertain. -/
theorem reportResult_error {answer : SubmissionAnswer} {e : HostError} (h : reportResult answer = .error e) :
    e = .finalizationUncertain ∨ answer.refuses = true := by
  unfold reportResult at h
  unfold SubmissionAnswer.refuses
  split at h
  · cases h
  · split at h
    · rename_i hdef; exact Or.inr hdef
    · cases h; exact Or.inl rfl

theorem HostInv.step {kind : HostKind} {s : HostState} (h : HostInv kind s) (input : HostInput) :
    HostInv kind (step kind s input) := by
  cases input with
  | claimed =>
    simp only [Host.step]
    split
    · exact h.of_quiet rfl (Or.inl rfl) (fun hr => by cases hr)
    · exact h
  | abandoned =>
    simp only [Host.step]
    split
    · rename_i hp
      exact h.recoverClaim fun hr => absurd hp (h.running hr).2.1
    · exact h
  | finished =>
    simp only [Host.step]
    split
    · rename_i hp
      exact h.of_quiet rfl (Or.inl rfl) (fun hr => absurd hp (h.running hr).2.1)
    · exact h
  | submitted =>
    simp only [Host.step]
    split
    · rename_i failures hp
      split
      · exact h.of_quiet rfl (Or.inr ⟨by rw [hp]; rfl, rfl⟩) (fun _ => by simp)
      · exact h
    · exact h
  | answered answer =>
    simp only [Host.step]
    split
    · rename_i failures hp
      split
      · exact h.of_quiet rfl (Or.inl rfl) (fun hr => by cases hr)
      · rename_i e he
        refine ⟨?_, fun _ => by simp, h.switches⟩
        intro hk e' hmem
        rcases List.mem_append.mp hmem with hmem | hmem
        · rcases h.failures hk e' (by rw [hp]; exact hmem) with h' | h'
          · exact Or.inl h'
          · exact Or.inr (by simp [h'])
        · rw [List.mem_singleton] at hmem
          subst hmem hk
          rcases reportResult_error he with h' | h'
          · exact Or.inl h'
          · exact Or.inr (by simp [h'])
    · unfold HostState.replayAnswered
      split
      · exact h.of_quiet rfl (Or.inl rfl) (fun hr => by cases hr)
      · split
        · rename_i hp _ _ _ _
          have hrefused : HostInv kind { s with refused := true } :=
            h.of_quiet rfl (Or.inl (by simp [hp, HostProcess.failures])) h.running
          exact hrefused.recoverClaim fun _ => Or.inl rfl
        · exact h.of_quiet rfl (Or.inl rfl) (fun _ => by simp)
    · exact h
  | settled leaseLost =>
    simp only [Host.step]
    split
    · rename_i failures hp
      split
      · exact h
      · split
        · rename_i e he
          unfold HostState.settle
          split
          · rename_i hlost
            exact h.recoverClaim fun _ => Or.inr ⟨rfl, Or.inl hlost⟩
          · split
            · exact h.of_quiet rfl (Or.inl rfl) (fun _ => by simp)
            · -- the last failure of an ordinary executor was a refusal
              rename_i hcertain
              refine h.recoverClaim fun _ => ?_
              cases kind with
              | rootCi => exact Or.inr ⟨rfl, Or.inr rfl⟩
              | ordinary =>
                have hmem : e ∈ s.process.failures := by rw [hp]; exact List.mem_of_getLast? he
                exact Or.inl ((h.failures rfl e hmem).resolve_left hcertain)
        · exact h
    · exact h
  | recovered released =>
    simp only [Host.step]
    split
    · split
      · exact h.of_quiet rfl (Or.inl rfl) (fun hr => by cases hr)
      · exact h.of_quiet rfl (Or.inl rfl) (fun _ => by simp)
    · exact h
  | crashed => exact h.of_quiet rfl (Or.inl rfl) (fun _ => by simp [Host.step])
  | restarted =>
    simp only [Host.step]
    split
    · unfold HostState.replay
      split
      · rename_i hj
        exact h.of_quiet rfl (Or.inl rfl) (fun hr => by rw [hj] at hr; cases hr)
      · rename_i hj
        exact h.recoverClaim fun hr => by rw [hj] at hr; cases hr
      · exact h.of_quiet rfl (Or.inl rfl) (fun _ => by simp)
      · rename_i hj
        exact h.of_quiet rfl (Or.inl rfl) (fun hr => by rw [hj] at hr; cases hr)
    · exact h

theorem HostInv.run (kind : HostKind) (inputs : List HostInput) : HostInv kind (run kind inputs) := by
  have key : ∀ (inputs : List HostInput) (s : HostState), HostInv kind s →
      HostInv kind (inputs.foldl (Host.step kind) s) := by
    intro inputs
    induction inputs with
    | nil => exact fun s h => h
    | cons input rest ih => exact fun s h => ih _ (h.step input)
  exact key inputs .initial (.initial kind)

theorem kept_recoverClaim {s : HostState} (h : s.journal = some .result) (caller : RecoveryCaller) (leaseLost : Bool)
    (input : HostInput) : Kept s (s.recoverClaim caller leaseLost) input :=
  Or.inr (Or.inr ⟨rfl, _, rfl, by simp [h]⟩)

theorem HostInv.kept {kind : HostKind} {s : HostState} (h : HostInv kind s) (hj : s.journal = some .result)
    (input : HostInput) : Kept s (Host.step kind s input) input := by
  obtain ⟨hidle, hexec, hrec⟩ := h.running hj
  cases input with
  | claimed => simp [Host.step, hidle, Kept, hj]
  | abandoned => simp [Host.step, hexec, Kept, hj]
  | finished => simp [Host.step, hexec, Kept, hj]
  | recovered released => simp [Host.step, hrec, Kept, hj]
  | crashed => simp [Host.step, Kept, hj]
  | submitted =>
    simp only [Host.step]
    split
    · split
      · exact Or.inl rfl
      · exact Or.inl hj
    · exact Or.inl hj
  | answered answer =>
    simp only [Host.step]
    split
    · split
      · rename_i heq
        refine Or.inr (Or.inl ⟨?_, rfl⟩)
        cases answer with
        | accepted => rfl
        | rejected statusCode =>
          cases kind with
          | rootCi => cases heq
          | ordinary =>
            simp only [HostKind.report, reportResult, clientReport] at heq
            split at heq <;> cases heq
        | lost => cases kind <;> cases heq
      · exact Or.inl hj
    · cases answer with
      | accepted => exact Or.inr (Or.inl ⟨rfl, rfl⟩)
      | rejected statusCode =>
        simp only [HostState.replayAnswered, clientReport]
        split
        · exact Or.inr (Or.inr ⟨rfl, _, rfl, by simp [hj]⟩)
        · exact Or.inl hj
      | lost => exact Or.inl hj
    · exact Or.inl hj
  | settled leaseLost =>
    simp only [Host.step]
    split
    · split
      · exact Or.inl hj
      · split
        · unfold HostState.settle
          split
          · exact kept_recoverClaim hj _ _ _
          · split
            · exact Or.inl hj
            · exact kept_recoverClaim hj _ _ _
        · exact Or.inl hj
    · exact Or.inl hj
  | restarted =>
    simp only [Host.step]
    split
    · unfold HostState.replay
      rw [hj]
      exact Or.inl rfl
    · exact Or.inl hj

/-- Over every run of either host, a worker replaces a stored result by a recovery only after its
definitive refusal, an ordinary executor only then or after losing its lease, and the result is
otherwise kept until it is accepted. -/
theorem host_recovery (kind : HostKind) (inputs : List HostInput) :
    (∀ switch ∈ (run kind inputs).switches, switch.Justified kind) ∧
      ∀ input, (run kind inputs).journal = some .result →
        Kept (run kind inputs) (step kind (run kind inputs) input) input :=
  ⟨(HostInv.run kind inputs).switches, fun input hj => (HostInv.run kind inputs).kept hj input⟩

/-- An executor whose three submissions got no answer and whose lease was lost meanwhile. -/
def leaseLostRun : List HostInput :=
  [.claimed, .finished, .submitted, .answered .lost, .submitted, .answered .lost, .submitted, .answered .lost,
    .settled true]

theorem host_recovery_leaseLostRun : ¬ ∀ kind inputs, ∀ switch ∈ (run kind inputs).switches,
    switch.stored = true → switch.refused = true := by
  intro h
  have hswitch : ∃ switch ∈ (run .ordinary leaseLostRun).switches, switch.stored = true ∧ switch.refused = false := by
    decide
  obtain ⟨switch, hmem, hstored, hrefused⟩ := hswitch
  rw [h .ordinary leaseLostRun switch hmem hstored] at hrefused
  cases hrefused

end Dim.Host
