/-
A change of resources is all or nothing: it ends with the record and the limits that the request asks for, or with the
record as it was and every container as it was or at its share of the recorded budget, or with the error that says that
the state is uncertain.
-/
import DimProofs.Lib.Table
import DimProofs.Resources.Update

namespace Dim.Resources

open Effectful

variable {α β : Type}

/-! ## Reading back -/

/-- The container has these limits. -/
def Enforces (limits : Limits) (config : HostConfig) : Prop :=
  ∃ pids, config.pidsLimit = some pids ∧ limits.expected = .ok [config.nanoCpus, config.memory, config.memorySwap, pids]

variable {config : HostConfig} {limits : Limits}

/-- Two containers with the same limits are alike. -/
theorem Enforces.eq {config' : HostConfig} (h : Enforces limits config) (h' : Enforces limits config') :
    config = config' := by
  obtain ⟨pids, hpids, hexpected⟩ := h
  obtain ⟨pids', hpids', hexpected'⟩ := h'
  rw [hexpected] at hexpected'
  cases config
  cases config'
  simp only [Except.ok.injEq, List.cons.injEq, and_true] at hexpected'
  obtain ⟨rfl, rfl, rfl, rfl⟩ := hexpected'
  rw [HostConfig.mk.injEq]
  exact ⟨rfl, rfl, rfl, hpids.trans hpids'.symm⟩

theorem decimal_plain (n : Int) : ∀ c ∈ decimal n, Lifecycle.whitespace c = false ∧ c ≠ '|' := by
  have hdigit : ∀ c : Char, c.isDigit = true → Lifecycle.whitespace c = false ∧ c ≠ '|' := fun c hc =>
    ⟨isDigit_not_whitespace hc, fun h => by
      rw [h] at hc
      cases hc⟩
  intro c hc
  unfold decimal at hc
  split at hc
  · rcases List.mem_cons.mp hc with rfl | hc
    · exact ⟨rfl, by decide⟩
    · exact hdigit c (Decimal.digits_toDigits _ c hc)
  · exact hdigit c (Decimal.digits_toDigits _ c hc)

theorem fields_plain (config : HostConfig) :
    ∀ field ∈ config.fields, ∀ c ∈ field, Lifecycle.whitespace c = false ∧ c ≠ '|' := by
  intro field hfield
  simp only [HostConfig.fields, List.mem_cons, List.not_mem_nil, or_false] at hfield
  rcases hfield with rfl | rfl | rfl | rfl
  · exact decimal_plain _
  · exact decimal_plain _
  · exact decimal_plain _
  · cases config.pidsLimit with
    | some pids => exact decimal_plain pids
    | none =>
      intro c hc
      rcases (by simpa using hc : c = '<' ∨ c = 'n' ∨ c = 'i' ∨ c = 'l' ∨ c = '>') with rfl | rfl | rfl | rfl | rfl
      all_goals exact ⟨rfl, by decide⟩

theorem mem_intercalate {separator c : Char} : ∀ {texts : List Text}, c ∈ [separator].intercalate texts →
    c = separator ∨ ∃ text ∈ texts, c ∈ text
  | [], h => by cases h
  | [text], h => .inr ⟨text, List.mem_cons_self, by simpa using h⟩
  | text :: next :: rest, h => by
    rw [List.intercalate_cons_cons, List.append_assoc] at h
    rcases List.mem_append.mp h with h | h
    · exact .inr ⟨text, List.mem_cons_self, h⟩
    rcases List.mem_append.mp h with h | h
    · exact .inl (List.mem_singleton.mp h)
    · rcases mem_intercalate h with h | ⟨text', htext', h⟩
      · exact .inl h
      · exact .inr ⟨text', List.mem_cons_of_mem _ htext', h⟩

theorem splitOn_printed (config : HostConfig) : (trim config.printed).splitOn '|' = config.fields := by
  have hplain : ∀ c ∈ ['|'].intercalate config.fields, Lifecycle.whitespace c = false := by
    intro c hc
    rcases mem_intercalate hc with rfl | ⟨field, hfield, hc⟩
    · rfl
    · exact (fields_plain config field hfield c hc).1
  rw [HostConfig.printed, trim_line hplain]
  exact List.splitOn_intercalate '|' (fun field hfield h => (fields_plain config field hfield '|' h).2 rfl) nofun

/-- A readback that passes shows the limits that were asked for. -/
theorem enforces_of_applied {expected : List Int} (hexpected : limits.expected = .ok expected)
    (h : applied config.printed expected = true) : Enforces limits config := by
  simp only [applied, splitOn_printed, Bool.and_eq_true, decide_eq_true_eq] at h
  obtain ⟨hlength, hall⟩ := h
  obtain ⟨cpu, memory, memorySwap, pids, rfl⟩ : ∃ a b c d, expected = [a, b, c, d] := by
    match expected, hlength with
    | [a, b, c, d], _ => exact ⟨a, b, c, d, rfl⟩
  simp only [HostConfig.fields, List.zip_cons_cons, List.zip_nil_left, List.all_cons, List.all_nil, Bool.and_true,
    Bool.and_eq_true, decide_eq_true_eq, stringToBigInt_of_bigInt (bigInt_decimal _), Option.some.injEq] at hall
  obtain ⟨rfl, rfl, rfl, hpids⟩ := hall
  cases hconfig : config.pidsLimit with
  | none =>
    have hnil : stringToBigInt (trim "<nil>".toList) = none := by decide
    rw [hconfig] at hpids
    rw [hnil] at hpids
    cases hpids
  | some actual =>
    rw [hconfig] at hpids
    rw [stringToBigInt_of_bigInt (bigInt_decimal actual)] at hpids
    exact ⟨actual, hconfig, Option.some.inj hpids ▸ hexpected⟩

/-! ## One container -/

/-- Only this container has changed. -/
def Touched (container : Container) (w w' : World) : Prop :=
  w'.record = w.record ∧ ∀ other, other ≠ container → w'.limits other = w.limits other

theorem Touched.refl (container : Container) (w : World) : Touched container w w := ⟨rfl, fun _ _ => rfl⟩

/-- What holds of a container once its limits were updated, and of the others. -/
def AfterUpdate (container : Container) (limits : Limits) (w : World) (r : Except Failure Unit) (w' : World) : Prop :=
  Touched container w w' ∧ (r = .ok () → Enforces limits (w'.limits container))

abbrev Sure (p : Action α) (Q : Except Failure α → World → Prop) (w : World) : Prop := Safe Performs (fun _ => True) p Q w

variable {w : World}

variable {Q : Except Failure α → World → Prop}

theorem sure_orThrow {value : Except Failure α} (h : Q value w) :
    Sure (orThrow value) Q w := by
  cases value with
  | ok value => exact h
  | error failure => exact h

theorem sure_perform {c : Call} {Q : Except Failure c.Value → World → Prop}
    (h : ∀ answer w', Performs c w answer w' → Q answer w') : Sure (perform c) Q w := by
  rintro (failure | value) w' hp
  · exact ⟨trivial, h _ _ hp⟩
  · exact ⟨trivial, h _ _ hp⟩

theorem readBack_spec {container : Container} {action : Text} {w₀ : World} (hw : Touched container w₀ w) :
    Sure (readBack container limits action) (AfterUpdate container limits w₀) w := by
  refine Safe.andThen (P := fun r w' => w' = w ∧ ∀ stdout, r = .ok (.success stdout) → stdout = (w.limits container).printed)
    (sure_perform fun answer w' hp => ?_) ?_ ?_
  · cases hp with
    | inspected => exact ⟨rfl, fun stdout h => by cases h; rfl⟩
    | notInspected => exact ⟨rfl, nofun⟩
    | rejected => exact ⟨rfl, nofun⟩
  · rintro (stdout | stderr) w' ⟨rfl, hprinted⟩
    · rw [hprinted stdout rfl]
      refine Safe.andThen (P := fun r w'' => w'' = w' ∧ r = limits.expected) (sure_orThrow ⟨rfl, rfl⟩) ?_ ?_
      · rintro expected _ ⟨rfl, hexpected⟩
        split
        · next happlied => exact ⟨hw, fun _ => enforces_of_applied hexpected.symm happlied⟩
        · exact ⟨hw, nofun⟩
      · rintro failure _ ⟨rfl, -⟩
        exact ⟨hw, nofun⟩
    · exact ⟨hw, nofun⟩
  · rintro failure w' ⟨rfl, -⟩
    exact ⟨hw, nofun⟩

theorem update_spec (container : Container) (limits : Limits) (action : Text) (w : World) :
    Sure (updateContainerResourceLimits container limits action) (AfterUpdate container limits w) w := by
  refine Safe.andThen (P := fun _ w' => Touched container w w') (sure_perform fun answer w' hp => ?_) ?_ ?_
  · cases hp
    exact ⟨rfl, fun other hother => Function.update_of_ne hother _ _⟩
  · rintro (stdout | stderr) w' hw
    · exact readBack_spec hw
    · exact ⟨hw, nofun⟩
  · exact fun failure w' hw => ⟨hw, nofun⟩

theorem updateAgent_spec (record : Record) (limits : Limits) (w : World) :
    Sure (updateWorkspaceAgentResources record limits) (AfterUpdate .agent limits w) w := by
  refine Safe.andThen (P := fun _ w' => w' = w) (sure_perform fun answer w' hp => ?_) ?_ ?_
  · cases hp
    rfl
  · rintro (_ | _) w' rfl
    · exact ⟨.refl _ _, nofun⟩
    · exact update_spec .agent limits _ w'
  · rintro failure w' rfl
    exact ⟨.refl _ _, nofun⟩

/-! ## The update -/

/-- The program does not fail, and ends as `Q` says. -/
def Yields (p : Action α) (Q : α → World → Prop) (w : World) : Prop :=
  Sure p (fun r w' => ∃ value, r = .ok value ∧ Q value w') w

variable {p : Action α}

theorem Yields.andThen {f : α → Action β} {Q : α → World → Prop} {R : Except Failure β → World → Prop}
    (h : Yields p Q w) (hf : ∀ value w', Q value w' → Sure (f value) R w') : Sure (p >>= f) R w := by
  refine Safe.andThen h ?_ ?_
  · rintro value w' ⟨_, hvalue, hQ⟩
    exact hf value w' (Except.ok.inj hvalue ▸ hQ)
  · rintro failure w' ⟨_, hvalue, _⟩
    cases hvalue

theorem capture_spec (h : Sure p Q w) :
    Yields (capture p) Q w := by
  refine Safe.orElse (P := fun r w' => match r with
    | .ok outcome => (∃ value, outcome = .ok value) ∧ Q outcome w'
    | .error failure => Q (.error failure) w') ?_ (fun outcome w' hQ => ⟨outcome, rfl, hQ.2⟩)
    fun failure w' hQ => ⟨.error failure, rfl, hQ⟩
  exact Safe.andThen h (fun value w' hQ => ⟨⟨value, rfl⟩, hQ⟩) fun failure w' hQ => hQ

/-- Without a failure the operation went well. -/
theorem captureRollbackError_spec {p : Action Unit} {Q : Except Failure Unit → World → Prop} (h : Sure p Q w) :
    Yields (captureRollbackError p) (fun failures w' => failures = [] → Q (.ok ()) w') w := by
  refine Safe.orElse (P := fun r w' => match r with
    | .ok failures => failures = [] ∧ Q (.ok ()) w'
    | .error failure => Q (.error failure) w') ?_ (fun failures w' hQ => ⟨failures, rfl, fun _ => hQ.2⟩)
    fun failure w' _ => ⟨[failure], rfl, nofun⟩
  exact Safe.andThen h (fun value w' hQ => ⟨rfl, hQ⟩) fun failure w' hQ => hQ

/-- Where the `try` block has come to from the world `w`. -/
structure Tried (update : Update) (next : Allocation) (w : World) (attempted : Attempted) (outcome : Except Failure Unit)
    (w' : World) : Prop where
  outer : attempted.outer = true
  assigned : attempted.agent = true → next.agent ≠ none
  agent : attempted.agent = false → w'.limits .agent = w.limits .agent
  record : attempted.publication = false → w'.record = w.record
  published : outcome = .ok () → w'.record = update.next
  applied : outcome = .ok () → Enforces next.outer (w'.limits .outer)
  granted : outcome = .ok () → ∀ limits, next.agent = some limits → Enforces limits (w'.limits .agent)

variable {next : Allocation} {w₁ : World}

/-- The record is written once the containers have their limits. -/
theorem publishNext_spec {update : Update} {attempted : Attempted}
    (houter : attempted.outer = true) (hassigned : attempted.agent = true → next.agent ≠ none)
    (hagent : attempted.agent = false → w₁.limits .agent = w.limits .agent)
    (happlied : Enforces next.outer (w₁.limits .outer))
    (hgranted : ∀ limits, next.agent = some limits → Enforces limits (w₁.limits .agent)) :
    Yields (publishNext update attempted)
      (fun tried w' => Tried update next w tried.1 tried.2 w') w₁ := by
  have hwrite : Sure (perform (.writeWorkspace update.next))
      (fun r w' => w'.limits = w₁.limits ∧ (r = .ok () → w'.record = update.next)) w₁ := by
    refine sure_perform fun answer w' hp => ?_
    cases hp with
    | written => exact ⟨rfl, fun _ => rfl⟩
    | notWritten => exact ⟨rfl, nofun⟩
    | lateFailure => exact ⟨rfl, nofun⟩
  refine (capture_spec hwrite).andThen ?_
  rintro outcome w' ⟨hlimits, hrecord⟩
  refine ⟨_, rfl, houter, hassigned, ?_, nofun, hrecord, fun _ => ?_, fun _ => ?_⟩
  · rwa [hlimits]
  · rwa [hlimits]
  · rwa [hlimits]

theorem updateAgentStep_spec {update : Update} (hw₁ : Touched .outer w w₁)
    (happlied : Enforces next.outer (w₁.limits .outer)) :
    Yields (updateAgent update next ⟨true, false, false⟩)
      (fun tried w' => Tried update next w tried.1 tried.2 w') w₁ := by
  have hagent : w₁.limits .agent = w.limits .agent := hw₁.2 .agent nofun
  unfold updateAgent
  cases hnext : next.agent with
  | none =>
    exact publishNext_spec rfl nofun (fun _ => hagent) happlied fun limits h => by
      rw [hnext] at h
      cases h
  | some resources =>
    have hsome : next.agent ≠ none := by
      rw [hnext]
      nofun
    refine (capture_spec (updateAgent_spec update.record resources w₁)).andThen ?_
    rintro (failure | _) w₂ ⟨hw₂, henforces⟩
    · exact ⟨_, rfl, rfl, fun _ => hsome, nofun, fun _ => hw₂.1.trans hw₁.1, nofun, nofun, nofun⟩
    · refine publishNext_spec rfl (fun _ => hsome) nofun ?_ fun limits h => ?_
      · rwa [hw₂.2 .outer nofun]
      · rw [hnext] at h
        exact Option.some.inj h ▸ henforces rfl

theorem tryUpdate_spec (update : Update) (next : Allocation) (w : World) :
    Yields (tryUpdate update next)
      (fun tried w' => Tried update next w tried.1 tried.2 w') w := by
  refine (capture_spec (update_spec .outer next.outer _ w)).andThen ?_
  rintro (failure | _) w₁ ⟨hw₁, henforces⟩
  · exact ⟨_, rfl, rfl, nofun, fun _ => hw₁.2 .agent nofun, fun _ => hw₁.1, nofun, nofun, nofun⟩
  · exact updateAgentStep_spec hw₁ (henforces rfl)

/-! ## The rollback -/

/-- What a rollback without failures leaves, from the world `w`. -/
structure RolledBack (update : Update) (previous : Allocation) (attempted : Attempted) (w w' : World) : Prop where
  outer : attempted.outer = true → Enforces previous.outer (w'.limits .outer)
  agent : attempted.agent = true → ∀ limits, previous.agent = some limits → Enforces limits (w'.limits .agent)
  untouched : attempted.agent = false → w'.limits .agent = w.limits .agent
  restored : attempted.publication = true → w'.record = update.record
  record : attempted.publication = false → w'.record = w.record

theorem rollbackAgent_spec (update : Update) (previous : Allocation) (attempted : Attempted) (w : World) :
    Yields (rollbackAgent update previous attempted) (fun failures w' => failures = [] →
      Touched .agent w w' ∧ (attempted.agent = false → w'.limits .agent = w.limits .agent) ∧
      (attempted.agent = true → ∀ limits, previous.agent = some limits → Enforces limits (w'.limits .agent))) w := by
  unfold rollbackAgent
  split
  · next resources hattempted hprevious =>
    refine (captureRollbackError_spec (updateAgent_spec update.record resources w)).mono ?_
    rintro _ w' ⟨failures, rfl, hfailures⟩
    refine ⟨failures, rfl, fun hnil => ⟨(hfailures hnil).1, ?_, fun _ limits h => ?_⟩⟩
    · rw [hattempted]
      nofun
    · rw [hprevious] at h
      exact Option.some.inj h ▸ (hfailures hnil).2 rfl
  · next hnone =>
    refine ⟨[], rfl, fun _ => ⟨.refl _ _, fun _ => rfl, fun hattempted limits h => ?_⟩⟩
    exact absurd h (hnone limits hattempted)

theorem rollbackOuter_spec (previous : Allocation) (attempted : Attempted) (w : World) :
    Yields (rollbackOuter previous attempted) (fun failures w' => failures = [] →
      Touched .outer w w' ∧ (attempted.outer = true → Enforces previous.outer (w'.limits .outer))) w := by
  unfold rollbackOuter
  split
  · refine (captureRollbackError_spec (update_spec .outer previous.outer _ w)).mono ?_
    rintro _ w' ⟨failures, rfl, hfailures⟩
    exact ⟨failures, rfl, fun hnil => ⟨(hfailures hnil).1, fun _ => (hfailures hnil).2 rfl⟩⟩
  · next hattempted => exact ⟨[], rfl, fun _ => ⟨.refl _ _, fun h => absurd h hattempted⟩⟩

theorem rollbackPublication_spec (update : Update) (attempted : Attempted) (w : World) :
    Yields (rollbackPublication update attempted) (fun failures w' => failures = [] →
      w'.limits = w.limits ∧ (attempted.publication = true → w'.record = update.record) ∧
      (attempted.publication = false → w'.record = w.record)) w := by
  unfold rollbackPublication
  split
  · next hattempted =>
    have hwrite : Sure (perform (.writeWorkspace update.record))
        (fun r w' => r = .ok () → w'.limits = w.limits ∧ w'.record = update.record) w := by
      refine sure_perform fun answer w' hp => ?_
      cases hp with
      | written => exact fun _ => ⟨rfl, rfl⟩
      | notWritten => exact nofun
      | lateFailure => exact nofun
    refine (captureRollbackError_spec hwrite).mono ?_
    rintro _ w' ⟨failures, rfl, hfailures⟩
    refine ⟨failures, rfl, fun hnil => ⟨(hfailures hnil rfl).1, fun _ => (hfailures hnil rfl).2, ?_⟩⟩
    rw [hattempted]
    nofun
  · next hattempted => exact ⟨[], rfl, fun _ => ⟨rfl, fun h => absurd h hattempted, fun _ => rfl⟩⟩

theorem rollback_spec (update : Update) (previous : Allocation) (attempted : Attempted) (w : World) :
    Yields (rollback update previous attempted)
      (fun failures w' => failures = [] → RolledBack update previous attempted w w') w := by
  refine (rollbackAgent_spec update previous attempted w).andThen fun agentErrors w₁ hagent => ?_
  refine (rollbackOuter_spec previous attempted w₁).andThen fun outerErrors w₂ houter => ?_
  refine (rollbackPublication_spec update attempted w₂).andThen fun publicationErrors w₃ hpublication => ?_
  refine ⟨_, rfl, fun hnil => ?_⟩
  rw [List.append_eq_nil_iff, List.append_eq_nil_iff] at hnil
  obtain ⟨⟨hnil₁, hnil₂⟩, hnil₃⟩ := hnil
  obtain ⟨htouched₁, huntouched, hgranted⟩ := hagent hnil₁
  obtain ⟨htouched₂, happlied⟩ := houter hnil₂
  obtain ⟨hlimits, hrestored, hrecord⟩ := hpublication hnil₃
  have hlater : w₃.limits .agent = w₁.limits .agent := by rw [hlimits, htouched₂.2 .agent nofun]
  refine ⟨?_, ?_, ?_, hrestored, fun h => ?_⟩
  · rwa [hlimits]
  · rwa [hlater]
  · rwa [hlater]
  · rw [hrecord h, htouched₂.1, htouched₁.1]

/-- The error says that the state is uncertain. -/
def Uncertain (failure : Failure) : Prop := ∃ rollbackErrors, rollbackErrors ≠ [] ∧ failure = uncertain rollbackErrors

theorem afterFailure_spec (update : Update) (previous : Allocation) (attempted : Attempted) (failure : Failure) (w : World) :
    Sure (afterFailure update previous attempted failure) (fun r w' => ∃ failure, r = .error failure ∧
      (Uncertain failure ∨ RolledBack update previous attempted w w')) w := by
  refine (rollback_spec update previous attempted w).andThen fun failures w' hfailures => ?_
  split
  · next hnil => exact ⟨failure, rfl, .inr (hfailures hnil)⟩
  · next hne => exact ⟨_, rfl, .inl ⟨failures, hne, rfl⟩⟩

/-! ## Limits that add up -/

/-- The containers together have what the request asks for, in nano-CPUs, bytes and processes. -/
def Grants (limits : Limits) (configs : List HostConfig) : Prop :=
  ((configs.map HostConfig.nanoCpus).sum : ℚ) = limits.cpus * 10 ^ 9 ∧
  (configs.map HostConfig.memory).sum = limits.bytes ∧
  (configs.map HostConfig.memorySwap).sum = limits.bytes ∧
  ∃ pids : List Int, configs.map HostConfig.pidsLimit = pids.map some ∧ pids.sum = limits.processes

/-- The containers that share the budget. -/
def budgeted (environment : Environment) (configs : Container → HostConfig) : List HostConfig :=
  match environment with
  | .recommended => [configs .outer, configs .agent]
  | .custom => [configs .outer]

variable {cpu memory pids : Int}

theorem expected_ok {memorySwap : Int}
    (h : limits.expected = .ok [cpu, memory, memorySwap, pids]) : parseCpu limits.cpuCount = .ok cpu ∧
      parseMemory limits.memory = .ok memory ∧ parseMemory limits.memory = .ok memorySwap ∧
        bigInt limits.pidsLimit = .ok pids := by
  obtain ⟨_, hcpu, h⟩ := Relational.bind_ok.mp h
  obtain ⟨_, hmemory, h⟩ := Relational.bind_ok.mp h
  obtain ⟨_, hmemorySwap, h⟩ := Relational.bind_ok.mp h
  obtain ⟨_, hpids, h⟩ := Relational.bind_ok.mp h
  cases h
  exact ⟨hcpu, hmemory, hmemorySwap, hpids⟩

variable {resources : Limits}

theorem validate_ok (h : validateWorkspaceResources resources = .ok ()) :
    cpuPattern resources.cpuCount = true ∧ pidsPattern resources.pidsLimit = true := by
  unfold validateWorkspaceResources at h
  split at h
  · cases h
  next hcpu =>
  split at h
  · cases h
  split at h
  · cases h
  next hpids =>
  simp only [Bool.or_eq_true, Bool.not_eq_true', not_or, Bool.not_eq_false] at hcpu hpids
  exact ⟨hcpu.1, hpids⟩

variable {allocation : Allocation}

theorem allocate_recommended
    (h : allocateWorkspaceResourceBudget .recommended limits = .ok allocation) : ∃ cpu memory pids,
      parseCpu limits.cpuCount = .ok cpu ∧ parseMemory limits.memory = .ok memory ∧ bigInt limits.pidsLimit = .ok pids ∧
      nanoCpusPerCpu ≤ cpu ∧ bytesPerGibibyte ≤ memory ∧ allocation = share cpu memory pids := by
  obtain ⟨cpu, hcpu, h⟩ := Relational.bind_ok.mp h
  obtain ⟨memory, hmemory, h⟩ := Relational.bind_ok.mp h
  obtain ⟨pids, hpids, h⟩ := Relational.bind_ok.mp h
  split at h
  · cases h
  · next hlarge =>
    simp only [not_or, not_lt] at hlarge
    exact ⟨cpu, memory, pids, hcpu, hmemory, hpids, hlarge.1, hlarge.2.1, (Except.ok.inj h).symm⟩

variable {environment : Environment}

theorem allocate_agent (h : allocateWorkspaceResourceBudget environment limits = .ok allocation) :
    allocation.agent = none ↔ environment = .custom := by
  cases environment with
  | custom =>
    cases h
    exact ⟨fun _ => rfl, fun _ => rfl⟩
  | recommended =>
    obtain ⟨cpu, memory, pids, -, -, -, -, -, rfl⟩ := allocate_recommended h
    exact ⟨nofun, nofun⟩

/-- The limits of a share, once they are in force. -/
theorem enforces_share (hcpu : 0 ≤ cpu) (hmemory : 0 < memory)
    (h : Enforces ⟨formatCpu cpu, decimal memory, decimal pids⟩ config) : config = ⟨cpu, memory, memory, some pids⟩ := by
  refine h.eq ⟨pids, rfl, ?_⟩
  simp only [Limits.expected, parseCpu_formatCpu hcpu, parseMemory_decimal hmemory, bigInt_decimal]
  rfl

theorem grants_of_enforces
    {configs : Container → HostConfig} (hvalid : validateWorkspaceResources limits = .ok ())
    (hallocation : allocateWorkspaceResourceBudget environment limits = .ok allocation)
    (houter : Enforces allocation.outer (configs .outer))
    (hagent : ∀ share, allocation.agent = some share → Enforces share (configs .agent)) :
    Grants limits (budgeted environment configs) := by
  obtain ⟨hcpuPattern, hpidsPattern⟩ := validate_ok hvalid
  cases environment with
  | custom =>
    cases hallocation
    obtain ⟨pids, hpids, hexpected⟩ := houter
    obtain ⟨hcpu, hmemory, hmemorySwap, hbig⟩ := expected_ok hexpected
    refine ⟨?_, ?_, ?_, [pids], ?_, ?_⟩
    · simpa [budgeted] using parseCpu_eq hcpuPattern hcpu
    · simpa [budgeted] using parseMemory_eq hmemory
    · simpa [budgeted] using parseMemory_eq hmemorySwap
    · simpa [budgeted] using hpids
    · simpa using bigInt_pids hpidsPattern hbig
  | recommended =>
    obtain ⟨cpu, memory, pids, hcpu, hmemory, hbig, hcpus, hbytes, rfl⟩ := allocate_recommended hallocation
    simp only [nanoCpusPerCpu, bytesPerGibibyte] at hcpus hbytes
    have houter' := enforces_share (by omega) (by omega) houter
    have hagent' := enforces_share (by omega) (by omega) (hagent _ rfl)
    have hcpu' := parseCpu_eq hcpuPattern hcpu
    have hmemory' := parseMemory_eq hmemory
    have hpids' := bigInt_pids hpidsPattern hbig
    refine ⟨?_, ?_, ?_, [pids / 4, pids - pids / 4], ?_, ?_⟩
    · rw [← hcpu']
      simp [budgeted, houter', hagent']
    · simpa [budgeted, houter', hagent'] using hmemory'
    · simpa [budgeted, houter', hagent'] using hmemory'
    · simp [budgeted, houter', hagent']
    · simpa using hpids'

/-! ## All or nothing -/

def Record.environmentOf (record : Record) : Environment := record.environment.getD .custom

/-- The share of the recorded budget that a container has. -/
def Assigned (record : Record) (container : Container) (limits : Limits) : Prop :=
  ∃ allocation, allocateWorkspaceResourceBudget record.environmentOf record.limits = .ok allocation ∧
    match container with
    | .outer => allocation.outer = limits
    | .agent => allocation.agent = some limits

/-- The record is as it was, and every container as it was or at its share of the recorded budget. -/
def Restored (w w' : World) : Prop :=
  w'.record = w.record ∧
  ∀ container, w'.limits container = w.limits container ∨ ∃ limits, Assigned w.record container limits ∧
    Enforces limits (w'.limits container)

/-- Every container is at its share of the recorded budget. -/
def Settled (w : World) : Prop :=
  ∀ container limits, Assigned w.record container limits → Enforces limits (w.limits container)

/-- Where the containers had their shares before, all is as before. -/
theorem Restored.unchanged {w w' : World} (h : Restored w w') (hw : Settled w) : w'.limits = w.limits := by
  funext container
  rcases h.2 container with h | ⟨limits, hassigned, henforces⟩
  · exact h
  · exact henforces.eq (hw container limits hassigned)

/-- The outcome of an update of `w` to `resources` that leaves `w'`. -/
def Outcome (resources : Limits) (now : Text) (w : World) : Except Failure Record → World → Prop
  | .ok next, w' => next = w.record.withResources resources now ∧ w'.record = next ∧
      Grants resources (budgeted w.record.environmentOf w'.limits)
  | .error failure, w' => Restored w w' ∧ (Settled w → w'.limits = w.limits) ∨ Uncertain failure ∨
      ∃ message, failure = .release message

theorem Restored.refl (w : World) : Restored w w := ⟨rfl, fun _ => .inl rfl⟩

variable {now : Text}

theorem outcome_of_restored {w' : World} {failure : Failure} (h : Restored w w') :
    Outcome resources now w (.error failure) w' := .inl ⟨h, h.unchanged⟩

theorem apply_spec (hvalid : validateWorkspaceResources resources = .ok ()) :
    Sure (applyWorkspaceResourceUpdate ⟨w.record, resources, w.record.withResources resources now⟩)
      (fun r w' => Outcome resources now w (r.map fun _ => w.record.withResources resources now) w') w := by
  unfold applyWorkspaceResourceUpdate
  refine Safe.andThen (P := fun r w' => w' = w ∧ r = allocateWorkspaceResourceBudget w.record.environmentOf w.record.limits)
    (sure_orThrow ⟨rfl, rfl⟩) ?_ ?_
  swap
  · rintro failure w' ⟨rfl, -⟩
    exact outcome_of_restored (.refl _)
  rintro previous w₀ ⟨hw₀, hprevious⟩
  refine Safe.andThen (P := fun r w' => w' = w ∧ r = allocateWorkspaceResourceBudget w.record.environmentOf resources)
    (sure_orThrow ⟨hw₀, rfl⟩) ?_ ?_
  swap
  · rintro failure w' ⟨rfl, -⟩
    exact outcome_of_restored (.refl _)
  rintro next w₁ ⟨hw₁, hnext⟩
  subst hw₁
  refine (tryUpdate_spec _ next w₁).andThen ?_
  rintro ⟨attempted, failure | _⟩ w₂ htried
  · refine (afterFailure_spec _ previous attempted failure w₂).mono ?_
    rintro _ w₃ ⟨failure, rfl, huncertain | hback⟩
    · exact .inr (.inl huncertain)
    · refine outcome_of_restored ⟨?_, fun container => ?_⟩
      · cases hpublication : attempted.publication with
        | true => exact hback.restored hpublication
        | false => rw [hback.record hpublication, htried.record hpublication]
      · cases container with
        | outer => exact .inr ⟨previous.outer, ⟨previous, hprevious.symm, rfl⟩, hback.outer htried.outer⟩
        | agent =>
          cases hattempted : attempted.agent with
          | false =>
            refine .inl ?_
            rw [hback.untouched hattempted, htried.agent hattempted]
          | true =>
            -- both budgets are of one environment, so there is a share to go back to
            have hsome : previous.agent ≠ none := fun hnone =>
              htried.assigned hattempted ((allocate_agent hnext.symm).mpr ((allocate_agent hprevious.symm).mp hnone))
            obtain ⟨limits, hlimits⟩ := Option.ne_none_iff_exists'.mp hsome
            exact .inr ⟨limits, ⟨previous, hprevious.symm, hlimits⟩, hback.agent hattempted limits hlimits⟩
  · exact ⟨rfl, htried.published rfl, grants_of_enforces hvalid hnext.symm (htried.applied rfl) (htried.granted rfl)⟩

theorem updateLocked_spec (input : Input) (now : Text) (w : World) :
    Sure (updateLocked input now) (Outcome (input.over w.record.limits) now w) w := by
  refine Safe.andThen (P := fun r w' => w' = w ∧ (∀ record, r = .ok record → record = w.record)) ?_ ?_ ?_
  · refine sure_perform fun answer w' hp => ?_
    cases hp with
    | read => exact ⟨rfl, fun record h => (Except.ok.inj h).symm⟩
    | notRead => exact ⟨rfl, nofun⟩
  swap
  · rintro failure w' ⟨rfl, -⟩
    exact outcome_of_restored (.refl _)
  rintro record w' ⟨hw', hrecord⟩
  subst hw'
  obtain rfl := hrecord record rfl
  -- every check before the update leaves the world alone
  have hcheck : ∀ {p : Action Unit} {f : Unit → Action Record} {P : Prop}, Sure p (fun r w => w = w' ∧ (r = .ok () → P)) w' →
      (P → Sure (f ()) (Outcome (input.over w'.record.limits) now w') w') →
      Sure (p >>= f) (Outcome (input.over w'.record.limits) now w') w' := by
    intro p f P hp hf
    refine Safe.andThen hp ?_ ?_
    · rintro ⟨⟩ w ⟨rfl, hP⟩
      exact hf (hP rfl)
    · rintro failure w ⟨rfl, -⟩
      exact outcome_of_restored (.refl _)
  have hfind : ∀ {container : Container} {failure : Failure}, Sure (do
      if ← perform (.inspectContainer container) then pure () else throw failure)
      (fun r w => w = w' ∧ (r = .ok () → True)) w' := by
    intro container failure
    refine Safe.andThen (P := fun _ w => w = w') (sure_perform fun answer w hp => ?_) ?_ ?_
    · cases hp
      rfl
    · rintro (_ | _) w rfl
      · exact ⟨rfl, fun _ => trivial⟩
      · exact ⟨rfl, fun _ => trivial⟩
    · rintro failure w rfl
      exact ⟨rfl, fun _ => trivial⟩
  refine hcheck (P := True) (sure_orThrow ⟨rfl, fun _ => trivial⟩) fun _ => ?_
  refine hcheck (sure_orThrow ⟨rfl, id⟩) fun hvalid => ?_
  refine hcheck hfind fun _ => ?_
  refine hcheck (P := True) ?_ fun _ => ?_
  · unfold findAgent
    split
    · exact hfind
    · exact ⟨rfl, fun _ => trivial⟩
  refine Safe.andThen (apply_spec hvalid) ?_ ?_
  · exact fun _ w h => h
  · exact fun failure w h => h

/-- Every update of a workspace's resources ends with the record and the limits that it asks for, or leaves the record as
it was and each container as it was or at its share of the recorded budget, or says that the state is uncertain; unless
the lock cannot be released. -/
theorem updates_all_or_nothing {connected : Bool} {name : Text} {input : Input} {now : Text} {w w' : World}
    {r : Except Failure Record} (h : Reaches Performs (updateWorkspaceResources connected name input now) w (.ended r) w') :
    Outcome (input.over w.record.limits) now w r w' := by
  have hsure : Sure (updateWorkspaceResources connected name input now) (Outcome (input.over w.record.limits) now w) w := by
    refine Safe.andThen (P := fun _ w' => w' = w) (sure_orThrow rfl) ?_ ?_
    swap
    · rintro failure _ rfl
      exact outcome_of_restored (.refl _)
    rintro ⟨⟩ w₀ hw₀
    subst hw₀
    refine Safe.andThen (P := fun _ w => w = w₀) (sure_perform fun answer w hp => ?_) ?_ ?_
    · cases hp
      rfl
    · rintro ⟨⟩ _ rfl
      refine Safe.andFinally (updateLocked_spec input now _) fun r w₁ hr => ?_
      refine sure_perform fun answer w₂ hp => ?_
      cases hp with
      | released => exact hr
      | notReleased => exact .inr (.inr ⟨_, rfl⟩)
    · rintro failure _ rfl
      exact outcome_of_restored (.refl _)
  have hend := (hsure.reaches trivial h).2
  cases r with
  | ok record => exact hend
  | error failure => exact hend

namespace Sample

/-! ## A workspace -/

/-- Docker does what it is told, but refuses the updates of `refused`. -/
def dockerUpdate (refused : Container → Limits → Bool) (container : Container) (limits : Limits) (w : World) :
    Except Failure CommandResult × World :=
  if refused container limits then (.ok (.failure "refused".toList), w)
  else match limits.expected with
    | .ok [cpu, memory, memorySwap, pids] =>
      (.ok (.success []), { w with limits := Function.update w.limits container ⟨cpu, memory, memorySwap, some pids⟩ })
    | _ => (.ok (.failure "invalid".toList), w)

def step (refused : Container → Limits → Bool) : (c : Call) → World → Except Failure c.Value × World
  | .acquireLock, w => (.ok (), w)
  | .releaseLock, w => (.ok (), w)
  | .readWorkspace, w => (.ok w.record, w)
  | .writeWorkspace record, w => (.ok (), { w with record })
  | .inspectContainer _, w => (.ok true, w)
  | .dockerUpdate container limits, w => dockerUpdate refused container limits w
  | .dockerInspect container, w => (.ok (.success (w.limits container).printed), w)

theorem performs_dockerUpdate (refused : Container → Limits → Bool) (container : Container) (limits : Limits) (w : World) :
    Performs (.dockerUpdate container limits) w (dockerUpdate refused container limits w).1
      (dockerUpdate refused container limits w).2 := by
  have hsame : ∀ {result}, Performs (.dockerUpdate container limits) w (.ok result) w := by
    intro result
    have h : Performs (.dockerUpdate container limits) w (.ok result)
        { w with limits := Function.update w.limits container (w.limits container) } := .updated rfl
    rwa [Function.update_eq_self] at h
  unfold dockerUpdate
  split
  · exact hsame
  · split
    · exact .updated rfl
    · exact hsame

theorem performs_step (refused : Container → Limits → Bool) : ∀ c w, Performs c w (step refused c w).1 (step refused c w).2
  | .acquireLock, _ => .acquired rfl
  | .releaseLock, _ => .released
  | .readWorkspace, _ => .read
  | .writeWorkspace _, _ => .written
  | .inspectContainer _, _ => .found rfl
  | .dockerUpdate container limits, w => performs_dockerUpdate refused container limits w
  | .dockerInspect _, _ => .inspected

def workspace : Record where
  name := "alpha".toList
  containerName := "dim-alpha".toList
  environment := some .recommended
  phase := .ready
  limits := ⟨"2".toList, "4g".toList, "2048".toList⟩
  updatedAt := "before".toList

/-- The containers have these nano-CPUs, bytes and processes. -/
def world (outer agent : Int × Int × Int) : World where
  record := workspace
  limits
    | .outer => ⟨outer.1, outer.2.1, outer.2.1, some outer.2.2⟩
    | .agent => ⟨agent.1, agent.2.1, agent.2.1, some agent.2.2⟩

def input : Input := ⟨some "2.5".toList, some "3g".toList, none⟩

abbrev update : Action Record := updateWorkspaceResources true workspace.name input "after".toList

/-- The limits of the recorded budget. -/
def settled : World := world (500000000, 1073741824, 512) (1500000000, 3221225472, 1536)

/-- The new limits of the agent. -/
def agentShare (container : Container) (limits : Limits) : Bool :=
  container = .agent && limits.cpuCount = "1.875".toList

/-- The request asks for 2.5 CPUs, 3 GiB and 2048 processes. It gets them; or docker refuses the agent's, and the outer
container is set back. -/
theorem budget_shared :
    (∃ r w', Reaches Performs update settled (.ended r) w' ∧
      r = .ok (workspace.withResources ⟨"2.5".toList, "3g".toList, "2048".toList⟩ "after".toList) ∧
      Outcome (input.over settled.record.limits) "after".toList settled r w') ∧
    ∃ r w', Reaches Performs update settled (.ended r) w' ∧
      r = .error (.userError "failed to update recommended workspace agent resources: refused".toList) ∧
      Outcome (input.over settled.record.limits) "after".toList settled r w' := by
  have hall : ∀ refused result, (update.exec (step refused) settled).1 = result → ∃ r w',
      Reaches Performs update settled (.ended r) w' ∧ r = result ∧
        Outcome (input.over settled.record.limits) "after".toList settled r w' := by
    intro refused result hresult
    have hrun := reaches_exec (performs_step refused) update settled
    generalize update.exec (step refused) settled = run at hrun hresult
    exact ⟨run.1, run.2, hrun, hresult, updates_all_or_nothing hrun⟩
  exact ⟨hall (fun _ _ => false) _ (by decide +kernel), hall agentShare _ (by decide +kernel)⟩

/-- An earlier update has ended with an uncertain state: the outer container has half of a CPU more than its share. -/
def drifted : World := world (1000000000, 1073741824, 512) (1500000000, 3221225472, 1536)

/-- What is promised of an update, unless the lock cannot be released. -/
def AllOrNothing (w : World) : Except Failure Record → World → Prop
  | .ok next, w' => w'.record = next
  | .error failure, w' => w'.record = w.record ∧ w'.limits = w.limits ∨ Uncertain failure ∨
      ∃ message, failure = .release message

/-- The failed update sets the outer container back to its share, not to the limits it had. -/
theorem drift_not_restored : ¬ ∀ connected name input now w r w',
    Reaches Performs (updateWorkspaceResources connected name input now) w (.ended r) w' → AllOrNothing w r w' := by
  intro h
  have hrun := reaches_exec (performs_step agentShare) update drifted
  have hresult : (update.exec (step agentShare) drifted).1 =
      .error (.userError "failed to update recommended workspace agent resources: refused".toList) := by decide +kernel
  have hlimits : ((update.exec (step agentShare) drifted).2.limits .outer).nanoCpus = 500000000 := by decide +kernel
  generalize update.exec (step agentShare) drifted = run at hrun hresult hlimits
  have hall := h true workspace.name input "after".toList drifted run.1 run.2 hrun
  rw [hresult] at hall
  rcases hall with ⟨-, hsame⟩ | ⟨rollbackErrors, -, huncertain⟩ | ⟨message, hrelease⟩
  · rw [hsame] at hlimits
    exact absurd hlimits (by decide)
  · have hhead : (uncertain rollbackErrors).message.head? = some 'w' := rfl
    rw [← huncertain] at hhead
    exact absurd hhead (by decide)
  · cases hrelease

end Sample

end Dim.Resources
