/-
The states that the QEMU authority saves, one after another: each is a successor of the one before it, keeps its
records, and records a status only of an attempt that is not revoked.
-/
import DimProofs.Qemu.AuthorityState

namespace Dim.Qemu.Authority

variable {Event : Type}

/-! ## Lists with one key an element -/

section
variable {α : Type} {key : α → String} {a : α} {l : List α}

theorem zip_map_self {β : Type} (f : α → β) : ∀ l : List α, l.zip (l.map f) = l.map fun a => (a, f a)
  | [] => rfl
  | a :: l => by rw [List.map_cons, List.zip_cons_cons, zip_map_self f l, List.map_cons]

theorem eq_of_key (h : (l.map key).Nodup) {b : α} (ha : a ∈ l) (hb : b ∈ l) (hab : key a = key b) : a = b :=
  List.inj_on_of_nodup_map h ha hb hab

/-- The elements with the key of an element are that element. -/
theorem filter_key (h : (l.map key).Nodup) (ha : a ∈ l) : l.filter (fun b => key b = key a) = [a] := by
  have hnodup : (l.filter fun b => key b = key a).Nodup := (List.Nodup.of_map key h).filter _
  have hall : ∀ b ∈ l.filter (fun b => key b = key a), b = a := by
    intro b hb
    rw [List.mem_filter] at hb
    exact eq_of_key h hb.1 ha (of_decide_eq_true hb.2)
  rw [List.eq_replicate_of_mem hall] at hnodup ⊢
  have hmem : a ∈ l.filter fun b => key b = key a := List.mem_filter.mpr ⟨ha, by simp⟩
  have hpos := List.length_pos_of_mem hmem
  have hlength := List.nodup_replicate.mp hnodup
  rw [Nat.le_antisymm hlength hpos]
  rfl

end

/-! ## Schemas -/

section
variable {schemas : RecordSchemas Event} {state : State Event}

theorem stateSchema_emptyState : stateSchema schemas emptyState = true := by
  simp [stateSchema, emptyState]

/-- What the schema of a state says, part by part. -/
structure Valid (schemas : RecordSchemas Event) (state : State Event) : Prop where
  attempt : ∀ attempt ∈ state.attempts, schemas.attempt attempt = true
  status : ∀ status ∈ state.statuses, schemas.status status = true
  attemptIds : (state.attempts.map (·.attemptId)).Nodup
  issuanceRequestIds : (state.attempts.map (·.issuanceRequestId)).Nodup
  numbers : ∀ attempt ∈ state.attempts, (state.jobAttempts attempt).map (·.attempt) =
    List.range' 1 (state.jobAttempts attempt).length
  unrevoked : ∀ attempt ∈ state.attempts, ((state.jobAttempts attempt).filter (·.revokedAt.isNone)).length ≤ 1
  names : ∀ status ∈ state.statuses, state.namesAttempt status = true
  statusIds : (state.statuses.map (·.attemptId)).Nodup
  eventIds : (state.statuses.map (·.eventId)).Nodup

theorem stateSchema_iff : stateSchema schemas state = true ↔ Valid schemas state := by
  constructor
  · intro h
    simp only [stateSchema, validSequence, Bool.and_eq_true, List.all_eq_true, decide_eq_true_eq] at h
    obtain ⟨⟨⟨⟨⟨⟨⟨h1, h2⟩, h3⟩, h4⟩, h5⟩, h6⟩, h7⟩, h8⟩ := h
    exact ⟨h1, h2, h3, h4, fun a ha => (h5 a ha).1, fun a ha => (h5 a ha).2, h6, h7, h8⟩
  · intro h
    simp only [stateSchema, validSequence, Bool.and_eq_true, List.all_eq_true, decide_eq_true_eq]
    exact ⟨⟨⟨⟨⟨⟨⟨h.attempt, h.status⟩, h.attemptIds⟩, h.issuanceRequestIds⟩,
      fun a ha => ⟨h.numbers a ha, h.unrevoked a ha⟩⟩, h.names⟩, h.statusIds⟩, h.eventIds⟩

end

/-! ## Successors -/

section
variable [DecidableEq Event] {previous candidate : State Event} {attempt : NativeQemuAttemptRecord}

/-- The attempt is kept, but that it may be revoked. -/
def Follows (attempt attempt' : NativeQemuAttemptRecord) : Prop :=
  attempt' = attempt ∨ isRevocation attempt attempt' = true

theorem isRevocation_ne {a b : NativeQemuAttemptRecord} (h : isRevocation a b = true) : b ≠ a := by
  rintro rfl
  simp only [isRevocation, Bool.and_eq_true] at h
  rcases hrevoked : b.revokedAt with _ | at_ <;> simp [hrevoked] at h

theorem isRevocation_none {a b : NativeQemuAttemptRecord} (h : isRevocation a b = true) : a.revokedAt = none := by
  simp only [isRevocation, Bool.and_eq_true] at h
  simpa using h.1.1

/-- What a revocation may change in a list of attempts: one of them is revoked. -/
theorem revocation_zip {l l' : List NativeQemuAttemptRecord}
    (hone : ((l.zip l').filter fun pair => pair.2 ≠ pair.1).length = 1)
    (hany : ((l.zip l').any fun pair => isRevocation pair.1 pair.2) = true) :
    ∀ pair ∈ l.zip l', Follows pair.1 pair.2 := by
  obtain ⟨pair, hpair, hrevocation⟩ := List.any_eq_true.mp hany
  obtain ⟨only, honly⟩ := List.length_eq_one_iff.mp hone
  have hmem : pair ∈ (l.zip l').filter fun pair => pair.2 ≠ pair.1 :=
    List.mem_filter.mpr ⟨hpair, by simpa using isRevocation_ne hrevocation⟩
  rw [honly, List.mem_singleton] at hmem
  subst hmem
  intro other hother
  by_cases hne : other.2 = other.1
  · exact .inl hne
  · have hmem' : other ∈ (l.zip l').filter fun pair => pair.2 ≠ pair.1 :=
      List.mem_filter.mpr ⟨hother, by simpa using hne⟩
    rw [honly, List.mem_singleton] at hmem'
    subst hmem'
    exact .inr hrevocation

theorem prefix_of_dropLast {α : Type} {l l' : List α} (h : l'.dropLast = l) : l <+: l' := h ▸ l'.dropLast_prefix

/-- A successor keeps the attempts and the statuses of the state before it. -/
theorem isSuccessor_keeps (h : isSuccessor (some previous) candidate = true) :
    (∀ attempt ∈ previous.attempts, ∃ attempt' ∈ candidate.attempts, Follows attempt attempt') ∧
      previous.statuses <+: candidate.statuses := by
  simp only [isSuccessor, Option.getD_some, Bool.or_eq_true, Bool.and_eq_true, decide_eq_true_eq] at h
  rcases h with (⟨⟨-, hattempts⟩, hstatuses⟩ | ⟨⟨-, hstatuses⟩, hattempts⟩) | ⟨⟨⟨hlength, hstatuses⟩, hone⟩, hany⟩
  · -- an attempt was issued
    refine ⟨fun attempt ha => ⟨attempt, ?_, .inl rfl⟩, hstatuses ▸ List.prefix_rfl⟩
    exact (prefix_of_dropLast hattempts).subset ha
  · -- a status was recorded
    exact ⟨fun attempt ha => ⟨attempt, hattempts ▸ ha, .inl rfl⟩, prefix_of_dropLast hstatuses⟩
  · -- an attempt was revoked
    refine ⟨fun attempt ha => ?_, hstatuses ▸ List.prefix_rfl⟩
    obtain ⟨i, hi, rfl⟩ := List.getElem_of_mem ha
    have hi' : i < candidate.attempts.length := hlength ▸ hi
    have hzip : (previous.attempts[i], candidate.attempts[i]) ∈ previous.attempts.zip candidate.attempts := by
      rw [← List.getElem_zip (h := by simpa using ⟨hi, hi'⟩)]
      exact List.getElem_mem _
    exact ⟨candidate.attempts[i], List.getElem_mem _, revocation_zip hone hany _ hzip⟩

theorem isSuccessor_issue :
    isSuccessor (some previous) { previous with attempts := previous.attempts ++ [attempt] } = true := by
  simp [isSuccessor]

theorem isSuccessor_status {status : StatusRecord Event} :
    isSuccessor (some previous) { previous with statuses := previous.statuses ++ [status] } = true := by
  simp [isSuccessor]

/-- The attempts with one of them revoked. -/
theorem isSuccessor_revoke (hids : (previous.attempts.map (·.attemptId)).Nodup) (ha : attempt ∈ previous.attempts)
    (hnone : attempt.revokedAt = none) (revokedAt : String) :
    isSuccessor (some previous) { previous with attempts := previous.attempts.map fun a =>
      if a.attemptId = attempt.attemptId then { attempt with revokedAt := some revokedAt } else a } = true := by
  have hrevocation : isRevocation attempt { attempt with revokedAt := some revokedAt } = true := by
    simp [isRevocation, hnone]
  have hchanged : ∀ a ∈ previous.attempts,
      decide ((if a.attemptId = attempt.attemptId then { attempt with revokedAt := some revokedAt } else a) ≠ a) =
        decide (a.attemptId = attempt.attemptId) := by
    intro a ham
    by_cases hid : a.attemptId = attempt.attemptId
    · obtain rfl := eq_of_key hids ham ha hid
      simpa using isRevocation_ne hrevocation
    · simp [hid]
  have hfilter : (previous.attempts.filter fun a =>
      (if a.attemptId = attempt.attemptId then { attempt with revokedAt := some revokedAt } else a) ≠ a) = [attempt] := by
    rw [List.filter_congr hchanged]
    exact filter_key hids ha
  simp only [isSuccessor, Option.getD_some, zip_map_self, List.filter_map, List.length_map, Function.comp_def, hfilter,
    List.any_map, Bool.or_eq_true, Bool.and_eq_true, decide_eq_true_eq]
  refine .inr ⟨⟨⟨trivial, trivial⟩, rfl⟩, List.any_eq_true.mpr ⟨attempt, ha, ?_⟩⟩
  simpa using hrevocation

end

/-! ## Histories -/

section
variable [DecidableEq Event] (schemas : RecordSchemas Event)

/-- The step between two saved states. -/
structure Next (s s' : State Event) : Prop where
  valid : stateSchema schemas s' = true
  successor : isSuccessor (some s) s' = true
  recorded : ∀ status ∈ s'.statuses, status ∈ s.statuses ∨
    ∃ attempt ∈ s.attempts, attempt.attemptId = status.attemptId ∧ attempt.revokedAt = none

/-- The states that were saved, as texts, up to the last of them. -/
inductive History [StateText Event] : List String → State Event → Prop
  | empty : History [] emptyState
  | next {texts : List String} {s s' : State Event} (h : History texts s) (hnext : Next schemas s s') :
    History (texts ++ [serialized s']) s'

variable {schemas} {s s' : State Event}

theorem History.valid [StateText Event] {texts : List String} (h : History schemas texts s) :
    stateSchema schemas s = true := by
  cases h with
  | empty => exact stateSchema_emptyState
  | next _ hnext => exact hnext.valid

/-- The state holds what an operation acknowledged. -/
def Holds (s : State Event) : Response Event → Prop
  | .issued attempt | .revoked attempt => ∃ attempt' ∈ s.attempts, Follows attempt attempt'
  | .recorded status => status ∈ s.statuses
  | .loaded state => (∀ attempt ∈ state.attempts, ∃ attempt' ∈ s.attempts, Follows attempt attempt') ∧
      state.statuses <+: s.statuses

theorem Follows.trans {a b c : NativeQemuAttemptRecord} (h : Follows a b) (h' : Follows b c) : Follows a c := by
  rcases h with rfl | h
  · exact h'
  rcases h' with rfl | h'
  · exact .inr h
  · -- an attempt that is revoked stays as it is
    have hb := isRevocation_none h'
    simp [isRevocation, hb] at h

omit [DecidableEq Event] in
theorem holds_self (s : State Event) : Holds s (.loaded s) :=
  ⟨fun attempt h => ⟨attempt, h, .inl rfl⟩, List.prefix_rfl⟩

/-- What was acknowledged is held by every later state. -/
theorem Next.holds (h : Next schemas s s') {response : Response Event} (hold : Holds s response) : Holds s' response := by
  obtain ⟨hattempts, hstatuses⟩ := isSuccessor_keeps h.successor
  have hfollows : ∀ attempt, (∃ attempt' ∈ s.attempts, Follows attempt attempt') →
      ∃ attempt' ∈ s'.attempts, Follows attempt attempt' := by
    rintro attempt ⟨attempt', hmem, hfollows⟩
    obtain ⟨attempt'', hmem', hfollows'⟩ := hattempts attempt' hmem
    exact ⟨attempt'', hmem', hfollows.trans hfollows'⟩
  cases response with
  | issued | revoked => exact hfollows _ hold
  | recorded => exact hstatuses.subset hold
  | loaded => exact ⟨fun attempt ha => hfollows attempt (hold.1 attempt ha), hold.2.trans hstatuses⟩

end

end Dim.Qemu.Authority
