/-
What each operation on admissions does: it supersedes the waiting demands of some admissions, and it
inserts, advances or ends admissions. Beside them, the two operations that append to the ledger and leave
the claims alone: the activation of an epoch and the commit of an event.
-/
import DimProofs.RootCi.Moves
import DimProofs.RootCi.Sourced

namespace Dim.RootCi

open Relational Dim.Ordinary

section
variable [Sha256]

/-! ## Admissions -/

section
variable {context : ServiceContext} {db db' : RootDatabase} {projectId : String}

omit [Sha256] in
theorem activeAdmission_spec {a : AdmissionRow} (h : db.activeAdmission projectId = some a) :
    db.admissions.get? a.admissionGeneration = some a ∧ a.projectId = projectId ∧ a.state = .active := by
  have hp := List.find?_some h
  simp only [Bool.and_eq_true, decide_eq_true_eq] at hp
  exact ⟨Table.get?_of_mem (List.mem_of_find?_eq_some h), hp.1, hp.2⟩

variable {answer : RegistrationResult} {now : Int} {proof : NativeRootCiPolicyProof} {uuid : String}

theorem insertAdmission_ok
    (h : insertAdmission context proof uuid now db = .ok (answer, db')) : ∃ admissions, db' = { db with admissions } ∧
      db.admissions.get? uuid = none ∧
      ∀ g, admissions.get? g = if g = uuid then some (admission context proof uuid now) else db.admissions.get? g := by
  unfold insertAdmission at h
  obtain ⟨admissions, hi, h⟩ := bind_ok.mp h
  cases pure_ok.mp h
  exact ⟨admissions, rfl, Table.get?_insert_fresh hi, fun g => Table.get?_insert hi g⟩

/-- The end of the selected admissions. -/
def AdmissionRow.ended (selected : Bool) (state : AdmissionState) (now : Int) (a : AdmissionRow) : AdmissionRow :=
  if selected then { a with state, endedAt := some now } else a

/-- How `registerMutation` changed the state. -/
inductive Registered (context : ServiceContext) (proof : NativeRootCiPolicyProof) (uuid : String) (now : Int)
    (db db' : RootDatabase) : Prop
  | inserted (hactive : db.activeAdmission proof.projectId = none) (hs : Supersedes (fun _ => false) now db db')
    (hfresh : db.admissions.get? uuid = none)
    (hget : ∀ g, db'.admissions.get? g = if g = uuid then some (admission context proof uuid now) else db.admissions.get? g)
  | refreshed (active : AdmissionRow) (hactive : db.activeAdmission proof.projectId = some active)
    (hbinding : active.bindingDigest = ServiceContext.bindingDigest context proof)
    (hconflicts : active.conflicts proof.currentRoot = false)
    (hs : Supersedes (fun g => g = active.admissionGeneration && active.rootSequence < proof.currentRoot.sequence) now
      db db')
    (hget : ∀ g, db'.admissions.get? g = if g = active.admissionGeneration then
      some (active.advanced proof.currentRoot (now + context.eligibilityLeaseMilliseconds) now) else db.admissions.get? g)
  | replaced (active : AdmissionRow) (hactive : db.activeAdmission proof.projectId = some active)
    (hbinding : active.bindingDigest ≠ ServiceContext.bindingDigest context proof)
    (hs : Supersedes (fun g => g = active.admissionGeneration) now db db')
    (hfresh : db.admissions.get? uuid = none)
    (hget : ∀ g, db'.admissions.get? g = if g = uuid then some (admission context proof uuid now)
      else (db.admissions.get? g).map fun a => a.ended (a.admissionGeneration = active.admissionGeneration) .replaced now)

theorem registerMutation_cases (h : registerMutation context proof uuid now db = .ok (answer, db')) :
    db' = db ∨ Registered context proof uuid now db db' := by
  unfold registerMutation at h
  split at h
  · rename_i hnone
    obtain ⟨admissions, rfl, hfresh, hget⟩ := insertAdmission_ok h
    exact Or.inr (.inserted hnone (.none now db admissions) hfresh hget)
  · rename_i active hactive
    obtain ⟨hrow, -, -⟩ := activeAdmission_spec hactive
    split at h
    · rename_i hbinding
      unfold refreshAdmission at h
      split at h
      · cases pure_ok.mp h; exact Or.inl rfl
      rename_i hconflicts
      rw [Bool.not_eq_true] at hconflicts
      right
      obtain ⟨db₁, hsup, h⟩ := bind_ok.mp h
      obtain ⟨admissions, hu, h⟩ := bind_ok.mp h
      cases pure_ok.mp h
      have hsame : db₁.admissions = db.admissions ∧ Supersedes
          (fun g => g = active.admissionGeneration && active.rootSequence < proof.currentRoot.sequence) now db db₁ := by
        split at hsup
        · -- the root advances
          rename_i hlt
          obtain ⟨demands, rfl, hs⟩ := supersede_ok hsup
          refine ⟨rfl, ?_⟩
          simp only [hlt, decide_true, Bool.and_true]
          exact hs
        · rename_i hle
          cases pure_ok.mp hsup
          refine ⟨rfl, ?_⟩
          simp only [hle, decide_false, Bool.and_false]
          exact .none now _ _
      refine .refreshed active hactive hbinding hconflicts (hsame.2.withAdmissions admissions) ?_
      intro g
      rw [hsame.1] at hu
      show admissions.get? g = _
      rw [Table.get?_update_at (x := active.admissionGeneration) hu (fun _ => rfl) (by simp) g, hrow]
      rfl
    · rename_i hbinding
      obtain ⟨db₁, hsup, h⟩ := bind_ok.mp h
      obtain ⟨db₂, hend, h⟩ := bind_ok.mp h
      obtain ⟨demands, rfl, hs⟩ := supersede_ok hsup
      obtain ⟨ended, rfl, hended⟩ := endAdmissions_ok hend
      obtain ⟨admissions, rfl, hfresh, hget⟩ := insertAdmission_ok h
      have hnone : db.admissions.get? uuid = none := by
        have hmap := hended uuid
        rw [hfresh] at hmap
        simpa using hmap.symm
      refine Or.inr (.replaced active hactive hbinding (hs.withAdmissions admissions) hnone ?_)
      intro g
      show admissions.get? g = _
      rw [hget g]
      by_cases hg : g = uuid
      · rw [if_pos hg, if_pos hg]
      · rw [if_neg hg, if_neg hg]
        show ended.get? g = _
        rw [hended g]
        cases db.admissions.get? g with
        | none => rfl
        | some a => simp [AdmissionRow.ended]

theorem revokeMutation_cases {admissionGeneration : String} {checkedAt supersededAt endedAt : Int}
    {answer : Option AdmissionRow}
    (h : revokeMutation context projectId admissionGeneration checkedAt supersededAt endedAt db = .ok (answer, db')) :
    db' = db ∨ ∃ row, currentAdmission context projectId admissionGeneration checkedAt db = some row ∧
      Supersedes (fun g => g = admissionGeneration) supersededAt db db' ∧
      ∀ g, db'.admissions.get? g =
        (db.admissions.get? g).map (fun a => a.ended (a.admissionGeneration = admissionGeneration) .revoked endedAt) := by
  unfold revokeMutation at h
  split at h
  · cases pure_ok.mp h; exact Or.inl rfl
  · rename_i row hrow
    obtain ⟨db₁, hsup, h⟩ := bind_ok.mp h
    obtain ⟨db₂, hend, h⟩ := bind_ok.mp h
    cases pure_ok.mp h
    obtain ⟨demands, rfl, hs⟩ := supersede_ok hsup
    obtain ⟨ended, rfl, hended⟩ := endAdmissions_ok hend
    refine Or.inr ⟨row, hrow, hs.withAdmissions ended, ?_⟩
    intro g
    show ended.get? g = _
    rw [hended g]
    cases db.admissions.get? g with
    | none => rfl
    | some a => simp [AdmissionRow.ended]

theorem activateAdmissions_ok (h : activateAdmissions context now db = .ok db') :
    Supersedes (fun g => (db.admissions.get? g).any (·.rotated context)) now db db' ∧
      ∀ g, db'.admissions.get? g = (db.admissions.get? g).map fun a => a.ended (a.rotated context) .replaced now := by
  unfold activateAdmissions at h
  obtain ⟨db₁, hsup, hend⟩ := bind_ok.mp h
  obtain ⟨demands, rfl, hs⟩ := supersede_ok hsup
  obtain ⟨ended, rfl, hended⟩ := endAdmissions_ok hend
  exact ⟨hs.withAdmissions ended, hended⟩

end

/-! ## Epochs and events -/

section
variable {context : ServiceContext} {db db' : RootDatabase}

variable {now : Int}

omit [Sha256] in
/-- Activation makes one epoch the active one, and never changes the generation of an epoch. -/
theorem activateEpoch_ok (h : activateEpoch context now db = .ok db') : ∃ epochs, db' = { db with epochs } ∧
    ∀ e, epochs.get? e = if e = context.serviceEpochId then
        match db.epochs.get? e with
        | some row => some { row with active := true }
        | none => some { epochId := e, generationId := context.generationId, startedAt := now, active := true }
      else (db.epochs.get? e).map fun row => { row with active := false } := by
  unfold activateEpoch at h
  obtain ⟨epochs, hu, h⟩ := bind_ok.mp h
  obtain ⟨epochs', hu', h⟩ := bind_ok.mp h
  cases pure_ok.mp h
  refine ⟨epochs', rfl, ?_⟩
  -- the first statement leaves the epoch of this instance as it is and ends every other one
  have hget : ∀ e, epochs.get? e = (db.epochs.get? e).map fun row =>
      if e = context.serviceEpochId then row else { row with active := false } := by
    intro e
    rw [Table.get?_update hu (fun _ => rfl)]
    cases hrow : db.epochs.get? e with
    | none => rfl
    | some row =>
      obtain ⟨epochId, generationId, startedAt, active⟩ := row
      have hkey : epochId = e := Table.get?_key hrow
      cases active <;> by_cases he : e = context.serviceEpochId <;> simp [Table.updated, hkey, he]
  intro e
  split at hu'
  · rename_i hsome
    rw [hget] at hsome
    rw [Table.get?_update_at (x := context.serviceEpochId) hu' (fun _ => rfl) (by simp) e, hget, hget]
    by_cases he : e = context.serviceEpochId
    · cases hrow : db.epochs.get? context.serviceEpochId with
      | none => rw [hrow] at hsome; cases hsome
      | some row => simp [he, hrow]
    · simp [he]
  · rename_i hnone
    rw [hget] at hnone
    rw [Table.get?_insert hu' e, hget]
    by_cases he : e = context.serviceEpochId
    · cases hrow : db.epochs.get? context.serviceEpochId with
      | none => simp [he, hrow]
      | some row => rw [hrow] at hnone; simp at hnone
    · simp [he]

theorem proof?_eq_some {a : AdmissionRow} {proof : NativeRootCiPolicyProof} (h : a.proof? = some proof) :
    a.currentRoot.matchesPolicy a.policy = true ∧ proof.servingGenerationId = a.controlPlaneGenerationId ∧
      proof.projectId = a.projectId ∧ proof.currentRoot = a.currentRoot ∧ proof.policy = a.policy := by
  unfold AdmissionRow.proof? at h
  split at h
  · rename_i hp
    cases h
    exact ⟨hp, rfl, rfl, rfl, rfl⟩
  · cases h

/-- What `evaluate` found for an event that may be committed. -/
structure Ready (context : ServiceContext) (request : NativeRootCiEventReceiptRequest) (now : Int) (db : RootDatabase)
    (admission : ReceiptAdmission) (row : AdmissionRow) : Prop where
  eligible : eligibleAdmission context request now db = some row
  proof : row.proof? = some admission.proof
  expiresAt : admission.expiresAt = row.leaseExpiresAt
  serviceId : admission.ordinaryServiceId = row.ordinaryServiceId
  capacityConfigDigest : admission.capacityConfigDigest = row.capacityConfigDigest
  fresh : db.eventReceipts.get? (request.admissionGeneration, request.event.eventId) = none
  limit : db.eventReceipts.rows.length < receiptLimit
  event : eventMatches admission request.event = true

variable {request : NativeRootCiEventReceiptRequest}

theorem evaluate_ready {admission : ReceiptAdmission}
    (h : evaluate context request now db = .ok (.ready admission)) : ∃ row, Ready context request now db admission row := by
  unfold evaluate at h
  split at h
  · cases pure_ok.mp h
  rename_i row hrow
  split at h
  · cases h
  rename_i proof hproof
  simp only at h
  split at h
  · -- the event was received before
    split at h
    · cases h
    · split at h <;> cases pure_ok.mp h
  rename_i hfresh
  split at h
  · cases pure_ok.mp h
  rename_i hlimit
  split at h
  · rename_i hevent
    cases pure_ok.mp h
    exact ⟨row, hrow, hproof, rfl, rfl, rfl, hfresh, by omega, hevent⟩
  · cases pure_ok.mp h

omit [Sha256] in
theorem insertDemand_ok {row : DemandRow} (h : insertDemand row db = .ok db') : ∃ demands, db' = { db with demands } ∧
    db.demands.get? row.demandId = none ∧ (∀ d ∈ db.demands.rows, ¬ Conflict d row) ∧
    (∀ k, demands.get? k = if k = row.demandId then some row else db.demands.get? k) ∧
    demands.rows.length = db.demands.rows.length + 1 := by
  unfold insertDemand at h
  obtain ⟨_, -, h⟩ := bind_ok.mp h
  obtain ⟨demands, hi, h⟩ := bind_ok.mp h
  cases pure_ok.mp h
  exact ⟨demands, rfl, Table.get?_insert_fresh hi, Table.insert_fresh hi, fun k => Table.get?_insert hi k,
    Table.insert_length hi⟩

/-- What `commit` inserts for a new event. -/
structure Committed (request : NativeRootCiEventReceiptRequest) (proof : NativeRootCiReviewEventProof) (uuid : String)
    (receivedAt now : Int) (admission : ReceiptAdmission) (db db' : RootDatabase) : Prop where
  epochs : db'.epochs = db.epochs
  admissions : db'.admissions = db.admissions
  claims : db'.claims = db.claims
  claimReceipts : db'.claimReceipts = db.claimReceipts
  hostResults : db'.hostResults = db.hostResults
  reportOutbox : db'.reportOutbox = db.reportOutbox
  receipt : ∀ k, db'.eventReceipts.get? k = if k = (request.admissionGeneration, request.event.eventId) then
    some (eventReceipt request admission proof receivedAt) else db.eventReceipts.get? k
  receiptCount : db'.eventReceipts.rows.length = db.eventReceipts.rows.length + 1
  fresh : db.demands.get? uuid = none
  unique : ∀ d ∈ db.demands.rows, ¬ Conflict d (demand request admission proof uuid now)
  demand : ∀ k, db'.demands.get? k = if k = uuid then some (demand request admission proof uuid now) else db.demands.get? k
  demandCount : db'.demands.rows.length = db.demands.rows.length + 1

theorem commitEvent_cases {proof : NativeRootCiReviewEventProof} {uuid : String}
    {evaluatedAt receivedAt : Int} {answer : ReceiptPreflight}
    (h : commitEvent context request proof uuid evaluatedAt receivedAt now db = .ok (answer, db')) : db' = db ∨
    ∃ admission row, Ready context request evaluatedAt db admission row ∧
      proofMatches admission request.event proof = true ∧
      Committed request proof uuid receivedAt now admission db db' := by
  unfold commitEvent at h
  obtain ⟨preflight, heval, h⟩ := bind_ok.mp h
  split at h
  · cases pure_ok.mp h; exact Or.inl rfl
  · cases pure_ok.mp h; exact Or.inl rfl
  · cases pure_ok.mp h; exact Or.inl rfl
  · cases pure_ok.mp h; exact Or.inl rfl
  · rename_i admission
    split at h
    · cases pure_ok.mp h; exact Or.inl rfl
    rename_i hproof
    rw [Bool.not_eq_true, Bool.not_eq_false'] at hproof
    right
    obtain ⟨row, hready⟩ := evaluate_ready heval
    obtain ⟨db₁, hr, h⟩ := bind_ok.mp h
    obtain ⟨db₂, hd, h⟩ := bind_ok.mp h
    cases pure_ok.mp h
    unfold insertEventReceipt at hr
    obtain ⟨_, -, hr⟩ := bind_ok.mp hr
    obtain ⟨eventReceipts, hi, hr⟩ := bind_ok.mp hr
    cases pure_ok.mp hr
    obtain ⟨demands, rfl, hfresh, hunique, hget, hlen⟩ := insertDemand_ok hd
    exact ⟨admission, row, hready, hproof, rfl, rfl, rfl, rfl, rfl, rfl, fun k => Table.get?_insert hi k,
      Table.insert_length hi, hfresh, hunique, hget, hlen⟩

end

end

end Dim.RootCi
