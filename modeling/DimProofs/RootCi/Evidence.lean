/-
What the proof stores answer over the histories of a database: a current result is a stored one whose
claim still waits for its report at the current root of the active admission, a terminal one is delivered
and its claim released, and no claim is both.
-/
import DimProofs.RootCi.Monotone
import DimProofs.RootCi.ProofStore
import DimProofs.RootCi.Replay

namespace Dim.RootCi

open Relational Dim.Ordinary

section
variable {db : RootDatabase} {h : HostResultRow} {row : EvidenceRow} {projectId : String} {event : NativeTerminalPayload}

/-! ## The rows of the query -/

theorem evidenceOf_eq_some : db.evidenceOf h = some row ↔ row.h = h ∧ db.reportOutbox.get? h.claimId = some row.o ∧
    db.claims.get? h.claimId = some row.c ∧ db.claimReceipts.get? h.claimId = some row.r ∧
    db.joined row.c = some (row.d, row.e, row.a) := by
  unfold RootDatabase.evidenceOf
  constructor
  · intro hr
    obtain ⟨o, ho, hr⟩ := Option.bind_eq_some_iff.mp hr
    obtain ⟨c, hc, hr⟩ := Option.bind_eq_some_iff.mp hr
    obtain ⟨r, hrec, hr⟩ := Option.bind_eq_some_iff.mp hr
    obtain ⟨j, hj, hr⟩ := Option.bind_eq_some_iff.mp hr
    cases hr
    exact ⟨rfl, ho, hc, hrec, hj⟩
  · rintro ⟨rfl, ho, hc, hr, hj⟩
    simp [ho, hc, hr, hj]

/-- A row of the query: the rows of one claim, and the admission of its demand. -/
structure Selects (db : RootDatabase) (projectId : String) (event : NativeTerminalPayload) (row : EvidenceRow) : Prop where
  result : db.hostResults.get? row.h.claimId = some row.h
  report : db.reportOutbox.get? row.h.claimId = some row.o
  claim : db.claims.get? row.h.claimId = some row.c
  claimReceipt : db.claimReceipts.get? row.h.claimId = some row.r
  joined : db.joined row.c = some (row.d, row.e, row.a)
  project : row.d.projectId = projectId
  head : row.d.expectedProtectedHead = event.descriptor.expectedProtectedHead

theorem evidenceRows_selects (hrow : row ∈ db.evidenceRows projectId event) : Selects db projectId event row := by
  obtain ⟨hmem, hsel⟩ := List.mem_filter.mp hrow
  obtain ⟨h, hh, he⟩ := List.mem_filterMap.mp hmem
  obtain ⟨rfl, ho, hc, hr, hj⟩ := evidenceOf_eq_some.mp he
  simp only [EvidenceRow.selected, Bool.and_eq_true, decide_eq_true_eq] at hsel
  exact ⟨Table.get?_of_mem hh, ho, hc, hr, hj, hsel.1.1.1.1.1.1.1.1, hsel.2⟩

end

section
variable [Sha256]

/-! ## Evidence of one state -/

/-- The claim's admission is the Project's active one, under the service's generation and capacities, and
stands at the root and head that the claim was made for. -/
structure CurrentAuthority (context : ServiceContext) (projectId : String) (terminalEvent : NativeTerminalEvent)
    (db : RootDatabase) (c : ClaimRow) (d : DemandRow) (e : EventReceiptRow) (a : AdmissionRow) : Prop where
  joined : db.joined c = some (d, e, a)
  active : db.activeAdmission projectId = some a
  admission : d.admissionGeneration = a.admissionGeneration
  claimGeneration : c.generationId = context.generationId
  claimCapacity : c.capacityConfigDigest = context.capacityConfigDigest
  generation : a.controlPlaneGenerationId = context.generationId
  capacity : a.capacityConfigDigest = context.capacityConfigDigest
  policy : e.policyDigest = a.policyDigest
  sequence : e.rootSequence = a.rootSequence
  tree : e.rootTree = a.rootTree
  head : d.expectedProtectedHead = a.rootCommit
  eventHead : terminalEvent.payload.descriptor.expectedProtectedHead = a.rootCommit

variable {db : RootDatabase} {context : ServiceContext} {projectId : String} {row : EvidenceRow}
  {request : NativeRootCiCurrentResultProofRequest}

/-- A row at the current root of an active admission. -/
theorem Selects.authority (hi : Inv db) (hs : Selects db projectId request.terminalEvent.payload row)
    (hroot : row.atCurrentRoot = true) (hactive : row.a.state = .active) (hc : row.c.generationId = context.generationId)
    (hcc : row.c.capacityConfigDigest = context.capacityConfigDigest)
    (ha : row.a.controlPlaneGenerationId = context.generationId)
    (hac : row.a.capacityConfigDigest = context.capacityConfigDigest) :
    CurrentAuthority context projectId request.terminalEvent db row.c row.d row.e row.a := by
  obtain ⟨hd, he, hadm⟩ := joined_eq_some.mp hs.joined
  obtain ⟨e, a, he', ha', hdemand⟩ := hi.sourced.demand _ _ hd
  cases he.symm.trans he'
  simp only [assertDemand, Bool.and_eq_true, decide_eq_true_eq] at hdemand
  simp only [EvidenceRow.atCurrentRoot, Bool.and_eq_true, decide_eq_true_eq] at hroot
  have hsame : row.c.admissionGeneration = row.d.admissionGeneration := by
    obtain ⟨d, r, g, hd₁, -, -, hclaim⟩ := hi.recorded.claim row.h.claimId row.c.toClaimRecord
      (by simp [RootDatabase.records, hs.claim])
    simp only [RootDatabase.records, hd, Option.map_some, Option.some.injEq] at hd₁
    subst hd₁
    simp only [assertClaim, Bool.and_eq_true, decide_eq_true_eq] at hclaim
    grind
  rw [hsame, ha'] at hadm
  cases hadm
  have hhead : row.d.expectedProtectedHead = row.a.rootCommit := by grind
  have hproject : row.a.projectId = projectId := by
    obtain ⟨a', hadm', hsourced⟩ := hi.sourced.receipt _ _ he
    have hgen : row.e.admissionGeneration = row.d.admissionGeneration := by
      have hkey := Table.get?_key he
      simp only [EventReceiptRow.key_eq, Prod.mk.injEq] at hkey
      exact hkey.1
    rw [hgen, ha'] at hadm'
    cases hadm'
    have := hsourced.admissionProject
    have := hsourced.projectId
    have := hs.project
    grind
  refine ⟨hs.joined, ?_, (Table.get?_key ha').symm, hc, hcc, ha, hac, hroot.1.2, hroot.2, hroot.1.1.2, hhead,
    hs.head.symm.trans hhead⟩
  have hkey : row.a.admissionGeneration = row.d.admissionGeneration := Table.get?_key ha'
  rw [← hproject]
  exact activeAdmission_of (by rw [hkey]; exact ha') hactive

/-- What `found` of the first store says of the state. -/
structure ResultEvidence (context : ServiceContext) (projectId : String) (request : NativeRootCiCurrentResultProofRequest)
    (proof : NativeRootCiCurrentResultProof) (db : RootDatabase) : Prop where
  result : ∃ h, db.hostResults.get? proof.claimId = some h ∧ h.terminalEvent = request.terminalEvent ∧
    h.cleanupComplete = true ∧ h.request.claimId = proof.claimId ∧ h.request.terminalEvent = request.terminalEvent ∧
    ∀ after : List Action, (db.run after).hostResults.get? proof.claimId = some h
  pending : ∃ o, db.reportOutbox.get? proof.claimId = some o ∧ o.state = .pending ∧ o.terminalEvent = request.terminalEvent
  current : ∃ c d e a, db.claims.get? proof.claimId = some c ∧ c.state = .reported ∧
    CurrentAuthority context projectId request.terminalEvent db c d e a ∧ proof.admissionGeneration = a.admissionGeneration ∧
    proof.rootSequence = a.rootSequence ∧ proof.rootCommit = a.rootCommit ∧ proof.rootTree = a.rootTree

/-- What `found` of the second store says of the state. -/
structure TerminalEvidence (context : ServiceContext) (projectId : String)
    (request : NativeRootCiCurrentResultProofRequest) (proof : NativeRootCiCurrentTerminalProof) (db : RootDatabase) :
    Prop where
  result : ∃ h, db.hostResults.get? proof.claimId = some h ∧ h.terminalEvent = request.terminalEvent ∧
    h.cleanupComplete = true ∧ ∀ after : List Action, (db.run after).hostResults.get? proof.claimId = some h
  delivered : ∃ o, db.reportOutbox.get? proof.claimId = some o ∧ o.state = .delivered ∧
    o.terminalEvent = request.terminalEvent ∧ o.acknowledgement = some proof.statusAcknowledgement ∧
    o.deliveredAt = some proof.deliveredAt
  acknowledged : acknowledges proof.statusAcknowledgement.value request.terminalEvent context.reporterUsername = true
  released : ∃ c d e a, db.claims.get? proof.claimId = some c ∧ c.state = .released ∧ d.state = .completed ∧
    CurrentAuthority context projectId request.terminalEvent db c d e a

/-- No later action replaces a stored result. -/
theorem hostResult_kept (hi : Inv db) {k : String} {h : HostResultRow} (hh : db.hostResults.get? k = some h)
    (after : List Action) : (db.run after).hostResults.get? k = some h := by
  obtain ⟨o, c, r, -, hc, -, -⟩ := hi.recorded.result k h hh
  obtain ⟨row, hrow, -⟩ := Option.map_eq_some_iff.mp hc
  obtain ⟨d, -, hview⟩ := view_of_claim hi.recorded hrow
  obtain ⟨w, hw, hf⟩ := run_follows hi after k _ hview
  obtain ⟨-, -, -, hresult, -⟩ := view_eq_some.mp hw
  rw [hresult]
  exact hf.result h hh

theorem currentResult_found {proof : NativeRootCiCurrentResultProof} (hi : Inv db)
    (hf : currentResult context projectId request db = .found proof) :
    ResultEvidence context projectId request proof db := by
  unfold currentResult at hf
  split at hf
  · cases hf
  rename_i row rest hrows
  split at hf
  · rename_i hcur
    cases hf
    have hs : Selects db projectId request.terminalEvent.payload row := evidenceRows_selects (by rw [hrows]; exact .head _)
    have hcond := hcur
    simp only [EvidenceRow.current, Bool.and_eq_true, decide_eq_true_eq] at hcond
    have hauth : CurrentAuthority context projectId request.terminalEvent db row.c row.d row.e row.a :=
      hs.authority hi (by tauto) (by tauto) (by tauto) (by tauto) (by tauto) (by tauto)
    exact ⟨⟨row.h, hs.result, by tauto, by tauto, by tauto, by tauto, hostResult_kept hi hs.result⟩,
      ⟨row.o, hs.report, by tauto, by tauto⟩,
      ⟨row.c, row.d, row.e, row.a, hs.claim, by tauto, hauth, hauth.admission, rfl, rfl, rfl⟩⟩
  · cases hf

theorem currentTerminalResult_found {proof : NativeRootCiCurrentTerminalProof} (hi : Inv db)
    (hf : currentTerminalResult context projectId request db = .found proof) :
    TerminalEvidence context projectId request proof db := by
  unfold currentTerminalResult at hf
  split at hf
  · cases hf
  · rename_i row hrows
    split at hf
    · rename_i hterm
      split at hf
      · rename_i found hproof
        cases hf
        have hs : Selects db projectId request.terminalEvent.payload row :=
          evidenceRows_selects (by rw [hrows]; exact .head _)
        simp only [EvidenceRow.terminal, Bool.and_eq_true, decide_eq_true_eq] at hterm
        have hassert : assertResult (some context.reporterUsername) row.h row.o row.c row.r row.d = true := by tauto
        have hclean : row.h.cleanupComplete = true := by
          simp only [assertResult, resultColumns, Bool.and_eq_true] at hassert
          tauto
        have hauth : CurrentAuthority context projectId request.terminalEvent db row.c row.d row.e row.a :=
          hs.authority hi (by tauto) (by tauto) (by tauto) (by tauto) (by tauto) (by tauto)
        unfold EvidenceRow.terminalProof at hproof
        obtain ⟨acknowledgement, hack, hproof⟩ := Option.bind_eq_some_iff.mp hproof
        obtain ⟨digest, -, hproof⟩ := Option.bind_eq_some_iff.mp hproof
        obtain ⟨deliveredAt, hat, hproof⟩ := Option.bind_eq_some_iff.mp hproof
        split at hproof
        · rename_i hacknowledges
          cases hproof
          exact ⟨⟨row.h, hs.result, by tauto, hclean, hostResult_kept hi hs.result⟩,
            ⟨row.o, hs.report, by tauto, by tauto, hack, hat⟩, hacknowledges,
            ⟨row.c, row.d, row.e, row.a, hs.claim, by tauto, by tauto, hauth⟩⟩
        · cases hproof
      · cases hf
    · cases hf
  · cases hf

/-- The claim of a current result is reported, that of a terminal one released. -/
theorem ResultEvidence.ne_terminal {context' : ServiceContext} {projectId' : String}
    {request' : NativeRootCiCurrentResultProofRequest} {proof : NativeRootCiCurrentResultProof}
    {proof' : NativeRootCiCurrentTerminalProof} (h : ResultEvidence context projectId request proof db)
    (h' : TerminalEvidence context' projectId' request' proof' db) : proof.claimId ≠ proof'.claimId := by
  intro heq
  obtain ⟨c, -, -, -, hc, hreported, -⟩ := h.current
  obtain ⟨c', -, -, -, hc', hreleased, -⟩ := h'.released
  rw [heq, hc'] at hc
  cases hc
  rw [hreleased] at hreported
  cases hreported

/-- Both stores are sound in every reachable database, and never answer `found` for one claim. -/
theorem evidence_sound (actions : List Action) (context : ServiceContext) (projectId : String)
    (request : NativeRootCiCurrentResultProofRequest) :
    (∀ proof, currentResult context projectId request (RootDatabase.empty.run actions) = .found proof →
      ResultEvidence context projectId request proof (RootDatabase.empty.run actions)) ∧
    (∀ proof, currentTerminalResult context projectId request (RootDatabase.empty.run actions) = .found proof →
      TerminalEvidence context projectId request proof (RootDatabase.empty.run actions)) ∧
    ∀ proof context' projectId' request' proof',
      currentResult context projectId request (RootDatabase.empty.run actions) = .found proof →
      currentTerminalResult context' projectId' request' (RootDatabase.empty.run actions) = .found proof' →
      proof.claimId ≠ proof'.claimId := by
  have hi : Inv (RootDatabase.empty.run actions) := Inv.empty.run actions
  refine ⟨fun proof hf => currentResult_found hi hf, fun proof hf => currentTerminalResult_found hi hf, ?_⟩
  intro proof context' projectId' request' proof' hf hf'
  exact (currentResult_found hi hf).ne_terminal (currentTerminalResult_found hi hf')

end

namespace Sample

attribute [local instance] sha256

def proofRequest : NativeRootCiCurrentResultProofRequest :=
  { requestId := "proof", generationId := "generation", terminalEvent }

/-- The claim's result waits for its delivery. -/
def undelivered : List Action := reservation ++ [step (.activate activation 4 4), step (.acceptResult "host" result 5 5)]

-- The first store finds the result until its delivery, the second from then on.
example :
    (currentResult context "project" proofRequest (RootDatabase.empty.run undelivered)).isFound ∧
    (currentTerminalResult context "project" proofRequest (RootDatabase.empty.run delivered)).isFound ∧
    ¬ (currentTerminalResult context "project" proofRequest (RootDatabase.empty.run undelivered)).isFound ∧
    ¬ (currentResult context "project" proofRequest (RootDatabase.empty.run delivered)).isFound := by decide +kernel

end Sample

end Dim.RootCi
