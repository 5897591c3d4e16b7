/-
What the transactions of the ordinary host authority commit: the groups of statements that stand together
in the source, each with what its caller has checked. What holds of all transactions is proved once for
each group, and follows from that for every transaction.
-/
import DimProofs.Ordinary.AuthorityStore

namespace Dim.Ordinary

open Relational

/-- The part of the authority that a group of statements belongs to. -/
inductive Part where
  | start
  | admissions
  | events
  | claims
  | activation (options : ClaimStoreOptions)
  | renewal (options : LeaseStoreOptions)
  | recovery
  | results

/-- The parts that withdraw admissions. A start expires as well. -/
def Part.expires : Part → Bool
  | .start | .admissions => true
  | _ => false

/-- The parts that fence claims or settle reports. -/
def Part.ends : Part → Bool
  | .start | .admissions | .results => true
  | _ => false

/-- The parts that grant a lease. -/
def Part.grants : Part → Bool
  | .activation _ | .renewal _ => true
  | _ => false

theorem Part.ends_of_expires {part : Part} (h : part.expires = true) : part.ends = true := by
  cases part <;> first | rfl | cases h

theorem Claim.active_of_ofGeneration {c : Claim} {generation : String} (h : c.ofGeneration generation = true) :
    c.state = .active := by
  simp only [Claim.ofGeneration, Bool.and_eq_true, decide_eq_true_eq] at h
  exact h.2

theorem Claim.active_of_expiredAt {c : Claim} {now : Int} (h : c.expiredAt now = true) : c.state = .active := by
  simp only [Claim.expiredAt, Bool.and_eq_true, decide_eq_true_eq] at h
  exact h.1

/-- The part whose groups a transaction commits. -/
def Transaction.part [Sha256] (store : NativeOrdinaryAuthorityStore) : Transaction → Part
  | .expire .. | .admitPolicy .. | .revoke .. => .admissions
  | .checkReplay .. | .acceptEvent .. => .events
  | .reserve .. | .releaseStale .. => .claims
  | .activate .. => .activation (AuthorityStore.claimStore store)
  | .renew .. => .renewal (AuthorityStore.leaseStore store)
  | .prepareRecovery .. | .completeRecovery .. => .recovery
  | .acceptResult .. | .takeDue .. | .retry .. | .complete .. => .results

section
variable [Sha256]

/-- A group of statements that is committed at a reading of the clock. -/
inductive Write (now : Int) : Part → AuthorityDatabase → AuthorityDatabase → Prop
  | fence {part : Part} {reason : FenceReason} {p : Claim → Bool} {db db'} (hpart : part.ends = true)
      (hp : ∀ c, p c = true → c.state = .active) (h : fenceClaims reason p now db = .ok db') : Write now part db db'
  | settle {part : Part} {k : String} {c : Claim} {outcome : ReportOutcome} {denialCode : Option String}
      {db db'} (hpart : part.ends = true) (hs : ResultStore.settleable k db = some c)
      (h : ResultStore.settle c outcome denialCode now db = .ok db') : Write now part db db'
  | withdraw {part : Part} {generation : String} {state : AdmissionState} {db}
      {nativeAdmissions : Table NativeAdmission} {demands : Table Demand} (hpart : part.expires = true)
        (hs : state ≠ .active)
      (ha : db.nativeAdmissions.update (ε := AuthorityError) (fun a => a.admissionGeneration = generation)
        (fun a => { a with state, updatedAt := now }) = .ok nativeAdmissions)
      (hd : db.demands.update (ε := AuthorityError) (fun d => d.admissionGeneration = generation && d.state = .queued)
        (fun d => { d with state := .superseded, updatedAt := now, terminalAt := some now }) = .ok demands) :
      Write now part db { db with nativeAdmissions, demands }
  | endEpochs {db} {serviceEpochs : Table ServiceEpoch}
      (h : db.serviceEpochs.update (ε := AuthorityError) (·.active) (fun e => { e with active := false }) =
        .ok serviceEpochs) :
      Write now .start db { db with serviceEpochs }
  | restart {part : Part} {db db'} (hpart : part.ends = true) (h : fenceRestartedClaims now db = .ok db') :
      Write now part db db'
  | beginEpoch {db} {serviceEpochs : Table ServiceEpoch} :
      Write now .start db { db with serviceEpochs }
  | insertAdmission {store : NativeOrdinaryAuthorityStore} {policy : NativeAdmissionPolicy} {generation : String} {db db'}
      (h : AuthorityStore.insertAdmission store policy generation now db = .ok db') : Write now .admissions db db'
  | renewAdmission {policy : NativeAdmissionPolicy} {expiresAt : Int} {generation : String} {db}
      {nativeAdmissions : Table NativeAdmission}
      (h : db.nativeAdmissions.update (ε := AuthorityError) (fun a => a.admissionGeneration = generation)
        (fun a => { a with policy, expiresAt, updatedAt := now }) = .ok nativeAdmissions) :
      Write now .admissions db { db with nativeAdmissions }
  | replay {db} {nativeEventReplayFences : Table EventReplayFence} :
      Write now .events db { db with nativeEventReplayFences }
  | intake {event : NativeReviewJobEvent} {generation demandId : String} {db db'}
      (h : EventStore.insertAccepted event generation demandId now db = .ok db') : Write now .events db db'
  | answerEmpty {request : NativeHostClaimRequest} {claimId : String} {db db'}
      (hslot : ClaimStore.slotOccupied request.hostId request.capacity db = false)
      (h : ClaimStore.insertReceipt claimId request none none .empty now db = .ok db') : Write now .claims db db'
  | reserve {options : ClaimStoreOptions} {request : NativeHostClaimRequest} {claimId : String} {d : Demand} {db db'}
      {demands : Table Demand} (hslot : ClaimStore.slotOccupied request.hostId request.capacity db = false)
      (hsel : db.demands.select (ClaimStore.claimable options now db) ClaimStore.older = some d)
      (h : ClaimStore.insertReceipt claimId request (some d.demandId) (some d.admissionGeneration) .preparing now db =
        .ok db')
      (hd : db'.demands.update (ε := AuthorityError) (fun u => u.demandId = d.demandId && u.state = .queued)
        (fun u => { u with state := .preparing, updatedAt := now }) = .ok demands) :
      Write now .claims db { db' with demands }
  | releaseStale {request : NativeHostClaimRequest} {claimId demandId : String} {db}
      {demands : Table Demand} {claimReceipts : Table ClaimReceipt}
      (hs : ((ClaimStore.requestReceipt request claimId db).filter (·.state = .preparing)).bind (·.demandId) = some demandId)
      (hd : db.demands.update (ε := AuthorityError) (fun d => d.demandId = demandId)
        (fun d => { d with state := .superseded, updatedAt := now, terminalAt := some now }) = .ok demands)
      (hr : db.claimReceipts.update (ε := AuthorityError) (fun r => r.claimId = claimId)
        (fun r => { r with state := .released, updatedAt := now, releasedAt := some now }) = .ok claimReceipts) :
      Write now .claims db { db with demands, claimReceipts }
  | activate {options : ClaimStoreOptions} {request : NativeHostClaimRequest} {reservation : PreparingReservation}
      {proof : NativeClaimActivationProof} {r : ClaimReceipt} {demandId : String} {db db'}
      (hr : ClaimStore.requestReceipt request reservation.claimId db = some r)
      (ha : ClaimStore.activatable options reservation proof now r db = some demandId)
      (h : ClaimStore.insertActiveClaim options request reservation proof demandId now db = .ok db') :
      Write now (.activation options) db db'
  | renew {options : LeaseStoreOptions} {request : NativeHostClaimRenewalRequest} {c : Claim} {db} {claims : Table Claim}
      (hc : LeaseStore.exactClaim request db = some c) (he : c.serviceEpochId = options.ownedEpochId)
      (h : db.claims.update (ε := AuthorityError) (fun c => c.claimId = request.claimId)
        (fun c => { c with
          leaseExpiresAt := now + options.claimLeaseMilliseconds, renewalRequestId := some request.requestId }) =
        .ok claims) : Write now (.renewal options) db { db with claims }
  | fenceForRecovery {options : LeaseStoreOptions} {request : NativeHostRecoveryRequest} {c : Claim} {db db'}
      (hc : LeaseStore.exactClaim request.toNativeHostClaimRenewalRequest db = some c) (ha : c.state = .active)
      (he : c.serviceEpochId = options.ownedEpochId)
      (h : LeaseStore.fenceForRecovery options request now db = .ok db') :
      Write now .recovery db db'
  | recordRecovery {request : NativeHostRecoveryRequest} {db db'}
      (h : LeaseStore.recordRecovery request now db = .ok db') : Write now .recovery db db'
  | releaseRecovered {request : NativeHostRecoveryRequest} {proof : NativeJobAttemptRevocation} {c : Claim}
      {db db'} (hc : LeaseStore.exactClaim request.toNativeHostClaimRenewalRequest db = some c)
      (hs : c.state = .recovering) (h : LeaseStore.releaseRecovered request.claimId c.demandId proof now db = .ok db') :
      Write now .recovery db db'
  | result {options : ResultStoreOptions} {host : String} {request : NativeHostResultRequest} {c : Claim} {db db'}
      (hc : db.claims.get? request.claimId = some c)
      (hcur : ResultStore.currentClaim options c request.terminalEvent now db = true)
      (h : ResultStore.recordResult host request c now db = .ok db') : Write now .results db db'
  | deliver {o : ReportOutbox} {db} {reportOutbox : Table ReportOutbox} (ho : o ∈ db.reportOutbox.rows)
      (hdue : o.state.due = true)
      (h : db.reportOutbox.update (ε := AuthorityError) (fun u => u.claimId = o.claimId)
        (fun u => { u with state := .delivering, attemptCount := o.attemptCount + 1, updatedAt := now }) =
          .ok reportOutbox) :
      Write now .results db { db with reportOutbox }
  | retry {delivery : NativeReportDelivery} {db} {reportOutbox : Table ReportOutbox}
      (h : db.reportOutbox.update (ε := AuthorityError) (fun o => o.claimId = delivery.claimId && o.state = .delivering)
        (fun o => { o with state := .pending, nextAttemptAt := now + ResultStore.retryDelay delivery.attemptCount,
                           updatedAt := now }) = .ok reportOutbox) : Write now .results db { db with reportOutbox }

/-- The groups that a transaction commits, one after another. -/
abbrev Writes (now : Int) (part : Part) :
    AuthorityDatabase → AuthorityDatabase → Prop :=
  Relation.ReflTransGen (Write now part)

variable {now : Int} {part : Part} {db db' : AuthorityDatabase}

/-- What each group keeps, the transaction keeps. -/
theorem Writes.keep {R : AuthorityDatabase → AuthorityDatabase → Prop} (h : Writes now part db db')
    (hrefl : ∀ db, R db db) (htrans : ∀ db₁ db₂ db₃, R db₁ db₂ → R db₂ db₃ → R db₁ db₃)
    (hw : ∀ db₁ db₂, Write now part db₁ db₂ → R db₁ db₂) : R db db' := by
  induction h with
  | refl => exact hrefl _
  | tail _ hs ih => exact htrans _ _ _ ih (hw _ _ hs)

/-! ## Results and reports -/

section
variable {outcome : ReportOutcome} {denialCode : Option String}

theorem completeInTransaction_writes {k : String} {answer : Bool} (hpart : part.ends = true)
    (h : ResultStore.completeInTransaction k outcome denialCode now db = .ok (answer, db')) :
    Writes now part db db' := by
  unfold ResultStore.completeInTransaction at h
  split at h
  · cases h
    exact .refl
  · simp only [bind_ok, pure_ok, Prod.mk.injEq] at h
    obtain ⟨_, h, -, rfl⟩ := h
    exact .single (.settle hpart ‹_› h)

theorem denyClaims_writes (hpart : part.ends = true) : ∀ {claimIds : List String} {db db' : AuthorityDatabase},
    ResultStore.denyClaims now claimIds db = .ok db' → Writes now part db db'
  | [], _, _, h => by
    cases h
    exact .refl
  | k :: rest, db, db', h => by
    simp only [ResultStore.denyClaims, bind_ok] at h
    obtain ⟨_, h₁, h₂⟩ := h
    exact (completeInTransaction_writes hpart h₁).trans (denyClaims_writes hpart h₂)

theorem complete_writes {k : String} {answer : Unit}
    (h : ResultStore.complete k outcome denialCode now db = .ok (answer, db')) : Writes now .results db db' := by
  simp only [ResultStore.complete, bind_ok, pure_ok, Prod.mk.injEq] at h
  obtain ⟨_, h, -, rfl⟩ := h
  exact completeInTransaction_writes rfl h

end

theorem takeDue_writes {options : ResultStoreOptions} {answer : Option NativeReportDelivery}
    (h : ResultStore.takeDue options now db = .ok (answer, db')) : Writes now .results db db' := by
  unfold ResultStore.takeDue at h
  split at h
  · cases h
    exact .refl
  rename_i o hsel
  obtain ⟨ho, hp⟩ := Table.select_mem hsel
  simp only [Bool.and_eq_true, decide_eq_true_eq] at hp
  split at h
  · simp only [bind_ok, pure_ok, Prod.mk.injEq] at h
    obtain ⟨_, h, -, rfl⟩ := h
    exact completeInTransaction_writes rfl h
  · simp only [bind_ok, pure_ok, Prod.mk.injEq] at h
    obtain ⟨_, h, -, rfl⟩ := h
    exact .single (.deliver ho hp.1.1 h)

theorem retry_writes {delivery : NativeReportDelivery} {answer : Unit}
    (h : ResultStore.retry delivery now db = .ok (answer, db')) : Writes now .results db db' := by
  simp only [ResultStore.retry, bind_ok, pure_ok, Prod.mk.injEq] at h
  obtain ⟨_, h, -, rfl⟩ := h
  exact .single (.retry h)

theorem acceptResult_writes {options : ResultStoreOptions} {host : String} {request : NativeHostResultRequest}
    {answer : NativeHostResultIntake}
    (h : ResultStore.accept options host request now db = .ok (answer, db')) :
    Writes now .results db db' := by
  unfold ResultStore.accept at h
  simp only at h
  split at h
  · cases h
    exact .refl
  split at h
  · cases h
    exact .refl
  rename_i c hjoined
  split at h
  · cases h
    exact .refl
  · rename_i hcur
    simp only [bind_ok, pure_ok, Prod.mk.injEq] at h
    obtain ⟨_, h, -, rfl⟩ := h
    exact .single (.result (Option.filter_eq_some_iff.mp hjoined).1 (by simpa using hcur) h)

/-! ## Claims, leases and recoveries -/

theorem reserve_writes {options : ClaimStoreOptions} {request : NativeHostClaimRequest} {claimId : String}
    {answer : NativeClaimReservation}
    (h : ClaimStore.reserve options request claimId now db = .ok (answer, db')) :
    Writes now .claims db db' := by
  unfold ClaimStore.reserve at h
  split at h
  · cases h
    exact .refl
  simp only [bind_ok] at h
  obtain ⟨-, -, h⟩ := h
  split at h
  · simp only [bind_ok, pure_ok, Prod.mk.injEq] at h
    obtain ⟨-, -, -, rfl⟩ := h
    exact .refl
  split at h
  · cases h
    exact .refl
  rename_i hslot
  have hslot := Bool.eq_false_iff.mpr hslot
  split at h
  · simp only [bind_ok, pure_ok, Prod.mk.injEq] at h
    obtain ⟨_, h, -, rfl⟩ := h
    exact .single (.answerEmpty hslot h)
  · simp only [bind_ok, pure_ok, Prod.mk.injEq] at h
    obtain ⟨_, -, _, h, _, hd, -, rfl⟩ := h
    exact .single (.reserve hslot ‹_› h hd)

theorem releaseStale_writes {request : NativeHostClaimRequest} {claimId : String} {answer : Unit}
    (h : ClaimStore.releaseStale request claimId now db = .ok (answer, db')) : Writes now .claims db db' := by
  unfold ClaimStore.releaseStale at h
  split at h
  · cases h
    exact .refl
  · simp only [bind_ok, pure_ok, Prod.mk.injEq] at h
    obtain ⟨_, hd, _, hr, -, rfl⟩ := h
    exact .single (.releaseStale ‹_› hd hr)

theorem activate_writes {options : ClaimStoreOptions} {request : NativeHostClaimRequest} {reservation : PreparingReservation}
    {proof : NativeClaimActivationProof} {answer : NativeClaimActivation}
    (h : ClaimStore.activate options request reservation proof now db = .ok (answer, db')) :
    Relation.ReflGen (Write now (.activation options)) db db' := by
  simp only [ClaimStore.activate, bind_ok] at h
  obtain ⟨-, -, h⟩ := h
  split at h
  · cases h
    exact .refl
  split at h
  · simp only [bind_ok, pure_ok, Prod.mk.injEq] at h
    obtain ⟨-, -, -, rfl⟩ := h
    exact .refl
  split at h
  · cases h
    exact .refl
  · simp only [bind_ok, pure_ok, Prod.mk.injEq] at h
    obtain ⟨_, h, -, -, -, rfl⟩ := h
    exact .single (.activate ‹_› ‹_› h)

theorem renew_writes {options : LeaseStoreOptions} {request : NativeHostClaimRenewalRequest}
    {answer : Option NativeHostClaimRenewal} (h : LeaseStore.renew options request now db = .ok (answer, db')) :
    Relation.ReflGen (Write now (.renewal options)) db db' := by
  simp only [LeaseStore.renew, bind_ok] at h
  obtain ⟨-, -, h⟩ := h
  split at h
  · cases h
    exact .refl
  rename_i c hc
  split at h
  · cases h
    exact .refl
  rename_i hlive
  simp only [not_or, ne_eq, not_not] at hlive
  split at h
  · cases h
    exact .refl
  · simp only [bind_ok, pure_ok, Prod.mk.injEq] at h
    obtain ⟨_, h, -, rfl⟩ := h
    exact .single (.renew hc hlive.2.1 h)

theorem prepareRecovery_writes {options : LeaseStoreOptions} {request : NativeHostRecoveryRequest}
    {answer : NativeRecoveryPreparation}
    (h : LeaseStore.prepareRecovery options request now db = .ok (answer, db')) :
    Writes now .recovery db db' := by
  simp only [LeaseStore.prepareRecovery, bind_ok] at h
  obtain ⟨-, -, h⟩ := h
  split at h
  · cases h
    exact .refl
  split at h
  · cases h
    exact .refl
  split at h
  · split at h <;> cases h <;> exact .refl
  · split at h
    · cases h
      exact .refl
    · rename_i hlive
      simp only [not_or, ne_eq, not_not] at hlive
      simp only [bind_ok, pure_ok, Prod.mk.injEq] at h
      obtain ⟨_, h, -, rfl⟩ := h
      exact .single (.fenceForRecovery ‹_› ‹_› hlive.1 h)
  · split at h
    · cases h
      exact .refl
    split at h
    · simp only [bind_ok, pure_ok, Prod.mk.injEq] at h
      obtain ⟨_, h, -, rfl⟩ := h
      exact .single (.recordRecovery h)
    · cases h
      exact .refl
  · cases h
    exact .refl

theorem completeRecovery_writes {options : LeaseStoreOptions} {request : NativeHostRecoveryRequest}
    {proof : NativeJobAttemptRevocation} {answer : Bool}
    (h : LeaseStore.completeRecovery options request proof now db = .ok (answer, db')) :
    Writes now .recovery db db' := by
  simp only [LeaseStore.completeRecovery, bind_ok] at h
  obtain ⟨-, -, h⟩ := h
  split at h
  · cases h
    exact .refl
  split at h
  · cases h
    exact .refl
  rename_i hlive
  simp only [not_or, ne_eq, not_not] at hlive
  split at h
  · cases h
    exact .refl
  · simp only [bind_ok, pure_ok, Prod.mk.injEq] at h
    obtain ⟨_, h, -, rfl⟩ := h
    exact .single (.releaseRecovered ‹_› hlive.1 h)

/-! ## Events -/

section
variable {event : NativeReviewJobEvent} {answer : NativeEventIntakeResult}

theorem checkReplay_writes (h : EventStore.checkReplay event db = .ok (answer, db')) :
    Writes now .events db db' := by
  unfold EventStore.checkReplay at h
  repeat' split at h
  all_goals first
    | cases h; exact .refl
    | simp only [bind_ok, pure_ok, Prod.mk.injEq] at h
      obtain ⟨_, -, -, rfl⟩ := h
      exact .single .replay

theorem replayInTransaction_writes {eventDigest tupleDigest : String}
    (h : EventStore.replayInTransaction event eventDigest tupleDigest db = .ok (answer, db')) :
    Writes now .events db db' := by
  unfold EventStore.replayInTransaction at h
  repeat' split at h
  all_goals first
    | cases h; exact .refl
    | simp only [bind_ok, pure_ok, Prod.mk.injEq] at h
      obtain ⟨_, -, -, rfl⟩ := h
      exact .single .replay

theorem acceptEvent_writes {options : EventStoreOptions} {demandId : String}
    (h : EventStore.accept options event demandId now db = .ok (answer, db')) : Writes now .events db db' := by
  simp only [EventStore.accept, bind_ok] at h
  obtain ⟨_, h₁, h⟩ := h
  split at h
  · cases h
    exact replayInTransaction_writes h₁
  repeat' split at h
  all_goals first
    | cases h; exact .refl
    | simp only [bind_ok, pure_ok, Prod.mk.injEq] at h
      obtain ⟨_, h, -, rfl⟩ := h
      exact .single (.intake h)

end

/-! ## Admissions and epochs -/

namespace AuthorityStore

variable {store : NativeOrdinaryAuthorityStore} {generation : String}

theorem invalidateGeneration_writes {state : AdmissionState} (hpart : part.expires = true) (hs : state ≠ .active)
    (h : invalidateGeneration generation state now db = .ok db') : Writes now part db db' := by
  simp only [invalidateGeneration, bind_ok] at h
  obtain ⟨_, ha, _, hd, _, h₁, h₂⟩ := h
  have hends := part.ends_of_expires hpart
  exact .head (.withdraw hpart hs ha hd)
    ((denyClaims_writes hends h₁).tail (.fence hends (fun _ => Claim.active_of_ofGeneration) h₂))

theorem replaceGenerations_writes (hpart : part.expires = true) : ∀ {generations : List String} {db db' : AuthorityDatabase},
    replaceGenerations now generations db = .ok db' → Writes now part db db'
  | [], _, _, h => by
    cases h
    exact .refl
  | generation :: rest, db, db', h => by
    simp only [replaceGenerations, bind_ok] at h
    obtain ⟨_, h₁, h₂⟩ := h
    exact (invalidateGeneration_writes hpart (by simp) h₁).trans (replaceGenerations_writes hpart h₂)

theorem expireInTransaction_writes (hpart : part.expires = true) (h : expireInTransaction store now db = .ok db') :
    Writes now part db db' := by
  simp only [expireInTransaction, bind_ok] at h
  obtain ⟨_, h₁, h₂⟩ := h
  exact .head (.fence (part.ends_of_expires hpart) (fun _ => Claim.active_of_expiredAt) h₁)
    (replaceGenerations_writes hpart h₂)

theorem expire_writes {answer : Unit} (h : expire store now db = .ok (answer, db')) :
    Writes now .admissions db db' := by
  simp only [expire, bind_ok, pure_ok, Prod.mk.injEq] at h
  obtain ⟨_, h, -, rfl⟩ := h
  exact expireInTransaction_writes rfl h

theorem beginEpochAndExpire_writes {answer : Unit} (h : beginEpochAndExpire store now db = .ok (answer, db')) :
    Writes now .start db db' := by
  simp only [beginEpochAndExpire, bind_ok, pure_ok, Prod.mk.injEq] at h
  obtain ⟨_, hended, _, h₁, _, -, _, h₂, -, rfl⟩ := h
  exact .head (.endEpochs hended) (.head (.restart rfl h₁) (.head .beginEpoch (expireInTransaction_writes rfl h₂)))

theorem admitPolicy_writes {policy : NativeAdmissionPolicy} {answer : NativeAdmissionGrant}
    (h : admitPolicy store policy generation now db = .ok (answer, db')) : Writes now .admissions db db' := by
  simp only [admitPolicy, bind_ok] at h
  obtain ⟨_, h₁, h⟩ := h
  refine (expireInTransaction_writes rfl h₁).trans ?_
  split at h
  · split at h
    · simp only [bind_ok, pure_ok, Prod.mk.injEq] at h
      obtain ⟨_, h, -, rfl⟩ := h
      exact .single (.renewAdmission h)
    · simp only [bind_ok, pure_ok, Prod.mk.injEq] at h
      obtain ⟨_, h₂, _, h₃, -, rfl⟩ := h
      exact (invalidateGeneration_writes rfl (by simp) h₂).tail (.insertAdmission h₃)
  · simp only [bind_ok, pure_ok, Prod.mk.injEq] at h
    obtain ⟨_, h, -, rfl⟩ := h
    exact .single (.insertAdmission h)

theorem revoke_writes {projectId repositoryId : String} {answer : Bool}
    (h : revoke store projectId repositoryId generation now db = .ok (answer, db')) :
    Writes now .admissions db db' := by
  simp only [revoke, bind_ok] at h
  obtain ⟨_, h₁, h⟩ := h
  split at h
  · simp only [bind_ok, pure_ok, Prod.mk.injEq] at h
    obtain ⟨_, h₂, -, rfl⟩ := h
    exact (expireInTransaction_writes rfl h₁).trans (invalidateGeneration_writes rfl (by simp) h₂)
  · cases h
    exact .refl

end AuthorityStore

/-! ## Transactions -/

theorem Transaction.body_writes {store : NativeOrdinaryAuthorityStore} {t : Transaction} (h : t.body store db = .ok db') :
    ∃ now, Writes now (t.part store) db db' := by
  cases t <;> simp only [Transaction.body, map_ok] at h <;> obtain ⟨_, h, rfl⟩ := h
  case expire => exact ⟨_, AuthorityStore.expire_writes h⟩
  case admitPolicy => exact ⟨_, AuthorityStore.admitPolicy_writes h⟩
  case revoke => exact ⟨_, AuthorityStore.revoke_writes h⟩
  case checkReplay => exact ⟨0, checkReplay_writes h⟩
  case acceptEvent => exact ⟨_, acceptEvent_writes h⟩
  case reserve => exact ⟨_, reserve_writes h⟩
  case activate => exact ⟨_, (activate_writes h).to_reflTransGen⟩
  case releaseStale => exact ⟨_, releaseStale_writes h⟩
  case renew => exact ⟨_, (renew_writes h).to_reflTransGen⟩
  case prepareRecovery => exact ⟨_, prepareRecovery_writes h⟩
  case completeRecovery => exact ⟨_, completeRecovery_writes h⟩
  case acceptResult => exact ⟨_, acceptResult_writes h⟩
  case takeDue => exact ⟨_, takeDue_writes h⟩
  case retry => exact ⟨_, retry_writes h⟩
  case complete => exact ⟨_, complete_writes h⟩

/-- A step commits the groups of one transaction, or of a start. -/
theorem Step.writes (h : Step db db') : ∃ now part, Writes now part db db' := by
  cases h with
  | start store now =>
    refine ⟨now, .start, ?_⟩
    unfold Ordinary.start
    split
    · exact AuthorityStore.beginEpochAndExpire_writes ‹_›
    · exact .refl
  | run store t =>
    unfold Transaction.run
    split
    · obtain ⟨now, h⟩ := Transaction.body_writes ‹_›
      exact ⟨now, t.part store, h⟩
    · exact ⟨0, t.part store, .refl⟩

end

end Dim.Ordinary
