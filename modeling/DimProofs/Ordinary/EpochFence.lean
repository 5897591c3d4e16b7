/-
What a superseded instance of the ordinary host authority can still do to the database. Its
reservations, activations, renewals and recoveries are refused by the epoch check. Every other
transaction runs as if it were current: it leaves the rows alone where its own statements select
nothing, which `Idle` lists. In a run whose superseded transactions are all idle the superseded instances
have no effect at all.
-/
import DimProofs.Ordinary.Effect

namespace Dim.Ordinary

open Relational

/-- An instance whose epoch a newer instance has ended. -/
def Superseded (store : NativeOrdinaryAuthorityStore) (db : AuthorityDatabase) : Prop :=
  (db.serviceEpochs.get? store.ownedEpochId).any (!·.active) = true

instance (store : NativeOrdinaryAuthorityStore) (db : AuthorityDatabase) : Decidable (Superseded store db) :=
  inferInstanceAs (Decidable (_ = _))

theorem Superseded.not_owner {store : NativeOrdinaryAuthorityStore} {db : AuthorityDatabase}
    (h : Superseded store db) : db.ownsActiveEpoch store.ownedEpochId = false := by
  unfold Superseded at h
  unfold AuthorityDatabase.ownsActiveEpoch
  rcases he : db.serviceEpochs.get? store.ownedEpochId with _ | e
  · rfl
  · rw [he] at h
    simpa using h

section
variable [Sha256]

/-! ## Transactions that select nothing -/

/-- No claim whose lease ran out, and no active admission of another capacity list. -/
def ExpiryIdle (store : NativeOrdinaryAuthorityStore) (now : Int) (db : AuthorityDatabase) : Prop :=
  (∀ c ∈ db.claims.rows, c.expiredAt now = false) ∧ ∀ a ∈ db.nativeAdmissions.rows,
    AuthorityStore.foreignAdmission (AuthorityStore.capacityConfigDigest store) a = false

/-- The event is known, or its tuple is known and differs or finds the fences full. -/
def ReplayIdle (event : NativeReviewJobEvent) (db : AuthorityDatabase) : Prop :=
  (db.nativeEventReplayFences.get? event.eventId).isSome = true ∨
    ∃ tuple, db.reviewJobReplayFences.get? (event.reviewId, event.jobName) = some tuple ∧
      (tuple.tupleDigest ≠ nativeReviewJobTupleDigest event ∨
        replayFenceLimit ≤ db.nativeEventReplayFences.count (fun _ => true))

/-- No admission takes the event, or the fences or the queue are full. -/
def IntakeIdle (options : EventStoreOptions) (event : NativeReviewJobEvent) (now : Int) (db : AuthorityDatabase) : Prop :=
  ReplayIdle event db ∨
    (db.reviewJobReplayFences.get? (event.reviewId, event.jobName) = none ∧
      ∀ a, EventStore.activeAdmission options event db = some a → a.expiresAt ≤ now ∨
        replayFenceLimit ≤ db.nativeEventReplayFences.count (fun _ => true) ∨
        replayFenceLimit ≤ db.reviewJobReplayFences.count (fun _ => true) ∨
        nonterminalDemandLimit ≤ EventStore.nonterminalDemandCount db)

/-- The states in which the transaction of a superseded instance selects no row that it would change. -/
def Idle (store : NativeOrdinaryAuthorityStore) : Transaction → AuthorityDatabase → Prop
  | .expire now, db => ExpiryIdle store now db
  | .admitPolicy policy _ now, db => ExpiryIdle store now db ∧
    ∃ a, AuthorityStore.admissionOf policy.projectId policy.repositoryId db = some a ∧
      a.policyDigest = nativePolicyDigest policy ∧
      a.capacityConfigDigest = AuthorityStore.capacityConfigDigest store ∧
      a = { a with policy, expiresAt := now + store.leaseMilliseconds, updatedAt := now }
  | .revoke projectId repositoryId generation _, db => ∀ a ∈ db.nativeAdmissions.rows, a.state = .active →
    a.projectId = projectId → a.repositoryId = repositoryId → a.admissionGeneration = generation →
    a.capacityConfigDigest ≠ AuthorityStore.capacityConfigDigest store
  | .checkReplay event, db => ReplayIdle event db ∨
    db.reviewJobReplayFences.get? (event.reviewId, event.jobName) = none
  | .acceptEvent event _ now, db => IntakeIdle (AuthorityStore.eventStore store) event now db
  | .reserve .., _ | .activate .., _ | .renew .., _ | .prepareRecovery .., _ | .completeRecovery .., _ => True
  | .releaseStale request claimId _, db =>
    ((ClaimStore.requestReceipt request claimId db).filter (·.state = .preparing)).bind (·.demandId) = none
  | .acceptResult host request now, db =>
    (∃ r ∈ db.hostResults.rows, r.claimId = request.claimId ∨ (r.hostId = host ∧ r.requestId = request.requestId)) ∨
      ∀ c, ResultStore.joinedClaim host request.claimId db = some c →
        ResultStore.currentClaim (AuthorityStore.results store) c request.terminalEvent now db = false
  | .takeDue now, db => ∀ o ∈ db.reportOutbox.rows, o.state.due = true → o.nextAttemptAt ≤ now →
    ResultStore.reportAdmission o.claimId db = none
  | .retry delivery _, db => ∀ o ∈ db.reportOutbox.rows, o.claimId = delivery.claimId → o.state ≠ .delivering
  | .complete claimId _ _ _, db => ResultStore.settleable claimId db = none

/-! ## The epoch check -/

variable {db : AuthorityDatabase}

omit [Sha256] in
theorem assertOwnedEpoch_stale {ownedEpochId : String}
    (h : db.ownsActiveEpoch ownedEpochId = false) : assertOwnedEpoch ownedEpochId db = .error .staleAuthority := by
  unfold assertOwnedEpoch
  rw [if_neg (by simp [h])]

variable {now : Int}

omit [Sha256] in
/-- A stale reservation is refused, or answers a conflict for a capacity it does not know. -/
theorem ClaimStore.reserve_stale (options : ClaimStoreOptions) {request : NativeHostClaimRequest} {claimId : String}
    (h : db.ownsActiveEpoch options.ownedEpochId = false) :
    ClaimStore.reserve options request claimId now db = .ok (.conflict, db) ∨
      ClaimStore.reserve options request claimId now db = .error .staleAuthority := by
  unfold ClaimStore.reserve
  split
  · exact Or.inl rfl
  · rw [assertOwnedEpoch_stale h]
    exact Or.inr rfl

/-! ## Idle statements -/

omit [Sha256] in
theorem fenceClaims_idle {reason : FenceReason} {p : Claim → Bool}
    (h : ∀ c ∈ db.claims.rows, p c = false) : fenceClaims reason p now db = .ok db := by
  have hsel : ∀ k, db.selectsClaim p k = false := by
    intro k
    by_contra hk
    obtain ⟨c, hc, hp⟩ := selectsClaim_eq_true.mp (by simpa using hk)
    rw [h c (Table.get?_mem hc)] at hp
    cases hp
  have hnone : db.claims.rows.filter p = [] := List.filter_eq_nil_iff.mpr fun c hc => by simp [h c hc]
  unfold fenceClaims
  rw [hnone, Table.delete_idle fun a _ => hsel a.claimId, Table.update_idle fun r _ => hsel r.claimId,
    Table.update_idle h]
  rfl

variable {store : NativeOrdinaryAuthorityStore}

theorem expireInTransaction_idle
    (h : ExpiryIdle store now db) : AuthorityStore.expireInTransaction store now db = .ok db := by
  have hnone : db.nativeAdmissions.rows.filter
      (AuthorityStore.foreignAdmission (AuthorityStore.capacityConfigDigest store)) = [] :=
    List.filter_eq_nil_iff.mpr fun a ha => by simp [h.2 a ha]
  unfold AuthorityStore.expireInTransaction fenceExpiredClaims
  rw [fenceClaims_idle h.1]
  show AuthorityStore.replaceGenerations now ((db.nativeAdmissions.rows.filter _).map _) db = _
  rw [hnone]
  rfl

theorem admitPolicy_idle {policy : NativeAdmissionPolicy} {generation : String}
    (h : Idle store (.admitPolicy policy generation now) db) :
    ∃ grant, AuthorityStore.admitPolicy store policy generation now db = .ok (grant, db) := by
  obtain ⟨he, a, ha, hp, hc, hsame⟩ := h
  have hfixed : ∀ r ∈ db.nativeAdmissions.rows, decide (r.admissionGeneration = a.admissionGeneration) = true →
      { r with policy, expiresAt := now + store.leaseMilliseconds, updatedAt := now } = r := by
    intro r hr hk
    have hra : r = a := db.nativeAdmissions.eq_of_conflict hr (List.mem_of_find?_eq_some ha)
      (conflict_of_key (by simpa using hk))
    rw [hra]
    exact hsame.symm
  refine ⟨{ admissionGeneration := a.admissionGeneration, expiresAt := now + store.leaseMilliseconds }, ?_⟩
  simp only [AuthorityStore.admitPolicy, bind_ok, expireInTransaction_idle he]
  refine ⟨db, rfl, ?_⟩
  rw [ha]
  simp only [hp, hc, and_self, if_true, Table.update_fixed hfixed]
  rfl

/-! ## Epochs and admissions across a transaction -/

variable {db' : AuthorityDatabase}

variable {t : Transaction}

/-- Only a start writes `service_epochs`. -/
theorem Transaction.body_epochs (h : t.body store db = .ok db') : db'.serviceEpochs = db.serviceEpochs :=
  (Transaction.body_effect h).epochs (by cases t <;> nofun)

/-! ## Supersession -/

/-- A start begins a new epoch and ends that of every instance before it. -/
theorem beginEpochAndExpire_epochs
    {answer : Unit} (h : AuthorityStore.beginEpochAndExpire store now db = .ok (answer, db')) :
    db.serviceEpochs.get? store.ownedEpochId = none ∧ (db'.serviceEpochs.get? store.ownedEpochId).isSome = true ∧
      ∀ k, k ≠ store.ownedEpochId → db'.serviceEpochs.get? k =
        (db.serviceEpochs.get? k).map ({ · with active := false }) := by
  simp only [AuthorityStore.beginEpochAndExpire, bind_ok, pure_ok, Prod.mk.injEq] at h
  obtain ⟨ended, hu, fenced, hf, epochs, hi, db₁, he, -, rfl⟩ := h
  have hget : ∀ k, ended.get? k = (db.serviceEpochs.get? k).map ({ · with active := false }) := by
    intro k
    rw [Table.get?_update hu (fun _ => rfl)]
    congr 1
    funext e
    unfold Table.updated
    split
    · rfl
    · rename_i hinactive
      have : e.active = false := by simpa using hinactive
      cases e; cases this; rfl
  have hother : Part.admissions ≠ .start := fun h => by cases h
  have hfenced : Write now .admissions _ fenced := .restart rfl hf
  have hexpired : Writes now .admissions _ db₁ := AuthorityStore.expireInTransaction_writes rfl he
  rw [hfenced.effect.epochs hother] at hi
  refine ⟨?_, ?_, ?_⟩
  · have hnone := Table.get?_insert_fresh hi
    rw [ServiceEpoch.key_eq, hget] at hnone
    simpa using hnone
  · rw [hexpired.effect.epochs hother]
    show (epochs.get? _).isSome = true
    rw [Table.get?_insert hi]
    simp
  · intro k hk
    rw [hexpired.effect.epochs hother]
    show epochs.get? k = _
    rw [Table.get?_insert hi, if_neg (by simpa using hk), hget]

/-! ## Admissions across an invalidation -/

/-- An invalidation that leaves an admission active leaves it as it was. -/
theorem invalidateGeneration_admissions {g : String} {state : AdmissionState}
    (hs : state ≠ .active) (h : AuthorityStore.invalidateGeneration g state now db = .ok db') :
    ∀ a ∈ db'.nativeAdmissions.rows, a.state = .active → a ∈ db.nativeAdmissions.rows ∧ a.admissionGeneration ≠ g := by
  simp only [AuthorityStore.invalidateGeneration, bind_ok] at h
  obtain ⟨admissions, hu, demands, -, db₁, hd, hf⟩ := h
  have hdenied : Writes now .results _ db₁ := denyClaims_writes rfl hd
  have hfenced : Write now .results db₁ db' := .fence rfl (fun _ => Claim.active_of_ofGeneration) hf
  intro a ha hact
  rw [hfenced.effect.admissions rfl, hdenied.effect.admissions rfl, Table.update_rows hu] at ha
  obtain ⟨b, hb, rfl⟩ := List.mem_map.mp ha
  unfold Table.updated at hact ⊢
  by_cases hg : b.admissionGeneration = g
  · rw [if_pos (by simpa using hg)] at hact
    exact absurd hact hs
  · rw [if_neg (by simpa using hg)]
    exact ⟨hb, hg⟩

theorem replaceGenerations_admissions {now : Int} : ∀ {generations : List String} {db db' : AuthorityDatabase},
    AuthorityStore.replaceGenerations now generations db = .ok db' → ∀ a ∈ db'.nativeAdmissions.rows,
      a.state = .active → a ∈ db.nativeAdmissions.rows ∧ a.admissionGeneration ∉ generations
  | [], _, _, h => by cases h; exact fun a ha _ => ⟨ha, List.not_mem_nil⟩
  | g :: rest, db, db', h => by
    simp only [AuthorityStore.replaceGenerations, bind_ok] at h
    obtain ⟨db₁, h₁, h₂⟩ := h
    intro a ha hact
    obtain ⟨ha₁, hrest⟩ := replaceGenerations_admissions h₂ a ha hact
    obtain ⟨ha₀, hg⟩ := invalidateGeneration_admissions (by simp) h₁ a ha₁ hact
    exact ⟨ha₀, by simp [hg, hrest]⟩

/-- The admissions still active after an expiry have the capacity list of the instance. -/
theorem expireInTransaction_admissions
    (h : AuthorityStore.expireInTransaction store now db = .ok db') : ∀ a ∈ db'.nativeAdmissions.rows,
      a.state = .active → a ∈ db.nativeAdmissions.rows ∧
        a.capacityConfigDigest = AuthorityStore.capacityConfigDigest store := by
  simp only [AuthorityStore.expireInTransaction, bind_ok] at h
  obtain ⟨db₁, h₁, h₂⟩ := h
  intro a ha hact
  obtain ⟨ha₁, hg⟩ := replaceGenerations_admissions h₂ a ha hact
  have hfenced : Write now .results db db₁ := .fence rfl (fun _ => Claim.active_of_expiredAt) h₁
  refine ⟨hfenced.effect.admissions rfl ▸ ha₁, ?_⟩
  by_contra hc
  exact hg (List.mem_map.mpr ⟨a, List.mem_filter.mpr ⟨ha₁, by simp [AuthorityStore.foreignAdmission, hact, hc]⟩, rfl⟩)

theorem revoke_idle {projectId repositoryId generation : String}
    {answer : Bool} (hi : Idle store (.revoke projectId repositoryId generation now) db)
    (h : AuthorityStore.revoke store projectId repositoryId generation now db = .ok (answer, db')) : db' = db := by
  simp only [AuthorityStore.revoke, bind_ok] at h
  obtain ⟨db₁, h₁, h⟩ := h
  split at h
  · rename_i hany
    obtain ⟨a, ha, hp⟩ := Table.any_eq_true.mp hany
    simp only [Bool.and_eq_true, decide_eq_true_eq] at hp
    obtain ⟨ha₀, hc⟩ := expireInTransaction_admissions h₁ a ha hp.2
    exact absurd hc (hi a ha₀ hp.2 hp.1.1.1 hp.1.1.2 hp.1.2)
  · cases h; rfl

/-! ## Events, results and reports -/

variable {answer : NativeEventIntakeResult} {event : NativeReviewJobEvent}

theorem checkReplay_idle
    (hi : ReplayIdle event db ∨ db.reviewJobReplayFences.get? (event.reviewId, event.jobName) = none)
    (h : EventStore.checkReplay event db = .ok (answer, db')) : db' = db := by
  unfold EventStore.checkReplay at h
  split at h
  · cases h; rfl
  · rename_i hnone
    split at h
    · cases h; rfl
    · rename_i tuple htuple
      rcases hi with (hsome | ⟨tuple', ht, hcase⟩) | hn
      · rw [hnone] at hsome; cases hsome
      · rw [htuple] at ht
        cases ht
        split at h
        · cases h; rfl
        · rename_i heq
          rw [if_pos (hcase.resolve_left heq)] at h
          cases h; rfl
      · rw [htuple] at hn; cases hn

theorem replayInTransaction_idle (hi : ReplayIdle event db)
    (h : EventStore.replayInTransaction event (nativeEventDigest event) (nativeReviewJobTupleDigest event) db =
      .ok (answer, db')) : db' = db ∧ answer ≠ .new := by
  unfold EventStore.replayInTransaction at h
  split at h
  · cases h
    exact ⟨rfl, by split <;> simp⟩
  · rename_i hnone
    rcases hi with hsome | ⟨tuple, ht, hcase⟩
    · rw [hnone] at hsome; cases hsome
    · rw [ht] at h
      simp only at h
      split at h
      · cases h; exact ⟨rfl, by simp⟩
      · rename_i heq
        rw [if_pos (hcase.resolve_left heq)] at h
        cases h; exact ⟨rfl, by simp⟩

theorem acceptEvent_idle {options : EventStoreOptions} {demandId : String}
    (hi : IntakeIdle options event now db)
    (h : EventStore.accept options event demandId now db = .ok (answer, db')) : db' = db := by
  simp only [EventStore.accept, bind_ok] at h
  obtain ⟨⟨replay, db₁⟩, h₁, h⟩ := h
  rcases hi with hi | ⟨htuple, hadm⟩
  · obtain ⟨rfl, hnew⟩ := replayInTransaction_idle hi h₁
    simp only [ne_eq, hnew, not_false_eq_true, if_true] at h
    cases h; rfl
  · have hdb₁ : db₁ = db := by
      unfold EventStore.replayInTransaction at h₁
      rw [htuple] at h₁
      split at h₁ <;> · cases h₁; rfl
    split at h
    · cases h; exact hdb₁
    · split at h
      · cases h; rfl
      · rename_i a ha
        split at h
        · cases h; rfl
        · rename_i hexp
          rcases hadm a ha with he | hfull
          · exact absurd he hexp
          · rw [if_pos (by simpa [Bool.or_eq_true, or_assoc] using hfull)] at h
            cases h; rfl

theorem acceptResult_idle {options : ResultStoreOptions} {host : String} {request : NativeHostResultRequest}
    {answer : NativeHostResultIntake}
    (hi : (∃ r ∈ db.hostResults.rows, r.claimId = request.claimId ∨ (r.hostId = host ∧ r.requestId = request.requestId)) ∨
      ∀ c, ResultStore.joinedClaim host request.claimId db = some c →
        ResultStore.currentClaim options c request.terminalEvent now db = false)
    (h : ResultStore.accept options host request now db = .ok (answer, db')) : db' = db := by
  unfold ResultStore.accept at h
  simp only at h
  split at h
  · cases h; rfl
  · rename_i hnone
    split at h
    · cases h; rfl
    · rename_i c hjoin
      rcases hi with ⟨r, hr, hmatch⟩ | hi
      · rw [List.find?_eq_none] at hnone
        exact absurd (by simpa using hmatch) (hnone r hr)
      · simp only [hi c hjoin, Bool.not_false, if_true] at h
        cases h; rfl

omit [Sha256] in
theorem takeDue_idle {options : ResultStoreOptions} {answer : Option NativeReportDelivery}
    (hi : ∀ o ∈ db.reportOutbox.rows, o.state.due = true → o.nextAttemptAt ≤ now →
      ResultStore.reportAdmission o.claimId db = none)
    (h : ResultStore.takeDue options now db = .ok (answer, db')) : db' = db := by
  unfold ResultStore.takeDue at h
  split at h
  · cases h; rfl
  · rename_i o hsel
    obtain ⟨ho, hp⟩ := Table.select_mem hsel
    simp only [Bool.and_eq_true, decide_eq_true_eq] at hp
    rw [hi o ho hp.1.1 hp.1.2] at hp
    cases hp.2

/-! ## The effect of a superseded transaction -/

omit [Sha256] in
theorem map_idle {α : Type} {x : Except AuthorityError (α × AuthorityDatabase)}
    (hx : ∀ answer db', x = .ok (answer, db') → db' = db) (h : (·.2) <$> x = .ok db') : db' = db := by
  obtain ⟨⟨answer, db₁⟩, h₁, rfl⟩ := map_ok.mp h
  exact hx answer db₁ h₁

/-- What a stale and idle transaction commits is the state it found. -/
theorem Transaction.body_idle
    (hs : Superseded store db) (hi : Idle store t db) (h : t.body store db = .ok db') : db' = db := by
  have hlease : assertOwnedEpoch (AuthorityStore.leaseStore store).ownedEpochId db = .error .staleAuthority :=
    assertOwnedEpoch_stale hs.not_owner
  cases t <;> refine map_idle ?_ h <;> intro answer db₁ h
  case expire => 
    unfold AuthorityStore.expire at h
    rw [expireInTransaction_idle hi] at h
    cases h; rfl
  case admitPolicy =>
    obtain ⟨grant, hg⟩ := admitPolicy_idle hi
    rw [hg] at h
    cases h; rfl
  case revoke => exact revoke_idle hi h
  case checkReplay => exact checkReplay_idle hi h
  case acceptEvent => exact acceptEvent_idle hi h
  case reserve =>
    rcases ClaimStore.reserve_stale (AuthorityStore.claimStore store) hs.not_owner with hr | hr
    all_goals
      rw [hr] at h
      cases h
    rfl
  case activate =>
    unfold ClaimStore.activate at h
    rw [show assertOwnedEpoch (AuthorityStore.claimStore store).ownedEpochId db = _ from
      assertOwnedEpoch_stale hs.not_owner] at h
    cases h
  case releaseStale =>
    unfold ClaimStore.releaseStale at h
    rw [show _ = none from hi] at h
    cases h; rfl
  case renew =>
    unfold LeaseStore.renew at h
    rw [hlease] at h
    cases h
  case prepareRecovery =>
    unfold LeaseStore.prepareRecovery at h
    rw [hlease] at h
    cases h
  case completeRecovery =>
    unfold LeaseStore.completeRecovery at h
    rw [hlease] at h
    cases h
  case acceptResult => exact acceptResult_idle hi h
  case takeDue => exact takeDue_idle hi h
  case retry =>
    rename_i delivery _ _
    have hnone : ∀ o ∈ db.reportOutbox.rows,
        (decide (o.claimId = delivery.claimId) && decide (o.state = .delivering)) = false := by
      intro o ho
      by_cases hk : o.claimId = delivery.claimId
      · simp [hk, hi o ho hk]
      · simp [hk]
    unfold ResultStore.retry at h
    rw [Table.update_idle hnone] at h
    cases h; rfl
  case complete =>
    unfold ResultStore.complete ResultStore.completeInTransaction at h
    rw [show _ = none from hi] at h
    cases h; rfl

theorem Transaction.run_idle (hs : Superseded store db) (hi : Idle store t db) : t.run store db = db := by
  unfold Transaction.run
  split
  · rename_i h; exact Transaction.body_idle hs hi h
  · rfl

/-! ## Runs of several instances -/

/-- An instance is started, or an instance runs a transaction. -/
inductive Action where
  | start (store : NativeOrdinaryAuthorityStore) (now : Int)
  | call (store : NativeOrdinaryAuthorityStore) (t : Transaction)

def Action.apply (db : AuthorityDatabase) : Action → AuthorityDatabase
  | .start store now => Ordinary.start store now db
  | .call store t => t.run store db

/-- The call of a superseded instance. -/
def Action.stale (db : AuthorityDatabase) : Action → Bool
  | .start .. => false
  | .call store _ => Superseded store db

/-- The state after the actions of a run. -/
def replay (db : AuthorityDatabase) (actions : List Action) : AuthorityDatabase :=
  actions.foldl Action.apply db

/-- The actions of a run without the stale calls. -/
def effective (db : AuthorityDatabase) : List Action → List Action
  | [] => []
  | action :: rest =>
    if action.stale db then effective (action.apply db) rest else action :: effective (action.apply db) rest

/-- No stale call of a run changes a row. -/
def Fenced (db : AuthorityDatabase) : List Action → Prop
  | [] => True
  | action :: rest => (action.stale db = true → action.apply db = db) ∧ Fenced (action.apply db) rest

/-- Every stale call of a run selects no row that it would change. -/
def Quiet (db : AuthorityDatabase) : List Action → Prop
  | [] => True
  | action :: rest => (∀ store t, action = .call store t → Superseded store db → Idle store t db) ∧
    Quiet (action.apply db) rest

theorem Action.apply_stale {action : Action}
    (hq : ∀ store t, action = .call store t → Superseded store db → Idle store t db) (hs : action.stale db = true) :
    action.apply db = db := by
  cases action with
  | start store now => cases hs
  | call store t =>
    have hsup : Superseded store db := by simpa [Action.stale] using hs
    exact Transaction.run_idle hsup (hq store t rfl hsup)

/-- A quiet run leaves the rows as if the superseded instances had stopped: no stale call changes a
row, and the run ends where the run without them ends. -/
theorem epoch_fence : ∀ (actions : List Action) (db : AuthorityDatabase), Quiet db actions →
    Fenced db actions ∧ replay db actions = replay db (effective db actions)
  | [], _, _ => ⟨trivial, rfl⟩
  | action :: rest, db, ⟨hq, hrest⟩ => by
    obtain ⟨hf, he⟩ := epoch_fence rest (action.apply db) hrest
    refine ⟨⟨Action.apply_stale hq, hf⟩, ?_⟩
    show replay (action.apply db) rest = _
    unfold effective
    split
    · rename_i hs
      rw [Action.apply_stale hq hs] at he ⊢
      exact he
    · exact he

end

namespace Sample

attribute [local instance] sha256

/-- The instance that restarts the service with another capacity list. -/
def newer : NativeOrdinaryAuthorityStore :=
  { store with capacities := [{ capacity with capacity := "large" }], ownedEpochId := "epoch-2" }

/-- A restart, after which the superseded instance reserves and expires before any admission. -/
def quietRun : List Action :=
  [.start store 1, .start newer 2, .call store (.reserve request "claim" 3), .call store (.expire 4),
    .call newer (.admitPolicy policy "generation" 5)]

/-- A restart, after which the superseded instance expires the admission of the newer one. -/
def staleRun : List Action :=
  [.start store 1, .start newer 2, .call newer (.admitPolicy policy "generation" 3), .call store (.expire 4)]

end Sample

theorem epoch_fence_quietRun : @replay Sample.sha256 .empty Sample.quietRun =
    @replay Sample.sha256 .empty [.start Sample.store 1, .start Sample.newer 2,
      .call Sample.newer (.admitPolicy Sample.policy "generation" 5)] := by
  have hq : @Quiet Sample.sha256 .empty Sample.quietRun := by
    refine ⟨?_, ?_, ?_, ?_, ?_, trivial⟩ <;> intro store t ht hs
    · cases ht
    · cases ht
    · cases ht; trivial
    · cases ht; exact ⟨by decide +kernel, by decide +kernel⟩
    · cases ht; exact absurd hs (by decide +kernel)
  exact (@epoch_fence Sample.sha256 _ _ hq).2

/-- The expiry at the start of a superseded instance's operation replaces the admission that the
newer instance has granted. -/
theorem epoch_fence_staleRun : ¬ ∀ actions, @Fenced Sample.sha256 .empty actions := by
  intro h
  obtain ⟨-, -, -, h, -⟩ := h Sample.staleRun
  have hrows := congrArg (fun db : AuthorityDatabase => db.nativeAdmissions.rows) (h (by decide +kernel))
  exact absurd hrows (by decide +kernel)

end Dim.Ordinary
