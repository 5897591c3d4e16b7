/-
Renewals and recoveries that come again. The answers they were given are kept as a record next to
the database: it says which renewal a claim has to remember and which recovery it stores, whatever
other transactions ran in between. A claim remembers one renewal only, its last, so an older one
that comes late is granted anew.
-/
import DimProofs.Ordinary.Carried
import DimProofs.Ordinary.HostLease

namespace Dim.Ordinary

open Relational

/-! ## What renewals and recoveries do -/

/-- One claim becomes another of its identity; the other claims stay. -/
structure Moves (db db' : AuthorityDatabase) (k : String) (c c' : Claim) : Prop where
  before : db.claims.get? k = some c
  after : db'.claims.get? k = some c'
  identity : c'.identity = c.identity
  others : ∀ x, x ≠ k → db'.claims.get? x = db.claims.get? x

theorem Moves.of_update {db db' : AuthorityDatabase} {k : String} {c : Claim} {p : Claim → Bool} {f : Claim → Claim}
    (h : db.claims.update (ε := AuthorityError) p f = .ok db'.claims) (hk : ∀ c, (f c).claimId = c.claimId)
    (hi : ∀ c, (f c).identity = c.identity) (hget : db.claims.get? k = some c) (hp : p c = true)
    (hother : ∀ c, p c = true → c.claimId = k) : Moves db db' k c (f c) where
  before := hget
  after := Table.get?_update_self h hk hget hp
  identity := hi c
  others _ hne := Table.get?_update_ne h hk hother hne

variable {c : Claim}

/-- A row that stores a recovery request stores its resource as well. -/
theorem Claim.resource_stored (h : Schema.check c = true) (hid : c.recoveryRequestId.isSome = true) :
    c.recoveryResourceId.isSome = true := by
  simp only [Schema.check, Bool.and_eq_true, Bool.or_eq_true] at h
  rcases h.1.1.2 with hnone | hsome
  · rw [Option.isNone_iff_eq_none.mp hnone.1.1] at hid
    cases hid
  · exact hsome.1.2

namespace LeaseStore

/-- The claim of the request is active under the instance's epoch, and its lease is not over. -/
def Renewable (options : LeaseStoreOptions) (request : NativeHostClaimRenewalRequest) (now : Int)
    (db : AuthorityDatabase) : Prop :=
  ∃ c, exactClaim request db = some c ∧ c.state = .active ∧ c.serviceEpochId = options.ownedEpochId ∧
    now < c.leaseExpiresAt

variable {db : AuthorityDatabase}

theorem assertOwnedEpoch_of {ownedEpochId : String}
    (h : db.ownsActiveEpoch ownedEpochId = true) : assertOwnedEpoch ownedEpochId db = .ok () := by
  simp [assertOwnedEpoch, h]

theorem assertOwnedEpoch_error {ownedEpochId : String}
    (h : db.ownsActiveEpoch ownedEpochId = false) : assertOwnedEpoch ownedEpochId db = .error .staleAuthority := by
  simp [assertOwnedEpoch, h]

variable {db' : AuthorityDatabase} {now : Int} {options : LeaseStoreOptions}

/-- A renewal refuses, repeats the last one it granted, or is a new one. -/
theorem renew_cases {request : NativeHostClaimRenewalRequest} {answer : Option NativeHostClaimRenewal}
    (h : renew options request now db = .ok (answer, db')) :
    answer = none ∧ db' = db ∧ ¬ Renewable options request now db ∨
    ∃ c, exactClaim request db = some c ∧ c.state = .active ∧ Renewable options request now db ∧
      (c.renewalRequestId = some request.requestId ∧ db' = db ∧
        answer = some (renewal options request c.leaseExpiresAt (c.leaseExpiresAt - now)) ∨
      c.renewalRequestId ≠ some request.requestId ∧
        Moves db db' request.claimId c { c with
          leaseExpiresAt := now + options.claimLeaseMilliseconds, renewalRequestId := some request.requestId } ∧
        answer = some (renewal options request (now + options.claimLeaseMilliseconds)
          options.claimLeaseMilliseconds)) := by
  simp only [renew, bind_ok] at h
  obtain ⟨-, -, h⟩ := h
  split at h
  · rename_i hexact
    cases h
    refine Or.inl ⟨rfl, rfl, ?_⟩
    rintro ⟨c, hc, -⟩
    rw [hexact] at hc
    cases hc
  rename_i c hexact
  obtain ⟨hget, -⟩ := exactClaim_some hexact
  split at h
  · rename_i hdead
    cases h
    refine Or.inl ⟨rfl, rfl, ?_⟩
    rintro ⟨c', hc', hactive, hepoch, hlease⟩
    rw [hexact, Option.some.injEq] at hc'
    subst hc'
    rcases hdead with hne | hne | hle
    · exact hne hactive
    · exact hne hepoch
    · omega
  rename_i hlive
  simp only [not_or, ne_eq, not_not, not_le] at hlive
  refine Or.inr ⟨c, hexact, hlive.1, ⟨c, hexact, hlive⟩, ?_⟩
  split at h
  · cases h
    exact Or.inl ⟨‹_›, rfl, rfl⟩
  · simp only [bind_ok, pure_ok, Prod.mk.injEq] at h
    obtain ⟨claims, hcl, rfl, rfl⟩ := h
    have hkey : c.claimId = request.claimId := Table.get?_key hget
    have hmoves := @Moves.of_update db { db with claims } _ c _ _ hcl (fun _ => rfl) (fun _ => rfl) hget
      (by simp [hkey]) (fun c hc => by simpa using hc)
    exact Or.inr ⟨‹_›, hmoves, rfl⟩

/-- The columns that a recovery of the request leaves at its claim. -/
def recoveryOf (request : NativeHostRecoveryRequest) (now : Int) (c : Claim) : Claim :=
  { c with state := .recovering, recoveryRequestId := some request.requestId,
           recoveryResourceId := some request.resourceId, cleanupAcknowledgedAt := some now }

/-- A recovery that is answered with the issuance stored its request, or finds it stored. -/
theorem prepareRecovery_cases {request : NativeHostRecoveryRequest} {answer : NativeRecoveryPreparation}
    (h : prepareRecovery options request now db = .ok (answer, db')) :
    (∀ issuance, answer ≠ .pending issuance) ∧ db' = db ∨
    ∃ c, exactClaim request.toNativeHostClaimRenewalRequest db = some c ∧ answer = .pending c.issuance ∧
      request.resourceId = request.claimId ∧
      (Moves db db' request.claimId c (recoveryOf request now c) ∧
          (c.state = .active ∨ c.state = .recovering ∧ c.recoveryRequestId = none) ∨
        db' = db ∧ c.state = .recovering ∧ c.recoveryRequestId = some request.requestId ∧
          c.recoveryResourceId = some request.resourceId) := by
  simp only [prepareRecovery, bind_ok] at h
  obtain ⟨-, -, h⟩ := h
  split at h
  · cases h
    exact Or.inl ⟨fun _ h => (by cases h), rfl⟩
  rename_i c hexact
  obtain ⟨hget, -⟩ := exactClaim_some hexact
  split at h
  · cases h
    exact Or.inl ⟨fun _ h => (by cases h), rfl⟩
  rename_i hresource
  rw [ne_eq, not_not] at hresource
  split at h
  · split at h <;> cases h <;> exact Or.inl ⟨fun _ h => (by cases h), rfl⟩
  · rename_i hactive
    split at h
    · cases h
      exact Or.inl ⟨fun _ h => (by cases h), rfl⟩
    · rename_i hcond
      simp only [not_or, ne_eq, not_not] at hcond
      simp only [fenceForRecovery, bind_ok, pure_ok, Prod.mk.injEq] at h
      obtain ⟨_, ⟨_, -, claims, hcl, _, -, rfl⟩, rfl, rfl⟩ := h
      have hkey : c.claimId = request.claimId := Table.get?_key hget
      exact Or.inr ⟨c, hexact, rfl, hresource, Or.inl ⟨.of_update hcl (fun _ => rfl) (fun _ => rfl) hget
        (by simp [hkey, hactive, hcond.1])
          (fun c hc => by simp only [Bool.and_eq_true, decide_eq_true_eq] at hc; exact hc.1.1),
        Or.inl hactive⟩⟩
  · rename_i hrecovering
    split at h
    · cases h
      exact Or.inl ⟨fun _ h => (by cases h), rfl⟩
    rename_i hcond
    simp only [not_or, Bool.not_eq_true, Option.any_eq_false, decide_eq_false_iff_not, ne_eq, not_not] at hcond
    split at h
    · rename_i hfresh
      simp only [recordRecovery, bind_ok, pure_ok, Prod.mk.injEq] at h
      obtain ⟨_, ⟨claims, hcl, rfl⟩, rfl, rfl⟩ := h
      have hkey : c.claimId = request.claimId := Table.get?_key hget
      have hmoves := @Moves.of_update db { db with claims } _ c _ _ hcl (fun _ => rfl) (fun _ => rfl) hget
        (by simp [hkey, hrecovering])
        (fun c hc => by simp only [Bool.and_eq_true, decide_eq_true_eq] at hc; exact hc.1)
      have hsame : { c with recoveryRequestId := some request.requestId, recoveryResourceId := some request.resourceId,
                            cleanupAcknowledgedAt := some now } = recoveryOf request now c := by
        rw [recoveryOf, ← hrecovering]
      rw [hsame] at hmoves
      exact Or.inr ⟨c, hexact, rfl, hresource, Or.inl ⟨hmoves, Or.inr ⟨hrecovering, by simpa using hfresh⟩⟩⟩
    · rename_i hstored
      cases h
      rw [Bool.not_eq_true, Option.isNone_eq_false_iff] at hstored
      obtain ⟨id, hid⟩ := Option.isSome_iff_exists.mp hstored
      obtain ⟨resource, hresourceId⟩ := Option.isSome_iff_exists.mp
        (Claim.resource_stored (db.claims.checked c (Table.get?_mem hget)) hstored)
      refine Or.inr ⟨c, hexact, rfl, hresource, Or.inr ⟨rfl, hrecovering, ?_, ?_⟩⟩
      · rw [hid, hcond.1 id hid]
      · rw [hresourceId, hcond.2.1 resource hresourceId]
  · cases h
    exact Or.inl ⟨fun _ h => (by cases h), rfl⟩

/-- The columns of a claim whose recovery was completed. -/
def releasedBy (revocation : NativeJobAttemptRevocation) (now : Int) (c : Claim) : Claim :=
  { c with state := .released, nativeRevocation := some revocation, releasedAt := some now }

theorem completeRecovery_cases {request : NativeHostRecoveryRequest}
    {proof : NativeJobAttemptRevocation} {answer : Bool}
    (h : completeRecovery options request proof now db = .ok (answer, db')) :
    answer = false ∧ db' = db ∨
    answer = true ∧ ∃ c, exactClaim request.toNativeHostClaimRenewalRequest db = some c ∧ c.state = .recovering ∧
      c.recoveryRequestId = some request.requestId ∧ c.recoveryResourceId = some request.resourceId ∧
      Moves db db' request.claimId c (releasedBy proof now c) ∧
      (∀ x, x ≠ request.claimId → db'.claimReceipts.get? x = db.claimReceipts.get? x) ∧
      db'.capacityFences = db.capacityFences.delete (·.claimId = request.claimId) := by
  simp only [completeRecovery, bind_ok] at h
  obtain ⟨-, -, h⟩ := h
  split at h
  · cases h
    exact Or.inl ⟨rfl, rfl⟩
  rename_i c hexact
  obtain ⟨hget, -⟩ := exactClaim_some hexact
  have hkey : c.claimId = request.claimId := Table.get?_key hget
  split at h
  · cases h
    exact Or.inl ⟨rfl, rfl⟩
  rename_i hcond
  simp only [not_or, ne_eq, not_not] at hcond
  split at h
  · cases h
    exact Or.inl ⟨rfl, rfl⟩
  · simp only [releaseRecovered, bind_ok, pure_ok, Prod.mk.injEq] at h
    obtain ⟨_, ⟨claims, hcl, receipts, hr, demands, -, rfl⟩, rfl, rfl⟩ := h
    have hmoves := @Moves.of_update db
      { db with claims, claimReceipts := receipts, demands,
                capacityFences := db.capacityFences.delete (·.claimId = request.claimId) }
      _ c _ _ hcl (fun _ => rfl) (fun _ => rfl) hget (by simp [hkey]) (fun c hc => by simpa using hc)
    exact Or.inr ⟨rfl, c, hexact, hcond.1, hcond.2.1, hcond.2.2.1, hmoves,
      fun x hne => Table.get?_update_ne hr (fun _ => rfl) (by simp) hne, rfl⟩

end LeaseStore

/-! ## The record of the answers -/

/-- An answer that grants a renewal, starts a recovery or ends one. -/
inductive LeaseAnswer where
  | renewed (claimId requestId : String)
  | prepared (request : NativeHostRecoveryRequest) (issuance : NativeJobAttemptIssuance)
  | completed (claimId : String)

section
variable [Sha256]

/-- What a transaction adds to the record. -/
def Transaction.answers (store : NativeOrdinaryAuthorityStore) : Transaction → AuthorityDatabase → List LeaseAnswer
  | .renew request now, db =>
    match LeaseStore.renew (AuthorityStore.leaseStore store) request now db with
    | .ok (some _, _) => [.renewed request.claimId request.requestId]
    | _ => []
  | .prepareRecovery request now, db =>
    match LeaseStore.prepareRecovery (AuthorityStore.leaseStore store) request now db with
    | .ok (.pending issuance, _) => [.prepared request issuance]
    | _ => []
  | .completeRecovery request proof now, db =>
    match LeaseStore.completeRecovery (AuthorityStore.leaseStore store) request proof now db with
    | .ok (true, _) => [.completed request.claimId]
    | _ => []
  | _, _ => []

/-- The authority and every answer it gave, the latest first. -/
structure LeaseRecord where
  authority : Authority
  answers : List LeaseAnswer

inductive LeaseRecord.Step : LeaseRecord → LeaseRecord → Prop
  | tick {s : LeaseRecord} (clock : Int) (h : s.authority.clock ≤ clock) :
      Step s { s with authority := { s.authority with clock } }
  | start {s : LeaseRecord} {db' : AuthorityDatabase} (store : NativeOrdinaryAuthorityStore)
      (h : AuthorityStore.beginEpochAndExpire store s.authority.clock s.authority.db = .ok ((), db')) :
      Step s { s with authority := { s.authority with db := db', instances := store :: s.authority.instances } }
  | run {s : LeaseRecord} (store : NativeOrdinaryAuthorityStore) (t : Transaction) (hs : store ∈ s.authority.instances)
      (ht : ∀ now ∈ t.reading, now = s.authority.clock) :
      Step s { authority := { s.authority with db := t.run store s.authority.db },
               answers := t.answers store s.authority.db ++ s.answers }

def LeaseRecord.Initial (s : LeaseRecord) : Prop := s.authority.Initial ∧ s.answers = []

abbrev LeaseRecord.Reachable : LeaseRecord → Prop := Transition.Reachable LeaseRecord.Initial LeaseRecord.Step

theorem LeaseRecord.Step.authority {s s' : LeaseRecord} (h : LeaseRecord.Step s s') :
    Authority.Step s.authority s'.authority := by
  cases h with
  | tick clock h => exact .tick clock h
  | start store h => exact .start store h
  | run store t hs ht => exact .run store t hs ht

theorem LeaseRecord.Reachable.authority {s : LeaseRecord} (h : s.Reachable) : s.authority.Reachable :=
  Transition.Reachable.invariant (I := fun s => s.authority.Reachable) (fun _ hi => .init hi.1)
    (fun _ _ hr hs => hr.step hs.authority) h

/-- Every run of the authority has its record. -/
theorem LeaseRecord.reachable_of_authority {a : Authority} (h : a.Reachable) :
    ∃ answers, LeaseRecord.Reachable { authority := a, answers } := by
  refine Transition.Reachable.invariant
    (I := fun a => ∃ answers, LeaseRecord.Reachable { authority := a, answers }) ?_ ?_ h
  · exact fun a ha => ⟨[], .init ⟨ha, rfl⟩⟩
  · rintro a a' ⟨answers, hr⟩ hs
    cases hs with
    | tick clock hle => exact ⟨answers, hr.step (.tick clock hle)⟩
    | start store hstart => exact ⟨answers, hr.step (.start store hstart)⟩
    | run store t hstore ht => exact ⟨_, hr.step (.run store t hstore ht)⟩

end

/-- The request of the claim's last renewal that was granted. -/
def lastRenewal (claimId : String) : List LeaseAnswer → Option String
  | [] => none
  | .renewed k requestId :: rest => if k = claimId then some requestId else lastRenewal claimId rest
  | _ :: rest => lastRenewal claimId rest

/-- The claim stores the recovery of a request, and waits for its end or reached it. -/
structure Recovers (db : AuthorityDatabase) (request : NativeHostRecoveryRequest) (c : Claim) : Prop where
  exact : LeaseStore.exactClaim request.toNativeHostClaimRenewalRequest db = some c
  requestId : c.recoveryRequestId = some request.requestId
  resourceId : c.recoveryResourceId = some request.resourceId
  resource : request.resourceId = request.claimId
  state : c.state = .recovering ∨ c.state = .released ∧ c.nativeRevocation.isSome = true

/-- The rows agree with the answers. -/
structure Recorded (db : AuthorityDatabase) (answers : List LeaseAnswer) : Prop where
  renewals : ∀ k, (db.claims.get? k).bind (·.renewalRequestId) = lastRenewal k answers
  recoveries : ∀ request issuance, .prepared request issuance ∈ answers →
    ∃ c, Recovers db request c ∧ c.issuance = issuance
  completions : ∀ k, .completed k ∈ answers → ∃ c, db.claims.get? k = some c ∧ c.state = .released

variable {c' : Claim} {db db' : AuthorityDatabase}

/-- `#exactClaim` compares columns that belong to the identity of the row. -/
theorem exactClaim_of_identity {request : NativeHostClaimRenewalRequest}
    (h : LeaseStore.exactClaim request db = some c) (hc' : db'.claims.get? request.claimId = some c')
    (hid : c'.identity = c.identity) : LeaseStore.exactClaim request db' = some c' := by
  obtain ⟨-, hhost, hcapacity, hattempt, hdigest⟩ := LeaseStore.exactClaim_some h
  simp only [Claim.identity, Prod.mk.injEq] at hid
  simp [LeaseStore.exactClaim, hc', hid.1, hid.2.1, hid.2.2.2.2.1, hid.2.2.2.2.2.1, hhost, hcapacity, hattempt, hdigest]

theorem issuance_of_identity {c c' : Claim} (hid : c'.identity = c.identity) : c'.issuance = c.issuance := by
  simp only [Claim.identity, Prod.mk.injEq] at hid
  exact hid.2.2.2.2.2.2.2

variable {request : NativeHostRecoveryRequest}

/-- A recovery stays stored when its claim becomes one of the same identity and recovery. -/
theorem Recovers.follow
    (h : Recovers db request c) (hc' : db'.claims.get? request.claimId = some c') (hid : c'.identity = c.identity)
    (hrequest : c'.recoveryRequestId = c.recoveryRequestId) (hresource : c'.recoveryResourceId = c.recoveryResourceId)
    (hstate : c'.state = .recovering ∨ c'.state = .released ∧ c'.nativeRevocation.isSome = true) :
    Recovers db' request c' where
  exact := exactClaim_of_identity h.exact hc' hid
  requestId := hrequest.trans h.requestId
  resourceId := hresource.trans h.resourceId
  resource := h.resource
  state := hstate

theorem Recovers.get (h : Recovers db request c) :
    db.claims.get? request.claimId = some c :=
  (LeaseStore.exactClaim_some h.exact).1

theorem Recorded.empty : Recorded .empty [] where
  renewals _ := rfl
  recoveries _ _ h := by cases h
  completions _ h := by cases h

variable {answers : List LeaseAnswer}

/-- The other transactions. -/
theorem Recorded.carry (h : Recorded db answers) (hc : Carries db db') : Recorded db' answers where
  renewals k := by
    rw [← h.renewals k]
    rcases hc k with ⟨c, c', hget, hget', hcarried⟩ | ⟨hnone, hnew⟩
    · have hmarks := hcarried.marks
      simp only [Claim.marks, Prod.mk.injEq] at hmarks
      simp [hget, hget', hmarks.1]
    · rw [hnone]
      cases hget' : db'.claims.get? k with
      | none => rfl
      | some c' => simpa using hnew c' hget'
  recoveries request issuance hmem := by
    obtain ⟨c, hrecovers, rfl⟩ := h.recoveries request issuance hmem
    rcases hc request.claimId with ⟨d, c', hget, hget', hcarried⟩ | ⟨hnone, -⟩
    · rw [hrecovers.get, Option.some.injEq] at hget
      subst hget
      have hmarks := hcarried.marks
      simp only [Claim.marks, Prod.mk.injEq] at hmarks
      have hstate : c'.state = c.state := by
        rcases hcarried.state with he | hlive
        · exact he
        · rcases hrecovers.state with hs | ⟨hs, -⟩ <;> rw [hs] at hlive <;> simp at hlive
      refine ⟨c', hrecovers.follow hget' hcarried.identity hmarks.2.1 hmarks.2.2.1 ?_,
        issuance_of_identity hcarried.identity⟩
      rw [hstate, hmarks.2.2.2]
      exact hrecovers.state
    · rw [hrecovers.get] at hnone
      cases hnone
  completions k hmem := by
    obtain ⟨c, hget, hreleased⟩ := h.completions k hmem
    rcases hc k with ⟨d, c', hd, hget', hcarried⟩ | ⟨hnone, -⟩
    · rw [hget, Option.some.injEq] at hd
      subst hd
      refine ⟨c', hget', ?_⟩
      rcases hcarried.state with he | hlive
      · exact he.trans hreleased
      · rw [hreleased] at hlive
        simp at hlive
    · rw [hget] at hnone
      cases hnone

/-- A renewal or a recovery that moves its claim. -/
theorem Recorded.move {k : String} {new : LeaseAnswer} (h : Recorded db answers) (hm : Moves db db' k c c')
    (hrenewal : c'.renewalRequestId = lastRenewal k (new :: answers))
    (hothers : ∀ x, x ≠ k → lastRenewal x (new :: answers) = lastRenewal x answers)
    (hprepared : ∀ request issuance, .prepared request issuance = new → Recovers db' request c' ∧ c'.issuance = issuance)
    (hcompleted : ∀ x, .completed x = new → x = k ∧ c'.state = .released)
    (hkept : ∀ request, request.claimId = k → Recovers db request c → Recovers db' request c')
    (hreleased : c.state = .released → c'.state = .released) : Recorded db' (new :: answers) where
  renewals x := by
    by_cases hx : x = k
    · subst hx
      rw [hm.after, Option.bind_some, hrenewal]
    · rw [hm.others x hx, h.renewals x, hothers x hx]
  recoveries request issuance hmem := by
    rcases List.mem_cons.mp hmem with hnew | hmem
    · exact ⟨c', hprepared request issuance hnew⟩
    · obtain ⟨d, hrecovers, rfl⟩ := h.recoveries request issuance hmem
      by_cases hx : request.claimId = k
      · have hget := hrecovers.get
        rw [hx, hm.before, Option.some.injEq] at hget
        subst hget
        exact ⟨c', hkept request hx hrecovers, issuance_of_identity hm.identity⟩
      · exact ⟨d, hrecovers.follow ((hm.others _ hx).trans hrecovers.get) rfl rfl rfl hrecovers.state, rfl⟩
  completions x hmem := by
    rcases List.mem_cons.mp hmem with hnew | hmem
    · obtain ⟨rfl, hs⟩ := hcompleted x hnew
      exact ⟨c', hm.after, hs⟩
    · obtain ⟨d, hget, hs⟩ := h.completions x hmem
      by_cases hx : x = k
      · subst hx
        rw [hm.before, Option.some.injEq] at hget
        subst hget
        exact ⟨c', hm.after, hreleased hs⟩
      · exact ⟨d, (hm.others x hx).trans hget, hs⟩

theorem Recovers.not_active (h : Recovers db request c) : c.state ≠ .active := by
  intro hactive
  rcases h.state with hs | ⟨hs, -⟩ <;> rw [hactive] at hs <;> cases hs

theorem Recorded.renew {store : NativeOrdinaryAuthorityStore} {request : NativeHostClaimRenewalRequest} {now : Int}
    {db db' : AuthorityDatabase} {answers : List LeaseAnswer} {answer : Option NativeHostClaimRenewal}
    (h : Recorded db answers) (hr : LeaseStore.renew (AuthorityStore.leaseStore store) request now db = .ok (answer, db')) :
    Recorded db' ((Transaction.renew request now).answers store db ++ answers) := by
  simp only [Transaction.answers, hr]
  rcases LeaseStore.renew_cases hr with ⟨rfl, rfl, -⟩ | ⟨c, hexact, hactive, -, hgranted⟩
  · exact h
  obtain ⟨hget, -⟩ := LeaseStore.exactClaim_some hexact
  rcases hgranted with ⟨hlast, rfl, rfl⟩ | ⟨-, hmoves, rfl⟩
  · -- a repeated renewal is the last one already
    refine ⟨?_, ?_, ?_⟩
    · intro k
      have hk := h.renewals k
      simp only [List.singleton_append, lastRenewal]
      split
      · rename_i hsame
        rw [← hsame, hget]
        exact hlast
      · exact hk
    · intro request' issuance hmem
      exact h.recoveries request' issuance (by simpa using hmem)
    · intro k hmem
      exact h.completions k (by simpa using hmem)
  · refine h.move hmoves ?_ ?_ ?_ ?_ ?_ ?_
    · simp [lastRenewal]
    · intro x hx
      simp [lastRenewal, Ne.symm hx]
    · rintro _ _ ⟨⟩
    · rintro _ ⟨⟩
    · intro _ _ hrecovers
      exact absurd hactive hrecovers.not_active
    · intro hreleased
      rw [hactive] at hreleased
      cases hreleased

variable {now : Int}

theorem Recorded.prepareRecovery {store : NativeOrdinaryAuthorityStore} {answer : NativeRecoveryPreparation}
    (h : Recorded db answers)
    (hr : LeaseStore.prepareRecovery (AuthorityStore.leaseStore store) request now db = .ok (answer, db')) :
    Recorded db' ((Transaction.prepareRecovery request now).answers store db ++ answers) := by
  simp only [Transaction.answers, hr]
  rcases LeaseStore.prepareRecovery_cases hr with ⟨hrefused, rfl⟩ | ⟨c, hexact, rfl, hresource, hprepared⟩
  · split
    · rename_i hpending
      cases hpending
      exact absurd rfl (hrefused _)
    · exact h
  dsimp only [List.singleton_append]
  obtain ⟨hget, -⟩ := LeaseStore.exactClaim_some hexact
  have hlast : c.renewalRequestId = lastRenewal request.claimId answers := by
    rw [← h.renewals request.claimId, hget, Option.bind_some]
  rcases hprepared with ⟨hmoves, hfrom⟩ | ⟨rfl, hrecovering, hid, hresourceId⟩
  · refine h.move hmoves hlast (fun _ _ => rfl) ?_ ?_ ?_ ?_
    · rintro _ _ ⟨⟩
      exact ⟨⟨exactClaim_of_identity hexact hmoves.after hmoves.identity, rfl, rfl, hresource, Or.inl rfl⟩, rfl⟩
    · rintro _ ⟨⟩
    · -- an older recovery would be stored
      intro request' _ hrecovers
      rcases hfrom with hactive | ⟨-, hnone⟩
      · exact absurd hactive hrecovers.not_active
      · have hid := hrecovers.requestId
        rw [hnone] at hid
        cases hid
    · intro hreleased
      rcases hfrom with hactive | ⟨hrecovering, -⟩
      · rw [hactive] at hreleased
        cases hreleased
      · rw [hrecovering] at hreleased
        cases hreleased
  · refine ⟨h.renewals, ?_, ?_⟩
    · intro request' issuance hmem
      rcases List.mem_cons.mp hmem with hnew | hmem
      · cases hnew
        exact ⟨c, ⟨hexact, hid, hresourceId, hresource, Or.inl hrecovering⟩, rfl⟩
      · exact h.recoveries request' issuance hmem
    · intro k hmem
      exact h.completions k (by simpa using hmem)

theorem Recorded.completeRecovery {store : NativeOrdinaryAuthorityStore} {proof : NativeJobAttemptRevocation}
    {answer : Bool} (h : Recorded db answers)
    (hr : LeaseStore.completeRecovery (AuthorityStore.leaseStore store) request proof now db = .ok (answer, db')) :
    Recorded db' ((Transaction.completeRecovery request proof now).answers store db ++ answers) := by
  simp only [Transaction.answers, hr]
  rcases LeaseStore.completeRecovery_cases hr with ⟨rfl, rfl⟩ | ⟨rfl, c, hexact, -, -, -, hmoves, -, -⟩
  · exact h
  obtain ⟨hget, -⟩ := LeaseStore.exactClaim_some hexact
  refine h.move hmoves ?_ (fun _ _ => rfl) ?_ ?_ ?_ (fun _ => rfl)
  · show c.renewalRequestId = lastRenewal request.claimId answers
    rw [← h.renewals request.claimId, hget, Option.bind_some]
  · rintro _ _ ⟨⟩
  · rintro _ ⟨⟩
    exact ⟨rfl, rfl⟩
  · intro request' hk hrecovers
    exact hrecovers.follow (hk ▸ hmoves.after) hmoves.identity rfl rfl (Or.inr ⟨rfl, rfl⟩)

section
variable [Sha256]

/-- A transaction that throws is rolled back and answers nothing. -/
theorem Transaction.answers_of_error {store : NativeOrdinaryAuthorityStore} {t : Transaction} {db : AuthorityDatabase}
    {e : AuthorityError} (h : t.body store db = .error e) : t.answers store db = [] := by
  cases t <;> simp only [Transaction.body] at h <;> simp only [Transaction.answers]
  case renew request now =>
    cases hr : LeaseStore.renew (AuthorityStore.leaseStore store) request now db with
    | error _ => rfl
    | ok answer =>
      rw [hr] at h
      cases h
  case prepareRecovery request now =>
    cases hr : LeaseStore.prepareRecovery (AuthorityStore.leaseStore store) request now db with
    | error _ => rfl
    | ok answer =>
      rw [hr] at h
      cases h
  case completeRecovery request proof now =>
    cases hr : LeaseStore.completeRecovery (AuthorityStore.leaseStore store) request proof now db with
    | error _ => rfl
    | ok answer =>
      rw [hr] at h
      cases h

theorem Recorded.run {store : NativeOrdinaryAuthorityStore} {t : Transaction} {db : AuthorityDatabase}
    {answers : List LeaseAnswer} (h : Recorded db answers) :
    Recorded (t.run store db) (t.answers store db ++ answers) := by
  cases hbody : t.body store db with
  | error e =>
    rw [Transaction.answers_of_error hbody, List.nil_append]
    simpa only [Transaction.run, hbody] using h
  | ok db' =>
    have hrun : t.run store db = db' := by simp only [Transaction.run, hbody]
    rw [hrun]
    cases t
    case renew =>
      obtain ⟨⟨answer, _⟩, hr, rfl⟩ := map_ok.mp hbody
      exact h.renew hr
    case prepareRecovery =>
      obtain ⟨⟨answer, _⟩, hr, rfl⟩ := map_ok.mp hbody
      exact h.prepareRecovery hr
    case completeRecovery =>
      obtain ⟨⟨answer, _⟩, hr, rfl⟩ := map_ok.mp hbody
      exact h.completeRecovery hr
    all_goals exact h.carry (Transaction.body_carries rfl hbody)

theorem LeaseRecord.Reachable.recorded {s : LeaseRecord} (h : s.Reachable) : Recorded s.authority.db s.answers := by
  refine Transition.Reachable.invariant (I := fun s => Recorded s.authority.db s.answers) ?_ ?_ h
  · rintro s ⟨⟨hdb, -⟩, hanswers⟩
    rw [hdb, hanswers]
    exact .empty
  · intro s s' hr hs
    cases hs with
    | tick => exact hr
    | start store hstart => exact hr.carry ((AuthorityStore.beginEpochAndExpire_writes hstart).carries rfl)
    | run store t => exact hr.run

end

/-! ## Requests that come again -/

/-- A renewal that leaves the lease where it is and is answered no more than what remains of it. -/
def RenewalRepeats (options : LeaseStoreOptions) (request : NativeHostClaimRenewalRequest) (now : Int)
    (db : AuthorityDatabase) : Prop :=
  leaseOf (transaction (LeaseStore.renew options request now) db).2 request.claimId = leaseOf db request.claimId ∧
    ∀ renewal, (transaction (LeaseStore.renew options request now) db).1 = .ok (some renewal) →
      ∀ lease ∈ leaseOf db request.claimId, renewal.leaseDurationMilliseconds ≤ lease - now

/-- The transaction answers so and changes nothing; an instance whose epoch ended answers nobody. -/
def Unmoved {α : Type} (options : LeaseStoreOptions) (db : AuthorityDatabase)
    (body : AuthorityDatabase → Except AuthorityError (α × AuthorityDatabase)) (P : α → Prop) : Prop :=
  if db.ownsActiveEpoch options.ownedEpochId then ∃ answer, body db = .ok (answer, db) ∧ P answer
  else body db = .error .staleAuthority

variable {options : LeaseStoreOptions}

theorem Unmoved.imp {α : Type}
    {body : AuthorityDatabase → Except AuthorityError (α × AuthorityDatabase)} {P Q : α → Prop}
    (h : Unmoved options db body P) (hPQ : ∀ answer, P answer → Q answer) : Unmoved options db body Q := by
  unfold Unmoved at h ⊢
  split
  · rename_i howned
    rw [if_pos howned] at h
    obtain ⟨answer, hbody, hP⟩ := h
    exact ⟨answer, hbody, hPQ answer hP⟩
  · rename_i howned
    rwa [if_neg howned] at h

theorem lease_positive {k : String} (h : db.claims.get? k = some c) :
    0 < c.leaseExpiresAt := by
  have hchecked := db.claims.checked c (Table.get?_mem h)
  simp only [Schema.check, Bool.and_eq_true, decide_eq_true_eq] at hchecked
  exact hchecked.1.1.1

namespace LeaseStore

/-- A new renewal succeeds when the lease it writes is positive. -/
theorem renew_granted {options : LeaseStoreOptions} {request : NativeHostClaimRenewalRequest} {now : Int}
    {db : AuthorityDatabase} {c : Claim} (howned : db.ownsActiveEpoch options.ownedEpochId = true)
    (hexact : exactClaim request db = some c) (hactive : c.state = .active)
    (hepoch : c.serviceEpochId = options.ownedEpochId) (hlease : now < c.leaseExpiresAt)
    (hnew : c.renewalRequestId ≠ some request.requestId) (hpositive : 0 < now + options.claimLeaseMilliseconds) :
    ∃ answer db', renew options request now db = .ok (answer, db') := by
  obtain ⟨hget, -⟩ := exactClaim_some hexact
  have hchecked := db.claims.checked c (Table.get?_mem hget)
  obtain ⟨claims, hu⟩ := Table.update_one_of (ε := AuthorityError) (t := db.claims) (r := c)
    (p := fun c => decide (c.claimId = request.claimId))
    (f := fun c => { c with leaseExpiresAt := now + options.claimLeaseMilliseconds,
                            renewalRequestId := some request.requestId })
    (by
      intro c' hc' hp
      have hsame := Table.get?_of_mem hc'
      rw [Claim.key_eq, (by simpa using hp : c'.claimId = request.claimId), hget, Option.some.injEq] at hsame
      exact hsame.symm)
    (by
      simp only [Schema.check, Bool.and_eq_true, decide_eq_true_eq] at hchecked ⊢
      exact ⟨⟨⟨hpositive, hchecked.1.1.2⟩, hchecked.1.2⟩, hchecked.2⟩)
    (fun _ _ hconflict => hconflict)
  have hlive : ¬ (c.state ≠ .active ∨ c.serviceEpochId ≠ options.ownedEpochId ∨ c.leaseExpiresAt ≤ now) := by
    simp only [not_or, ne_eq, not_not, not_le]
    exact ⟨hactive, hepoch, hlease⟩
  refine ⟨some (renewal options request (now + options.claimLeaseMilliseconds) options.claimLeaseMilliseconds),
    { db with claims }, ?_⟩
  simp only [renew, bind_ok]
  refine ⟨(), assertOwnedEpoch_of howned, ?_⟩
  simp only [hexact]
  rw [if_neg hlive, if_neg hnew, hu]
  rfl

end LeaseStore

/-- The answer to a request that comes again depends on the last renewal that was granted. -/
theorem renewal_repeats_iff {request : NativeHostClaimRenewalRequest} (h : Recorded db answers)
    (hpositive : LeaseStore.Renewable options request now db → 0 < now + options.claimLeaseMilliseconds) :
    RenewalRepeats options request now db ↔
      (db.ownsActiveEpoch options.ownedEpochId = true → LeaseStore.Renewable options request now db →
        lastRenewal request.claimId answers = some request.requestId ∨
          leaseOf db request.claimId = some (now + options.claimLeaseMilliseconds)) := by
  constructor
  · rintro ⟨hkept, -⟩ howned hrenewable
    obtain ⟨c, hexact, hactive, hepoch, hlease⟩ := hrenewable
    obtain ⟨hget, -⟩ := LeaseStore.exactClaim_some hexact
    have hlast := h.renewals request.claimId
    rw [hget, Option.bind_some] at hlast
    by_cases hstored : c.renewalRequestId = some request.requestId
    · exact Or.inl (hlast.symm.trans hstored)
    refine Or.inr ?_
    obtain ⟨answer, db', hr⟩ := LeaseStore.renew_granted howned hexact hactive hepoch hlease hstored
      (hpositive ⟨c, hexact, hactive, hepoch, hlease⟩)
    rw [transaction_ok hr] at hkept
    rcases LeaseStore.renew_cases hr with ⟨-, -, hnot⟩ | ⟨c', hexact', -, -, hgranted⟩
    · exact absurd ⟨c, hexact, hactive, hepoch, hlease⟩ hnot
    rw [hexact, Option.some.injEq] at hexact'
    subst hexact'
    rcases hgranted with ⟨hsame, -⟩ | ⟨-, hmoves, -⟩
    · exact absurd hsame hstored
    · rw [← hkept, leaseOf, hmoves.after]
      rfl
  · intro hcond
    cases hr : LeaseStore.renew options request now db with
    | error e =>
      have hout : transaction (LeaseStore.renew options request now) db = (.error e, db) := by simp [transaction, hr]
      refine ⟨by rw [hout], ?_⟩
      intro renewal hanswer
      rw [hout] at hanswer
      cases hanswer
    | ok out =>
      obtain ⟨answer, db'⟩ := out
      have howned : db.ownsActiveEpoch options.ownedEpochId = true := by
        by_contra hnot
        rw [LeaseStore.renew, LeaseStore.assertOwnedEpoch_error (by simpa using hnot)] at hr
        cases hr
      unfold RenewalRepeats
      rw [transaction_ok hr]
      rcases LeaseStore.renew_cases hr with ⟨rfl, rfl, -⟩ | ⟨c, hexact, hactive, hrenewable, hgranted⟩
      · exact ⟨rfl, fun renewal hanswer => by cases hanswer⟩
      obtain ⟨hget, -⟩ := LeaseStore.exactClaim_some hexact
      have hlease : leaseOf db request.claimId = some c.leaseExpiresAt := by rw [leaseOf, hget, Option.map_some]
      rcases hgranted with ⟨-, rfl, rfl⟩ | ⟨hnew, hmoves, rfl⟩
      · refine ⟨rfl, ?_⟩
        rintro renewal ⟨⟩ lease hmem
        rw [hlease, Option.mem_some_iff] at hmem
        subst hmem
        exact le_refl _
      · rcases hcond howned hrenewable with hlast | hsame
        · -- the row remembers the last renewal
          have hstored := h.renewals request.claimId
          rw [hget, Option.bind_some, hlast] at hstored
          exact absurd hstored hnew
        · refine ⟨by rw [hsame, leaseOf, hmoves.after]; rfl, ?_⟩
          rintro renewal ⟨⟩ lease hmem
          rw [hsame, Option.mem_some_iff] at hmem
          subst hmem
          simp only [LeaseStore.renewal]
          omega

theorem LeaseStore.hasFence_of {request : NativeHostClaimRenewalRequest}
    (hcoherent : Coherent db) (hexact : exactClaim request db = some c) (hs : c.state = .recovering) :
    hasFence request db = true := by
  obtain ⟨hget, hhost, hcapacity, -⟩ := exactClaim_some hexact
  obtain ⟨f, hf, hk⟩ := hcoherent.fence hget hs
  rw [hhost, hcapacity] at hf
  simp [hasFence, hf, hk]

/-- A recovery request that is stored finds what it stored. -/
theorem prepareRecovery_repeats (hcoherent : Coherent db) (h : Recovers db request c) :
    Unmoved options db (LeaseStore.prepareRecovery options request now) fun answer =>
      answer = .pending c.issuance ∧ c.state = .recovering ∨ answer = .released ∧ c.state = .released := by
  unfold Unmoved
  split
  · rename_i howned
    simp only [LeaseStore.prepareRecovery, bind_ok]
    rcases h.state with hs | ⟨hs, hrevoked⟩
    · refine ⟨.pending c.issuance, ⟨(), LeaseStore.assertOwnedEpoch_of howned, ?_⟩, Or.inl ⟨rfl, hs⟩⟩
      have hfence := LeaseStore.hasFence_of hcoherent h.exact hs
      simp only [h.exact, ne_eq, h.resource, not_true_eq_false, if_false, hs, h.requestId, h.resourceId, hfence]
      simp [pure, Except.pure]
    · refine ⟨.released, ⟨(), LeaseStore.assertOwnedEpoch_of howned, ?_⟩, Or.inr ⟨rfl, hs⟩⟩
      simp only [h.exact, ne_eq, h.resource, not_true_eq_false, if_false, hs, h.requestId, h.resourceId, hrevoked]
      simp [pure, Except.pure]
  · rename_i howned
    rw [LeaseStore.prepareRecovery, LeaseStore.assertOwnedEpoch_error (by simpa using howned)]
    rfl

/-- A recovering claim refuses every request but the one it stores. -/
theorem recovering_refuses {stored : String} (hget : db.claims.get? request.claimId = some c)
    (hs : c.state = .recovering) (hstored : c.recoveryRequestId = some stored) (hne : request.requestId ≠ stored) :
    Unmoved options db (LeaseStore.renew options request.toNativeHostClaimRenewalRequest now) (· = none) ∧
      Unmoved options db (LeaseStore.prepareRecovery options request now) (· = .conflict) ∧
      ∀ proof, Unmoved options db (LeaseStore.completeRecovery options request proof now) (· = false) := by
  unfold Unmoved
  split
  · rename_i howned
    have hassert := LeaseStore.assertOwnedEpoch_of howned
    cases hexact : LeaseStore.exactClaim request.toNativeHostClaimRenewalRequest db with
    | none =>
      refine ⟨⟨none, ?_, rfl⟩, ⟨.conflict, ?_, rfl⟩, fun proof => ⟨false, ?_, rfl⟩⟩
      · simp only [LeaseStore.renew, bind_ok]
        exact ⟨(), hassert, by rw [hexact]; rfl⟩
      · simp only [LeaseStore.prepareRecovery, bind_ok]
        exact ⟨(), hassert, by rw [hexact]; rfl⟩
      · simp only [LeaseStore.completeRecovery, bind_ok]
        exact ⟨(), hassert, by rw [hexact]; rfl⟩
    | some c' =>
      obtain rfl : c = c' := Option.some.inj (hget.symm.trans (LeaseStore.exactClaim_some hexact).1)
      refine ⟨⟨none, ?_, rfl⟩, ⟨.conflict, ?_, rfl⟩, fun proof => ⟨false, ?_, rfl⟩⟩
      · simp only [LeaseStore.renew, bind_ok]
        refine ⟨(), hassert, ?_⟩
        simp only [hexact, hs]
        rfl
      · simp only [LeaseStore.prepareRecovery, bind_ok]
        refine ⟨(), hassert, ?_⟩
        simp only [hexact]
        split
        · rfl
        · simp only [hs, hstored, Option.any_some, ne_eq, Ne.symm hne, not_false_eq_true, decide_true, true_or, if_true]
          rfl
      · simp only [LeaseStore.completeRecovery, bind_ok]
        refine ⟨(), hassert, ?_⟩
        simp only [hexact, hs, hstored, Option.some.injEq, ne_eq, Ne.symm hne, not_false_eq_true, true_or, or_true,
          if_true]
        rfl
  · rename_i howned
    have hassert : assertOwnedEpoch options.ownedEpochId db = .error .staleAuthority :=
      LeaseStore.assertOwnedEpoch_error (by simpa using howned)
    refine ⟨?_, ?_, fun proof => ?_⟩
    · rw [LeaseStore.renew, hassert]
      rfl
    · rw [LeaseStore.prepareRecovery, hassert]
      rfl
    · rw [LeaseStore.completeRecovery, hassert]
      rfl

/-- A recovery that completes takes the fence of its claim away, no other, and the slot is free. -/
theorem completeRecovery_frees [Sha256] {proof : NativeJobAttemptRevocation} (hcoherent : Coherent db)
    (h : LeaseStore.completeRecovery options request proof now db = .ok (true, db')) :
    (∃ f, db.capacityFences.get? (request.hostId, request.capacity) = some f ∧ f.claimId = request.claimId) ∧
      db'.capacityFences.rows = db.capacityFences.rows.filter (·.claimId ≠ request.claimId) ∧
      ClaimStore.slotOccupied request.hostId request.capacity db' = false ∧
      (db'.claims.get? request.claimId).map (·.state) = some .released := by
  have hcoherent' := ((completeRecovery_writes h).refines hcoherent).1
  rcases LeaseStore.completeRecovery_cases h with ⟨hfalse, -⟩ | ⟨-, c, hexact, hs, -, -, hmoves, hreceipts, hfences⟩
  · cases hfalse
  obtain ⟨hget, hhost, hcapacity, -⟩ := LeaseStore.exactClaim_some hexact
  obtain ⟨f, hf, hk⟩ := hcoherent.fence hget hs
  rw [hhost, hcapacity] at hf
  refine ⟨⟨f, hf, hk⟩, ?_, ?_, ?_⟩
  · rw [hfences]
    simp [Table.delete]
  · rw [ClaimStore.slotOccupied, Bool.or_eq_false_iff]
    constructor
    · rw [Table.any_eq_false]
      intro r' hr'
      by_contra hheld
      simp only [Bool.not_eq_false, Bool.and_eq_true, decide_eq_true_eq] at hheld
      obtain ⟨⟨hrhost, hrcapacity⟩, hrheld⟩ := hheld
      have hget' := Table.get?_of_mem hr'
      rw [ClaimReceipt.key_eq] at hget'
      by_cases hrk : r'.claimId = request.claimId
      · -- the receipt of the claim itself is released
        obtain ⟨s, hv, hclaim⟩ := hcoherent'.stage_of_claim hmoves.after
        have hreceipt : s.view.receipt = some r'.state := by
          rw [← hv]
          simp [view, ← hrk, hget']
        cases s <;> simp [Stage.view, LeaseStore.releasedBy] at hclaim hreceipt <;> rw [← hreceipt] at hrheld <;>
          cases hrheld
      · -- any other held receipt of the slot was there next to the recovering claim
        rw [hreceipts _ hrk] at hget'
        obtain ⟨r, hr, hh, hcap, -⟩ := hcoherent.receipt hget
        obtain ⟨s, hv, hreceipt⟩ := hcoherent.stage_of_receipt hr
        rw [hcoherent.recovering_of_claim hget hs] at hv
        rw [← Stage.view_injective hv, Stage.view, Option.some.injEq] at hreceipt
        refine hrk ((hcoherent.slots r' (Table.get?_mem hget') r (Table.get?_mem hr) hrheld ?_ ?_ ?_).trans
          (Table.get?_key hr))
        · rw [← hreceipt]
          rfl
        · rw [hh, hhost, hrhost]
        · rw [hcap, hcapacity, hrcapacity]
    · rw [hfences, Table.get?_delete, hf]
      simp [Option.filter, hk]
  · rw [hmoves.after]
    rfl

section
variable [Sha256]

/-- A renewal of the record that is granted again is a new lease, unless the claim's last renewal was it
or the lease would end at the same instant. Whatever else comes again finds what was stored: the
recovery that was answered is answered again, a recovering claim refuses any other request, and a
completed recovery frees its slot once. -/
theorem lease_requests_idempotent {s : LeaseRecord} (h : s.Reachable) {store : NativeOrdinaryAuthorityStore}
    (hs : store ∈ s.authority.instances) :
    (∀ request : NativeHostClaimRenewalRequest, .renewed request.claimId request.requestId ∈ s.answers →
      (RenewalRepeats (AuthorityStore.leaseStore store) request s.authority.clock s.authority.db ↔
        (s.authority.db.ownsActiveEpoch store.ownedEpochId = true →
          LeaseStore.Renewable (AuthorityStore.leaseStore store) request s.authority.clock s.authority.db →
            lastRenewal request.claimId s.answers = some request.requestId ∨
              leaseOf s.authority.db request.claimId = some (s.authority.clock + store.claimLeaseMilliseconds)))) ∧
    (∀ answer db', AuthorityStore.expire store s.authority.clock s.authority.db = .ok (answer, db') →
      ∀ claimId, leaseOf db' claimId = leaseOf s.authority.db claimId) ∧
    (∀ request issuance, .prepared request issuance ∈ s.answers →
      Unmoved (AuthorityStore.leaseStore store) s.authority.db
        (LeaseStore.prepareRecovery (AuthorityStore.leaseStore store) request s.authority.clock) fun answer =>
          answer = .pending issuance ∨ answer = .released) ∧
    (∀ (request : NativeHostRecoveryRequest) (c : Claim) (stored : String),
      s.authority.db.claims.get? request.claimId = some c → c.state = .recovering →
      c.recoveryRequestId = some stored → request.requestId ≠ stored →
        Unmoved (AuthorityStore.leaseStore store) s.authority.db (LeaseStore.renew (AuthorityStore.leaseStore store)
          request.toNativeHostClaimRenewalRequest s.authority.clock) (· = none) ∧
        Unmoved (AuthorityStore.leaseStore store) s.authority.db
          (LeaseStore.prepareRecovery (AuthorityStore.leaseStore store) request s.authority.clock) (· = .conflict) ∧
        ∀ proof, Unmoved (AuthorityStore.leaseStore store) s.authority.db
          (LeaseStore.completeRecovery (AuthorityStore.leaseStore store) request proof s.authority.clock) (· = false)) ∧
    (∀ request proof db', LeaseStore.completeRecovery (AuthorityStore.leaseStore store) request proof s.authority.clock
        s.authority.db = .ok (true, db') →
      .completed request.claimId ∉ s.answers ∧
      (∃ f, s.authority.db.capacityFences.get? (request.hostId, request.capacity) = some f ∧
        f.claimId = request.claimId) ∧
      db'.capacityFences.rows = s.authority.db.capacityFences.rows.filter (·.claimId ≠ request.claimId) ∧
      ClaimStore.slotOccupied request.hostId request.capacity db' = false ∧
      (db'.claims.get? request.claimId).map (·.state) = some .released) ∧
    ∀ claimId, .completed claimId ∈ s.answers → ∀ f ∈ s.authority.db.capacityFences.rows, f.claimId ≠ claimId := by
  have hrecorded := h.recorded
  have hcoherent := coherent_of_reachable h.authority.database
  refine ⟨?_, ?_, ?_, ?_, ?_, ?_⟩
  · intro request _
    refine renewal_repeats_iff hrecorded ?_
    -- the stored lease is positive, and no longer than one that starts now
    rintro ⟨c, hexact, -, hepoch, -⟩
    obtain ⟨hget, -⟩ := LeaseStore.exactClaim_some hexact
    obtain ⟨owner, howner, hown, hle⟩ := h.authority.owned.claims _ c hget
    obtain rfl := h.authority.owned.single store hs owner howner (hown.symm.trans hepoch)
    have hpositive := lease_positive hget
    exact lt_of_lt_of_le hpositive hle
  · intro answer db' hexpire claimId
    have hterms := congrArg (Option.map Prod.snd) ((AuthorityStore.expire_writes hexpire).effect.terms rfl claimId)
    rwa [Option.map_map, Option.map_map] at hterms
  · intro request issuance hmem
    obtain ⟨c, hrecovers, rfl⟩ := hrecorded.recoveries request issuance hmem
    refine (prepareRecovery_repeats hcoherent hrecovers).imp ?_
    rintro answer (⟨ha, -⟩ | ⟨ha, -⟩)
    · exact Or.inl ha
    · exact Or.inr ha
  · intro request c stored hget hrecovering hstored hne
    exact recovering_refuses hget hrecovering hstored hne
  · intro request proof db' hcomplete
    refine ⟨?_, completeRecovery_frees hcoherent hcomplete⟩
    intro hmem
    obtain ⟨c, hget, hreleased⟩ := hrecorded.completions _ hmem
    rcases LeaseStore.completeRecovery_cases hcomplete with ⟨hfalse, -⟩ | ⟨-, c', hexact, hs', -⟩
    · cases hfalse
    · rw [(LeaseStore.exactClaim_some hexact).1, Option.some.injEq] at hget
      subst hget
      rw [hreleased] at hs'
      cases hs'
  · rintro claimId hmem f hf rfl
    obtain ⟨c, hget, hreleased⟩ := hrecorded.completions _ hmem
    have hview := hcoherent.recovering_of_fenced (Table.any_eq_true.mpr ⟨f, hf, decide_eq_true rfl⟩)
    have hclaim := congrArg View.claim hview
    simp [view, Stage.view, hget, hreleased] at hclaim

end

namespace Sample

attribute [local instance] sha256

/-- One renewal, at an instant. -/
theorem renewal_record {db : AuthorityDatabase} {clock : Int} {answers : List LeaseAnswer}
    (h : LeaseRecord.Reachable { authority := { db, instances := [store], clock }, answers })
    (request : NativeHostClaimRenewalRequest) (clock' : Int) (hle : clock ≤ clock') :
    LeaseRecord.Reachable
      { authority := { db := (Transaction.renew request clock').run store db, instances := [store], clock := clock' },
        answers := (Transaction.renew request clock').answers store db ++ answers } :=
  .step (.step h (.tick clock' hle)) (.run store _ (List.mem_singleton.mpr rfl) (by simp [Transaction.reading]))

theorem record_later {db : AuthorityDatabase} {clock : Int} {answers : List LeaseAnswer}
    (h : LeaseRecord.Reachable { authority := { db, instances := [store], clock }, answers }) (clock' : Int)
    (hle : clock ≤ clock') :
    LeaseRecord.Reachable { authority := { db, instances := [store], clock := clock' }, answers } :=
  .step h (.tick clock' hle)

/-- The record of one renewal of the active claim, at 6. -/
theorem renewed_record : ∃ answers, LeaseRecord.Reachable
    { authority := { db := renewed, instances := [store], clock := 6 },
      answers := .renewed sentRenewal.request.claimId sentRenewal.request.requestId :: answers } := by
  obtain ⟨answers, h⟩ := LeaseRecord.reachable_of_authority active_at
  have hrenewed := renewal_record h sentRenewal.request 6 (by decide)
  have hanswers : (Transaction.renew sentRenewal.request 6).answers store active =
      [.renewed sentRenewal.request.claimId sentRenewal.request.requestId] := by
    simp only [Transaction.answers, renew_answers]
  rw [hanswers] at hrenewed
  exact ⟨answers, hrenewed⟩

/-- A second renewal of the claim, at 20. -/
def secondRenewal : NativeHostClaimRenewalRequest := renewalRequest hostClaim "renewal-2"

def twice : AuthorityDatabase := (Transaction.renew secondRenewal 20).run store renewed

theorem twice_record : ∃ answers, .renewed sentRenewal.request.claimId sentRenewal.request.requestId ∈ answers ∧
    LeaseRecord.Reachable { authority := { db := twice, instances := [store], clock := 50 }, answers } := by
  obtain ⟨answers, h⟩ := renewed_record
  have hrenewed := renewal_record h secondRenewal 20 (by decide)
  rw [← twice] at hrenewed
  exact ⟨_, List.mem_append_right _ List.mem_cons_self, record_later hrenewed 50 (by decide)⟩

end Sample

theorem lease_requests_idempotent_sample :
    RenewalRepeats (AuthorityStore.leaseStore Sample.store) Sample.sentRenewal.request 7 Sample.renewed := by
  obtain ⟨answers, h⟩ := Sample.renewed_record
  have hlater := Sample.record_later h 7 (by decide)
  generalize Sample.renewed = db at hlater ⊢
  have hrepeats := (@lease_requests_idempotent Sample.sha256 _ hlater Sample.store (List.mem_singleton.mpr rfl)).1
    Sample.sentRenewal.request List.mem_cons_self
  refine hrepeats.mpr fun _ _ => Or.inl ?_
  simp only [lastRenewal, if_true]

/-- The renewal of 6 comes again at 50, after another one of 20: the lease moves from 120 to 150. -/
theorem late_renewal_extends : ¬ ∀ (s : LeaseRecord), @LeaseRecord.Reachable Sample.sha256 s →
    ∀ store ∈ s.authority.instances, ∀ request : NativeHostClaimRenewalRequest,
      .renewed request.claimId request.requestId ∈ s.answers →
        RenewalRepeats (AuthorityStore.leaseStore store) request s.authority.clock s.authority.db := by
  intro hclaim
  obtain ⟨answers, hmem, h⟩ := Sample.twice_record
  have hbefore : leaseOf Sample.twice Sample.sentRenewal.request.claimId = some 120 := by decide +kernel
  have hafter : leaseOf (transaction (LeaseStore.renew (AuthorityStore.leaseStore Sample.store)
      Sample.sentRenewal.request 50) Sample.twice).2 Sample.sentRenewal.request.claimId = some 150 := by
    decide +kernel
  generalize Sample.twice = db at h hbefore hafter
  obtain ⟨hkept, -⟩ := hclaim _ h Sample.store (List.mem_singleton.mpr rfl) Sample.sentRenewal.request hmem
  dsimp only at hkept
  rw [hafter, hbefore] at hkept
  cases hkept

end Dim.Ordinary
