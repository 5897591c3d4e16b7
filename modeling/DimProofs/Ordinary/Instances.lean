/-
The instances that were started on one database, reading one clock. An epoch belongs to one instance,
so the lease of a claim is written with one lease time only; as the clock does not go back, a lease is
never shortened.
-/
import DimProofs.Ordinary.EpochFence

namespace Dim.Ordinary

open Relational

/-- The database, the instances that were started on it, and the clock that they read. -/
structure Authority where
  db : AuthorityDatabase
  instances : List NativeOrdinaryAuthorityStore
  clock : Int

/-- The reading of the clock that a transaction takes. -/
def Transaction.reading : Transaction → Option Int
  | .expire now | .admitPolicy _ _ now | .revoke _ _ _ now | .acceptEvent _ _ now | .reserve _ _ now
  | .activate _ _ _ now | .releaseStale _ _ now | .renew _ now | .prepareRecovery _ now | .completeRecovery _ _ now
  | .acceptResult _ _ now | .takeDue now | .retry _ now | .complete _ _ _ now => some now
  | .checkReplay _ => none

section
variable [Sha256]

/-- Time passes, an instance is started, or an instance that was started runs a transaction. -/
inductive Authority.Step : Authority → Authority → Prop
  | tick {a : Authority} (clock : Int) (h : a.clock ≤ clock) : Step a { a with clock }
  | start {a : Authority} {db' : AuthorityDatabase} (store : NativeOrdinaryAuthorityStore)
      (h : AuthorityStore.beginEpochAndExpire store a.clock a.db = .ok ((), db')) :
      Step a { a with db := db', instances := store :: a.instances }
  | run {a : Authority} (store : NativeOrdinaryAuthorityStore) (t : Transaction) (hs : store ∈ a.instances)
      (ht : ∀ now ∈ t.reading, now = a.clock) : Step a { a with db := t.run store a.db }

def Authority.Initial (a : Authority) : Prop := a.db = .empty ∧ a.instances = []

abbrev Authority.Reachable : Authority → Prop := Transition.Reachable Authority.Initial Authority.Step

theorem Authority.Step.database {a a' : Authority} (h : Authority.Step a a') :
    Relation.ReflTransGen Ordinary.Step a.db a'.db := by
  cases h with
  | tick => exact .refl
  | @start db' store h =>
    have hstart : Ordinary.start store a.clock a.db = db' := by simp only [Ordinary.start, h]
    exact .single (hstart ▸ Ordinary.Step.start store a.clock a.db)
  | run store t => exact .single (.run store t a.db)

theorem Authority.Reachable.database {a : Authority} (h : a.Reachable) : Ordinary.Reachable a.db := by
  refine Transition.Reachable.invariant (I := fun a => Ordinary.Reachable a.db) ?_
    (fun _ _ hr hs => hr.trans hs.database) h
  rintro _ ⟨hdb, -⟩
  exact .init hdb

/-! ## What a transaction does to the leases -/

omit [Sha256] in
/-- A claim keeps its lease, or the instance of its epoch makes or renews it. -/
def Leases (store : NativeOrdinaryAuthorityStore) (now : Int) (db db' : AuthorityDatabase) : Prop :=
  ∀ k c', db'.claims.get? k = some c' →
    (∃ c, db.claims.get? k = some c ∧ c'.identity = c.identity ∧ (c'.leaseExpiresAt = c.leaseExpiresAt ∨
      c'.serviceEpochId = store.ownedEpochId ∧ c'.leaseExpiresAt = now + store.claimLeaseMilliseconds)) ∨
    db.claims.get? k = none ∧ c'.serviceEpochId = store.ownedEpochId ∧
      c'.leaseExpiresAt = now + store.claimLeaseMilliseconds

variable {db db' : AuthorityDatabase} {now : Int} {store : NativeOrdinaryAuthorityStore}

omit [Sha256] in
theorem Leases.of_terms
    (h : ∀ k, (db'.claims.get? k).map Claim.terms = (db.claims.get? k).map Claim.terms) : Leases store now db db' := by
  intro k c' hc'
  have hk := h k
  rw [hc', Option.map_some] at hk
  obtain ⟨c, hc, he⟩ := Option.map_eq_some_iff.mp hk.symm
  simp only [Claim.terms, Prod.mk.injEq] at he
  exact Or.inl ⟨c, hc, he.1.symm, Or.inl he.2.symm⟩

theorem ClaimStore.activate_leases {request : NativeHostClaimRequest}
    {reservation : PreparingReservation} {proof : NativeClaimActivationProof}
    {answer : NativeClaimActivation} (h : ClaimStore.activate (AuthorityStore.claimStore store) request reservation proof
      now db = .ok (answer, db')) : Leases store now db db' := by
  cases activate_writes h with
  | refl => exact .of_terms fun _ => rfl
  | single h =>
    cases h with
    | fence hpart | settle hpart | withdraw hpart | restart hpart => cases hpart
    | activate _ hact h =>
      obtain ⟨-, -, -, hepoch⟩ := ClaimStore.activatable_some hact
      simp only [ClaimStore.insertActiveClaim, bind_ok, pure_ok] at h
      obtain ⟨-, -, claims, hcl, _, -, _, -, _, -, rfl⟩ := h
      intro k c' hc'
      rw [Table.get?_insert hcl] at hc'
      split at hc'
      · rename_i hk
        cases hc'
        exact Or.inr ⟨by rw [hk]; exact Table.get?_insert_fresh hcl, hepoch, rfl⟩
      · exact Or.inl ⟨c', hc', rfl, Or.inl rfl⟩

theorem LeaseStore.renew_leases {request : NativeHostClaimRenewalRequest}
    {answer : Option NativeHostClaimRenewal}
    (h : LeaseStore.renew (AuthorityStore.leaseStore store) request now db = .ok (answer, db')) :
    Leases store now db db' := by
  cases renew_writes h with
  | refl => exact .of_terms fun _ => rfl
  | single h =>
    cases h with
    | fence hpart | settle hpart | withdraw hpart | restart hpart => cases hpart
    | @renew _ request c _ claims hexact hepoch hcl =>
      intro k c' hc'
      by_cases hk : k = request.claimId
      · -- the claim of the request, whose epoch the instance owns
        subst hk
        obtain ⟨hget, -⟩ := LeaseStore.exactClaim_some hexact
        rw [Table.get?_update_self hcl (fun _ => rfl) hget (by simpa using Table.get?_key hget), Option.some.injEq] at hc'
        subst hc'
        exact Or.inl ⟨c, hget, rfl, Or.inr ⟨hepoch, rfl⟩⟩
      · rw [Table.get?_update_ne hcl (fun _ => rfl) (by simp) hk] at hc'
        exact Or.inl ⟨c', hc', rfl, Or.inl rfl⟩

theorem Transaction.body_leases {t : Transaction}
    (ht : ∀ reading ∈ t.reading, reading = now) (h : t.body store db = .ok db') :
    Leases store now db db' := by
  have heffect := Transaction.body_effect h
  cases t
  case activate =>
    obtain rfl := ht _ rfl
    obtain ⟨_, h₁, rfl⟩ := map_ok.mp h
    exact ClaimStore.activate_leases h₁
  case renew =>
    obtain rfl := ht _ rfl
    obtain ⟨_, h₁, rfl⟩ := map_ok.mp h
    exact LeaseStore.renew_leases h₁
  all_goals exact .of_terms (heffect.terms rfl)

/-! ## Every epoch has its instance -/

omit [Sha256] in
structure Authority.Owned (a : Authority) : Prop where
  known : ∀ store ∈ a.instances, (a.db.serviceEpochs.get? store.ownedEpochId).isSome = true
  single : ∀ store ∈ a.instances, ∀ store' ∈ a.instances, store'.ownedEpochId = store.ownedEpochId → store' = store
  claims : ∀ k c, a.db.claims.get? k = some c → ∃ store ∈ a.instances, c.serviceEpochId = store.ownedEpochId ∧
    c.leaseExpiresAt ≤ a.clock + store.claimLeaseMilliseconds

omit [Sha256] in
theorem Claim.terms_eq {c c' : Claim} (h : c'.identity = c.identity) : c'.serviceEpochId = c.serviceEpochId := by
  simp only [Claim.identity, Prod.mk.injEq] at h
  exact h.2.2.2.2.2.2.1

theorem Authority.Owned.step {a a' : Authority} (h : a.Owned) (hs : Authority.Step a a') : a'.Owned := by
  cases hs with
  | tick clock hclock =>
    refine ⟨h.known, h.single, ?_⟩
    intro k c hc
    obtain ⟨store, hstore, he, hle⟩ := h.claims k c hc
    exact ⟨store, hstore, he, by show c.leaseExpiresAt ≤ clock + _; omega⟩
  | @start db' store hstart =>
    obtain ⟨hnone, hsome, hother⟩ := beginEpochAndExpire_epochs hstart
    have hne : ∀ old ∈ a.instances, old.ownedEpochId ≠ store.ownedEpochId := by
      intro old hold he
      have hknown := h.known old hold
      rw [he, hnone] at hknown
      cases hknown
    refine ⟨?_, ?_, ?_⟩
    · intro s hs
      rcases List.mem_cons.mp hs with rfl | hs
      · exact hsome
      · show (db'.serviceEpochs.get? s.ownedEpochId).isSome = true
        rw [hother _ (hne s hs), Option.isSome_map]
        exact h.known s hs
    · intro s hs s' hs' he
      rcases List.mem_cons.mp hs with hnew | hold
      · rcases List.mem_cons.mp hs' with hnew' | hold'
        · rw [hnew, hnew']
        · exact absurd (hnew ▸ he) (hne s' hold')
      · rcases List.mem_cons.mp hs' with hnew' | hold'
        · exact absurd (hnew' ▸ he).symm (hne s hold)
        · exact h.single s hold s' hold' he
    · intro k c' hc'
      have hterms := (AuthorityStore.beginEpochAndExpire_writes hstart).effect.terms rfl k
      have hc'' : db'.claims.get? k = some c' := hc'
      rw [hc'', Option.map_some] at hterms
      obtain ⟨c, hc, he⟩ := Option.map_eq_some_iff.mp hterms.symm
      simp only [Claim.terms, Prod.mk.injEq] at he
      obtain ⟨owner, howner, hepoch, hle⟩ := h.claims k c hc
      exact ⟨owner, List.mem_cons_of_mem _ howner, (Claim.terms_eq he.1.symm).trans hepoch, he.2 ▸ hle⟩
  | run store t hstore hreading =>
    cases hbody : t.body store a.db with
    | error e =>
      have hrun : t.run store a.db = a.db := by simp only [Transaction.run, hbody]
      rw [hrun]
      exact h
    | ok db' =>
      have hrun : t.run store a.db = db' := by simp only [Transaction.run, hbody]
      rw [hrun]
      refine ⟨?_, h.single, ?_⟩
      · intro s hs
        show (db'.serviceEpochs.get? s.ownedEpochId).isSome = true
        rw [Transaction.body_epochs hbody]
        exact h.known s hs
      · intro k c' hc'
        rcases Transaction.body_leases hreading hbody k c' hc' with ⟨c, hc, hid, hlease⟩ | ⟨-, hepoch, hlease⟩
        · obtain ⟨owner, howner, hepoch, hle⟩ := h.claims k c hc
          rcases hlease with hlease | ⟨hepoch', hlease⟩
          · exact ⟨owner, howner, (Claim.terms_eq hid).trans hepoch, hlease ▸ hle⟩
          · exact ⟨store, hstore, hepoch', le_of_eq hlease⟩
        · exact ⟨store, hstore, hepoch, le_of_eq hlease⟩

theorem Authority.Reachable.owned {a : Authority} (h : a.Reachable) : a.Owned := by
  refine Transition.Reachable.invariant (I := Authority.Owned) ?_ (fun _ _ ho hs => ho.step hs) h
  rintro a ⟨hdb, hinstances⟩
  refine ⟨?_, ?_, ?_⟩
  · rw [hinstances]
    intro store hstore
    cases hstore
  · rw [hinstances]
    intro store hstore
    cases hstore
  · intro k c hc
    rw [hdb] at hc
    cases hc

/-! ## Leases are not shortened -/

/-- The lease of a claim, if the claim was made. -/
def leaseOf (db : AuthorityDatabase) (claimId : String) : Option Int := (db.claims.get? claimId).map (·.leaseExpiresAt)

theorem Authority.Step.leases_grow {a a' : Authority} (hreachable : a.Reachable) (hs : Authority.Step a a')
    {claimId : String} {lease : Int} (hlease : leaseOf a.db claimId = some lease) :
    ∃ lease', leaseOf a'.db claimId = some lease' ∧ lease ≤ lease' := by
  obtain ⟨c, hc, rfl⟩ := Option.map_eq_some_iff.mp hlease
  obtain ⟨-, hevolves⟩ := run_refines hs.database (coherent_of_reachable hreachable.database)
  obtain ⟨c', hc', hid⟩ := hevolves.claims claimId c hc
  refine ⟨c'.leaseExpiresAt, by simp [leaseOf, hc'], ?_⟩
  cases hs with
  | tick =>
    rw [show a.db.claims.get? claimId = some c' from hc', Option.some.injEq] at hc
    rw [hc]
  | @start db' store hstart =>
    have hterms := (AuthorityStore.beginEpochAndExpire_writes hstart).effect.terms rfl claimId
    rw [show db'.claims.get? claimId = some c' from hc', hc] at hterms
    simp only [Option.map_some, Option.some.injEq, Claim.terms, Prod.mk.injEq] at hterms
    omega
  | run store t hstore hreading =>
    have hget : (t.run store a.db).claims.get? claimId = some c' := hc'
    cases hbody : t.body store a.db with
    | error e =>
      have hrun : t.run store a.db = a.db := by simp only [Transaction.run, hbody]
      rw [hrun, hc, Option.some.injEq] at hget
      rw [hget]
    | ok db' =>
      have hrun : t.run store a.db = db' := by simp only [Transaction.run, hbody]
      rw [hrun] at hget
      rcases Transaction.body_leases hreading hbody claimId c' hget with ⟨c₀, hc₀, -, hkept⟩ | ⟨hnone, -, -⟩
      · rw [hc, Option.some.injEq] at hc₀
        subst hc₀
        rcases hkept with hkept | ⟨hepoch, hrenewed⟩
        · exact le_of_eq hkept.symm
        · -- the instance is the one whose lease time the lease was written with
          obtain ⟨owner, howner, hown, hle⟩ := hreachable.owned.claims claimId c hc
          have hsame : owner = store := hreachable.owned.single store hstore owner howner
            (hown.symm.trans ((Claim.terms_eq hid).symm.trans hepoch))
          rw [hsame] at hle
          omega
      · rw [hc] at hnone
        cases hnone

end

end Dim.Ordinary
