/-
What every transaction of the ordinary host authority leaves alone: a withdrawn admission stays
withdrawn, and only the intake of an event writes a replay fence or adds a demand.
-/
import DimProofs.Ordinary.Agreement

namespace Dim.Ordinary

open Relational

/-- What of a demand no operation changes. -/
def Demand.identity (d : Demand) : String × String × String × String :=
  (d.eventId, d.reviewId, d.jobName, d.admissionGeneration)

/-- A withdrawn admission is not granted again. -/
def NativeAdmission.Follows (a a' : NativeAdmission) : Prop := a.state ≠ .active → a'.state ≠ .active

theorem NativeAdmission.Follows.refl (a : NativeAdmission) : a.Follows a := id

/-- An admission that was granted and is not active any more. -/
def AuthorityDatabase.Withdrew (db : AuthorityDatabase) (generation : String) : Prop :=
  ∃ a, db.nativeAdmissions.get? generation = some a ∧ a.state ≠ .active

/-- A claim was there before, or is made under an admission that is not withdrawn. -/
def Claims (db db' : AuthorityDatabase) : Prop := ∀ k c', db'.claims.get? k = some c' →
  (∃ c, db.claims.get? k = some c ∧ c'.identity = c.identity) ∨ ¬ db.Withdrew c'.admissionGeneration

/-- The effect of every transaction but the two that take events in. -/
structure Keeps (db db' : AuthorityDatabase) : Prop where
  admissions : Table.Grows NativeAdmission.Follows db.nativeAdmissions db'.nativeAdmissions
  eventFences : db'.nativeEventReplayFences = db.nativeEventReplayFences
  tupleFences : db'.reviewJobReplayFences = db.reviewJobReplayFences
  demands : ∀ k, (db'.demands.get? k).map Demand.identity = (db.demands.get? k).map Demand.identity
  claims : Claims db db'

/-- What of a claim only its activation and its renewals write. -/
def Claim.terms (c : Claim) :
    (String × String × String × String × String × String × String × NativeJobAttemptIssuance) × Int :=
  (c.identity, c.leaseExpiresAt)

/-- What the groups of one part leave alone. -/
structure Effect (part : Part) (db db' : AuthorityDatabase) : Prop where
  epochs : part ≠ .start → db'.serviceEpochs = db.serviceEpochs
  admissions : part.expires = false → db'.nativeAdmissions = db.nativeAdmissions
  follows : Table.Grows NativeAdmission.Follows db.nativeAdmissions db'.nativeAdmissions
  eventFences : part ≠ .events → db'.nativeEventReplayFences = db.nativeEventReplayFences
  tupleFences : part ≠ .events → db'.reviewJobReplayFences = db.reviewJobReplayFences
  demands : part ≠ .events → ∀ k, (db'.demands.get? k).map Demand.identity = (db.demands.get? k).map Demand.identity
  terms : part.grants = false → ∀ k, (db'.claims.get? k).map Claim.terms = (db.claims.get? k).map Claim.terms
  claims : Claims db db'

variable {db db' : AuthorityDatabase}

theorem Claims.of_map
    (h : ∀ k, (db'.claims.get? k).map Claim.identity = (db.claims.get? k).map Claim.identity) : Claims db db' := by
  intro k c' hc'
  have hk := h k
  rw [hc', Option.map_some] at hk
  obtain ⟨c, hc, he⟩ := Option.map_eq_some_iff.mp hk.symm
  exact Or.inl ⟨c, hc, he.symm⟩

theorem withdrew_of_grows {generation : String}
    (h : Table.Grows NativeAdmission.Follows db.nativeAdmissions db'.nativeAdmissions) (hw : db.Withdrew generation) :
    db'.Withdrew generation := by
  obtain ⟨a, ha, hs⟩ := hw
  obtain ⟨a', ha', hf⟩ := h generation a ha
  exact ⟨a', ha', hf hs⟩

variable {db'' : AuthorityDatabase}

theorem Claims.trans (hg : Table.Grows NativeAdmission.Follows db.nativeAdmissions db'.nativeAdmissions)
    (h : Claims db db') (h' : Claims db' db'') : Claims db db'' := by
  intro k c'' hc''
  rcases h' k c'' hc'' with ⟨c', hc', he'⟩ | hnot
  · have hgen : c''.admissionGeneration = c'.admissionGeneration := by
      simp only [Claim.identity, Prod.mk.injEq] at he'
      exact he'.2.2.2.1
    rcases h k c' hc' with ⟨c, hc, he⟩ | hnot
    · exact Or.inl ⟨c, hc, he'.trans he⟩
    · exact Or.inr (hgen ▸ hnot)
  · exact Or.inr fun hw => hnot (withdrew_of_grows hg hw)

theorem Claims.of_terms (h : ∀ k, (db'.claims.get? k).map Claim.terms = (db.claims.get? k).map Claim.terms) :
    Claims db db' := by
  refine .of_map fun k => ?_
  have hk := congrArg (Option.map Prod.fst) (h k)
  rwa [Option.map_map, Option.map_map] at hk

variable {part : Part}

/-- A group that writes neither epochs nor admissions nor fences of events, and grants no lease. -/
theorem Effect.of_rows (he : db'.serviceEpochs = db.serviceEpochs) (ha : db'.nativeAdmissions = db.nativeAdmissions)
    (hf : db'.nativeEventReplayFences = db.nativeEventReplayFences)
    (ht : db'.reviewJobReplayFences = db.reviewJobReplayFences)
    (hd : ∀ k, (db'.demands.get? k).map Demand.identity = (db.demands.get? k).map Demand.identity)
    (hc : ∀ k, (db'.claims.get? k).map Claim.terms = (db.claims.get? k).map Claim.terms) : Effect part db db' :=
  ⟨fun _ => he, fun _ => ha, by rw [ha]; exact .refl .refl _, fun _ => hf, fun _ => ht, fun _ => hd, fun _ => hc,
    .of_terms hc⟩

theorem Effect.refl (db : AuthorityDatabase) : Effect part db db :=
  .of_rows rfl rfl rfl rfl (fun _ => rfl) fun _ => rfl

theorem Effect.trans (h : Effect part db db') (h' : Effect part db' db'') : Effect part db db'' where
  epochs hp := (h'.epochs hp).trans (h.epochs hp)
  admissions hp := (h'.admissions hp).trans (h.admissions hp)
  follows := h.follows.trans (fun _ _ _ h h' hs => h' (h hs)) h'.follows
  eventFences hp := (h'.eventFences hp).trans (h.eventFences hp)
  tupleFences hp := (h'.tupleFences hp).trans (h.tupleFences hp)
  demands hp k := (h'.demands hp k).trans (h.demands hp k)
  terms hp k := (h'.terms hp k).trans (h.terms hp k)
  claims := h.claims.trans h.follows h'.claims

theorem Effect.keeps (h : Effect part db db') (hpart : part ≠ .events) : Keeps db db' :=
  ⟨h.follows, h.eventFences hpart, h.tupleFences hpart, h.demands hpart, h.claims⟩

variable {p : Claim → Bool}

/-- An update of the claims that moves their states and recoveries. -/
theorem claims_update {f : Claim → Claim}
    (h : db.claims.update (ε := AuthorityError) p f = .ok db'.claims) (hk : ∀ c, (f c).claimId = c.claimId)
    (hf : ∀ c, (f c).terms = c.terms) (k : String) :
    (db'.claims.get? k).map Claim.terms = (db.claims.get? k).map Claim.terms :=
  Table.map_get?_update h hk _ hf k

/-- The same for the demands. -/
theorem demands_update {p : Demand → Bool} {f : Demand → Demand}
    (h : db.demands.update (ε := AuthorityError) p f = .ok db'.demands) (hk : ∀ d, (f d).demandId = d.demandId)
    (hf : ∀ d, (f d).identity = d.identity) (k : String) :
    (db'.demands.get? k).map Demand.identity = (db.demands.get? k).map Demand.identity :=
  Table.map_get?_update h hk _ hf k

/-- A claim is made under an admission that is active. -/
theorem activatable_granted {options : ClaimStoreOptions} {reservation : PreparingReservation}
    {proof : NativeClaimActivationProof} {now : Int} {r : ClaimReceipt} {d : String}
    (h : ClaimStore.activatable options reservation proof now r db = some d) :
    ¬ db.Withdrew reservation.admissionGeneration := by
  unfold ClaimStore.activatable at h
  split at h
  · cases h
  split at h
  · rename_i policy demandId hpolicy hdemand
    rintro ⟨a, ha, hs⟩
    unfold ClaimStore.currentPolicy at hpolicy
    rw [ha] at hpolicy
    simp [Option.filter, hs] at hpolicy
  · cases h

section
variable [Sha256] {now : Int}

theorem Write.effect (h : Write now part db db') : Effect part db db' := by
  have hcontra {P : Prop} (hp : true = false) : P := by cases hp
  cases h with
  | fence _ _ h =>
    simp only [fenceClaims, bind_ok, pure_ok] at h
    obtain ⟨_, -, _, hcl, rfl⟩ := h
    exact .of_rows rfl rfl rfl rfl (fun _ => rfl) (claims_update hcl (fun _ => rfl) fun _ => rfl)
  | settle _ _ h =>
    simp only [ResultStore.settle, bind_ok, pure_ok] at h
    obtain ⟨_, -, _, hcl, _, -, _, hd, _, -, rfl⟩ := h
    exact .of_rows rfl rfl rfl rfl (demands_update hd (fun _ => rfl) fun _ => rfl)
      (claims_update hcl (fun _ => rfl) fun _ => rfl)
  | withdraw hpart hs ha hd =>
    refine ⟨fun _ => rfl, fun hp => ?_, .update .refl ha (fun _ => rfl) fun _ _ _ _ => hs, fun _ => rfl, fun _ => rfl,
      fun _ => demands_update hd (fun _ => rfl) fun _ => rfl, fun _ _ => rfl, .of_map fun _ => rfl⟩
    rw [hpart] at hp
    cases hp
  | restart _ h =>
    simp only [fenceRestartedClaims, bind_ok, pure_ok] at h
    obtain ⟨_, hcl, _, -, rfl⟩ := h
    exact .of_rows rfl rfl rfl rfl (fun _ => rfl) (claims_update hcl (fun _ => rfl) fun _ => rfl)
  | endEpochs | beginEpoch =>
    exact ⟨fun hp => absurd rfl hp, fun _ => rfl, .refl .refl _, fun _ => rfl, fun _ => rfl, fun _ _ => rfl,
      fun _ _ => rfl, .of_map fun _ => rfl⟩
  | insertAdmission h =>
    simp only [AuthorityStore.insertAdmission, bind_ok, pure_ok] at h
    obtain ⟨_, ha, rfl⟩ := h
    exact ⟨fun _ => rfl, hcontra, .insert .refl ha, fun _ => rfl, fun _ => rfl, fun _ _ => rfl, fun _ _ => rfl,
      .of_map fun _ => rfl⟩
  | renewAdmission ha =>
    exact ⟨fun _ => rfl, hcontra, .update .refl ha (fun _ => rfl) fun _ _ _ => id, fun _ => rfl, fun _ => rfl,
      fun _ _ => rfl, fun _ _ => rfl, .of_map fun _ => rfl⟩
  | replay =>
    exact ⟨fun _ => rfl, fun _ => rfl, .refl .refl _, fun hp => absurd rfl hp, fun hp => absurd rfl hp,
      fun hp => absurd rfl hp, fun _ _ => rfl, .of_map fun _ => rfl⟩
  | intake h =>
    simp only [EventStore.insertAccepted, bind_ok, pure_ok] at h
    obtain ⟨_, -, _, -, _, -, _, -, _, -, rfl⟩ := h
    exact ⟨fun _ => rfl, fun _ => rfl, .refl .refl _, fun hp => absurd rfl hp, fun hp => absurd rfl hp,
      fun hp => absurd rfl hp, fun _ _ => rfl, .of_map fun _ => rfl⟩
  | answerEmpty _ h =>
    simp only [ClaimStore.insertReceipt, bind_ok, pure_ok] at h
    obtain ⟨_, -, rfl⟩ := h
    exact .of_rows rfl rfl rfl rfl (fun _ => rfl) fun _ => rfl
  | reserve _ _ h hd =>
    simp only [ClaimStore.insertReceipt, bind_ok, pure_ok] at h
    obtain ⟨_, -, rfl⟩ := h
    exact .of_rows rfl rfl rfl rfl (demands_update hd (fun _ => rfl) fun _ => rfl) fun _ => rfl
  | releaseStale _ hd _ => exact .of_rows rfl rfl rfl rfl (demands_update hd (fun _ => rfl) fun _ => rfl) fun _ => rfl
  | activate _ ha h =>
    simp only [ClaimStore.insertActiveClaim, bind_ok, pure_ok] at h
    obtain ⟨-, -, _, hcl, _, -, _, -, _, hd, rfl⟩ := h
    refine ⟨fun _ => rfl, fun _ => rfl, .refl .refl _, fun _ => rfl, fun _ => rfl,
      fun _ => demands_update hd (fun _ => rfl) fun _ => rfl, hcontra, ?_⟩
    intro k c' hc'
    rw [Table.get?_insert hcl] at hc'
    split at hc'
    · cases hc'
      exact Or.inr (activatable_granted ha)
    · exact Or.inl ⟨c', hc', rfl⟩
  | renew _ _ h =>
    exact ⟨fun _ => rfl, fun _ => rfl, .refl .refl _, fun _ => rfl, fun _ => rfl, fun _ _ => rfl, hcontra,
      .of_map (Table.map_get?_update h (fun _ => rfl) _ fun _ => rfl)⟩
  | fenceForRecovery _ _ _ h =>
    simp only [LeaseStore.fenceForRecovery, bind_ok, pure_ok] at h
    obtain ⟨_, -, _, hcl, _, -, rfl⟩ := h
    exact .of_rows rfl rfl rfl rfl (fun _ => rfl) (claims_update hcl (fun _ => rfl) fun _ => rfl)
  | recordRecovery h =>
    simp only [LeaseStore.recordRecovery, bind_ok, pure_ok] at h
    obtain ⟨_, hcl, rfl⟩ := h
    exact .of_rows rfl rfl rfl rfl (fun _ => rfl) (claims_update hcl (fun _ => rfl) fun _ => rfl)
  | releaseRecovered _ _ h =>
    simp only [LeaseStore.releaseRecovered, bind_ok, pure_ok] at h
    obtain ⟨_, hcl, _, -, _, hd, rfl⟩ := h
    exact .of_rows rfl rfl rfl rfl (demands_update hd (fun _ => rfl) fun _ => rfl)
      (claims_update hcl (fun _ => rfl) fun _ => rfl)
  | result _ _ h =>
    simp only [ResultStore.recordResult, bind_ok, pure_ok] at h
    obtain ⟨_, -, _, -, _, hcl, _, -, _, hd, rfl⟩ := h
    exact .of_rows rfl rfl rfl rfl (demands_update hd (fun _ => rfl) fun _ => rfl)
      (claims_update hcl (fun _ => rfl) fun _ => rfl)
  | deliver | retry => exact .of_rows rfl rfl rfl rfl (fun _ => rfl) fun _ => rfl

theorem Writes.effect (h : Writes now part db db') : Effect part db db' :=
  h.keep Effect.refl (fun _ _ _ => Effect.trans) fun _ _ => Write.effect

variable {store : NativeOrdinaryAuthorityStore} {t : Transaction}

theorem Transaction.body_effect (h : t.body store db = .ok db') : Effect (t.part store) db db' :=
  let ⟨_, hw⟩ := body_writes h
  hw.effect

/-- A step keeps all of this, or takes an event in. -/
theorem Step.keeps (h : Step db db') : Keeps db db' ∨
    (∃ event answer, EventStore.checkReplay event db = .ok (answer, db')) ∨
      ∃ options event demandId now answer, EventStore.accept options event demandId now db = .ok (answer, db') := by
  have hsame : Keeps db db := (Effect.refl db : Effect .start db db).keeps nofun
  cases h with
  | start store now =>
    unfold Ordinary.start
    split
    · exact Or.inl ((AuthorityStore.beginEpochAndExpire_writes ‹_›).effect.keeps nofun)
    · exact Or.inl hsame
  | run store t =>
    unfold Transaction.run
    split
    · rename_i db' hok
      have heffect := Transaction.body_effect hok
      cases t with
      | checkReplay event =>
        obtain ⟨⟨answer, db₁⟩, h₁, rfl⟩ := map_ok.mp hok
        exact Or.inr (Or.inl ⟨event, answer, h₁⟩)
      | acceptEvent event demandId now =>
        obtain ⟨⟨answer, db₁⟩, h₁, rfl⟩ := map_ok.mp hok
        exact Or.inr (Or.inr ⟨_, event, demandId, now, answer, h₁⟩)
      | _ => exact Or.inl (heffect.keeps nofun)
    · exact Or.inl hsame

/-- In every step: a withdrawn admission stays withdrawn, and its generation makes no claim. -/
theorem Step.withdrawn (h : Step db db') :
    Table.Grows NativeAdmission.Follows db.nativeAdmissions db'.nativeAdmissions ∧ Claims db db' :=
  let ⟨_, _, hw⟩ := h.writes
  ⟨hw.effect.follows, hw.effect.claims⟩

end

end Dim.Ordinary
