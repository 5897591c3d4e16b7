/-
Every transaction of the ordinary host authority refines the stages of a claim, so that in every
reachable state, over any readings of the clock and any restarts, receipt, claim, demand, fence,
result and report agree.
-/
import DimProofs.Ordinary.Commits
import DimProofs.Ordinary.Stage

namespace Dim.Ordinary

open Relational

/-! ## Fencing -/

variable {db : AuthorityDatabase} {p : Claim → Bool}

theorem selectsClaim_eq_true {k : String} :
    db.selectsClaim p k = true ↔ ∃ c, db.claims.get? k = some c ∧ p c = true := by
  unfold AuthorityDatabase.selectsClaim
  cases db.claims.get? k <;> simp

variable {now : Int}

/-- No fence is swallowed by `INSERT OR IGNORE`: an active claim's slot holds no fence, and no two
active claims share one. -/
theorem fences_inserted (reason : FenceReason) (hc : Coherent db)
    (hp : ∀ c, p c = true → c.state = .active) (hnow : 0 < now) {c : Claim} (hcm : c ∈ db.claims.rows)
    (hpc : p c = true) : c.fence reason now ∈
      (db.capacityFences.insertOrIgnoreAll ((db.claims.rows.filter p).map fun c => c.fence reason now)).rows := by
  have hget : ∀ c ∈ db.claims.rows, db.claims.get? c.claimId = some c := fun c h => Table.get?_of_mem h
  refine Table.insertOrIgnoreAll_mem _ _ ?_ ?_ ?_ _ (List.mem_map.mpr ⟨c, List.mem_filter.mpr ⟨hcm, hpc⟩, rfl⟩)
  · intro f hf
    obtain ⟨a, -, rfl⟩ := List.mem_map.mp hf
    simpa [Claim.fence] using hnow
  · intro f hf g hg hcon
    obtain ⟨a, ha, rfl⟩ := List.mem_map.mp hf
    obtain ⟨ham, hpa⟩ := List.mem_filter.mp ha
    have hact := hc.active_of_claim (hget a ham) (hp a hpa)
    have hgrec := hc.recovering_of_fenced (k := g.claimId) (Table.any_eq_true.mpr ⟨g, hg, by simp⟩)
    have hne : g.claimId ≠ a.claimId := by
      intro he
      rw [he, hact] at hgrec
      cases Stage.view_injective hgrec
    rcases hcon with hkey | hcl | hcl
    · obtain ⟨b, hb, hbh, hbc⟩ := hc.fenceLinks g hg
      have hbs : b.state = .recovering := by
        have := congrArg View.claim hgrec
        simpa [view, hb, Stage.view] using this
      have hslot : g.hostId = a.hostId ∧ g.capacity = a.capacity := by
        simpa [Claim.fence] using hkey
      exact hne (hc.claim_unique hb (hget a ham) (by simp [hbs]) (by simp [hp a hpa])
        (by rw [hbh, hslot.1]) (by rw [hbc, hslot.2]))
    · exact hne (by simpa [Claim.fence] using hcl)
    · exact hne (by simpa [Claim.fence] using hcl : a.claimId = g.claimId).symm
  · rw [List.pairwise_map]
    have hpw := db.claims.distinct.filter p
    refine hpw.imp_of_mem fun {a b} ha hb hab hcon => ?_
    obtain ⟨ham, hpa⟩ := List.mem_filter.mp ha
    obtain ⟨hbm, hpb⟩ := List.mem_filter.mp hb
    have hkey : a.claimId = b.claimId := by
      rcases hcon with hk | hcl | hcl
      · have hslot : a.hostId = b.hostId ∧ a.capacity = b.capacity := by
          simpa [Claim.fence] using hk
        exact hc.claim_unique (hget a ham) (hget b hbm) (by simp [hp a hpa]) (by simp [hp b hpb]) hslot.1 hslot.2
      · simpa [Claim.fence] using hcl
      · exact (by simpa [Claim.fence] using hcl : b.claimId = a.claimId).symm
    exact hab (conflict_of_key hkey)

variable {db' : AuthorityDatabase}

theorem fenceClaims_refines {reason : FenceReason}
    (hp : ∀ c, p c = true → c.state = .active) (h : fenceClaims reason p now db = .ok db') : Refines db db' := by
  simp only [fenceClaims, bind_ok, pure_ok] at h
  obtain ⟨receipts, hr, claims, hcl, rfl⟩ := h
  refine refines_of_frame ⟨fun k => Table.map_get?_update hr (fun _ => rfl) _ (fun _ => rfl) k,
    fun k => Table.map_get?_update hcl (fun _ => rfl) _ (fun _ => rfl) k, ?_⟩ ?_
  · intro f hf
    rcases Table.mem_insertOrIgnoreAll _ _ hf with hf | hf
    · exact Or.inl hf
    · obtain ⟨c, hc, rfl⟩ := List.mem_map.mp hf
      exact Or.inr ⟨c, Table.get?_of_mem (List.mem_of_mem_filter hc), rfl, rfl⟩
  · intro hc k s hs
    by_cases hk : db.selectsClaim p k = true
    · obtain ⟨c, hck, hpc⟩ := selectsClaim_eq_true.mp hk
      have hact := hc.active_of_claim hck (hp c hpc)
      rw [Stage.view_injective (hs.symm.trans hact)]
      refine ⟨.recovering, ?_, Or.inr ⟨.fence, by simp⟩⟩
      obtain ⟨r, hrk, -⟩ := hc.receipt hck
      have hrk' : receipts.get? k = some { r with state := .recovering, updatedAt := now } :=
        Table.get?_update_self hr (fun _ => rfl) hrk (by
          have : r.claimId = k := Table.get?_key hrk
          rw [this]; exact hk)
      have hck' : claims.get? k = some { c with state := .recovering } :=
        Table.get?_update_self hcl (fun _ => rfl) hck hpc
      -- the receipt's CHECK on `updated_at` makes the reading positive
      have hnow : 0 < now := by
        have := Table.update_check hr (Table.get?_mem hrk) (by
          have : r.claimId = k := Table.get?_key hrk
          rw [this]; exact hk)
        simp only [ClaimReceipt.check_eq, Bool.and_eq_true, decide_eq_true_eq] at this
        exact this.2
      have hfence := fences_inserted reason hc hp hnow (Table.get?_mem hck) hpc
      have hkey : c.claimId = k := Table.get?_key hck
      have hany := Table.any_eq_true (t := db.capacityFences.insertOrIgnoreAll _)
        (p := (·.claimId = k)) |>.mpr ⟨_, hfence, by simp [Claim.fence, hkey]⟩
      simp only [view, Stage.view, demandOf, hrk, Option.map_some, View.mk.injEq] at hact
      simp only [view, Stage.view, demandOf, hrk', hck', Option.map_some, View.mk.injEq]
      exact ⟨trivial, hact.2.1, trivial, hany, hact.2.2.2.2⟩
    · refine ⟨s, ?_, Or.inl rfl⟩
      rw [← hs]
      have hrk : receipts.get? k = db.claimReceipts.get? k := by
        rw [Table.get?_update hr (fun _ => rfl)]
        cases hg : db.claimReceipts.get? k with
        | none => rfl
        | some r =>
          have : r.claimId = k := Table.get?_key hg
          simp [Table.updated, this, hk]
      have hck : claims.get? k = db.claims.get? k := by
        rw [Table.get?_update hcl (fun _ => rfl)]
        cases hg : db.claims.get? k with
        | none => rfl
        | some c =>
          have : ¬ p c = true := fun hpc => hk (selectsClaim_eq_true.mpr ⟨c, hg, hpc⟩)
          simp [Table.updated, this]
      refine view_congr hrk ?_ hck ?_ rfl rfl
      · unfold demandOf; rw [hrk]
      · refine Table.any_insertOrIgnoreAll_ne _ _ ?_
        intro f hf
        obtain ⟨c, hcm, rfl⟩ := List.mem_map.mp hf
        obtain ⟨hcm, hpc⟩ := List.mem_filter.mp hcm
        have : c.claimId ≠ k := by
          rintro rfl
          exact hk (selectsClaim_eq_true.mpr ⟨c, Table.get?_of_mem hcm, hpc⟩)
        exact decide_eq_false this

/-- In a coherent database the active receipts are those of the active claims, so the restart
fences as the other two do. -/
theorem fenceRestartedClaims_eq (hc : Coherent db)
    (h : fenceRestartedClaims now db = .ok db') : fenceClaims .serviceRestart Claim.isActive now db = .ok db' := by
  simp only [fenceRestartedClaims, bind_ok, pure_ok] at h
  obtain ⟨claims, hcl, receipts, hr, rfl⟩ := h
  have hsel : ∀ r ∈ db.claimReceipts.rows, decide (r.state = .active) = db.selectsClaim Claim.isActive r.claimId := by
    intro r hrm
    have hget : db.claimReceipts.get? r.claimId = some r := Table.get?_of_mem hrm
    obtain ⟨s, hs, hsr⟩ := hc.stage_of_receipt hget
    have hclaim : s.view.claim = (db.claims.get? r.claimId).map (·.state) := by rw [← hs]; rfl
    rw [Bool.eq_iff_iff, selectsClaim_eq_true, decide_eq_true_eq]
    constructor
    · intro hra
      rw [hra] at hsr
      cases s <;> simp [Stage.view] at hsr
      obtain ⟨c, hcg, hcs⟩ := Option.map_eq_some_iff.mp hclaim.symm
      exact ⟨c, hcg, by simp [Claim.isActive, hcs]⟩
    · rintro ⟨c, hcg, hca⟩
      rw [hcg] at hclaim
      simp only [Claim.isActive, decide_eq_true_eq] at hca
      cases s <;> simp [Stage.view, hca] at hclaim
      simpa [Stage.view] using hsr.symm
  simp only [fenceClaims, bind_ok, pure_ok]
  exact ⟨receipts, by rw [← Table.update_congr hsel]; exact hr, claims, hcl, rfl⟩

theorem fenceRestartedClaims_refines (h : fenceRestartedClaims now db = .ok db') : Refines db db' := fun hc =>
  fenceClaims_refines (fun c hca => by simpa [Claim.isActive] using hca) (fenceRestartedClaims_eq hc h) hc

/-! ## Results and reports -/

namespace ResultStore

variable {c : Claim} {db : AuthorityDatabase} {k : String}

theorem settleable_some (h : settleable k db = some c) :
    db.claims.get? k = some c ∧ c.state = .reported ∧ (db.hostResults.get? k).isSome = true ∧
      (db.reportOutbox.get? k).any (·.state.due) = true := by
  unfold settleable at h
  split at h
  · rename_i hcond
    obtain ⟨hc, hs⟩ := Option.filter_eq_some_iff.mp h
    rw [Bool.and_eq_true] at hcond
    refine ⟨hc, by simpa using hs, ?_, hcond.2⟩
    cases hh : db.hostResults.get? k with
    | none => simp [hh] at hcond
    | some _ => rfl
  · cases h

variable {db' : AuthorityDatabase} {denialCode : Option String} {now : Int} {outcome : ReportOutcome}

theorem settle_refines (hs : settleable k db = some c)
    (h : settle c outcome denialCode now db = .ok db') : Refines db db' := by
  obtain ⟨hck, hcs, -, -⟩ := settleable_some hs
  have hkey : c.claimId = k := Table.get?_key hck
  simp only [settle, bind_ok, pure_ok] at h
  obtain ⟨outbox, ho, claims, hcl, receipts, hr, demands, hd, inbox, hi, rfl⟩ := h
  rw [hkey] at ho hcl hr ⊢
  intro hc
  obtain ⟨r, hrk, -, -, hrd, -⟩ := hc.receipt hck
  obtain ⟨d, hdk, -⟩ := hc.demand hck
  obtain ⟨dl, hv⟩ := hc.reported_of_claim hck hcs
  refine refines_of_touches (a := .reported dl) (b := .settled outcome) ⟨?_, ?_, ?_⟩
    ⟨?_, ?_, ?_, ?_, ?_, ?_⟩ hrk hrd (fun _ => ⟨hv, ?_⟩) (Or.inr ⟨.settle dl outcome, by simp⟩) hc
  · exact fun k => Table.map_get?_update hr (fun _ => rfl) _ (fun _ => rfl) k
  · exact fun k => Table.map_get?_update hcl (fun _ => rfl) _ (fun _ => rfl) k
  · exact fun f hf => Or.inl (Table.mem_delete.mp hf).1
  · exact fun k' hne => Table.get?_update_ne hr (fun _ => rfl) (by simp) hne
  · exact fun k' hne => Table.get?_update_ne hd (fun _ => rfl) (by simp) hne
  · exact fun k' hne => Table.get?_update_ne hcl (fun _ => rfl) (by simp) hne
  · exact fun k' hne => any_fence_delete _ hne
  · exact fun k' hne => rfl
  · exact fun k' hne => Table.get?_update_ne ho (fun _ => rfl) (by simp) hne
  · have hobox := congrArg View.outbox hv
    have hres := congrArg View.result hv
    simp only [view, Stage.view] at hobox hres
    obtain ⟨o, hok, -⟩ := Option.map_eq_some_iff.mp hobox
    have hr' := Table.get?_update_self hr (fun _ => rfl) hrk (by simpa using Table.get?_key hrk)
    have hc' := Table.get?_update_self hcl (fun _ => rfl) hck (by simpa using hkey)
    have hd' := Table.get?_update_self hd (fun _ => rfl) hdk (by simpa using Table.get?_key hdk)
    have ho' := Table.get?_update_self ho (fun _ => rfl) hok (by simpa using Table.get?_key hok)
    simp [view, Stage.view, demandOf, hr', hc', hd', ho', hrd, hres, any_fence_delete_self]

variable {options : ResultStoreOptions}

theorem recordResult_refines [Sha256] {host : String} {request : NativeHostResultRequest}
    (hck : db.claims.get? request.claimId = some c)
    (hcs : currentClaim options c request.terminalEvent now db = true)
    (h : recordResult host request c now db = .ok db') : Refines db db' := by
  have hact : c.state = .active := by
    simp only [currentClaim, Bool.and_eq_true, decide_eq_true_eq] at hcs
    tauto
  simp only [recordResult, bind_ok, pure_ok] at h
  obtain ⟨results, hh, outbox, ho, claims, hcl, receipts, hr, demands, hd, rfl⟩ := h
  intro hc
  obtain ⟨r, hrk, -, -, hrd, -⟩ := hc.receipt hck
  obtain ⟨d, hdk, -⟩ := hc.demand hck
  have hv := hc.active_of_claim hck hact
  refine refines_of_touches (a := .active) (b := .reported false) ⟨?_, ?_, fun f hf => Or.inl hf⟩
    ⟨?_, ?_, ?_, fun _ _ => rfl, ?_, ?_⟩ hrk hrd (fun _ => ⟨hv, ?_⟩) (Or.inr ⟨.report, by simp⟩) hc
  · exact fun k => Table.map_get?_update hr (fun _ => rfl) _ (fun _ => rfl) k
  · exact fun k => Table.map_get?_update hcl (fun _ => rfl) _ (fun _ => rfl) k
  · exact fun k' hne => Table.get?_update_ne hr (fun _ => rfl) (by simp) hne
  · exact fun k' hne => Table.get?_update_ne hd (fun _ => rfl) (by simp) hne
  · exact fun k' hne => Table.get?_update_ne hcl (fun _ => rfl) (by simp) hne
  · intro k' hne
    rw [Table.get?_insert hh, if_neg (by simpa using hne)]
  · intro k' hne
    rw [Table.get?_insert ho, if_neg (by simpa using hne)]
  · have hfen := congrArg View.fenced hv
    simp only [view, Stage.view] at hfen
    have hr' := Table.get?_update_self hr (fun _ => rfl) hrk (by simpa using Table.get?_key hrk)
    have hc' := Table.get?_update_self hcl (fun _ => rfl) hck (by simpa using Table.get?_key hck)
    have hd' := Table.get?_update_self hd (fun _ => rfl) hdk (by simpa using Table.get?_key hdk)
    have hh' := Table.get?_insert hh request.claimId
    have ho' := Table.get?_insert ho request.claimId
    simp [view, Stage.view, demandOf, hr', hc', hd', hh', ho', hrd, hfen]

/-- An outbox update that leaves one report between `pending` and `delivering`. -/
theorem outbox_refines {p : ReportOutbox → Bool} {f : ReportOutbox → ReportOutbox} {b : Bool}
    {outbox : Table ReportOutbox} {o : ReportOutbox}
    (h : db.reportOutbox.update (ε := AuthorityError) p f = .ok outbox) (hf : ∀ o, (f o).claimId = o.claimId)
    (hp : ∀ o, p o = true → o.claimId = k) (hok : db.reportOutbox.get? k = some o) (hpo : p o = true)
    (hdue : o.state.due = true) (hst : (f o).state = if b then .delivering else .pending)
    (hmove : ∀ d, view db k = (Stage.reported d).view → Stage.Move (.reported d) (.reported b)) :
    Refines db { db with reportOutbox := outbox } := by
  refine refines_of_frame ⟨fun _ => rfl, fun _ => rfl, fun f hf => Or.inl hf⟩ ?_
  intro hc k' s hs
  by_cases hk : k' = k
  · subst hk
    have hout : s.view.outbox = some o.state := by rw [← hs]; simp [view, hok]
    cases s with
    | reported d =>
      refine ⟨.reported b, ?_, Or.inr ⟨hmove d hs, by simp⟩⟩
      have ho' := Table.get?_update_self h hf hok hpo
      simp only [view, Stage.view, View.mk.injEq] at hs
      simp only [view, Stage.view, View.mk.injEq, ho', Option.map_some, hst, and_true]
      exact ⟨hs.1, hs.2.1, hs.2.2.1, hs.2.2.2.1, hs.2.2.2.2.1⟩
    | settled outcome => cases outcome <;> simp [Stage.view, ReportOutcome.outboxState] at hout <;>
        rw [← hout] at hdue <;> cases hdue
    | _ => simp [Stage.view] at hout
  · refine ⟨s, ?_, Or.inl rfl⟩
    rw [← hs]
    exact view_congr rfl rfl rfl rfl rfl (by rw [Table.get?_update_ne h hf hp hk])

theorem retry_refines {delivery : NativeReportDelivery} {outbox : Table ReportOutbox}
    (ho : db.reportOutbox.update (ε := AuthorityError) (fun o => o.claimId = delivery.claimId && o.state = .delivering)
      (fun o => { o with state := .pending, nextAttemptAt := now + retryDelay delivery.attemptCount, updatedAt := now }) =
      .ok outbox) : Refines db { db with reportOutbox := outbox } := by
  by_cases hsel : ∃ o, db.reportOutbox.get? delivery.claimId = some o ∧ o.state = .delivering
  · obtain ⟨o, hok, hos⟩ := hsel
    have hkey : o.claimId = delivery.claimId := Table.get?_key hok
    refine outbox_refines (k := delivery.claimId) (b := false) ho (fun _ => rfl)
      (by simp only [Bool.and_eq_true, decide_eq_true_eq]; exact fun _ h => h.1) hok (by simp [hkey, hos])
      (by simp [hos, OutboxState.due]) rfl ?_
    intro d hv
    have := congrArg View.outbox hv
    cases d <;> simp [view, Stage.view, hok, hos] at this
    exact .retry
  · refine refines_of_view_eq ⟨fun _ => rfl, fun _ => rfl, fun f hf => Or.inl hf⟩ fun _ k => ?_
    refine view_congr rfl rfl rfl rfl rfl ?_
    rw [Table.get?_update ho (fun _ => rfl)]
    cases hk : db.reportOutbox.get? k with
    | none => rfl
    | some o =>
      have hkey : o.claimId = k := Table.get?_key hk
      have : ¬ (o.claimId = delivery.claimId ∧ o.state = .delivering) := by
        rintro ⟨he, hos⟩
        exact hsel ⟨o, by rw [← he, hkey]; exact hk, hos⟩
      simp [Table.updated, this]

end ResultStore

/-! ## Leases and recovery -/

namespace LeaseStore

variable {c : Claim} {db : AuthorityDatabase}

theorem exactClaim_some {request : NativeHostClaimRenewalRequest}
    (h : exactClaim request db = some c) : db.claims.get? request.claimId = some c ∧ c.hostId = request.hostId ∧
      c.capacity = request.capacity ∧ c.attemptId = request.attemptId ∧ c.descriptorDigest = request.descriptorDigest := by
  obtain ⟨hc, hf⟩ := Option.filter_eq_some_iff.mp h
  simp only [Bool.and_eq_true, decide_eq_true_eq] at hf
  exact ⟨hc, hf.1.1.1, hf.1.1.2, hf.1.2, hf.2⟩

/-- An update of columns of a claim that no view shows. -/
theorem claims_refines {p : Claim → Bool} {f : Claim → Claim} {claims : Table Claim}
    (h : db.claims.update (ε := AuthorityError) p f = .ok claims) (hk : ∀ c, (f c).claimId = c.claimId)
    (hi : ∀ c, (f c).identity = c.identity) (hs : ∀ c, (f c).state = c.state) :
    Refines db { db with claims } := by
  refine refines_of_view_eq ⟨fun _ => rfl, fun k => Table.map_get?_update h hk _ hi k, fun f hf => Or.inl hf⟩ ?_
  intro _ k
  simp only [view, demandOf]
  rw [Table.map_get?_update h hk (·.state) hs]

variable {db' : AuthorityDatabase} {now : Int} {options : LeaseStoreOptions}

theorem fenceForRecovery_refines {request : NativeHostRecoveryRequest}
    (hc : exactClaim request.toNativeHostClaimRenewalRequest db = some c) (ha : c.state = .active)
    (he : c.serviceEpochId = options.ownedEpochId)
    (h : fenceForRecovery options request now db = .ok db') : Refines db db' := by
  obtain ⟨hck, hhost, hcap, -⟩ := exactClaim_some hc
  simp only [fenceForRecovery, bind_ok, pure_ok] at h
  obtain ⟨fences, hf, claims, hcl, receipts, hr, rfl⟩ := h
  intro hcoh
  obtain ⟨r, hrk, -, -, hrd, -⟩ := hcoh.receipt hck
  have hv := hcoh.active_of_claim hck ha
  have hrs : r.state = .active := by
    have := congrArg View.receipt hv
    simpa [view, hrk, Stage.view] using this
  refine refines_of_touches (a := .active) (b := .recovering) ⟨?_, ?_, ?_⟩
    ⟨?_, fun _ _ => rfl, ?_, ?_, fun _ _ => rfl, fun _ _ => rfl⟩ hrk hrd (fun _ => ⟨hv, ?_⟩)
    (Or.inr ⟨.fence, by simp⟩) hcoh
  · exact fun k => Table.map_get?_update hr (fun _ => rfl) _ (fun _ => rfl) k
  · exact fun k => Table.map_get?_update hcl (fun _ => rfl) _ (fun _ => rfl) k
  · intro f hfm
    rw [Table.insert_rows hf, List.mem_append, List.mem_singleton] at hfm
    rcases hfm with hfm | rfl
    · exact Or.inl hfm
    · exact Or.inr ⟨c, hck, hhost, hcap⟩
  · exact fun k' hne => Table.get?_update_ne hr (fun _ => rfl)
      (by simp only [Bool.and_eq_true, decide_eq_true_eq]; exact fun _ h => h.1) hne
  · exact fun k' hne => Table.get?_update_ne hcl (fun _ => rfl)
      (by simp only [Bool.and_eq_true, decide_eq_true_eq]; exact fun _ h => h.1.1) hne
  · intro k' hne
    rw [Table.any_insert hf, decide_eq_false (fun e => hne e.symm), Bool.or_false]
  · have hr' := Table.get?_update_self hr (fun _ => rfl) hrk (by
      have : r.claimId = request.claimId := Table.get?_key hrk
      simp [this, hrs])
    have hc' := Table.get?_update_self hcl (fun _ => rfl) hck (by
      have : c.claimId = request.claimId := Table.get?_key hck
      simp [this, ha, he])
    have hf' := Table.any_insert hf (·.claimId = request.claimId)
    simp only [view, Stage.view, demandOf, hrk, Option.map_some, Option.bind_some, View.mk.injEq] at hv
    simp only [view, Stage.view, demandOf, hr', hc', hf', Option.map_some, Option.bind_some, View.mk.injEq]
    exact ⟨trivial, hv.2.1, trivial, by simp, hv.2.2.2.2⟩

theorem releaseRecovered_refines {k : String} {revocation : NativeJobAttemptRevocation}
    (hck : db.claims.get? k = some c) (hcs : c.state = .recovering)
    (h : releaseRecovered k c.demandId revocation now db = .ok db') : Refines db db' := by
  simp only [releaseRecovered, bind_ok, pure_ok] at h
  obtain ⟨claims, hcl, receipts, hr, demands, hd, rfl⟩ := h
  intro hc
  obtain ⟨r, hrk, -, -, hrd, -⟩ := hc.receipt hck
  obtain ⟨d, hdk, -⟩ := hc.demand hck
  have hv := hc.recovering_of_claim hck hcs
  refine refines_of_touches (a := .recovering) (b := .recovered) ⟨?_, ?_, ?_⟩
    ⟨?_, ?_, ?_, ?_, fun _ _ => rfl, fun _ _ => rfl⟩ hrk hrd (fun _ => ⟨hv, ?_⟩) (Or.inr ⟨.recover, by simp⟩) hc
  · exact fun k => Table.map_get?_update hr (fun _ => rfl) _ (fun _ => rfl) k
  · exact fun k => Table.map_get?_update hcl (fun _ => rfl) _ (fun _ => rfl) k
  · exact fun f hf => Or.inl (Table.mem_delete.mp hf).1
  · exact fun k' hne => Table.get?_update_ne hr (fun _ => rfl) (by simp) hne
  · exact fun k' hne => Table.get?_update_ne hd (fun _ => rfl) (by simp) hne
  · exact fun k' hne => Table.get?_update_ne hcl (fun _ => rfl) (by simp) hne
  · exact fun k' hne => any_fence_delete _ hne
  · have hr' := Table.get?_update_self hr (fun _ => rfl) hrk (by simpa using Table.get?_key hrk)
    have hc' := Table.get?_update_self hcl (fun _ => rfl) hck (by simpa using Table.get?_key hck)
    have hd' := Table.get?_update_self hd (fun _ => rfl) hdk (by simpa using Table.get?_key hdk)
    simp only [view, Stage.view, View.mk.injEq] at hv
    simp [view, Stage.view, demandOf, hr', hc', hd', hrd, any_fence_delete_self, hv]

end LeaseStore

/-! ## Reservation and activation -/

namespace ClaimStore

variable {db : AuthorityDatabase} {k : String} {r : ClaimReceipt}

theorem requestReceipt_some {request : NativeHostClaimRequest}
    (h : requestReceipt request k db = some r) : db.claimReceipts.get? k = some r ∧ r.hostId = request.hostId ∧
      r.capacity = request.capacity ∧ r.requestId = request.requestId := by
  obtain ⟨hr, hf⟩ := Option.filter_eq_some_iff.mp h
  simp only [Bool.and_eq_true, decide_eq_true_eq] at hf
  exact ⟨hr, hf.1.1, hf.1.2, hf.2⟩

variable {db' : AuthorityDatabase} {now : Int}

theorem releaseStale_refines {request : NativeHostClaimRequest} {d : String} {demands : Table Demand}
    {receipts : Table ClaimReceipt}
    (hs : ((requestReceipt request k db).filter (·.state = .preparing)).bind (·.demandId) = some d)
    (hd : db.demands.update (ε := AuthorityError) (fun u => u.demandId = d)
      (fun u => { u with state := .superseded, updatedAt := now, terminalAt := some now }) = .ok demands)
    (hr : db.claimReceipts.update (ε := AuthorityError) (fun r => r.claimId = k)
      (fun r => { r with state := .released, updatedAt := now, releasedAt := some now }) = .ok receipts) :
    Refines db { db with demands, claimReceipts := receipts } := by
  obtain ⟨r, hr₀, hrd⟩ := Option.bind_eq_some_iff.mp hs
  obtain ⟨hr₁, hrs⟩ := Option.filter_eq_some_iff.mp hr₀
  obtain ⟨hrk, -⟩ := requestReceipt_some hr₁
  intro hc
  have hv := hc.preparing_of_receipt hrk (by simpa using hrs)
  have hdem := congrArg View.demand hv
  simp only [view, Stage.view, demandOf, hrk, hrd, Option.bind_some] at hdem
  obtain ⟨dm, hdm, -⟩ := Option.map_eq_some_iff.mp hdem
  refine refines_of_touches (a := .preparing) (b := .withdrawn) ⟨?_, fun _ => rfl, fun _ hf => Or.inl hf⟩
    ⟨?_, ?_, fun _ _ => rfl, fun _ _ => rfl, fun _ _ => rfl, fun _ _ => rfl⟩ hrk hrd (fun _ => ⟨hv, ?_⟩)
    (Or.inr ⟨.withdraw, by simp⟩) hc
  · exact fun k => Table.map_get?_update hr (fun _ => rfl) _ (fun _ => rfl) k
  · exact fun k' hne => Table.get?_update_ne hr (fun _ => rfl) (by simp) hne
  · exact fun k' hne => Table.get?_update_ne hd (fun _ => rfl) (by simp) hne
  · have hr' := Table.get?_update_self hr (fun _ => rfl) hrk (by simpa using Table.get?_key hrk)
    have hd' := Table.get?_update_self hd (fun _ => rfl) hdm (by simpa using Table.get?_key hdm)
    simp only [view, Stage.view, View.mk.injEq] at hv
    simp [view, Stage.view, demandOf, hr', hd', hrd, hv]

variable {options : ClaimStoreOptions} {proof : NativeClaimActivationProof}

theorem activatable_some {reservation : PreparingReservation} {d : String}
    (h : activatable options reservation proof now r db = some d) : r.state = .preparing ∧ r.demandId = some d ∧
      r.admissionGeneration = some reservation.admissionGeneration ∧ reservation.epochId = options.ownedEpochId := by
  unfold activatable at h
  split at h
  · cases h
  · rename_i hcond
    simp only [not_or, ne_eq, not_not] at hcond
    split at h
    · rename_i d' hpol hrd
      split at h
      · cases h; exact ⟨hcond.1, hrd, hcond.2.1, hcond.2.2.1⟩
      · cases h
    · cases h

theorem insertActiveClaim_refines {request : NativeHostClaimRequest}
    {reservation : PreparingReservation} {d : String}
    (hrq : requestReceipt request reservation.claimId db = some r)
    (ha : activatable options reservation proof now r db = some d)
    (h : insertActiveClaim options request reservation proof d now db = .ok db') : Refines db db' := by
  obtain ⟨hrk, hhost, hcap, -⟩ := requestReceipt_some hrq
  obtain ⟨hrs, hrd, hrg, -⟩ := activatable_some ha
  simp only [insertActiveClaim, bind_ok, pure_ok] at h
  obtain ⟨-, -, claims, hcl, nativeAttemptAssignments, -, claimReceipts, hr, demands, hd, rfl⟩ := h
  intro hc
  have hv := hc.preparing_of_receipt hrk hrs
  have hdem := congrArg View.demand hv
  simp only [view, Stage.view, demandOf, hrk, hrd, Option.bind_some] at hdem
  obtain ⟨dm, hdm, -⟩ := Option.map_eq_some_iff.mp hdem
  have hr' := Table.get?_update_self hr (fun _ => rfl) hrk (by simpa using Table.get?_key hrk)
  have hd' := Table.get?_update_self hd (fun _ => rfl) hdm (by simpa using Table.get?_key hdm)
  have ht : Touches db { db with claims, nativeAttemptAssignments, claimReceipts, demands } reservation.claimId d := by
    refine ⟨?_, ?_, ?_, fun _ _ => rfl, fun _ _ => rfl, fun _ _ => rfl⟩
    · exact fun k' hne => Table.get?_update_ne hr (fun _ => rfl) (by simp) hne
    · exact fun k' hne => Table.get?_update_ne hd (fun _ => rfl) (by simp) hne
    · intro k' hne
      rw [Table.get?_insert hcl, if_neg (by simpa using hne)]
  have hv' : view { db with claims, nativeAttemptAssignments, claimReceipts, demands } reservation.claimId =
      Stage.active.view := by
    have hc' := Table.get?_insert hcl reservation.claimId
    simp only [view, Stage.view, View.mk.injEq] at hv
    simp [view, Stage.view, demandOf, hr', hc', hd', hrd, hv]
  have hid : ∀ k, (claimReceipts.get? k).map ClaimReceipt.identity = (db.claimReceipts.get? k).map ClaimReceipt.identity :=
    fun k => Table.map_get?_update hr (fun _ => rfl) _ (fun _ => rfl) k
  have hsame : ∀ u ∈ claimReceipts.rows, ∃ u₀ ∈ db.claimReceipts.rows, u₀.claimId = u.claimId ∧
      u₀.identity = u.identity ∧ (u.state.held = true → u₀.state.held = true) ∧
      (u.state = .empty → u₀.state = .empty) := by
    intro u hu
    rw [Table.update_rows hr] at hu
    obtain ⟨u₀, hu₀, rfl⟩ := List.mem_map.mp hu
    refine ⟨u₀, hu₀, ?_⟩
    unfold Table.updated
    split
    · rename_i hsel
      have hget : db.claimReceipts.get? u₀.claimId = some u₀ := Table.get?_of_mem hu₀
      rw [decide_eq_true_eq] at hsel
      rw [hsel, hrk] at hget
      cases hget
      exact ⟨rfl, rfl, fun _ => by rw [hrs]; rfl, fun h => by cases h⟩
    · exact ⟨rfl, rfl, id, id⟩
  -- the claim row is new, so the frame rule does not apply to it
  refine ⟨⟨?_, ?_, ?_, ?_, ?_⟩, ⟨?_, ?_, ?_⟩⟩
  · intro k
    by_cases hk : k = reservation.claimId
    · exact ⟨.active, by rw [hk]; exact hv'⟩
    · obtain ⟨s, hs⟩ := hc.staged k
      exact ⟨s, by rw [ht.view_eq hrk hrd hk]; exact hs⟩
  · intro u hu w hw huh hwh hh hcp
    obtain ⟨u₀, hu₀, ku, iu, lu, -⟩ := hsame u hu
    obtain ⟨w₀, hw₀, kw, iw, lw, -⟩ := hsame w hw
    simp only [ClaimReceipt.identity, Prod.mk.injEq] at iu iw
    rw [← ku, ← kw]
    exact hc.slots u₀ hu₀ w₀ hw₀ (lu huh) (lw hwh) (by rw [iu.1, iw.1, hh]) (by rw [iu.2.1, iw.2.1, hcp])
  · intro c hcm
    rw [Table.insert_rows hcl, List.mem_append, List.mem_singleton] at hcm
    rcases hcm with hcm | rfl
    · obtain ⟨u, hu, h1, h2, h3, h4⟩ := hc.claimLinks c hcm
      have := hid c.claimId
      rw [hu, Option.map_some] at this
      obtain ⟨u', hu', iu⟩ := Option.map_eq_some_iff.mp this
      simp only [ClaimReceipt.identity, Prod.mk.injEq] at iu
      exact ⟨u', hu', by rw [iu.1, h1], by rw [iu.2.1, h2], by rw [iu.2.2.2.1, h3], by rw [iu.2.2.2.2, h4]⟩
    · exact ⟨_, hr', hhost, hcap, hrd, hrg⟩
  · intro f hf
    obtain ⟨c, hck, h1, h2⟩ := hc.fenceLinks f hf
    have hne : f.claimId ≠ reservation.claimId := by
      rintro he
      have := congrArg View.claim hv
      rw [he] at hck
      simp [view, Stage.view, hck] at this
    exact ⟨c, by rw [ht.claims _ hne]; exact hck, h1, h2⟩
  · intro u hu hempty
    obtain ⟨u₀, hu₀, -, iu, -, eu⟩ := hsame u hu
    simp only [ClaimReceipt.identity, Prod.mk.injEq] at iu
    rw [← iu.2.2.2.1]
    exact hc.empties u₀ hu₀ (eu hempty)
  · intro k s hs
    by_cases hk : k = reservation.claimId
    · rw [hk] at hs ⊢
      rw [Stage.view_injective (hs.symm.trans hv)]
      exact ⟨.active, hv', .single .activate⟩
    · exact ⟨s, by rw [ht.view_eq hrk hrd hk]; exact hs, .refl⟩
  · intro k u hu
    have := hid k
    rw [hu, Option.map_some] at this
    exact Option.map_eq_some_iff.mp this
  · intro k c hck
    have hne : k ≠ reservation.claimId := by
      rintro rfl
      have := congrArg View.claim hv
      simp [view, Stage.view, hck] at this
    exact ⟨c, by rw [ht.claims k hne]; exact hck, rfl⟩

theorem slotOccupied_eq_false {hostId capacity : String}
    (h : slotOccupied hostId capacity db = false) : ∀ r ∈ db.claimReceipts.rows, r.hostId = hostId →
      r.capacity = capacity → r.state.held = false := by
  simp only [slotOccupied, Bool.or_eq_false_iff] at h
  intro r hr hh hcap
  have := Table.any_eq_false.mp h.1 r hr
  simpa [hh, hcap] using this

/-- A receipt for a claim id that no row knows yet, in a slot that no receipt holds. -/
theorem receipt_refines {b : Stage} {receipts : Table ClaimReceipt}
    (hr : db.claimReceipts.insert (ε := AuthorityError) r = .ok receipts)
    (hslot : ∀ u ∈ db.claimReceipts.rows, u.hostId = r.hostId → u.capacity = r.capacity → u.state.held = false)
    (hrec : db'.claimReceipts = receipts) (hcl : db'.claims = db.claims) (hf : db'.capacityFences = db.capacityFences)
    (hh : db'.hostResults = db.hostResults) (ho : db'.reportOutbox = db.reportOutbox)
    (hd : ∀ d, r.demandId ≠ some d → db'.demands.get? d = db.demands.get? d)
    (hempty : r.state = .empty → r.demandId = none)
    (hv : view db r.claimId = Stage.absent.view → view db' r.claimId = b.view)
    (hm : Stage.Move .absent b) : Refines db db' := by
  have hfresh := Table.insert_fresh hr
  have hget : ∀ k, k ≠ r.claimId → db'.claimReceipts.get? k = db.claimReceipts.get? k := by
    intro k hk
    rw [hrec, Table.get?_insert hr, if_neg (by simpa using hk)]
  intro hc
  have habs : view db r.claimId = Stage.absent.view := by
    obtain ⟨s, hs⟩ := hc.staged r.claimId
    have hnone : db.claimReceipts.get? r.claimId = none := Table.get?_insert_fresh hr
    have hsr : s.view.receipt = none := by rw [← hs]; simp [view, hnone]
    cases s <;> simp [Stage.view] at hsr
    exact hs
  have hother : ∀ k, k ≠ r.claimId → view db' k = view db k := by
    intro k hk
    refine view_congr (hget k hk) ?_ (by rw [hcl]) (by rw [hf]) (by rw [hh]) (by rw [ho])
    unfold demandOf
    rw [hget k hk]
    cases hu : db.claimReceipts.get? k with
    | none => rfl
    | some u =>
      cases hud : u.demandId with
      | none => simp [hud]
      | some d =>
        -- the UNIQUE index on `demand_id` keeps the new receipt's demand from every other receipt
        have hne : r.demandId ≠ some d := by
          intro hrd
          exact hfresh u (Table.get?_mem hu) (conflict_of_clash (by simp [hud, hrd]))
        simp [hud, hd d hne]
  refine ⟨⟨?_, ?_, ?_, ?_, ?_⟩, ⟨?_, ?_, fun k c hk => ⟨c, by rw [hcl]; exact hk, rfl⟩⟩⟩
  · intro k
    by_cases hk : k = r.claimId
    · exact ⟨b, by rw [hk]; exact hv habs⟩
    · obtain ⟨s, hs⟩ := hc.staged k
      exact ⟨s, (hother k hk).trans hs⟩
  · rw [hrec, Table.insert_rows hr]
    intro u hu w hw huh hwh hh hcap
    rw [List.mem_append, List.mem_singleton] at hu hw
    rcases hu with hu | rfl <;> rcases hw with hw | rfl
    · exact hc.slots u hu w hw huh hwh hh hcap
    · rw [hslot u hu hh hcap] at huh; cases huh
    · rw [hslot w hw hh.symm hcap.symm] at hwh; cases hwh
    · rfl
  · intro c hcm
    rw [hcl] at hcm
    obtain ⟨u, hu, hlinks⟩ := hc.claimLinks c hcm
    have hne : c.claimId ≠ r.claimId := by
      intro he
      rw [he] at hu
      exact hfresh u (Table.get?_mem hu) (conflict_of_key (Table.get?_key hu))
    exact ⟨u, by rw [hget _ hne]; exact hu, hlinks⟩
  · rw [hf, hcl]
    exact hc.fenceLinks
  · rw [hrec, Table.insert_rows hr]
    intro u hu hue
    rw [List.mem_append, List.mem_singleton] at hu
    rcases hu with hu | rfl
    · exact hc.empties u hu hue
    · exact hempty hue
  · intro k s hs
    by_cases hk : k = r.claimId
    · rw [hk] at hs ⊢
      rw [Stage.view_injective (hs.symm.trans habs)]
      exact ⟨b, hv habs, .single hm⟩
    · exact ⟨s, (hother k hk).trans hs, .refl⟩
  · intro k u hu
    refine ⟨u, ?_, rfl⟩
    rw [hget k ?_]
    · exact hu
    · rintro rfl
      exact hfresh u (Table.get?_mem hu) (conflict_of_key (Table.get?_key hu))

theorem answerEmpty_refines {request : NativeHostClaimRequest}
    (hslot : slotOccupied request.hostId request.capacity db = false)
    (h : insertReceipt k request none none .empty now db = .ok db') : Refines db db' := by
  simp only [insertReceipt, bind_ok, pure_ok] at h
  obtain ⟨receipts, hr, rfl⟩ := h
  refine receipt_refines (b := .empty) hr (slotOccupied_eq_false hslot) rfl rfl rfl rfl rfl (fun _ _ => rfl) (fun _ => rfl)
    ?_ .answerEmpty
  intro hv
  have hr' := Table.get?_insert hr k
  simp only [view, Stage.view, View.mk.injEq] at hv
  simp [view, Stage.view, demandOf, hr', hv]

theorem reserve_refines {request : NativeHostClaimRequest} {d : Demand} {db₁ : AuthorityDatabase} {demands : Table Demand}
    (hslot : slotOccupied request.hostId request.capacity db = false)
    (hsel : db.demands.select (claimable options now db) older = some d)
    (h : insertReceipt k request (some d.demandId) (some d.admissionGeneration) .preparing now db = .ok db₁)
    (hd : db₁.demands.update (ε := AuthorityError) (fun u => u.demandId = d.demandId && u.state = .queued)
      (fun u => { u with state := .preparing, updatedAt := now }) = .ok demands) : Refines db { db₁ with demands } := by
  obtain ⟨hdm, hclaimable⟩ := Table.select_mem hsel
  simp only [claimable, Bool.and_eq_true, decide_eq_true_eq] at hclaimable
  simp only [insertReceipt, bind_ok, pure_ok] at h
  obtain ⟨receipts, hr, rfl⟩ := h
  refine receipt_refines (b := .preparing) hr (slotOccupied_eq_false hslot) rfl rfl rfl rfl rfl ?_ (fun h => by cases h) ?_
    .reserve
  · intro d' hne
    refine Table.get?_update_ne hd (fun _ => rfl) (x := d.demandId)
      (by simp only [Bool.and_eq_true, decide_eq_true_eq]; exact fun _ h => h.1) ?_
    rintro rfl
    exact hne rfl
  · intro hv
    have hr' := Table.get?_insert hr k
    have hd' := Table.get?_update_self hd (fun _ => rfl) (Table.get?_of_mem hdm)
      (by simp [hclaimable.1.1])
    simp only [view, Stage.view, View.mk.injEq] at hv
    simp only [Demand.key_eq] at hd'
    simp [view, Stage.view, demandOf, hr', hd', hv]

end ClaimStore

/-! ## Events and admissions -/

/-- An operation that touches neither receipts, claims, fences, results nor reports, and keeps the
state of every demand that is not queued, is seen by no claim. -/
theorem refines_of_demands (hr : db'.claimReceipts = db.claimReceipts)
    (hcl : db'.claims = db.claims) (hf : db'.capacityFences = db.capacityFences) (hh : db'.hostResults = db.hostResults)
    (ho : db'.reportOutbox = db.reportOutbox)
    (hd : ∀ k d, db.demands.get? k = some d → d.state ≠ .queued → (db'.demands.get? k).map (·.state) = some d.state) :
    Refines db db' := by
  refine refines_of_view_eq ⟨fun k => by rw [hr], fun k => by rw [hcl], fun f hfm => Or.inl (hf ▸ hfm)⟩ ?_
  intro hc k
  refine view_congr (by rw [hr]) ?_ (by rw [hcl]) (by rw [hf]) (by rw [hh]) (by rw [ho])
  unfold demandOf
  rw [hr]
  cases hrk : db.claimReceipts.get? k with
  | none => rfl
  | some r =>
    cases hrd : r.demandId with
    | none => simp [hrd]
    | some d =>
      obtain ⟨s, hs⟩ := hc.staged k
      have hsd : s.view.demand = (db.demands.get? d).map (·.state) := by rw [← hs]; simp [view, demandOf, hrk, hrd]
      have hsr : s.view.receipt = some r.state := by rw [← hs]; simp [view, hrk]
      have hempty : s ≠ .empty := by
        rintro rfl
        rw [hc.empties r (Table.get?_mem hrk) (by simpa [Stage.view] using hsr.symm)] at hrd
        cases hrd
      cases hdk : db.demands.get? d with
      | none =>
        rw [hdk] at hsd
        cases s <;> simp_all [Stage.view]
      | some dm =>
        have hq : dm.state ≠ .queued := by
          intro hq
          rw [hdk, Option.map_some, hq] at hsd
          cases s with
          | settled o => cases o <;> simp [Stage.view, ReportOutcome.demandState] at hsd
          | _ => simp [Stage.view] at hsd
        simp [hrd, hdk, hd d dm hdk hq]

theorem EventStore.insertAccepted_refines [Sha256] {event : NativeReviewJobEvent} {generation demandId : String}
    (h : EventStore.insertAccepted event generation demandId now db = .ok db') : Refines db db' := by
  simp only [EventStore.insertAccepted, bind_ok, pure_ok] at h
  obtain ⟨fences, -, tuples, -, inbox, -, demands, hd, inbox', -, rfl⟩ := h
  refine refines_of_demands rfl rfl rfl rfl rfl ?_
  intro k d hk _
  have hne : k ≠ demandId := by
    rintro rfl
    rw [show db.demands.get? k = none from Table.get?_insert_fresh hd] at hk
    cases hk
  rw [Table.get?_insert hd, if_neg (by simpa using hne), hk]
  rfl

/-- Rows of epochs, fences of events and admissions are shown by no view. -/
theorem refines_of_unseen (hr : db'.claimReceipts = db.claimReceipts)
    (hcl : db'.claims = db.claims) (hf : db'.capacityFences = db.capacityFences) (hh : db'.hostResults = db.hostResults)
    (ho : db'.reportOutbox = db.reportOutbox) (hd : db'.demands = db.demands) : Refines db db' :=
  refines_of_demands hr hcl hf hh ho fun k d hk _ => by rw [hd, hk]; rfl

/-! ## Runs -/

section
variable [Sha256]

theorem Write.refines {part : Part} (h : Write now part db db') : Refines db db' := by
  cases h with
  | fence _ hp h => exact fenceClaims_refines hp h
  | settle _ hs h => exact ResultStore.settle_refines hs h
  | withdraw _ _ _ hd =>
    refine refines_of_demands rfl rfl rfl rfl rfl fun k d hk hq => ?_
    rw [Table.get?_update hd (fun _ => rfl), hk]
    simp [Table.updated, hq]
  | restart _ h => exact fenceRestartedClaims_refines h
  | endEpochs | beginEpoch | renewAdmission | replay => exact refines_of_unseen rfl rfl rfl rfl rfl rfl
  | insertAdmission h =>
    simp only [AuthorityStore.insertAdmission, bind_ok, pure_ok] at h
    obtain ⟨_, -, rfl⟩ := h
    exact refines_of_unseen rfl rfl rfl rfl rfl rfl
  | intake h => exact EventStore.insertAccepted_refines h
  | answerEmpty hslot h => exact ClaimStore.answerEmpty_refines hslot h
  | reserve hslot hsel h hd => exact ClaimStore.reserve_refines hslot hsel h hd
  | releaseStale hs hd hr => exact ClaimStore.releaseStale_refines hs hd hr
  | activate hr ha h => exact ClaimStore.insertActiveClaim_refines hr ha h
  | renew _ _ h => exact LeaseStore.claims_refines h (fun _ => rfl) (fun _ => rfl) fun _ => rfl
  | fenceForRecovery hc ha he h => exact LeaseStore.fenceForRecovery_refines hc ha he h
  | recordRecovery h =>
    simp only [LeaseStore.recordRecovery, bind_ok, pure_ok] at h
    obtain ⟨_, h, rfl⟩ := h
    exact LeaseStore.claims_refines h (fun _ => rfl) (fun _ => rfl) fun _ => rfl
  | releaseRecovered hc hs h => exact LeaseStore.releaseRecovered_refines (LeaseStore.exactClaim_some hc).1 hs h
  | result hc hcur h => exact ResultStore.recordResult_refines hc hcur h
  | @deliver o _ _ ho hdue h =>
    exact ResultStore.outbox_refines (k := o.claimId) (b := true) h (fun _ => rfl) (by simp) (Table.get?_of_mem ho)
      (by simp) hdue rfl fun d _ => .take d
  | retry h => exact ResultStore.retry_refines h

theorem Writes.refines {part : Part} (h : Writes now part db db') : Refines db db' :=
  h.keep Refines.refl (fun _ _ _ => Refines.trans) fun _ _ => Write.refines

theorem Step.refines (h : Step db db') : Refines db db' :=
  let ⟨_, _, hw⟩ := h.writes
  hw.refines

/-- Every reachable database is coherent. -/
theorem coherent_of_reachable {db : AuthorityDatabase} (h : Reachable db) : Coherent db := by
  refine Transition.Reachable.invariant (I := Coherent) ?_ (fun _ _ hc hs => (hs.refines hc).1) h
  rintro _ rfl
  exact Coherent.empty

/-- Any run keeps the tables coherent and moves every claim along the stages. -/
theorem run_refines {db db' : AuthorityDatabase} (h : Relation.ReflTransGen Step db db') : Refines db db' := by
  induction h with
  | refl => exact Refines.refl _
  | tail _ hstep ih => exact ih.trans hstep.refines

/-- A released claim id stays at its stage over any run. -/
theorem released_of_run {db db' : AuthorityDatabase} (hc : Coherent db) (h : Relation.ReflTransGen Step db db')
    {k : String} (hr : (view db k).receipt = some .released) : view db' k = view db k := by
  have key : ∀ {s s' : Stage}, Relation.ReflTransGen Stage.Move s s' → s.view.receipt = some .released → s' = s := by
    intro s s' hm
    induction hm with
    | refl => exact fun _ => rfl
    | tail _ hstep ih =>
      intro hs
      have he := ih hs
      subst he
      exact absurd hs hstep.not_released
  obtain ⟨s, hs⟩ := hc.staged k
  obtain ⟨s', hs', hm⟩ := (run_refines h hc).2.stages k s hs
  rw [hs', key hm (by rw [← hs]; exact hr), hs]

end

/-! ## The agreement of the tables -/

/-- What the other tables hold for a receipt, state by state. -/
def Agrees (db : AuthorityDatabase) (r : ClaimReceipt) : Prop :=
  match r.state with
  | .empty => r.demandId = none ∧ db.claims.get? r.claimId = none
  | .preparing => (∃ d, demandOf db r.claimId = some d ∧ d.state = .preparing) ∧ db.claims.get? r.claimId = none
  | .active => ∃ c d, db.claims.get? r.claimId = some c ∧ c.state = .active ∧
      demandOf db r.claimId = some d ∧ d.state = .claimed ∧ (∀ h ∈ db.hostResults.rows, h.claimId ≠ r.claimId)
  | .reported => ∃ c d, db.claims.get? r.claimId = some c ∧ c.state = .reported ∧
      demandOf db r.claimId = some d ∧ d.state = .reported
  | .recovering => ∃ c d, db.claims.get? r.claimId = some c ∧ c.state = .recovering ∧
      demandOf db r.claimId = some d ∧ d.state = .claimed ∧ (∀ h ∈ db.hostResults.rows, h.claimId ≠ r.claimId)
  | .released => ∃ d, demandOf db r.claimId = some d ∧ d.state.nonterminal = false ∧
      ∀ c, db.claims.get? r.claimId = some c → c.state = .released

theorem Coherent.agrees (hc : Coherent db) {r : ClaimReceipt} (hr : r ∈ db.claimReceipts.rows) :
    Agrees db r := by
  have hget : db.claimReceipts.get? r.claimId = some r := Table.get?_of_mem hr
  obtain ⟨s, hs, hsr⟩ := hc.stage_of_receipt hget
  have hd : (demandOf db r.claimId).map (·.state) = s.view.demand := congrArg View.demand hs
  have hcl : (db.claims.get? r.claimId).map (·.state) = s.view.claim := congrArg View.claim hs
  have hh : (db.hostResults.get? r.claimId).isSome = s.view.result := congrArg View.result hs
  have hres : s.view.result = false → ∀ h ∈ db.hostResults.rows, h.claimId ≠ r.claimId := by
    intro hf h hm he
    rw [← he, show db.hostResults.get? h.claimId = some h from Table.get?_of_mem hm, hf] at hh
    cases hh
  unfold Agrees
  cases s <;> simp only [Stage.view, reduceCtorEq, Option.some.injEq] at hsr <;> rw [← hsr]
  case empty => exact ⟨hc.empties r hr hsr.symm, by simpa [Stage.view] using hcl⟩
  case preparing =>
    exact ⟨Option.map_eq_some_iff.mp hd, by simpa [Stage.view] using hcl⟩
  case active =>
    obtain ⟨c, hc₁, hc₂⟩ := Option.map_eq_some_iff.mp hcl
    obtain ⟨d, hd₁, hd₂⟩ := Option.map_eq_some_iff.mp hd
    exact ⟨c, d, hc₁, hc₂, hd₁, hd₂, hres rfl⟩
  case reported =>
    obtain ⟨c, hc₁, hc₂⟩ := Option.map_eq_some_iff.mp hcl
    obtain ⟨d, hd₁, hd₂⟩ := Option.map_eq_some_iff.mp hd
    exact ⟨c, d, hc₁, hc₂, hd₁, hd₂⟩
  case recovering =>
    obtain ⟨c, hc₁, hc₂⟩ := Option.map_eq_some_iff.mp hcl
    obtain ⟨d, hd₁, hd₂⟩ := Option.map_eq_some_iff.mp hd
    exact ⟨c, d, hc₁, hc₂, hd₁, hd₂, hres rfl⟩
  case withdrawn =>
    obtain ⟨d, hd₁, hd₂⟩ := Option.map_eq_some_iff.mp hd
    refine ⟨d, hd₁, by rw [hd₂]; rfl, ?_⟩
    intro c hck
    rw [hck] at hcl
    cases hcl
  case recovered =>
    obtain ⟨d, hd₁, hd₂⟩ := Option.map_eq_some_iff.mp hd
    refine ⟨d, hd₁, by rw [hd₂]; rfl, ?_⟩
    intro c hck
    rw [hck] at hcl
    exact Option.some.inj hcl
  case settled o =>
    obtain ⟨d, hd₁, hd₂⟩ := Option.map_eq_some_iff.mp hd
    refine ⟨d, hd₁, by rw [hd₂]; cases o <;> rfl, ?_⟩
    intro c hck
    rw [hck] at hcl
    exact Option.some.inj hcl

/-- A reported claim has exactly one result and exactly one report, which is due. -/
theorem Coherent.reported (hc : Coherent db) {c : Claim} (hcm : c ∈ db.claims.rows)
    (hcs : c.state = .reported) : (∃! h, h ∈ db.hostResults.rows ∧ h.claimId = c.claimId) ∧
      ∃! o, o ∈ db.reportOutbox.rows ∧ o.claimId = c.claimId ∧ o.state.due = true := by
  have hget : db.claims.get? c.claimId = some c := Table.get?_of_mem hcm
  obtain ⟨d, hv⟩ := hc.reported_of_claim hget hcs
  have hh : (db.hostResults.get? c.claimId).isSome = true := congrArg View.result hv
  have ho : (db.reportOutbox.get? c.claimId).map (·.state) = some (if d then .delivering else .pending) :=
    congrArg View.outbox hv
  obtain ⟨h, hh⟩ := Option.isSome_iff_exists.mp hh
  obtain ⟨o, ho, hos⟩ := Option.map_eq_some_iff.mp ho
  refine ⟨⟨h, ⟨Table.get?_mem hh, Table.get?_key hh⟩, ?_⟩,
    ⟨o, ⟨Table.get?_mem ho, Table.get?_key ho, by cases d <;> simp [hos, OutboxState.due]⟩, ?_⟩⟩
  · rintro h' ⟨hm, hk⟩
    have := Table.get?_of_mem hm
    rw [HostResult.key_eq, hk, hh] at this
    exact (Option.some.inj this).symm
  · rintro o' ⟨hm, hk, -⟩
    have := Table.get?_of_mem hm
    rw [ReportOutbox.key_eq, hk, ho] at this
    exact (Option.some.inj this).symm

/-- A fence stands only in the slot of the recovering claim that owns it. -/
theorem Coherent.fence_owner (hc : Coherent db) {f : CapacityFence}
    (hf : f ∈ db.capacityFences.rows) : ∃ c ∈ db.claims.rows, c.claimId = f.claimId ∧ c.state = .recovering ∧
      c.hostId = f.hostId ∧ c.capacity = f.capacity := by
  obtain ⟨c, hck, hh, hcap⟩ := hc.fenceLinks f hf
  have hv := hc.recovering_of_fenced (k := f.claimId) (Table.any_eq_true.mpr ⟨f, hf, by simp⟩)
  have hcs := congrArg View.claim hv
  simp only [view, hck, Option.map_some, Stage.view, Option.some.injEq] at hcs
  exact ⟨c, Table.get?_mem hck, Table.get?_key hck, hcs, hh, hcap⟩

/-- The joint state of the ordinary host authority, over every run: one held receipt for a slot,
the tables agree, and a released receipt is never touched again. -/
theorem authority_agreement [Sha256] {db : AuthorityDatabase} (h : Reachable db) :
    (∀ r ∈ db.claimReceipts.rows, ∀ r' ∈ db.claimReceipts.rows, r.state.held = true → r'.state.held = true →
      r.hostId = r'.hostId → r.capacity = r'.capacity → r = r') ∧
    (∀ r ∈ db.claimReceipts.rows, Agrees db r) ∧
    (∀ c ∈ db.claims.rows, ∃ r ∈ db.claimReceipts.rows, r.claimId = c.claimId ∧ r.hostId = c.hostId ∧
      r.capacity = c.capacity ∧ r.demandId = some c.demandId) ∧
    (∀ c ∈ db.claims.rows, c.state = .reported → (∃! h, h ∈ db.hostResults.rows ∧ h.claimId = c.claimId) ∧
      ∃! o, o ∈ db.reportOutbox.rows ∧ o.claimId = c.claimId ∧ o.state.due = true) ∧
    (∀ c ∈ db.claims.rows, c.state = .recovering →
      ∃ f, db.capacityFences.get? (c.hostId, c.capacity) = some f ∧ f.claimId = c.claimId) ∧
    (∀ f ∈ db.capacityFences.rows, ∃ c ∈ db.claims.rows, c.claimId = f.claimId ∧ c.state = .recovering ∧
      c.hostId = f.hostId ∧ c.capacity = f.capacity) ∧
    ∀ db', Step db db' → ∀ r ∈ db.claimReceipts.rows, r.state = .released →
      ∃ r' ∈ db'.claimReceipts.rows, r'.claimId = r.claimId ∧ r'.state = .released := by
  have hc := coherent_of_reachable h
  refine ⟨?_, fun r hr => hc.agrees hr, ?_, fun c hcm hcs => hc.reported hcm hcs, ?_, fun f hf => hc.fence_owner hf, ?_⟩
  · intro r hr r' hr' hh hh' hhost hcap
    exact db.claimReceipts.eq_of_conflict hr hr' (conflict_of_key (hc.slots r hr r' hr' hh hh' hhost hcap))
  · intro c hcm
    obtain ⟨r, hr, hh, hcap, hd, -⟩ := hc.claimLinks c hcm
    exact ⟨r, Table.get?_mem hr, Table.get?_key hr, hh, hcap, hd⟩
  · intro c hcm hcs
    exact hc.fence (Table.get?_of_mem hcm) hcs
  · intro db' hs r hr hrs
    have hget : db.claimReceipts.get? r.claimId = some r := Table.get?_of_mem hr
    have hv := released_of_run hc (.single hs) (k := r.claimId) (by simp [view, hget, hrs])
    have hrec := congrArg View.receipt hv
    simp only [view, hget, Option.map_some, hrs] at hrec
    obtain ⟨r', hr', hrs'⟩ := Option.map_eq_some_iff.mp hrec
    exact ⟨r', Table.get?_mem hr', Table.get?_key hr', hrs'⟩

/-! ## A run of one claim -/

/-- The tables refine the machine of a claim: over any run, the rows of each claim id are those of one stage, then those of a
stage that moves lead to, and neither its receipt nor its claim is lost or becomes another's. -/
theorem authority_refines [Sha256] {db db' : AuthorityDatabase} (h : Reachable db) (hrun : Relation.ReflTransGen Step db db')
    (claimId : String) :
    (∃ s s' : Stage, view db claimId = s.view ∧ view db' claimId = s'.view ∧ Relation.ReflTransGen Stage.Move s s') ∧
    (∀ r, db.claimReceipts.get? claimId = some r →
      ∃ r', db'.claimReceipts.get? claimId = some r' ∧ r'.identity = r.identity) ∧
    ∀ c, db.claims.get? claimId = some c → ∃ c', db'.claims.get? claimId = some c' ∧ c'.identity = c.identity := by
  have hc := coherent_of_reachable h
  obtain ⟨s, hs⟩ := hc.staged claimId
  have he := (run_refines hrun hc).2
  obtain ⟨s', hs', hmoves⟩ := he.stages claimId s hs
  exact ⟨⟨s, s', hs, hs', hmoves⟩, he.receipts claimId, he.claims claimId⟩

namespace Sample

/-- The text itself as its digest. -/
@[reducible] def sha256 : Sha256 := ⟨fun text => text⟩

attribute [local instance] sha256

def bounds : NativeResourceBounds := { cpu := 1, memoryBytes := 1, pids := 1, wallClockSeconds := 1, outputBytes := 1 }

def capacity : NativeCapacityPolicy :=
  { hostId := "host", capacity := "small", runnerBaseImage := "runner", jobBaseImage := "job", bounds }

def store : NativeOrdinaryAuthorityStore :=
  { serviceId := "service", leaseMilliseconds := 1000, claimLeaseMilliseconds := 100, capacities := [capacity],
    ownedEpochId := "epoch-1" }

def policy : NativeAdmissionPolicy :=
  { projectId := "project", repositoryId := "repository", protectedRef := "refs/heads/main", policyRevision := "1",
    requiredReviewRevision := "1", requiredJobSetRevision := "1", requiredJobs := ["test"] }

def event : NativeReviewJobEvent :=
  { eventId := "event", projectId := "project", repositoryId := "repository", protectedRef := "refs/heads/main",
    reviewId := "review", expectedProtectedHead := "head", candidateCommit := "commit", candidateTree := "tree",
    policyRevision := "1", requiredReviewRevision := "1", requiredJobSetRevision := "1", jobName := "test" }

def descriptor : NativeOrdinaryDescriptor :=
  { projectId := "project", repositoryId := "repository", protectedRef := "refs/heads/main",
    expectedProtectedHead := "head", candidateCommit := "commit", candidateTree := "tree", policyRevision := "1",
    requiredReviewRevision := "1", requiredJobSetRevision := "1", admissionGeneration := "generation",
    jobName := "test", runnerBaseImage := "runner", bounds, configBlob := { objectId := "config", sha256 := "config" },
    script := { objectId := "script", sha256 := "script", path := ".dim/ci/jobs/test.bash" }, jobImage := "job" }

def request : NativeHostClaimRequest := { requestId := "request", hostId := "host", capacity := "small" }

def assignment : NativeAttemptAssignment :=
  { reviewId := "review", attemptId := "attempt", descriptor, descriptorDigest := nativeDescriptorDigest descriptor,
    admissionGeneration := "generation", hostId := "host", capacity := "small" }

def issuance : NativeJobAttemptIssuance :=
  { issuanceRequestId := "claim", attemptId := "attempt", reviewId := "review", attempt := 1, descriptor,
    descriptorDigest := nativeDescriptorDigest descriptor, hostId := "host", capacity := "small",
    issuedBy := "issuer", issuedAt := "2024-01-01T00:00:00Z" }

def reservation : PreparingReservation :=
  { claimId := "claim", epochId := "epoch-1", event, admissionGeneration := "generation", capacity }

/-- An event accepted under an admission of a first instance. -/
def queued : AuthorityDatabase :=
  (Transaction.acceptEvent event "demand" 3).run store ((Transaction.admitPolicy policy "generation" 2).run store
    (start store 1 .empty))

def reserved : AuthorityDatabase := (Transaction.reserve request "claim" 4).run store queued

def active : AuthorityDatabase := (Transaction.activate request reservation { assignment, issuance } 5).run store reserved

/-- The lease of the claim ran out. -/
def lost : AuthorityDatabase := (Transaction.expire 200).run store active

theorem lost_reachable : Reachable lost :=
  .step (.step (.step (.step (.step (.step (.init rfl) (.start store 1 _)) (.run store _ _)) (.run store _ _))
    (.run store _ _)) (.run store _ _)) (.run store _ _)

/-- From the reserved claim to its lost lease. -/
theorem authority_refines_lost : ∃ s s' : Stage, view reserved "claim" = s.view ∧ view lost "claim" = s'.view ∧
    Relation.ReflTransGen Stage.Move s s' :=
  have hqueued : Reachable queued := .step (.step (.step (.init rfl) (.start store 1 _)) (.run store _ _)) (.run store _ _)
  (authority_refines (hqueued.step (.run store _ _)) (.tail (.single (.run store _ _)) (.run store _ _)) "claim").1

end Sample

theorem authority_agreement_lost : ∃ f ∈ Sample.lost.capacityFences.rows, ∃ c ∈ Sample.lost.claims.rows,
    c.claimId = f.claimId ∧ c.state = .recovering ∧ f.reason = .leaseLost := by
  have h := (@authority_agreement Sample.sha256 _ Sample.lost_reachable).2.2.2.2.2.1
  have hf : ∃ f ∈ Sample.lost.capacityFences.rows, f.reason = .leaseLost := by decide +kernel
  obtain ⟨f, hf, hr⟩ := hf
  obtain ⟨c, hc, hk, hs, -⟩ := h f hf
  exact ⟨f, hf, c, hc, hk, hs, hr⟩

end Dim.Ordinary
