/-
What the six tables say together about one claim id, as a state machine: a claim id is absent,
holds an empty answer, or moves from a reservation through activity and a report or a recovery to
one of four released ends. `Coherent` says that every claim id is at such a stage, that no two
held receipts share a slot, and how the rows of one claim refer to each other. `Refines` is the
claim about an operation that the run theorems compose.
-/
import DimProofs.Ordinary.ResultStore

namespace Dim.Ordinary

open Relational

/-! ## The stages of a claim -/

inductive Stage where
  | absent
  | empty
  | preparing
  | active
  | reported (delivering : Bool)
  | recovering
  | withdrawn
  | recovered
  | settled (outcome : ReportOutcome)

/-- The states of the rows that belong to one claim id. -/
structure View where
  receipt : Option ReceiptState
  demand : Option DemandState
  claim : Option ClaimState
  (fenced result : Bool)
  outbox : Option OutboxState

/-- The rows of a claim at a stage. -/
def Stage.view : Stage → View
  | .absent => ⟨none, none, none, false, false, none⟩
  | .empty => ⟨some .empty, none, none, false, false, none⟩
  | .preparing => ⟨some .preparing, some .preparing, none, false, false, none⟩
  | .active => ⟨some .active, some .claimed, some .active, false, false, none⟩
  | .reported d => ⟨some .reported, some .reported, some .reported, false, true, some (if d then .delivering else .pending)⟩
  | .recovering => ⟨some .recovering, some .claimed, some .recovering, true, false, none⟩
  | .withdrawn => ⟨some .released, some .superseded, none, false, false, none⟩
  | .recovered => ⟨some .released, some .superseded, some .released, false, false, none⟩
  | .settled o => ⟨some .released, some o.demandState, some .released, false, true, some o.outboxState⟩

/-- The moves of a claim. -/
inductive Stage.Move : Stage → Stage → Prop
  | answerEmpty : Move .absent .empty
  | reserve : Move .absent .preparing
  | activate : Move .preparing .active
  | withdraw : Move .preparing .withdrawn
  | fence : Move .active .recovering
  | recover : Move .recovering .recovered
  | report : Move .active (.reported false)
  | take (d : Bool) : Move (.reported d) (.reported true)
  | retry : Move (.reported true) (.reported false)
  | settle (d : Bool) (o : ReportOutcome) : Move (.reported d) (.settled o)

theorem Stage.view_injective {s s' : Stage} (h : s.view = s'.view) : s = s' := by
  cases s with
  | reported d =>
    cases s' with
    | reported d' => cases d <;> cases d' <;> simp_all [Stage.view]
    | _ => simp [Stage.view] at h
  | settled o =>
    cases s' with
    | settled o' => cases o <;> cases o' <;> simp_all [Stage.view, ReportOutcome.demandState]
    | _ => simp [Stage.view] at h
  | _ => cases s' <;> simp_all [Stage.view]

/-- A released claim stays at its end. -/
theorem Stage.Move.not_released {s s' : Stage} (h : Stage.Move s s') : s.view.receipt ≠ some .released := by
  cases h <;> simp [Stage.view]

/-- Only an absent claim id becomes an empty answer. -/
theorem Stage.Move.not_empty {s s' : Stage} (h : Stage.Move s s') (hs : s ≠ .absent) :
    s'.view.receipt ≠ some .empty := by
  cases h <;> simp_all [Stage.view]

/-- A move never takes a slot, but for the reservation. -/
theorem Stage.Move.held {s s' : Stage} (h : Stage.Move s s') (hs : s ≠ .absent) :
    s'.view.receipt.any (·.held) = true → s.view.receipt.any (·.held) = true := by
  cases h <;> simp_all [Stage.view, ReceiptState.held]

/-! ## The view of a claim id -/

/-- The demand of a claim id's receipt. -/
def demandOf (db : AuthorityDatabase) (claimId : String) : Option Demand :=
  ((db.claimReceipts.get? claimId).bind (·.demandId)).bind db.demands.get?

def view (db : AuthorityDatabase) (claimId : String) : View where
  receipt := (db.claimReceipts.get? claimId).map (·.state)
  demand := (demandOf db claimId).map (·.state)
  claim := (db.claims.get? claimId).map (·.state)
  fenced := db.capacityFences.any (·.claimId = claimId)
  result := (db.hostResults.get? claimId).isSome
  outbox := (db.reportOutbox.get? claimId).map (·.state)

/-- What of a receipt no operation changes. -/
def ClaimReceipt.identity (r : ClaimReceipt) : String × String × String × Option String × Option String :=
  (r.hostId, r.capacity, r.requestId, r.demandId, r.admissionGeneration)

/-- What of a claim no operation changes. -/
def Claim.identity (c : Claim) : String × String × String × String × String × String × String × NativeJobAttemptIssuance :=
  (c.hostId, c.capacity, c.demandId, c.admissionGeneration, c.attemptId, c.descriptorDigest, c.serviceEpochId,
    c.issuance)

/-- The joint state of the tables is a fixed relation. -/
structure Coherent (db : AuthorityDatabase) : Prop where
  staged : ∀ claimId, ∃ s : Stage, view db claimId = s.view
  slots : ∀ r ∈ db.claimReceipts.rows, ∀ r' ∈ db.claimReceipts.rows, r.state.held = true → r'.state.held = true →
    r.hostId = r'.hostId → r.capacity = r'.capacity → r.claimId = r'.claimId
  claimLinks : ∀ c ∈ db.claims.rows, ∃ r, db.claimReceipts.get? c.claimId = some r ∧ r.hostId = c.hostId ∧
    r.capacity = c.capacity ∧ r.demandId = some c.demandId ∧ r.admissionGeneration = some c.admissionGeneration
  fenceLinks : ∀ f ∈ db.capacityFences.rows, ∃ c, db.claims.get? f.claimId = some c ∧ c.hostId = f.hostId ∧
    c.capacity = f.capacity
  empties : ∀ r ∈ db.claimReceipts.rows, r.state = .empty → r.demandId = none

/-- What an operation does to the claims that are there: each moves along the stages, and no receipt
or claim is lost or changes its identity. -/
structure Evolves (db db' : AuthorityDatabase) : Prop where
  stages : ∀ claimId s, view db claimId = s.view →
    ∃ s', view db' claimId = s'.view ∧ Relation.ReflTransGen Stage.Move s s'
  receipts : ∀ claimId r, db.claimReceipts.get? claimId = some r →
    ∃ r', db'.claimReceipts.get? claimId = some r' ∧ r'.identity = r.identity
  claims : ∀ claimId c, db.claims.get? claimId = some c →
    ∃ c', db'.claims.get? claimId = some c' ∧ c'.identity = c.identity

theorem Evolves.refl (db : AuthorityDatabase) : Evolves db db :=
  ⟨fun _ s hs => ⟨s, hs, .refl⟩, fun _ r hr => ⟨r, hr, rfl⟩, fun _ c hc => ⟨c, hc, rfl⟩⟩

theorem Evolves.trans {db₁ db₂ db₃ : AuthorityDatabase} (h : Evolves db₁ db₂) (h' : Evolves db₂ db₃) :
    Evolves db₁ db₃ := by
  refine ⟨?_, ?_, ?_⟩
  · intro claimId s hs
    obtain ⟨s₂, hs₂, hr⟩ := h.stages claimId s hs
    obtain ⟨s₃, hs₃, hr'⟩ := h'.stages claimId s₂ hs₂
    exact ⟨s₃, hs₃, hr.trans hr'⟩
  · intro claimId r hr
    obtain ⟨r₂, hr₂, he⟩ := h.receipts claimId r hr
    obtain ⟨r₃, hr₃, he'⟩ := h'.receipts claimId r₂ hr₂
    exact ⟨r₃, hr₃, he'.trans he⟩
  · intro claimId c hc
    obtain ⟨c₂, hc₂, he⟩ := h.claims claimId c hc
    obtain ⟨c₃, hc₃, he'⟩ := h'.claims claimId c₂ hc₂
    exact ⟨c₃, hc₃, he'.trans he⟩

/-- An operation keeps the tables coherent and moves every claim along the stages. -/
def Refines (db db' : AuthorityDatabase) : Prop := Coherent db → Coherent db' ∧ Evolves db db'

theorem Refines.refl (db : AuthorityDatabase) : Refines db db := fun h => ⟨h, .refl db⟩

theorem Refines.trans {db₁ db₂ db₃ : AuthorityDatabase} (h : Refines db₁ db₂) (h' : Refines db₂ db₃) :
    Refines db₁ db₃ := by
  intro hc
  obtain ⟨hc₂, hm⟩ := h hc
  obtain ⟨hc₃, hm'⟩ := h' hc₂
  exact ⟨hc₃, hm.trans hm'⟩

theorem Coherent.empty : Coherent .empty where
  staged _ := ⟨.absent, rfl⟩
  slots r hr := by cases hr
  claimLinks c hc := by cases hc
  fenceLinks f hf := by cases hf
  empties r hr := by cases hr

/-! ## Rows of a coherent database -/

variable {db db' : AuthorityDatabase} {k : String}

/-- The view depends only on the rows of the claim id. -/
theorem view_congr (hr : db'.claimReceipts.get? k = db.claimReceipts.get? k)
    (hd : (demandOf db' k).map (·.state) = (demandOf db k).map (·.state))
    (hc : db'.claims.get? k = db.claims.get? k)
    (hf : db'.capacityFences.any (·.claimId = k) = db.capacityFences.any (·.claimId = k))
    (hh : db'.hostResults.get? k = db.hostResults.get? k)
    (ho : (db'.reportOutbox.get? k).map (·.state) = (db.reportOutbox.get? k).map (·.state)) :
    view db' k = view db k := by
  simp only [view, hr, hd, hc, hf, hh, ho]

variable {d : String} {r : ClaimReceipt}

/-- Two receipts of one demand are the same receipt. -/
theorem receipt_of_demand {k' : String} {r' : ClaimReceipt}
    (hr : db.claimReceipts.get? k = some r) (hr' : db.claimReceipts.get? k' = some r')
    (hd : r.demandId = some d) (hd' : r'.demandId = some d) : k = k' := by
  have he : r = r' := db.claimReceipts.eq_of_conflict (Table.get?_mem hr) (Table.get?_mem hr')
    (conflict_of_clash (by simp [Schema.clash, hd, hd']))
  rw [← Table.get?_key hr, ← Table.get?_key hr', he]

variable {x : String}

/-- An update of one demand is seen by no other claim's view. -/
theorem demandOf_ne (demands : Table Demand)
    (hr : db.claimReceipts.get? x = some r) (hd : r.demandId = some d) (hne : k ≠ x)
    (hu : ∀ d', d' ≠ d → demands.get? d' = db.demands.get? d') :
    ((db.claimReceipts.get? k).bind (·.demandId)).bind demands.get? = demandOf db k := by
  unfold demandOf
  rcases hk : db.claimReceipts.get? k with _ | r'
  · rfl
  · rcases hd' : r'.demandId with _ | d'
    · simp [hd']
    · have : d' ≠ d := by
        rintro rfl
        exact hne (receipt_of_demand hk hr hd' hd)
      simp [hd', hu d' this]

variable {c : Claim}

/-- Rows of a claim that has a claim row. -/
theorem Coherent.receipt (h : Coherent db)
    (hc : db.claims.get? k = some c) : ∃ r, db.claimReceipts.get? k = some r ∧ r.hostId = c.hostId ∧
      r.capacity = c.capacity ∧ r.demandId = some c.demandId ∧ r.admissionGeneration = some c.admissionGeneration := by
  have hk : c.claimId = k := Table.get?_key hc
  obtain ⟨r, hr⟩ := h.claimLinks c (Table.get?_mem hc)
  rw [hk] at hr
  exact ⟨r, hr⟩

/-- The demand of a claim row. -/
theorem Coherent.demand (h : Coherent db)
    (hc : db.claims.get? k = some c) : ∃ d, db.demands.get? c.demandId = some d ∧ demandOf db k = some d := by
  obtain ⟨r, hr, -, -, hrd, -⟩ := h.receipt hc
  have he : demandOf db k = db.demands.get? c.demandId := by simp [demandOf, hr, hrd]
  obtain ⟨s, hs⟩ := h.staged k
  have hclaim := congrArg View.claim hs
  have hdem := congrArg View.demand hs
  simp only [view, hc, he, Option.map_some] at hclaim hdem
  rcases hd : db.demands.get? c.demandId with _ | d
  · rw [hd] at hdem
    cases s <;> simp [Stage.view] at hclaim hdem
  · exact ⟨d, rfl, he.trans hd⟩

/-- The stage of a claim row. -/
theorem Coherent.stage_of_claim (h : Coherent db)
    (hc : db.claims.get? k = some c) : ∃ s : Stage, view db k = s.view ∧ s.view.claim = some c.state := by
  obtain ⟨s, hs⟩ := h.staged k
  refine ⟨s, hs, ?_⟩
  rw [← hs]
  simp [view, hc]

/-- The stage of a receipt. -/
theorem Coherent.stage_of_receipt (h : Coherent db)
    (hr : db.claimReceipts.get? k = some r) : ∃ s : Stage, view db k = s.view ∧ s.view.receipt = some r.state := by
  obtain ⟨s, hs⟩ := h.staged k
  refine ⟨s, hs, ?_⟩
  rw [← hs]
  simp [view, hr]

theorem Coherent.active_of_claim (h : Coherent db)
    (hc : db.claims.get? k = some c) (ha : c.state = .active) : view db k = Stage.active.view := by
  obtain ⟨s, hs, hsc⟩ := h.stage_of_claim hc
  rw [ha] at hsc
  cases s <;> simp [Stage.view] at hsc
  exact hs

theorem Coherent.recovering_of_claim (h : Coherent db)
    (hc : db.claims.get? k = some c) (ha : c.state = .recovering) : view db k = Stage.recovering.view := by
  obtain ⟨s, hs, hsc⟩ := h.stage_of_claim hc
  rw [ha] at hsc
  cases s <;> simp [Stage.view] at hsc
  exact hs

theorem Coherent.reported_of_claim (h : Coherent db)
    (hc : db.claims.get? k = some c) (ha : c.state = .reported) : ∃ d, view db k = (Stage.reported d).view := by
  obtain ⟨s, hs, hsc⟩ := h.stage_of_claim hc
  rw [ha] at hsc
  cases s with
  | reported d => exact ⟨d, hs⟩
  | _ => simp [Stage.view] at hsc

/-- Only a recovering claim has a fence. -/
theorem Coherent.recovering_of_fenced (h : Coherent db)
    (hf : db.capacityFences.any (·.claimId = k) = true) : view db k = Stage.recovering.view := by
  obtain ⟨s, hs⟩ := h.staged k
  have hsf : s.view.fenced = true := by rw [← hs]; exact hf
  cases s <;> simp [Stage.view] at hsf
  exact hs

/-- Two unreleased claims of one slot are the same claim. -/
theorem Coherent.claim_unique (h : Coherent db) {k' : String} {c' : Claim}
    (hc : db.claims.get? k = some c) (hc' : db.claims.get? k' = some c') (hs : c.state ≠ .released)
    (hs' : c'.state ≠ .released) (hh : c.hostId = c'.hostId) (hcap : c.capacity = c'.capacity) : k = k' := by
  have held : ∀ {k c r}, db.claims.get? k = some c → c.state ≠ .released → db.claimReceipts.get? k = some r →
      r.state.held = true := by
    intro k c r hc hs hr
    obtain ⟨s, hv, hsc⟩ := h.stage_of_claim hc
    have hsr : s.view.receipt = some r.state := by rw [← hv]; simp [view, hr]
    cases s <;> simp_all [Stage.view] <;> rw [← hsr] <;> rfl
  obtain ⟨r, hr, rh, rc, -⟩ := h.receipt hc
  obtain ⟨r', hr', rh', rc', -⟩ := h.receipt hc'
  have := h.slots r (Table.get?_mem hr) r' (Table.get?_mem hr') (held hc hs hr) (held hc' hs' hr')
    (by rw [rh, rh', hh]) (by rw [rc, rc', hcap])
  have kr : r.claimId = k := Table.get?_key hr
  have kr' : r'.claimId = k' := Table.get?_key hr'
  rw [← kr, ← kr', this]

theorem Coherent.preparing_of_receipt (h : Coherent db)
    (hr : db.claimReceipts.get? k = some r) (ha : r.state = .preparing) : view db k = Stage.preparing.view := by
  obtain ⟨s, hs, hsr⟩ := h.stage_of_receipt hr
  rw [ha] at hsr
  cases s <;> simp [Stage.view] at hsr
  exact hs

/-- The fence of a recovering claim stands in its slot. -/
theorem Coherent.fence (h : Coherent db) (hc : db.claims.get? k = some c) (ha : c.state = .recovering) :
    ∃ f, db.capacityFences.get? (c.hostId, c.capacity) = some f ∧ f.claimId = k := by
  have hv := congrArg View.fenced (h.recovering_of_claim hc ha)
  simp only [view, Stage.view, Table.any_eq_true, decide_eq_true_eq] at hv
  obtain ⟨f, hf, hfk⟩ := hv
  obtain ⟨c', hc', hh, hcap⟩ := h.fenceLinks f hf
  rw [hfk, hc] at hc'
  cases hc'
  refine ⟨f, ?_, hfk⟩
  have := Table.get?_of_mem hf
  rw [hh, hcap]
  exact this

/-! ## The frame of an operation -/

/-- What the operations on existing claims leave alone. -/
structure Frame (db db' : AuthorityDatabase) : Prop where
  receipts : ∀ k, (db'.claimReceipts.get? k).map ClaimReceipt.identity = (db.claimReceipts.get? k).map ClaimReceipt.identity
  claims : ∀ k, (db'.claims.get? k).map Claim.identity = (db.claims.get? k).map Claim.identity
  fences : ∀ f ∈ db'.capacityFences.rows, f ∈ db.capacityFences.rows ∨
    ∃ c, db.claims.get? f.claimId = some c ∧ c.hostId = f.hostId ∧ c.capacity = f.capacity

/-- The rows an operation on one claim `x` and its demand `d` leaves alone. -/
structure Touches (db db' : AuthorityDatabase) (x d : String) : Prop where
  receipts : ∀ k, k ≠ x → db'.claimReceipts.get? k = db.claimReceipts.get? k
  demands : ∀ k, k ≠ d → db'.demands.get? k = db.demands.get? k
  claims : ∀ k, k ≠ x → db'.claims.get? k = db.claims.get? k
  fences : ∀ k, k ≠ x → db'.capacityFences.any (·.claimId = k) = db.capacityFences.any (·.claimId = k)
  results : ∀ k, k ≠ x → db'.hostResults.get? k = db.hostResults.get? k
  outbox : ∀ k, k ≠ x → db'.reportOutbox.get? k = db.reportOutbox.get? k

theorem Touches.view_eq (h : Touches db db' x d)
    (hr : db.claimReceipts.get? x = some r) (hd : r.demandId = some d) (hne : k ≠ x) : view db' k = view db k := by
  refine view_congr (h.receipts k hne) ?_ (h.claims k hne) (h.fences k hne) (h.results k hne) ?_
  · have hde := demandOf_ne db'.demands hr hd hne (fun k' hk' => h.demands k' hk')
    unfold demandOf
    rw [h.receipts k hne, hde]
    rfl
  · rw [h.outbox k hne]

/-- A fence row of `x` is the only one that a deletion or an insertion for `x` can change. -/
theorem any_fence_delete (t : Table CapacityFence) (hne : k ≠ x) :
    (t.delete (·.claimId = x)).any (·.claimId = k) = t.any (·.claimId = k) := by
  rw [Table.any_delete]
  congr 1
  funext f
  by_cases hf : f.claimId = k
  · simp [hf, hne]
  · simp [hf]

theorem any_fence_delete_self (t : Table CapacityFence) (x : String) :
    (t.delete (·.claimId = x)).any (·.claimId = x) = false := by
  rw [Table.any_delete, Table.any_eq_false]
  intro f _
  by_cases hf : f.claimId = x <;> simp [hf]

/-- The rule for an operation within the frame: one move, or none, of every claim. -/
theorem refines_of_frame (hf : Frame db db')
    (hv : Coherent db → ∀ k s, view db k = s.view → ∃ s', view db' k = s'.view ∧
      (s' = s ∨ (Stage.Move s s' ∧ s ≠ .absent))) : Refines db db' := by
  intro hc
  have hmove := hv hc
  -- an unchanged identity carries host, capacity, demand and generation over
  have hrec : ∀ k r', db'.claimReceipts.get? k = some r' → ∃ r, db.claimReceipts.get? k = some r ∧
      r'.identity = r.identity := by
    intro k r' hr'
    have := hf.receipts k
    rw [hr', Option.map_some] at this
    obtain ⟨r, hr, he⟩ := Option.map_eq_some_iff.mp this.symm
    exact ⟨r, hr, he.symm⟩
  have hclaim : ∀ k c', db'.claims.get? k = some c' → ∃ c, db.claims.get? k = some c ∧
      c'.identity = c.identity := by
    intro k c' hc'
    have := hf.claims k
    rw [hc', Option.map_some] at this
    obtain ⟨c, hcc, he⟩ := Option.map_eq_some_iff.mp this.symm
    exact ⟨c, hcc, he.symm⟩
  have hheld : ∀ k r r', db.claimReceipts.get? k = some r → db'.claimReceipts.get? k = some r' →
      r'.state.held = true → r.state.held = true := by
    intro k r r' hr hr' hheld
    obtain ⟨s, hs⟩ := hc.staged k
    obtain ⟨s', hs', hmv⟩ := hmove k s hs
    have e : s.view.receipt = some r.state := by rw [← hs]; simp [view, hr]
    have e' : s'.view.receipt = some r'.state := by rw [← hs']; simp [view, hr']
    rcases hmv with rfl | ⟨hmv, hne⟩
    · rw [Option.some.inj (e.symm.trans e')]; exact hheld
    · have := hmv.held hne
      rw [e, e'] at this
      simpa using this (by simpa using hheld)
  refine ⟨⟨?_, ?_, ?_, ?_, ?_⟩, ⟨?_, ?_, ?_⟩⟩
  · intro k
    obtain ⟨s, hs⟩ := hc.staged k
    obtain ⟨s', hs', -⟩ := hmove k s hs
    exact ⟨s', hs'⟩
  · intro r hr u hu hrh huh hh hcap
    have hr' := Table.get?_of_mem hr
    have hu' := Table.get?_of_mem hu
    obtain ⟨r₀, hr₀, er⟩ := hrec _ _ hr'
    obtain ⟨u₀, hu₀, eu⟩ := hrec _ _ hu'
    simp only [ClaimReceipt.identity, Prod.mk.injEq] at er eu
    have := hc.slots r₀ (Table.get?_mem hr₀) u₀ (Table.get?_mem hu₀) (hheld _ _ _ hr₀ hr' hrh)
      (hheld _ _ _ hu₀ hu' huh) (by rw [← er.1, ← eu.1, hh]) (by rw [← er.2.1, ← eu.2.1, hcap])
    have kr : r₀.claimId = r.claimId := Table.get?_key hr₀
    have ku : u₀.claimId = u.claimId := Table.get?_key hu₀
    rw [← kr, ← ku, this]
  · intro c hcm
    obtain ⟨c₀, hc₀, ec⟩ := hclaim _ _ (Table.get?_of_mem hcm)
    obtain ⟨r₀, hr₀, h1, h2, h3, h4⟩ := hc.receipt hc₀
    have := hf.receipts c.claimId
    have hkey : (Schema.key c : String) = c.claimId := rfl
    rw [hkey] at hr₀
    rw [hr₀, Option.map_some] at this
    obtain ⟨r, hr, er⟩ := Option.map_eq_some_iff.mp this
    simp only [ClaimReceipt.identity, Claim.identity, Prod.mk.injEq] at er ec
    exact ⟨r, hr, by rw [er.1, h1, ec.1], by rw [er.2.1, h2, ec.2.1], by rw [er.2.2.2.1, h3, ec.2.2.1],
      by rw [er.2.2.2.2, h4, ec.2.2.2.1]⟩
  · intro f hfm
    have hold : ∃ c, db.claims.get? f.claimId = some c ∧ c.hostId = f.hostId ∧ c.capacity = f.capacity := by
      rcases hf.fences f hfm with h | h
      · exact hc.fenceLinks f h
      · exact h
    obtain ⟨c, hcc, h1, h2⟩ := hold
    have := hf.claims f.claimId
    rw [hcc, Option.map_some] at this
    obtain ⟨c', hc', ec⟩ := Option.map_eq_some_iff.mp this
    simp only [Claim.identity, Prod.mk.injEq] at ec
    exact ⟨c', hc', by rw [ec.1, h1], by rw [ec.2.1, h2]⟩
  · intro r' hr' hempty
    have hget := Table.get?_of_mem hr'
    obtain ⟨r, hr, er⟩ := hrec _ _ hget
    simp only [ClaimReceipt.identity, Prod.mk.injEq] at er
    obtain ⟨s, hs⟩ := hc.staged (Schema.key r')
    obtain ⟨s', hs', hmv⟩ := hmove _ s hs
    have e : s.view.receipt = some r.state := by rw [← hs]; simp only [view, hr, Option.map_some]
    have e' : s'.view.receipt = some .empty := by rw [← hs', ← hempty]; simp only [view, hget, Option.map_some]
    rcases hmv with rfl | ⟨hmv, hne⟩
    · rw [er.2.2.2.1]
      exact hc.empties r (Table.get?_mem hr) (Option.some.inj (e.symm.trans e'))
    · exact absurd e' (hmv.not_empty hne)
  · intro k s hs
    obtain ⟨s', hs', hmv⟩ := hmove k s hs
    refine ⟨s', hs', ?_⟩
    rcases hmv with rfl | ⟨hmv, -⟩
    · exact .refl
    · exact .single hmv
  · intro k r hr
    have := hf.receipts k
    rw [hr, Option.map_some] at this
    exact Option.map_eq_some_iff.mp this
  · intro k c hck
    have := hf.claims k
    rw [hck, Option.map_some] at this
    exact Option.map_eq_some_iff.mp this

/-- The rule for an operation on one claim: that claim moves, the others keep their view. -/
theorem refines_of_touches {a b : Stage}
    (hf : Frame db db') (ht : Touches db db' x d) (hr : db.claimReceipts.get? x = some r)
    (hd : r.demandId = some d) (hv : Coherent db → view db x = a.view ∧ view db' x = b.view)
    (hm : b = a ∨ (Stage.Move a b ∧ a ≠ .absent)) : Refines db db' := by
  refine refines_of_frame hf ?_
  intro hc k s hs
  by_cases hk : k = x
  · subst hk
    obtain ⟨h₀, h₁⟩ := hv hc
    rw [Stage.view_injective (hs.symm.trans h₀)]
    exact ⟨b, h₁, hm⟩
  · exact ⟨s, by rw [ht.view_eq hr hd hk]; exact hs, Or.inl rfl⟩

/-- The rule for an operation that no view shows. -/
theorem refines_of_view_eq (hf : Frame db db')
    (hv : Coherent db → ∀ k, view db' k = view db k) : Refines db db' :=
  refines_of_frame hf fun hc k s hs => ⟨s, (hv hc k).trans hs, Or.inl rfl⟩

end Dim.Ordinary
