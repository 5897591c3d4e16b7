/-
The end of an admission. The step that ends it supersedes the queued demands of the generation,
fences its active claims and denies its pending reports; a claim in preparation keeps its slot until
it is released. From then on the generation is never active again, and nothing of it is admitted or
current.
-/
import DimProofs.Ordinary.Effect
import DimProofs.Ordinary.VerificationStore

namespace Dim.Ordinary

open Relational

/-! ## What an invalidation may do to a row -/

def Demand.Swept (d d' : Demand) : Prop := d'.admissionGeneration = d.admissionGeneration ∧
  (d'.state = d.state ∨ d.state = .queued ∧ d'.state = .superseded ∨ d.state = .reported ∧ d'.state = .failed)

def Claim.Swept (c c' : Claim) : Prop := c'.admissionGeneration = c.admissionGeneration ∧
  (c'.state = c.state ∨ c.state = .active ∧ c'.state = .recovering ∨ c.state = .reported ∧ c'.state = .released)

def ReportOutbox.Swept (o o' : ReportOutbox) : Prop := o'.state = o.state ∨ o'.state = .denied

theorem Demand.Swept.refl (d : Demand) : d.Swept d := ⟨rfl, Or.inl rfl⟩

theorem Claim.Swept.refl (c : Claim) : c.Swept c := ⟨rfl, Or.inl rfl⟩

theorem ReportOutbox.Swept.refl (o : ReportOutbox) : o.Swept o := Or.inl rfl

theorem Demand.Swept.trans {d d' d'' : Demand} (h : d.Swept d') (h' : d'.Swept d'') : d.Swept d'' := by
  obtain ⟨hg, hs⟩ := h
  obtain ⟨hg', hs'⟩ := h'
  refine ⟨hg'.trans hg, ?_⟩
  rcases hs with hs | ⟨hs, ht⟩ | ⟨hs, ht⟩ <;> simp_all

theorem Claim.Swept.trans {c c' c'' : Claim} (h : c.Swept c') (h' : c'.Swept c'') : c.Swept c'' := by
  obtain ⟨hg, hs⟩ := h
  obtain ⟨hg', hs'⟩ := h'
  refine ⟨hg'.trans hg, ?_⟩
  rcases hs with hs | ⟨hs, ht⟩ | ⟨hs, ht⟩ <;> simp_all

theorem ReportOutbox.Swept.trans {o o' o'' : ReportOutbox} (h : o.Swept o') (h' : o'.Swept o'') : o.Swept o'' := by
  rcases h' with hs | hs
  · rcases h with ht | ht
    · exact Or.inl (hs.trans ht)
    · exact Or.inr (hs.trans ht)
  · exact Or.inr hs

/-- What the invalidation of any generations may do to the tables. -/
structure Sweeps (db db' : AuthorityDatabase) : Prop where
  demands : Table.Grows Demand.Swept db.demands db'.demands
  claims : Table.Grows Claim.Swept db.claims db'.claims
  outbox : Table.Grows ReportOutbox.Swept db.reportOutbox db'.reportOutbox

theorem Sweeps.refl (db : AuthorityDatabase) : Sweeps db db := ⟨.refl .refl _, .refl .refl _, .refl .refl _⟩

theorem Sweeps.trans {db db' db'' : AuthorityDatabase} (h : Sweeps db db') (h' : Sweeps db' db'') : Sweeps db db'' :=
  ⟨h.demands.trans (fun _ _ _ => Demand.Swept.trans) h'.demands,
    h.claims.trans (fun _ _ _ => Claim.Swept.trans) h'.claims,
    h.outbox.trans (fun _ _ _ => ReportOutbox.Swept.trans) h'.outbox⟩

/-- Afterwards no demand of the generation is queued, and no claim of it is active or reported. -/
structure Clears (generation : String) (db db' : AuthorityDatabase) : Prop where
  demands : ∀ k d, db.demands.get? k = some d → d.admissionGeneration = generation →
    ∃ d', db'.demands.get? k = some d' ∧ d'.state ≠ .queued
  claims : ∀ k c, db.claims.get? k = some c → c.admissionGeneration = generation →
    ∃ c', db'.claims.get? k = some c' ∧ c'.state ≠ .active ∧ c'.state ≠ .reported

variable {db db' db'' : AuthorityDatabase}

theorem Sweeps.clears {generation : String} (h : Sweeps db db')
    (h' : Clears generation db' db'') : Clears generation db db'' := by
  constructor
  · intro k d hd hg
    obtain ⟨d', hd', hg', -⟩ := h.demands k d hd
    exact h'.demands k d' hd' (hg'.trans hg)
  · intro k c hc hg
    obtain ⟨c', hc', hg', -⟩ := h.claims k c hc
    exact h'.claims k c' hc' (hg'.trans hg)

theorem Clears.sweeps {generation : String} (h : Clears generation db db')
    (h' : Sweeps db' db'') : Clears generation db db'' := by
  constructor
  · intro k d hd hg
    obtain ⟨d', hd', hs⟩ := h.demands k d hd hg
    obtain ⟨d'', hd'', -, hsw⟩ := h'.demands k d' hd'
    refine ⟨d'', hd'', ?_⟩
    rcases hsw with he | ⟨he, -⟩ | ⟨-, he⟩
    · rwa [he]
    · exact absurd he hs
    · rw [he]
      decide
  · intro k c hc hg
    obtain ⟨c', hc', hs, ht⟩ := h.claims k c hc hg
    obtain ⟨c'', hc'', -, hsw⟩ := h'.claims k c' hc'
    refine ⟨c'', hc'', ?_⟩
    rcases hsw with he | ⟨he, -⟩ | ⟨he, -⟩
    · rw [he]
      exact ⟨hs, ht⟩
    · exact absurd he hs
    · exact absurd he ht

/-- The rows are swept, and those of every generation that ends are cleared. -/
structure Invalidates (db db' : AuthorityDatabase) : Prop where
  sweeps : Sweeps db db'
  clears : ∀ generation, db.grants generation = true → db'.grants generation = false → Clears generation db db'

theorem Invalidates.trans (h : Invalidates db db') (h' : Invalidates db' db'') :
    Invalidates db db'' := by
  refine ⟨h.sweeps.trans h'.sweeps, ?_⟩
  intro generation hbefore hafter
  by_cases hbetween : db'.grants generation = true
  · exact h.sweeps.clears (h'.clears generation hbetween hafter)
  · exact (h.clears generation hbefore (by simpa using hbetween)).sweeps h'.sweeps

/-- An operation that ends no admission. -/
theorem Sweeps.invalidates (h : Sweeps db db')
    (hg : ∀ generation, db.grants generation = true → db'.grants generation = true) : Invalidates db db' := by
  refine ⟨h, ?_⟩
  intro generation hbefore hafter
  rw [hg generation hbefore] at hafter
  cases hafter

theorem grants_of_admissions (h : db'.nativeAdmissions = db.nativeAdmissions) (generation : String) :
    db'.grants generation = db.grants generation := by
  unfold AuthorityDatabase.grants
  rw [h]

/-! ## Fences and denials -/

variable {p : Claim → Bool} {reason : FenceReason}

theorem fenceClaims_sweeps {now : Int}
    (hp : ∀ c, p c = true → c.state = .active) (h : fenceClaims reason p now db = .ok db') : Sweeps db db' := by
  simp only [fenceClaims, bind_ok, pure_ok] at h
  obtain ⟨_, -, claims, hcl, rfl⟩ := h
  refine ⟨.refl .refl _, .update .refl hcl (fun _ => rfl) ?_, .refl .refl _⟩
  intro c _ hc
  exact ⟨rfl, Or.inr (Or.inl ⟨hp c hc, rfl⟩)⟩

/-- The selected claims are not active afterwards. -/
theorem fenceClaims_fenced {now : Int}
    (h : fenceClaims reason p now db = .ok db') {k : String} {c : Claim} (hc : db.claims.get? k = some c) (hp : p c = true) :
    ∃ c', db'.claims.get? k = some c' ∧ c'.state = .recovering := by
  simp only [fenceClaims, bind_ok, pure_ok] at h
  obtain ⟨_, -, claims, hcl, rfl⟩ := h
  exact ⟨_, Table.get?_update_self hcl (fun _ => rfl) hc hp, rfl⟩

namespace ResultStore

variable {c : Claim} {db db' : AuthorityDatabase} {denialCode : Option String} {k : String} {now : Int}

theorem settle_sweeps
    (hcoherent : Coherent db) (hs : settleable k db = some c) (h : settle c .denied denialCode now db = .ok db') :
    Sweeps db db' := by
  obtain ⟨hck, hcs, -, -⟩ := settleable_some hs
  obtain ⟨delivering, hv⟩ := hcoherent.reported_of_claim hck hcs
  obtain ⟨d, hd, hdemand⟩ := hcoherent.demand hck
  have hds : d.state = .reported := by
    have hview := congrArg View.demand hv
    simpa [view, hdemand, Stage.view] using hview
  simp only [settle, bind_ok, pure_ok] at h
  obtain ⟨outbox, ho, claims, hcl, _, -, demands, hde, _, -, rfl⟩ := h
  refine ⟨.update .refl hde (fun _ => rfl) ?_, .update .refl hcl (fun _ => rfl) ?_, .update .refl ho (fun _ => rfl) ?_⟩
  · intro d' hd' hkey
    have hget := Table.get?_of_mem hd'
    rw [show (Schema.key d' : String) = c.demandId by simpa using hkey, hd] at hget
    cases hget
    exact ⟨rfl, Or.inr (Or.inr ⟨hds, rfl⟩)⟩
  · intro c' hc' hkey
    have hget := Table.get?_of_mem hc'
    rw [show (Schema.key c' : String) = k by
      rw [← Table.get?_key hck]
      simpa using hkey, hck] at hget
    cases hget
    exact ⟨rfl, Or.inr (Or.inr ⟨hcs, rfl⟩)⟩
  · intro o _ _
    exact Or.inr rfl

variable {answer : Bool}

theorem completeInTransaction_sweeps (hcoherent : Coherent db)
    (h : completeInTransaction k .denied denialCode now db = .ok (answer, db')) : Sweeps db db' := by
  unfold completeInTransaction at h
  split at h
  · cases h
    exact .refl _
  · rename_i c hs
    simp only [bind_ok, pure_ok, Prod.mk.injEq] at h
    obtain ⟨db₁, h₁, -, rfl⟩ := h
    exact settle_sweeps hcoherent hs h₁

/-- The report of a reported claim can be settled. -/
theorem settleable_of_reported (hcoherent : Coherent db)
    (hck : db.claims.get? k = some c) (hcs : c.state = .reported) : settleable k db = some c := by
  obtain ⟨delivering, hv⟩ := hcoherent.reported_of_claim hck hcs
  have hresult := congrArg View.result hv
  have houtbox := congrArg View.outbox hv
  simp only [view, Stage.view] at hresult houtbox
  obtain ⟨r, hr⟩ := Option.isSome_iff_exists.mp hresult
  obtain ⟨o, ho, hos⟩ := Option.map_eq_some_iff.mp houtbox
  have hclean : r.cleanupComplete = true := by
    have hcheck := db.hostResults.checked r (Table.get?_mem hr)
    simp only [Schema.check, Bool.and_eq_true] at hcheck
    exact hcheck.1
  have hdue : o.state.due = true := by
    rw [hos]
    cases delivering <;> rfl
  simp [settleable, hr, ho, hclean, hdue, hck, hcs, Option.filter]

theorem completeInTransaction_unreported (hcoherent : Coherent db)
    (h : completeInTransaction k .denied denialCode now db = .ok (answer, db'))
    (hck : db.claims.get? k = some c) : ∃ c', db'.claims.get? k = some c' ∧ c'.state ≠ .reported := by
  by_cases hcs : c.state = .reported
  · unfold completeInTransaction at h
    rw [settleable_of_reported hcoherent hck hcs] at h
    simp only [settle, bind_ok, pure_ok, Prod.mk.injEq] at h
    obtain ⟨_, ⟨_, -, claims, hcl, _, -, _, -, _, -, rfl⟩, -, rfl⟩ := h
    exact ⟨_, Table.get?_update_self hcl (fun _ => rfl) hck (by simp), by simp⟩
  · obtain ⟨c', hc', -, hsw⟩ := (completeInTransaction_sweeps hcoherent h).claims k c hck
    refine ⟨c', hc', ?_⟩
    rcases hsw with he | ⟨-, he⟩ | ⟨-, he⟩
    · rwa [he]
    · rw [he]
      decide
    · rw [he]
      decide

variable [Sha256]

theorem denyClaims_sweeps {now : Int} : ∀ {claimIds : List String} {db db' : AuthorityDatabase}, Coherent db →
    denyClaims now claimIds db = .ok db' → Sweeps db db'
  | [], _, _, _, h => by
    cases h
    exact .refl _
  | k :: rest, db, db', hcoherent, h => by
    simp only [denyClaims, bind_ok] at h
    obtain ⟨⟨answer, db₁⟩, h₁, h₂⟩ := h
    have hw : Writes now .results db db₁ := completeInTransaction_writes rfl h₁
    have hrest := denyClaims_sweeps (hw.refines hcoherent).1 h₂
    exact (completeInTransaction_sweeps hcoherent h₁).trans hrest

/-- No claim of the list is reported afterwards. -/
theorem denyClaims_unreported {now : Int} : ∀ {claimIds : List String} {db db' : AuthorityDatabase}, Coherent db →
    denyClaims now claimIds db = .ok db' → ∀ k c, db.claims.get? k = some c → k ∈ claimIds ∨ c.state ≠ .reported →
      ∃ c', db'.claims.get? k = some c' ∧ c'.state ≠ .reported
  | [], _, _, _, h, k, c, hck, hk => by
    cases h
    rcases hk with hk | hk
    · cases hk
    · exact ⟨c, hck, hk⟩
  | k₀ :: rest, db, db', hcoherent, h, k, c, hck, hk => by
    simp only [denyClaims, bind_ok] at h
    obtain ⟨⟨answer, db₁⟩, h₁, h₂⟩ := h
    have hw : Writes now .results db db₁ := completeInTransaction_writes rfl h₁
    have hcoherent₁ := (hw.refines hcoherent).1
    obtain ⟨c₁, hc₁, -, hsw⟩ := (completeInTransaction_sweeps hcoherent h₁).claims k c hck
    by_cases hk₀ : k = k₀
    · subst hk₀
      obtain ⟨c₂, hc₂, hs⟩ := completeInTransaction_unreported hcoherent h₁ hck
      exact denyClaims_unreported hcoherent₁ h₂ k c₂ hc₂ (Or.inr hs)
    · refine denyClaims_unreported hcoherent₁ h₂ k c₁ hc₁ ?_
      rcases hk with hk | hk
      · exact Or.inl ((List.mem_cons.mp hk).resolve_left hk₀)
      · right
        rcases hsw with he | ⟨-, he⟩ | ⟨-, he⟩
        · rwa [he]
        · rw [he]
          decide
        · rw [he]
          decide

end ResultStore

/-! ## Invalidation -/

namespace AuthorityStore

variable {db db' : AuthorityDatabase} {generation : String} {now : Int}

variable [Sha256]

theorem invalidateGeneration_invalidates {state : AdmissionState} (hs : state ≠ .active) (hcoherent : Coherent db)
    (h : invalidateGeneration generation state now db = .ok db') : Invalidates db db' := by
  simp only [invalidateGeneration, ResultStore.denyGeneration, bind_ok] at h
  obtain ⟨nativeAdmissions, ha, demands, hd, db₁, h₁, h₂⟩ := h
  -- the two updates, the denials and the fences, each from a coherent state
  have hwithdrawn : Write now .admissions db { db with nativeAdmissions, demands } := .withdraw rfl hs ha hd
  have hcoherent₀ := (hwithdrawn.refines hcoherent).1
  have hsuperseded : Sweeps db { db with nativeAdmissions, demands } := by
    refine ⟨.update .refl hd (fun _ => rfl) ?_, .refl .refl _, .refl .refl _⟩
    intro d _ hp
    simp only [Bool.and_eq_true, decide_eq_true_eq] at hp
    exact ⟨rfl, Or.inr (Or.inl ⟨hp.2, rfl⟩)⟩
  have hdenied := ResultStore.denyClaims_sweeps hcoherent₀ h₁
  have hfenced : Sweeps db₁ db' := fenceClaims_sweeps (fun _ => Claim.active_of_ofGeneration) h₂
  have hcleared : Clears generation db db' := by
    constructor
    · intro k d hk hg
      have hd₀ : ∃ d₀, demands.get? k = some d₀ ∧ d₀.state ≠ .queued := by
        refine ⟨_, by rw [Table.get?_update hd (fun _ => rfl), hk]; rfl, ?_⟩
        by_cases hq : d.state = .queued <;> simp [Table.updated, hg, hq]
      obtain ⟨d₀, hd₀, hs₀⟩ := hd₀
      obtain ⟨d', hd', -, hsw⟩ := (hdenied.trans hfenced).demands k d₀ hd₀
      refine ⟨d', hd', ?_⟩
      rcases hsw with he | ⟨he, -⟩ | ⟨-, he⟩
      · rwa [he]
      · exact absurd he hs₀
      · rw [he]
        decide
    · intro k c hk hg
      have hlisted : k ∈ (db.claims.rows.filter fun c =>
          c.admissionGeneration = generation && c.state = .reported).map (·.claimId) ∨ c.state ≠ .reported := by
        by_cases hs : c.state = .reported
        · exact Or.inl (List.mem_map.mpr ⟨c, List.mem_filter.mpr ⟨Table.get?_mem hk, by simp [hg, hs]⟩, Table.get?_key hk⟩)
        · exact Or.inr hs
      obtain ⟨c₁, hc₁, hs₁⟩ := ResultStore.denyClaims_unreported hcoherent₀ h₁ k c hk hlisted
      have hg₁ : c₁.admissionGeneration = generation := by
        obtain ⟨c₂, hc₂, hg₂, -⟩ := hdenied.claims k c hk
        rw [hc₁] at hc₂
        cases hc₂
        exact hg₂.trans hg
      by_cases hact : c₁.state = .active
      · obtain ⟨c', hc', hs'⟩ := fenceClaims_fenced h₂ hc₁ (by simp [Claim.ofGeneration, hg₁, hact])
        exact ⟨c', hc', by simp [hs']⟩
      · obtain ⟨c', hc', -, hsw⟩ := hfenced.claims k c₁ hc₁
        refine ⟨c', hc', ?_⟩
        rcases hsw with he | ⟨he, -⟩ | ⟨he, -⟩
        · rw [he]
          exact ⟨hact, hs₁⟩
        · exact absurd he hact
        · exact absurd he hs₁
  refine ⟨hsuperseded.trans (hdenied.trans hfenced), ?_⟩
  intro g hbefore hafter
  by_cases hg : g = generation
  · rw [hg]
    exact hcleared
  · -- the row of another generation is the same
    exfalso
    unfold AuthorityDatabase.grants at hbefore hafter
    have hdenials : Writes now .results _ db₁ := denyClaims_writes rfl h₁
    have hfences : Write now .results db₁ db' := .fence rfl (fun _ => Claim.active_of_ofGeneration) h₂
    rw [hfences.effect.admissions rfl, hdenials.effect.admissions rfl,
      Table.get?_update_ne ha (fun _ => rfl) (by simp) hg, hbefore] at hafter
    cases hafter

theorem replaceGenerations_invalidates {now : Int} : ∀ {generations : List String} {db db' : AuthorityDatabase},
    Coherent db → replaceGenerations now generations db = .ok db' → Invalidates db db'
  | [], _, _, _, h => by
    cases h
    exact (Sweeps.refl _).invalidates fun _ hg => hg
  | generation :: rest, db, db', hcoherent, h => by
    simp only [replaceGenerations, bind_ok] at h
    obtain ⟨db₁, h₁, h₂⟩ := h
    have hw : Writes now .admissions db db₁ := invalidateGeneration_writes rfl (by simp) h₁
    have hrest := replaceGenerations_invalidates (hw.refines hcoherent).1 h₂
    exact (invalidateGeneration_invalidates (by simp) hcoherent h₁).trans hrest

theorem fenceClaims_invalidates {reason : FenceReason} {p : Claim → Bool}
    (hp : ∀ c, p c = true → c.state = .active) (h : fenceClaims reason p now db = .ok db') : Invalidates db db' :=
  have hw : Write now .results db db' := .fence rfl hp h
  (fenceClaims_sweeps hp h).invalidates fun generation hg => by rwa [grants_of_admissions (hw.effect.admissions rfl)]

variable {store : NativeOrdinaryAuthorityStore}

theorem expireInTransaction_invalidates
    (hcoherent : Coherent db) (h : expireInTransaction store now db = .ok db') : Invalidates db db' := by
  simp only [expireInTransaction, bind_ok] at h
  obtain ⟨db₁, h₁, h₂⟩ := h
  have hw : Write now .results db db₁ := .fence rfl (fun _ => Claim.active_of_expiredAt) h₁
  exact (fenceClaims_invalidates (fun _ => Claim.active_of_expiredAt) h₁).trans
    (replaceGenerations_invalidates (hw.refines hcoherent).1 h₂)

theorem beginEpochAndExpire_invalidates
    {answer : Unit} (hcoherent : Coherent db) (h : beginEpochAndExpire store now db = .ok (answer, db')) :
    Invalidates db db' := by
  simp only [beginEpochAndExpire, bind_ok, pure_ok, Prod.mk.injEq] at h
  obtain ⟨ended, hu, fenced, h₁, serviceEpochs, -, db₁, h₂, -, rfl⟩ := h
  have hended : Write now .start db { db with serviceEpochs := ended } := .endEpochs hu
  have hcoherent₀ := (hended.refines hcoherent).1
  have hcoherent₁ := (fenceRestartedClaims_refines h₁ hcoherent₀).1
  have hbegun : Write now .start fenced { fenced with serviceEpochs } := .beginEpoch
  have hepoch : ∀ {db₀ : AuthorityDatabase} (epochs : Table ServiceEpoch),
      Invalidates db₀ { db₀ with serviceEpochs := epochs } := fun epochs =>
    Sweeps.invalidates ⟨.refl .refl _, .refl .refl _, .refl .refl _⟩ fun _ hg => hg
  have hrestart : Invalidates { db with serviceEpochs := ended } fenced :=
    fenceClaims_invalidates (p := Claim.isActive) (fun c hc => by simpa [Claim.isActive] using hc)
      (fenceRestartedClaims_eq hcoherent₀ h₁)
  have hexpired := expireInTransaction_invalidates (hbegun.refines hcoherent₁).1 h₂
  exact (hepoch ended).trans (hrestart.trans ((hepoch serviceEpochs).trans hexpired))

variable {policy : NativeAdmissionPolicy}

theorem insertAdmission_invalidates
    (h : insertAdmission store policy generation now db = .ok db') : Invalidates db db' := by
  simp only [insertAdmission, bind_ok, pure_ok] at h
  obtain ⟨nativeAdmissions, ha, rfl⟩ := h
  refine Sweeps.invalidates ⟨.refl .refl _, .refl .refl _, .refl .refl _⟩ ?_
  intro g hg
  unfold AuthorityDatabase.grants at hg ⊢
  rw [Table.get?_insert ha]
  split
  · rfl
  · exact hg

theorem admitPolicy_invalidates {answer : NativeAdmissionGrant}
    (hcoherent : Coherent db) (h : admitPolicy store policy generation now db = .ok (answer, db')) :
    Invalidates db db' := by
  simp only [admitPolicy, bind_ok] at h
  obtain ⟨db₁, h₁, h⟩ := h
  have hw : Writes now .admissions db db₁ := expireInTransaction_writes rfl h₁
  have hexpired := expireInTransaction_invalidates hcoherent h₁
  have hcoherent₁ := (hw.refines hcoherent).1
  refine hexpired.trans ?_
  split at h
  · split at h
    · simp only [bind_ok, pure_ok, Prod.mk.injEq] at h
      obtain ⟨nativeAdmissions, ha, -, rfl⟩ := h
      refine Sweeps.invalidates ⟨.refl .refl _, .refl .refl _, .refl .refl _⟩ ?_
      -- the refreshed row keeps its state
      intro g hg
      have hstates := Table.map_get?_update ha (fun _ => rfl) NativeAdmission.state (fun _ => rfl) g
      have hsame := congrArg (fun state => state.any (fun s => decide (s = .active))) hstates
      simp only [Option.any_map] at hsame
      exact hsame.trans hg
    · simp only [bind_ok, pure_ok, Prod.mk.injEq] at h
      obtain ⟨db₂, h₂, db₃, h₃, -, rfl⟩ := h
      exact (invalidateGeneration_invalidates (by simp) hcoherent₁ h₂).trans (insertAdmission_invalidates h₃)
  · simp only [bind_ok, pure_ok, Prod.mk.injEq] at h
    obtain ⟨db₂, h₂, -, rfl⟩ := h
    exact insertAdmission_invalidates h₂

theorem revoke_invalidates {projectId repositoryId : String} {answer : Bool} (hcoherent : Coherent db)
    (h : revoke store projectId repositoryId generation now db = .ok (answer, db')) : Invalidates db db' := by
  simp only [revoke, bind_ok] at h
  obtain ⟨db₁, h₁, h⟩ := h
  split at h
  · simp only [bind_ok, pure_ok, Prod.mk.injEq] at h
    obtain ⟨db₂, h₂, -, rfl⟩ := h
    have hw : Writes now .admissions db db₁ := expireInTransaction_writes rfl h₁
    have hcoherent₁ := (hw.refines hcoherent).1
    exact (expireInTransaction_invalidates hcoherent h₁).trans (invalidateGeneration_invalidates (by simp) hcoherent₁ h₂)
  · cases h
    exact (Sweeps.refl _).invalidates fun _ hg => hg

end AuthorityStore

/-! ## The end of a generation -/

section
variable [Sha256]

variable {db db' : AuthorityDatabase}

/-- A transaction leaves the admissions alone, or sweeps the generations it ends. -/
theorem Transaction.body_invalidates {store : NativeOrdinaryAuthorityStore} {t : Transaction}
    (hcoherent : Coherent db) (h : t.body store db = .ok db') :
    db'.nativeAdmissions = db.nativeAdmissions ∨ Invalidates db db' := by
  have heffect := body_effect h
  cases t with
  | expire now =>
    right
    obtain ⟨⟨answer, db₁⟩, h₁, rfl⟩ := map_ok.mp h
    simp only [AuthorityStore.expire, bind_ok, pure_ok, Prod.mk.injEq] at h₁
    obtain ⟨db₂, h₂, -, rfl⟩ := h₁
    exact AuthorityStore.expireInTransaction_invalidates hcoherent h₂
  | admitPolicy policy generation now =>
    obtain ⟨⟨answer, db₁⟩, h₁, rfl⟩ := map_ok.mp h
    exact Or.inr (AuthorityStore.admitPolicy_invalidates hcoherent h₁)
  | revoke projectId repositoryId generation now =>
    obtain ⟨⟨answer, db₁⟩, h₁, rfl⟩ := map_ok.mp h
    exact Or.inr (AuthorityStore.revoke_invalidates hcoherent h₁)
  | _ => exact Or.inl (heffect.admissions rfl)

theorem Step.invalidates (hcoherent : Coherent db) (h : Step db db') :
    db'.nativeAdmissions = db.nativeAdmissions ∨ Invalidates db db' := by
  cases h with
  | start store now =>
    unfold Ordinary.start
    split
    · exact Or.inr (AuthorityStore.beginEpochAndExpire_invalidates hcoherent ‹_›)
    · exact Or.inl rfl
  | run store t =>
    unfold Transaction.run
    split
    · exact Transaction.body_invalidates hcoherent ‹_›
    · exact Or.inl rfl

variable {generation : String}

/-- The step that ends an admission clears its generation. -/
theorem Step.clears (hcoherent : Coherent db) (h : Step db db')
    (hbefore : db.grants generation = true) (hafter : db'.grants generation = false) :
    Sweeps db db' ∧ Clears generation db db' := by
  rcases h.invalidates hcoherent with ha | hi
  · unfold AuthorityDatabase.grants at hbefore hafter
    rw [ha, hbefore] at hafter
    cases hafter
  · exact ⟨hi.sweeps, hi.clears generation hbefore hafter⟩

/-- Over any run a withdrawn admission stays withdrawn, and no claim of its generation is made. -/
theorem withdrawn_of_run (h : Relation.ReflTransGen Step db db')
    (hw : db.Withdrew generation) : db'.Withdrew generation ∧ ∀ k c', db'.claims.get? k = some c' →
      c'.admissionGeneration = generation → (db.claims.get? k).isSome = true := by
  induction h with
  | refl => exact ⟨hw, fun k c' hc' _ => by rw [hc']; rfl⟩
  | tail _ hs ih =>
    obtain ⟨hw₁, hclaims₁⟩ := ih
    obtain ⟨hgrows, hclaims⟩ := hs.withdrawn
    refine ⟨withdrew_of_grows hgrows hw₁, ?_⟩
    intro k c' hc' hg
    rcases hclaims k c' hc' with ⟨c, hc, he⟩ | hnot
    · refine hclaims₁ k c hc ?_
      simp only [Claim.identity, Prod.mk.injEq] at he
      rw [← he.2.2.2.1, hg]
    · exact absurd (hg ▸ hw₁) hnot

omit [Sha256] in
theorem withdrew_of_grants (h : db.Withdrew generation) :
    db.grants generation = false := by
  obtain ⟨a, ha, hs⟩ := h
  simp [AuthorityDatabase.grants, ha, hs]

theorem withdrew_of_step (h : Step db db')
    (hbefore : db.grants generation = true) (hafter : db'.grants generation = false) : db'.Withdrew generation := by
  unfold AuthorityDatabase.grants at hbefore hafter
  obtain ⟨a, ha, -⟩ := Option.any_eq_true _ _ |>.mp hbefore
  obtain ⟨a', ha', -⟩ := h.withdrawn.1 generation a ha
  rw [ha'] at hafter
  exact ⟨a', ha', by simpa using hafter⟩

/-! ## The rows of a generation that ended -/

omit [Sha256] in
theorem queued_superseded (hsweeps : Sweeps db db')
    (hclears : Clears generation db db') {d : Demand} (hd : d ∈ db.demands.rows) (hg : d.admissionGeneration = generation)
    (hq : d.state = .queued) : ∃ d' ∈ db'.demands.rows, d'.demandId = d.demandId ∧ d'.state = .superseded := by
  have hget : db.demands.get? d.demandId = some d := Table.get?_of_mem hd
  obtain ⟨d', hd', -, hsw⟩ := hsweeps.demands _ d hget
  obtain ⟨d₂, hd₂, hs⟩ := hclears.demands _ d hget hg
  rw [hd'] at hd₂
  cases hd₂
  refine ⟨d', Table.get?_mem hd', Table.get?_key hd', ?_⟩
  rcases hsw with he | ⟨-, he⟩ | ⟨he, -⟩
  · exact absurd (he.trans hq) hs
  · exact he
  · rw [hq] at he
    cases he

theorem active_fenced (hcoherent : Coherent db) (h : Step db db')
    (hsweeps : Sweeps db db') (hclears : Clears generation db db') {c : Claim} (hc : c ∈ db.claims.rows)
    (hg : c.admissionGeneration = generation) (ha : c.state = .active) :
    (∃ c' ∈ db'.claims.rows, c'.claimId = c.claimId ∧ c'.state = .recovering) ∧
      ∃ f ∈ db'.capacityFences.rows, f.claimId = c.claimId ∧ f.hostId = c.hostId ∧ f.capacity = c.capacity := by
  have hget : db.claims.get? c.claimId = some c := Table.get?_of_mem hc
  obtain ⟨hcoherent', hevolves⟩ := h.refines hcoherent
  obtain ⟨c', hc', hid⟩ := hevolves.claims _ c hget
  obtain ⟨c₁, hc₁, -, hsw⟩ := hsweeps.claims _ c hget
  obtain ⟨c₂, hc₂, hs, -⟩ := hclears.claims _ c hget hg
  rw [hc'] at hc₁ hc₂
  cases hc₁
  cases hc₂
  have hrecovering : c'.state = .recovering := by
    rcases hsw with he | ⟨-, he⟩ | ⟨he, -⟩
    · exact absurd (he.trans ha) hs
    · exact he
    · rw [ha] at he
      cases he
  obtain ⟨f, hf, hk⟩ := hcoherent'.fence hc' hrecovering
  have hslot : (f.hostId, f.capacity) = (c'.hostId, c'.capacity) := Table.get?_key hf
  simp only [Claim.identity, Prod.mk.injEq] at hid hslot
  refine ⟨⟨c', Table.get?_mem hc', Table.get?_key hc', hrecovering⟩, f, Table.get?_mem hf, hk, ?_, ?_⟩
  · rw [hslot.1, hid.1]
  · rw [hslot.2, hid.2.1]

theorem reported_denied (hcoherent : Coherent db) (h : Step db db')
    (hsweeps : Sweeps db db') (hclears : Clears generation db db') {c : Claim} (hc : c ∈ db.claims.rows)
    (hg : c.admissionGeneration = generation) (hr : c.state = .reported) :
    (∃ c' ∈ db'.claims.rows, c'.claimId = c.claimId ∧ c'.state = .released) ∧
      (∃ o ∈ db'.reportOutbox.rows, o.claimId = c.claimId ∧ o.state = .denied) ∧
        ∃ d ∈ db'.demands.rows, d.demandId = c.demandId ∧ d.state = .failed := by
  have hget : db.claims.get? c.claimId = some c := Table.get?_of_mem hc
  obtain ⟨hcoherent', hevolves⟩ := h.refines hcoherent
  obtain ⟨c', hc', hid⟩ := hevolves.claims _ c hget
  obtain ⟨c₁, hc₁, -, hsw⟩ := hsweeps.claims _ c hget
  obtain ⟨c₂, hc₂, -, hs⟩ := hclears.claims _ c hget hg
  rw [hc'] at hc₁ hc₂
  cases hc₁
  cases hc₂
  have hreleased : c'.state = .released := by
    rcases hsw with he | ⟨he, -⟩ | ⟨-, he⟩
    · exact absurd (he.trans hr) hs
    · rw [hr] at he
      cases he
    · exact he
  -- the report was due, and an invalidation delivers none
  obtain ⟨delivering, hv⟩ := hcoherent.reported_of_claim hget hr
  obtain ⟨o, ho, hos⟩ := Option.map_eq_some_iff.mp (congrArg View.outbox hv)
  obtain ⟨o', ho', hosw⟩ := hsweeps.outbox _ o ho
  obtain ⟨s, hstage, hclaim⟩ := hcoherent'.stage_of_claim hc'
  have houtbox : s.view.outbox = some o'.state := by
    rw [← hstage]
    simp [view, ho']
  have hdenied : s = .settled .denied := by
    rw [hreleased] at hclaim
    cases s with
    | recovered => simp [Stage.view] at houtbox
    | settled outcome =>
      cases outcome with
      | denied => rfl
      | delivered =>
        simp only [Stage.view, Option.some.injEq, ReportOutcome.outboxState] at houtbox
        rcases hosw with he | he
        · rw [he, hos] at houtbox
          cases delivering <;> cases houtbox
        · rw [he] at houtbox
          cases houtbox
    | _ => simp [Stage.view] at hclaim
  obtain ⟨d, hd, hdemand⟩ := hcoherent'.demand hc'
  have hfailed := congrArg View.demand hstage
  simp only [view, hdemand, hdenied, Stage.view, Option.map_some, Option.some.injEq, ReportOutcome.demandState] at hfailed
  simp only [hdenied, Stage.view, Option.some.injEq, ReportOutcome.outboxState] at houtbox
  simp only [Claim.identity, Prod.mk.injEq] at hid
  refine ⟨⟨c', Table.get?_mem hc', Table.get?_key hc', hreleased⟩,
    ⟨o', Table.get?_mem ho', Table.get?_key ho', houtbox.symm⟩, d, Table.get?_mem hd, ?_, hfailed⟩
  rw [← hid.2.2.1]
  exact Table.get?_key hd

variable {r : ClaimReceipt}

/-- A reservation of the generation keeps its slot in that step. -/
theorem preparing_kept (hcoherent : Coherent db) (h : Step db db')
    (hsweeps : Sweeps db db') (hr : r ∈ db.claimReceipts.rows) (hp : r.state = .preparing) :
    ∃ r' ∈ db'.claimReceipts.rows, r'.claimId = r.claimId ∧ r'.state = .preparing ∧ r'.identity = r.identity := by
  have hget : db.claimReceipts.get? r.claimId = some r := Table.get?_of_mem hr
  obtain ⟨hcoherent', hevolves⟩ := h.refines hcoherent
  obtain ⟨r', hr', hid⟩ := hevolves.receipts _ r hget
  obtain ⟨d, hd, hds⟩ := Option.map_eq_some_iff.mp (congrArg View.demand (hcoherent.preparing_of_receipt hget hp))
  obtain ⟨demandId, hdemandId, hd⟩ := Option.bind_eq_some_iff.mp hd
  rw [hget, Option.bind_some] at hdemandId
  obtain ⟨d', hd', -, hsw⟩ := hsweeps.demands _ d hd
  have hpreparing : d'.state = .preparing := by
    rcases hsw with he | ⟨he, -⟩ | ⟨he, -⟩
    · exact he.trans hds
    · rw [hds] at he
      cases he
    · rw [hds] at he
      cases he
  obtain ⟨s, hstage, hreceipt⟩ := hcoherent'.stage_of_receipt hr'
  have hdemand : s.view.demand = some .preparing := by
    simp only [ClaimReceipt.identity, Prod.mk.injEq] at hid
    rw [← hstage]
    simp [view, demandOf, hr', hid.2.2.2.1, hdemandId, hd', hpreparing]
  refine ⟨r', Table.get?_mem hr', Table.get?_key hr', ?_, hid⟩
  cases s with
  | preparing => simpa [Stage.view] using hreceipt.symm
  | settled outcome => cases outcome <;> simp [Stage.view, ReportOutcome.demandState] at hdemand
  | _ => simp [Stage.view] at hdemand

omit [Sha256] in
/-- A reservation that got no claim is preparing, or was released without one. -/
theorem Stage.preparing_run {s : Stage} (h : Relation.ReflTransGen Stage.Move .preparing s) :
    s = .preparing ∨ s = .withdrawn ∨ s.view.claim ≠ none := by
  induction h with
  | refl => exact Or.inl rfl
  | tail _ hmove ih =>
    rcases ih with rfl | rfl | hclaim
    · cases hmove with
      | activate => exact Or.inr (Or.inr (by simp [Stage.view]))
      | withdraw => exact Or.inr (Or.inl rfl)
    · cases hmove
    · right
      right
      cases hmove <;> simp_all [Stage.view]

/-- After the end of its generation a reservation is never activated. -/
theorem preparing_never_active (hcoherent : Coherent db)
    (hw : db.Withdrew generation) (hrun : Relation.ReflTransGen Step db db')
    (hr : r ∈ db.claimReceipts.rows) (hg : r.admissionGeneration = some generation) (hp : r.state = .preparing) :
    ∃ r' ∈ db'.claimReceipts.rows, r'.claimId = r.claimId ∧ (r'.state = .preparing ∨ r'.state = .released) := by
  have hget : db.claimReceipts.get? r.claimId = some r := Table.get?_of_mem hr
  have hv := hcoherent.preparing_of_receipt hget hp
  obtain ⟨hcoherent', hevolves⟩ := run_refines hrun hcoherent
  obtain ⟨r', hr', hid⟩ := hevolves.receipts _ r hget
  obtain ⟨s, hstage, hmoves⟩ := hevolves.stages _ _ hv
  have hnone : db'.claims.get? r.claimId = none := by
    cases hc' : db'.claims.get? r.claimId with
    | none => rfl
    | some c' =>
      exfalso
      obtain ⟨r₂, hr₂, -, -, -, hgen⟩ := hcoherent'.receipt hc'
      rw [hr'] at hr₂
      cases hr₂
      simp only [ClaimReceipt.identity, Prod.mk.injEq] at hid
      rw [hid.2.2.2.2, hg, Option.some.injEq] at hgen
      have hbefore := (withdrawn_of_run hrun hw).2 _ c' hc' hgen.symm
      have hclaim := congrArg View.claim hv
      simp only [view, Stage.view, Option.map_eq_none_iff] at hclaim
      rw [hclaim] at hbefore
      cases hbefore
  have hreceipt : s.view.receipt = some r'.state := by
    rw [← hstage]
    simp [view, hr']
  refine ⟨r', Table.get?_mem hr', Table.get?_key hr', ?_⟩
  rcases Stage.preparing_run hmoves with rfl | rfl | hclaim
  · exact Or.inl (by simpa [Stage.view] using hreceipt.symm)
  · exact Or.inr (by simpa [Stage.view] using hreceipt.symm)
  · exact absurd (by rw [← hstage]; simp [view, hnone]) hclaim

/-- Revocation is final. The step that ends an admission supersedes the queued demands of its generation,
fences its active claims and denies its pending reports; its reservations keep their slots and are never
activated; and in no later state is the generation active, or anything of it admitted or current. -/
theorem revocation_final {db db' db'' : AuthorityDatabase} (h : Reachable db) (hs : Step db db') {generation : String}
    (hbefore : db.grants generation = true) (hafter : db'.grants generation = false)
    (hrun : Relation.ReflTransGen Step db' db'') :
    (∀ d ∈ db.demands.rows, d.admissionGeneration = generation → d.state = .queued →
      ∃ d' ∈ db'.demands.rows, d'.demandId = d.demandId ∧ d'.state = .superseded) ∧
    (∀ c ∈ db.claims.rows, c.admissionGeneration = generation → c.state = .active →
      (∃ c' ∈ db'.claims.rows, c'.claimId = c.claimId ∧ c'.state = .recovering) ∧
        ∃ f ∈ db'.capacityFences.rows, f.claimId = c.claimId ∧ f.hostId = c.hostId ∧ f.capacity = c.capacity) ∧
    (∀ c ∈ db.claims.rows, c.admissionGeneration = generation → c.state = .reported →
      (∃ c' ∈ db'.claims.rows, c'.claimId = c.claimId ∧ c'.state = .released) ∧
        (∃ o ∈ db'.reportOutbox.rows, o.claimId = c.claimId ∧ o.state = .denied) ∧
          ∃ d ∈ db'.demands.rows, d.demandId = c.demandId ∧ d.state = .failed) ∧
    (∀ r ∈ db.claimReceipts.rows, r.admissionGeneration = some generation → r.state = .preparing →
      (∃ r' ∈ db'.claimReceipts.rows, r'.claimId = r.claimId ∧ r'.state = .preparing) ∧
        ∃ r'' ∈ db''.claimReceipts.rows, r''.claimId = r.claimId ∧ (r''.state = .preparing ∨ r''.state = .released)) ∧
    db''.grants generation = false ∧
    (∀ options input now, input.descriptor.admissionGeneration = generation →
      VerificationStore.admitted options input now db'' = false) ∧
    (∀ options input now, input.admissionGeneration = generation →
      VerificationStore.current options input now db'' = false) ∧
    ∀ options input, input.admissionGeneration = generation → ResultStore.currentResult options input db'' = false := by
  have hcoherent := coherent_of_reachable h
  obtain ⟨hcoherent', -⟩ := hs.refines hcoherent
  obtain ⟨hsweeps, hclears⟩ := hs.clears hcoherent hbefore hafter
  have hw := withdrew_of_step hs hbefore hafter
  have hlater : db''.grants generation = false := withdrew_of_grants (withdrawn_of_run hrun hw).1
  refine ⟨fun d hd hg hq => queued_superseded hsweeps hclears hd hg hq,
    fun c hc hg ha => active_fenced hcoherent hs hsweeps hclears hc hg ha,
    fun c hc hg hr => reported_denied hcoherent hs hsweeps hclears hc hg hr, ?_, hlater, ?_, ?_, ?_⟩
  · intro r hr hg hp
    obtain ⟨r', hr', hk, hp', hid⟩ := preparing_kept hcoherent hs hsweeps hr hp
    have hg' : r'.admissionGeneration = some generation := by
      simp only [ClaimReceipt.identity, Prod.mk.injEq] at hid
      rw [hid.2.2.2.2, hg]
    obtain ⟨r'', hr'', hk'', hs''⟩ := preparing_never_active hcoherent' hw hrun hr' hg' hp'
    exact ⟨⟨r', hr', hk, hp'⟩, r'', hr'', hk''.trans hk, hs''⟩
  · intro options input now hg
    by_contra hne
    rw [← hg, VerificationStore.admitted_grants (by simpa using hne)] at hlater
    cases hlater
  · intro options input now hg
    by_contra hne
    rw [← hg, VerificationStore.current_grants (by simpa using hne)] at hlater
    cases hlater
  · intro options input hg
    by_contra hne
    rw [← hg, ResultStore.currentResult_grants (by simpa using hne)] at hlater
    cases hlater

end

namespace Sample

attribute [local instance] sha256

theorem reserved_reachable : Reachable reserved :=
  .step (.step (.step (.step (.init rfl) (.start store 1 _)) (.run store _ _)) (.run store _ _)) (.run store _ _)

/-- The admission of a reservation is revoked. -/
def revoked : AuthorityDatabase := (Transaction.revoke "project" "repository" "generation" 5).run store reserved

/-- The admission of an active claim is revoked. -/
def ended : AuthorityDatabase := (Transaction.revoke "project" "repository" "generation" 6).run store active

end Sample

/-- The claim of the revoked admission is fenced, and its generation is over. -/
theorem revocation_final_ended : (∃ c ∈ Sample.ended.claims.rows, c.claimId = "claim" ∧ c.state = .recovering) ∧
    Sample.ended.grants "generation" = false := by
  have hs : @Step Sample.sha256 Sample.active Sample.ended := @Step.run Sample.sha256 Sample.store _ _
  have hreachable : @Reachable Sample.sha256 Sample.active :=
    .step Sample.reserved_reachable (@Step.run Sample.sha256 Sample.store _ _)
  obtain ⟨-, hactive, -, -, hlater, -⟩ := @revocation_final Sample.sha256 _ _ _ hreachable hs "generation"
    (by decide +kernel) (by decide +kernel) .refl
  have hclaim : ∃ c ∈ Sample.active.claims.rows, c.claimId = "claim" ∧ c.admissionGeneration = "generation" ∧
      c.state = .active := by
    decide +kernel
  obtain ⟨c, hc, hk, hg, ha⟩ := hclaim
  obtain ⟨⟨c', hc', hk', hs'⟩, -⟩ := hactive c hc hg ha
  exact ⟨⟨c', hc', hk'.trans hk, hs'⟩, hlater⟩

/-- A reservation of the revoked generation is neither fenced nor released. -/
theorem reservation_kept : @Reachable Sample.sha256 Sample.reserved ∧ @Step Sample.sha256 Sample.reserved Sample.revoked ∧
    Sample.reserved.grants "generation" = true ∧ Sample.revoked.grants "generation" = false ∧
      (∃ r ∈ Sample.revoked.claimReceipts.rows, r.admissionGeneration = some "generation" ∧ r.state = .preparing) ∧
        Sample.revoked.capacityFences.rows = [] :=
  ⟨Sample.reserved_reachable, @Step.run Sample.sha256 Sample.store _ _, by decide +kernel, by decide +kernel,
    by decide +kernel, by decide +kernel⟩

end Dim.Ordinary
