/-
Events are taken in once. Both replay fences of an accepted event stay for ever, so a (review, job)
tuple has one demand over any run, and one claim; a redelivery finds the fence of its event id and is
answered from it, without a write, whatever the queue holds.
-/
import DimProofs.Ordinary.Effect

namespace Dim.Ordinary

open Relational

/-- An event is read back from its canonical text. -/
theorem canonicalNativeEvent_injective {event other : NativeReviewJobEvent}
    (h : canonicalNativeEvent event = canonicalNativeEvent other) : event = other := by
  unfold canonicalNativeEvent at h
  have hread := fun hc => Json.object_injective hc h
  simp only [List.forall₂_cons, List.forall₂_nil_left_iff, true_and, and_true, List.cons.injEq, Prod.mk.injEq,
    Json.string_cancels, Json.Cancels.refl, Json.string_inj, forall_const] at hread
  obtain ⟨h₁, h₂, h₃, h₄, h₅, h₆, h₇, h₈, h₉, h₁₀, h₁₁, h₁₂⟩ := hread
  cases event
  cases other
  simp only [NativeReviewJobEvent.mk.injEq]
  exact ⟨h₁, h₂, h₃, h₄, h₅, h₆, h₇, h₈, h₉, h₁₀, h₁₁, h₁₂⟩

/-! ## One demand for a tuple -/

def Demand.tuple (d : Demand) : String × String := (d.reviewId, d.jobName)

/-- The tuple of a demand is fenced, and no other demand has it. -/
structure Replayed (db : AuthorityDatabase) : Prop where
  fenced : ∀ d ∈ db.demands.rows, (db.reviewJobReplayFences.get? d.tuple).isSome = true
  single : ∀ d ∈ db.demands.rows, ∀ d' ∈ db.demands.rows, d'.tuple = d.tuple → d'.demandId = d.demandId

theorem Replayed.empty : Replayed .empty := ⟨fun d hd => (by cases hd), fun d hd => (by cases hd)⟩

def Demand.Follows (d d' : Demand) : Prop := d.identity = d'.identity

theorem Demand.Follows.refl (d : Demand) : d.Follows d := rfl

/-- Both kinds of fences and the demands are there for ever. -/
structure Remembers (db db' : AuthorityDatabase) : Prop where
  eventFences : Table.Grows (· = ·) db.nativeEventReplayFences db'.nativeEventReplayFences
  tupleFences : Table.Grows (· = ·) db.reviewJobReplayFences db'.reviewJobReplayFences
  demands : Table.Grows Demand.Follows db.demands db'.demands

theorem Remembers.refl (db : AuthorityDatabase) : Remembers db db :=
  ⟨.refl (fun _ => rfl) _, .refl (fun _ => rfl) _, .refl .refl _⟩

theorem Remembers.trans {db db' db'' : AuthorityDatabase} (h : Remembers db db') (h' : Remembers db' db'') :
    Remembers db db'' :=
  ⟨h.eventFences.trans (fun _ _ _ => Eq.trans) h'.eventFences, h.tupleFences.trans (fun _ _ _ => Eq.trans) h'.tupleFences,
    h.demands.trans (fun _ _ _ h h' => h.trans h') h'.demands⟩

/-- A demand of the state after has its identity from the state before. -/
theorem Keeps.demand {db db' : AuthorityDatabase} (h : Keeps db db') {d : Demand} (hd : d ∈ db'.demands.rows) :
    ∃ d₀ ∈ db.demands.rows, d₀.demandId = d.demandId ∧ d₀.tuple = d.tuple := by
  have hget : db'.demands.get? d.demandId = some d := Table.get?_of_mem hd
  have hid := h.demands d.demandId
  rw [hget, Option.map_some] at hid
  obtain ⟨d₀, hd₀, he⟩ := Option.map_eq_some_iff.mp hid.symm
  simp only [Demand.identity, Prod.mk.injEq] at he
  exact ⟨d₀, Table.get?_mem hd₀, Table.get?_key hd₀, by simp [Demand.tuple, he.2.1, he.2.2.1]⟩

theorem Keeps.remembers {db db' : AuthorityDatabase} (h : Keeps db db') : Remembers db db' := by
  refine ⟨by rw [h.eventFences]; exact .refl (fun _ => rfl) _, by rw [h.tupleFences]; exact .refl (fun _ => rfl) _, ?_⟩
  intro k d hd
  have hid := h.demands k
  rw [hd, Option.map_some] at hid
  obtain ⟨d', hd', he⟩ := Option.map_eq_some_iff.mp hid
  exact ⟨d', hd', he.symm⟩

theorem Replayed.keeps {db db' : AuthorityDatabase} (h : Replayed db) (hk : Keeps db db') : Replayed db' := by
  constructor
  · intro d hd
    obtain ⟨d₀, hd₀, -, ht⟩ := hk.demand hd
    rw [hk.tupleFences, ← ht]
    exact h.fenced d₀ hd₀
  · intro d hd d' hd' hsame
    obtain ⟨d₀, hd₀, hid, ht⟩ := hk.demand hd
    obtain ⟨d₀', hd₀', hid', ht'⟩ := hk.demand hd'
    rw [← hid, ← hid']
    exact h.single d₀ hd₀ d₀' hd₀' (by rw [ht, ht', hsame])

section
variable [Sha256]

/-! ## The intake of an event -/

/-- The fence of the event is in its place. -/
def Fences (event : NativeReviewJobEvent) (db : AuthorityDatabase) : Prop :=
  db.nativeEventReplayFences.get? event.eventId = some { eventId := event.eventId, eventDigest := nativeEventDigest event }

/-- A replay that is recognised: nothing is written, or the fence of a new id for a known tuple. -/
structure Recognised (event : NativeReviewJobEvent) (answer : NativeEventIntakeResult) (db db' : AuthorityDatabase) :
    Prop where
  unchanged : answer ≠ .accepted → db' = db
  accepted : answer = .accepted → Fences event db'
  keeps : Remembers db db' ∧ db'.demands = db.demands ∧ db'.reviewJobReplayFences = db.reviewJobReplayFences

variable {answer : NativeEventIntakeResult} {db : AuthorityDatabase} {event : NativeReviewJobEvent}

omit [Sha256] in
/-- An answer from the fences that are there. -/
theorem Recognised.idle [Sha256] (h : answer = .accepted → Fences event db) : Recognised event answer db db :=
  ⟨fun _ => rfl, h, .refl db, rfl, rfl⟩

/-- The insertion of an event fence. -/
theorem Recognised.insert {fences : Table EventReplayFence}
    (h : db.nativeEventReplayFences.insert (ε := AuthorityError)
      { eventId := event.eventId, eventDigest := nativeEventDigest event } = .ok fences) :
    Recognised event .accepted db { db with nativeEventReplayFences := fences } := by
  refine ⟨fun hne => absurd rfl hne, fun _ => ?_, ⟨.insert (fun _ => rfl) h, .refl (fun _ => rfl) _, .refl .refl _⟩,
    rfl, rfl⟩
  show fences.get? event.eventId = _
  rw [Table.get?_insert h]
  simp

omit [Sha256] in
theorem fence_of_digest [Sha256] {fence : EventReplayFence}
    (h : db.nativeEventReplayFences.get? event.eventId = some fence) (hd : fence.eventDigest = nativeEventDigest event) :
    Fences event db := by
  have hid : fence.eventId = event.eventId := Table.get?_key h
  unfold Fences
  rw [h, ← hid, ← hd]

variable {db' : AuthorityDatabase}

theorem replayInTransaction_recognised (h : EventStore.replayInTransaction event (nativeEventDigest event)
      (nativeReviewJobTupleDigest event) db = .ok (answer, db')) : Recognised event answer db db' := by
  unfold EventStore.replayInTransaction at h
  split at h
  · rename_i fence hfence
    cases h
    refine .idle fun ha => fence_of_digest hfence ?_
    by_contra hne
    rw [if_neg hne] at ha
    cases ha
  split at h
  · cases h
    exact .idle fun ha => by cases ha
  split at h
  · cases h
    exact .idle fun ha => by cases ha
  split at h
  · cases h
    exact .idle fun ha => by cases ha
  · simp only [bind_ok, pure_ok, Prod.mk.injEq] at h
    obtain ⟨fences, hi, rfl, rfl⟩ := h
    exact .insert hi

theorem checkReplay_recognised (h : EventStore.checkReplay event db = .ok (answer, db')) :
    Recognised event answer db db' := by
  unfold EventStore.checkReplay at h
  split at h
  · rename_i fence hfence
    cases h
    refine .idle fun ha => fence_of_digest hfence ?_
    by_contra hne
    rw [if_neg hne] at ha
    cases ha
  split at h
  · cases h
    exact .idle fun ha => by cases ha
  split at h
  · cases h
    exact .idle fun ha => by cases ha
  split at h
  · cases h
    exact .idle fun ha => by cases ha
  · simp only [bind_ok, pure_ok, Prod.mk.injEq] at h
    obtain ⟨fences, hi, rfl, rfl⟩ := h
    exact .insert hi

theorem Recognised.replayed (h : Recognised event answer db db') (hr : Replayed db) : Replayed db' := by
  obtain ⟨-, hdemands, htuples⟩ := h.keeps
  refine ⟨?_, ?_⟩
  · rw [hdemands, htuples]
    exact hr.fenced
  · rw [hdemands]
    exact hr.single

variable {demandId : String} {now : Int}

/-- The intake of a new event. -/
theorem insertAccepted_ok {generation : String}
    (h : EventStore.insertAccepted event generation demandId now db = .ok db') :
    Remembers db db' ∧ Fences event db' ∧ (Replayed db → Replayed db') := by
  simp only [EventStore.insertAccepted, bind_ok, pure_ok] at h
  obtain ⟨fences, hf, tuples, ht, inbox, -, demands, hd, inbox', -, rfl⟩ := h
  refine ⟨⟨.insert (fun _ => rfl) hf, .insert (fun _ => rfl) ht, .insert .refl hd⟩, ?_, ?_⟩
  · show fences.get? event.eventId = _
    rw [Table.get?_insert hf]
    simp
  intro hr
  have hfresh : db.reviewJobReplayFences.get? (event.reviewId, event.jobName) = none := Table.get?_insert_fresh ht
  have hother : ∀ d ∈ db.demands.rows, d.tuple ≠ (event.reviewId, event.jobName) := by
    intro d hdm he
    have hsome := hr.fenced d hdm
    rw [he, hfresh] at hsome
    cases hsome
  constructor
  · refine Table.all_insert hd (fun d hdm => Table.isSome_insert ht (hr.fenced d hdm)) ?_
    show (tuples.get? (event.reviewId, event.jobName)).isSome = true
    rw [Table.get?_insert ht]
    simp
  · -- the tuple had no fence, so no demand had it
    intro d hdm d' hdm' hsame
    rw [Table.insert_rows hd, List.mem_append, List.mem_singleton] at hdm hdm'
    rcases hdm with hdm | rfl <;> rcases hdm' with hdm' | rfl
    · exact hr.single d hdm d' hdm' hsame
    · exact absurd hsame.symm (hother d hdm)
    · exact absurd hsame (hother d' hdm')
    · rfl

/-- What an intake may answer, and what it leaves. -/
theorem accept_ok {options : EventStoreOptions}
    (h : EventStore.accept options event demandId now db = .ok (answer, db')) :
    Recognised event answer db db' ∨ ∃ generation, answer = .accepted ∧
      EventStore.insertAccepted event generation demandId now db = .ok db' := by
  simp only [EventStore.accept, bind_ok] at h
  obtain ⟨⟨replay, db₁⟩, h₁, h⟩ := h
  split at h
  · cases h
    exact Or.inl (replayInTransaction_recognised h₁)
  split at h
  · cases h
    exact Or.inl (.idle fun ha => by cases ha)
  split at h
  · cases h
    exact Or.inl (.idle fun ha => by cases ha)
  split at h
  · cases h
    exact Or.inl (.idle fun ha => by cases ha)
  · simp only [bind_ok, pure_ok, Prod.mk.injEq] at h
    obtain ⟨db₂, h₂, rfl, rfl⟩ := h
    exact Or.inr ⟨_, rfl, h₂⟩

/-! ## Runs -/

theorem Step.remembers (h : Step db db') :
    Remembers db db' ∧ (Replayed db → Replayed db') := by
  rcases h.keeps with hk | ⟨event, answer, hc⟩ | ⟨options, event, demandId, now, answer, ha⟩
  · exact ⟨hk.remembers, fun hr => hr.keeps hk⟩
  · have hrec := checkReplay_recognised hc
    exact ⟨hrec.keeps.1, hrec.replayed⟩
  · rcases accept_ok ha with hrec | ⟨generation, -, hi⟩
    · exact ⟨hrec.keeps.1, hrec.replayed⟩
    · obtain ⟨hgrow, -, hr⟩ := insertAccepted_ok hi
      exact ⟨hgrow, hr⟩

theorem replayed_of_reachable {db : AuthorityDatabase} (h : Reachable db) : Replayed db := by
  refine Transition.Reachable.invariant (I := Replayed) ?_ (fun _ _ hr hs => hs.remembers.2 hr) h
  rintro _ rfl
  exact .empty

theorem run_remembers {db db' : AuthorityDatabase} (h : Relation.ReflTransGen Step db db') : Remembers db db' := by
  induction h with
  | refl => exact .refl _
  | tail _ hs ih => exact ih.trans hs.remembers.1

/-- A fenced event is answered from its fence. -/
theorem Fences.answers (h : Fences event db)
    {other : NativeReviewJobEvent} (hid : other.eventId = event.eventId) (options : EventStoreOptions)
    (demandId : String) (now : Int) :
    (nativeEventDigest other = nativeEventDigest event →
      EventStore.accept options other demandId now db = .ok (.accepted, db) ∧
        EventStore.checkReplay other db = .ok (.accepted, db)) ∧
    (nativeEventDigest other ≠ nativeEventDigest event →
      EventStore.accept options other demandId now db = .ok (.conflict, db) ∧
        EventStore.checkReplay other db = .ok (.new, db)) := by
  unfold Fences at h
  rw [← hid] at h
  constructor
  · intro hd
    have hreplay : EventStore.replayInTransaction other (nativeEventDigest other) (nativeReviewJobTupleDigest other) db =
        .ok (.accepted, db) := by
      unfold EventStore.replayInTransaction
      rw [h]
      simp only [hd, if_true]
      rfl
    constructor
    · unfold EventStore.accept
      rw [hreplay]
      rfl
    · unfold EventStore.checkReplay
      rw [h]
      simp only [hd, if_true]
      rfl
  · intro hd
    have hreplay : EventStore.replayInTransaction other (nativeEventDigest other) (nativeReviewJobTupleDigest other) db =
        .ok (.conflict, db) := by
      unfold EventStore.replayInTransaction
      rw [h]
      simp only [Ne.symm hd, if_false]
      rfl
    constructor
    · unfold EventStore.accept
      rw [hreplay]
      rfl
    · unfold EventStore.checkReplay
      rw [h]
      simp only [Ne.symm hd, if_false]
      rfl

/-- The state in which an event was just answered as accepted. -/
def Delivered (event : NativeReviewJobEvent) (db : AuthorityDatabase) : Prop := ∃ before,
  (∃ options demandId now, EventStore.accept options event demandId now before = .ok (.accepted, db)) ∨
    EventStore.checkReplay event before = .ok (.accepted, db)

theorem Delivered.fences (h : Delivered event db) :
    Fences event db := by
  obtain ⟨before, ⟨options, demandId, now, ha⟩ | hc⟩ := h
  · rcases accept_ok ha with hrec | ⟨generation, -, hi⟩
    · exact hrec.accepted rfl
    · exact (insertAccepted_ok hi).2.1
  · exact (checkReplay_recognised hc).accepted rfl

/-- Neither fence knows the event. -/
def Unseen (event : NativeReviewJobEvent) (db : AuthorityDatabase) : Prop :=
  db.nativeEventReplayFences.get? event.eventId = none ∧
    db.reviewJobReplayFences.get? (event.reviewId, event.jobName) = none

omit [Sha256] in
/-- The fences or the queue are full. -/
def Saturated (db : AuthorityDatabase) : Prop :=
  replayFenceLimit ≤ db.nativeEventReplayFences.count (fun _ => true) ∨
    replayFenceLimit ≤ db.reviewJobReplayFences.count (fun _ => true) ∨
    nonterminalDemandLimit ≤ EventStore.nonterminalDemandCount db

omit [Sha256] in
/-- The tuple of the demand that a claim was made for. -/
def Claim.tuple (db : AuthorityDatabase) (c : Claim) : Option (String × String) :=
  (db.demands.get? c.demandId).map Demand.tuple

/-- No later state has another demand for a tuple. -/
theorem demand_once (h : Reachable db) (hrun : Relation.ReflTransGen Step db db') {d d' : Demand}
    (hd : d ∈ db.demands.rows) (hd' : d' ∈ db'.demands.rows) (ht : d'.tuple = d.tuple) : d'.demandId = d.demandId := by
  obtain ⟨d₂, hd₂, hid⟩ := (run_remembers hrun).demands d.demandId d (Table.get?_of_mem hd)
  simp only [Demand.Follows, Demand.identity, Prod.mk.injEq] at hid
  have hlater := replayed_of_reachable (h.trans hrun)
  rw [hlater.single d₂ (Table.get?_mem hd₂) d' hd' (by rw [ht]; simp [Demand.tuple, hid.2.1, hid.2.2.1])]
  exact Table.get?_key hd₂

/-- No later state has another claim for a tuple. -/
theorem claim_once (h : Reachable db) (hrun : Relation.ReflTransGen Step db db') {c c' : Claim}
    (hc : c ∈ db.claims.rows) (hc' : c' ∈ db'.claims.rows) (ht : c'.tuple db' = c.tuple db) : c'.claimId = c.claimId := by
  have hcoherent := coherent_of_reachable h
  obtain ⟨hcoherent', hevolves⟩ := run_refines hrun hcoherent
  obtain ⟨d, hd, -⟩ := hcoherent.demand (Table.get?_of_mem hc)
  obtain ⟨d', hd', -⟩ := hcoherent'.demand (Table.get?_of_mem hc')
  simp only [Claim.tuple, hd, hd', Option.map_some, Option.some.injEq] at ht
  have hdemand : c'.demandId = c.demandId := by
    have honce := demand_once h hrun (Table.get?_mem hd) (Table.get?_mem hd') ht
    have hk : d.demandId = c.demandId := Table.get?_key hd
    have hk' : d'.demandId = c'.demandId := Table.get?_key hd'
    rw [← hk, ← hk', honce]
  obtain ⟨c₂, hc₂, hid⟩ := hevolves.claims c.claimId c (Table.get?_of_mem hc)
  simp only [Claim.identity, Prod.mk.injEq] at hid
  -- `demand_id` is UNIQUE in `claims`
  have hsame : c₂ = c' := db'.claims.eq_of_conflict (Table.get?_mem hc₂) hc'
    (conflict_of_clash (by simp [Schema.clash, hid.2.2.1, hdemand]))
  rw [← hsame]
  exact Table.get?_key hc₂

/-- A saturated database takes no event in that it has not seen. -/
theorem saturated_refuses {options : EventStoreOptions} (hs : Saturated db) (hu : Unseen event db) :
    EventStore.accept options event demandId now db = .ok (.full, db) ∨
      EventStore.accept options event demandId now db = .ok (.notFound, db) := by
  have hreplay : EventStore.replayInTransaction event (nativeEventDigest event) (nativeReviewJobTupleDigest event) db =
      .ok (.new, db) := by
    unfold EventStore.replayInTransaction
    rw [hu.1, hu.2]
    rfl
  have hfull : (replayFenceLimit ≤ db.nativeEventReplayFences.count (fun _ => true)
      || replayFenceLimit ≤ db.reviewJobReplayFences.count (fun _ => true)
      || nonterminalDemandLimit ≤ EventStore.nonterminalDemandCount db) = true := by
    simpa [Saturated, or_assoc] using hs
  unfold EventStore.accept
  rw [hreplay]
  cases ha : EventStore.activeAdmission options event db with
  | none => exact Or.inr rfl
  | some admission =>
    by_cases hexpired : admission.expiresAt ≤ now
    · right
      show (if admission.expiresAt ≤ now then _ else _) = _
      rw [if_pos hexpired]
      rfl
    · left
      show (if admission.expiresAt ≤ now then _ else if _ then _ else _) = _
      rw [if_neg hexpired, if_pos hfull]
      rfl

/-- Events are taken in once. Over any run a tuple has one demand and one claim; an accepted event is
accepted again without a write; its id with other content is a conflict, which `checkReplay` leaves to
`acceptEvent`; and a refusal for want of room changes nothing. -/
theorem event_replay {db db' : AuthorityDatabase} (h : Reachable db) (hrun : Relation.ReflTransGen Step db db') :
    (∀ d ∈ db.demands.rows, ∀ d' ∈ db'.demands.rows, d'.tuple = d.tuple → d'.demandId = d.demandId) ∧
    (∀ c ∈ db.claims.rows, ∀ c' ∈ db'.claims.rows, c'.tuple db' = c.tuple db → c'.claimId = c.claimId) ∧
    (∀ event, Delivered event db → ∀ options demandId now,
      EventStore.accept options event demandId now db' = .ok (.accepted, db') ∧
        EventStore.checkReplay event db' = .ok (.accepted, db')) ∧
    (∀ event other, Delivered event db → other.eventId = event.eventId → other ≠ event →
      (nativeEventDigest other = nativeEventDigest event → canonicalNativeEvent other = canonicalNativeEvent event) →
      ∀ options demandId now, EventStore.accept options other demandId now db' = .ok (.conflict, db') ∧
        EventStore.checkReplay other db' = .ok (.new, db')) ∧
    (∀ options event demandId now db'', EventStore.accept options event demandId now db' = .ok (.full, db'') ∨
      EventStore.checkReplay event db' = .ok (.full, db'') → db'' = db') ∧
    ∀ options event demandId now, Saturated db' → Unseen event db' →
      EventStore.accept options event demandId now db' = .ok (.full, db') ∨
        EventStore.accept options event demandId now db' = .ok (.notFound, db') := by
  have hfences : ∀ {event}, Delivered event db → Fences event db' := by
    intro event hdelivered
    obtain ⟨fence, hf, rfl⟩ := (run_remembers hrun).eventFences event.eventId _ hdelivered.fences
    exact hf
  refine ⟨fun d hd d' hd' => demand_once h hrun hd hd', fun c hc c' hc' => claim_once h hrun hc hc', ?_, ?_, ?_, ?_⟩
  · intro event hdelivered options demandId now
    exact ((hfences hdelivered).answers rfl options demandId now).1 rfl
  · intro event other hdelivered hid hne hcollision options demandId now
    refine ((hfences hdelivered).answers hid options demandId now).2 fun hdigest => hne ?_
    exact canonicalNativeEvent_injective (hcollision hdigest)
  · rintro options event demandId now db'' (ha | hc)
    · rcases accept_ok ha with hrec | ⟨generation, hanswer, -⟩
      · exact hrec.unchanged (by simp)
      · cases hanswer
    · exact (checkReplay_recognised hc).unchanged (by simp)
  · exact fun options event demandId now hs hu => saturated_refuses hs hu

end

namespace Sample

attribute [local instance] sha256

/-- The event id of `event` with another commit. -/
def changedEvent : NativeReviewJobEvent := { event with candidateCommit := "other" }

theorem queued_reachable : Reachable queued :=
  .step (.step (.step (.init rfl) (.start store 1 _)) (.run store _ _)) (.run store _ _)

/-- The first delivery of the event is answered as accepted. -/
theorem queued_delivered : Delivered event queued := by
  let before : AuthorityDatabase := (Transaction.admitPolicy policy "generation" 2).run store (start store 1 .empty)
  have hanswer : (EventStore.accept (AuthorityStore.eventStore store) event "demand" 3 before).toOption.map (·.1) =
      some .accepted := by
    decide +kernel
  refine ⟨before, Or.inl ⟨AuthorityStore.eventStore store, "demand", 3, ?_⟩⟩
  show _ = Except.ok (_, (Transaction.acceptEvent event "demand" 3).run store before)
  cases h : EventStore.accept (AuthorityStore.eventStore store) event "demand" 3 before with
  | error e =>
    rw [h] at hanswer
    cases hanswer
  | ok answer =>
    rw [h] at hanswer
    obtain ⟨verdict, db⟩ := answer
    cases hanswer
    have hbody : (Transaction.acceptEvent event "demand" 3).body store before = .ok db := by
      simp only [Transaction.body, h]
      rfl
    simp only [Transaction.run, hbody]

end Sample

/-- The event taken in before its claim was lost is still accepted, and its id is still taken. -/
theorem event_replay_lost :
    @EventStore.checkReplay Sample.sha256 Sample.event Sample.lost = .ok (.accepted, Sample.lost) ∧
      @EventStore.accept Sample.sha256 (@AuthorityStore.eventStore Sample.sha256 Sample.store)
        Sample.changedEvent "other" 300 Sample.lost = .ok (.conflict, Sample.lost) := by
  have hrun : Relation.ReflTransGen (@Step Sample.sha256) Sample.queued Sample.lost :=
    .tail (.tail (.tail .refl (@Step.run Sample.sha256 Sample.store _ _)) (@Step.run Sample.sha256 Sample.store _ _))
      (@Step.run Sample.sha256 Sample.store _ _)
  obtain ⟨-, -, haccepted, hchanged, -, -⟩ := @event_replay Sample.sha256 _ _ Sample.queued_reachable hrun
  refine ⟨(haccepted Sample.event Sample.queued_delivered (@AuthorityStore.eventStore Sample.sha256 Sample.store)
    "other" 300).2, ?_⟩
  refine (hchanged Sample.event Sample.changedEvent Sample.queued_delivered rfl (by decide) ?_ _ _ _).1
  -- here the digest is the text behind its scheme
  intro hdigest
  exact (String.append_right_inj "sha256:").mp hdigest

/-- A known id with another commit is `new` to `checkReplay`. -/
theorem changed_event_new : @Reachable Sample.sha256 Sample.queued ∧ @Delivered Sample.sha256 Sample.event Sample.queued ∧
    Sample.changedEvent.eventId = Sample.event.eventId ∧ Sample.changedEvent ≠ Sample.event ∧
      (@EventStore.checkReplay Sample.sha256 Sample.changedEvent Sample.queued).toOption.map (·.1) = some .new :=
  ⟨Sample.queued_reachable, Sample.queued_delivered, rfl, by decide, by decide +kernel⟩

end Dim.Ordinary
