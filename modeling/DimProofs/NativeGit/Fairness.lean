/-
The order in which events are attempted. A marker keeps an event out of the reads until it runs out, and the
oldest event that is left is attempted next: between two attempts of an event every other event that waits has
its turn when the markers outlast the turns that the waiting events need. A marker of a rejected event lasts
`timing.minimum`, which two slow deliveries exceed.
-/
import DimProofs.NativeGit.Dispatcher

namespace Dim.NativeGit

open Ordinary

/-! ## Markers -/

theorem lookup_replace {id : String} {marker : Marker} : ∀ {entries : List (String × Marker)} {existing : Marker},
    entries.lookup id = some existing →
      (entries.map fun entry => if entry.1 = id then (entry.1, marker) else entry).lookup id = some marker
  | [], _, h => by simp at h
  | (name, stored) :: rest, existing, h => by
    by_cases hname : name = id
    · simp [hname]
    · have hne : (id == name) = false := by simpa using fun h => hname h.symm
      rw [List.lookup_cons, hne] at h
      simp only [List.map_cons, hname, if_false, List.lookup_cons, hne]
      exact lookup_replace h

theorem lookup_replace_ne {id other : String} (hne : other ≠ id) (marker : Marker) :
    ∀ entries : List (String × Marker),
      (entries.map fun entry => if entry.1 = id then (entry.1, marker) else entry).lookup other = entries.lookup other
  | [] => rfl
  | (name, stored) :: rest => by
    by_cases hname : name = id
    · have hother : (other == id) = false := by simpa using hne
      simp only [List.map_cons, hname, if_true, List.lookup_cons, hother]
      exact lookup_replace_ne hne marker rest
    · simp only [List.map_cons, hname, if_false, List.lookup_cons]
      rw [lookup_replace_ne hne marker rest]

theorem DeliveryStore.publish_lookup {store store' : DeliveryStore} {marker : Marker}
    (h : store.publish marker = .ok store') : store'.delivered.lookup marker.eventId = some marker := by
  unfold DeliveryStore.publish at h
  split at h
  · cases h
    simp
  · split at h
    · cases h
    · cases h
      exact lookup_replace ‹_›

theorem DeliveryStore.publish_lookup_ne {store store' : DeliveryStore} {marker : Marker} {id : String}
    (h : store.publish marker = .ok store') (hne : id ≠ marker.eventId) :
    store'.delivered.lookup id = store.delivered.lookup id := by
  unfold DeliveryStore.publish at h
  split at h
  · cases h
    have hbeq : (id == marker.eventId) = false := by simpa using hne
    simp [List.lookup_cons, hbeq]
  · split at h
    · cases h
    · cases h
      exact lookup_replace_ne hne marker _

section

variable [Sha256] (dispatcher : Dispatcher)

variable {answer : Answer} {delivery : AuthoritativeNativePendingDelivery} {left : Marker}
variable {stored : Option Nat}

omit [Sha256] in
theorem marker_eventId {dispatcher : Dispatcher} (h : marker dispatcher delivery answer stored = some left) :
    left.eventId = delivery.event.eventId := by
  unfold marker at h
  split at h <;> cases h <;> rfl

variable {store : DeliveryStore}

theorem storeAnswer_lookup {dispatcher : Dispatcher} {store' : DeliveryStore}
    (h : storeAnswer dispatcher delivery store answer stored = .ok store')
    (hleft : marker dispatcher delivery answer stored = some left) :
    store'.delivered.lookup delivery.event.eventId = some left := by
  rw [← marker_eventId hleft]
  unfold marker at hleft
  split at hleft
  · cases hleft
    simp only [storeAnswer, acknowledgeAuthoritativeNativeDelivery] at h
    split at h
    · cases h
    · split at h
      · cases h
      · exact DeliveryStore.publish_lookup h
  · cases hleft
    exact DeliveryStore.publish_lookup h
  · cases hleft

theorem storeAnswer_lookup_ne {dispatcher : Dispatcher} {store' : DeliveryStore} {id : String}
    (h : storeAnswer dispatcher delivery store answer stored = .ok store') (hne : id ≠ delivery.event.eventId) :
    store'.delivered.lookup id = store.delivered.lookup id := by
  unfold storeAnswer at h
  split at h
  · simp only [acknowledgeAuthoritativeNativeDelivery] at h
    split at h
    · cases h
    · split at h
      · cases h
      · exact DeliveryStore.publish_lookup_ne h hne
  · exact DeliveryStore.publish_lookup_ne h hne
  · cases h
    rfl

/-! ## What is pending -/

omit [Sha256] in
theorem mem_readMarkers {binding : AuthoritativeNativeDeliveryBinding} {now : Nat}
    {events : List AuthoritativeNativePendingDelivery} : ∀ {entries : List (String × Marker)} {delivered : List String},
    readMarkers binding now events entries = .ok delivered →
      ∀ {id : String} {marker : Marker}, entries.lookup id = some marker → marker.live binding now = true →
        id ∈ delivered
  | [], delivered, h, id, marker, hlookup, hlive => by simp at hlookup
  | (name, stored) :: rest, delivered, h, id, marker, hlookup, hlive => by
    unfold readMarkers at h
    split at h
    · cases h
    split at h
    · cases h
    cases hrest : readMarkers binding now events rest with
    | error e => rw [hrest] at h; cases h
    | ok others =>
      rw [hrest] at h
      obtain rfl := Except.ok.inj h
      by_cases hname : id = name
      · subst hname
        obtain rfl : stored = marker := by simpa using hlookup
        simp [hlive]
      · have hne : (id == name) = false := by simpa using hname
        rw [List.lookup_cons, hne] at hlookup
        have hmem := mem_readMarkers hrest hlookup hlive
        split
        · exact List.mem_cons_of_mem _ hmem
        · exact hmem

theorem undelivered_lookup {localeCompare : String → String → Ordering} {kind : ExecutionKind}
    {binding : AuthoritativeNativeDeliveryBinding} {now : Nat}
    {left : List AuthoritativeNativePendingDelivery} (h : undelivered localeCompare kind binding now store = .ok left)
    (hmem : delivery ∈ left) {marker : Marker}
    (hlookup : store.delivered.lookup delivery.event.eventId = some marker) : marker.live binding now = false := by
  unfold undelivered at h
  split at h
  · cases h
  cases hread : readMarkers binding now (deliveries localeCompare kind store.envelopes) store.delivered with
  | error e => simp only [hread] at h; cases h
  | ok delivered =>
    simp only [hread] at h
    obtain rfl := Except.ok.inj h
    have hnot : delivery.event.eventId ∉ delivered := by simpa using (List.mem_filter.mp hmem).2
    by_contra hlive
    exact hnot (mem_readMarkers hread hlookup (by simpa using hlive))

variable {key : EventKey} {now : String → Nat} {state : DispatcherState}

/-- A marker that has not run out keeps its event out of the read. -/
theorem not_pending_of_live {dispatcher : Dispatcher}
    {marker : Marker} (hlookup : (state.store key.1).delivered.lookup key.2 = some marker)
    (hlive : marker.live dispatcher.binding (now key.1) = true) : key ∉ pendingKeys dispatcher now state := by
  intro hmem
  obtain ⟨projectId, _, hmem⟩ := List.mem_flatMap.mp hmem
  split at hmem
  · rename_i left hread
    obtain ⟨delivery, hdelivery, rfl⟩ := List.mem_map.mp hmem
    rw [undelivered_lookup hread hdelivery hlookup] at hlive
    cases hlive
  · cases hmem

theorem mem_candidates {dispatcher : Dispatcher} {now : String → Nat} {state : DispatcherState} {pending : Pending} :
    ∀ {projects : List String} {found : List Pending}, candidates dispatcher now state projects = .ok found →
      pending ∈ found → pending.projectId ∈ projects ∧
        ∃ left, undelivered dispatcher.localeCompare dispatcher.kind dispatcher.binding (now pending.projectId)
          (state.store pending.projectId) = .ok left ∧ pending.delivery ∈ left
  | [], found, h, hmem => by
    obtain rfl := Except.ok.inj h
    cases hmem
  | projectId :: rest, found, h, hmem => by
    unfold candidates readPendingAuthoritativeNativeDeliveries at h
    cases hleft : undelivered dispatcher.localeCompare dispatcher.kind dispatcher.binding (now projectId)
        (state.store projectId) with
    | error e => simp only [hleft] at h; cases h
    | ok left =>
      cases hothers : candidates dispatcher now state rest with
      | error e => simp only [hleft, hothers] at h; cases h
      | ok others =>
        simp only [hleft, hothers] at h
        obtain rfl := Except.ok.inj h
        rcases List.mem_append.mp hmem with hhead | hother
        · obtain ⟨delivery, hdelivery, rfl⟩ := by simpa using hhead
          have hin : delivery ∈ left.take 1 := List.mem_of_mem_head? hdelivery
          exact ⟨List.mem_cons_self, left, hleft, List.mem_of_mem_take hin⟩
        · obtain ⟨hproject, found⟩ := mem_candidates hothers hother
          exact ⟨List.mem_cons_of_mem _ hproject, found⟩

/-- What a turn attempts is pending at its read. -/
theorem attempted_pending {dispatcher : Dispatcher}
    {pending : Pending} (h : attempted dispatcher state (.turn now answer stored) = some pending) :
    state.failure = false ∧ pendingDelivery dispatcher now state = .ok (some pending) ∧
      pending.key ∈ pendingKeys dispatcher now state := by
  unfold attempted at h
  simp only at h
  split at h
  · cases h
  rename_i hfailure
  cases hread : pendingDelivery dispatcher now state with
  | error e => rw [hread] at h; cases h
  | ok chosen =>
    rw [hread] at h
    obtain rfl : chosen = some pending := h
    refine ⟨by simpa using hfailure, rfl, ?_⟩
    unfold pendingDelivery at hread
    cases hfound : candidates dispatcher now state state.registrations with
    | error e => rw [hfound] at hread; cases hread
    | ok found =>
      rw [hfound] at hread
      have hhead := Except.ok.inj hread
      have hmem : pending ∈ found := (List.mem_insertionSort _).mp (List.mem_of_mem_head? hhead)
      obtain ⟨hproject, left, hleft, hdelivery⟩ := mem_candidates hfound hmem
      refine List.mem_flatMap.mpr ⟨pending.projectId, hproject, ?_⟩
      rw [hleft]
      exact List.mem_map.mpr ⟨pending.delivery, hdelivery, rfl⟩

/-! ## What a step keeps -/

theorem step_failure {dispatcher : Dispatcher} (h : state.failure = true) (round : Round) :
    (step dispatcher state round).failure = true := by
  cases round with
  | publish projectId envelope => exact h
  | register projectId =>
    simp only [step]
    split
    · exact h
    · exact h
  | turn now answer stored => simp [step, turn, h]

variable {round : Round}

/-- A step that does not attempt an event leaves its marker. -/
theorem step_marker {dispatcher : Dispatcher}
    (h : (attempted dispatcher state round).map Pending.key ≠ some key) :
    ((step dispatcher state round).store key.1).delivered.lookup key.2 =
      (state.store key.1).delivered.lookup key.2 := by
  cases round with
  | publish projectId envelope =>
    by_cases hproject : key.1 = projectId
    · simp [step, hproject]
    · simp [step, Function.update_of_ne hproject]
  | register projectId =>
    simp only [step]
    split <;> rfl
  | turn now answer stored =>
    unfold step turn
    simp only
    split
    · rfl
    rename_i hfailure
    split
    · rfl
    · rfl
    rename_i pending hread
    have hattempt : attempted dispatcher state (.turn now answer stored) = some pending := by
      simp [attempted, hfailure, hread]
    split
    · rfl
    rename_i store hstore
    by_cases hproject : key.1 = pending.projectId
    · have hne : key.2 ≠ pending.delivery.event.eventId := by
        intro hid
        exact h (by rw [hattempt]; exact congrArg some (Prod.ext hproject.symm hid.symm))
      simp only [hproject, Function.update_self]
      exact storeAnswer_lookup_ne hstore hne
    · simp only [Function.update_of_ne hproject]

/-- The marker that an answer leaves is there after the step, unless the loop has ended. -/
theorem step_attempted {dispatcher : Dispatcher} {pending : Pending}
    (h : attempted dispatcher state (.turn now answer stored) = some pending)
    (hleft : marker dispatcher pending.delivery answer stored = some left)
    (halive : (step dispatcher state (.turn now answer stored)).failure = false) :
    ((step dispatcher state (.turn now answer stored)).store pending.key.1).delivered.lookup pending.key.2 =
      some left := by
  obtain ⟨hfailure, hread, _⟩ := attempted_pending h
  revert halive
  unfold step turn
  simp only [hfailure, hread, Bool.false_eq_true, if_false]
  split
  · intro halive
    cases halive
  · rename_i store hstore
    intro _
    simp only [Pending.key, Function.update_self]
    exact storeAnswer_lookup hstore hleft

/-! ## Runs -/

variable (start : DispatcherState) (rounds : List Round)

/-- The state before round `i`. -/
def stateAt (i : Nat) : DispatcherState := (rounds.take i).foldl (step dispatcher) start

/-- What round `i` attempts. -/
def attemptAt (i : Nat) : Option Pending := rounds[i]?.bind (attempted dispatcher (stateAt dispatcher start rounds i))

/-- The events that the read of round `i` finds pending. -/
def pendingAt (i : Nat) : List EventKey :=
  match rounds[i]? with
  | some (.turn now _ _) => pendingKeys dispatcher now (stateAt dispatcher start rounds i)
  | _ => []

def AttemptedAt (key : EventKey) (i : Nat) : Prop :=
  (attemptAt dispatcher start rounds i).map Pending.key = some key

/-- `key` is pending at every read after round `i` up to that of round `k`, until it is attempted. -/
def Waits (key : EventKey) (i k : Nat) : Prop :=
  ∀ j, i < j → j ≤ k → (∃ now answer stored, rounds[j]? = some (.turn now answer stored)) →
    (∀ l, i < l → l < j → ¬ AttemptedAt dispatcher start rounds key l) → key ∈ pendingAt dispatcher start rounds j

instance (key : EventKey) (i : Nat) : Decidable (AttemptedAt dispatcher start rounds key i) :=
  inferInstanceAs (Decidable (_ = _))

/-- Between two attempts of an event every other event that waits is attempted. -/
def Fair : Prop :=
  ∀ (i k : Nat) (event other : EventKey), i < k → AttemptedAt dispatcher start rounds event i →
    AttemptedAt dispatcher start rounds event k → other ≠ event → Waits dispatcher start rounds other i k →
      ∃ j, i < j ∧ j < k ∧ AttemptedAt dispatcher start rounds other j

/-- The other events that are pending at some read after round `i` up to that of round `k`. -/
def others (key : EventKey) (i k : Nat) : Finset EventKey :=
  ((Finset.Ioc i k).biUnion fun j => (pendingAt dispatcher start rounds j).toFinset).erase key

/-- How many attempts are made between the rounds `i` and `k`. -/
def attempts (i k : Nat) : Nat :=
  ((Finset.Ioo i k).filter fun j => (attemptAt dispatcher start rounds j).isSome).card

/-- When an event is attempted in round `i` and not again before round `k`, and fewer attempts are made between
them than other events are pending, then the marker that the answer leaves lasts to the read of round `k`. -/
def lasts (i k : Nat) : Bool :=
  match rounds[i]?, attemptAt dispatcher start rounds i, rounds[k]? with
  | some (.turn _ answer stored), some pending, some (.turn now _ _) =>
    (List.range k).any (fun j => i < j && (attemptAt dispatcher start rounds j).map Pending.key = some pending.key)
      || (others dispatcher start rounds pending.key i k).card ≤ attempts dispatcher start rounds i k
      || (marker dispatcher pending.delivery answer stored).any (·.live dispatcher.binding (now pending.projectId))
  | _, _, _ => true

/-- The markers of all answers last long enough. -/
abbrev Timely : Prop := ∀ k < rounds.length, ∀ i < k, lasts dispatcher start rounds i k = true

variable {dispatcher start rounds}

variable {i : Nat}

theorem stateAt_succ (h : rounds[i]? = some round) :
    stateAt dispatcher start rounds (i + 1) = step dispatcher (stateAt dispatcher start rounds i) round := by
  have htake : rounds.take (i + 1) = rounds.take i ++ [round] := by
    rw [List.take_add_one, h]
    rfl
  rw [stateAt, htake, List.foldl_append]
  rfl

theorem attemptAt_eq (h : rounds[i]? = some round) :
    attemptAt dispatcher start rounds i = attempted dispatcher (stateAt dispatcher start rounds i) round := by
  rw [attemptAt, h]
  rfl

/-- An attempt is made by a turn of the loop. -/
theorem attemptAt_turn {pending : Pending} (h : attemptAt dispatcher start rounds i = some pending) :
    ∃ now answer stored, rounds[i]? = some (.turn now answer stored) ∧
      attempted dispatcher (stateAt dispatcher start rounds i) (.turn now answer stored) = some pending := by
  cases hround : rounds[i]? with
  | none => rw [attemptAt, hround] at h; cases h
  | some round =>
    rw [attemptAt_eq hround] at h
    cases round with
    | publish projectId envelope => cases h
    | register projectId => cases h
    | turn now answer stored => exact ⟨now, answer, stored, rfl, h⟩

theorem AttemptedAt.pending {key : EventKey} {i : Nat} (h : AttemptedAt dispatcher start rounds key i) :
    key ∈ pendingAt dispatcher start rounds i ∧ (stateAt dispatcher start rounds i).failure = false ∧
      i < rounds.length := by
  obtain ⟨pending, hpending, rfl⟩ := Option.map_eq_some_iff.mp h
  obtain ⟨now, answer, stored, hround, hattempt⟩ := attemptAt_turn hpending
  obtain ⟨hfailure, _, hmem⟩ := attempted_pending hattempt
  refine ⟨?_, hfailure, (List.getElem?_eq_some_iff.mp hround).1⟩
  rw [pendingAt, hround]
  exact hmem

variable {k : Nat}

theorem failure_before (hik : i ≤ k) (hk : (stateAt dispatcher start rounds k).failure = false) :
    (stateAt dispatcher start rounds i).failure = false := by
  induction k, hik using Nat.le_induction with
  | base => exact hk
  | succ k _ ih =>
    apply ih
    by_contra hfailed
    cases hround : rounds[k]? with
    | none =>
      have hstay : stateAt dispatcher start rounds (k + 1) = stateAt dispatcher start rounds k := by
        rw [stateAt, stateAt, List.take_add_one, hround]
        simp
      rw [hstay] at hk
      exact hfailed hk
    | some round =>
      rw [stateAt_succ hround, step_failure (by simpa using hfailed)] at hk
      cases hk

/-- The marker of an attempt is there until the event is attempted again. -/
theorem marker_kept {pending : Pending} (hround : rounds[i]? = some (.turn now answer stored))
    (hattempt : attemptAt dispatcher start rounds i = some pending)
    (hleft : marker dispatcher pending.delivery answer stored = some left) (hik : i < k)
    (hnot : ∀ j, i < j → j < k → ¬ AttemptedAt dispatcher start rounds pending.key j)
    (hk : (stateAt dispatcher start rounds k).failure = false) :
    ((stateAt dispatcher start rounds k).store pending.key.1).delivered.lookup pending.key.2 = some left := by
  induction k, Nat.succ_le_of_lt hik using Nat.le_induction with
  | base =>
    rw [attemptAt_eq hround] at hattempt
    rw [stateAt_succ hround] at hk ⊢
    exact step_attempted hattempt hleft hk
  | succ k hle ih =>
    have hbefore := ih hle (fun j hj hjk => hnot j hj (Nat.lt_succ_of_lt hjk)) (failure_before (Nat.le_succ k) hk)
    cases hnext : rounds[k]? with
    | none =>
      have hstay : stateAt dispatcher start rounds (k + 1) = stateAt dispatcher start rounds k := by
        rw [stateAt, stateAt, List.take_add_one, hnext]
        simp
      rw [hstay]
      exact hbefore
    | some round =>
      have hother := hnot k hle (Nat.lt_succ_self k)
      rw [AttemptedAt, attemptAt_eq hnext] at hother
      rw [stateAt_succ hnext, step_marker hother]
      exact hbefore

/-- An event is not pending again before as many attempts are made as other events are pending. -/
theorem Timely.turns (h : Timely dispatcher start rounds) {event : EventKey} (hik : i < k)
    (hi : AttemptedAt dispatcher start rounds event i) (hk : AttemptedAt dispatcher start rounds event k)
    (hnot : ∀ j, i < j → j < k → ¬ AttemptedAt dispatcher start rounds event j) :
    (others dispatcher start rounds event i k).card ≤ attempts dispatcher start rounds i k := by
  obtain ⟨hpending, hfailure, hlength⟩ := hk.pending
  obtain ⟨pending, hattempt, rfl⟩ := Option.map_eq_some_iff.mp hi
  obtain ⟨now, answer, stored, hround, _⟩ := attemptAt_turn hattempt
  obtain ⟨again, hagain, _⟩ := Option.map_eq_some_iff.mp hk
  obtain ⟨now', answer', stored', hround', _⟩ := attemptAt_turn hagain
  have hlasts := h k hlength i hik
  unfold lasts at hlasts
  rw [hround, hattempt, hround'] at hlasts
  simp only [Bool.or_eq_true, decide_eq_true_eq, List.any_eq_true, List.mem_range, Bool.and_eq_true] at hlasts
  rcases hlasts with (⟨j, hjk, hij, hj⟩ | hcard) | hlive
  · exact absurd hj (hnot j hij hjk)
  · exact hcard
  · obtain ⟨left, hleft, hlive⟩ : ∃ left, marker dispatcher pending.delivery answer stored = some left ∧
        left.live dispatcher.binding (now' pending.projectId) = true := by
      cases hleft : marker dispatcher pending.delivery answer stored with
      | none => rw [hleft] at hlive; cases hlive
      | some left => rw [hleft] at hlive; exact ⟨left, rfl, hlive⟩
    have hkept := marker_kept hround hattempt hleft hik hnot hfailure
    rw [pendingAt, hround'] at hpending
    exact absurd hpending (not_pending_of_live hkept hlive)

/-- An event that waits in vain waits in every part of the run. -/
theorem Waits.part {i' k' : Nat} (h : Waits dispatcher start rounds key i k)
    (hvain : ∀ j, i < j → j < k → ¬ AttemptedAt dispatcher start rounds key j) (hi : i ≤ i') (hk : k' ≤ k) :
    Waits dispatcher start rounds key i' k' :=
  fun j hj hjk hturn _ => h j (by omega) (by omega) hturn fun l hil hlj => hvain l hil (by omega)

theorem AttemptedAt.mem_others {event : EventKey} {j : Nat} (h : AttemptedAt dispatcher start rounds key j)
    (hij : i < j) (hjk : j ≤ k) (hne : key ≠ event) : key ∈ others dispatcher start rounds event i k := by
  refine Finset.mem_erase.mpr ⟨hne, Finset.mem_biUnion.mpr ⟨j, Finset.mem_Ioc.mpr ⟨hij, hjk⟩, ?_⟩⟩
  exact List.mem_toFinset.mpr h.pending.1

/-- The events attempted between two attempts of `event` are not all different when another one waits in vain. -/
theorem Timely.repeats (h : Timely dispatcher start rounds) {event other : EventKey} (hik : i < k)
    (hi : AttemptedAt dispatcher start rounds event i) (hk : AttemptedAt dispatcher start rounds event k)
    (hnot : ∀ j, i < j → j < k → ¬ AttemptedAt dispatcher start rounds event j) (hne : other ≠ event)
    (hwaits : Waits dispatcher start rounds other i k)
    (hvain : ∀ j, i < j → j < k → ¬ AttemptedAt dispatcher start rounds other j) :
    ∃ j j' key, i < j ∧ j < j' ∧ j' < k ∧ AttemptedAt dispatcher start rounds key j ∧
      AttemptedAt dispatcher start rounds key j' := by
  let keyOf : Nat → EventKey := fun j => ((attemptAt dispatcher start rounds j).map Pending.key).getD default
  have hkey : ∀ j, (attemptAt dispatcher start rounds j).isSome → AttemptedAt dispatcher start rounds (keyOf j) j := by
    intro j hj
    obtain ⟨pending, hpending⟩ := Option.isSome_iff_exists.mp hj
    simp [AttemptedAt, keyOf, hpending]
  have hother : other ∈ others dispatcher start rounds event i k := by
    obtain ⟨pending, hpending, _⟩ := Option.map_eq_some_iff.mp hk
    obtain ⟨now, answer, stored, hround, _⟩ := attemptAt_turn hpending
    refine Finset.mem_erase.mpr ⟨hne, Finset.mem_biUnion.mpr ⟨k, Finset.mem_Ioc.mpr ⟨hik, le_rfl⟩, ?_⟩⟩
    exact List.mem_toFinset.mpr (hwaits k hik le_rfl ⟨now, answer, stored, hround⟩ hvain)
  have hmaps : ∀ j ∈ (Finset.Ioo i k).filter fun j => (attemptAt dispatcher start rounds j).isSome,
      keyOf j ∈ (others dispatcher start rounds event i k).erase other := by
    intro j hj
    obtain ⟨hmem, hsome⟩ := Finset.mem_filter.mp hj
    obtain ⟨hij, hjk⟩ := Finset.mem_Ioo.mp hmem
    have hattempted := hkey j hsome
    refine Finset.mem_erase.mpr ⟨fun heq => hvain j hij hjk (heq ▸ hattempted), ?_⟩
    exact hattempted.mem_others hij hjk.le fun heq => hnot j hij hjk (heq ▸ hattempted)
  have hcard : ((others dispatcher start rounds event i k).erase other).card <
      ((Finset.Ioo i k).filter fun j => (attemptAt dispatcher start rounds j).isSome).card :=
    calc ((others dispatcher start rounds event i k).erase other).card
        < (others dispatcher start rounds event i k).card := Finset.card_erase_lt_of_mem hother
      _ ≤ attempts dispatcher start rounds i k := h.turns hik hi hk hnot
  obtain ⟨j, hj, j', hj', hjj', hsame⟩ := Finset.exists_ne_map_eq_of_card_lt_of_maps_to hcard hmaps
  obtain ⟨hmem, hsome⟩ := Finset.mem_filter.mp hj
  obtain ⟨hmem', hsome'⟩ := Finset.mem_filter.mp hj'
  obtain ⟨hij, hjk⟩ := Finset.mem_Ioo.mp hmem
  obtain ⟨hij', hjk'⟩ := Finset.mem_Ioo.mp hmem'
  rcases Nat.lt_or_gt_of_ne hjj' with hlt | hlt
  · exact ⟨j, j', keyOf j, hij, hlt, hjk', hkey j hsome, hsame ▸ hkey j' hsome'⟩
  · exact ⟨j', j, keyOf j, hij', hlt, hjk, hsame ▸ hkey j' hsome', hkey j hsome⟩

/-- When the markers last long enough, an event that waits is attempted between two attempts of another one. -/
theorem delivery_fair (h : Timely dispatcher start rounds) : Fair dispatcher start rounds := by
  intro i k
  -- by induction on the distance: an event that is attempted twice in between has the same property
  induction hn : k - i using Nat.strong_induction_on generalizing i k with
  | _ n ih =>
    intro event other hik hi hk hne hwaits
    by_contra hnone
    have hvain : ∀ j, i < j → j < k → ¬ AttemptedAt dispatcher start rounds other j :=
      fun j hij hjk hj => hnone ⟨j, hij, hjk, hj⟩
    by_cases hagain : ∃ j, i < j ∧ j < k ∧ AttemptedAt dispatcher start rounds event j
    · obtain ⟨j, hij, hjk, hj⟩ := hagain
      obtain ⟨l, hil, hlj, hl⟩ := ih (j - i) (by omega) i j rfl event other hij hi hj hne 
        (hwaits.part hvain le_rfl hjk.le)
      exact hvain l hil (by omega) hl
    · have hnot : ∀ j, i < j → j < k → ¬ AttemptedAt dispatcher start rounds event j :=
        fun j hij hjk hj => hagain ⟨j, hij, hjk, hj⟩
      obtain ⟨j, j', key, hij, hjj', hjk, hj, hj'⟩ := h.repeats hik hi hk hnot hne hwaits hvain
      have hkey : other ≠ key := fun heq => hvain j hij (by omega) (heq ▸ hj)
      obtain ⟨l, hjl, hlj, hl⟩ :=
        ih (j' - j) (by omega) j j' rfl key other hjj' hj hj' hkey (hwaits.part hvain hij.le hjk.le)
      exact hvain l (by omega) (by omega) hl

end

/-! ## Runs on fixed events -/

namespace DeliverySample

/-- A digest in hexadecimal. -/
def hex (length : Nat) (c : Char) : String := String.ofList (List.replicate length c)

@[reducible] def sha256 : Sha256 := ⟨fun _ => hex 64 '0'⟩

def dispatcher (kind : ExecutionKind) : Dispatcher :=
  { localeCompare := compare, kind,
    binding :=
      { serviceId := match kind with
          | .ordinarySysbox => "ordinary-main"
          | .qemu => "qemu-main",
        destinationDigest := "sha256:" ++ hex 64 '0' } }

def event (kind : ExecutionKind) (job : Char) : AuthoritativeNativeReviewEvent :=
  { eventId := hex 64 job, envelopeId := hex 64 job, projectId := "project", protectedRef := "refs/heads/main",
    reviewId := hex 64 job, expectedProtectedHead := hex 40 '3', candidateCommit := hex 40 job,
    candidateTree := hex 40 job, policyRevision := hex 64 '6', requiredReviewRevision := hex 64 '7',
    qualityRevision := hex 64 '8', executionKind := kind, jobName := "check" }

/-- A review whose candidate has one job. The review of `'a'` is older than that of `'b'`. -/
def envelope (kind : ExecutionKind) (job : Char) : AuthoritativeNativeReviewEnvelope :=
  { envelopeId := hex 64 job,
    review :=
      { reviewId := hex 64 job, createdAt := "202" ++ String.ofList [Char.ofNat (job.toNat - 48)] ++ "-01-01T00:00:00.000Z",
        projectId := "project", protectedRef := "refs/heads/main",
        proposalRef := "refs/heads/proposals/" ++ hex 43 'A' ++ "/" ++ String.ofList [job],
        expectedProtectedHead := hex 40 '3', candidateCommit := hex 40 job, candidateTree := hex 40 job,
        policyRevision := hex 64 '6', requiredReviewRevision := hex 64 '7', workspaceId := hex 43 'A',
        requiredReviewerIds := ["alice"], changes := [], patchBytes := [] },
    qualityRevision := hex 64 '8', policyDigest := hex 64 '9', requiredJobs := [],
    planning := .valid none [
      { executionKind := kind, jobName := "check",
        script := { objectId := hex 40 'a', sha256 := "sha256:" ++ hex 64 'b', path := ".dim/ci/jobs/check.bash" } }],
    events := [event kind job] }

def start (kind : ExecutionKind) (jobs : List Char) : DispatcherState :=
  { registrations := ["project"], store := fun _ => { envelopes := jobs.map (envelope kind), delivered := [] },
    failure := false }

/-- A turn that reads at `now` and is answered by 404 at `rejectedAt`. -/
def rejected (now rejectedAt : Nat) : Round := .turn (fun _ => now) (.rejected 404) (some rejectedAt)

/-- A turn whose request fails. -/
def failed (now : Nat) : Round := .turn (fun _ => now) .failed none

/-- Two events whose markers outlast the turn of the other. -/
def timelyRounds : List Round := [rejected 0 100, rejected 100 200, rejected 400 500]

/-- Three events whose deliveries take 300 milliseconds each. -/
def slowRounds : List Round := [rejected 0 300, rejected 300 600, rejected 600 900]

/-- Requests for the oldest of two events that fail. -/
def failedRounds : List Round := [failed 0, failed 250]

set_option maxRecDepth 4000 in
theorem delivery_fair_timely :
    @Timely sha256 (dispatcher .ordinarySysbox) (start .ordinarySysbox ['a', 'b']) timelyRounds ∧
      @Fair sha256 (dispatcher .ordinarySysbox) (start .ordinarySysbox ['a', 'b']) timelyRounds :=
  have h : @Timely sha256 (dispatcher .ordinarySysbox) (start .ordinarySysbox ['a', 'b']) timelyRounds := by
    decide +kernel
  ⟨h, @delivery_fair sha256 _ _ _ h⟩

/-- A run that is not fair, by an event that is pending at every read and never attempted. -/
theorem not_fair {sha256 : Sha256} {dispatcher : Dispatcher} {start : DispatcherState} {rounds : List Round} (k : Nat)
    (event other : EventKey) (h0 : @AttemptedAt sha256 dispatcher start rounds event 0)
    (hk : @AttemptedAt sha256 dispatcher start rounds event k) (hpos : 0 < k) (hne : other ≠ event)
    (hpending : ∀ j ≤ k, other ∈ @pendingAt sha256 dispatcher start rounds j)
    (hvain : ∀ j < k, ¬ @AttemptedAt sha256 dispatcher start rounds other j) :
    ¬ @Fair sha256 dispatcher start rounds := by
  intro hfair
  obtain ⟨j, _, hjk, hj⟩ := hfair 0 k event other hpos h0 hk hne fun j _ hjk _ _ => hpending j hjk
  exact hvain j hjk hj

set_option maxRecDepth 4000 in
theorem slow_deliveries_starve :
    (¬ @Fair sha256 (dispatcher .ordinarySysbox) (start .ordinarySysbox ['a', 'b', 'c']) slowRounds ∧
      ¬ @Fair sha256 (dispatcher .qemu) (start .qemu ['a', 'b', 'c']) slowRounds) ∧
    (¬ @Fair sha256 (dispatcher .ordinarySysbox) (start .ordinarySysbox ['a', 'b']) failedRounds ∧
      ¬ @Fair sha256 (dispatcher .qemu) (start .qemu ['a', 'b']) failedRounds) := by
  have hslow : ∀ kind : ExecutionKind,
      ¬ @Fair sha256 (dispatcher kind) (start kind ['a', 'b', 'c']) slowRounds := by
    rintro (_ | _) <;> exact not_fair 2 ("project", hex 64 'a') ("project", hex 64 'c')
      (by decide +kernel) (by decide +kernel) (by decide) (by decide) (by decide +kernel) fun j hj => by
        interval_cases j <;> decide +kernel
  have hfailed : ∀ kind : ExecutionKind,
      ¬ @Fair sha256 (dispatcher kind) (start kind ['a', 'b']) failedRounds := by
    rintro (_ | _) <;> exact not_fair 1 ("project", hex 64 'a') ("project", hex 64 'b')
      (by decide +kernel) (by decide +kernel) (by decide) (by decide) (by decide +kernel) fun j hj => by
        obtain rfl := Nat.lt_one_iff.mp hj
        decide +kernel
  exact ⟨⟨hslow _, hslow _⟩, hfailed _, hfailed _⟩

end DeliverySample

end Dim.NativeGit
