/-
The delivery of review events by the ordinary and the QEMU dispatcher: the markers of a repository, the
choice of the event to deliver and one turn of the loop. The two dispatchers differ in the kind of event,
in the directory of the markers and in the order over projects. The server runs each access to the store
alone; waits between turns, and turns whose read fails before an event is chosen, change nothing.
`localeCompare` is a parameter.
-/
import DimProofs.NativeGit.Review

namespace Dim.NativeGit

open Ordinary

/-! ## The delivery store -/

structure AuthoritativeNativePendingDelivery where
  createdAt : String
  event : AuthoritativeNativeReviewEvent
  (eventDigest policyDigest : String)

structure AuthoritativeNativeDeliveryBinding where
  (serviceId destinationDigest : String)

inductive MarkerState where
  | recorded (serviceGenerationId eligibilityGeneration : String) (eligibilityExpiresAt : Nat)
  | superseded (rejectionStatus rejectedAt retryAfter : Nat)

structure Marker where
  (eventId eventDigest serviceId destinationDigest : String)
  state : MarkerState

/-- `AuthoritativeNativeDeliveryStoreError`. -/
inductive DeliveryStoreError where
  | eventNotStored
  | markerConflicts
  | markerCapacity
  | markerWithoutEvent

def maximumEvents : Nat := 100000

/-- `marker` settles its event at `now`. -/
def Marker.live (binding : AuthoritativeNativeDeliveryBinding) (now : Nat) (marker : Marker) : Bool :=
  marker.serviceId = binding.serviceId && marker.destinationDigest = binding.destinationDigest
    && match marker.state with
      | .superseded _ _ retryAfter => retryAfter > now
      | .recorded _ _ eligibilityExpiresAt => eligibilityExpiresAt > now

/-- The reviews of one repository and the marker files of one kind of event, by the event id in their name. -/
structure DeliveryStore where
  envelopes : List AuthoritativeNativeReviewEnvelope
  delivered : List (String × Marker)

section

variable [Sha256] (localeCompare : String → String → Ordering) (kind : ExecutionKind)

def deliveryOrder (left right : AuthoritativeNativePendingDelivery) : Ordering :=
  ((localeCompare left.createdAt right.createdAt).then
    (localeCompare left.event.reviewId right.event.reviewId)).then
    ((localeCompare left.event.jobName right.event.jobName).then
      (localeCompare left.event.eventId right.event.eventId))

/-- `ordinaryEvents` and `qemuEvents`. -/
def deliveries (envelopes : List AuthoritativeNativeReviewEnvelope) : List AuthoritativeNativePendingDelivery :=
  (envelopes.flatMap fun envelope => (envelope.events.filter (·.executionKind = kind)).map fun event =>
    { createdAt := envelope.review.createdAt, event, policyDigest := envelope.policyDigest,
      eventDigest := "sha256:" ++ Sha256.hex event.json }).insertionSort fun left right =>
    deliveryOrder localeCompare left right ≠ .gt

/-- `readMarkers`: the ids of the events that a marker settles. A later event of the same id replaces an
earlier one in the map of the expected events. -/
def readMarkers (binding : AuthoritativeNativeDeliveryBinding) (now : Nat)
    (events : List AuthoritativeNativePendingDelivery) :
    List (String × Marker) → Except DeliveryStoreError (List String)
  | [] => return []
  | (eventId, marker) :: entries =>
    match events.reverse.find? (·.event.eventId = eventId) with
    | none => throw .markerWithoutEvent
    | some event =>
      if marker.eventId ≠ eventId ∨ marker.eventDigest ≠ event.eventDigest then throw .markerWithoutEvent
      else do
        let delivered ← readMarkers binding now events entries
        return if marker.live binding now then eventId :: delivered else delivered

/-- The events of a repository that no marker settles, oldest first. -/
def undelivered (binding : AuthoritativeNativeDeliveryBinding) (now : Nat) (store : DeliveryStore) :
    Except DeliveryStoreError (List AuthoritativeNativePendingDelivery) :=
  if store.delivered.length > maximumEvents then throw .markerCapacity
  else do
    let events := deliveries localeCompare kind store.envelopes
    let delivered ← readMarkers binding now events store.delivered
    return events.filter fun delivery => delivery.event.eventId ∉ delivered

def readPendingAuthoritativeNativeDeliveries (limit : Nat) (binding : AuthoritativeNativeDeliveryBinding)
    (now : Nat) (store : DeliveryStore) : Except DeliveryStoreError (List AuthoritativeNativePendingDelivery) :=
  return (← undelivered localeCompare kind binding now store).take limit

/-- The marker is published, or replaces the one that is there for the same event. -/
def DeliveryStore.publish (marker : Marker) (store : DeliveryStore) : Except DeliveryStoreError DeliveryStore :=
  match store.delivered.lookup marker.eventId with
  | none => return { store with delivered := (marker.eventId, marker) :: store.delivered }
  | some existing =>
    if existing.eventId ≠ marker.eventId ∨ existing.eventDigest ≠ marker.eventDigest then throw .markerConflicts
    else return { store with
      delivered := store.delivered.map fun entry => if entry.1 = marker.eventId then (entry.1, marker) else entry }

structure Acknowledgement where
  (serviceId serviceGenerationId eligibilityGeneration : String)
  eligibilityExpiresAt : Nat

def acknowledgedMarker (delivery : AuthoritativeNativePendingDelivery) (acknowledgement : Acknowledgement)
    (binding : AuthoritativeNativeDeliveryBinding) : Marker :=
  { eventId := delivery.event.eventId, eventDigest := delivery.eventDigest, serviceId := acknowledgement.serviceId,
    destinationDigest := binding.destinationDigest,
    state := .recorded acknowledgement.serviceGenerationId acknowledgement.eligibilityGeneration
      acknowledgement.eligibilityExpiresAt }

def acknowledgeAuthoritativeNativeDelivery (delivery : AuthoritativeNativePendingDelivery)
    (acknowledgement : Acknowledgement) (binding : AuthoritativeNativeDeliveryBinding) (store : DeliveryStore) :
    Except DeliveryStoreError DeliveryStore :=
  match (deliveries localeCompare kind store.envelopes).find? (·.event.eventId = delivery.event.eventId) with
  | none => throw .eventNotStored
  | some stored =>
    if stored.eventDigest ≠ delivery.eventDigest then throw .eventNotStored
    else store.publish (acknowledgedMarker delivery acknowledgement binding)

def supersededMarker (delivery : AuthoritativeNativePendingDelivery) (binding : AuthoritativeNativeDeliveryBinding)
    (rejectionStatus suppressionMilliseconds rejectedAt : Nat) : Marker :=
  { eventId := delivery.event.eventId, eventDigest := delivery.eventDigest, serviceId := binding.serviceId,
    destinationDigest := binding.destinationDigest,
    state := .superseded rejectionStatus rejectedAt (rejectedAt + suppressionMilliseconds) }

def supersedeAuthoritativeNativeDelivery (delivery : AuthoritativeNativePendingDelivery)
    (binding : AuthoritativeNativeDeliveryBinding) (rejectionStatus suppressionMilliseconds rejectedAt : Nat)
    (store : DeliveryStore) : Except DeliveryStoreError DeliveryStore :=
  store.publish (supersededMarker delivery binding rejectionStatus suppressionMilliseconds rejectedAt)

end

/-! ## The dispatcher -/

/-- What a dispatcher is made for. `minimum` is `timing.minimum`. -/
structure Dispatcher where
  localeCompare : String → String → Ordering
  kind : ExecutionKind
  binding : AuthoritativeNativeDeliveryBinding
  minimum : Nat := 250

/-- The registered projects with their stores, and whether an error has ended the loop. -/
structure DispatcherState where
  registrations : List String
  store : String → DeliveryStore
  failure : Bool

structure Pending where
  projectId : String
  delivery : AuthoritativeNativePendingDelivery

/-- What identifies an event in all repositories. -/
abbrev EventKey := String × String

def Pending.key (pending : Pending) : EventKey := (pending.projectId, pending.delivery.event.eventId)

/-- What the receiver answers: an acknowledgement that the dispatcher accepts, a rejection by 404 or 409, or
anything else, a timeout among it. -/
inductive Answer where
  | acknowledged (acknowledgement : Acknowledgement)
  | rejected (statusCode : Nat)
  | failed

/-- What happens next: another route stores a review or registers a project, or the loop takes a turn. Every
project is read at a clock reading of its own. The answer is stored at `stored`, or not at all when the store
is not available. -/
inductive Round where
  | publish (projectId : String) (envelope : AuthoritativeNativeReviewEnvelope)
  | register (projectId : String)
  | turn (now : String → Nat) (answer : Answer) (stored : Option Nat)

section

variable [Sha256] (dispatcher : Dispatcher)

/-- The order in which the dispatcher sorts the oldest events of the projects. -/
def Dispatcher.order (left right : Pending) : Ordering :=
  match dispatcher.kind with
  | .ordinarySysbox =>
    ((dispatcher.localeCompare left.delivery.createdAt right.delivery.createdAt).then
      (dispatcher.localeCompare left.delivery.event.projectId right.delivery.event.projectId)).then
      ((dispatcher.localeCompare left.delivery.event.reviewId right.delivery.event.reviewId).then
        ((dispatcher.localeCompare left.delivery.event.jobName right.delivery.event.jobName).then
          (dispatcher.localeCompare left.delivery.event.eventId right.delivery.event.eventId)))
  | .qemu =>
    (dispatcher.localeCompare left.delivery.createdAt right.delivery.createdAt).then
      (dispatcher.localeCompare left.delivery.event.eventId right.delivery.event.eventId)

/-- The oldest pending event of every project. -/
def candidates (now : String → Nat) (state : DispatcherState) :
    List String → Except DeliveryStoreError (List Pending)
  | [] => return []
  | projectId :: rest => do
    let delivery ← readPendingAuthoritativeNativeDeliveries dispatcher.localeCompare dispatcher.kind 1
      dispatcher.binding (now projectId) (state.store projectId)
    let others ← candidates now state rest
    return (delivery.head?.map (Pending.mk projectId)).toList ++ others

def pendingDelivery (now : String → Nat) (state : DispatcherState) :
    Except DeliveryStoreError (Option Pending) := do
  let found ← candidates dispatcher now state state.registrations
  return (found.insertionSort fun left right => dispatcher.order left right ≠ .gt).head?

/-- Every event that is pending, of whatever age. -/
def pendingKeys (now : String → Nat) (state : DispatcherState) : List EventKey :=
  state.registrations.flatMap fun projectId =>
    match undelivered dispatcher.localeCompare dispatcher.kind dispatcher.binding (now projectId)
        (state.store projectId) with
    | .ok deliveries => deliveries.map fun delivery => (projectId, delivery.event.eventId)
    | .error _ => []

/-- The marker that an answer leaves. -/
def marker (delivery : AuthoritativeNativePendingDelivery) : Answer → Option Nat → Option Marker
  | .acknowledged acknowledgement, some _ => some (acknowledgedMarker delivery acknowledgement dispatcher.binding)
  | .rejected statusCode, some rejectedAt =>
    some (supersededMarker delivery dispatcher.binding statusCode dispatcher.minimum rejectedAt)
  | _, _ => none

def storeAnswer (delivery : AuthoritativeNativePendingDelivery) (store : DeliveryStore) :
    Answer → Option Nat → Except DeliveryStoreError DeliveryStore
  | .acknowledged acknowledgement, some _ =>
    acknowledgeAuthoritativeNativeDelivery dispatcher.localeCompare dispatcher.kind delivery acknowledgement
      dispatcher.binding store
  | .rejected statusCode, some rejectedAt =>
    supersedeAuthoritativeNativeDelivery delivery dispatcher.binding statusCode dispatcher.minimum rejectedAt store
  | _, _ => return store

/-- What a turn attempts. -/
def attempted (state : DispatcherState) : Round → Option Pending
  | .turn now _ _ =>
    if state.failure then none
    else match pendingDelivery dispatcher now state with
      | .ok pending => pending
      | .error _ => none
  | _ => none

/-- One turn of the loop. An error of the store ends it. -/
def turn (state : DispatcherState) (now : String → Nat) (answer : Answer) (stored : Option Nat) : DispatcherState :=
  if state.failure then state
  else match pendingDelivery dispatcher now state with
    | .error _ => { state with failure := true }
    | .ok none => state
    | .ok (some pending) =>
      match storeAnswer dispatcher pending.delivery (state.store pending.projectId) answer stored with
      | .error _ => { state with failure := true }
      | .ok store => { state with store := Function.update state.store pending.projectId store }

def step (state : DispatcherState) : Round → DispatcherState
  | .publish projectId envelope =>
    let store := state.store projectId
    { state with
      store := Function.update state.store projectId { store with envelopes := store.envelopes ++ [envelope] } }
  | .register projectId =>
    if projectId ∈ state.registrations then state
    else { state with registrations := state.registrations ++ [projectId] }
  | .turn now answer stored => turn dispatcher state now answer stored

end

end Dim.NativeGit
