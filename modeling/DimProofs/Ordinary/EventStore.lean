/-
`NativeOrdinaryEventStore`: replay fences for event ids and for (review, job) tuples, and the
intake of an event as one queued demand of the active admission it matches.
-/
import DimProofs.Ordinary.Schema

namespace Dim.Ordinary

open Relational

def replayFenceLimit : Nat := 100000

def nonterminalDemandLimit : Nat := 10000

inductive NativeEventIntakeResult where
  | accepted
  | conflict
  | full
  | new
  | notFound
deriving DecidableEq

structure EventStoreOptions where
  (serviceId capacityConfigDigest : String)

namespace EventStore

variable [Sha256]

/-- `replayInTransaction`. -/
def replayInTransaction (event : NativeReviewJobEvent) (eventDigest tupleDigest : String) (db : AuthorityDatabase) :
    Except AuthorityError (NativeEventIntakeResult × AuthorityDatabase) :=
  match db.nativeEventReplayFences.get? event.eventId with
  | some fence => return (if fence.eventDigest = eventDigest then .accepted else .conflict, db)
  | none =>
    match db.reviewJobReplayFences.get? (event.reviewId, event.jobName) with
    | none => return (.new, db)
    | some tuple =>
      if tuple.tupleDigest ≠ tupleDigest then return (.conflict, db)
      else if replayFenceLimit ≤ db.nativeEventReplayFences.count (fun _ => true) then return (.full, db)
      else do
        let nativeEventReplayFences ← db.nativeEventReplayFences.insert { eventId := event.eventId, eventDigest }
        return (.accepted, { db with nativeEventReplayFences })

/-- As the replay inside `accept`, but fences that differ are left to `accept`, as `new`. -/
def checkReplay (event : NativeReviewJobEvent) (db : AuthorityDatabase) :
    Except AuthorityError (NativeEventIntakeResult × AuthorityDatabase) :=
  match db.nativeEventReplayFences.get? event.eventId with
  | some fence => return (if fence.eventDigest = nativeEventDigest event then .accepted else .new, db)
  | none =>
    match db.reviewJobReplayFences.get? (event.reviewId, event.jobName) with
    | none => return (.new, db)
    | some tuple =>
      if tuple.tupleDigest ≠ nativeReviewJobTupleDigest event then return (.new, db)
      else if replayFenceLimit ≤ db.nativeEventReplayFences.count (fun _ => true) then return (.full, db)
      else do
        let nativeEventReplayFences ← db.nativeEventReplayFences.insert
          { eventId := event.eventId, eventDigest := nativeEventDigest event }
        return (.accepted, { db with nativeEventReplayFences })

/-- The admission an event is accepted under. -/
def activeAdmission (options : EventStoreOptions) (event : NativeReviewJobEvent) (db : AuthorityDatabase) :
    Option NativeAdmission :=
  db.nativeAdmissions.rows.find? fun a =>
    a.projectId = event.projectId && a.repositoryId = event.repositoryId && a.serviceId = options.serviceId
      && a.protectedRef = event.protectedRef && a.policyRevision = event.policyRevision
      && a.requiredReviewRevision = event.requiredReviewRevision
      && a.requiredJobSetRevision = event.requiredJobSetRevision
      && a.capacityConfigDigest = options.capacityConfigDigest && a.state = .active

/-- `insertAccepted`: both fences, the inbox row and the queued demand. -/
def insertAccepted (event : NativeReviewJobEvent) (admissionGeneration demandId : String) (now : Int)
    (db : AuthorityDatabase) : Except AuthorityError AuthorityDatabase := do
  let nativeEventReplayFences ← db.nativeEventReplayFences.insert
    { eventId := event.eventId, eventDigest := nativeEventDigest event }
  let reviewJobReplayFences ← db.reviewJobReplayFences.insert
    { reviewId := event.reviewId, jobName := event.jobName, tupleDigest := nativeReviewJobTupleDigest event }
  let inbox ← db.nativeEventInbox.insert
    { eventId := event.eventId, eventDigest := nativeEventDigest event, event, demandId := none,
      state := .accepted, receivedAt := now, terminalAt := none }
  let demands ← db.demands.insert
    { demandId, eventId := event.eventId, reviewId := event.reviewId, jobName := event.jobName,
      admissionGeneration, state := .queued, createdAt := now, updatedAt := now, terminalAt := none }
  let nativeEventInbox ← inbox.update (fun e => e.eventId = event.eventId) fun e => { e with demandId := some demandId }
  return { db with nativeEventReplayFences, reviewJobReplayFences, nativeEventInbox, demands }

def nonterminalDemandCount (db : AuthorityDatabase) : Nat := db.demands.count (·.state.nonterminal)

def accept (options : EventStoreOptions) (event : NativeReviewJobEvent) (demandId : String) (now : Int)
    (db : AuthorityDatabase) : Except AuthorityError (NativeEventIntakeResult × AuthorityDatabase) := do
  let (replay, db') ← replayInTransaction event (nativeEventDigest event) (nativeReviewJobTupleDigest event) db
  if replay ≠ .new then return (replay, db')
  match activeAdmission options event db with
  | none => return (.notFound, db)
  | some admission =>
    if admission.expiresAt ≤ now then return (.notFound, db)
    else if replayFenceLimit ≤ db.nativeEventReplayFences.count (fun _ => true)
        || replayFenceLimit ≤ db.reviewJobReplayFences.count (fun _ => true)
        || nonterminalDemandLimit ≤ nonterminalDemandCount db then return (.full, db)
    else
      let db' ← insertAccepted event admission.admissionGeneration demandId now db
      return (.accepted, db')

end EventStore

end Dim.Ordinary
