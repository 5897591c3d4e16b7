/-
The answers of the root CI claim route. A reservation answers the claim whose row is stored for its request,
and the row of a claim is never removed or changed but for its state.
-/
import DimProofs.RootCi.Replay

namespace Dim.RootCi

open Relational Dim.Ordinary

/-- The request of a claim. -/
def RootDatabase.answeredTo (db : RootDatabase) (claimId : String) : Option String :=
  (db.claims.get? claimId).map (·.requestId)

section
variable [Sha256]

/-- The claim that an action answers to a request. -/
def RootDatabase.reply (db : RootDatabase) (action : Action) : Option (NativeRootCiClaimRequest × NativeRootCiClaim) :=
  match action.operation with
  | .reserve request uuid selectedAt updatedAt createdAt claimedAt =>
    match reserve action.context request uuid selectedAt updatedAt createdAt claimedAt db with
    | .ok (.created claim, _) | .ok (.replay claim, _) => some (request, claim)
    | _ => none
  | _ => none

/-- A database with the answers of its claim route. -/
structure RouteState where
  db : RootDatabase
  replies : List (NativeRootCiClaimRequest × NativeRootCiClaim)

omit [Sha256] in
def RouteState.initial : RouteState := { db := .empty, replies := [] }

def RouteState.apply (s : RouteState) (action : Action) : RouteState :=
  { db := s.db.apply action, replies := (s.db.reply action).toList ++ s.replies }

variable {context : ServiceContext} {db db' : RootDatabase}

theorem answeredTo_apply (hi : Inv db) (action : Action) {k requestId : String} (h : db.answeredTo k = some requestId) :
    (db.apply action).answeredTo k = some requestId := by
  obtain ⟨c, hc, rfl⟩ := Option.map_eq_some_iff.mp h
  obtain ⟨d, -, hview⟩ := view_of_claim hi.recorded hc
  obtain ⟨w, hw, hf⟩ := apply_follows hi action k _ hview
  obtain ⟨hclaim, -⟩ := view_eq_some.mp hw
  rw [RootDatabase.answeredTo, hclaim, Option.map_some, hf.claim]

/-- A reservation answers the claim that is stored for its request. -/
theorem reserve_answered {request : NativeRootCiClaimRequest} {uuid : String}
    {selectedAt updatedAt createdAt claimedAt : Int} {answer : ClaimReservationResult} {claim : NativeRootCiClaim}
    (hi : Inv db) (h : reserve context request uuid selectedAt updatedAt createdAt claimedAt db = .ok (answer, db'))
    (ha : answer = .created claim ∨ answer = .replay claim) : db'.answeredTo claim.claimId = some request.requestId := by
  rcases reserve_cases hi.recorded h with ⟨rfl, hne⟩ | ⟨capacity, d, r, a, hanswer, -, -, -, -, -, -, -, hview, -⟩
  · obtain rfl := ha.resolve_left (hne claim)
    unfold reserve at h
    split at h
    · cases h
    split at h
    · rename_i existing hexisting
      split at h
      · cases h
      · cases h
        obtain ⟨hmem, hkey⟩ := (Table.getBy_eq_some ClaimRow.unique_request).mp hexisting
        have hget : db'.claims.get? existing.claimId = some existing := Table.get?_of_mem hmem
        rw [(columns_of_claim hi.recorded hget).claimId, RootDatabase.answeredTo, hget, Option.map_some]
        exact congrArg some (Prod.mk.inj (Prod.mk.inj hkey).2).2
    · split at h
      · cases h
      split at h
      · split at h <;> cases h
      unfold reserveOldest at h
      split at h
      · cases h
      split at h
      · cases h
      obtain ⟨moved, -, h⟩ := bind_ok.mp h
      obtain ⟨inserted, -, h⟩ := bind_ok.mp h
      cases pure_ok.mp h
  · subst hanswer
    have hclaim : claim = newClaim context request capacity d r a uuid := by
      rcases ha with ha | ha <;> cases ha
      rfl
    subst hclaim
    obtain ⟨hget, -⟩ := view_eq_some.mp hview
    show (db'.claims.get? uuid).map (·.requestId) = _
    rw [hget]
    rfl

theorem reply_answered (hi : Inv db) {action : Action} {request : NativeRootCiClaimRequest} {claim : NativeRootCiClaim}
    (h : db.reply action = some (request, claim)) :
    (db.apply action).answeredTo claim.claimId = some request.requestId := by
  obtain ⟨context, operation⟩ := action
  cases operation with
  | reserve request' uuid selectedAt updatedAt createdAt claimedAt =>
    simp only [RootDatabase.reply] at h
    split at h
    · rename_i c db' hreserve
      cases h
      simp only [RootDatabase.apply, Operation.body, hreserve]
      exact reserve_answered hi hreserve (Or.inl rfl)
    · rename_i c db' hreserve
      cases h
      simp only [RootDatabase.apply, Operation.body, hreserve]
      exact reserve_answered hi hreserve (Or.inr rfl)
    · cases h
  | _ => cases h

/-- Every claim that was answered stays with its request. -/
structure RouteInv (s : RouteState) : Prop where
  kept : Inv s.db
  replies : ∀ r ∈ s.replies, s.db.answeredTo r.2.claimId = some r.1.requestId

theorem RouteInv.initial : RouteInv .initial := ⟨Inv.empty, fun r hr => by cases hr⟩

theorem RouteInv.apply {s : RouteState} (h : RouteInv s) (action : Action) : RouteInv (s.apply action) := by
  refine ⟨h.kept.apply action, ?_⟩
  rintro ⟨request, claim⟩ hr
  rcases List.mem_append.mp hr with hr | hr
  · exact reply_answered h.kept (Option.mem_toList.mp hr)
  · exact answeredTo_apply h.kept action (h.replies _ hr)

end

end Dim.RootCi
