/-
The operations of `NativeRootCiClaimLifecycleStore` statement by statement, each inside its transaction: what a negative
answer or
an error leaves of the statements before it. The operations of `RootCi.ClaimStore` are what they answer.
-/
import DimProofs.Lib.Session
import DimProofs.RootCi.ClaimStore

namespace Dim.RootCi

open Relational Dim.Ordinary

/-! ## Statements -/

abbrev Statements (α : Type) : Type := Session RootDatabase RootCiError α

namespace Statements

/-- `run(…).changes` of an `UPDATE`. -/
def updateClaimReceipts (p : ClaimReceiptRow → Bool) (f : ClaimReceiptRow → ClaimReceiptRow) : Statements Nat :=
  .statement fun db => (db.claimReceipts.update p f).map fun claimReceipts =>
    (db.claimReceipts.count p, { db with claimReceipts })

def updateClaims (p : ClaimRow → Bool) (f : ClaimRow → ClaimRow) : Statements Nat :=
  .statement fun db => (db.claims.update p f).map fun claims => (db.claims.count p, { db with claims })

def updateDemands (p : DemandRow → Bool) (f : DemandRow → DemandRow) : Statements Nat :=
  .statement fun db => (db.demands.update p f).map fun demands => (db.demands.count p, { db with demands })

def updateReportOutbox (p : ReportRow → Bool) (f : ReportRow → ReportRow) : Statements Nat :=
  .statement fun db => (db.reportOutbox.update p f).map fun reportOutbox =>
    (db.reportOutbox.count p, { db with reportOutbox })

def insertReceipt (row : ClaimReceiptRow) : Statements Unit :=
  .statement fun db => (RootCi.insertClaimReceipt row db).map fun db' => ((), db')

/-- `if (changes !== 1) throw new NativeRootCiClaimLifecycleStoreError()`. -/
def requireOne (changes : Nat) : Statements Unit := if changes ≠ 1 then .raise .lifecycleStore else pure ()

def updateOneReceipt (p : ClaimReceiptRow → Bool) (f : ClaimReceiptRow → ClaimReceiptRow) : Statements Unit :=
  updateClaimReceipts p f >>= requireOne

def updateOneClaim (p : ClaimRow → Bool) (f : ClaimRow → ClaimRow) : Statements Unit := updateClaims p f >>= requireOne

def updateOneDemand (p : DemandRow → Bool) (f : DemandRow → DemandRow) : Statements Unit := updateDemands p f >>= requireOne

end Statements

open Statements

/-! ## Operations -/

namespace LifecycleStore

def activate (context : ServiceContext) (request : NativeRootCiClaimActivationRequest) (assignment : NativeAttemptAssignment)
    (checkedAt now : Int) : Statements ActivationResult := do
  let eligible ← .read (activationEligible context request checkedAt)
  if !eligible then pure .conflict
  else do
    let receipt ← .read fun db => db.claimReceipts.get? request.claim.claimId
    if receipt.isSome then pure .conflict
    else do
      insertReceipt (activeReceipt context request assignment now)
      let _ ← updateClaims (fun c => c.claimId = request.claim.claimId) fun c =>
        { c with state := .active, updatedAt := now }
      let _ ← updateDemands (fun d => d.demandId = request.claim.demandId) fun d =>
        { d with state := .active, updatedAt := now }
      pure (.created (activeClaim context request.requestId request.claim.claimId assignment request.issuance
        (now + context.claimLeaseMilliseconds)))

/-- What `parseAssignment` and `parseIssuance` ask of the stored texts. -/
def storedValid [Sha256] (row : ClaimReceiptRow) : Bool :=
  assignmentValid row.assignment && nativeDescriptorDigest row.issuance.descriptor = row.issuance.descriptorDigest

/-- The stored texts are parsed behind the update. -/
def renew [Sha256] (context : ServiceContext) (request : NativeRootCiClaimLeaseRequest)
    (checkedAt leasedAt updatedAt : Int) : Statements (Option NativeRootCiActiveClaim) := do
  let row ← .read (renewable context request checkedAt)
  match row with
  | none => pure none
  | some row => do
    let leaseExpiresAt := leasedAt + context.claimLeaseMilliseconds
    let _ ← updateClaimReceipts (fun r => r.claimId = request.claimId) fun r => { r with leaseExpiresAt, updatedAt }
    if storedValid row then
      pure (some (activeClaim context request.requestId request.claimId row.assignment row.issuance leaseExpiresAt))
    else .raise .lifecycleStore

def prepareRecovery (context : ServiceContext) (request : NativeRootCiClaimRecoveryRequest)
    (assignment : NativeAttemptAssignment) (now : Int) : Statements RecoveryPreparation := do
  let eligible ← .read (recoveryEligible context request)
  if !eligible then pure .conflict
  else do
    let receipt ← .read fun db => db.claimReceipts.get? request.claimId
    match receipt with
    | none => do
      insertReceipt (recoveringReceipt request assignment now)
      updateOneClaim (fun c => c.claimId = request.claimId && c.state ≠ .released)
        fun c => { c with state := .recovering, updatedAt := now }
      pure .pending
    | some receipt =>
      if receipt.state = .released then
        pure (if receipt.recoveryRequestId = request.requestId then .released else .conflict)
      else do
        let conflicts ← .read (recoveryConflicts request assignment receipt)
        if conflicts then pure .conflict
        else do
          updateOneReceipt (fun r => r.claimId = request.claimId && r.state ≠ .released)
            fun r => { r with state := .recovering, recoveryRequestId := some request.requestId, updatedAt := now }
          updateOneClaim (fun c => c.claimId = request.claimId && c.state ≠ .released)
            fun c => { c with state := .recovering, updatedAt := now }
          pure .pending

/-- The last updates of a recovery with a recorded result; the first may answer `false`. -/
def denyReport (request : NativeRootCiClaimRecoveryRequest) (now : Int) : Statements Bool := do
  let changes ← updateReportOutbox (fun o => o.claimId = request.claimId && o.state = .pending) fun o =>
    { o with state := .denied }
  if changes ≠ 1 then pure false
  else do
    updateOneDemand (fun d => d.demandId = request.claim.demandId && d.state = .reported)
      fun d => { d with state := .completed, updatedAt := now, terminalAt := some now }
    pure true

/-- The last update of a recovery without a result. -/
def supersede (request : NativeRootCiClaimRecoveryRequest) (now : Int) : Statements Bool := do
  updateOneDemand (fun d => d.demandId = request.claim.demandId && (d.state = .preparing || d.state = .active))
    fun d => { d with state := .superseded, updatedAt := now, terminalAt := some now }
  pure true

/-- The two updates that release a claim and its receipt. -/
def release (request : NativeRootCiClaimRecoveryRequest) (revocation : NativeJobAttemptRevocation) (now : Int) :
    Statements Unit := do
  updateOneReceipt (fun r => r.claimId = request.claimId && r.state = .recovering)
    fun r => { r with state := .released, revocation := some revocation, updatedAt := now, releasedAt := some now }
  updateOneClaim (fun c => c.claimId = request.claimId && c.state = .recovering)
    fun c => { c with state := .released, updatedAt := now }

def reportedResult (result : Option HostResultRow) (outbox : Option ReportRow) : Bool :=
  result.isSome && outbox.any fun o => o.state = .pending

def uncertainAttempt (result : Option HostResultRow) (outbox : Option ReportRow) : Bool := result.isNone && outbox.isNone

/-- `parsed` is what `parseNativeJobAttemptRevocation` makes of the revocation. -/
def completeRecovery (request : NativeRootCiClaimRecoveryRequest) (parsed : Except RootCiError NativeJobAttemptRevocation)
    (now : Int) : Statements Bool := do
  let revocation ← .statement fun db => parsed.map fun revocation => (revocation, db)
  let receipt ← .read fun db => db.claimReceipts.get? request.claimId
  match receipt with
  | none => pure false
  | some receipt =>
    if receipt.state ≠ .recovering ∨ receipt.recoveryRequestId ≠ request.requestId
        ∨ receipt.issuance ≠ request.issuance ∨ !revocationMatches request revocation then pure false
    else do
      let result ← .read fun db => db.hostResults.get? request.claimId
      let outbox ← .read fun db => db.reportOutbox.get? request.claimId
      if !reportedResult result outbox && !uncertainAttempt result outbox then pure false
      else do
        release request revocation now
        if reportedResult result outbox then denyReport request now else supersede request now

/-! ## The operations of the histories -/

theorem result_requireOne (changes : Nat) (db : RootDatabase) :
    (requireOne changes).result db = if changes ≠ 1 then .error .lifecycleStore else .ok ((), db) := by
  rw [requireOne]
  split <;> rfl

theorem result_oneReceipt (p : ClaimReceiptRow → Bool) (f : ClaimReceiptRow → ClaimReceiptRow) (db : RootDatabase) :
    (updateOneReceipt p f).result db =
      (db.claimReceipts.updateOne .lifecycleStore p f).map fun claimReceipts => ((), { db with claimReceipts }) := by
  rw [updateOneReceipt, Session.result_bind, updateClaimReceipts, Session.result_statement, Table.updateOne]
  cases db.claimReceipts.update (ε := RootCiError) p f with
  | error e => rfl
  | ok claimReceipts =>
    simp only [Except.map, Except.bind, result_requireOne]
    split <;> rfl

theorem result_oneClaim (p : ClaimRow → Bool) (f : ClaimRow → ClaimRow) (db : RootDatabase) :
    (updateOneClaim p f).result db =
      (db.claims.updateOne .lifecycleStore p f).map fun claims => ((), { db with claims }) := by
  rw [updateOneClaim, Session.result_bind, updateClaims, Session.result_statement, Table.updateOne]
  cases db.claims.update (ε := RootCiError) p f with
  | error e => rfl
  | ok claims =>
    simp only [Except.map, Except.bind, result_requireOne]
    split <;> rfl

theorem result_oneDemand (p : DemandRow → Bool) (f : DemandRow → DemandRow) (db : RootDatabase) :
    (updateOneDemand p f).result db =
      (db.demands.updateOne .lifecycleStore p f).map fun demands => ((), { db with demands }) := by
  rw [updateOneDemand, Session.result_bind, updateDemands, Session.result_statement, Table.updateOne]
  cases db.demands.update (ε := RootCiError) p f with
  | error e => rfl
  | ok demands =>
    simp only [Except.map, Except.bind, result_requireOne]
    split <;> rfl

variable {context : ServiceContext} {now : Int} (db : RootDatabase)

variable {request : NativeRootCiClaimRecoveryRequest}

variable {revocation : NativeJobAttemptRevocation}

theorem result_release :
    (release request revocation now).result db = (releaseRecovered request revocation now db).map fun db' => ((), db') := by
  simp only [release, releaseRecovered, Session.result_bind, result_oneReceipt, result_oneClaim, moveClaim]
  cases db.claimReceipts.updateOne RootCiError.lifecycleStore (fun r => r.claimId = request.claimId && r.state = .recovering)
      fun r => { r with state := .released, revocation := some revocation, updatedAt := now, releasedAt := some now } with
  | error e => rfl
  | ok claimReceipts =>
    simp only [Except.map, bind, Except.bind]
    cases db.claims.updateOne RootCiError.lifecycleStore (fun c => c.claimId = request.claimId && c.state = .recovering)
        fun c => { c with state := .released, updatedAt := now } <;> rfl

theorem result_supersede : (supersede request now).result db =
    (moveDemand .lifecycleStore request.claim.demandId (fun s => s = .preparing || s = .active) .superseded now true db).map
      fun db' => (true, db') := by
  simp only [supersede, moveDemand, Session.result_bind, result_oneDemand, if_true]
  cases db.demands.updateOne RootCiError.lifecycleStore
      (fun d => d.demandId = request.claim.demandId && (d.state = .preparing || d.state = .active))
      (fun d => { d with state := .superseded, updatedAt := now, terminalAt := some now }) <;> rfl

/-- Where the report is pending its update changes one row, and the branch behind it is not taken. -/
theorem result_denyReport {o : ReportRow}
    (ho : db.reportOutbox.get? request.claimId = some o) (hpending : o.state = .pending) :
    (denyReport request now).result db = (RootCi.denyReport request now db).map fun db' => (true, db') := by
  have hone : db.reportOutbox.count (fun o => o.claimId = request.claimId && o.state = .pending) = 1 := by
    refine Table.count_of_mem (Table.get?_mem ho) ?_ ?_
    · simpa [hpending] using Table.get?_key ho
    · intro s hs hp
      simp only [Bool.and_eq_true, decide_eq_true_eq] at hp
      exact db.reportOutbox.eq_of_conflict hs (Table.get?_mem ho) (conflict_of_key (hp.1.trans (Table.get?_key ho).symm))
  simp only [denyReport, RootCi.denyReport, updateReportOutbox, Session.result_bind, Session.result_statement,
    moveDemand, if_true]
  cases db.reportOutbox.update (ε := RootCiError) (fun o => o.claimId = request.claimId && o.state = .pending)
      fun o => { o with state := .denied } with
  | error e => rfl
  | ok reportOutbox =>
    simp only [Except.map, Except.bind, hone, Session.result_ite, Session.result_bind, result_oneDemand]
    rw [if_neg (by simp)]
    simp only [bind, Except.bind]
    cases db.demands.updateOne RootCiError.lifecycleStore
        (fun d => d.demandId = request.claim.demandId && d.state = .reported)
        (fun d => { d with state := .completed, updatedAt := now, terminalAt := some now }) <;> rfl

/-- The release of a claim does not touch the reports. -/
theorem releaseRecovered_outbox
    {db' : RootDatabase} (h : releaseRecovered request revocation now db = .ok db') :
    db'.reportOutbox = db.reportOutbox := by
  obtain ⟨claimReceipts, -, h⟩ := bind_ok.mp h
  obtain ⟨claims, -, h⟩ := bind_ok.mp h
  cases pure_ok.mp h
  rfl

/-! ## Negative answers -/

/-- An operation that answers in `Q`, or throws, leaves every row as it was. -/
def Atomic {α : Type} (operation : Statements α) (Q : α → Prop) : Prop :=
  ∀ (db db' : RootDatabase) (answer : Except RootCiError α), operation.transaction db = (answer, db') →
    (∀ a, answer = .ok a → Q a) → db' = db

variable {assignment : NativeAttemptAssignment} {checkedAt : Int}

theorem activate_keeps {request : NativeRootCiClaimActivationRequest} :
    (activate context request assignment checkedAt now).Keeps (· = .conflict) := by
  refine Session.Keeps.read fun eligible => Session.Keeps.ite (Session.keeps_pure _) ?_
  refine Session.Keeps.read fun receipt => Session.Keeps.ite (Session.keeps_pure _) (Session.Avoids.keeps ?_)
  exact Session.Avoids.bind fun _ => Session.Avoids.bind fun _ => Session.Avoids.bind fun _ => Session.avoids_pure nofun

theorem renew_keeps [Sha256] {request : NativeRootCiClaimLeaseRequest} {leasedAt updatedAt : Int} :
    (renew context request checkedAt leasedAt updatedAt).Keeps (· = none) := by
  refine Session.Keeps.read fun row => ?_
  cases row with
  | none => exact Session.keeps_pure _
  | some row =>
    refine Session.Avoids.keeps (Session.Avoids.bind fun _ => Session.Avoids.ite ?_ (Session.avoids_raise _))
    exact Session.avoids_pure nofun

theorem prepareRecovery_keeps :
    (prepareRecovery context request assignment now).Keeps (· = .conflict) := by
  refine Session.Keeps.read fun eligible => Session.Keeps.ite (Session.keeps_pure _) ?_
  refine Session.Keeps.read fun receipt => ?_
  cases receipt with
  | none =>
    exact Session.Avoids.keeps (Session.Avoids.bind fun _ => Session.Avoids.bind fun _ => Session.avoids_pure nofun)
  | some receipt =>
    refine Session.Keeps.ite (Session.keeps_pure _) (Session.Keeps.read fun conflicts => ?_)
    refine Session.Keeps.ite (Session.keeps_pure _) (Session.Avoids.keeps ?_)
    exact Session.Avoids.bind fun _ => Session.Avoids.bind fun _ => Session.avoids_pure nofun

/-- The updates behind the reads of a recovery answer `true`, or throw. -/
theorem completeRecovery_keeps
    {parsed : Except RootCiError NativeJobAttemptRevocation} : (completeRecovery request parsed now).Keeps (· = false) := by
  intro db answer db' h hfalse
  subst hfalse
  simp only [completeRecovery, Session.result_bind, Session.result_statement, Session.result_read, Except.bind] at h
  cases parsed with
  | error e => cases h
  | ok revocation =>
    simp only [Except.map] at h
    cases hreceipt : db.claimReceipts.get? request.claimId with
    | none =>
      rw [hreceipt] at h
      cases h
      rfl
    | some receipt =>
      rw [hreceipt] at h
      simp only [Session.result_ite, Session.result_bind, Session.result_read, Except.bind, result_release] at h
      split at h
      · cases h
        rfl
      split at h
      · cases h
        rfl
      -- the rows of the claim are released in what follows
      cases hreleased : releaseRecovered request revocation now db with
      | error e =>
        rw [hreleased] at h
        cases h
      | ok db₁ =>
        rw [hreleased] at h
        simp only [Except.map] at h
        split at h
        · rename_i hreported
          simp only [reportedResult, Bool.and_eq_true, Option.any_eq_true, decide_eq_true_eq] at hreported
          obtain ⟨-, outbox, houtbox, hpending⟩ := hreported
          rw [← releaseRecovered_outbox db hreleased] at houtbox
          rw [result_denyReport db₁ houtbox hpending] at h
          cases hdenied : RootCi.denyReport request now db₁ <;> rw [hdenied] at h <;> cases h
        · rw [result_supersede] at h
          cases hmoved : moveDemand .lifecycleStore request.claim.demandId
            (fun s => s = .preparing || s = .active) .superseded now true db₁ <;> rw [hmoved] at h <;> cases h

end LifecycleStore

/-- Whatever a request is, and whatever the database holds: a conflict, an absent renewal, a `false` and an error change
no row. -/
theorem lifecycle_atomic [Sha256] (context : ServiceContext) :
    (∀ request assignment checkedAt now, LifecycleStore.Atomic
      (LifecycleStore.activate context request assignment checkedAt now) (· = .conflict)) ∧
    (∀ request checkedAt leasedAt updatedAt, LifecycleStore.Atomic
      (LifecycleStore.renew context request checkedAt leasedAt updatedAt) (· = none)) ∧
    (∀ request assignment now, LifecycleStore.Atomic
      (LifecycleStore.prepareRecovery context request assignment now) (· = .conflict)) ∧
    (∀ request parsed now, LifecycleStore.Atomic (LifecycleStore.completeRecovery request parsed now) (· = false)) := by
  refine ⟨?_, ?_, ?_, ?_⟩
  · exact fun _ _ _ _ db db' _ => LifecycleStore.activate_keeps.transaction
  · exact fun _ _ _ _ db db' _ => LifecycleStore.renew_keeps.transaction
  · exact fun _ _ _ db db' _ => LifecycleStore.prepareRecovery_keeps.transaction
  · exact fun _ _ _ db db' _ => LifecycleStore.completeRecovery_keeps.transaction

end Dim.RootCi
