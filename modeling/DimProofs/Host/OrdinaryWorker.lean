/-
`serveNativeOrdinaryHostCapacity` with its client and its journal. A prepared request is the record that its
body holds, and the journal reads back what it wrote. `serveBoot` runs up to the loop, `serveLoop` is one
round of it; an aborted signal ends the process as a crash does.
-/
import DimProofs.Host.NativeExecutor

namespace Dim.Host

open Effectful Dim.Ordinary

namespace OrdinaryWorker

inductive NativeHostJournalState where
  | claim (request : NativeHostClaimRequest)
  | active (claim : NativeHostClaim) (privateRoot : NativeHostPrivateRootIdentity)
  | result (claim : NativeHostClaim) (privateRoot : NativeHostPrivateRootIdentity) (request : NativeHostResultRequest)
  | recovery (claim : NativeHostClaim) (privateRoot : NativeHostPrivateRootIdentity) (request : NativeHostRecoveryRequest)

/-! ## The client -/

structure NativeOrdinaryHostClientConfig where
  (serviceId hostId capacity : String)

structure HostIdentity where
  (serviceId role hostId : String)

structure CandidateLeaseRequest where
  (requestId claimId attemptId descriptorDigest : String)

structure NativeCandidateLease where
  (serviceId requestId username password : String)

inductive ClientRequest where
  | identity
  | claim (request : NativeHostClaimRequest)
  | candidateLease (request : CandidateLeaseRequest)
  | renewal (request : NativeHostClaimRenewalRequest)
  | recovery (request : NativeHostRecoveryRequest)
  | result (request : NativeHostResultRequest)

/-- The body of a response with the status that the client expects: `none` is `204`, and the result's is the
claim that its acknowledgement names. -/
def ClientRequest.Response : ClientRequest → Type
  | .identity => HostIdentity
  | .claim _ => Option NativeHostClaim
  | .candidateLease _ => NativeCandidateLease
  | .renewal _ => NativeHostClaimRenewal
  | .recovery _ => Unit
  | .result _ => String

/-- The claim that a response answers, with the id of its request. -/
def claimed : (request : ClientRequest) → request.Response → Option (String × String)
  | .claim request, (response : Option NativeHostClaim) => response.map fun c => (request.requestId, c.claimId)
  | _, _ => none

def finished : (request : ClientRequest) → request.Response → Option (Finish NativeHostResultRequest)
  | .recovery request, _ => some (.recovered request.claimId)
  | .result request, _ => some (.reported request)
  | _, _ => none

namespace NativeHostJournalState

def pending : NativeHostJournalState → Option String
  | .claim request => some request.requestId
  | _ => none

def claimOf : NativeHostJournalState → Option String
  | .claim _ => none
  | .active c _ | .result c _ _ | .recovery c _ _ => some c.claimId

def stored : NativeHostJournalState → Option NativeHostResultRequest
  | .result _ _ request => some request
  | _ => none

def recovers : NativeHostJournalState → Bool
  | .recovery _ _ _ => true
  | _ => false

/-- What `parseJournalState` asks of the requests of a claim. -/
def consistent : NativeHostJournalState → Bool
  | .result c _ request => request.claimId = c.claimId
  | .recovery c _ request => request.claimId = c.claimId
  | _ => true

end NativeHostJournalState

@[reducible] def worker : Worker where
  Journal := NativeHostJournalState
  Request := ClientRequest
  Response := ClientRequest.Response
  Result := NativeHostResultRequest
  pending := NativeHostJournalState.pending
  held _ := none
  claimOf := NativeHostJournalState.claimOf
  stored := NativeHostJournalState.stored
  recovers := NativeHostJournalState.recovers
  claimed := claimed
  finished := finished
  pending_of_held h := by cases h
  pending_of_claimOf {j c} h := by cases j <;> first | rfl | cases h
  stored_of_recovers {j} h := by cases j <;> first | rfl | cases h

abbrev OrdinaryProgram (α : Type) : Type := HostProgram worker α

def client.attest (config : NativeOrdinaryHostClientConfig) : OrdinaryProgram Unit := do
  let identity : HostIdentity ← request (W := worker) .identity
  throwIf (identity.serviceId ≠ config.serviceId || identity.role ≠ "native-host" || identity.hostId ≠ config.hostId)
    .client

def client.prepareClaim (config : NativeOrdinaryHostClientConfig) (requestId : String) : NativeHostClaimRequest :=
  { requestId, hostId := config.hostId, capacity := config.capacity }

/-- What the client asks of a claim it is answered. -/
def claimMatches (config : NativeOrdinaryHostClientConfig) (trusted : NativeHostClaimRequest) (requestedAt : Int)
    (claim : NativeHostClaim) : Bool :=
  claim.serviceId = config.serviceId && claim.requestId = trusted.requestId && claim.hostId = config.hostId
    && claim.capacity = config.capacity && requestedAt < claim.leaseExpiresAt

def client.claim (config : NativeOrdinaryHostClientConfig) (trusted : NativeHostClaimRequest) :
    OrdinaryProgram (Option NativeHostClaim) := do
  let requestedAt ← now
  throwIf (trusted.hostId ≠ config.hostId || trusted.capacity ≠ config.capacity) .client
  let response : Option NativeHostClaim ← request (W := worker) (.claim trusted)
  throwIf (response.any fun claim => !claimMatches config trusted requestedAt claim) .client
  return response

def client.candidateLease (config : NativeOrdinaryHostClientConfig) (claim : NativeHostClaim) (requestId : String) :
    OrdinaryProgram Unit := do
  let lease : NativeCandidateLease ← request (W := worker) (.candidateLease
    { requestId, claimId := claim.claimId, attemptId := claim.attemptId, descriptorDigest := claim.descriptorDigest })
  throwIf (lease.serviceId ≠ config.serviceId || lease.requestId ≠ requestId) .client

def client.renewClaim (config : NativeOrdinaryHostClientConfig) (trusted : NativeHostClaimRenewalRequest) :
    OrdinaryProgram NativeHostClaimRenewal := do
  throwIf (trusted.hostId ≠ config.hostId || trusted.capacity ≠ config.capacity) .client
  let renewal : NativeHostClaimRenewal ← request (W := worker) (.renewal trusted)
  throwIf (renewal.serviceId ≠ config.serviceId || renewal.requestId ≠ trusted.requestId
    || renewal.claimId ≠ trusted.claimId) .client
  return renewal

def client.recoverClaim (config : NativeOrdinaryHostClientConfig) (trusted : NativeHostRecoveryRequest) :
    OrdinaryProgram Unit := do
  throwIf (trusted.hostId ≠ config.hostId || trusted.capacity ≠ config.capacity) .client
  request (W := worker) (.recovery trusted)

def client.reportResult (trusted : NativeHostResultRequest) : OrdinaryProgram Unit := do
  let claimId : String ← request (W := worker) (.result trusted)
  throwIf (claimId ≠ trusted.claimId) .client

/-! ## The worker -/

/-- `NativeOrdinaryHostJournal.load`. -/
def loadJournal : OrdinaryProgram (Option NativeHostJournalState) := do
  let state : Option NativeHostJournalState ← load (W := worker)
  throwIf (state.any fun s => !s.consistent) .journal
  return state

structure NativeOrdinaryHostCapacityDependencies where
  client : NativeOrdinaryHostClientConfig
  resolvesReaderCredential : Bool

def isDefinitiveResultRejection : NativeHostFailure → Bool
  | .requestRejected statusCode => statusCode = 404 || statusCode = 409
  | _ => false

def reportResult (claim : NativeHostClaim) (prepared : NativeHostResultRequest) : OrdinaryProgram Unit := do
  let vars ← readVars
  save (W := worker) (.result claim vars.privateRoot prepared)
  tryCatch (client.reportResult prepared) fun failure =>
    throw (if isDefinitiveResultRejection failure then failure else .finalizationUncertain)
  clear

def recoverClaim (config : NativeOrdinaryHostClientConfig) (claim : NativeHostClaim)
    (privateRoot : NativeHostPrivateRootIdentity) (prepared : NativeHostRecoveryRequest) : OrdinaryProgram Unit := do
  save (W := worker) (.recovery claim privateRoot prepared)
  client.recoverClaim config prepared
  clear

def recoverExecuted (config : NativeOrdinaryHostClientConfig) (claim : NativeHostClaim)
    (prepared : NativeHostRecoveryRequest) : OrdinaryProgram Unit := do
  let vars ← readVars
  recoverClaim config claim vars.privateRoot prepared

/-- The reader of the candidate, under a credential of its own or under a candidate lease. -/
def createReadAuthority (dependencies : NativeOrdinaryHostCapacityDependencies) (claim : NativeHostClaim) :
    OrdinaryProgram Unit :=
  if dependencies.resolvesReaderCredential then operation .createReadAuthority
  else do
    let requestId ← randomId
    client.candidateLease dependencies.client claim requestId
    operation .createReadAuthority

/-- The dependencies that `executeClaim` gives the executor. -/
def executorDependencies (dependencies : NativeOrdinaryHostCapacityDependencies) (claim : NativeHostClaim) :
    NativeHostExecutorDependencies worker where
  createReadAuthority := createReadAuthority dependencies claim
  renewClaim := client.renewClaim dependencies.client
  reportResult := reportResult claim
  recoverClaim := recoverExecuted dependencies.client claim
  publishCreated identity := save (W := worker) (.active claim identity)

def cleanupForReplay (claim : NativeHostClaim) (privateRoot : NativeHostPrivateRootIdentity) : OrdinaryProgram Unit := do
  let containerCleaned ← cleanupNativeContainer claim.claimId
  let rootCleaned ← cleanupPrivateRoot privateRoot claim.claimId
  throwIf (!containerCleaned || !rootCleaned) (.cleanup claim.claimId)

def replayResult (config : NativeOrdinaryHostClientConfig) (claim : NativeHostClaim)
    (privateRoot : NativeHostPrivateRootIdentity) (prepared : NativeHostResultRequest) : OrdinaryProgram Unit :=
  tryCatch (do client.reportResult prepared; clear) fun failure =>
    if isDefinitiveResultRejection failure then do
      let requestId ← randomId
      recoverClaim config claim privateRoot (recoveryRequest claim requestId)
    else throw failure

section
variable [Sha256] (dependencies : NativeOrdinaryHostCapacityDependencies)

def executeClaim (claim : NativeHostClaim) (privateRoot : NativeHostPrivateRootIdentity) : OrdinaryProgram Unit := do
  setVars { (← readVars) with privateRoot }
  let _ ← executeNativeHostClaim (executorDependencies dependencies claim) claim

def startClaim (claim : NativeHostClaim) : OrdinaryProgram Unit := do
  let privateRoot := .planned (← randomId)
  save (W := worker) (.active claim privateRoot)
  executeClaim dependencies claim privateRoot

/-- A claim that was answered is started, and without one the journal is cleared. -/
def startAnswered : Option NativeHostClaim → OrdinaryProgram Unit
  | none => clear
  | some claim => startClaim dependencies claim

def replayPending : NativeHostJournalState → OrdinaryProgram Unit
  | .claim request => do
    let claim ← client.claim dependencies.client request
    startAnswered dependencies claim
  | .active claim privateRoot => do
    cleanupForReplay claim privateRoot
    let requestId ← randomId
    recoverClaim dependencies.client claim privateRoot (recoveryRequest claim requestId)
  | .result claim privateRoot request => do
    cleanupForReplay claim privateRoot
    replayResult dependencies.client claim privateRoot request
  | .recovery claim privateRoot request => do
    cleanupForReplay claim privateRoot
    client.recoverClaim dependencies.client request
    clear

def serveBoot : OrdinaryProgram Unit := do
  client.attest dependencies.client
  match ← loadJournal with
  | none => return ()
  | some pending => replayPending dependencies pending

def serveLoop : OrdinaryProgram Unit := do
  let request := client.prepareClaim dependencies.client (← randomId)
  save (W := worker) (.claim request)
  let claim ← client.claim dependencies.client request
  startAnswered dependencies claim

end

/-! ## The worker starts a claim once -/

variable {watched : Stopped worker → Prop} {w : World worker} {config : NativeOrdinaryHostClientConfig}
  {dependencies : NativeOrdinaryHostCapacityDependencies}

theorem createReadAuthority_quiet (claim : NativeHostClaim) : Quiet (createReadAuthority dependencies claim) := by
  unfold createReadAuthority
  split
  · exact .operation _
  · exact .bind .randomId fun _ => .bind (.bind (.request (fun _ => rfl) fun _ => rfl) fun _ => .throwIf _ _) fun _ =>
      .operation _

theorem renewClaim_quiet (trusted : NativeHostClaimRenewalRequest) : Quiet (client.renewClaim config trusted) :=
  .bind (.throwIf _ _) fun _ => .bind (.request (fun _ => rfl) fun _ => rfl) fun _ => .bind (.throwIf _ _) fun _ => .pure _

theorem cleanupForReplay_quiet (claim : NativeHostClaim) (privateRoot : NativeHostPrivateRootIdentity) :
    Quiet (cleanupForReplay claim privateRoot) :=
  .bind (.cleanupNativeContainer _) fun _ => .bind (.cleanupPrivateRoot _ _) fun _ => .throwIf _ _

theorem attest_quiet : Quiet (client.attest config) :=
  .bind (.request (fun _ => rfl) fun _ => rfl) fun _ => .throwIf _ _

/-- A claim is answered to the request that the journal waits for. -/
theorem claim_keeps {request : NativeHostClaimRequest} (h : Waiting watched request.requestId w) :
    Keeps (Guarded watched) (client.claim config request)
      (Post (fun response => Offered watched request.requestId (response.map (·.claimId))) (Guarded watched)) w := by
  refine Quiet.now.andThen h (fun requestedAt w h => ?_) fun _ _ h => h.toGuarded
  refine (Quiet.throwIf _ _).andThen h (fun _ w h => ?_) fun _ _ h => h.toGuarded
  refine (h.keeps_request (.claim request) (fun response => Option.map (·.claimId) response)
    fun (r : Option NativeHostClaim) => ?_).andThen (fun response w h => ?_) fun _ _ h => h
  · exact (Option.map_map _ _ r).symm
  · exact (Quiet.throwIf _ _).andThen h (fun _ w h => h) fun _ _ h => h.1.toGuarded

theorem executorDependencies_sound (claim : NativeHostClaim) :
    (executorDependencies dependencies claim).Sound watched claim.claimId where
  createReadAuthority := createReadAuthority_quiet claim
  renewClaim := renewClaim_quiet
  publishCreated identity w h := h.keeps_save (.active claim identity) rfl rfl
  reportResult prepared w h := by
    refine Quiet.readVars.andThen h (fun vars w h => ?_) fun _ _ h => h
    refine h.keeps_end (.result claim vars.privateRoot prepared) rfl rfl fun w h => ?_
    refine Safe.orElse (P := Post (fun _ => Executing watched claim.claimId) (Executing watched claim.claimId))
      ?_ (fun _ _ h => h) fun _ _ h => h
    refine (h.keeps_request (.result prepared) fun _ => rfl).andThen (fun _ w h => ?_) fun _ _ h => h
    exact keeps_throwIf (fun _ => h) fun _ => h
  recoverClaim prepared w hc h := by
    refine Quiet.readVars.andThen h (fun vars w h => ?_) fun _ _ h => h
    refine h.keeps_end (.recovery claim vars.privateRoot prepared) rfl rfl fun w h => ?_
    refine (Quiet.throwIf _ _).andThen h (fun _ w h => ?_) fun _ _ h => h
    exact h.keeps_request (.recovery prepared) fun _ => rfl

/-- The request of a recovery, made for the claim of the journal. -/
theorem clientRecoverClaim_keeps {j : NativeHostJournalState} (h : Replaying watched j w)
    {prepared : NativeHostRecoveryRequest} (hp : j.claimOf = some prepared.claimId) :
    Keeps (Guarded watched) (client.recoverClaim config prepared) (Post (fun _ => Closing watched) (Guarded watched)) w := by
  refine (Quiet.throwIf _ _).andThen h (fun _ w h => ?_) fun _ _ h => h.toGuarded
  refine (h.keeps_finish (.recovery prepared) (fun _ => rfl) (fun _ => rfl) hp).mono ?_
  rintro (failure | _) w h
  · exact h.toGuarded
  · exact h

theorem recoverClaim_keeps {j : NativeHostJournalState} {claim : NativeHostClaim} (h : Replaying watched j w)
    (hj : j.claimOf = some claim.claimId) (privateRoot : NativeHostPrivateRootIdentity) (requestId : String) :
    Keeps (Guarded watched) (recoverClaim config claim privateRoot (recoveryRequest claim requestId))
      (Post (fun _ => Idle watched) (Guarded watched)) w :=
  h.keeps_recovery (.recovery claim privateRoot (recoveryRequest claim requestId)) hj rfl rfl rfl
    fun _ h => clientRecoverClaim_keeps h rfl

theorem replayResult_keeps {claim : NativeHostClaim} {privateRoot : NativeHostPrivateRootIdentity}
    {prepared : NativeHostResultRequest}
    (h : Replaying watched (NativeHostJournalState.result claim privateRoot prepared) w) :
    Keeps (Guarded watched) (replayResult config claim privateRoot prepared)
      (Post (fun _ => Idle watched) (Guarded watched)) w := by
  refine h.keeps_result rfl (fun w h => ?_) fun w h => ?_
  · refine (h.keeps_finish (.result prepared) (fun _ => rfl) (fun _ => rfl) rfl).andThen (fun _ w h => ?_)
      fun _ _ h => ⟨h.toGuarded, fun _ => h⟩
    exact keeps_throwIf (fun _ => h) fun _ => ⟨h.toGuarded, fun hd => by cases hd⟩
  · refine Quiet.randomId.andThen h (fun requestId w h => ?_) fun _ _ h => h.toGuarded
    exact recoverClaim_keeps h rfl privateRoot requestId

variable [Sha256]

theorem executeClaim_keeps {claim : NativeHostClaim} (h : Fresh watched claim.claimId w)
    (privateRoot : NativeHostPrivateRootIdentity) : Keeps (Guarded watched) (executeClaim dependencies claim privateRoot)
      (Post (fun _ => Idle watched) (Guarded watched)) w := by
  refine Quiet.readVars.andThen h (fun vars w h => ?_) fun _ _ h => h.toGuarded
  refine (Quiet.setVars _).andThen h (fun _ w h => ?_) fun _ _ h => h.toGuarded
  exact (executeNativeHostClaim_keeps (executorDependencies_sound claim) h).andThen (fun _ _ h => h) fun _ _ h => h

theorem startAnswered_keeps {k : String} {response : Option NativeHostClaim}
    (h : Offered watched k (response.map (·.claimId)) w) : Keeps (Guarded watched) (startAnswered dependencies response)
      (Post (fun _ => Idle watched) (Guarded watched)) w := by
  cases response with
  | none => exact h.1.closing.keeps_clear
  | some claim =>
    have hg := h.2 claim.claimId rfl
    refine Quiet.randomId.andThen hg (fun rootId w h => ?_) fun _ _ h => h.toGuarded
    refine (h.keeps_activate (.active claim (.planned rootId)) rfl rfl).andThen (fun _ w h => ?_) fun _ _ h => h
    exact executeClaim_keeps h _

/-- A journal of a claim that may have been started leads to its stored result or to its recovery. -/
theorem replayPending_keeps {j : NativeHostJournalState} (h : Replaying watched j w) (hj : j.consistent = true) :
    Keeps (Guarded watched) (replayPending dependencies j) (Post (fun _ => Idle watched) (Guarded watched)) w := by
  cases j with
  | claim request =>
    have hw : Waiting watched request.requestId w :=
      { h with waits := by rw [World.pending, h.journaled]; rfl }
    exact (claim_keeps hw).andThen (fun _ _ h => startAnswered_keeps h) fun _ _ h => h
  | active claim privateRoot =>
    refine (cleanupForReplay_quiet claim privateRoot).andThen h (fun _ w h => ?_) fun _ _ h => h.toGuarded
    refine Quiet.randomId.andThen h (fun requestId w h => ?_) fun _ _ h => h.toGuarded
    exact recoverClaim_keeps h rfl privateRoot requestId
  | result claim privateRoot request =>
    refine (cleanupForReplay_quiet claim privateRoot).andThen h (fun _ w h => ?_) fun _ _ h => h.toGuarded
    exact replayResult_keeps h
  | recovery claim privateRoot request =>
    refine (cleanupForReplay_quiet claim privateRoot).andThen h (fun _ w h => ?_) fun _ _ h => h.toGuarded
    refine (clientRecoverClaim_keeps h ?_).andThen (fun _ w h => h.keeps_clear) fun _ _ h => h
    show some claim.claimId = some request.claimId
    rw [of_decide_eq_true hj]

omit [Sha256] in
theorem loadJournal_keeps (h : Guarded watched w) : Keeps (Guarded watched) loadJournal
    (Post (fun pending w => Guarded watched w ∧ w.journal = pending ∧ ∀ j, pending = some j → j.consistent = true)
      (Guarded watched)) w := by
  refine h.keeps_load.andThen (fun (pending : Option NativeHostJournalState) w h => ?_) fun _ _ h => h
  refine Safe.andThen (P := Post (fun _ w => (Guarded watched w ∧ w.journal = pending) ∧
    (pending.any fun s => !s.consistent) = false) (Guarded watched)) ?_ (fun _ w h => ?_) fun _ _ h => h
  · exact keeps_throwIf (fun hc => ⟨h, hc⟩) fun _ => h.1
  · refine ⟨h.1.1, h.1.2, ?_⟩
    rintro j rfl
    simpa using h.2

theorem serveBoot_keeps (h : Guarded watched w) :
    Keeps (Guarded watched) (serveBoot dependencies) (Post (fun _ => Idle watched) (Guarded watched)) w := by
  refine attest_quiet.andThen h (fun _ w h => ?_) fun _ _ h => h
  refine (loadJournal_keeps h).andThen (fun pending w h => ?_) fun _ _ h => h
  cases pending with
  | none => exact { h.1 with empty := h.2.1 }
  | some j => exact replayPending_keeps { h.1 with journaled := h.2.1 } (h.2.2 j rfl)

theorem serveLoop_keeps (h : Idle watched w) :
    Keeps (Guarded watched) (serveLoop dependencies) (Post (fun _ => Idle watched) (Guarded watched)) w := by
  refine h.keeps_randomId.andThen (fun id w h => ?_) fun _ _ h => h.toGuarded
  refine (h.1.keeps_save (.claim (client.prepareClaim dependencies.client id)) h.2.1 h.2.2 rfl rfl).andThen
    (fun _ w h => ?_) fun _ _ h => h
  have hw : Waiting watched (client.prepareClaim dependencies.client id).requestId w := h
  exact (claim_keeps hw).andThen (fun _ _ h => startAnswered_keeps h) fun _ _ h => h

end OrdinaryWorker

end Dim.Host
