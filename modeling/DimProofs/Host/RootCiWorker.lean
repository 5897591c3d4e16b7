/-
`serveNativeRootCiHostCapacity` with its client and its journal. A claim is reserved, issued and activated
before it is executed, each under a journal of its own; the guard of the capacity leaves one process at a
time. `serveBoot` runs up to the loop, `serveLoop` is one round of it.
-/
import DimProofs.Host.NativeExecutor
import DimProofs.RootCi.Protocol

namespace Dim.Host

open Effectful Dim.Ordinary Dim.RootCi

namespace RootCiWorker

/-- The recovery request of a journal is made for its claim. -/
inductive NativeRootCiHostJournalState where
  | claim (request : NativeRootCiClaimRequest)
  | reserved (claim : NativeRootCiClaim)
  | activation (claim : NativeRootCiClaim) (issuance : NativeJobAttemptIssuance)
      (request : NativeRootCiClaimActivationRequest)
  | active (claim : NativeRootCiClaim) (active : NativeRootCiActiveClaim) (privateRoot : NativeHostPrivateRootIdentity)
  | result (claim : NativeRootCiClaim) (active : NativeRootCiActiveClaim) (privateRoot : NativeHostPrivateRootIdentity)
      (request : NativeRootCiHostResultRequest)
  | recovery (claim : NativeRootCiClaim) (active : NativeRootCiActiveClaim)
      (privateRoot : NativeHostPrivateRootIdentity) (request : NativeRootCiClaimRecoveryRequest)
      (own : request.claim = claim)

theorem recovery_claimId (request : NativeRootCiClaimRecoveryRequest) : request.claimId = request.claim.claimId := by
  have h := request.parsed
  simp only [recoveryIdentity, Bool.and_eq_true, decide_eq_true_eq] at h
  exact h.1.1.2

namespace NativeRootCiHostJournalState

/-- The claim of a journal that waits for its activation. -/
def held : NativeRootCiHostJournalState → Option (String × String)
  | .reserved c | .activation c _ _ => some (c.requestId, c.claimId)
  | _ => none

def pending : NativeRootCiHostJournalState → Option String
  | .claim request => some request.requestId
  | .reserved c | .activation c _ _ => some c.requestId
  | _ => none

def claimOf : NativeRootCiHostJournalState → Option String
  | .active c _ _ | .result c _ _ _ | .recovery c _ _ _ _ => some c.claimId
  | _ => none

def stored : NativeRootCiHostJournalState → Option NativeRootCiHostResultRequest
  | .result _ _ _ request => some request
  | _ => none

def recovers : NativeRootCiHostJournalState → Bool
  | .recovery _ _ _ _ _ => true
  | _ => false

end NativeRootCiHostJournalState

/-! ## The client -/

structure NativeRootCiHostClientConfig where
  (hostId capacity generationId serviceId : String)

structure HostIdentity where
  (serviceId role hostId : String)

structure HostAttempt where
  (serviceId requestId : String)
  issuance : NativeJobAttemptIssuance

structure CandidateLeaseRequest where
  (requestId claimId attemptId descriptorDigest : String)

structure NativeCandidateLease where
  (serviceId requestId username password : String)

inductive ClientRequest where
  | identity
  | reservation (request : NativeRootCiClaimRequest)
  | attempt (requestId : String) (claim : NativeRootCiClaim)
  | activation (request : NativeRootCiClaimActivationRequest)
  | renewal (request : NativeRootCiClaimLeaseRequest)
  | candidateLease (request : CandidateLeaseRequest)
  | recovery (request : NativeRootCiClaimRecoveryRequest)
  | result (request : NativeRootCiHostResultRequest)

/-- The body of a response with a status that the client expects: `none` is `204`, and the result's is the
claim that its acknowledgement names. -/
def ClientRequest.Response : ClientRequest → Type
  | .identity => HostIdentity
  | .reservation _ => Option NativeRootCiClaim
  | .attempt _ _ => HostAttempt
  | .activation _ | .renewal _ => NativeRootCiActiveClaim
  | .candidateLease _ => NativeCandidateLease
  | .recovery _ => Unit
  | .result _ => String

def claimed : (request : ClientRequest) → request.Response → Option (String × String)
  | .reservation request, (response : Option NativeRootCiClaim) => response.map fun c => (request.requestId, c.claimId)
  | _, _ => none

def finished : (request : ClientRequest) → request.Response → Option (Finish NativeRootCiHostResultRequest)
  | .recovery request, _ => some (.recovered request.claimId)
  | .result request, _ => some (.reported request)
  | _, _ => none

@[reducible] def worker : Worker where
  Journal := NativeRootCiHostJournalState
  Request := ClientRequest
  Response := ClientRequest.Response
  Result := NativeRootCiHostResultRequest
  pending := NativeRootCiHostJournalState.pending
  held := NativeRootCiHostJournalState.held
  claimOf := NativeRootCiHostJournalState.claimOf
  stored := NativeRootCiHostJournalState.stored
  recovers := NativeRootCiHostJournalState.recovers
  claimed := claimed
  finished := finished
  pending_of_held {j k c} h := by cases j <;> first | (cases h; rfl) | cases h
  pending_of_claimOf {j c} h := by cases j <;> first | rfl | cases h
  stored_of_recovers {j} h := by cases j <;> first | rfl | cases h

abbrev RootCiProgram (α : Type) : Type := HostProgram worker α

def client.attest (config : NativeRootCiHostClientConfig) : RootCiProgram Unit := do
  let identity : HostIdentity ← request (W := worker) .identity
  throwIf (identity.serviceId ≠ config.serviceId || identity.role ≠ "native-host" || identity.hostId ≠ config.hostId)
    .client

def client.prepareClaim (config : NativeRootCiHostClientConfig) (requestId : String) : NativeRootCiClaimRequest :=
  { requestId, generationId := config.generationId, hostId := config.hostId, capacity := config.capacity }

/-- `assertScope`. -/
def inScope (config : NativeRootCiHostClientConfig) (generationId hostId capacity : String) : Bool :=
  generationId = config.generationId && hostId = config.hostId && capacity = config.capacity

def claimMatches (config : NativeRootCiHostClientConfig) (trusted : NativeRootCiClaimRequest) (claim : NativeRootCiClaim) :
    Bool :=
  claim.requestId = trusted.requestId && claim.serviceId = config.serviceId
    && inScope config claim.generationId claim.hostId claim.capacity

def client.reserve (config : NativeRootCiHostClientConfig) (trusted : NativeRootCiClaimRequest) :
    RootCiProgram (Option NativeRootCiClaim) := do
  throwIf (!inScope config trusted.generationId trusted.hostId trusted.capacity) .client
  let response : Option NativeRootCiClaim ← request (W := worker) (.reservation trusted)
  throwIf (response.any fun claim => !claimMatches config trusted claim) .client
  return response

/-- The issuance request of a claim has the claim's id. -/
def client.issue (config : NativeRootCiHostClientConfig) (claim : NativeRootCiClaim) :
    RootCiProgram NativeJobAttemptIssuance := do
  throwIf (!inScope config claim.generationId claim.hostId claim.capacity) .client
  let body : HostAttempt ← request (W := worker) (.attempt claim.claimId claim)
  throwIf (body.serviceId ≠ config.serviceId || body.requestId ≠ claim.claimId) .client
  return body.issuance

/-- The request's parser refuses an issuance of another claim. -/
def client.prepareActivation (config : NativeRootCiHostClientConfig) (claim : NativeRootCiClaim)
    (issuance : NativeJobAttemptIssuance) (requestId : String) : RootCiProgram NativeRootCiClaimActivationRequest :=
  if h : issuanceBound claim issuance = true then
    pure { requestId, generationId := config.generationId, claim, issuance, bound := h }
  else throw .other

def client.prepareRenewal (config : NativeRootCiHostClientConfig) (active : NativeRootCiActiveClaim) (requestId : String) :
    NativeRootCiClaimLeaseRequest :=
  { requestId, generationId := config.generationId, hostId := config.hostId, capacity := config.capacity,
    claimId := active.claimId, attemptId := active.issuance.attemptId,
    descriptorDigest := active.issuance.descriptorDigest }

def renewalMatches (config : NativeRootCiHostClientConfig) (trusted : NativeRootCiClaimLeaseRequest)
    (active : NativeRootCiActiveClaim) : Bool :=
  active.serviceId = config.serviceId && active.generationId = trusted.generationId
    && active.requestId = trusted.requestId && active.claimId = trusted.claimId
    && active.assignment.attemptId = trusted.attemptId && active.assignment.descriptorDigest = trusted.descriptorDigest
    && active.assignment.hostId = trusted.hostId && active.assignment.capacity = trusted.capacity
    && active.issuance.attemptId = trusted.attemptId && active.issuance.descriptorDigest = trusted.descriptorDigest
    && active.issuance.hostId = trusted.hostId && active.issuance.capacity = trusted.capacity

def client.renew (config : NativeRootCiHostClientConfig) (trusted : NativeRootCiClaimLeaseRequest) :
    RootCiProgram NativeRootCiActiveClaim := do
  let active : NativeRootCiActiveClaim ← request (W := worker) (.renewal trusted)
  throwIf (!renewalMatches config trusted active) .client
  return active

def client.candidateLease (config : NativeRootCiHostClientConfig) (active : NativeRootCiActiveClaim) (requestId : String) :
    RootCiProgram Unit := do
  let lease : NativeCandidateLease ← request (W := worker) (.candidateLease
    { requestId, claimId := active.claimId, attemptId := active.issuance.attemptId,
      descriptorDigest := active.issuance.descriptorDigest })
  throwIf (lease.serviceId ≠ config.serviceId || lease.requestId ≠ requestId) .client

/-- The request's parser refuses an issuance of another claim, and the identity of another claim. -/
def client.prepareRecovery (config : NativeRootCiHostClientConfig) (claim : NativeRootCiClaim)
    (issuance : NativeJobAttemptIssuance) (requestId : String) :
    RootCiProgram { request : NativeRootCiClaimRecoveryRequest // request.claim = claim } :=
  let identity : NativeRootCiClaimLeaseRequest :=
    { requestId, generationId := config.generationId, hostId := config.hostId, capacity := config.capacity,
      claimId := claim.claimId, attemptId := issuance.attemptId, descriptorDigest := issuance.descriptorDigest }
  if h : recoveryIdentity identity claim issuance = true then
    pure ⟨{ identity with claim, issuance, resourceId := claim.claimId, parsed := h }, rfl⟩
  else throw .other

def client.recover (trusted : NativeRootCiClaimRecoveryRequest) : RootCiProgram Unit :=
  request (W := worker) (.recovery trusted)

def client.report (trusted : NativeRootCiHostResultRequest) : RootCiProgram Unit := do
  let claimId : String ← request (W := worker) (.result trusted)
  throwIf (claimId ≠ trusted.claimId) .client

section
variable [Sha256]

def activeMatches (config : NativeRootCiHostClientConfig) (trusted : NativeRootCiClaimActivationRequest)
    (active : NativeRootCiActiveClaim) : Bool :=
  active.serviceId = config.serviceId && active.generationId = config.generationId
    && active.serviceEpochId = trusted.claim.serviceEpochId && active.requestId = trusted.requestId
    && active.claimId = trusted.claim.claimId && active.issuance = trusted.issuance
    && some active.assignment = nativeRootCiAttemptAssignment trusted.claim trusted.issuance

def client.activate (config : NativeRootCiHostClientConfig) (trusted : NativeRootCiClaimActivationRequest) :
    RootCiProgram NativeRootCiActiveClaim := do
  let active : NativeRootCiActiveClaim ← request (W := worker) (.activation trusted)
  throwIf (!activeMatches config trusted active) .client
  return active

end

/-! ## The executor's dependencies -/

def nativeRootCiHostExecutorClaim (claim : NativeRootCiClaim) (active : NativeRootCiActiveClaim) : NativeHostClaim :=
  { serviceId := claim.serviceId, requestId := claim.requestId, claimId := claim.claimId, eventId := claim.event.eventId,
    reviewId := active.issuance.reviewId, attemptId := active.issuance.attemptId, attempt := active.issuance.attempt,
    admissionGeneration := claim.admissionGeneration, hostId := claim.hostId, capacity := claim.capacity,
    leaseExpiresAt := active.leaseExpiresAt, descriptor := active.issuance.descriptor,
    descriptorDigest := active.issuance.descriptorDigest }

/-- `report`; the terminal event takes the schema of root CI with `executionKind` `ordinary-sysbox`. -/
def report (claim : NativeRootCiClaim) (active : NativeRootCiActiveClaim) (request : NativeHostResultRequest) :
    RootCiProgram Unit := do
  let prepared : NativeRootCiHostResultRequest :=
    { requestId := request.requestId, generationId := claim.generationId, claimId := claim.claimId,
      terminalEvent := request.terminalEvent }
  let vars ← readVars
  save (W := worker) (.result claim active vars.privateRoot prepared)
  client.report prepared
  clear

/-- `recover` of the worker, and of the executor with the private root it has. -/
def recover (config : NativeRootCiHostClientConfig) (claim : NativeRootCiClaim) (active : NativeRootCiActiveClaim)
    (privateRoot : NativeHostPrivateRootIdentity) (requestId : String) : RootCiProgram Unit := do
  let prepared ← client.prepareRecovery config claim active.issuance requestId
  save (W := worker) (.recovery claim active privateRoot prepared.1 prepared.2)
  client.recover prepared.1
  clear

def recoverExecuted (config : NativeRootCiHostClientConfig) (claim : NativeRootCiClaim) (active : NativeRootCiActiveClaim)
    (request : NativeHostRecoveryRequest) : RootCiProgram Unit := do
  let vars ← readVars
  recover config claim active vars.privateRoot request.requestId

def createReadAuthority (config : NativeRootCiHostClientConfig) (active : NativeRootCiActiveClaim) : RootCiProgram Unit := do
  let requestId ← randomId
  client.candidateLease config active requestId
  operation .createReadAuthority

def renewClaim (config : NativeRootCiHostClientConfig) (active : NativeRootCiActiveClaim)
    (request : NativeHostClaimRenewalRequest) : RootCiProgram NativeHostClaimRenewal := do
  let renewed ← client.renew config (client.prepareRenewal config active request.requestId)
  return { serviceId := renewed.serviceId, requestId := renewed.requestId, claimId := renewed.claimId,
           leaseExpiresAt := renewed.leaseExpiresAt, leaseDurationMilliseconds := renewed.leaseDurationMilliseconds }

def executorDependencies (config : NativeRootCiHostClientConfig) (claim : NativeRootCiClaim)
    (active : NativeRootCiActiveClaim) : NativeHostExecutorDependencies worker where
  createReadAuthority := createReadAuthority config active
  renewClaim := renewClaim config active
  reportResult := report claim active
  recoverClaim := recoverExecuted config claim active
  publishCreated identity := save (W := worker) (.active claim active identity)

/-! ## The worker -/

def definitive : NativeHostFailure → Bool
  | .requestRejected statusCode => statusCode = 404 || statusCode = 409
  | _ => false

/-- `cleanupNativeRootCiHostResources`. -/
def cleanup (claim : NativeRootCiClaim) (privateRoot : NativeHostPrivateRootIdentity) : RootCiProgram Unit := do
  let containerCleaned ← cleanupNativeContainer claim.claimId
  let rootCleaned ← cleanupPrivateRoot privateRoot claim.claimId
  throwIf (!containerCleaned || !rootCleaned) (.cleanup claim.claimId)

def replayResult (config : NativeRootCiHostClientConfig) (claim : NativeRootCiClaim) (active : NativeRootCiActiveClaim)
    (privateRoot : NativeHostPrivateRootIdentity) (prepared : NativeRootCiHostResultRequest) : RootCiProgram Unit :=
  tryCatch (do client.report prepared; clear) fun failure =>
    if definitive failure then do
      let requestId ← randomId
      recover config claim active privateRoot requestId
    else throw failure

section
variable [Sha256] (config : NativeRootCiHostClientConfig)

def executeActive (claim : NativeRootCiClaim) (active : NativeRootCiActiveClaim)
    (privateRoot : NativeHostPrivateRootIdentity) : RootCiProgram Unit := do
  save (W := worker) (.active claim active privateRoot)
  setVars { (← readVars) with privateRoot }
  let _ ← executeNativeHostClaim (executorDependencies config claim active) (nativeRootCiHostExecutorClaim claim active)

/-- The activation of a request that the journal has, and the execution after it. -/
def activateExecute (claim : NativeRootCiClaim) (request : NativeRootCiClaimActivationRequest) : RootCiProgram Unit := do
  let active ← client.activate config request
  let rootId ← randomId
  executeActive config claim active (.planned rootId)

def issueActivateExecute (claim : NativeRootCiClaim) : RootCiProgram Unit := do
  let issuance ← client.issue config claim
  let requestId ← randomId
  let request ← client.prepareActivation config claim issuance requestId
  save (W := worker) (.activation claim issuance request)
  activateExecute config claim request

/-- A claim that was reserved is executed, and without one the journal is cleared. -/
def executeReserved : Option NativeRootCiClaim → RootCiProgram Unit
  | none => clear
  | some claim => do
    save (W := worker) (.reserved claim)
    issueActivateExecute config claim

def replay : NativeRootCiHostJournalState → RootCiProgram Unit
  | .claim request => do
    let claim ← client.reserve config request
    executeReserved config claim
  | .reserved claim => issueActivateExecute config claim
  | .activation claim _ request => activateExecute config claim request
  | .active claim active privateRoot => do
    cleanup claim privateRoot
    let requestId ← randomId
    recover config claim active privateRoot requestId
  | .result claim active privateRoot request => do
    cleanup claim privateRoot
    replayResult config claim active privateRoot request
  | .recovery claim _ privateRoot request _ => do
    cleanup claim privateRoot
    client.recover request
    clear

def serveBoot : RootCiProgram Unit := do
  client.attest config
  match ← load with
  | none => return ()
  | some pending => replay config pending

def serveLoop : RootCiProgram Unit := do
  let request := client.prepareClaim config (← randomId)
  save (W := worker) (.claim request)
  let claim ← client.reserve config request
  executeReserved config claim

end

/-! ## The worker starts a claim once -/

variable {watched : Stopped worker → Prop} {w : World worker} {config : NativeRootCiHostClientConfig}

theorem createReadAuthority_quiet (active : NativeRootCiActiveClaim) : Quiet (createReadAuthority config active) :=
  .bind .randomId fun _ => .bind (.bind (.request (fun _ => rfl) fun _ => rfl) fun _ => .throwIf _ _) fun _ => .operation _

theorem renewClaim_quiet (active : NativeRootCiActiveClaim) (request : NativeHostClaimRenewalRequest) :
    Quiet (renewClaim config active request) :=
  .bind (.bind (.request (fun _ => rfl) fun _ => rfl) fun _ => .bind (.throwIf _ _) fun _ => .pure _) fun _ => .pure _

theorem cleanup_quiet (claim : NativeRootCiClaim) (privateRoot : NativeHostPrivateRootIdentity) :
    Quiet (cleanup claim privateRoot) :=
  .bind (.cleanupNativeContainer _) fun _ => .bind (.cleanupPrivateRoot _ _) fun _ => .throwIf _ _

theorem attest_quiet : Quiet (client.attest config) :=
  .bind (.request (fun _ => rfl) fun _ => rfl) fun _ => .throwIf _ _

theorem issue_quiet (claim : NativeRootCiClaim) : Quiet (client.issue config claim) :=
  .bind (.throwIf _ _) fun _ => .bind (.request (fun _ => rfl) fun _ => rfl) fun _ => .bind (.throwIf _ _) fun _ => .pure _

theorem prepareActivation_quiet (claim : NativeRootCiClaim) (issuance : NativeJobAttemptIssuance) (requestId : String) :
    Quiet (client.prepareActivation config claim issuance requestId) := by
  unfold client.prepareActivation
  split
  · exact .pure _
  · exact .throw _

theorem prepareRecovery_quiet (claim : NativeRootCiClaim) (issuance : NativeJobAttemptIssuance) (requestId : String) :
    Quiet (client.prepareRecovery config claim issuance requestId) := by
  unfold client.prepareRecovery
  dsimp only
  split
  · exact .pure _
  · exact .throw _

theorem activate_quiet [Sha256] (trusted : NativeRootCiClaimActivationRequest) : Quiet (client.activate config trusted) :=
  .bind (.request (fun _ => rfl) fun _ => rfl) fun _ => .bind (.throwIf _ _) fun _ => .pure _

/-- A reservation is answered to the request that the journal waits for, and names that request. -/
theorem reserve_keeps {request : NativeRootCiClaimRequest} (h : Waiting watched request.requestId w) :
    Keeps (Guarded watched) (client.reserve config request)
      (Post (fun response w => Offered watched request.requestId (response.map (·.claimId)) w ∧
        ∀ claim, response = some claim → claim.requestId = request.requestId) (Guarded watched)) w := by
  refine (Quiet.throwIf _ _).andThen h (fun _ w h => ?_) fun _ _ h => h.toGuarded
  refine (h.keeps_request (.reservation request) (fun response => Option.map (·.claimId) response)
    fun (r : Option NativeRootCiClaim) => ?_).andThen (fun (response : Option NativeRootCiClaim) w h => ?_) fun _ _ h => h
  · exact (Option.map_map _ _ r).symm
  · refine Safe.andThen (P := Post (fun _ w => Offered watched request.requestId (response.map (·.claimId)) w ∧
      (response.any fun claim => !claimMatches config request claim) = false) (Guarded watched)) ?_ (fun _ w h => ?_)
      fun _ _ h => h
    · exact keeps_throwIf (fun hc => ⟨h, hc⟩) fun _ => h.1.toGuarded
    · refine ⟨h.1, ?_⟩
      rintro claim rfl
      have hm := h.2
      simp only [Option.any_some, claimMatches, Bool.not_eq_false', Bool.and_eq_true, decide_eq_true_eq] at hm
      exact hm.1.1

variable {claim : NativeRootCiClaim}

/-- A recovery of an executed claim. -/
theorem recover_executing (h : Executing watched claim.claimId w)
    (active : NativeRootCiActiveClaim) (privateRoot : NativeHostPrivateRootIdentity) (requestId : String) :
    Keeps (Guarded watched) (recover config claim active privateRoot requestId)
      (Post (fun _ => Idle watched) (Executing watched claim.claimId)) w := by
  refine (prepareRecovery_quiet _ _ _).andThen h (fun prepared w h => ?_) fun _ _ h => h
  exact h.keeps_end (.recovery claim active privateRoot prepared.1 prepared.2) rfl rfl fun w h =>
    h.keeps_request (.recovery prepared.1) fun _ => rfl

theorem executorDependencies_sound (claim : NativeRootCiClaim) (active : NativeRootCiActiveClaim) :
    (executorDependencies config claim active).Sound watched claim.claimId where
  createReadAuthority := createReadAuthority_quiet active
  renewClaim := renewClaim_quiet active
  publishCreated identity w h := h.keeps_save (.active claim active identity) rfl rfl
  reportResult request w h := by
    refine Quiet.readVars.andThen h (fun vars w h => ?_) fun _ _ h => h
    refine h.keeps_end (.result claim active vars.privateRoot _) rfl rfl fun w h => ?_
    refine (h.keeps_request (.result _) fun _ => rfl).andThen (fun _ w h => ?_) fun _ _ h => h
    exact keeps_throwIf (fun _ => h) fun _ => h
  recoverClaim request w hc h := by
    refine Quiet.readVars.andThen h (fun vars w h => ?_) fun _ _ h => h
    exact recover_executing h active vars.privateRoot request.requestId

variable {j : NativeRootCiHostJournalState}

/-- The request of a recovery, made for the claim of the journal. -/
theorem clientRecover_keeps (h : Replaying watched j w)
    {prepared : NativeRootCiClaimRecoveryRequest} (hp : j.claimOf = some prepared.claim.claimId) :
    Keeps (Guarded watched) (client.recover prepared) (Post (fun _ => Closing watched) (Guarded watched)) w := by
  refine (h.keeps_finish (.recovery prepared) (fun _ => rfl) (fun _ => rfl) ?_).mono ?_
  · show j.claimOf = some prepared.claimId
    rw [hp, recovery_claimId]
  · rintro (failure | _) w h
    · exact h.toGuarded
    · exact h

/-- A recovery of a claim whose journal was found. -/
theorem recover_keeps (h : Replaying watched j w)
    (hj : j.claimOf = some claim.claimId) (active : NativeRootCiActiveClaim)
    (privateRoot : NativeHostPrivateRootIdentity) (requestId : String) :
    Keeps (Guarded watched) (recover config claim active privateRoot requestId)
      (Post (fun _ => Idle watched) (Guarded watched)) w := by
  refine (prepareRecovery_quiet _ _ _).andThen h (fun prepared w h => ?_) fun _ _ h => h.toGuarded
  refine h.keeps_recovery (.recovery claim active privateRoot prepared.1 prepared.2) hj rfl rfl rfl fun w h => ?_
  refine clientRecover_keeps h ?_
  show some claim.claimId = some prepared.1.claim.claimId
  rw [prepared.2]

theorem replayResult_keeps {active : NativeRootCiActiveClaim}
    {privateRoot : NativeHostPrivateRootIdentity} {prepared : NativeRootCiHostResultRequest}
    (h : Replaying watched (NativeRootCiHostJournalState.result claim active privateRoot prepared) w) :
    Keeps (Guarded watched) (replayResult config claim active privateRoot prepared)
      (Post (fun _ => Idle watched) (Guarded watched)) w := by
  refine h.keeps_result rfl (fun w h => ?_) fun w h => ?_
  · refine (h.keeps_finish (.result prepared) (fun _ => rfl) (fun _ => rfl) rfl).andThen (fun _ w h => ?_)
      fun _ _ h => ⟨h.toGuarded, fun _ => h⟩
    exact keeps_throwIf (fun _ => h) fun _ => ⟨h.toGuarded, fun hd => by cases hd⟩
  · refine Quiet.randomId.andThen h (fun requestId w h => ?_) fun _ _ h => h.toGuarded
    exact recover_keeps h rfl active privateRoot requestId

variable [Sha256]

variable {k : String}

theorem executeActive_keeps (h : Granted watched k claim.claimId w)
    (active : NativeRootCiActiveClaim) (privateRoot : NativeHostPrivateRootIdentity) :
    Keeps (Guarded watched) (executeActive config claim active privateRoot)
      (Post (fun _ => Idle watched) (Guarded watched)) w := by
  refine (h.keeps_activate (.active claim active privateRoot) rfl rfl).andThen (fun _ w h => ?_) fun _ _ h => h
  refine Quiet.readVars.andThen h (fun vars w h => ?_) fun _ _ h => h.toGuarded
  refine (Quiet.setVars _).andThen h (fun _ w h => ?_) fun _ _ h => h.toGuarded
  have hf : Fresh watched (nativeRootCiHostExecutorClaim claim active).claimId w := h
  exact (executeNativeHostClaim_keeps (executorDependencies_sound claim active) hf).andThen (fun _ _ h => h) fun _ _ h => h

theorem activateExecute_keeps (h : Granted watched k claim.claimId w)
    (request : NativeRootCiClaimActivationRequest) : Keeps (Guarded watched) (activateExecute config claim request)
      (Post (fun _ => Idle watched) (Guarded watched)) w := by
  refine (activate_quiet _).andThen h (fun active w h => ?_) fun _ _ h => h.toGuarded
  refine Quiet.randomId.andThen h (fun rootId w h => ?_) fun _ _ h => h.toGuarded
  exact executeActive_keeps h active _

theorem issueActivateExecute_keeps (h : Granted watched claim.requestId claim.claimId w) :
    Keeps (Guarded watched) (issueActivateExecute config claim) (Post (fun _ => Idle watched) (Guarded watched)) w := by
  refine (issue_quiet _).andThen h (fun issuance w h => ?_) fun _ _ h => h.toGuarded
  refine Quiet.randomId.andThen h (fun requestId w h => ?_) fun _ _ h => h.toGuarded
  refine (prepareActivation_quiet _ _ _).andThen h (fun request w h => ?_) fun _ _ h => h.toGuarded
  refine (h.keeps_hold (.activation claim issuance request) rfl).andThen (fun _ w h => ?_) fun _ _ h => h
  exact activateExecute_keeps h request

theorem executeReserved_keeps {response : Option NativeRootCiClaim}
    (h : Offered watched k (response.map (·.claimId)) w) (hk : ∀ claim, response = some claim → claim.requestId = k) :
    Keeps (Guarded watched) (executeReserved config response) (Post (fun _ => Idle watched) (Guarded watched)) w := by
  cases response with
  | none => exact h.1.closing.keeps_clear
  | some claim =>
    obtain rfl := hk claim rfl
    refine ((h.2 claim.claimId rfl).keeps_hold (.reserved claim) rfl).andThen (fun _ w h => ?_) fun _ _ h => h
    exact issueActivateExecute_keeps h

/-- A journal of a claim that may have been started leads to its stored result or to its recovery. -/
theorem replay_keeps (h : Replaying watched j w) :
    Keeps (Guarded watched) (replay config j) (Post (fun _ => Idle watched) (Guarded watched)) w := by
  cases j with
  | claim request =>
    have hw : Waiting watched request.requestId w := { h with waits := by rw [World.pending, h.journaled]; rfl }
    exact (reserve_keeps hw).andThen (fun _ _ h => executeReserved_keeps h.1 h.2) fun _ _ h => h
  | reserved claim => exact issueActivateExecute_keeps (h.granted rfl)
  | activation claim issuance request => exact activateExecute_keeps (h.granted rfl) request
  | active claim active privateRoot =>
    refine (cleanup_quiet claim privateRoot).andThen h (fun _ w h => ?_) fun _ _ h => h.toGuarded
    refine Quiet.randomId.andThen h (fun requestId w h => ?_) fun _ _ h => h.toGuarded
    exact recover_keeps h rfl active privateRoot requestId
  | result claim active privateRoot request =>
    refine (cleanup_quiet claim privateRoot).andThen h (fun _ w h => ?_) fun _ _ h => h.toGuarded
    exact replayResult_keeps h
  | recovery claim active privateRoot request own =>
    refine (cleanup_quiet claim privateRoot).andThen h (fun _ w h => ?_) fun _ _ h => h.toGuarded
    refine (clientRecover_keeps h ?_).andThen (fun _ w h => h.keeps_clear) fun _ _ h => h
    show some claim.claimId = some request.claim.claimId
    rw [own]

theorem serveBoot_keeps (h : Guarded watched w) :
    Keeps (Guarded watched) (serveBoot config) (Post (fun _ => Idle watched) (Guarded watched)) w := by
  refine attest_quiet.andThen h (fun _ w h => ?_) fun _ _ h => h
  refine h.keeps_load.andThen (fun (pending : Option NativeRootCiHostJournalState) w h => ?_) fun _ _ h => h
  cases pending with
  | none => exact { h.1 with empty := h.2 }
  | some j => exact replay_keeps { h.1 with journaled := h.2 }

theorem serveLoop_keeps (h : Idle watched w) :
    Keeps (Guarded watched) (serveLoop config) (Post (fun _ => Idle watched) (Guarded watched)) w := by
  refine h.keeps_randomId.andThen (fun id w h => ?_) fun _ _ h => h.toGuarded
  refine (h.1.keeps_save (.claim (client.prepareClaim config id)) h.2.1 h.2.2 rfl rfl).andThen
    (fun _ w h => ?_) fun _ _ h => h
  have hw : Waiting watched (client.prepareClaim config id).requestId w := h
  exact (reserve_keeps hw).andThen (fun _ _ h => executeReserved_keeps h.1 h.2) fun _ _ h => h

end RootCiWorker

end Dim.Host
