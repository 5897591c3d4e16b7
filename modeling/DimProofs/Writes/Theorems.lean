/-
What a push can do: whatever a Git request changes is a proposal of the workspace whose lease was live when its
operation ran,
in the root repository of the lease's Project, and no other credential has a backend that writes.
-/
import DimProofs.Writes.Service

namespace Dim.Writes

open Transition (Reachable)
open Relation (ReflTransGen)
open Repositories (Value)

section Confinement

variable (input : Input)

/-! ## The leases of the operations -/

/-- An operation is of a request that brought a credential of the lease. -/
structure Accepted (issued : List (Text × WorkspaceWriteLeaseScope)) (operation : Operation) : Prop where
  lease : (operation.credential.username, operation.lease) ∈ issued
  credential : operation.request.credential = some operation.credential
  route : nativeGitRoute operation.request = some operation.route

/-- What holds of the leases and the queue at all times. -/
structure Sound (s : Server) : Prop where
  registered : ∀ entry ∈ s.writeLeases, (entry.1, entry.2.scope) ∈ s.issued
  unique : ∀ entry ∈ s.issued, ∀ entry' ∈ s.issued, entry.1 = entry'.1 → entry = entry'
  scopes : ∀ entry ∈ s.issued, entry.2.generationId = input.expectedGenerationId ∧ entry.2.repositoryId = root ∧
    workspaceIdGrammar entry.2.workspaceId = true
  waiting : ∀ operation ∈ s.waiting, Accepted s.issued operation
  running : ∀ operation stage, s.running = some (operation, stage) → Accepted s.issued operation

variable {operation : Operation}

theorem Accepted.mono {issued issued' : List (Text × WorkspaceWriteLeaseScope)}
    (h : Accepted issued operation) (hmono : ∀ entry ∈ issued, entry ∈ issued') : Accepted issued' operation :=
  ⟨hmono _ h.lease, h.credential, h.route⟩

variable {request : Request} {s : Server}

/-- What the authentication of a request leaves of a server: no lease is added. -/
def Pruned (s s' : Server) : Prop :=
  ∃ writeLeases readLeases candidates, (∀ entry ∈ writeLeases, entry ∈ s.writeLeases) ∧
    s' = { s with writeLeases, readLeases, candidates }

theorem Pruned.trans {s₁ s₂ s₃ : Server} (h : Pruned s₁ s₂) (h' : Pruned s₂ s₃) : Pruned s₁ s₃ := by
  obtain ⟨_, _, _, hsub, rfl⟩ := h
  obtain ⟨_, _, _, hsub', rfl⟩ := h'
  exact ⟨_, _, _, fun entry hentry => hsub entry (hsub' entry hentry), rfl⟩

theorem Pruned.authenticate (s : Server) (credential : Credential) :
    Pruned s { s with writeLeases := (s.writeLeases.authenticate s.now credential).1 } := by
  refine ⟨_, _, _, fun entry hentry => ?_, rfl⟩
  rw [Registry.authenticate_fst] at hentry
  exact Registry.mem_pruneExpired hentry

theorem Reading.pruned (s : Server) (reading : Reading) : Pruned s (reading.authenticate s) := by
  unfold Reading.authenticate
  split <;> exact ⟨_, _, _, fun _ => id, rfl⟩

variable {route : Route}

theorem candidateServeGit_pruned : Pruned s (candidateServeGit s request route).1 := by
  dsimp only [candidateServeGit]
  repeat' split
  all_goals exact ⟨_, _, _, fun _ => id, rfl⟩

theorem workspaceServeGit_pruned : Pruned s (workspaceServeGit input s request route).1 := by
  unfold workspaceServeGit
  split
  · exact ⟨_, _, _, fun _ => id, rfl⟩
  · rename_i credential _
    dsimp only
    repeat' split
    all_goals exact .authenticate s credential

theorem rootServeGit_pruned : Pruned s (rootServeGit input s request route).1 := by
  dsimp only [rootServeGit]
  repeat' split
  all_goals exact ⟨_, _, _, fun _ => id, rfl⟩

/-- Only a lease of a workspace brings a request to the queue. -/
theorem workspaceServeGit_queued {s' : Server}
    (h : workspaceServeGit input s request route = (s', some (.queued operation))) :
    request.credential = some operation.credential ∧ operation.route = route ∧ operation.request = request ∧
      (s.writeLeases.authenticate s.now operation.credential).2 = some operation.lease := by
  unfold workspaceServeGit at h
  split at h
  · cases h
  · rename_i credential hcredential
    dsimp only at h
    split at h
    · cases h
    · rename_i lease hlease
      split at h
      · cases h
      split at h
      · cases h
      · cases h
        exact ⟨hcredential, rfl, rfl, hlease⟩

theorem candidateServeGit_queued {s' : Server} :
    candidateServeGit s request route ≠ (s', some (.queued operation)) := by
  intro hqueued
  dsimp only [candidateServeGit] at hqueued
  repeat' split at hqueued
  all_goals cases hqueued

theorem rootServeGit_queued : (rootServeGit input s request route).2 ≠ .queued operation := by
  intro hqueued
  dsimp only [rootServeGit] at hqueued
  repeat' split at hqueued
  all_goals cases hqueued

/-- What a request does to the server before it is queued, and what it is queued for. -/
theorem handle_spec (s : Server) (request : Request) :
    Pruned s (handle input s request).1 ∧ ∀ operation, (handle input s request).2 = .queued operation →
      nativeGitRoute request = some operation.route ∧ request.credential = some operation.credential ∧
        operation.request = request ∧
        ∃ lease, (operation.credential.username, lease) ∈ s.writeLeases ∧ lease.scope = operation.lease := by
  unfold handle
  cases hroute : nativeGitRoute request with
  | none => exact ⟨⟨_, _, _, fun _ => id, rfl⟩, nofun⟩
  | some route =>
    have hcandidate : Pruned s (candidateServeGit s request route).1 := candidateServeGit_pruned
    rcases hserved : candidateServeGit s request route with ⟨s₁, _ | handled⟩ <;>
      simp only [hserved, Option.some.injEq] at hcandidate ⊢
    · have hworkspace : Pruned s₁ (workspaceServeGit input s₁ request route).1 := workspaceServeGit_pruned input
      rcases hserved' : workspaceServeGit input s₁ request route with ⟨s₂, _ | handled⟩ <;>
        simp only [hserved'] at hworkspace ⊢
      · refine ⟨(hcandidate.trans hworkspace).trans (rootServeGit_pruned input), fun operation hqueued => ?_⟩
        exact absurd hqueued (rootServeGit_queued input)
      · refine ⟨hcandidate.trans hworkspace, ?_⟩
        rintro operation rfl
        obtain ⟨hcredential, rfl, hrequest, hlease⟩ := workspaceServeGit_queued input hserved'
        obtain ⟨lease, hmem, -, hscope, -⟩ := Registry.authenticate_live hlease
        obtain ⟨_, _, _, hsub, rfl⟩ := hcandidate
        exact ⟨rfl, hcredential, hrequest, lease, hsub _ hmem, hscope⟩
    · refine ⟨hcandidate, ?_⟩
      rintro operation rfl
      exact absurd hserved candidateServeGit_queued

variable {input} in
/-- What is known of the leases and the queue stays where leases are pruned. -/
theorem Sound.pruned {s' : Server} (h : Sound input s) (hpruned : Pruned s s') : Sound input s' := by
  obtain ⟨_, _, _, hsub, rfl⟩ := hpruned
  exact ⟨fun entry hentry => h.registered entry (hsub entry hentry), h.unique, h.scopes, h.waiting, h.running⟩

theorem Sound.issue {s : Server} (h : Sound input s) {scope : WorkspaceWriteLeaseScope} {credential : Credential}
    (hfresh : ∀ entry ∈ s.issued, entry.1 ≠ credential.username)
    (hscope : scope.generationId = input.expectedGenerationId ∧ scope.repositoryId = root ∧
      workspaceIdGrammar scope.workspaceId = true) :
    Sound input (s.issue scope credential) := by
  have hmono : ∀ entry ∈ s.issued, entry ∈ (s.issue scope credential).issued := fun entry => List.mem_cons_of_mem _
  refine ⟨?_, ?_, ?_, fun operation hop => (h.waiting operation hop).mono hmono,
    fun operation stage hop => (h.running operation stage hop).mono hmono⟩
  · intro entry hentry
    rcases Registry.mem_issue hentry with hkept | ⟨husername, hscope'⟩
    · exact hmono _ (h.registered entry hkept)
    · rw [husername, hscope']
      exact List.mem_cons_self
  · intro entry hentry entry' hentry' husername
    rcases List.mem_cons.mp hentry with rfl | hentry <;> rcases List.mem_cons.mp hentry' with rfl | hentry'
    · rfl
    · exact absurd husername.symm (hfresh _ hentry')
    · exact absurd husername (hfresh _ hentry)
    · exact h.unique _ hentry _ hentry' husername
  · intro entry hentry
    rcases List.mem_cons.mp hentry with rfl | hentry
    · exact hscope
    · exact h.scopes _ hentry

theorem Sound.after (h : Sound input s) (request : Request) (available : Bool) :
    Sound input ((handle input s request).1.after available (handle input s request).2) := by
  obtain ⟨hpruned, hqueue⟩ := handle_spec input s request
  have h' := h.pruned hpruned
  cases hhandled : (handle input s request).2 with
  | refused => exact h'
  | reads reading => exact ⟨h'.registered, h'.unique, h'.scopes, h'.waiting, h'.running⟩
  | queued operation =>
    cases available with
    | false => exact h'
    | true =>
      obtain ⟨hroute, hcredential, rfl, lease, hheld, hscope⟩ := hqueue operation hhandled
      refine ⟨h'.registered, h'.unique, h'.scopes, ?_, h'.running⟩
      intro operation' hop
      rcases List.mem_append.mp hop with hold | hnew
      · exact h'.waiting operation' hold
      · rw [List.mem_singleton.mp hnew]
        obtain ⟨_, _, _, -, hserver⟩ := hpruned
        rw [hserver]
        exact ⟨hscope ▸ h.registered _ hheld, hcredential, hroute⟩

variable [Git]

theorem Sound.step {s s' : Server} (h : Sound input s) (hstep : Step input s s') : Sound input s' := by
  cases hstep with
  | issue _ hparse _ _ hfresh =>
    obtain ⟨-, hrepository, hworkspace⟩ := parseWorkspaceWriteLeaseRequest_ok hparse
    exact h.issue input hfresh ⟨rfl, hrepository, hworkspace⟩
  | request request available => exact h.after input request available
  | start hidle hwaiting =>
    refine ⟨h.registered, h.unique, h.scopes,
      fun operation hop => h.waiting operation (hwaiting ▸ List.mem_cons_of_mem _ hop), ?_⟩
    rintro operation stage ⟨⟩
    exact h.waiting _ (hwaiting ▸ List.mem_cons_self)
  | @serve operation hrunning _ _ _ =>
    obtain ⟨hregistered, _, _, _, _⟩ := h.pruned (.authenticate s operation.credential)
    refine ⟨hregistered, h.unique, h.scopes, h.waiting, ?_⟩
    rintro operation stage ⟨⟩
    exact h.running _ _ hrunning
  | @deny operation _ _ =>
    obtain ⟨hregistered, _, _, _, _⟩ := h.pruned (.authenticate s operation.credential)
    exact ⟨hregistered, h.unique, h.scopes, h.waiting, nofun⟩
  | @look reading _ => exact h.pruned (reading.pruned s)
  | @read reading _ =>
    obtain ⟨hregistered, hunique, hscopes, hwaiting, hrunning⟩ := h.pruned (reading.pruned s)
    exact ⟨hregistered, hunique, hscopes, hwaiting, hrunning⟩
  | settle => exact ⟨h.registered, h.unique, h.scopes, h.waiting, nofun⟩
  | closeLeases => exact ⟨nofun, h.unique, h.scopes, h.waiting, h.running⟩
  | clock | issueRead | issueCandidate | closeGate | prepare | git | own =>
    exact ⟨h.registered, h.unique, h.scopes, h.waiting, h.running⟩

theorem sound {s : Server} (hs : Reachable initial (Step input) s) : Sound input s := by
  refine hs.invariant (fun s hs => ?_) fun s s' h hstep => h.step input hstep
  obtain ⟨hleases, -, -, hissued, hwaiting, hrunning, -, -⟩ := hs
  refine ⟨?_, ?_, ?_, ?_, ?_⟩
  · rw [hleases]; nofun
  · rw [hissued]; nofun
  · rw [hissued]; nofun
  · rw [hwaiting]; nofun
  · rw [hrunning]; nofun

/-! ## The lease of a backend -/

/-- The operation's checks go on in `s`, and its request's credential is of a live lease for the root of its Project. -/
structure LiveLease (s : Server) (operation : Operation) (lease : StoredLease WorkspaceWriteLeaseScope) : Prop where
  running : s.running = some (operation, .checking)
  credential : operation.request.credential = some operation.credential
  held : (operation.credential.username, lease) ∈ s.writeLeases
  password : lease.password = operation.credential.password
  live : s.now < lease.expiresAt
  generation : lease.scope.generationId = input.expectedGenerationId
  project : lease.scope.projectId = operation.route.projectId
  repository : lease.scope.repositoryId = root ∧ operation.route.repositoryId = root
  workspace : workspaceIdGrammar lease.scope.workspaceId = true ∧ operation.lease.workspaceId = lease.scope.workspaceId
  route : nativeGitRoute operation.request = some operation.route
  hook : hooksPath input.storageRoot operation.route.projectId root ∈ s.hooks

/-- A backend was started by an operation whose lease was live when it ran. -/
def Granted (s : Server) (run : Run) : Prop :=
  ∃ s₀ operation lease, Reachable initial (Step input) s₀ ∧ ReflTransGen (Step input) s₀ s ∧ run = operation.run ∧
    LiveLease input s₀ operation lease

omit [Git] in
/-- The second look finds the lease of the first: a username is of one lease. -/
theorem Sound.liveLease (h : Sound input s) (hrunning : s.running = some (operation, .checking))
    (hhook : hooksPath input.storageRoot operation.route.projectId root ∈ s.hooks)
    (hcurrent : (currentLease input s operation).isSome) : ∃ lease, LiveLease input s operation lease := by
  obtain ⟨scope, hscope⟩ := Option.isSome_iff_exists.mp hcurrent
  obtain ⟨hauthenticated, hmatches⟩ := Option.filter_eq_some_iff.mp hscope
  obtain ⟨lease, hheld, hpassword, rfl, hlive⟩ := Registry.authenticate_live hauthenticated
  obtain ⟨hissued, hcredential, hroute⟩ := h.running _ _ hrunning
  have hsame : (operation.credential.username, lease.scope) = (operation.credential.username, operation.lease) :=
    h.unique _ (h.registered _ hheld) _ hissued rfl
  obtain ⟨hgeneration, hrepository, hworkspace⟩ := h.scopes _ (h.registered _ hheld)
  simp only [workspaceWriteLeaseMatchesRoute, Bool.and_eq_true, decide_eq_true_eq] at hmatches
  exact ⟨lease, hrunning, hcredential, hheld, hpassword, hlive, hgeneration, hmatches.1.2,
    ⟨hrepository, hmatches.2 ▸ hrepository⟩, ⟨hworkspace, (congrArg (·.2.workspaceId) hsame).symm⟩, hroute, hhook⟩

omit [Git] in
/-- The queue starts no backend and installs no hook. -/
theorem Server.after_frame (available : Bool) (handled : Handled) :
    (s.after available handled).runs = s.runs ∧ (s.after available handled).hooks = s.hooks := by
  cases handled <;> cases available <;> exact ⟨rfl, rfl⟩

/-- Which backends a step starts. -/
theorem runs_step {s' : Server} (hstep : Step input s s') {run : Run} (hrun : run ∈ s'.runs) :
    run ∈ s.runs ∨ (∃ reading : Reading, run = reading.run) ∨
      ∃ operation, run = operation.run ∧ s.running = some (operation, .checking) ∧
        hooksPath input.storageRoot operation.route.projectId root ∈ s.hooks ∧ (currentLease input s operation).isSome := by
  cases hstep with
  | serve hrunning _ hhook hcurrent =>
    rcases List.mem_cons.mp hrun with rfl | hold
    · exact .inr (.inr ⟨_, rfl, hrunning, hhook, hcurrent⟩)
    · exact .inl hold
  | @look reading _ =>
    obtain ⟨_, _, _, -, hserver⟩ := reading.pruned s
    rw [hserver] at hrun
    exact .inl hrun
  | @read reading _ =>
    rcases List.mem_cons.mp hrun with rfl | hold
    · exact .inr (.inl ⟨reading, rfl⟩)
    · exact .inl hold
  | request request available =>
    obtain ⟨⟨_, _, _, -, hserver⟩, -⟩ := handle_spec input s request
    rw [(Server.after_frame ..).1, hserver] at hrun
    exact .inl hrun
  | clock | issue | issueRead | issueCandidate | start | deny | settle | closeGate | closeLeases | prepare | git | own =>
    exact .inl hrun

/-- Whatever writes was granted. -/
theorem granted {s : Server} (hs : Reachable initial (Step input) s) :
    ∀ run ∈ s.runs, run.identity.role = .writer → Granted input s run := by
  induction hs with
  | init hs =>
    rw [hs.2.2.2.2.2.2.2]
    nofun
  | @step s s' hs hstep ih =>
    intro run hrun hrole
    rcases runs_step input hstep hrun with hold | ⟨reading, rfl⟩ | ⟨operation, rfl, hrunning, hhook, hcurrent⟩
    · obtain ⟨s₀, operation, lease, hs₀, htrace, hop, hlive⟩ := ih run hold hrole
      exact ⟨s₀, operation, lease, hs₀, htrace.tail hstep, hop, hlive⟩
    · cases hrole
    · obtain ⟨lease, hlive⟩ := (sound input hs).liveLease input hrunning hhook hcurrent
      exact ⟨s, operation, lease, hs, .single hstep, rfl, hlive⟩

/-- The hooks stay. -/
theorem hooks_step {s s' : Server} (hstep : Step input s s') {path : Text} (h : path ∈ s.hooks) : path ∈ s'.hooks := by
  cases hstep with
  | prepare => exact List.mem_cons_of_mem _ h
  | request request available =>
    obtain ⟨⟨_, _, _, -, hserver⟩, -⟩ := handle_spec input s request
    rwa [(Server.after_frame ..).2, hserver]
  | @look reading _ | @read reading _ =>
    obtain ⟨_, _, _, -, hserver⟩ := reading.pruned s
    simpa only [hserver] using h
  | clock | issue | issueRead | issueCandidate | start | serve | deny | settle | closeGate | closeLeases | git | own =>
      exact h

theorem hooks_trace {s s' : Server} (htrace : ReflTransGen (Step input) s s') {path : Text} (h : path ∈ s.hooks) :
    path ∈ s'.hooks := by
  induction htrace with
  | refl => exact h
  | tail _ hstep ih => exact hooks_step input hstep ih

/-! ## What a backend changes -/

/-- A change of a ref under a lease: to a proposal of the lease's workspace in its Project's root, and forward. -/
structure Confined (refs refs' : Refs) (lease : WorkspaceWriteLeaseScope) (repository ref : Text) : Prop where
  inRoot : repository = repositoryPath lease.projectId root
  proposal : allowed lease.workspaceId <+: ref
  others : ∀ workspaceId, workspaceIdGrammar workspaceId = true → workspaceId ≠ lease.workspaceId →
    ¬ allowed workspaceId <+: ref
  protectedRefs : ∀ protectedRef, Reviews.safeHeadRef protectedRef = true → ref ≠ protectedRef
  noDeletion : ∃ new, refs' repository ref = some new
  fastForward : ∀ old new, refs repository ref = some old → refs' repository ref = some new → Git.isAncestor old new

variable {repository : Text}

omit [Git] in
/-- The path of a push says its repository. -/
theorem repository_of_pathInfo {endpoint found : Text} (hendpoint : endpoint ∈ [infoRefs, uploadPack, receivePack])
    (h : repository ++ '/' :: endpoint = found ++ '/' :: receivePack) : found = repository := by
  -- the other endpoints end with other letters than `receive-pack`
  have hends : ∀ {front front' back back' : Text}, front ++ back = front' ++ back' → back.length = back'.length →
    back = back' :=
    fun happend hlength => (List.append_inj' happend hlength).2
  simp only [List.mem_cons, List.not_mem_nil, or_false] at hendpoint
  rcases hendpoint with rfl | rfl | rfl
  · have hsplit : found ++ '/' :: receivePack = (found ++ "/git-re".toList) ++ "ceive-pack".toList := by
      rw [List.append_assoc]; rfl
    exact absurd (hends (h.trans hsplit) (by decide)) (by decide)
  · have hsplit : found ++ '/' :: receivePack = (found ++ ['/']) ++ "git-receive-pack".toList := by
      rw [List.append_assoc]; rfl
    exact absurd (hends (h.trans hsplit) (by decide)) (by decide)
  · exact (List.append_inj' h rfl).1.symm

variable {ref : Text}

omit [Git] in
theorem ne_protectedRef {workspace protectedRef : Text} (h : allowed workspace <+: ref)
    (hprotected : Reviews.safeHeadRef protectedRef = true) : ref ≠ protectedRef := by
  rintro rfl
  obtain ⟨rest, rfl⟩ := h
  simp only [Reviews.safeHeadRef, Bool.and_eq_true] at hprotected
  have hout : Repositories.startsWith (allowed workspace ++ rest) proposals = false :=
    Bool.not_eq_true' _ ▸ hprotected.1.1.1.1.1.1.1.1.2
  have hin : Repositories.startsWith (allowed workspace ++ rest) proposals = true := by
    simp [Repositories.startsWith, allowed, List.append_assoc]
  rw [hin] at hout
  cases hout

/-- Whatever a backend changes is confined by the lease that it was granted for. -/
theorem confined {s₀ : Server} (htrace : ReflTransGen (Step input) s₀ s)
    {lease : StoredLease WorkspaceWriteLeaseScope} (hlive : LiveLease input s₀ operation lease) {refs' : Refs}
    (hchanges : Changes input s operation.run refs') (hchanged : s.refs repository ref ≠ refs' repository ref) :
    Confined s.refs refs' lease.scope repository ref := by
  obtain ⟨commands, hserves⟩ := hchanges
  obtain ⟨hpath, command, hcommand, rfl, hvalue⟩ := Git.updates hserves hchanged
  obtain ⟨endpoint, hendpoint, hroute⟩ := pathInfo_of_route hlive.route
  have hfound : repository = repositoryPath operation.route.projectId operation.route.repositoryId :=
    repository_of_pathInfo hendpoint (hroute.symm.trans hpath)
  have hhook := Git.preReceive hserves hchanged (config_hooksPath ..)
    (hooks_trace input htrace (hlive.repository.2 ▸ hlive.hook))
  have hpermits : permits lease.scope.workspaceId command = true := by
    have := preReceive_permits (Git.plain hserves) hhook hcommand
    rwa [← hlive.workspace.2]
  simp only [permits, Bool.and_eq_true, List.isPrefixOf_iff_prefix] at hpermits
  obtain ⟨⟨hproposal, -⟩, hnonzero⟩ := hpermits
  have hheads : "refs/heads/".toList <+: command.ref :=
    (show "refs/heads/".toList <+: allowed lease.scope.workspaceId from
      ⟨"proposals/".toList ++ lease.scope.workspaceId ++ ['/'], rfl⟩).trans hproposal
  refine ⟨?_, hproposal, ?_, fun protectedRef => ne_protectedRef hproposal, ?_, ?_⟩
  · rw [hfound, hlive.project, hlive.repository.2]
  · intro workspaceId hgrammar hne
    exact allowed_disjoint (notMem_workspaceId hlive.workspace.1) (notMem_workspaceId hgrammar) hne.symm hproposal
  · obtain ⟨c, hc, hdigit⟩ := List.any_eq_true.mp hnonzero
    refine ⟨command.new, hvalue.trans (if_neg fun hall => ?_)⟩
    exact of_decide_eq_true hdigit (of_decide_eq_true (List.all_eq_true.mp hall c hc))
  · intro old new hold hnew
    refine Git.fastForward hserves hold hnew ?_ (config_deny ..) hheads
    rintro rfl
    exact hchanged (hold.trans hnew.symm)

/-- No reader changes a ref. -/
theorem writer_of_changes {run : Run} {refs' : Refs} (hchanges : Changes input s run refs')
    (hchanged : s.refs repository ref ≠ refs' repository ref) : run.identity.role = .writer := by
  obtain ⟨commands, hserves⟩ := hchanges
  have hconfig := (config_receivepack ..).symm.trans (Git.receivepack hserves hchanged)
  by_contra hreader
  rw [if_neg hreader] at hconfig
  exact absurd (Option.some.inj hconfig) (by decide)

/--
In every state that any sequence of steps leads to, every backend that writes was started by an operation whose request
brought
the credential of a workspace's lease that was live when it ran, and whatever a Git request changes then is confined by
that lease.
-/
theorem writes_confined {s : Server} (hs : Reachable initial (Step input) s) :
    (∀ run ∈ s.runs, run.identity.role = .writer → Granted input s run) ∧
      ∀ run ∈ s.runs, ∀ refs', Changes input s run refs' → ∀ repository ref, s.refs repository ref ≠ refs' repository ref →
        ∃ s₀ operation lease, Reachable initial (Step input) s₀ ∧ ReflTransGen (Step input) s₀ s ∧ run = operation.run ∧
          LiveLease input s₀ operation lease ∧ Confined s.refs refs' lease.scope repository ref := by
  refine ⟨granted input hs, ?_⟩
  intro run hrun refs' hchanges repository ref hchanged
  obtain ⟨s₀, operation, lease, hs₀, htrace, rfl, hlive⟩ :=
    granted input hs run hrun (writer_of_changes input hchanges hchanged)
  exact ⟨s₀, operation, lease, hs₀, htrace, rfl, hlive, confined input htrace hlive hchanges hchanged⟩

end Confinement

/-! ## A push of a new proposal -/

namespace Sample

/-- A Git that creates the refs that a push names. -/
@[reducible]
def creatingGit : Git where
  serves hooks environment _ commands refs refs' :=
    (∀ command ∈ commands, command.Plain) ∧ ∃ repository, environment.pathInfo = repository ++ '/' :: receivePack ∧
      environment.config.lookup receivepackKey = some truth ∧
      (∀ path, environment.config.lookup hooksPathKey = some path → path ∈ hooks →
        preReceive environment.workspaceId (hookInput commands) = true) ∧
      ∀ repository' ref, refs repository' ref = refs' repository' ref ∨ refs repository' ref = none ∧
        repository' = repository ∧ ∃ command ∈ commands, command.ref = ref ∧
          refs' repository' ref = if command.new.all (· = '0') then none else some command.new
  isAncestor old new := old = new
  plain h := h.1
  updates := by
    rintro _ _ _ _ _ _ repository ref ⟨-, found, hpath, -, -, hrefs⟩ hchanged
    obtain ⟨-, rfl, command, hcommand, href, hvalue⟩ := (hrefs repository ref).resolve_left hchanged
    exact ⟨hpath, command, hcommand, href, hvalue⟩
  receivepack h _ := h.2.choose_spec.2.1
  preReceive h _ := h.2.choose_spec.2.2.1 _
  fastForward := by
    rintro _ _ _ _ _ _ repository ref old new ⟨-, found, -, -, -, hrefs⟩ hold hnew hne - -
    rcases hrefs repository ref with hsame | ⟨hnone, -⟩
    · exact absurd (Option.some.inj (hold.symm.trans (hsame.trans hnew))) hne
    · exact nomatch hold.symm.trans hnone

attribute [local instance] creatingGit

def input : Input := ⟨List.replicate 64 'a', "/srv".toList⟩

/-- The text of 32 zero bytes. -/
def workspaceId : Text := List.replicate 43 'A'

def credential : Credential := ⟨"workspace-write-a".toList, "secret".toList⟩

def leaseRequest : WorkspaceWriteLeaseRequest := ⟨input.expectedGenerationId, root, workspaceId⟩

def leaseValue : Value :=
  .object [("schemaVersion".toList, .number 1), ("generationId".toList, .string input.expectedGenerationId),
  ("repositoryId".toList, .string root), ("workspaceId".toList, .string workspaceId)]

def scope : WorkspaceWriteLeaseScope := leaseScope input "host".toList "app".toList leaseRequest

def lease : StoredLease WorkspaceWriteLeaseScope := ⟨scope, credential.password, 30000⟩

def request : Request where
  method := "POST".toList
  pathname := "/v1/projects/app/repositories/root.git/git-receive-pack".toList
  search := []
  searchParams := []
  contentLength := none
  contentType := some "application/x-git-receive-pack-request".toList
  gitProtocol := none
  remoteAddress := none
  credential := some credential
  body := []

def operation : Operation := ⟨credential, scope, route "app".toList root receivePack [] .write, request⟩

def empty : Server where
  now := 0
  isOpen := true
  writeLeases := []
  readLeases := []
  candidates := []
  issued := []
  waiting := []
  running := none
  reading := []
  runs := []
  hooks := []
  refs := fun _ _ => none

def prepared : Server := { empty with hooks := [hooksPath input.storageRoot "app".toList root] }

def leased : Server :=
  { prepared with writeLeases := [(credential.username, lease)], issued := [(credential.username, scope)] }

def serving : Server := { leased with running := some (operation, .serving), runs := [operation.run] }

theorem handled : (handle input leased request).2 = .queued operation := by decide +kernel

theorem serving_reachable : Reachable initial (Step input) serving := by
  have hempty : Reachable initial (Step input) empty := .init ⟨rfl, rfl, rfl, rfl, rfl, rfl, rfl, rfl⟩
  have hprepared : Reachable initial (Step input) prepared := hempty.step (.prepare "app".toList)
  have hparse : parseWorkspaceWriteLeaseRequest leaseValue = .ok leaseRequest := by decide +kernel
  have hleased : Reachable initial (Step input) leased :=
    hprepared.step (@Step.issue input _ prepared leaseValue leaseRequest "host".toList "app".toList credential rfl hparse rfl
      (by decide +kernel) nofun)
  have hwaiting : Reachable initial (Step input) { leased with waiting := [operation] } := by
    have hstep := hleased.step (.request request true)
    rw [handled] at hstep
    exact hstep
  have hchecking : Reachable initial (Step input) { leased with running := some (operation, .checking) } :=
    hwaiting.step (.start rfl rfl)
  exact hchecking.step (@Step.serve input _ _ operation rfl rfl List.mem_cons_self (by decide +kernel))

/-- A push that creates a proposal of the lease's workspace. -/
def command : Command := ⟨List.replicate 40 '0', List.replicate 40 'a', allowed workspaceId ++ "fix".toList⟩

def repository : Text := repositoryPath "app".toList root

def pushed : Refs := fun repository' ref =>
  if repository' = repository ∧ ref = command.ref then some command.new else none

theorem pushed_changes : Changes input serving operation.run pushed := by
  have hplain : command.Plain := by constructor <;> decide +kernel
  have hhook : preReceive (some workspaceId) (hookInput [command]) = true := by decide +kernel
  refine ⟨[command], by simpa using hplain, repository, by decide +kernel, config_receivepack .., fun _ _ _ => hhook, ?_⟩
  intro repository' ref
  by_cases hnew : repository' = repository ∧ ref = command.ref
  · refine .inr ⟨rfl, hnew.1, command, List.mem_singleton_self _, hnew.2.symm, ?_⟩
    rw [pushed, if_pos hnew, if_neg (by decide +kernel)]
  · exact .inl (if_neg hnew).symm

theorem pushed_confined :
    Granted input serving operation.run ∧ ∃ s₀ operation' lease', Reachable initial (Step input) s₀ ∧
      ReflTransGen (Step input) s₀ serving ∧ operation.run = operation'.run ∧ LiveLease input s₀ operation' lease' ∧
      Confined serving.refs pushed lease'.scope repository command.ref := by
  have hchanged : serving.refs repository command.ref ≠ pushed repository command.ref := by
    rw [pushed, if_pos ⟨rfl, rfl⟩]
    nofun
  exact ⟨(writes_confined input serving_reachable).1 _ List.mem_cons_self rfl,
    (writes_confined input serving_reachable).2 _ List.mem_cons_self _ pushed_changes _ _ hchanged⟩

end Sample

end Dim.Writes
