/-
The queue never wedges, unless a backend is started for a response that is closed already or waits for the socket of its
connection: then no event of the response may be left, and the promise waits for one for ever.
-/
import DimProofs.Lib.Run
import DimProofs.Serving.Queue

namespace Dim.Serving

open Transition (Reachable)

/-! ## One backend -/

namespace Backend

/-- After the timer the child is killed and the response is over; an event of the response was seen by the listeners; and
the promise waits only while none was. -/
structure Live (b : Backend) : Prop where
  held : b.response.socket = .held
  timed : b.timedOut = true → b.killed = true ∧ b.response.isOver = true
  seen : b.response.finished = true ∨ b.response.closed = true → b.responseCompleted = true
  waits : b.stage = .awaitingResponse → b.responseCompleted = false

/-- A handler that emits no event of the response, and neither fires the timer nor moves the promise. -/
structure Frame (b b' : Backend) : Prop where
  socket : b'.response.socket = b.response.socket
  timedOut : b'.timedOut = b.timedOut
  killed : b.killed = true → b'.killed = true
  isOver : b.response.isOver = true → b'.response.isOver = true
  finished : b'.response.finished = b.response.finished
  closed : b'.response.closed = b.response.closed
  responseCompleted : b'.responseCompleted = b.responseCompleted
  stage : b'.stage = b.stage

namespace Frame

variable {b b' b'' : Backend}

theorem refl (b : Backend) : Frame b b := ⟨rfl, rfl, id, id, rfl, rfl, rfl, rfl⟩

theorem trans (h : Frame b b') (h' : Frame b' b'') : Frame b b'' where
  socket := h'.socket.trans h.socket
  timedOut := h'.timedOut.trans h.timedOut
  killed := h'.killed ∘ h.killed
  isOver := h'.isOver ∘ h.isOver
  finished := h'.finished.trans h.finished
  closed := h'.closed.trans h.closed
  responseCompleted := h'.responseCompleted.trans h.responseCompleted
  stage := h'.stage.trans h.stage

theorem live (h : Frame b b') (hb : b.Live) : b'.Live where
  held := h.socket.trans hb.held
  timed ht := by
    obtain ⟨hkilled, hover⟩ := hb.timed (h.timedOut ▸ ht)
    exact ⟨h.killed hkilled, h.isOver hover⟩
  seen hs := by
    rw [h.responseCompleted]
    rw [h.finished, h.closed] at hs
    exact hb.seen hs
  waits hw := by
    rw [h.responseCompleted]
    exact hb.waits (h.stage ▸ hw)

end Frame

section Handlers

variable {b : Backend}

theorem frame_kill : Frame b b.kill := ⟨rfl, rfl, fun _ => rfl, id, rfl, rfl, rfl, rfl⟩

theorem frame_fail : Frame b b.fail := by
  unfold fail
  split
  · exact frame_kill
  · split
    · exact ⟨rfl, rfl, fun _ => rfl, fun _ => rfl, rfl, rfl, rfl, rfl⟩
    · exact ⟨rfl, rfl, fun _ => rfl, fun _ => Bool.or_true _, rfl, rfl, rfl, rfl⟩

/-- `fail` kills the child, and leaves the response over. -/
theorem fail_over : b.fail.killed = true ∧ b.fail.response.isOver = true := by
  unfold fail
  split
  · next hover => exact ⟨rfl, hover⟩
  · split
    · exact ⟨rfl, rfl⟩
    · exact ⟨rfl, Bool.or_true _⟩

theorem frame_stdinReady : Frame b b.onStdinReady := ⟨rfl, rfl, id, id, rfl, rfl, rfl, rfl⟩

theorem frame_requestEnd : Frame b b.onRequestEnd := ⟨rfl, rfl, id, id, rfl, rfl, rfl, rfl⟩

theorem frame_responseDrain : Frame b b.onResponseDrain := ⟨rfl, rfl, id, id, rfl, rfl, rfl, rfl⟩

theorem frame_stderrData (size : Nat) : Frame b (b.onStderrData size) := ⟨rfl, rfl, id, id, rfl, rfl, rfl, rfl⟩

theorem frame_requestData (size : Nat) (accepted : Bool) : Frame b (b.onRequestData size accepted) := by
  have hcount : Frame b { b with requestBytes := b.requestBytes + size } := ⟨rfl, rfl, id, id, rfl, rfl, rfl, rfl⟩
  unfold onRequestData
  dsimp only
  split
  · exact hcount.trans frame_fail
  · split
    · exact ⟨rfl, rfl, id, id, rfl, rfl, rfl, rfl⟩
    · exact hcount

theorem frame_stdoutData (chunk : Bytes) (accepted : Bool) : Frame b (b.onStdoutData chunk accepted) := by
  have hcount : Frame b { b with responseBytes := b.responseBytes + chunk.length } := ⟨rfl, rfl, id, id, rfl, rfl, rfl, rfl⟩
  unfold onStdoutData
  split
  · exact .refl b
  dsimp only
  split
  · have hfail := hcount.trans frame_fail
    split
    · exact ⟨hfail.socket, hfail.timedOut, hfail.killed, fun _ => Bool.or_true _, hfail.finished, hfail.closed,
        hfail.responseCompleted, hfail.stage⟩
    · exact hfail
  split
  · exact ⟨rfl, rfl, id, id, rfl, rfl, rfl, rfl⟩
  split
  · have hbuffer : Frame b { b with
        responseBytes := b.responseBytes + chunk.length, headerBuffer := b.headerBuffer ++ chunk } := ⟨rfl, rfl, id, id,
          rfl, rfl, rfl, rfl⟩
    exact hbuffer.trans frame_fail
  split
  · exact ⟨rfl, rfl, id, id, rfl, rfl, rfl, rfl⟩
  · exact ⟨rfl, rfl, id, id, rfl, rfl, rfl, rfl⟩

theorem frame_stdoutEnd : Frame b b.onStdoutEnd := by
  unfold onStdoutEnd
  dsimp only
  split
  · exact ⟨rfl, rfl, id, fun _ => rfl, rfl, rfl, rfl, rfl⟩
  · exact ⟨rfl, rfl, id, id, rfl, rfl, rfl, rfl⟩

theorem frame_childError : Frame b b.onChildError := by
  unfold onChildError
  split
  · exact ⟨rfl, rfl, id, fun _ => rfl, rfl, rfl, rfl, rfl⟩
  · exact ⟨rfl, rfl, id, fun _ => Bool.or_true _, rfl, rfl, rfl, rfl⟩

theorem live_awaitResponse (h : b.Live) : b.awaitResponse.Live where
  held := h.held
  timed := h.timed
  seen := h.seen
  waits hw := by
    cases hcompleted : b.responseCompleted with
    | false => exact hcompleted
    | true => simp [awaitResponse, hcompleted] at hw

theorem live_timeout (h : b.Live) : b.onTimeout.Live := by
  have hframe : Frame { b with timedOut := true } b.onTimeout := frame_fail
  constructor
  · exact hframe.socket.trans h.held
  · exact fun _ => fail_over
  · intro hs
    rw [hframe.responseCompleted]
    rw [hframe.finished, hframe.closed] at hs
    exact h.seen hs
  · intro hw
    rw [hframe.responseCompleted]
    rw [hframe.stage] at hw
    exact h.waits hw

theorem complete_stage : b.complete.stage ≠ .awaitingResponse := by
  unfold complete
  dsimp only
  split
  · nofun
  · assumption

theorem live_responseFinish (h : b.Live) : b.onResponseFinish.Live where
  held := h.held
  timed := h.timed
  seen _ := rfl
  waits hw := absurd hw complete_stage

theorem live_responseClose (h : b.Live) : b.onResponseClose.Live := by
  refine ⟨h.held, fun ht => ⟨?_, Bool.or_true _⟩, fun _ => rfl, fun hw => absurd hw complete_stage⟩
  unfold onResponseClose at ht ⊢
  split
  · rfl
  · next hkeep =>
    rw [if_neg hkeep] at ht
    exact (h.timed ht).1

theorem live_withoutHeaders (h : b.Live) : b.withoutHeaders.Live := by
  unfold withoutHeaders
  split
  · exact ⟨h.held, fun ht => ⟨(h.timed ht).1, rfl⟩, h.seen, h.waits⟩
  · exact h

theorem live_childClose (success : Bool) (h : b.Live) : (b.onChildClose success).Live := by
  unfold onChildClose
  split
  · exact ⟨(live_withoutHeaders h).held, (live_withoutHeaders h).timed, (live_withoutHeaders h).seen, nofun⟩
  · exact live_awaitResponse (live_withoutHeaders h)

theorem live_reconciled (success : Bool) (h : b.Live) : (b.onReconciled success).Live := by
  unfold onReconciled
  split
  · split
    · exact live_awaitResponse h
    · exact live_awaitResponse ⟨h.held, fun ht => ⟨(h.timed ht).1, rfl⟩, h.seen, h.waits⟩
  · split
    · exact live_awaitResponse h
    · exact live_awaitResponse ⟨h.held, fun ht => ⟨(h.timed ht).1, Bool.or_true _⟩, h.seen, h.waits⟩

/-- A response that has the socket keeps it. -/
theorem frame_connection {f : Socket → Socket} (h : f b.response.socket = b.response.socket) :
    Frame b { b with response := { b.response with socket := f b.response.socket } } :=
  ⟨h, rfl, id, id, rfl, rfl, rfl, rfl⟩

/-- Every event keeps the promise live. -/
theorem live_handle (h : b.Live) (event : BackendEvent) : (b.handle event).Live := by
  cases event with
  | timeout => exact live_timeout h
  | requestData size accepted => exact (frame_requestData size accepted).live h
  | stdinReady => exact frame_stdinReady.live h
  | requestEnd => exact frame_requestEnd.live h
  | requestAborted => exact frame_kill.live h
  | responseFinish => exact live_responseFinish h
  | responseClose => exact live_responseClose h
  | responseDrain => exact frame_responseDrain.live h
  | socketAssigned => exact (frame_connection (f := .assign) (by rw [h.held]; rfl)).live h
  | connectionLost => exact (frame_connection (f := .lose) (by rw [h.held]; rfl)).live h
  | stdoutData chunk accepted => exact (frame_stdoutData chunk accepted).live h
  | stdoutEnd => exact frame_stdoutEnd.live h
  | stderrData size => exact (frame_stderrData size).live h
  | childError => exact frame_childError.live h
  | childClose success => exact live_childClose success h
  | reconciled success => exact live_reconciled success h

/-- A promise that is live and not settled has an event that is due. -/
theorem live_due (h : b.Live) (hstage : b.stage ≠ .settled) : b.due ≠ [] := by
  intro hdue
  simp only [due, List.append_eq_nil_iff] at hdue
  obtain ⟨⟨⟨⟨htimer, hchild⟩, hreconciling⟩, hfinish⟩, hclose⟩ := hdue
  have htimed : b.timedOut = true := by
    cases ht : b.timedOut with
    | true => rfl
    | false => simp [ht] at htimer
  obtain ⟨hkilled, hover⟩ := h.timed htimed
  cases hs : b.stage with
  | running =>
    -- the child is killed, and closes
    rw [hkilled, hs] at hchild
    cases hended : b.stdoutEnded <;> simp [hended] at hchild
  | reconciling => simp [hs] at hreconciling
  | settled => exact hstage hs
  | awaitingResponse =>
    -- no event of the response was seen, so none was emitted
    have hunseen := h.waits hs
    have hfinished : b.response.finished = false := by
      by_contra hne
      rw [h.seen (.inl (by simpa using hne))] at hunseen
      cases hunseen
    have hclosed : b.response.closed = false := by
      by_contra hne
      rw [h.seen (.inr (by simpa using hne))] at hunseen
      cases hunseen
    have hemits : b.response.emits = true := by simp [Response.emits, h.held, hclosed]
    rw [Response.isOver, Bool.or_eq_true] at hover
    rcases hover with hended | hdestroyed
    · simp [hemits, hended, hfinished] at hfinish
    · simp [hemits, hdestroyed] at hclose

theorem live_start (receivePack : Bool) : (serveGitBackend (.untouched .held false) receivePack).Live where
  held := rfl
  timed := nofun
  seen hs := by
    rcases hs with hs | hs
    · cases hs
    · cases hs
  waits := nofun

/-- The response emits no event any more, and no listener saw one. -/
def Wedged (b : Backend) : Prop := b.response.silent = true ∧ b.responseCompleted = false ∧ b.stage ≠ .settled

theorem Frame.wedged {b' : Backend} (h : Frame b b') (hb : b.Wedged) : b'.Wedged := by
  refine ⟨?_, h.responseCompleted.trans hb.2.1, h.stage ▸ hb.2.2⟩
  rw [Response.silent, h.socket, h.closed]
  exact hb.1

theorem Wedged.not_emits (h : b.Wedged) : b.response.emits = false := by
  obtain hlost | hclosed := Bool.or_eq_true_iff.mp h.1
  · simp [Response.emits, of_decide_eq_true hlost]
  · simp [Response.emits, hclosed]

/-- A response that is silent waits for no socket, or is closed. -/
theorem Wedged.connection {f : Socket → Socket} (hf : f .lost = .lost) (h : b.Wedged) :
    { b with response := { b.response with socket := f b.response.socket } }.Wedged := by
  refine ⟨?_, h.2⟩
  obtain hlost | hclosed := Bool.or_eq_true_iff.mp h.1
  · simp [Response.silent, of_decide_eq_true hlost, hf]
  · simp [Response.silent, hclosed]

theorem wedged_awaitResponse (h : b.Wedged) : b.awaitResponse.Wedged := by
  refine ⟨h.1, h.2.1, ?_⟩
  rw [awaitResponse, h.2.1]
  nofun

/-- No event settles the promise once the response is silent and no listener saw an event of it. -/
theorem wedged_handle (h : b.Wedged) {event : BackendEvent} (hemits : b.emits event = true) : (b.handle event).Wedged := by
  have htimeout : Frame { b with timedOut := true } b.onTimeout := frame_fail
  have hheaders : b.withoutHeaders.Wedged := by
    unfold withoutHeaders
    split
    · exact h
    · exact h
  cases event with
  | timeout => exact htimeout.wedged h
  | requestData size accepted => exact (frame_requestData size accepted).wedged h
  | stdinReady => exact frame_stdinReady.wedged h
  | requestEnd => exact frame_requestEnd.wedged h
  | requestAborted => exact frame_kill.wedged h
  | responseFinish => simp [emits, h.not_emits] at hemits
  | responseClose => simp [emits, h.not_emits] at hemits
  | responseDrain => exact frame_responseDrain.wedged h
  | socketAssigned => exact h.connection (f := .assign) rfl
  | connectionLost => exact h.connection (f := .lose) rfl
  | stdoutData chunk accepted => exact (frame_stdoutData chunk accepted).wedged h
  | stdoutEnd => exact frame_stdoutEnd.wedged h
  | stderrData size => exact (frame_stderrData size).wedged h
  | childError => exact frame_childError.wedged h
  | childClose success =>
    show (b.onChildClose success).Wedged
    unfold onChildClose
    split
    · exact ⟨hheaders.1, hheaders.2.1, nofun⟩
    · exact wedged_awaitResponse hheaders
  | reconciled success =>
    show (b.onReconciled success).Wedged
    unfold onReconciled
    split <;> split
    · exact wedged_awaitResponse h
    · exact wedged_awaitResponse ⟨h.1, h.2.1, h.2.2⟩
    · exact wedged_awaitResponse h
    · exact wedged_awaitResponse ⟨h.1, h.2.1, h.2.2⟩

end Handlers

end Backend

/-! ## The queue -/

/-- The backend that runs is live, and its promise has not settled. -/
def LiveServer (s : Server) : Prop := ∀ b, s.running = some (.serving b) → b.Live ∧ b.stage ≠ .settled

/-- A server where no backend runs is live. -/
theorem liveServer_of {s : Server} (h : ∀ b, s.running ≠ some (.serving b)) : LiveServer s := fun b hb => absurd hb (h b)

theorem liveServer_idle {s : Server} (h : s.running = none) : LiveServer s := by
  refine liveServer_of fun b hb => ?_
  rw [h] at hb
  cases hb

theorem settle_some {b b' : Backend} (h : settle b = some (.serving b')) : b' = b ∧ b.stage ≠ .settled := by
  unfold settle at h
  split at h
  · cases h
  · next hstage =>
    cases h
    exact ⟨rfl, hstage⟩

/-- A step that starts a backend only for a response that emits its events keeps what runs live. -/
theorem liveServer_step {s s' : Server} {event : Event} (h : LiveServer s) (htimely : timely s event = true)
    (hstep : step s event = some s') : LiveServer s' := by
  cases event with
  | submit operation =>
    rw [← Option.some.inj hstep]
    split
    · exact h
    · exact h
  | waitingClosed index | waitingAssigned index =>
    rw [← Option.some.inj hstep]
    exact h
  | stopAdmission =>
    rw [← Option.some.inj hstep]
    exact h
  | start admitted =>
    simp only [step] at hstep
    split at hstep
    · next operation rest hrunning hwaiting =>
      rw [← Option.some.inj hstep]
      refine liveServer_of fun b hb => ?_
      cases admitted with
      | true =>
        cases operation with
        | plain => cases hb
        | git request => cases hb
      | false => cases hb
    · cases hstep
  | plainSettled =>
    simp only [step] at hstep
    split at hstep
    · rw [← Option.some.inj hstep]
      exact liveServer_idle rfl
    · cases hstep
  | verifyingClosed | verifyingAssigned =>
    simp only [step] at hstep
    split at hstep
    · rw [← Option.some.inj hstep]
      refine liveServer_of fun b hb => ?_
      cases hb
    · cases hstep
  | verified authorized =>
    simp only [step] at hstep
    split at hstep
    · next request hrunning =>
      rw [← Option.some.inj hstep]
      cases authorized with
      | true =>
        intro b hb
        obtain ⟨hheld, hopen⟩ : request.socket = .held ∧ request.responseClosed = false := by
          simpa [timely, hrunning] using htimely
        have hserve : request.serve = b := Running.serving.inj (Option.some.inj hb)
        rw [← hserve, GitRequest.serve, hheld, hopen]
        exact ⟨Backend.live_start request.receivePack, nofun⟩
      | false => exact liveServer_idle rfl
    · cases hstep
  | backend event =>
    simp only [step] at hstep
    split at hstep
    · next b₀ hrunning =>
      split at hstep
      · rw [← Option.some.inj hstep]
        intro b hb
        obtain ⟨rfl, hstage⟩ := settle_some hb
        exact ⟨Backend.live_handle (h b₀ hrunning).1 event, hstage⟩
      · cases hstep
    · cases hstep

/-- Where every backend is started for a response that has the socket and is not closed, the queue is idle in every
state that is reached and in
which nothing is due: every operation settled, and the close of the server finds none. -/
theorem queue_never_wedges {s : Server} (h : Reachable (· = initial) TimelyStep s) (hdue : due s = []) : s.idle := by
  have hlive : LiveServer s := by
    refine h.invariant (fun s hs => ?_) fun s s' hs hstep => ?_
    · subst hs
      exact liveServer_idle rfl
    · obtain ⟨event, htimely, hstep⟩ := hstep
      exact liveServer_step hs htimely hstep
  unfold due at hdue
  split at hdue
  · next hrunning hwaiting => exact ⟨hwaiting, hrunning⟩
  · cases hdue
  · cases hdue
  · cases hdue
  · next b hrunning =>
    obtain ⟨hb, hstage⟩ := hlive b hrunning
    exact absurd (List.map_eq_nil_iff.mp hdue) (Backend.live_due hb hstage)

/-- A backend whose response is silent before its listeners saw an event runs for ever, and the queue behind it. -/
theorem wedged_forever {s s' : Server} {b : Backend} (hrunning : s.running = some (.serving b)) (hwedged : b.Wedged)
    (h : Relation.ReflTransGen Step s s') : ∃ b', s'.running = some (.serving b') ∧ b'.Wedged := by
  induction h with
  | refl => exact ⟨b, hrunning, hwedged⟩
  | tail _ hstep ih =>
    obtain ⟨b', hrunning', hwedged'⟩ := ih
    obtain ⟨event, hstep⟩ := hstep
    cases event with
    | submit operation =>
      cases hstep
      split <;> exact ⟨b', hrunning', hwedged'⟩
    | waitingClosed index | waitingAssigned index =>
      cases hstep
      exact ⟨b', hrunning', hwedged'⟩
    | stopAdmission =>
      cases hstep
      exact ⟨b', hrunning', hwedged'⟩
    | backend event =>
      simp only [step, hrunning'] at hstep
      split at hstep
      · next hemits =>
        cases hstep
        have hafter := Backend.wedged_handle hwedged' hemits
        exact ⟨_, if_neg hafter.2.2, hafter⟩
      · cases hstep
    | _ => simp [step, hrunning'] at hstep

/-- Events that run lead to a state that is reached. -/
theorem reachable_runEvents {admissible : Server → Event → Bool} {R : Server → Server → Prop}
    (hR : ∀ s s' event, admissible s event = true → step s event = some s' → R s s') :
    ∀ {events : List Event} {s s' : Server}, Reachable (· = initial) R s → runEvents admissible s events = some s' →
      Reachable (· = initial) R s'
  | [], _, _, hs, h => Option.some.inj h ▸ hs
  | event :: rest, s, s', hs, h => by
    unfold runEvents at h
    split at h
    · next hadmissible =>
      obtain ⟨middle, hstep, hrest⟩ := Option.bind_eq_some_iff.mp h
      exact reachable_runEvents hR (.step hs (hR _ _ event hadmissible hstep)) hrest
    · cases h

namespace Sample

/-! ## A client that leaves while its request waits -/

/-- A push is served, with an operation behind it. -/
def served : List Event :=
  [.submit (.git ⟨.queued, false, true⟩), .submit .plain, .waitingAssigned 0, .start true, .verified true,
    .backend (.requestData 100 true), .backend .requestEnd, .backend (.stdoutData [13, 10, 13, 10] true),
      .backend .stdoutEnd,
    .backend (.childClose true), .backend (.reconciled true), .backend .responseFinish, .start true, .plainSettled,
      .stopAdmission]

/-- The push and the operation behind it settle, and the close of the server finds an idle queue. -/
theorem served_idle : runEvents timely initial served = some ⟨false, [], none⟩ ∧ Server.idle ⟨false, [], none⟩ := by
  have hrun : runEvents timely initial served = some ⟨false, [], none⟩ := by decide +kernel
  exact ⟨hrun, queue_never_wedges
    (reachable_runEvents (fun _ _ event htimely hstep => ⟨event, htimely, hstep⟩) (.init rfl) hrun) rfl⟩

/-- The child of a push is killed by the timer and closes. -/
def killed : List Event :=
  [.start true, .verified true, .backend .timeout, .backend .stdoutEnd, .backend (.childClose false)]

/-- The client of a push leaves before its turn, and nothing is left to wait for. -/
def abandoned : List Event := [.submit (.git ⟨.held, false, true⟩), .submit .plain, .waitingClosed 0] ++ killed

/-- A push behind an unanswered request of its connection gets its turn; the connection is closed, and no response but the
first says so. -/
def pipelined : List Event :=
  [.submit (.git ⟨.queued, false, true⟩), .submit .plain] ++ killed ++ [.backend .connectionLost]

/-- The events leave an operation that is pending for ever, and with it those behind it. -/
def Wedges (events : List Event) : Prop := ∃ s, Reachable (· = initial) Step s ∧
  runEvents (fun _ _ => true) initial events = some s ∧ due s = [] ∧ ∀ s', Relation.ReflTransGen Step s s' → ¬ s'.idle

theorem wedges_of_run {events : List Event} {waiting : List Operation} {b : Backend} (hwedged : b.Wedged)
    (hrun : runEvents (fun _ _ => true) initial events = some ⟨true, waiting, some (.serving b)⟩) (hdue : b.due = []) :
    Wedges events := by
  refine ⟨_, reachable_runEvents (fun _ _ event _ hstep => ⟨event, hstep⟩) (.init rfl) hrun, hrun, ?_, fun s' hs hidle => ?_⟩
  · simp [due, hdue]
  · obtain ⟨b', hb, -⟩ := wedged_forever rfl hwedged hs
    rw [hidle.2] at hb
    cases hb

/-- The backend of a push whose child is killed, with no headers sent before. -/
def wedged (response : Response) : Backend :=
  { serveGitBackend response true with killed := true, stdoutEnded := true, timedOut := true, stage := .awaitingResponse }

theorem abandoned_push_wedges : Wedges abandoned ∧ Wedges pipelined := by
  have habandoned : runEvents (fun _ _ => true) initial abandoned =
      some ⟨true, [.plain], some (.serving (wedged ⟨.held, true, true, true, false, true⟩))⟩ := by decide +kernel
  have hpipelined : runEvents (fun _ _ => true) initial pipelined =
      some ⟨true, [.plain], some (.serving (wedged ⟨.lost, true, true, false, false, false⟩))⟩ := by decide +kernel
  exact ⟨wedges_of_run ⟨rfl, rfl, by decide⟩ habandoned (by decide +kernel),
    wedges_of_run ⟨rfl, rfl, by decide⟩ hpipelined (by decide +kernel)⟩

end Sample

end Dim.Serving
