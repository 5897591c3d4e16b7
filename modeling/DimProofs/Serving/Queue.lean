/-
The serial queue of native Git: operations wait in the order in which they were handed to `run`, one runs at a time, and the
next starts when it settled. A workspace's Git request verifies its lease and then serves the backend; its client may leave
while it still waits, and its response may wait for the socket until earlier requests of the connection are answered. Other
operations settle without their client.
-/
import DimProofs.Serving.Backend

namespace Dim.Serving

/-- A Git request: where its response stands with the socket, whether that is closed, and whether `afterSuccessfulWrite`
is given for it. -/
structure GitRequest where
  socket : Socket
  (responseClosed receivePack : Bool)
deriving DecidableEq

/-- What is handed to `run`. -/
inductive Operation where
  | plain
  | git (request : GitRequest)
deriving DecidableEq

/-- The operation that runs. -/
inductive Running where
  | plain
  | verifying (request : GitRequest)
  | serving (backend : Backend)
deriving DecidableEq

structure Server where
  /-- `available()`. -/
  available : Bool
  waiting : List Operation
  running : Option Running
deriving DecidableEq

inductive Event where
  /-- `run(operation)`. -/
  | submit (operation : Operation)
  | waitingClosed (index : Nat)
  | waitingAssigned (index : Nat)
  /-- The next operation; `operations.acquire()` may refuse it. -/
  | start (admitted : Bool)
  | plainSettled
  | verifyingClosed
  | verifyingAssigned
  /-- The checks before the backend; they may refuse the request. -/
  | verified (authorized : Bool)
  | backend (event : BackendEvent)
  | stopAdmission

def initial : Server := ⟨true, [], none⟩

/-- The connection is closed: only the response that has its socket emits that. -/
def GitRequest.close (request : GitRequest) : GitRequest :=
  { request with socket := request.socket.lose, responseClosed := request.responseClosed || request.socket = .held }

/-- The earlier requests of the connection are answered. -/
def GitRequest.assign (request : GitRequest) : GitRequest := { request with socket := request.socket.assign }

def Operation.onRequest (f : GitRequest → GitRequest) : Operation → Operation
  | .plain => .plain
  | .git request => .git (f request)

def Operation.run : Operation → Running
  | .plain => .plain
  | .git request => .verifying request

/-- `serveGitBackend`, at the end of the checks. -/
def GitRequest.serve (request : GitRequest) : Backend :=
  serveGitBackend (.untouched request.socket request.responseClosed) request.receivePack

/-- A settled operation leaves the queue. -/
def settle (b : Backend) : Option Running := if b.stage = .settled then none else some (.serving b)

def step (s : Server) : Event → Option Server
  | .submit operation => some (if s.available then { s with waiting := s.waiting ++ [operation] } else s)
  | .waitingClosed index => some { s with waiting := s.waiting.modify index (.onRequest .close) }
  | .waitingAssigned index => some { s with waiting := s.waiting.modify index (.onRequest .assign) }
  | .start admitted =>
    match s.running, s.waiting with
    | none, operation :: rest => some { s with waiting := rest, running := if admitted then some operation.run else none }
    | _, _ => none
  | .plainSettled =>
    match s.running with
    | some .plain => some { s with running := none }
    | _ => none
  | .verifyingClosed =>
    match s.running with
    | some (.verifying request) => some { s with running := some (.verifying request.close) }
    | _ => none
  | .verifyingAssigned =>
    match s.running with
    | some (.verifying request) => some { s with running := some (.verifying request.assign) }
    | _ => none
  | .verified authorized =>
    match s.running with
    | some (.verifying request) => some { s with running := if authorized then some (.serving request.serve) else none }
    | _ => none
  | .backend event =>
    match s.running with
    | some (.serving b) => if b.emits event then some { s with running := settle (b.handle event) } else none
    | _ => none
  | .stopAdmission => some { s with available := false }

/-- The events that come without any client. -/
def due (s : Server) : List Event :=
  match s.running, s.waiting with
  | none, [] => []
  | none, _ :: _ => [.start true]
  | some .plain, _ => [.plainSettled]
  | some (.verifying _), _ => [.verified true]
  | some (.serving b), _ => b.due.map .backend

/-- No operation is pending: `waitForIdle()` is resolved. -/
def Server.idle (s : Server) : Prop := s.waiting = [] ∧ s.running = none

instance (s : Server) : Decidable s.idle := inferInstanceAs (Decidable (_ ∧ _))

/-- The backend is started for a response that has the socket, where no earlier request of its connection is unanswered,
and is not closed. -/
def timely (s : Server) (event : Event) : Bool :=
  match s.running, event with
  | some (.verifying request), .verified true => request.socket = .held && !request.responseClosed
  | _, _ => true

/-- The steps of the queue. -/
def Step (s s' : Server) : Prop := ∃ event, step s event = some s'

/-- The steps that start a backend only for a response that emits its events. -/
def TimelyStep (s s' : Server) : Prop := ∃ event, timely s event = true ∧ step s event = some s'

/-- The events one after another, as long as each is admissible. -/
def runEvents (admissible : Server → Event → Bool) (s : Server) : List Event → Option Server
  | [] => some s
  | event :: rest => if admissible s event then (step s event).bind fun s' => runEvents admissible s' rest else none

end Dim.Serving
