/-
One Git request that is served by `git http-backend`: the handlers of `serveGitBackend` for the events of the request, the
response, the child and the timer, in any order. The promise settles after the child's `close` and a `finish` or `close` of
the response, which only the listeners added at the start see. Of the responses of one connection only the oldest that is
not finished has the socket, and a response without it emits neither.
-/
import Mathlib

namespace Dim.Serving

abbrev Bytes := List UInt8

def maximumRequestBytes : Nat := 256 * 1024 * 1024
def maximumResponseBytes : Nat := 256 * 1024 * 1024
def maximumHeaderBytes : Nat := 64 * 1024
def maximumErrorBytes : Nat := 64 * 1024

/-! ## Responses -/

/-- Where a response stands with the socket of its connection: it has it, it waits for an earlier response of the
connection, or the connection was closed while it waited. -/
inductive Socket where
  | held | queued | lost
deriving DecidableEq

/-- The earlier responses are finished. -/
def Socket.assign : Socket → Socket
  | .queued => .held
  | socket => socket

/-- The connection is closed. -/
def Socket.lose : Socket → Socket
  | .queued => .lost
  | socket => socket

/-- A `ServerResponse`: what was done to it, and which of its events were emitted. -/
structure Response where
  socket : Socket
  (headersSent writableEnded destroyed finished closed : Bool)
deriving DecidableEq

namespace Response

/-- A response that nothing was done to; its client may be gone. -/
def untouched (socket : Socket) (closed : Bool) : Response := ⟨socket, false, false, closed, false, closed⟩

def writeHead (response : Response) : Response := { response with headersSent := true }

/-- `response.end()`. -/
def ended (response : Response) : Response := { response with headersSent := true, writableEnded := true }

def destroy (response : Response) : Response := { response with destroyed := true }

/-- `writableEnded || destroyed`. -/
def isOver (response : Response) : Bool := response.writableEnded || response.destroyed

/-- It may emit events: it has the socket and is not closed. -/
def emits (response : Response) : Bool := response.socket = .held && !response.closed

/-- It emits no event any more. -/
def silent (response : Response) : Bool := response.socket = .lost || response.closed

end Response

/-! ## The backend -/

/-- Where the promise stands: before the child's `close`, in `afterSuccessfulWrite`, at `await responseCompleted`,
settled. -/
inductive Stage where
  | running
  | reconciling
  | awaitingResponse
  | settled
deriving DecidableEq

structure Backend where
  /-- `afterSuccessfulWrite` is given. -/
  afterSuccessfulWrite : Bool
  response : Response
  /-- The promise `responseCompleted` is resolved. -/
  (responseCompleted killed stdinOpen stdoutEnded requestPaused stdoutPaused : Bool)
  (requestBytes responseBytes : Nat)
  headerBuffer : Bytes
  headersSent : Bool
  errorOutput : Nat
  timedOut : Bool
  stage : Stage
deriving DecidableEq

/-- The state when `serveGitBackend` has added its listeners. -/
def serveGitBackend (response : Response) (afterSuccessfulWrite : Bool) : Backend where
  afterSuccessfulWrite := afterSuccessfulWrite
  response := response
  responseCompleted := false
  killed := false
  stdinOpen := true
  stdoutEnded := false
  requestPaused := false
  stdoutPaused := false
  requestBytes := 0
  responseBytes := 0
  headerBuffer := []
  headersSent := false
  errorOutput := 0
  timedOut := false
  stage := .running

namespace Backend

/-- `child.kill("SIGKILL")`. -/
def kill (b : Backend) : Backend := { b with killed := true }

def fail (b : Backend) : Backend :=
  if b.response.isOver then b.kill
  else if !b.response.headersSent then { b.kill with response := b.response.writeHead.ended }
  else { b.kill with response := b.response.destroy }

/-- `await responseCompleted`, and `finish()` after it. -/
def awaitResponse (b : Backend) : Backend := { b with stage := if b.responseCompleted then .settled else .awaitingResponse }

/-- `done()`, from a `finish` or a `close` of the response. -/
def complete (b : Backend) : Backend :=
  { b with responseCompleted := true, stage := if b.stage = .awaitingResponse then .settled else b.stage }

/-! ### Handlers -/

def onTimeout (b : Backend) : Backend := fail { b with timedOut := true }

/-- `accepted` is what `child.stdin.write` returns. -/
def onRequestData (size : Nat) (accepted : Bool) (b : Backend) : Backend :=
  let b := { b with requestBytes := b.requestBytes + size }
  if maximumRequestBytes < b.requestBytes then b.fail
  else if b.stdinOpen && !accepted then { b with requestPaused := true }
  else b

/-- A `drain` or an `error` of the child's input. -/
def onStdinReady (b : Backend) : Backend := { b with requestPaused := false }

def onRequestEnd (b : Backend) : Backend := { b with stdinOpen := false }

def onRequestAborted (b : Backend) : Backend := b.kill

def onResponseFinish (b : Backend) : Backend := complete { b with response := { b.response with finished := true } }

def onResponseClose (b : Backend) : Backend :=
  let b' := if !b.response.writableEnded && !b.afterSuccessfulWrite then b.kill else b
  complete { b' with response := { b.response with destroyed := true, closed := true } }

def onResponseDrain (b : Backend) : Backend := { b with stdoutPaused := false }

/-- The response gets the socket: what was written to it is sent, or it destroys the socket. -/
def onSocketAssigned (b : Backend) : Backend := { b with response := { b.response with socket := b.response.socket.assign } }

/-- The connection is closed before the response has the socket. -/
def onConnectionLost (b : Backend) : Backend := { b with response := { b.response with socket := b.response.socket.lose } }

/-- `\r\n\r\n` is in the buffer. -/
def headersEnd (buffer : Bytes) : Bool := decide ([13, 10, 13, 10] <:+: buffer)

/-- `accepted` is what `response.write` returns. -/
def onStdoutData (chunk : Bytes) (accepted : Bool) (b : Backend) : Backend :=
  if b.response.isOver then b
  else
    let b := { b with responseBytes := b.responseBytes + chunk.length }
    if maximumResponseBytes < b.responseBytes then
      -- the head that `fail` writes is sent, too
      { b.fail with response := if b.fail.response.headersSent then b.fail.response.destroy else b.fail.response }
    else if b.headersSent then { b with stdoutPaused := !accepted || b.stdoutPaused }
    else
      let b := { b with headerBuffer := b.headerBuffer ++ chunk }
      if maximumHeaderBytes < b.headerBuffer.length then b.fail
      else if headersEnd b.headerBuffer then
        { b with response := b.response.writeHead, headersSent := true, headerBuffer := [] }
      else b

def onStdoutEnd (b : Backend) : Backend :=
  let b := { b with stdoutEnded := true }
  if b.headersSent && !b.afterSuccessfulWrite && !b.response.writableEnded then
    { b with response := b.response.ended }
  else b

def onStderrData (size : Nat) (b : Backend) : Backend :=
  { b with errorOutput := min maximumErrorBytes (b.errorOutput + size) }

def onChildError (b : Backend) : Backend :=
  { b with response := if !b.response.headersSent then b.response.writeHead.ended else b.response.destroy }

/-- The answer to a child that closed without headers. -/
def withoutHeaders (b : Backend) : Backend :=
  if !b.headersSent && !b.response.writableEnded then { b with response := b.response.writeHead.ended } else b

/-- `complete(code)`; `success` is `code === 0`. -/
def onChildClose (success : Bool) (b : Backend) : Backend :=
  if success && b.headersSent && b.afterSuccessfulWrite then { b.withoutHeaders with stage := .reconciling }
  else b.withoutHeaders.awaitResponse

/-- `afterSuccessfulWrite()` settled. -/
def onReconciled (success : Bool) (b : Backend) : Backend :=
  if success then awaitResponse (if b.response.isOver then b else { b with response := b.response.ended })
  else awaitResponse (if b.response.destroyed then b else { b with response := b.response.destroy })

end Backend

/-! ## Events -/

inductive BackendEvent where
  | timeout
  | requestData (size : Nat) (accepted : Bool)
  | stdinReady
  | requestEnd
  | requestAborted
  | responseFinish
  | responseClose
  | responseDrain
  | socketAssigned
  | connectionLost
  | stdoutData (chunk : Bytes) (accepted : Bool)
  | stdoutEnd
  | stderrData (size : Nat)
  | childError
  | childClose (success : Bool)
  | reconciled (success : Bool)

namespace Backend

/-- The event may be emitted: `finish` and `close` of a response that has the socket, once each, and no `finish` after
`close`. -/
def emits (b : Backend) : BackendEvent → Bool
  | .timeout => !b.timedOut
  | .requestData _ _ => b.stdinOpen && !b.requestPaused && !b.response.silent
  | .stdinReady => true
  | .requestEnd => b.stdinOpen
  | .requestAborted => true
  | .responseFinish => b.response.emits && b.response.writableEnded && !b.response.finished
  | .responseClose => b.response.emits
  | .responseDrain => b.response.emits
  | .socketAssigned => b.response.socket = .queued
  | .connectionLost => b.response.socket = .queued
  | .stdoutData _ _ => !b.stdoutEnded && !b.stdoutPaused
  | .stdoutEnd => !b.stdoutEnded
  | .stderrData _ => b.stage = .running
  | .childError => b.stage = .running
  | .childClose _ => b.stage = .running && b.stdoutEnded
  | .reconciled _ => b.stage = .reconciling

def handle (b : Backend) : BackendEvent → Backend
  | .timeout => b.onTimeout
  | .requestData size accepted => b.onRequestData size accepted
  | .stdinReady => b.onStdinReady
  | .requestEnd => b.onRequestEnd
  | .requestAborted => b.onRequestAborted
  | .responseFinish => b.onResponseFinish
  | .responseClose => b.onResponseClose
  | .responseDrain => b.onResponseDrain
  | .socketAssigned => b.onSocketAssigned
  | .connectionLost => b.onConnectionLost
  | .stdoutData chunk accepted => b.onStdoutData chunk accepted
  | .stdoutEnd => b.onStdoutEnd
  | .stderrData size => b.onStderrData size
  | .childError => b.onChildError
  | .childClose success => b.onChildClose success
  | .reconciled success => b.onReconciled success

/-- The events that come without the client: the timer fires, a killed child ends its output and closes, what was written
after the write settles, an ended response that has the socket finishes, and a destroyed one closes. -/
def due (b : Backend) : List BackendEvent :=
  (if !b.timedOut then [.timeout] else []) ++
  (if b.killed && b.stage = .running then (if b.stdoutEnded then [.childClose false] else [.stdoutEnd]) else []) ++
  (if b.stage = .reconciling then [.reconciled true] else []) ++
  (if b.response.emits && b.response.writableEnded && !b.response.finished then [.responseFinish] else []) ++
  (if b.response.emits && b.response.destroyed then [.responseClose] else [])

end Backend

end Dim.Serving
