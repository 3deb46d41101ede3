import DatagramTunnel.Session.Polling

/-!
# The worker behind a tunnel

A worker owns the endpoint of a tunnel. It reacts to one stimulus at a time, and after each it
flushes: the outbox goes to the socket, the events go to the application, and the phase is
published. As flushing takes every event, the published phase is never `closing`.
-/

namespace DatagramTunnel.Tunnel

open Flight Session

/-- What the application may ask for. -/
inductive Command where
  | send (packet : Bytes)
  | sendRaw (id : UInt8) (payload : Bytes)
  | statistics
  | close
  deriving DecidableEq, Repr

/-- What the application is answered. -/
inductive Reply where
  /-- The endpoint's own answer to a request to send. -/
  | result (outcome : Except TunnelError Unit)
  | statistics (values : Statistics)
  /-- The connection is closed. -/
  | closed

/-- What a worker waits for. -/
inductive Stimulus where
  /-- The timer fired. -/
  | tick
  | command (request : Command)
  /-- The application let go of the tunnel. -/
  | abandoned
  /-- The peer sent a datagram. -/
  | datagram (content : Bytes)
  /-- No datagram will come any more. -/
  | receiveEnded
  deriving DecidableEq, Repr

/-- What a worker publishes. -/
structure Status where
  phase : Phase
  /-- Why the handshake failed, if it did. -/
  failure : Option HandshakeFailure := none
  deriving DecidableEq, Repr

/-- What one stimulus leads to. -/
structure Effects where
  reply : Option Reply := none
  /-- Handed to the socket, in order. -/
  datagrams : List Bytes := []
  /-- Handed to the application, in order. -/
  events : List Event := []

/-- The owner of an endpoint. -/
structure Worker (α σ : Type) where
  endpoint : Endpoint α σ
  status : Status
  /-- When the timer fires next. -/
  due : Nat

/-- The failure that the last of these events to do so reports. -/
def lastFailure (events : List Event) : Option HandshakeFailure :=
  events.foldl (fun found event => match event with
    | .failed reason => some reason
    | _ => found) none

namespace Worker

variable {α σ : Type}

/-- Whether the worker waits for another stimulus. -/
def isRunning (w : Worker α σ) : Bool := w.endpoint.phase != .closed

/-- Empties the queues of the endpoint and publishes the phase. A failure once published stays. -/
def flush (w : Worker α σ) : Effects × Worker α σ :=
  let (datagrams, drained) := w.endpoint.drainOutbox
  let (events, endpoint) := drained.drainEvents
  let failure := (lastFailure events).or w.status.failure
  ({ datagrams, events }, { w with endpoint, status := { phase := endpoint.phase, failure } })

variable [Add α] [Sub α] [Mul α] [Seconds α]

/-- Sets the timer: it fires in whole milliseconds. -/
def setTimer (w : Worker α σ) (now : Nat) : Except TimeError (Worker α σ) := do
  let interval ← w.endpoint.nextTickInterval
  let deadline ← later now interval
  return { w with due := nextMilli deadline }

/-- The first flush of a worker, which sends the HELLO that opens the handshake. -/
def start (endpoint : Endpoint α σ) (now : Nat) : Effects × Worker α σ :=
  { endpoint, status := { phase := endpoint.phase }, due := now : Worker α σ }.flush

/-- Carries out a request at the time that the clock shows. -/
def obey (w : Worker α σ) (request : Command) (reading : Nat) :
    Except TimeError (Reply × Worker α σ) :=
  match request with
  | .send packet => do
    let (outcome, endpoint) ← w.endpoint.send packet reading
    return (.result outcome, { w with endpoint })
  | .sendRaw id payload =>
    let (outcome, endpoint) := w.endpoint.sendRaw id payload
    .ok (.result outcome, { w with endpoint })
  | .statistics => do return (.statistics (← w.endpoint.statistics), w)
  | .close => .ok (.closed, { w with endpoint := w.endpoint.close })

/-- Reacts to a stimulus, without the flush. The timer goes by `now`, the endpoint by what the clock
shows, `reading`. -/
def react (w : Worker α σ) (stimulus : Stimulus) (now reading : Nat) :
    Except TimeError (Option Reply × Worker α σ) :=
  match stimulus with
  | .tick => do
    let endpoint ← w.endpoint.tick reading
    return (none, ← { w with endpoint }.setTimer now)
  | .command request => do
    let (reply, w') ← w.obey request reading
    return (some reply, w')
  | .abandoned => .ok (none, { w with endpoint := w.endpoint.close })
  | .datagram content => do
    return (none, { w with endpoint := ← w.endpoint.receive content reading })
  | .receiveEnded => .ok (none, { w with endpoint := w.endpoint.socketClosed })

/-- Reacts to a stimulus and flushes. -/
def step (w : Worker α σ) (stimulus : Stimulus) (now reading : Nat) :
    Except TimeError (Effects × Worker α σ) := do
  let (reply, w') ← w.react stimulus now reading
  let (effects, w'') := w'.flush
  return ({ effects with reply }, w'')

end Worker

end DatagramTunnel.Tunnel
