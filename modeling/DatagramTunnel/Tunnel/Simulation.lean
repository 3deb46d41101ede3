import DatagramTunnel.Tunnel.Receiver
import DatagramTunnel.Tunnel.Worker

/-!
# Tunnels in simulated time

A simulation is a tunnel whose socket is scripted and whose time passes only when somebody waits.
Waiting jumps from one firing of the timer to the next. A worker that fails to compute a duration or
a deadline dies on the spot; what it has not flushed is lost.
-/

namespace DatagramTunnel.Tunnel

open Flight Session

/-- A running tunnel, the socket under it and the application above it. -/
structure Simulation (α σ : Type) where
  now : Nat := 0
  /-- Whether the clock that the endpoint reads stands still. -/
  frozen : Bool
  localAddress : Address
  receiver : Receiver
  worker : Worker α σ
  /-- What the worker died of. -/
  crash : Option TimeError := none
  /-- Whether the socket refuses to send. -/
  sendFails : Bool := false
  /-- Events that the application has not taken. -/
  mailbox : List Event := []
  /-- Datagrams that the socket took and nobody has looked at. -/
  wire : List Bytes := []

/-- What waiting for an event brings. -/
inductive Delivery where
  | event (next : Event)
  /-- No event will come any more. -/
  | ended
  | timeout
  deriving DecidableEq, Repr

/-- How a tunnel is set up. -/
structure Setup (σ : Type) where
  settings : Settings
  token : Bytes
  transform : Transform σ
  secret : σ
  nonces : Nat → Wire.Nonce
  /-- What the socket says its own address is. -/
  localAddress : Except SocketError Address
  peer : Address
  frozen : Bool := false

namespace Simulation

variable {α σ : Type}

/-- What the endpoint's clock shows. -/
def reading (s : Simulation α σ) : Nat := if s.frozen then 0 else s.now

/-- Whether there is a worker that waits for a stimulus. -/
def isRunning (s : Simulation α σ) : Bool := s.crash.isNone && s.worker.isRunning

/-- The published phase. -/
def phase (s : Simulation α σ) : Phase := s.worker.status.phase

/-- Hands what a worker produced to the socket and the application. A socket that refuses to send
takes nothing, and the worker does not care. -/
def handOver (s : Simulation α σ) (effects : Effects) : Simulation α σ :=
  { s with
    mailbox := s.mailbox ++ effects.events
    wire := if s.sendFails then s.wire else s.wire ++ effects.datagrams }

/-- Takes the events that have come, and tells whether these are the last. -/
def takeEvents (s : Simulation α σ) : List Event × Bool × Simulation α σ :=
  (s.mailbox, !s.isRunning, { s with mailbox := [] })

/-- Takes the datagrams that the socket took. -/
def takeWire (s : Simulation α σ) : List Bytes × Simulation α σ := (s.wire, { s with wire := [] })

variable [Add α] [Sub α] [Mul α] [Seconds α]

/-! ## Stimuli -/

/-- Gives the worker a stimulus, if it still runs. -/
def stimulate (s : Simulation α σ) (stimulus : Stimulus) : Option Reply × Simulation α σ :=
  if s.isRunning then
    match s.worker.step stimulus s.now s.reading with
    | .error cause => (none, { s with crash := some cause })
    | .ok (effects, worker) => (effects.reply, { s with worker }.handOver effects)
  else (none, s)

/-- Asks the worker for something. Without a worker, and when it dies over the request, the
connection is closed. -/
def request (s : Simulation α σ) (command : Command) : Except TunnelError Reply × Simulation α σ :=
  let (reply, s') := s.stimulate (.command command)
  (match reply with
    | some reply => .ok reply
    | none => .error .closed, s')

/-- Something arrives at the socket. -/
def arrive (s : Simulation α σ) (a : Arrival) : Simulation α σ :=
  let (intake, receiver) := s.receiver.take a
  let s' := { s with receiver }
  match intake with
  | none => s'
  | some (.datagram content) => (s'.stimulate (.datagram content)).2
  | some .ended => (s'.stimulate .receiveEnded).2

/-- Several things arrive, one after the other. -/
def arriveAll (s : Simulation α σ) (arrivals : List Arrival) : Simulation α σ :=
  arrivals.foldl arrive s

/-! ## Time -/

/-- Jumps to the next firing of the timer. -/
def fire (s : Simulation α σ) : Simulation α σ :=
  ({ s with now := s.worker.due }.stimulate .tick).2

/-- Fires the timer up to `limit` times, as long as the worker runs and `more` holds. -/
def fireWhile (more : Simulation α σ → Bool) : Nat → Simulation α σ → Simulation α σ
  | 0, s => s
  | limit + 1, s => if s.isRunning && more s then fireWhile more limit s.fire else s

/-- An upper bound on how often the timer fires within a time, as two firings are at least a
millisecond apart. -/
def firings (duration : Nat) : Nat := duration / nanosPerMilli + 2

/-- Waits. The timer still fires at the very end. -/
def sleep (s : Simulation α σ) (duration : Nat) : Simulation α σ :=
  let wake := s.now + duration
  { s.fireWhile (fun s => s.worker.due ≤ wake) (firings duration) with now := wake }

/-- Waits for an event, but not longer than `patience`; the wait is over before the timer fires at
its very end. -/
def receiveEvent (s : Simulation α σ) (patience : Nat) : Delivery × Simulation α σ :=
  let deadline := s.now + patience
  let s' := s.fireWhile (fun s => s.mailbox.isEmpty && s.worker.due < deadline) (firings patience)
  match s'.mailbox with
  | event :: rest => (.event event, { s' with mailbox := rest })
  | [] =>
    if s'.isRunning then (.timeout, s'.sleep (deadline - s'.now)) else (.ended, s')

/-- Waits for the end of the handshake. -/
def awaitHandshake (s : Simulation α σ) : Except TunnelError Unit × Simulation α σ :=
  let s' := s.fireWhile (fun s => s.phase = .connecting)
    (firings s.worker.endpoint.settings.helloTimeout)
  (match s'.phase, s'.worker.status.failure with
    | .established, _ => .ok ()
    | _, some reason => .error (.handshakeFailed reason)
    | _, none => .error .closed, s')

/-! ## Start -/

/-- Sets a tunnel up and starts the handshake. The address of the socket is asked for first. -/
def launch (setup : Setup σ) : Except TunnelError (Simulation α σ) :=
  match setup.localAddress with
  | .error cause => .error (.socket cause)
  | .ok localAddress => do
    let endpoint : Endpoint α σ ←
      Endpoint.create setup.settings setup.token setup.transform setup.secret setup.nonces
    let (effects, worker) := Worker.start (← endpoint.connect 0) 0
    let receiver := { peer := setup.peer, bufferSize := setup.settings.recvBufferSize }
    let s : Simulation α σ :=
      { frozen := setup.frozen, localAddress, receiver, worker }
    let s := s.handOver effects
    return match worker.setTimer s.now with
      | .error cause => { s with crash := some cause }
      | .ok worker => { s with worker }

end Simulation

end DatagramTunnel.Tunnel
