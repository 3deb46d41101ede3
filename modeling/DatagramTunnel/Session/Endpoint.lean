import DatagramTunnel.Flight.RoundTrip
import DatagramTunnel.Flight.SendQueue
import DatagramTunnel.Packet.Fragmentation
import DatagramTunnel.Packet.Inlet
import DatagramTunnel.Session.Keepalive
import DatagramTunnel.Session.Pipes

/-!
# Endpoints

An endpoint is one end of a connection as a value. It takes arriving datagrams, requests of the
application and the passing of time, and it leaves datagrams in its outbox and events for the
application; it reads no clock and touches no socket. Every operation that can depend on the
retransmit timeout, or on the instants at which frames are to be sent again, may fail with a
`TimeError`, and then has no result at all.

The arithmetic `α` of the round-trip estimate and the private state `σ` of the payload transform
are parameters.
-/

namespace DatagramTunnel.Session

open Flight Packet Wire

/-- What an endpoint has counted. -/
structure Counters where
  /-- Datagrams handed to the socket. -/
  datagramsSent : Nat := 0
  /-- First transmissions of data frames. -/
  framesSent : Nat := 0
  retransmissions : Nat := 0
  /-- Acknowledgements that retired a frame. -/
  acksReceived : Nat := 0
  acksSent : Nat := 0
  packetsSent : Nat := 0
  packetsDelivered : Nat := 0
  pingsSent : Nat := 0
  pongsReceived : Nat := 0
  /-- Datagrams that are no frames, and opening frames with a wrong token that came late. -/
  malformedDropped : Nat := 0
  protocolViolations : Nat := 0
  deriving DecidableEq, Repr

/-- The counters with what is measured besides. -/
structure Statistics extends Counters where
  rawSent : Nat
  rawReceived : Nat
  inFlight : Nat
  smoothedRtt : Nat
  retransmitTimeout : Nat
  deriving DecidableEq, Repr

/-- One end of a connection. -/
structure Endpoint (α σ : Type) where
  settings : Settings
  /-- Both ends must hold the same. -/
  token : Bytes
  transform : Transform σ
  /-- The random value of each PING. -/
  nonces : Nat → Nonce
  /-- The private state of the transform. -/
  secret : σ
  phase : Phase
  splitter : Splitter
  queue : SendQueue
  roundTrip : RoundTrip α
  inlet : Inlet
  keepalive : Keepalive
  pipes : Pipes
  handshakeStarted : Option Nat
  lastHello : Option Nat
  /-- Violations since the last packet that arrived. -/
  violations : Nat
  counters : Counters
  /-- Datagrams for the peer, oldest first. -/
  outbox : List Bytes
  /-- News for the application, oldest first. -/
  events : List Event

namespace Endpoint

variable {α σ : Type}

/-! ## Ends -/

/-- Enters the final phases: the event that tells the application why goes last, and whatever was
in progress is dropped. -/
def finish (e : Endpoint α σ) (last : Event) : Endpoint α σ :=
  { e with
    phase := .closing
    events := e.events ++ [last]
    queue := e.queue.clear
    inlet := { window := e.inlet.window.clear, assembler := e.inlet.assembler.reset }
    keepalive := e.keepalive.reset
    outbox := [] }

/-- Ends an established connection; any other is left alone. -/
def goDown (e : Endpoint α σ) (reason : Outage) : Endpoint α σ :=
  if e.phase = .established then e.finish (.down reason) else e

/-- Ends a handshake; any other phase is left alone. -/
def fail (e : Endpoint α σ) (reason : HandshakeFailure) : Endpoint α σ :=
  if e.phase = .connecting then e.finish (.failed reason) else e

/-- Ends the connection on request. Asking again changes nothing. -/
def close (e : Endpoint α σ) : Endpoint α σ :=
  match e.phase with
  | .connecting => e.fail .localClose
  | .established => e.goDown .localClose
  | .closing | .closed => e

/-- Ends the connection because nothing can arrive any more. -/
def socketClosed (e : Endpoint α σ) : Endpoint α σ :=
  match e.phase with
  | .connecting => e.fail .socketClosed
  | .established => e.goDown .socketClosed
  | .closing | .closed => e

/-! ## Queues -/

/-- Puts a datagram into the outbox. -/
def post (e : Endpoint α σ) (datagram : Bytes) : Endpoint α σ :=
  { e with outbox := e.outbox ++ [datagram] }

/-- Tells the application. -/
def notify (e : Endpoint α σ) (event : Event) : Endpoint α σ :=
  { e with events := e.events ++ [event] }

/-- Changes the counters. -/
def count (e : Endpoint α σ) (change : Counters → Counters) : Endpoint α σ :=
  { e with counters := change e.counters }

/-- The next datagram for the socket. -/
def pollTransmit (e : Endpoint α σ) : Option Bytes × Endpoint α σ :=
  match e.outbox with
  | [] => (none, e)
  | datagram :: rest =>
    (some datagram,
      { e with outbox := rest }.count fun c => { c with datagramsSent := c.datagramsSent + 1 })

/-- The next event. A connection that is closing is closed once the last event has been taken. -/
def pollEvent (e : Endpoint α σ) : Option Event × Endpoint α σ :=
  match e.events with
  | event :: rest => (some event, { e with events := rest })
  | [] => (none, if e.phase = .closing then { e with phase := .closed } else e)

/-! ## Handshake -/

/-- Whether no HELLO has gone out, or the last one at least `gap` ago. -/
def helloDue (e : Endpoint α σ) (now gap : Nat) : Bool :=
  match e.lastHello with
  | none => true
  | some sent => gap ≤ elapsed now sent

/-- Sends a HELLO. -/
def sendHello (e : Endpoint α σ) (now : Nat) : Endpoint α σ :=
  { e with lastHello := some now }.post (Frame.hello e.token).encode

/-- Starts the handshake, once. -/
def connect (e : Endpoint α σ) (now : Nat) : Except TunnelError (Endpoint α σ) :=
  match e.phase with
  | .connecting =>
    match e.handshakeStarted with
    | none => .ok ({ e with handshakeStarted := some now }.sendHello now)
    | some _ => .ok e
  | .established => .ok e
  | .closing | .closed => .error .closed

/-- Repeats the HELLO when it is due, and gives the handshake up when its time is over. -/
def tickHandshake (e : Endpoint α σ) (now : Nat) : Endpoint α σ :=
  match e.handshakeStarted with
  | none => e
  | some started =>
    if e.settings.helloTimeout ≤ elapsed now started then e.fail .helloTimeout
    else if e.helloDue now e.settings.helloInterval then e.sendHello now
    else e

/-- A HELLO completes the handshake or, with a wrong token, ends it. A later one means that the peer
may have missed ours, so it is answered, but at most twice per interval. -/
def onHello (e : Endpoint α σ) (token : Bytes) (now : Nat) : Endpoint α σ :=
  match e.phase with
  | .connecting =>
    if token = e.token then { e with phase := .established }.notify .up
    else e.fail .tokenMismatch
  | .established =>
    if token = e.token then
      if e.helloDue now (e.settings.helloInterval / 2) then e.sendHello now else e
    else e.count fun c => { c with malformedDropped := c.malformedDropped + 1 }
  | .closing | .closed => e

/-! ## Arriving packets -/

/-- Records that the peer broke the protocol; enough of that in a row ends the connection. -/
def violation (e : Endpoint α σ) : Endpoint α σ :=
  let e' := { e with violations := e.violations + 1 }.count fun c =>
    { c with protocolViolations := c.protocolViolations + 1 }
  if e'.settings.maxProtocolViolations ≤ e'.violations then
    e'.goDown (.protocolViolations e'.violations)
  else e'

/-- Unwraps a packet and hands it to the application. -/
def deliver (e : Endpoint α σ) (packet : Bytes) : Endpoint α σ :=
  let (opened, secret) := e.transform.unwrap e.secret packet
  let e' := { e with secret }
  match opened with
  | .ok content =>
    ({ e' with violations := 0 }.count fun c =>
      { c with packetsDelivered := c.packetsDelivered + 1 }).notify (.packet content)
  | .error _ => e'.violation

/-- Acts on what the assembler said to one frame. Faults come first, and a packet is delivered only
if they left the connection up. -/
def absorb (e : Endpoint α σ) (out : Assembled) : Endpoint α σ :=
  let e' := out.errors.foldl (fun e _ => e.violation) e
  if e'.phase = .established then
    match out.packet with
    | some packet => e'.deliver packet
    | none => e'
  else e'

/-- Reads up to `limit` frames whose turn has come, as long as the connection is up. -/
def drainInlet : Nat → Endpoint α σ → Endpoint α σ
  | 0, e => e
  | limit + 1, e =>
    if e.phase = .established then
      match e.inlet.window.pop? with
      | none => e
      | some (f, window) =>
        let (out, assembler) := e.inlet.assembler.push f
        drainInlet limit ({ e with inlet := { window, assembler } }.absorb out)
    else e

/-- A data frame goes through the window, is acknowledged unless it must come again, and may
complete packets. -/
def onData (e : Endpoint α σ) (f : Fragment) : Endpoint α σ :=
  let (admission, window) := e.inlet.window.insert f
  let e' := { e with inlet := { e.inlet with window } }
  let e'' := if admission.acknowledged then
      (e'.count fun c => { c with acksSent := c.acksSent + 1 }).post (Frame.ack f.seq).encode
    else e'
  drainInlet window.held.length e''

/-- A raw datagram is handed over, unwrapped if the settings say so. -/
def onPipe (e : Endpoint α σ) (id : UInt8) (payload : Bytes) : Endpoint α σ :=
  if e.settings.transformRaw then
    let (opened, secret) := e.transform.unwrap e.secret payload
    let e' := { e with secret }
    match opened with
    | .ok content => { e' with pipes := e'.pipes.inbound }.notify (.raw id content)
    | .error _ => e'.violation
  else { e with pipes := e.pipes.inbound }.notify (.raw id payload)

/-! ## State for people -/

/-- The state in one line. -/
def summary (e : Endpoint α σ) : String :=
  "ConnectionState \x7b phase: " ++ e.phase.name ++
    ", next_seq: " ++ toString e.splitter.nextSeq.toNat ++
    ", next_expected: " ++ toString e.inlet.window.cursor.toNat ++
    ", in_flight: " ++ toString e.queue.inFlight.length ++
    ", violations: " ++ toString e.violations ++ ", .. \x7d"

variable [Add α] [Sub α] [Mul α] [Seconds α]

/-! ## Start -/

/-- A new endpoint. Its settings must be valid, and its token must fit into a HELLO. -/
def create (settings : Settings) (token : Bytes) (transform : Transform σ) (secret : σ)
    (nonces : Nat → Nonce) : Except TunnelError (Endpoint α σ) :=
  match settings.validate with
  | .error cause => .error (.settings cause)
  | .ok () =>
    if settings.mtu < kindSize + token.length then
      .error (.packetTooLarge token.length (settings.mtu - kindSize))
    else
      .ok {
        settings, token, transform, nonces, secret
        phase := .connecting
        splitter := { mtu := settings.mtu }
        queue := { window := settings.maxInFlight }
        roundTrip := .start settings.initialRtt settings.rttDecay settings.retryMultiplier
          settings.minRto
        inlet := {
          window := { size := settings.reorderWindow }
          assembler := { limit := settings.maxPacketSize } }
        keepalive := {
          pingInterval := settings.pingInterval
          pongTimeout := settings.pongTimeout }
        pipes := { mtu := settings.mtu }
        handshakeStarted := none
        lastHello := none
        violations := 0
        counters := {}
        outbox := []
        events := [] }

/-! ## Departing packets -/

/-- Sends what is overdue and what the window admits. -/
def pump (e : Endpoint α σ) (now : Nat) : Except TimeError (Endpoint α σ) := do
  let timeout ← e.roundTrip.timeout
  let (emission, queue) ← e.queue.tick now timeout
  return { e with queue, outbox := e.outbox ++ emission.datagrams }.count fun c =>
    { c with
      framesSent := c.framesSent + emission.admitted
      retransmissions := c.retransmissions + emission.retransmitted }

/-- Why data may not be sent now, if so. -/
def refusal? (e : Endpoint α σ) : Option TunnelError :=
  match e.phase with
  | .established => none
  | .connecting => some (.notEstablished .connecting)
  | .closing | .closed => some .closed

/-- Queues the data frames of a wrapped packet. -/
def enqueuePacket (e : Endpoint α σ) (wrapped : Bytes) : Endpoint α σ :=
  let (pieces, splitter) := e.splitter.split wrapped
  let frames := pieces.map fun f => { seq := f.seq, datagram := (Frame.data f).encode }
  { e with splitter, queue := e.queue.enqueueAll frames }.count fun c =>
    { c with packetsSent := c.packetsSent + 1 }

/-- Takes a packet for reliable, ordered delivery. The limit on its size holds before and after it
is wrapped, because the peer checks what it puts together. -/
def send (e : Endpoint α σ) (packet : Bytes) (now : Nat) :
    Except TimeError (Except TunnelError Unit × Endpoint α σ) :=
  let limit := e.settings.maxPacketSize
  match e.refusal? with
  | some cause => .ok (.error cause, e)
  | none =>
    if limit < packet.length then .ok (.error (.packetTooLarge packet.length limit), e)
    else
      let (outcome, secret) := e.transform.wrap e.secret packet
      let e' := { e with secret }
      match outcome with
      | .error cause => .ok (.error (.transform cause), e')
      | .ok wrapped =>
        if limit < wrapped.length then .ok (.error (.packetTooLarge wrapped.length limit), e')
        else do
          let e'' ← (e'.enqueuePacket wrapped).pump now
          return (.ok (), e'')

/-- Sends a raw datagram on pipe `id`, once. -/
def sendRaw (e : Endpoint α σ) (id : UInt8) (payload : Bytes) :
    Except TunnelError Unit × Endpoint α σ :=
  match e.refusal? with
  | some cause => (.error cause, e)
  | none =>
    let (outcome, secret) :=
      if e.settings.transformRaw then e.transform.wrap e.secret payload
      else (.ok payload, e.secret)
    let e' := { e with secret }
    match outcome with
    | .error cause => (.error (.transform cause), e')
    | .ok wrapped =>
      match e'.pipes.outbound id wrapped with
      | .error cause => (.error cause, e')
      | .ok (datagram, pipes) => (.ok (), { e' with pipes }.post datagram)

/-! ## Arriving datagrams -/

/-- An acknowledgement of a frame in flight retires it, gives a round-trip sample and makes room for
another frame; any other is ignored. -/
def onAck (e : Endpoint α σ) (seq : UInt32) (now : Nat) :
    Except TimeError (Endpoint α σ) :=
  match e.queue.acknowledge? seq now with
  | none => .ok e
  | some (sample, queue) =>
    ({ e with queue, roundTrip := e.roundTrip.update sample }.count fun c =>
      { c with acksReceived := c.acksReceived + 1 }).pump now

/-- Acts on one frame. Before the handshake is complete everything but a HELLO is dropped. -/
def onFrame (e : Endpoint α σ) (frame : Frame) (now : Nat) :
    Except TimeError (Endpoint α σ) :=
  match frame with
  | .hello token => .ok (e.onHello token now)
  | frame =>
    if e.phase = .established then
      match frame with
      | .hello _ => .ok e
      | .ping nonce => .ok (e.post (Frame.pong nonce).encode)
      | .pong _ =>
        .ok ({ e with keepalive := e.keepalive.heardPong now }.count fun c =>
          { c with pongsReceived := c.pongsReceived + 1 })
      | .ack seq => e.onAck seq now
      | .data fragment => .ok (e.onData fragment)
      | .pipe id payload => .ok (e.onPipe id payload)
    else .ok e

/-- Acts on one arriving datagram. What is no frame is dropped without an answer. -/
def receive (e : Endpoint α σ) (datagram : Bytes) (now : Nat) :
    Except TimeError (Endpoint α σ) :=
  if e.phase.isTerminal then .ok e
  else
    match Frame.decode datagram with
    | .error _ => .ok (e.count fun c => { c with malformedDropped := c.malformedDropped + 1 })
    | .ok frame => e.onFrame frame now

/-! ## Time -/

/-- Lets time pass for an established connection: first the keepalive, then the send queue. -/
def tickEstablished (e : Endpoint α σ) (now : Nat) : Except TimeError (Endpoint α σ) :=
  let (alarm, keepalive) := e.keepalive.tick now
  let e' := { e with keepalive }
  match alarm with
  | some .timedOut => .ok (e'.goDown .pongTimeout)
  | some .ping =>
    let nonce := e.nonces e.counters.pingsSent
    ((e'.count fun c => { c with pingsSent := c.pingsSent + 1 }).post
      (Frame.ping nonce).encode).pump now
  | none => e'.pump now

/-- Lets time pass. -/
def tick (e : Endpoint α σ) (now : Nat) : Except TimeError (Endpoint α σ) :=
  match e.phase with
  | .connecting => .ok (e.tickHandshake now)
  | .established => e.tickEstablished now
  | .closing | .closed => .ok e

/-- How long the next tick may wait. -/
def nextTickInterval (e : Endpoint α σ) : Except TimeError Nat := do
  let interval ← e.roundTrip.tickInterval
  return if e.phase = .connecting then min interval e.settings.helloInterval else interval

/-! ## Measurements -/

def statistics (e : Endpoint α σ) : Except TimeError Statistics := do
  let smoothedRtt ← e.roundTrip.smoothed
  let retransmitTimeout ← e.roundTrip.timeout
  return {
    toCounters := e.counters
    rawSent := e.pipes.sent
    rawReceived := e.pipes.received
    inFlight := e.queue.inFlight.length
    smoothedRtt, retransmitTimeout }

end Endpoint

end DatagramTunnel.Session
