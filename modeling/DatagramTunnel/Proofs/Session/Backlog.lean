import DatagramTunnel.Proofs.Session.Intake
import DatagramTunnel.Session.Operation

/-!
# An endpoint behind a backlog

An endpoint writes at the ends of its queues and counts upwards: no function of it looks at the
datagrams that wait for the socket, at the events that wait for the application, or at how many of
them there have been.  Only the end of the connection is felt by what waits for the socket, for it
is dropped.

`e.behind b` is the endpoint `e` with the backlog `b` in front of its queues and counts.  Every
function does the same behind a backlog as without one, and so does every call, a poll only if
nothing waits in the queue that it takes from: `perform_behind`.
-/

namespace DatagramTunnel.Session

open Flight Packet Wire

/-- What has been queued and counted before. -/
structure Backlog where
  datagrams : List Bytes := []
  news : List Event := []
  datagramsSent : Nat := 0
  acksSent : Nat := 0
  malformedDropped : Nat := 0
  rawSent : Nat := 0
  rawReceived : Nat := 0

namespace Endpoint

variable {α σ : Type}

/-- The endpoint with the backlog in front of what it has queued and counted. -/
def behind (e : Endpoint α σ) (b : Backlog) : Endpoint α σ :=
  { e with
    outbox := (bif e.phase.isTerminal then [] else b.datagrams) ++ e.outbox
    events := b.news ++ e.events
    counters := { e.counters with
      datagramsSent := b.datagramsSent + e.counters.datagramsSent
      acksSent := b.acksSent + e.counters.acksSent
      malformedDropped := b.malformedDropped + e.counters.malformedDropped }
    pipes := { e.pipes with
      sent := b.rawSent + e.pipes.sent
      received := b.rawReceived + e.pipes.received } }

variable (e : Endpoint α σ) (b : Backlog)

/-! ## What stands behind no backlog -/

section Fields

@[simp] theorem behind_settings : (e.behind b).settings = e.settings := rfl

@[simp] theorem behind_token : (e.behind b).token = e.token := rfl

@[simp] theorem behind_transform : (e.behind b).transform = e.transform := rfl

@[simp] theorem behind_nonces : (e.behind b).nonces = e.nonces := rfl

@[simp] theorem behind_secret : (e.behind b).secret = e.secret := rfl

@[simp] theorem behind_phase : (e.behind b).phase = e.phase := rfl

@[simp] theorem behind_queue : (e.behind b).queue = e.queue := rfl

@[simp] theorem behind_roundTrip : (e.behind b).roundTrip = e.roundTrip := rfl

@[simp] theorem behind_inlet : (e.behind b).inlet = e.inlet := rfl

@[simp] theorem behind_keepalive : (e.behind b).keepalive = e.keepalive := rfl

@[simp] theorem behind_handshakeStarted :
    (e.behind b).handshakeStarted = e.handshakeStarted := rfl

@[simp] theorem behind_helloDue (now gap : Nat) :
    (e.behind b).helloDue now gap = e.helloDue now gap := rfl

@[simp] theorem behind_refusal? : (e.behind b).refusal? = e.refusal? := rfl

end Fields

/-! ## Queues and ends -/

theorem postAll_behind (datagrams : List Bytes) :
    { e.behind b with outbox := (e.behind b).outbox ++ datagrams } =
      { e with outbox := e.outbox ++ datagrams }.behind b := by
  simp only [behind, List.append_assoc]

@[simp] theorem post_behind (datagram : Bytes) :
    (e.behind b).post datagram = (e.post datagram).behind b :=
  postAll_behind e b [datagram]

@[simp] theorem notify_behind (event : Event) :
    (e.behind b).notify event = (e.notify event).behind b := by
  simp only [notify, behind, List.append_assoc]

@[simp] theorem finish_behind (last : Event) :
    (e.behind b).finish last = (e.finish last).behind b := by
  simp [finish, behind, Phase.isTerminal]

@[simp] theorem goDown_behind (reason : Outage) :
    (e.behind b).goDown reason = (e.goDown reason).behind b := by
  simp only [goDown, behind_phase, finish_behind]
  split <;> rfl

@[simp] theorem fail_behind (reason : HandshakeFailure) :
    (e.behind b).fail reason = (e.fail reason).behind b := by
  simp only [fail, behind_phase, finish_behind]
  split <;> rfl

theorem close_behind : (e.behind b).close = e.close.behind b := by
  simp only [close, behind_phase, fail_behind, goDown_behind]
  split <;> rfl

theorem socketClosed_behind : (e.behind b).socketClosed = e.socketClosed.behind b := by
  simp only [socketClosed, behind_phase, fail_behind, goDown_behind]
  split <;> rfl

/-- Taking a datagram is possible behind a backlog of events. -/
theorem pollTransmit_behind (hdatagrams : b.datagrams = []) :
    (e.behind b).pollTransmit = (e.pollTransmit.1, e.pollTransmit.2.behind b) := by
  have houtbox : (e.behind b).outbox = e.outbox := by simp [behind, hdatagrams]
  unfold pollTransmit
  rw [houtbox]
  cases e.outbox with
  | nil => rfl
  | cons datagram rest => simp [behind, count, hdatagrams, Nat.add_assoc]

/-- Taking an event is possible behind a backlog of datagrams. -/
theorem pollEvent_behind (hnews : b.news = []) :
    (e.behind b).pollEvent = (e.pollEvent.1, e.pollEvent.2.behind b) := by
  have hevents : (e.behind b).events = e.events := by simp [behind, hnews]
  unfold pollEvent
  rw [hevents]
  cases e.events with
  | nil =>
    by_cases hphase : e.phase = .closing
    · simp [behind, hphase, hnews, Phase.isTerminal]
    · simp [hphase]
  | cons event rest => simp [behind, hnews]

/-! ## Handshake -/

@[simp] theorem sendHello_behind (now : Nat) :
    (e.behind b).sendHello now = (e.sendHello now).behind b :=
  post_behind { e with lastHello := some now } b (Frame.hello e.token).encode

theorem connect_behind (now : Nat) :
    (e.behind b).connect now = (e.connect now).map fun e' => e'.behind b := by
  simp only [connect, behind_phase, behind_handshakeStarted]
  split
  · split
    · exact congrArg Except.ok (sendHello_behind { e with handshakeStarted := some now } b now)
    · rfl
  · rfl
  · rfl
  · rfl

theorem tickHandshake_behind (now : Nat) :
    (e.behind b).tickHandshake now = (e.tickHandshake now).behind b := by
  simp only [tickHandshake, behind_handshakeStarted, behind_settings, behind_helloDue,
    fail_behind, sendHello_behind]
  split
  · rfl
  · split
    · rfl
    · split <;> rfl

/-- The connection comes up. -/
theorem rise_behind (hphase : e.phase = .connecting) :
    { e.behind b with phase := .established }.notify .up =
      ({ e with phase := .established }.notify .up).behind b := by
  simp [notify, behind, hphase, Phase.isTerminal]

theorem onHello_behind (token : Bytes) (now : Nat) :
    (e.behind b).onHello token now = (e.onHello token now).behind b := by
  simp only [onHello, behind_phase, behind_token, behind_settings, behind_helloDue, fail_behind,
    sendHello_behind]
  split
  · rename_i hphase
    split
    · exact rise_behind e b hphase
    · rfl
  · split
    · split <;> rfl
    · rfl
  · rfl
  · rfl

/-! ## Arriving packets -/

@[simp] theorem violation_behind : (e.behind b).violation = e.violation.behind b := by
  show (if e.settings.maxProtocolViolations ≤ e.violations + 1 then
      (e.recordFault.behind b).goDown (.protocolViolations (e.violations + 1))
    else e.recordFault.behind b) =
    (if e.settings.maxProtocolViolations ≤ e.violations + 1 then
      e.recordFault.goDown (.protocolViolations (e.violations + 1))
    else e.recordFault).behind b
  rw [goDown_behind]
  split <;> rfl

theorem deliver_behind (packet : Bytes) :
    (e.behind b).deliver packet = (e.deliver packet).behind b := by
  simp only [deliver, behind_transform, behind_secret]
  split
  · exact notify_behind ({ e with secret := (e.transform.unwrap e.secret packet).2, violations := 0
      }.count fun c => { c with packetsDelivered := c.packetsDelivered + 1 }) b _
  · exact violation_behind { e with secret := (e.transform.unwrap e.secret packet).2 } b

theorem violationAll_behind (errors : List AssemblyError) :
    errors.foldl (fun e _ => e.violation) (e.behind b) =
      (errors.foldl (fun e _ => e.violation) e).behind b := by
  induction errors generalizing e with
  | nil => rfl
  | cons error errors ih =>
    rw [List.foldl_cons, List.foldl_cons, violation_behind]
    exact ih e.violation

theorem absorb_behind (out : Assembled) : (e.behind b).absorb out = (e.absorb out).behind b := by
  simp only [absorb, violationAll_behind, behind_phase, deliver_behind]
  split
  · split <;> rfl
  · rfl

theorem drainInlet_behind (limit : Nat) :
    drainInlet limit (e.behind b) = (drainInlet limit e).behind b := by
  induction limit generalizing e with
  | zero => rfl
  | succ limit ih =>
    dsimp +instances only [drainInlet, behind_phase, behind_inlet]
    split
    · split
      · rfl
      · rw [← ih, ← absorb_behind]
        rfl
    · rfl

theorem offered_behind (f : Fragment) : (e.behind b).offered f = (e.offered f).behind b := by
  dsimp +instances only [offered, behind_inlet]
  split
  · exact post_behind ({ e with inlet := { e.inlet with window := (e.inlet.window.insert f).2 }
      }.count fun c => { c with acksSent := c.acksSent + 1 }) b _
  · rfl

theorem onData_behind (f : Fragment) : (e.behind b).onData f = (e.onData f).behind b := by
  rw [onData_eq, onData_eq, offered_behind, drainInlet_behind]
  rfl

theorem onPipe_behind (id : UInt8) (payload : Bytes) :
    (e.behind b).onPipe id payload = (e.onPipe id payload).behind b := by
  dsimp +instances only [onPipe, behind_settings, behind_transform, behind_secret]
  split
  · split
    · exact notify_behind { e with
        secret := (e.transform.unwrap e.secret payload).2, pipes := e.pipes.inbound } b _
    · exact violation_behind { e with secret := (e.transform.unwrap e.secret payload).2 } b
  · exact notify_behind { e with pipes := e.pipes.inbound } b _

/-! ## Departing packets -/

theorem pumped_behind (now timeout : Nat) :
    (e.behind b).pumped now timeout = (e.pumped now timeout).behind b :=
  postAll_behind ({ e with queue := (e.queue.ticked now timeout).2 }.count fun c =>
    { c with
      framesSent := c.framesSent + (e.queue.ticked now timeout).1.admitted
      retransmissions := c.retransmissions + (e.queue.ticked now timeout).1.retransmitted }) b _

theorem outbound_behind (id : UInt8) (payload : Bytes) :
    (e.behind b).pipes.outbound id payload = (e.pipes.outbound id payload).map fun r =>
      (r.1, { r.2 with
        sent := b.rawSent + r.2.sent, received := b.rawReceived + r.2.received }) := by
  dsimp +instances only [Pipes.outbound, Pipes.maxPayload, behind]
  split <;> rfl

theorem sendRaw_behind (id : UInt8) (payload : Bytes) :
    (e.behind b).sendRaw id payload =
      ((e.sendRaw id payload).1, (e.sendRaw id payload).2.behind b) := by
  dsimp +instances only [sendRaw, behind_refusal?, behind_settings, behind_transform, behind_secret]
  split
  · rfl
  · split
    · rfl
    · rename_i wrapped _
      rw [outbound_behind]
      cases e.pipes.outbound id wrapped with
      | error cause => rfl
      | ok result =>
        rw [← post_behind]
        rfl

variable [Mul α] [Seconds α]

theorem pump_behind (now : Nat) :
    (e.behind b).pump now = (e.pump now).map fun e' => e'.behind b := by
  cases htimeout : e.roundTrip.timeout with
  | error cause => rw [pump, pump, behind_roundTrip, htimeout]; rfl
  | ok timeout =>
    rw [pump_eq htimeout, pump_eq (e := e.behind b) htimeout, behind_queue, pumped_behind]
    split <;> rfl

theorem send_behind (packet : Bytes) (now : Nat) :
    (e.behind b).send packet now = (e.send packet now).map fun r => (r.1, r.2.behind b) := by
  dsimp +instances only [send, behind_settings, behind_transform, behind_secret, behind_refusal?]
  split
  · rfl
  · split
    · rfl
    · split
      · rfl
      · split
        · rfl
        · rename_i wrapped _ _
          let e₁ := { e with secret := (e.transform.wrap e.secret packet).2 }.enqueuePacket wrapped
          show ((e₁.behind b).pump now >>= fun e' => pure (Except.ok (), e')) =
            (e₁.pump now >>= fun e' => pure (Except.ok (), e')).map fun r => (r.1, r.2.behind b)
          rw [pump_behind]
          cases e₁.pump now <;> rfl

/-! ## Time -/

theorem tickEstablished_behind (now : Nat) :
    (e.behind b).tickEstablished now = (e.tickEstablished now).map fun e' => e'.behind b := by
  dsimp +instances only [tickEstablished, behind_keepalive, behind_nonces]
  split
  · exact congrArg Except.ok
      (goDown_behind { e with keepalive := (e.keepalive.tick now).2 } b .pongTimeout)
  · rw [← pump_behind, ← post_behind]
    rfl
  · exact pump_behind { e with keepalive := (e.keepalive.tick now).2 } b now

theorem tick_behind (now : Nat) :
    (e.behind b).tick now = (e.tick now).map fun e' => e'.behind b := by
  simp only [tick, behind_phase, tickHandshake_behind, tickEstablished_behind]
  split <;> rfl

/-! ## Arriving datagrams -/

variable [Add α] [Sub α]

theorem onAck_behind (seq : UInt32) (now : Nat) :
    (e.behind b).onAck seq now = (e.onAck seq now).map fun e' => e'.behind b := by
  dsimp +instances only [onAck, behind_queue]
  split
  · rfl
  · rename_i sample queue _
    exact pump_behind (e.retire sample queue) b now

theorem onFrame_behind (frame : Frame) (now : Nat) :
    (e.behind b).onFrame frame now = (e.onFrame frame now).map fun e' => e'.behind b := by
  dsimp +instances only [onFrame, behind_phase]
  split
  · exact congrArg Except.ok (onHello_behind e b _ now)
  · split
    · split
      · rfl
      · exact congrArg Except.ok (post_behind e b _)
      · rfl
      · exact onAck_behind e b _ now
      · exact congrArg Except.ok (onData_behind e b _)
      · exact congrArg Except.ok (onPipe_behind e b _ _)
    · rfl

theorem receive_behind (datagram : Bytes) (now : Nat) :
    (e.behind b).receive datagram now = (e.receive datagram now).map fun e' => e'.behind b := by
  simp only [receive, behind_phase, onFrame_behind]
  split
  · rfl
  · split <;> rfl

/-! ## Calls -/

/-- A call does the same behind a backlog, and gives the same answer, unless it takes something out
of a queue in which the backlog has its share. -/
theorem perform_behind {op : Operation} (hsocket : op = .pollTransmit → b.datagrams = [])
    (hnews : op = .pollEvent → b.news = []) :
    (e.behind b).perform op = (e.perform op).map fun r => (r.1, r.2.behind b) := by
  cases op with
  | connect now =>
    simp only [perform, connect_behind]
    cases e.connect now <;> rfl
  | send packet now =>
    simp only [perform, send_behind]
    cases e.send packet now <;> rfl
  | sendRaw id payload => simp only [perform, sendRaw_behind, Except.map]
  | receive datagram now =>
    simp only [perform, receive_behind]
    cases e.receive datagram now <;> rfl
  | tick now =>
    simp only [perform, tick_behind]
    cases e.tick now <;> rfl
  | close => simp only [perform, close_behind, Except.map]
  | socketClosed => simp only [perform, socketClosed_behind, Except.map]
  | pollTransmit => simp only [perform, pollTransmit_behind e b (hsocket rfl), Except.map]
  | pollEvent => simp only [perform, pollEvent_behind e b (hnews rfl), Except.map]

end Endpoint

end DatagramTunnel.Session
