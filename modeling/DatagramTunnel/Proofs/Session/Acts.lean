import DatagramTunnel.Proofs.Session.Intake
import Mathlib.Logic.Relation

/-!
# One act at a time

Within one operation an endpoint may do many things one after the other: it takes in a data frame,
reads the frames whose turn has come, counts a violation, goes down, and still counts another one.
`Act op e e'` lists each single change that can occur during `op`, with the condition under which
it is made; `Acts op` is any number of them.  The `_acts` theorems take the functions of an endpoint
apart into acts, and `perform_deed` says that an operation is a sequence of acts or takes something
out of a queue.  So what every act keeps holds throughout a run (`performAll_induct`).
-/

namespace DatagramTunnel.Session

open Flight Packet Wire

/-- The instant that a call carries. -/
def Operation.instant? : Operation → Option Nat
  | .connect now | .send _ now | .receive _ now | .tick now => some now
  | .sendRaw _ _ | .close | .socketClosed | .pollTransmit | .pollEvent => none

/-- Whether the event brings something from the peer. -/
def Event.isArrival : Event → Bool
  | .packet _ | .raw _ _ => true
  | .up | .failed _ | .down _ => false

/-- A nonce for runs in which the values of the PINGs do not matter. -/
def blankNonce : Nonce := ⟨List.replicate nonceSize 0, List.length_replicate⟩

/-- How the phase moves during an operation, and what the application is told of it. -/
inductive Turn : Phase → List Event → Phase → Prop
  | stay {phase : Phase} : Turn phase [] phase
  | rise : Turn .connecting [.up] .established
  | fail (reason : HandshakeFailure) : Turn .connecting [.failed reason] .closing
  | arrive {event : Event} (arrival : event.isArrival = true) :
    Turn .established [event] .established
  | down (reason : Outage) : Turn .established [.down reason] .closing

namespace Endpoint

variable {α σ : Type}

theorem offered_eq (e : Endpoint α σ) (f : Fragment) :
    e.offered f =
      { e with
        inlet := (e.offered f).inlet
        counters := (e.offered f).counters
        outbox := (e.offered f).outbox } := by
  unfold offered
  dsimp only
  split <;> rfl

variable [Add α] [Sub α] [Mul α] [Seconds α]

/-- A single change of an endpoint during an operation. -/
inductive Act : Operation → Endpoint α σ → Endpoint α σ → Prop
  /-- The transform has been asked. -/
  | secret {op : Operation} {e : Endpoint α σ} (up : e.phase = .established) (secret : σ) :
    Act op e { e with secret := secret }
  /-- A datagram is dropped without an answer. -/
  | drop {datagram : Bytes} {now : Nat} {e : Endpoint α σ} (opened : e.phase.isTerminal = false) :
    Act (.receive datagram now) e
      (e.count fun c => { c with malformedDropped := c.malformedDropped + 1 })
  /-- The first HELLO starts the handshake. -/
  | start {now : Nat} {e : Endpoint α σ} (phase : e.phase = .connecting)
    (first : e.handshakeStarted = none) :
    Act (.connect now) e ({ e with handshakeStarted := some now }.sendHello now)
  /-- The HELLO is repeated. -/
  | retry {now : Nat} {e : Endpoint α σ} (phase : e.phase = .connecting)
    (started : e.handshakeStarted ≠ none)
    (due : e.helloDue now e.settings.helloInterval = true) : Act (.tick now) e (e.sendHello now)
  /-- A late HELLO is answered. -/
  | greet {datagram : Bytes} {now : Nat} {e : Endpoint α σ} (up : e.phase = .established)
    (frame : Frame.decode datagram = .ok (.hello e.token))
    (due : e.helloDue now (e.settings.helloInterval / 2) = true) :
    Act (.receive datagram now) e (e.sendHello now)
  | rise {datagram : Bytes} {now : Nat} {e : Endpoint α σ} (phase : e.phase = .connecting)
    (frame : Frame.decode datagram = .ok (.hello e.token)) :
    Act (.receive datagram now) e ({ e with phase := .established }.notify .up)
  | fail {op : Operation} {e : Endpoint α σ} (phase : e.phase = .connecting)
    {reason : HandshakeFailure} (other : reason ≠ .tokenMismatch) :
    Act op e (e.finish (.failed reason))
  /-- The peer has presented another token. -/
  | mismatch {datagram token : Bytes} {now : Nat} {e : Endpoint α σ}
    (phase : e.phase = .connecting) (frame : Frame.decode datagram = .ok (.hello token))
    (other : token ≠ e.token) :
    Act (.receive datagram now) e (e.finish (.failed .tokenMismatch))
  | down {op : Operation} {e : Endpoint α σ} (up : e.phase = .established) {reason : Outage}
    (other : reason ≠ .pongTimeout) : Act op e (e.finish (.down reason))
  /-- The peer has stopped answering. -/
  | expire {now : Nat} {e : Endpoint α σ} (up : e.phase = .established)
    (alarm : (e.keepalive.tick now).1 = some .timedOut) :
    Act (.tick now) e
      ({ e with keepalive := (e.keepalive.tick now).2 }.finish (.down .pongTimeout))
  | ping {now : Nat} {e : Endpoint α σ} (up : e.phase = .established)
    (alarm : (e.keepalive.tick now).1 = some .ping) :
    Act (.tick now) e
      (({ e with keepalive := (e.keepalive.tick now).2 }.count fun c =>
        { c with pingsSent := c.pingsSent + 1 }).post
          (Frame.ping (e.nonces e.counters.pingsSent)).encode)
  /-- A violation is counted. More than one may be counted for one frame, and the first of them may
  have ended the connection. -/
  | fault {datagram : Bytes} {now : Nat} {e : Endpoint α σ} (phase : e.phase ≠ .connecting) :
    Act (.receive datagram now) e e.recordFault
  | packet {datagram : Bytes} {now : Nat} {e : Endpoint α σ} (up : e.phase = .established)
    (content : Bytes) :
    Act (.receive datagram now) e
      (({ e with violations := 0 }.count fun c =>
        { c with packetsDelivered := c.packetsDelivered + 1 }).notify (.packet content))
  | raw {datagram : Bytes} {now : Nat} {e : Endpoint α σ} (up : e.phase = .established)
    (id : UInt8) (content : Bytes) :
    Act (.receive datagram now) e ({ e with pipes := e.pipes.inbound }.notify (.raw id content))
  /-- The window judges a data frame. -/
  | offer {datagram : Bytes} {now : Nat} {e : Endpoint α σ} {f : Fragment}
    (up : e.phase = .established) (frame : Frame.decode datagram = .ok (.data f)) :
    Act (.receive datagram now) e (e.offered f)
  /-- The assembler reads a frame that the window releases. -/
  | advance {datagram : Bytes} {now : Nat} {e : Endpoint α σ} {f : Fragment}
    {window : ReorderWindow} (up : e.phase = .established)
    (released : e.inlet.window.pop? = some (f, window)) :
    Act (.receive datagram now) e (e.advanced f window)
  | answer {datagram : Bytes} {now : Nat} {e : Endpoint α σ} {nonce : Nonce}
    (up : e.phase = .established) (frame : Frame.decode datagram = .ok (.ping nonce)) :
    Act (.receive datagram now) e (e.post (Frame.pong nonce).encode)
  | heard {datagram : Bytes} {now : Nat} {e : Endpoint α σ} {nonce : Nonce}
    (up : e.phase = .established) (frame : Frame.decode datagram = .ok (.pong nonce)) :
    Act (.receive datagram now) e
      ({ e with keepalive := e.keepalive.heardPong now }.count fun c =>
        { c with pongsReceived := c.pongsReceived + 1 })
  | retire {datagram : Bytes} {now : Nat} {e : Endpoint α σ} {seq : UInt32} {sample : Nat}
    {queue : SendQueue} (up : e.phase = .established)
    (frame : Frame.decode datagram = .ok (.ack seq))
    (known : e.queue.acknowledge? seq now = some (sample, queue)) :
    Act (.receive datagram now) e (e.retire sample queue)
  | enqueue {packet : Bytes} {now : Nat} {e : Endpoint α σ} {wrapped : Bytes}
    (up : e.phase = .established) (fits : wrapped.length ≤ e.settings.maxPacketSize) :
    Act (.send packet now) e (e.enqueuePacket wrapped)
  /-- The send queue runs. -/
  | pump {op : Operation} {now : Nat} {e : Endpoint α σ} {timeout : Nat}
    (instant : op.instant? = some now) (up : e.phase = .established)
    (timeout_eq : e.roundTrip.timeout = .ok timeout) : Act op e (e.pumped now timeout)
  /-- A raw datagram departs. -/
  | launch {id : UInt8} {payload : Bytes} {e : Endpoint α σ} {wrapped datagram : Bytes}
    {pipes : Pipes} (up : e.phase = .established)
    (outbound : e.pipes.outbound id wrapped = .ok (datagram, pipes)) :
    Act (.sendRaw id payload) e ({ e with pipes := pipes }.post datagram)

/-- Changes of an endpoint one after the other during an operation. -/
def Acts (op : Operation) : Endpoint α σ → Endpoint α σ → Prop := Relation.ReflTransGen (Act op)

variable {op : Operation} {e e' : Endpoint α σ}

/-! ## What one act can do -/

namespace Act

/-- What both ends agreed on stays, and so does the source of random values. -/
theorem constants (h : Act op e e') :
    e'.settings = e.settings ∧ e'.token = e.token ∧ e'.transform = e.transform := by
  cases h with
  | offer _ _ =>
    rw [offered_eq]
    exact ⟨rfl, rfl, rfl⟩
  | _ => exact ⟨rfl, rfl, rfl⟩

/-- The phase moves forward, and the application is told. -/
theorem turn (h : Act op e e') :
    ∃ news, e'.events = e.events ++ news ∧ Turn e.phase news e'.phase := by
  cases h with
  | rise phase _ => exact ⟨[.up], rfl, phase ▸ .rise⟩
  | @fail _ _ phase reason _ => exact ⟨[.failed reason], rfl, phase ▸ .fail reason⟩
  | mismatch phase _ _ =>
    exact ⟨[.failed .tokenMismatch], rfl, phase ▸ .fail .tokenMismatch⟩
  | @down _ _ up reason _ => exact ⟨[.down reason], rfl, up ▸ .down reason⟩
  | expire up _ => exact ⟨[.down .pongTimeout], rfl, up ▸ .down .pongTimeout⟩
  | packet up content =>
    refine ⟨[.packet content], rfl, ?_⟩
    show Turn _ _ e.phase
    rw [up]
    exact .arrive rfl
  | raw up id content =>
    refine ⟨[.raw id content], rfl, ?_⟩
    show Turn _ _ e.phase
    rw [up]
    exact .arrive rfl
  | offer _ _ =>
    rw [offered_eq]
    exact ⟨[], (List.append_nil _).symm, .stay⟩
  | _ => exact ⟨[], (List.append_nil _).symm, .stay⟩

/-- Once the connection has ended, violations are still counted, and nothing else happens. -/
theorem terminal (h : Act op e e') (hended : e.phase.isTerminal = true) : e' = e.recordFault := by
  cases h with
  | fault _ => rfl
  | drop opened => simp [opened] at hended
  | start phase | retry phase | rise phase | fail phase | mismatch phase =>
    simp [phase, Phase.isTerminal] at hended
  | secret up | greet up | down up | expire up | ping up | packet up | raw up | offer up
  | advance up | answer up | heard up | retire up | enqueue up | pump _ up | launch up =>
    simp [up, Phase.isTerminal] at hended

theorem ne_connecting (h : Act op e e') (hphase : e.phase ≠ .connecting) :
    e'.phase ≠ .connecting := by
  obtain ⟨news, -, hturn⟩ := h.turn
  revert hphase
  generalize e.phase = before, e'.phase = after at hturn
  cases hturn <;> simp

end Act

/-! ## Endings -/

namespace Acts

theorem refl (e : Endpoint α σ) : Acts op e e := Relation.ReflTransGen.refl

theorem one (h : Act op e e') : Acts op e e' := Relation.ReflTransGen.single h

theorem trans {e'' : Endpoint α σ} (first : Acts op e e') (second : Acts op e' e'') :
    Acts op e e'' := Relation.ReflTransGen.trans first second

/-- What every act keeps, any number of them keep. -/
theorem induct {P : Endpoint α σ → Prop} (step : ∀ {e₁ e₂}, P e₁ → Act op e₁ e₂ → P e₂)
    (h : Acts op e e') (start : P e) : P e' := by
  induction h with
  | refl => exact start
  | tail _ act ih => exact step ih act

theorem ne_connecting (h : Acts op e e') (hphase : e.phase ≠ .connecting) :
    e'.phase ≠ .connecting :=
  h.induct (P := fun e' => e'.phase ≠ .connecting) (fun ih act => act.ne_connecting ih) hphase

theorem constants (h : Acts op e e') :
    e'.settings = e.settings ∧ e'.token = e.token ∧ e'.transform = e.transform := by
  refine h.induct (P := fun e' => e'.settings = e.settings ∧ e'.token = e.token ∧
    e'.transform = e.transform) (fun ih act => ?_) ⟨rfl, rfl, rfl⟩
  obtain ⟨hsettings, htoken, htransform⟩ := act.constants
  exact ⟨hsettings.trans ih.1, htoken.trans ih.2.1, htransform.trans ih.2.2⟩

end Acts

theorem goDown_acts (e : Endpoint α σ) {reason : Outage} (other : reason ≠ .pongTimeout) :
    Acts op e (e.goDown reason) := by
  unfold goDown
  split
  · rename_i hup
    exact .one (.down hup other)
  · exact .refl e

theorem fail_acts (e : Endpoint α σ) {reason : HandshakeFailure}
    (other : reason ≠ .tokenMismatch) : Acts op e (e.fail reason) := by
  unfold fail
  split
  · rename_i hphase
    exact .one (.fail hphase other)
  · exact .refl e

theorem close_acts (e : Endpoint α σ) : Acts op e e.close := by
  unfold close
  split
  · exact fail_acts e nofun
  · exact goDown_acts e nofun
  · exact .refl e
  · exact .refl e

theorem socketClosed_acts (e : Endpoint α σ) : Acts op e e.socketClosed := by
  unfold socketClosed
  split
  · exact fail_acts e nofun
  · exact goDown_acts e nofun
  · exact .refl e
  · exact .refl e

/-! ## Handshake -/

theorem connect_acts {now : Nat} (h : e.connect now = .ok e') : Acts (.connect now) e e' := by
  unfold connect at h
  split at h
  · rename_i hphase
    split at h
    · rename_i hfirst
      exact Except.ok.inj h ▸ .one (.start hphase hfirst)
    · exact Except.ok.inj h ▸ .refl e
  · exact Except.ok.inj h ▸ .refl e
  · cases h
  · cases h

theorem tickHandshake_acts (hphase : e.phase = .connecting) (now : Nat) :
    Acts (.tick now) e (e.tickHandshake now) := by
  unfold tickHandshake
  split
  · exact .refl e
  · rename_i hstarted
    split
    · exact fail_acts e nofun
    · split
      · rename_i hdue
        exact .one (.retry hphase (by simp [hstarted]) hdue)
      · exact .refl e

theorem onHello_acts (e : Endpoint α σ) {datagram token : Bytes} (now : Nat)
    (hframe : Frame.decode datagram = .ok (.hello token)) :
    Acts (.receive datagram now) e (e.onHello token now) := by
  unfold onHello
  cases hphase : e.phase with
  | connecting =>
    dsimp only
    split
    · rename_i htoken
      exact .one (.rise hphase (htoken ▸ hframe))
    · rename_i hother
      rw [fail, if_pos hphase]
      exact .one (.mismatch hphase hframe hother)
  | established =>
    dsimp only
    split
    · rename_i htoken
      split
      · rename_i hdue
        exact .one (.greet hphase (htoken ▸ hframe) hdue)
      · exact .refl e
    · exact .one (.drop (isTerminal_of_established hphase))
  | closing => exact .refl e
  | closed => exact .refl e

/-! ## Arriving packets -/

section Arrival

variable {datagram : Bytes} {now : Nat}

theorem violation_acts (hphase : e.phase ≠ .connecting) :
    Acts (.receive datagram now) e e.violation := by
  have hfault : Acts (.receive datagram now) e e.recordFault := .one (.fault hphase)
  unfold violation
  dsimp only
  split
  · exact hfault.trans (goDown_acts _ nofun)
  · exact hfault

theorem deliver_acts (hup : e.phase = .established) (packet : Bytes) :
    Acts (.receive datagram now) e (e.deliver packet) := by
  unfold deliver
  generalize e.transform.unwrap e.secret packet = result
  obtain ⟨opened, secret⟩ := result
  have hsecret : Acts (.receive datagram now) e { e with secret := secret } :=
    .one (.secret hup secret)
  cases opened with
  | ok content =>
    refine hsecret.trans (.one (.packet ?_ content))
    exact hup
  | error cause =>
    refine hsecret.trans (violation_acts ?_)
    exact fun hphase => nomatch hup.symm.trans hphase

/-- The faults that one frame reveals are all counted, though the first may end the connection. -/
theorem foldl_violation_acts (errors : List AssemblyError) (hphase : e.phase ≠ .connecting) :
    Acts (.receive datagram now) e (errors.foldl (fun e _ => e.violation) e) := by
  induction errors generalizing e with
  | nil => exact .refl e
  | cons error errors ih =>
    have hfirst : Acts (.receive datagram now) e e.violation := violation_acts hphase
    exact hfirst.trans (ih (hfirst.ne_connecting hphase))

theorem absorb_acts (hup : e.phase = .established) (out : Assembled) :
    Acts (.receive datagram now) e (e.absorb out) := by
  have hphase : e.phase ≠ .connecting := fun h => nomatch hup.symm.trans h
  have hfaults : Acts (.receive datagram now) e (out.errors.foldl (fun e _ => e.violation) e) :=
    foldl_violation_acts out.errors hphase
  unfold absorb
  dsimp only
  split
  · rename_i hstill
    split
    · exact hfaults.trans (deliver_acts hstill _)
    · exact hfaults
  · exact hfaults

theorem onData_acts (hup : e.phase = .established) {f : Fragment}
    (hframe : Frame.decode datagram = .ok (.data f)) :
    Acts (.receive datagram now) e (e.onData f) := by
  apply onData_induct (P := fun e' => Acts (.receive datagram now) e e')
  · intro e₁ g window h hup₁ hpop
    have hread : (e₁.advanced g window).phase = .established := hup₁
    exact (h.trans (.one (.advance hup₁ hpop))).trans (absorb_acts hread _)
  · exact .one (.offer hup hframe)

theorem onPipe_acts (hup : e.phase = .established) (id : UInt8) (payload : Bytes) :
    Acts (.receive datagram now) e (e.onPipe id payload) := by
  unfold onPipe
  by_cases hraw : e.settings.transformRaw = true
  · rw [if_pos hraw]
    generalize e.transform.unwrap e.secret payload = result
    obtain ⟨opened, secret⟩ := result
    have hsecret : Acts (.receive datagram now) e { e with secret := secret } :=
      .one (.secret hup secret)
    cases opened with
    | ok content =>
      refine hsecret.trans (.one (.raw ?_ id content))
      exact hup
    | error cause =>
      refine hsecret.trans (violation_acts ?_)
      exact fun hphase => nomatch hup.symm.trans hphase
  · rw [if_neg hraw]
    exact .one (.raw hup id payload)

end Arrival

/-! ## Departing packets -/

theorem pump_acts {now : Nat} (hinstant : op.instant? = some now) (hup : e.phase = .established)
    (h : e.pump now = .ok e') : Acts op e e' := by
  obtain ⟨timeout, htimeout, rfl⟩ := pump_eq_ok h
  exact .one (.pump hinstant hup htimeout)

theorem send_acts {packet : Bytes} {now : Nat} {result : Except TunnelError Unit}
    (h : e.send packet now = .ok (result, e')) : Acts (.send packet now) e e' := by
  rcases send_cases h with ⟨cause, -, rfl | ⟨secret, hup, rfl⟩⟩ |
    ⟨wrapped, secret, -, hup, -, -, hfits, hpump⟩
  · exact .refl _
  · exact .one (.secret hup secret)
  · have hsecret : Acts (.send packet now) e { e with secret := secret } :=
      .one (.secret hup secret)
    have hqueue : Act (.send packet now) { e with secret := secret }
        ({ e with secret := secret }.enqueuePacket wrapped) :=
      .enqueue hup hfits
    exact (hsecret.trans (.one hqueue)).trans (pump_acts rfl hup hpump)

theorem sendRaw_acts (e : Endpoint α σ) (id : UInt8) (payload : Bytes) :
    Acts (.sendRaw id payload) e (e.sendRaw id payload).2 := by
  unfold sendRaw
  cases hrefusal : e.refusal? with
  | some cause => exact .refl e
  | none =>
    have hup := refusal?_eq_none_iff.1 hrefusal
    dsimp only
    generalize (if e.settings.transformRaw = true then e.transform.wrap e.secret payload
      else (.ok payload, e.secret)) = wrapping
    obtain ⟨outcome, secret⟩ := wrapping
    have hsecret : Acts (.sendRaw id payload) e { e with secret := secret } :=
      .one (.secret hup secret)
    cases outcome with
    | error cause => exact hsecret
    | ok wrapped =>
      dsimp only
      split
      · exact hsecret
      · rename_i datagram pipes houtbound
        refine hsecret.trans (.one (.launch ?_ houtbound))
        exact hup

/-! ## Arriving datagrams -/

theorem frame_acts {datagram : Bytes} {frame : Frame} {now : Nat}
    (hframe : Frame.decode datagram = .ok frame) (h : e.onFrame frame now = .ok e') :
    Acts (.receive datagram now) e e' := by
  unfold onFrame at h
  split at h
  · exact Except.ok.inj h ▸ onHello_acts e now hframe
  · split at h
    · rename_i hup
      split at h
      · exact Except.ok.inj h ▸ .refl e
      · exact Except.ok.inj h ▸ .one (.answer hup hframe)
      · exact Except.ok.inj h ▸ .one (.heard hup hframe)
      · unfold onAck at h
        split at h
        · exact Except.ok.inj h ▸ .refl e
        · rename_i hknown
          exact (Acts.one (.retire hup hframe hknown)).trans (pump_acts rfl hup h)
      · exact Except.ok.inj h ▸ onData_acts hup hframe
      · exact Except.ok.inj h ▸ onPipe_acts hup _ _
    · exact Except.ok.inj h ▸ .refl e

theorem receive_acts {datagram : Bytes} {now : Nat} (h : e.receive datagram now = .ok e') :
    Acts (.receive datagram now) e e' := by
  unfold receive at h
  split at h
  · exact Except.ok.inj h ▸ .refl e
  · rename_i hended
    split at h
    · exact Except.ok.inj h ▸ .one (.drop (Bool.eq_false_iff.2 hended))
    · rename_i hframe
      exact frame_acts hframe h

/-! ## Time -/

/-- A tick that raises no alarm leaves the keepalive as it is. -/
theorem keepalive_tick_none {k : Keepalive} {now : Nat} (h : (k.tick now).1 = none) :
    (k.tick now).2 = k := by
  unfold Keepalive.tick at h ⊢
  split
  · simp_all
  · split
    · simp_all
    · split <;> simp_all
  · rfl

theorem tick_acts {now : Nat} (h : e.tick now = .ok e') : Acts (.tick now) e e' := by
  unfold tick at h
  cases hphase : e.phase with
  | connecting =>
    rw [hphase] at h
    exact Except.ok.inj h ▸ tickHandshake_acts hphase now
  | established =>
    rw [hphase] at h
    dsimp only [tickEstablished] at h
    cases halarm : (e.keepalive.tick now).1 with
    | none =>
      rw [halarm, keepalive_tick_none halarm] at h
      exact pump_acts rfl hphase h
    | some alarm =>
      rw [halarm] at h
      cases alarm with
      | ping => exact (Acts.one (.ping hphase halarm)).trans (pump_acts rfl hphase h)
      | timedOut =>
        have hdown := Except.ok.inj h
        rw [goDown, if_pos hphase] at hdown
        exact hdown ▸ .one (.expire hphase halarm)
  | closing =>
    rw [hphase] at h
    exact Except.ok.inj h ▸ .refl e
  | closed =>
    rw [hphase] at h
    exact Except.ok.inj h ▸ .refl e

/-! ## Operations -/

/-- What an operation comes to: acts, or something is taken out of a queue. -/
inductive Deed (e : Endpoint α σ) : Operation → Answer → Endpoint α σ → Prop
  | acts {op : Operation} {answer : Answer} {e' : Endpoint α σ} (acts : Acts op e e')
    (sent : answer.sent = []) (taken : answer.taken = []) : Deed e op answer e'
  /-- The socket takes a datagram. -/
  | transmit {datagram : Bytes} {rest : List Bytes} (outbox : e.outbox = datagram :: rest) :
    Deed e .pollTransmit (.datagram (some datagram))
      ({ e with outbox := rest }.count fun c => { c with datagramsSent := c.datagramsSent + 1 })
  /-- The application takes an event. -/
  | report {event : Event} {rest : List Event} (events : e.events = event :: rest) :
    Deed e .pollEvent (.event (some event)) { e with events := rest }
  /-- The application learns that there is no further event. -/
  | shut (phase : e.phase = .closing) (events : e.events = []) :
    Deed e .pollEvent (.event none) { e with phase := .closed }

theorem pollTransmit_deed (e : Endpoint α σ) :
    Deed e .pollTransmit (.datagram e.pollTransmit.1) e.pollTransmit.2 := by
  unfold pollTransmit
  split
  · exact .acts (.refl e) rfl rfl
  · rename_i houtbox
    exact .transmit houtbox

theorem pollEvent_deed (e : Endpoint α σ) :
    Deed e .pollEvent (.event e.pollEvent.1) e.pollEvent.2 := by
  unfold pollEvent
  split
  · rename_i hevents
    exact .report hevents
  · rename_i hevents
    dsimp only
    split
    · rename_i hphase
      exact .shut hphase hevents
    · exact .acts (.refl e) rfl rfl

theorem perform_deed {answer : Answer} (h : e.perform op = .ok (answer, e')) :
    Deed e op answer e' := by
  cases op with
  | connect now =>
    rw [perform] at h
    split at h
    · rename_i hconnect
      obtain ⟨rfl, rfl⟩ := Prod.mk.inj (Except.ok.inj h)
      exact .acts (connect_acts hconnect) rfl rfl
    · obtain ⟨rfl, rfl⟩ := Prod.mk.inj (Except.ok.inj h)
      exact .acts (.refl e) rfl rfl
  | send packet now =>
    obtain ⟨⟨result, e₁⟩, hsend, hpair⟩ := bind_eq_ok h
    obtain ⟨rfl, rfl⟩ := Prod.mk.inj (Except.ok.inj hpair)
    exact .acts (send_acts hsend) (Answer.sent_ofResult result) (Answer.taken_ofResult result)
  | sendRaw id payload =>
    obtain ⟨rfl, rfl⟩ := Prod.mk.inj (Except.ok.inj h)
    exact .acts (sendRaw_acts e id payload) (Answer.sent_ofResult _) (Answer.taken_ofResult _)
  | receive datagram now =>
    obtain ⟨e₁, hreceive, hpair⟩ := bind_eq_ok h
    obtain ⟨rfl, rfl⟩ := Prod.mk.inj (Except.ok.inj hpair)
    exact .acts (receive_acts hreceive) rfl rfl
  | tick now =>
    obtain ⟨e₁, htick, hpair⟩ := bind_eq_ok h
    obtain ⟨rfl, rfl⟩ := Prod.mk.inj (Except.ok.inj hpair)
    exact .acts (tick_acts htick) rfl rfl
  | close =>
    obtain ⟨rfl, rfl⟩ := Prod.mk.inj (Except.ok.inj h)
    exact .acts (close_acts e) rfl rfl
  | socketClosed =>
    obtain ⟨rfl, rfl⟩ := Prod.mk.inj (Except.ok.inj h)
    exact .acts (socketClosed_acts e) rfl rfl
  | pollTransmit =>
    obtain ⟨rfl, rfl⟩ := Prod.mk.inj (Except.ok.inj h)
    exact pollTransmit_deed e
  | pollEvent =>
    obtain ⟨rfl, rfl⟩ := Prod.mk.inj (Except.ok.inj h)
    exact pollEvent_deed e

/-! ## Runs -/

theorem performAll_cons {answer : Answer} {e₁ : Endpoint α σ} {ops : List Operation}
    {answers : List Answer} (hfirst : e.perform op = .ok (answer, e₁))
    (hrest : e₁.performAll ops = .ok (answers, e')) :
    e.performAll (op :: ops) = .ok (answer :: answers, e') := by
  rw [performAll, hfirst]
  show (e₁.performAll ops >>= fun result => .ok (answer :: result.1, result.2)) = _
  rw [hrest]
  rfl

theorem performAll_cons_cases {ops : List Operation} {all : List Answer}
    (h : e.performAll (op :: ops) = .ok (all, e')) :
    ∃ answer e₁ others, e.perform op = .ok (answer, e₁) ∧ e₁.performAll ops = .ok (others, e') ∧
      all = answer :: others := by
  obtain ⟨⟨answer, e₁⟩, hfirst, hrest⟩ := bind_eq_ok h
  obtain ⟨⟨others, e₂⟩, hothers, hpair⟩ := bind_eq_ok hrest
  obtain ⟨rfl, rfl⟩ := Prod.mk.inj (Except.ok.inj hpair)
  exact ⟨answer, e₁, others, hfirst, hothers, rfl⟩

/-- Two runs, the second from where the first has led, are one run. -/
theorem performAll_append_eq_ok {e₁ e₂ : Endpoint α σ} {first second : List Operation}
    {answers others : List Answer} (hfirst : e.performAll first = .ok (answers, e₁))
    (hsecond : e₁.performAll second = .ok (others, e₂)) :
    e.performAll (first ++ second) = .ok (answers ++ others, e₂) := by
  rw [performAll_append, hfirst]
  show (e₁.performAll second >>= fun result => .ok (answers ++ result.1, result.2)) = _
  rw [hsecond]
  rfl

/-- A run in two parts leads over the endpoint that the first part comes to. -/
theorem performAll_append_cases {first second : List Operation} {all : List Answer}
    (h : e.performAll (first ++ second) = .ok (all, e')) :
    ∃ answers e₁ others, e.performAll first = .ok (answers, e₁) ∧
      e₁.performAll second = .ok (others, e') ∧ all = answers ++ others := by
  rw [performAll_append] at h
  obtain ⟨⟨answers, e₁⟩, hfirst, hrest⟩ := bind_eq_ok h
  obtain ⟨⟨others, e₂⟩, hsecond, hpair⟩ := bind_eq_ok hrest
  obtain ⟨rfl, rfl⟩ := Prod.mk.inj (Except.ok.inj hpair)
  exact ⟨answers, e₁, others, hfirst, hsecond, rfl⟩

theorem performAll_concat {answer : Answer} {e₁ : Endpoint α σ} {ops : List Operation}
    {answers : List Answer} (hrun : e.performAll ops = .ok (answers, e₁))
    (hperform : e₁.perform op = .ok (answer, e')) :
    e.performAll (ops ++ [op]) = .ok (answers ++ [answer], e') :=
  performAll_append_eq_ok hrun (performAll_cons hperform rfl)

theorem performAll_concat_cases {ops : List Operation} {all : List Answer}
    (h : e.performAll (ops ++ [op]) = .ok (all, e')) :
    ∃ answers e₁ answer, e.performAll ops = .ok (answers, e₁) ∧
      e₁.perform op = .ok (answer, e') ∧ all = answers ++ [answer] := by
  obtain ⟨answers, e₁, last, hrun, hlast, rfl⟩ := performAll_append_cases h
  obtain ⟨answer, e₂, others, hperform, hnone, rfl⟩ := performAll_cons_cases hlast
  obtain ⟨rfl, rfl⟩ := Prod.mk.inj (Except.ok.inj hnone)
  exact ⟨answers, e₁, answer, hrun, hperform, rfl⟩

/-- What every operation keeps, of the endpoint together with the answers it has given, holds
throughout a run. -/
theorem performAll_induct {P : List Answer → Endpoint α σ → Prop}
    (step : ∀ {past e op answer e'}, P past e → e.perform op = .ok (answer, e') →
      P (past ++ [answer]) e')
    {ops : List Operation} {past answers : List Answer} (start : P past e)
    (h : e.performAll ops = .ok (answers, e')) : P (past ++ answers) e' := by
  induction ops generalizing e past answers with
  | nil =>
    obtain ⟨rfl, rfl⟩ := Prod.mk.inj (Except.ok.inj h)
    rw [List.append_nil]
    exact start
  | cons op ops ih =>
    obtain ⟨answer, e₁, others, hfirst, hothers, rfl⟩ := performAll_cons_cases h
    have hnext := ih (step start hfirst) hothers
    rwa [List.append_assoc] at hnext

/-- A new endpoint in the clear, with exact round-trip times. -/
def blank (settings : Settings) (token : Bytes) : Except TunnelError (Endpoint Rat Unit) :=
  create settings token .plain () fun _ => blankNonce

/-- What such an endpoint comes to by these operations. -/
def trial (settings : Settings) (token : Bytes) (ops : List Operation) :
    Option (List Answer × Endpoint Rat Unit) :=
  (blank settings token).toOption.bind fun e => (e.performAll ops).toOption

/-- A trial that comes to something shows a run. -/
theorem exists_of_trial {settings : Settings} {token : Bytes} {ops : List Operation}
    {p : List Answer × Endpoint Rat Unit → Bool} (h : (trial settings token ops).any p = true) :
    ∃ nonces e₀ answers e, create settings token .plain () nonces = .ok e₀ ∧
      e₀.performAll ops = .ok (answers, e) ∧ p (answers, e) = true := by
  obtain ⟨⟨answers, e⟩, hresult, hp⟩ := (Option.any_eq_true _ _).1 h
  obtain ⟨e₀, hcreate, hrun⟩ := Option.bind_eq_some_iff.1 hresult
  exact ⟨_, e₀, answers, e, eq_ok_of_toOption hcreate, eq_ok_of_toOption hrun, hp⟩

end Endpoint

end DatagramTunnel.Session
