import DatagramTunnel.Proofs.Session.Conduct
import DatagramTunnel.Session.Polling

/-!
# What an operation comes to

`Move` covers what leaves the data of a connection alone.  What does move them is listed by
`Outcome e op answer e'`: a packet is queued, a tick lets the send queue run, an acknowledgement
retires a frame, a data frame is taken in, or the application takes something out of a queue.
`perform_outcome` says that an operation does nothing else, so a property of endpoints is kept by
every operation if it is kept in these seven cases.

Beside each case stands what it adds to the history of the endpoint: the frames it numbers
(`numbers`), the frame it admits (`admits`), and what the answer hands out.
-/

namespace DatagramTunnel.Session

open Flight Packet Wire

theorem eq_ok_of_toOption {ε γ : Type} {result : Except ε γ} {x : γ}
    (h : result.toOption = some x) : result = .ok x := by
  cases result with
  | error cause => cases h
  | ok y => exact congrArg Except.ok (Option.some.inj h)

/-- A check that a result passes has a result to look at. -/
theorem exists_of_any_toOption {ε γ : Type} {result : Except ε γ} {p : γ → Bool}
    (h : result.toOption.any p = true) : ∃ x, result = .ok x ∧ p x = true := by
  obtain ⟨x, hx, hp⟩ := (Option.any_eq_true _ _).1 h
  exact ⟨x, eq_ok_of_toOption hx, hp⟩

/-! ## Histories -/

/-- The datagram that a call hands to the socket. -/
def Answer.sent : Answer → List Bytes
  | .datagram next => next.toList
  | _ => []

/-- The event that a call hands to the application. -/
def Answer.taken : Answer → List Event
  | .event next => next.toList
  | _ => []

@[simp] theorem Answer.sent_ofResult (result : Except TunnelError Unit) :
    (Answer.ofResult result).sent = [] := by
  cases result <;> rfl

@[simp] theorem Answer.taken_ofResult (result : Except TunnelError Unit) :
    (Answer.ofResult result).taken = [] := by
  cases result <;> rfl

@[simp] theorem Answer.taken_done : Answer.done.taken = [] := rfl

@[simp] theorem Answer.taken_datagram (next : Option Bytes) :
    (Answer.datagram next).taken = [] := rfl

/-- The packet that a call takes for delivery. -/
def Operation.accepted : Operation → Answer → List Bytes
  | .send packet _, .done => [packet]
  | _, _ => []

namespace Endpoint

variable {α σ : Type}

/-- The data frames that a call numbers. -/
def numbers (e : Endpoint α σ) : Operation → Answer → List Fragment
  | .send packet _, .done =>
    match (e.transform.wrap e.secret packet).1 with
    | .ok wrapped => e.splitter.fragments wrapped
    | .error _ => []
  | _, _ => []

/-- A packet that is taken is numbered as it was wrapped. -/
theorem numbers_send {e : Endpoint α σ} {packet wrapped : Bytes} {secret : σ}
    (h : e.transform.wrap e.secret packet = (.ok wrapped, secret)) (now : Nat) :
    e.numbers (.send packet now) .done = e.splitter.fragments wrapped := by
  simp only [numbers, h]

/-- The data frame in an arriving datagram, if the connection is up. -/
def arriving? (e : Endpoint α σ) (datagram : Bytes) : Option Fragment :=
  match e.phase, Frame.decode datagram with
  | .established, .ok (.data f) => some f
  | _, _ => none

/-- The data frame that a call takes into the window. -/
def admits (e : Endpoint α σ) : Operation → List Fragment
  | .receive datagram _ =>
    match e.arriving? datagram with
    | some f => if e.inlet.window.classify f.seq = .accepted then [f] else []
    | none => []
  | _ => []

theorem arriving?_eq_some_iff {e : Endpoint α σ} {datagram : Bytes} {f : Fragment} :
    e.arriving? datagram = some f ↔
      e.phase = .established ∧ Frame.decode datagram = .ok (.data f) := by
  unfold arriving?
  split
  · rename_i g hphase hframe
    simp [hphase, hframe]
  · rename_i hnot
    constructor
    · intro h
      cases h
    · rintro ⟨hphase, hframe⟩
      exact absurd hframe (hnot f hphase)

/-- A datagram that is no data frame, or comes while the connection is not up, brings none. -/
theorem arriving?_eq_none {e : Endpoint α σ} {datagram : Bytes}
    (h : e.phase = .established → ∀ f, Frame.decode datagram ≠ .ok (.data f)) :
    e.arriving? datagram = none := by
  refine Option.eq_none_iff_forall_ne_some.2 fun f hf => ?_
  obtain ⟨hup, hframe⟩ := arriving?_eq_some_iff.1 hf
  exact h hup f hframe

/-! ## The queues -/

theorem takeDatagrams_snd (limit : Nat) (e : Endpoint α σ) :
    (takeDatagrams limit e).2 =
      { e with
        outbox := e.outbox.drop limit
        counters := { e.counters with
          datagramsSent := e.counters.datagramsSent + min limit e.outbox.length } } := by
  induction limit generalizing e with
  | zero => simp [takeDatagrams]
  | succ limit ih =>
    cases h : e.outbox with
    | nil =>
      have hstop : takeDatagrams (limit + 1) e = ([], e) := by
        simp [takeDatagrams, pollTransmit, h]
      rw [hstop, List.drop_nil, List.length_nil, Nat.min_zero, Nat.add_zero, ← h]
    | cons datagram rest =>
      simp only [takeDatagrams, pollTransmit, h, ih, count, List.drop_succ_cons, List.length_cons]
      have hcount : e.counters.datagramsSent + 1 + min limit rest.length =
          e.counters.datagramsSent + min (limit + 1) (rest.length + 1) := by
        omega
      rw [hcount]

/-- Emptying the outbox changes nothing but the count of datagrams. -/
theorem drainOutbox_snd (e : Endpoint α σ) :
    e.drainOutbox.2 =
      { e with
        outbox := []
        counters := { e.counters with
          datagramsSent := e.counters.datagramsSent + e.outbox.length } } := by
  rw [drainOutbox, takeDatagrams_snd, List.drop_length, Nat.min_self]

/-- The endpoint after its send queue has run with this timeout. -/
def pumped (e : Endpoint α σ) (now timeout : Nat) : Endpoint α σ :=
  { e with
    queue := (e.queue.ticked now timeout).2
    outbox := e.outbox ++ (e.queue.ticked now timeout).1.datagrams }.count fun c =>
      { c with
        framesSent := c.framesSent + (e.queue.ticked now timeout).1.admitted
        retransmissions := c.retransmissions + (e.queue.ticked now timeout).1.retransmitted }

/-- The endpoint after an acknowledgement has taken a frame out of the queue. -/
def retire [Add α] [Sub α] [Mul α] [Seconds α] (e : Endpoint α σ) (sample : Nat)
    (queue : SendQueue) : Endpoint α σ :=
  { e with queue, roundTrip := e.roundTrip.update sample }.count fun c =>
    { c with acksReceived := c.acksReceived + 1 }

variable [Mul α] [Seconds α]

/-- The send queue can run: there is a timeout, and no deadline is after the last instant. -/
def Pumpable (e : Endpoint α σ) (now : Nat) : Prop :=
  ∃ timeout, e.roundTrip.timeout = .ok timeout ∧ e.queue.schedule.InReach now timeout

theorem pump_eq {e : Endpoint α σ} {timeout : Nat} (h : e.roundTrip.timeout = .ok timeout)
    (now : Nat) :
    e.pump now = if e.queue.schedule.InReach now timeout then .ok (e.pumped now timeout)
      else .error .outOfReach := by
  rw [pump, h]
  show (e.queue.tick now timeout >>= _) = _
  rw [SendQueue.tick_eq]
  split <;> rfl

theorem pump_of_inReach {e : Endpoint α σ} {now timeout : Nat}
    (h : e.roundTrip.timeout = .ok timeout) (hreach : e.queue.schedule.InReach now timeout) :
    e.pump now = .ok (e.pumped now timeout) := by
  rw [pump_eq h, if_pos hreach]

theorem pump_eq_ok_iff {e e' : Endpoint α σ} {now : Nat} :
    e.pump now = .ok e' ↔ ∃ timeout, e.roundTrip.timeout = .ok timeout ∧
      e.queue.schedule.InReach now timeout ∧ e' = e.pumped now timeout := by
  constructor
  · intro h
    obtain ⟨timeout, htimeout, hrest⟩ := bind_eq_ok h
    obtain ⟨result, htick, hpumped⟩ := bind_eq_ok hrest
    obtain ⟨hreach, rfl⟩ := SendQueue.tick_eq_ok_iff.1 htick
    exact ⟨timeout, htimeout, hreach, (Except.ok.inj hpumped).symm⟩
  · rintro ⟨timeout, htimeout, hreach, rfl⟩
    exact pump_of_inReach htimeout hreach

theorem pump_eq_ok {e e' : Endpoint α σ} {now : Nat} (h : e.pump now = .ok e') :
    ∃ timeout, e.roundTrip.timeout = .ok timeout ∧ e' = e.pumped now timeout := by
  obtain ⟨timeout, htimeout, -, hpumped⟩ := pump_eq_ok_iff.1 h
  exact ⟨timeout, htimeout, hpumped⟩

theorem exists_pump_iff {e : Endpoint α σ} {now : Nat} :
    (∃ e', e.pump now = .ok e') ↔ e.Pumpable now := by
  constructor
  · rintro ⟨e', h⟩
    obtain ⟨timeout, htimeout, hreach, -⟩ := pump_eq_ok_iff.1 h
    exact ⟨timeout, htimeout, hreach⟩
  · rintro ⟨timeout, htimeout, hreach⟩
    exact ⟨_, pump_of_inReach htimeout hreach⟩

/-- Either there is no timeout, or there is one and a deadline is no instant. -/
theorem pump_eq_error {e : Endpoint α σ} {now : Nat} {cause : TimeError}
    (h : e.pump now = .error cause) :
    e.roundTrip.timeout = .error cause ∨ ∃ timeout, e.roundTrip.timeout = .ok timeout ∧
      cause = .outOfReach ∧ ¬ e.queue.schedule.InReach now timeout := by
  rcases bind_eq_error h with htimeout | ⟨timeout, htimeout, hrest⟩
  · exact .inl htimeout
  rcases bind_eq_error hrest with htick | ⟨result, -, hdone⟩
  · exact .inr ⟨timeout, htimeout, SendQueue.eq_outOfReach_of_tick htick⟩
  · cases hdone

/-- The timer can be set: it is known how long the next tick may wait, and when that is over is not
after the last instant. -/
def Wakes (e : Endpoint α σ) (now : Nat) : Prop :=
  ∃ interval, e.nextTickInterval = .ok interval ∧ now + interval ≤ lastInstant

theorem Wakes.mono {e : Endpoint α σ} {now later : Nat} (h : e.Wakes later) (hle : now ≤ later) :
    e.Wakes now := by
  obtain ⟨interval, hinterval, hreach⟩ := h
  exact ⟨interval, hinterval, Nat.le_trans (Nat.add_le_add_right hle interval) hreach⟩

/-- A tick ends the connection or lets the send queue run. -/
theorem tick_up {e e' : Endpoint α σ} (hup : e.phase = .established) {now : Nat}
    (h : e.tick now = .ok e') :
    (∃ e₁, Move e [] e₁ ∧ e₁.pump now = .ok e') ∨ Move e [] e' ∧ e'.phase = .closing := by
  rw [tick, hup] at h
  dsimp only [tickEstablished] at h
  have hwatch : Move e [] { e with keepalive := (e.keepalive.tick now).2 } :=
    .adjust rfl (Nat.le_refl _)
  split at h
  · right
    have hdown := Except.ok.inj h
    subst hdown
    refine ⟨hwatch.trans (goDown_move _ _), ?_⟩
    rw [goDown, if_pos hup]
    rfl
  · left
    refine ⟨_, ?_, h⟩
    refine Move.adjusted ?_ ?_ (.post (.ping _) ?_ trivial)
    · rfl
    · exact Nat.le_refl _
    · exact isTerminal_of_established hup
  · exact .inl ⟨_, hwatch, h⟩

/-- A packet that may be sent is wrapped and queued, and the send queue runs; otherwise at most the
transform has been asked. -/
theorem send_cases {e e' : Endpoint α σ} {packet : Bytes} {now : Nat}
    {result : Except TunnelError Unit} (h : e.send packet now = .ok (result, e')) :
    (∃ cause, result = .error cause ∧
      (e' = e ∨ ∃ secret, e.phase = .established ∧ e' = { e with secret := secret })) ∨
    ∃ wrapped secret, result = .ok () ∧ e.phase = .established ∧
      e.transform.wrap e.secret packet = (.ok wrapped, secret) ∧
      packet.length ≤ e.settings.maxPacketSize ∧ wrapped.length ≤ e.settings.maxPacketSize ∧
      ({ e with secret := secret }.enqueuePacket wrapped).pump now = .ok e' := by
  unfold send at h
  cases hrefusal : e.refusal? with
  | some cause =>
    rw [hrefusal] at h
    obtain ⟨rfl, rfl⟩ := Prod.mk.inj (Except.ok.inj h)
    exact .inl ⟨cause, rfl, .inl rfl⟩
  | none =>
    rw [hrefusal] at h
    have hup := refusal?_eq_none_iff.1 hrefusal
    generalize hwrap : e.transform.wrap e.secret packet = wrapping at h
    obtain ⟨outcome, secret⟩ := wrapping
    dsimp only at h
    split at h
    · obtain ⟨rfl, rfl⟩ := Prod.mk.inj (Except.ok.inj h)
      exact .inl ⟨_, rfl, .inl rfl⟩
    · rename_i hsmall
      cases outcome with
      | error cause =>
        obtain ⟨rfl, rfl⟩ := Prod.mk.inj (Except.ok.inj h)
        exact .inl ⟨_, rfl, .inr ⟨secret, hup, rfl⟩⟩
      | ok wrapped =>
        dsimp only at h
        split at h
        · obtain ⟨rfl, rfl⟩ := Prod.mk.inj (Except.ok.inj h)
          exact .inl ⟨_, rfl, .inr ⟨secret, hup, rfl⟩⟩
        · rename_i hfits
          obtain ⟨e₁, hpump, hpair⟩ := bind_eq_ok h
          obtain ⟨rfl, rfl⟩ := Prod.mk.inj (Except.ok.inj hpair)
          exact .inr ⟨wrapped, secret, rfl, hup, rfl, Nat.le_of_not_lt hsmall,
            Nat.le_of_not_lt hfits, hpump⟩

/-! ## The cases -/

variable [Add α] [Sub α]

/-- What an operation comes to. -/
inductive Outcome (e : Endpoint α σ) : Operation → Answer → Endpoint α σ → Prop
  /-- The data stay where they are, or all of them are dropped. -/
  | aside {op : Operation} {answer : Answer} {marks : List Mark} {e' : Endpoint α σ}
    (move : Move e marks e') (silent : ∀ content, Mark.packet content ∉ marks)
    (clean : e.transform = .plain → marks = []) (numbers : e.numbers op answer = [])
    (admits : e.admits op = []) (sent : answer.sent = []) (taken : answer.taken = [])
    (accepted : op.accepted answer = []) : Outcome e op answer e'
  /-- A packet is wrapped, cut and queued. -/
  | accept {packet wrapped : Bytes} {secret : σ} {now : Nat} {e' : Endpoint α σ}
    (up : e.phase = .established) (wrap : e.transform.wrap e.secret packet = (.ok wrapped, secret))
    (small : packet.length ≤ e.settings.maxPacketSize)
    (fits : wrapped.length ≤ e.settings.maxPacketSize)
    (pump : ({ e with secret := secret }.enqueuePacket wrapped).pump now = .ok e') :
    Outcome e (.send packet now) .done e'
  /-- The send queue runs. -/
  | pulse {now : Nat} {e₁ e' : Endpoint α σ} (up : e.phase = .established) (move : Move e [] e₁)
    (pump : e₁.pump now = .ok e') : Outcome e (.tick now) .done e'
  /-- An acknowledgement retires a frame. -/
  | retire {datagram : Bytes} {seq : UInt32} {sample now : Nat} {queue : SendQueue}
    {e' : Endpoint α σ} (up : e.phase = .established)
    (frame : Frame.decode datagram = .ok (.ack seq))
    (known : e.queue.acknowledge? seq now = some (sample, queue))
    (pump : (e.retire sample queue).pump now = .ok e') : Outcome e (.receive datagram now) .done e'
  /-- A data frame arrives. -/
  | piece {datagram : Bytes} {f : Fragment} {now : Nat} (up : e.phase = .established)
    (frame : Frame.decode datagram = .ok (.data f)) :
    Outcome e (.receive datagram now) .done (e.onData f)
  /-- The socket takes a datagram. -/
  | transmit {datagram : Bytes} {rest : List Bytes} (outbox : e.outbox = datagram :: rest) :
    Outcome e .pollTransmit (.datagram (some datagram))
      ({ e with outbox := rest }.count fun c => { c with datagramsSent := c.datagramsSent + 1 })
  /-- The application takes an event. -/
  | report {event : Event} {rest : List Event} (events : e.events = event :: rest) :
    Outcome e .pollEvent (.event (some event)) { e with events := rest }

namespace Outcome

variable {e e' : Endpoint α σ} {op : Operation} {answer : Answer}

/-- A move without marks, by an operation that adds nothing to the history. -/
theorem quiet (move : Move e [] e') (numbers : e.numbers op answer = [])
    (admits : e.admits op = []) (sent : answer.sent = []) (taken : answer.taken = [])
    (accepted : op.accepted answer = []) : Outcome e op answer e' :=
  .aside move (fun _ => List.not_mem_nil) (fun _ => rfl) numbers admits sent taken accepted

end Outcome

theorem connect_outcome {e e' : Endpoint α σ} {now : Nat} {answer : Answer}
    (h : e.perform (.connect now) = .ok (answer, e')) : Outcome e (.connect now) answer e' := by
  rw [perform] at h
  split at h
  · rename_i e₁ hconnect
    obtain ⟨rfl, rfl⟩ := Prod.mk.inj (Except.ok.inj h)
    exact .quiet (connect_move hconnect) rfl rfl rfl rfl rfl
  · obtain ⟨rfl, rfl⟩ := Prod.mk.inj (Except.ok.inj h)
    exact .quiet (.refl e) rfl rfl rfl rfl rfl

theorem send_outcome {e e' : Endpoint α σ} {packet : Bytes} {now : Nat} {answer : Answer}
    (h : e.perform (.send packet now) = .ok (answer, e')) :
    Outcome e (.send packet now) answer e' := by
  obtain ⟨⟨result, e₁⟩, hsend, hpair⟩ := bind_eq_ok h
  obtain ⟨rfl, rfl⟩ := Prod.mk.inj (Except.ok.inj hpair)
  rcases send_cases hsend with ⟨cause, rfl, rfl | ⟨secret, -, rfl⟩⟩ |
    ⟨wrapped, secret, rfl, hup, hwrap, hsmall, hfits, hpump⟩
  · exact .quiet (.refl _) rfl rfl rfl rfl rfl
  · exact .quiet (.afterSecret secret (.refl _)) rfl rfl rfl rfl rfl
  · exact .accept hup hwrap hsmall hfits hpump

theorem receive_quiet {e e' : Endpoint α σ} {datagram : Bytes} {now : Nat}
    (h : e.phase = .established → ∀ f, Frame.decode datagram ≠ .ok (.data f))
    (move : Move e [] e') : Outcome e (.receive datagram now) .done e' := by
  refine .quiet move rfl ?_ rfl rfl rfl
  rw [admits, arriving?_eq_none h]

theorem frame_outcome {e e' : Endpoint α σ} {datagram : Bytes} {frame : Frame} {now : Nat}
    (hup : e.phase = .established) (hframe : Frame.decode datagram = .ok frame)
    (h : e.onFrame frame now = .ok e') : Outcome e (.receive datagram now) .done e' := by
  have hopen := isTerminal_of_established hup
  cases frame with
  | hello token =>
    refine receive_quiet (by simp [hframe]) ?_
    exact Except.ok.inj h ▸ onHello_move e token now
  | ping nonce =>
    dsimp only [onFrame] at h
    rw [if_pos hup] at h
    refine receive_quiet (by simp [hframe]) ?_
    exact Except.ok.inj h ▸ .post (.pong nonce) hopen trivial
  | pong nonce =>
    dsimp only [onFrame] at h
    rw [if_pos hup] at h
    refine receive_quiet (by simp [hframe]) ?_
    exact Except.ok.inj h ▸ .adjust rfl (Nat.le_refl _)
  | ack seq =>
    dsimp only [onFrame, onAck] at h
    rw [if_pos hup] at h
    cases hknown : e.queue.acknowledge? seq now with
    | none =>
      rw [hknown] at h
      refine receive_quiet (by simp [hframe]) ?_
      exact Except.ok.inj h ▸ .refl e
    | some result =>
      rw [hknown] at h
      exact .retire hup hframe hknown h
  | data f =>
    dsimp only [onFrame] at h
    rw [if_pos hup] at h
    exact Except.ok.inj h ▸ .piece hup hframe
  | pipe id payload =>
    dsimp only [onFrame] at h
    rw [if_pos hup] at h
    obtain ⟨marks, hmove, hsilent, hclean⟩ := onPipe_move hopen id payload
    refine .aside (Except.ok.inj h ▸ hmove) hsilent hclean rfl ?_ rfl rfl rfl
    rw [admits, arriving?_eq_none (by simp [hframe])]

theorem receive_outcome {e e' : Endpoint α σ} {datagram : Bytes} {now : Nat}
    (h : e.receive datagram now = .ok e') : Outcome e (.receive datagram now) .done e' := by
  rw [receive] at h
  by_cases hterminal : e.phase.isTerminal = true
  · rw [if_pos hterminal] at h
    refine receive_quiet (fun hup => ?_) (Except.ok.inj h ▸ .refl e)
    rw [hup] at hterminal
    cases hterminal
  · rw [if_neg hterminal] at h
    cases hframe : Frame.decode datagram with
    | error cause =>
      rw [hframe] at h
      refine receive_quiet (by simp [hframe]) ?_
      exact Except.ok.inj h ▸ .adjust rfl (Nat.le_refl _)
    | ok frame =>
      rw [hframe] at h
      by_cases hup : e.phase = .established
      · exact frame_outcome hup hframe h
      · refine receive_quiet (fun hphase => absurd hphase hup) ?_
        cases frame with
        | hello token => exact Except.ok.inj h ▸ onHello_move e token now
        | _ =>
          dsimp only [onFrame] at h
          rw [if_neg hup] at h
          exact Except.ok.inj h ▸ .refl e

theorem tick_outcome {e e' : Endpoint α σ} {now : Nat} (h : e.tick now = .ok e') :
    Outcome e (.tick now) .done e' := by
  have hquiet : ∀ {e₁ : Endpoint α σ}, Move e [] e₁ → Outcome e (.tick now) .done e₁ :=
    fun hmove => .quiet hmove rfl rfl rfl rfl rfl
  cases hphase : e.phase with
  | connecting =>
    rw [tick, hphase] at h
    exact hquiet (Except.ok.inj h ▸ tickHandshake_move hphase now)
  | established =>
    rcases tick_up hphase h with ⟨e₁, hmove, hpump⟩ | ⟨hmove, -⟩
    · exact .pulse hphase hmove hpump
    · exact hquiet hmove
  | closing =>
    rw [tick, hphase] at h
    exact hquiet (Except.ok.inj h ▸ .refl e)
  | closed =>
    rw [tick, hphase] at h
    exact hquiet (Except.ok.inj h ▸ .refl e)

theorem sendRaw_outcome (e : Endpoint α σ) (id : UInt8) (payload : Bytes) :
    Outcome e (.sendRaw id payload) (.ofResult (e.sendRaw id payload).1)
      (e.sendRaw id payload).2 :=
  .quiet (sendRaw_move e id payload) rfl rfl (Answer.sent_ofResult _) (Answer.taken_ofResult _) rfl

/-- While the connection is up, every frame that arrives is acted on. -/
theorem receive_established {e : Endpoint α σ} (hup : e.phase = .established) {datagram : Bytes}
    {frame : Frame} (hframe : Frame.decode datagram = .ok frame) (now : Nat) :
    e.receive datagram now = e.onFrame frame now := by
  have hopen : ¬ e.phase.isTerminal = true := by
    rw [isTerminal_of_established hup]
    exact Bool.false_ne_true
  rw [receive, if_neg hopen, hframe]

/-- An acknowledgement that arrives while the connection is up goes to the send queue. -/
theorem receive_ack {e : Endpoint α σ} (hup : e.phase = .established) {datagram : Bytes}
    {seq : UInt32} (hframe : Frame.decode datagram = .ok (.ack seq)) (now : Nat) :
    e.receive datagram now = e.onAck seq now := by
  rw [receive_established hup hframe]
  dsimp only [onFrame]
  rw [if_pos hup]

/-- A data frame that arrives while the connection is up goes to the window. -/
theorem receive_data {e : Endpoint α σ} (hup : e.phase = .established) {datagram : Bytes}
    {f : Fragment} (hframe : Frame.decode datagram = .ok (.data f)) (now : Nat) :
    e.receive datagram now = .ok (e.onData f) := by
  rw [receive_established hup hframe]
  dsimp only [onFrame]
  rw [if_pos hup]

/-- A PONG that arrives while the connection is up is heard by the keepalive. -/
theorem receive_pong {e : Endpoint α σ} (hup : e.phase = .established) {datagram : Bytes}
    {nonce : Nonce} (hframe : Frame.decode datagram = .ok (.pong nonce)) (now : Nat) :
    e.receive datagram now =
      .ok ({ e with keepalive := e.keepalive.heardPong now }.count fun c =>
        { c with pongsReceived := c.pongsReceived + 1 }) := by
  rw [receive_established hup hframe]
  dsimp only [onFrame]
  rw [if_pos hup]

theorem pollTransmit_outcome (e : Endpoint α σ) :
    Outcome e .pollTransmit (.datagram e.pollTransmit.1) e.pollTransmit.2 := by
  cases houtbox : e.outbox with
  | nil =>
    have hpoll : e.pollTransmit = (none, e) := by simp [pollTransmit, houtbox]
    rw [hpoll]
    exact .quiet (.refl e) rfl rfl rfl rfl rfl
  | cons datagram rest =>
    have hpoll : e.pollTransmit = (some datagram, { e with outbox := rest }.count fun c =>
        { c with datagramsSent := c.datagramsSent + 1 }) := by simp [pollTransmit, houtbox]
    rw [hpoll]
    exact .transmit houtbox

theorem pollEvent_outcome (e : Endpoint α σ) :
    Outcome e .pollEvent (.event e.pollEvent.1) e.pollEvent.2 := by
  cases hevents : e.events with
  | nil =>
    have hpoll : e.pollEvent =
        (none, if e.phase = .closing then { e with phase := .closed } else e) := by
      simp [pollEvent, hevents]
    rw [hpoll]
    refine .quiet ?_ rfl rfl rfl rfl rfl
    dsimp only
    split
    · rename_i hphase
      exact .shut hphase
    · exact .refl e
  | cons event rest =>
    have hpoll : e.pollEvent = (some event, { e with events := rest }) := by
      simp [pollEvent, hevents]
    rw [hpoll]
    exact .report hevents

/-- Every operation comes to one of the seven. -/
theorem perform_outcome {e e' : Endpoint α σ} {op : Operation} {answer : Answer}
    (h : e.perform op = .ok (answer, e')) : Outcome e op answer e' := by
  cases op with
  | connect now => exact connect_outcome h
  | send packet now => exact send_outcome h
  | sendRaw id payload =>
    obtain ⟨rfl, rfl⟩ := Prod.mk.inj (Except.ok.inj h)
    exact sendRaw_outcome e id payload
  | receive datagram now =>
    obtain ⟨e₁, hreceive, hpair⟩ := bind_eq_ok h
    obtain ⟨rfl, rfl⟩ := Prod.mk.inj (Except.ok.inj hpair)
    exact receive_outcome hreceive
  | tick now =>
    obtain ⟨e₁, htick, hpair⟩ := bind_eq_ok h
    obtain ⟨rfl, rfl⟩ := Prod.mk.inj (Except.ok.inj hpair)
    exact tick_outcome htick
  | close =>
    obtain ⟨rfl, rfl⟩ := Prod.mk.inj (Except.ok.inj h)
    exact .quiet (close_move e) rfl rfl rfl rfl rfl
  | socketClosed =>
    obtain ⟨rfl, rfl⟩ := Prod.mk.inj (Except.ok.inj h)
    exact .quiet (socketClosed_move e) rfl rfl rfl rfl rfl
  | pollTransmit =>
    obtain ⟨rfl, rfl⟩ := Prod.mk.inj (Except.ok.inj h)
    exact pollTransmit_outcome e
  | pollEvent =>
    obtain ⟨rfl, rfl⟩ := Prod.mk.inj (Except.ok.inj h)
    exact pollEvent_outcome e

end Endpoint

end DatagramTunnel.Session
