import DatagramTunnel.Proofs.Session.Streaming

/-!
# Endpoints that have just been opened

`Opened` is the state of an endpoint that has exchanged HELLOs and has read nothing since.  What it
sends before it hears anything more is `Loaded`: the frames of a consignment, of which it has put in
flight as many as the window allows.  `Loaded.send` says that every packet that is not too long is
taken, and joins the consignment at its end.
-/

namespace DatagramTunnel.Session.Endpoint

open Flight Packet Wire

variable {α σ : Type}

/-- An endpoint that is up, reads packets of at most `limit` bytes in the clear, and has read
nothing. -/
structure Opened (e : Endpoint α σ) (limit : Nat) : Prop where
  up : e.phase = .established
  plain : e.transform = .plain
  cursor_eq : e.inlet.window.cursor = 0
  held_eq : e.inlet.window.held = []
  size_pos : 0 < e.inlet.window.size
  assembler_eq : e.inlet.assembler = ⟨limit, .idle⟩
  clean : e.counters.protocolViolations = 0
  calm : e.violations = 0
  delivered_eq : e.delivered [] = []

/-- Whatever is coming, nothing of it has been read. -/
theorem Opened.following {e : Endpoint α σ} {c : Consignment} (h : e.Opened c.limit) :
    e.Following c 0 := by
  refine ⟨h.up, h.cursor_eq, h.held_eq, h.size_pos, h.plain, h.clean, h.calm, ?_, ?_⟩
  · intro _
    refine ⟨.idle, h.assembler_eq, ?_⟩
    rw [h.delivered_eq]
    exact .nil c.limit .idle
  · rw [h.delivered_eq]
    exact List.nil_prefix

/-- An endpoint that has numbered the frames of this consignment, and has sent what the window
allows of them and nothing else. -/
structure Loaded (e : Endpoint α σ) (now : Nat) (c : Consignment) : Prop where
  streaming : e.Streaming now c.frames 0
  next : e.splitter.nextSeq = UInt32.ofNat c.frames.length
  outbox_eq : e.outbox = (c.frames.take e.queue.window).map fun f => (Frame.data f).encode
  limit : e.settings.maxPacketSize ≤ maxTotal

/-! ## The handshake -/

/-- A new endpoint that is told to connect says HELLO. -/
theorem New.connect {e e' : Endpoint α σ} {settings : Settings} {token : Bytes}
    {transform : Transform σ} (h : e.New settings token transform) {now : Nat}
    (hconnect : e.connect now = .ok e') :
    e' = { e with
      handshakeStarted := some now
      lastHello := some now
      outbox := [(Frame.hello token).encode] } := by
  have hstep : e.connect now = .ok ({ e with handshakeStarted := some now }.sendHello now) := by
    simp only [Endpoint.connect, h.phase_eq, h.handshakeStarted_eq]
  rw [hstep] at hconnect
  rw [← Except.ok.inj hconnect, ← h.token_eq]
  show { e with
    handshakeStarted := some now
    lastHello := some now
    outbox := e.outbox ++ [(Frame.hello e.token).encode] } = _
  rw [h.outbox_eq]
  rfl

/-- The endpoint after it has emptied its outbox, has heard the HELLO of the other end, and has
emptied its outbox again. -/
def greeted (e : Endpoint α σ) : Endpoint α σ :=
  ({ e.drainOutbox.2 with phase := .established }.notify .up).drainOutbox.2

variable {e e' : Endpoint α σ} {settings : Settings} {token : Bytes}

/-- Before the handshake nothing is under way but HELLO. -/
theorem New.connecting {transform : Transform σ} (h : e.New settings token transform) {now : Nat}
    (hconnect : e.connect now = .ok e') :
    e'.phase = .connecting ∧ e'.token = token ∧ e'.outbox = [(Frame.hello token).encode] ∧
      e'.greeted.settings = settings := by
  rw [h.connect hconnect, greeted, drainOutbox_snd, drainOutbox_snd]
  exact ⟨h.phase_eq, h.token_eq, rfl, h.settings_eq⟩

/-- After the handshake nothing has been read. -/
theorem New.opened (h : e.New settings token .plain) {now : Nat}
    (hconnect : e.connect now = .ok e') : e'.greeted.Opened settings.maxPacketSize := by
  rw [h.connect hconnect, greeted, drainOutbox_snd, drainOutbox_snd]
  refine ⟨rfl, h.transform_eq, ?_, ?_, ?_, ?_, ?_, h.violations_eq, ?_⟩
  · show e.inlet.window.cursor = 0
    rw [h.inlet_eq]
  · show e.inlet.window.held = []
    rw [h.inlet_eq]
  · show 0 < e.inlet.window.size
    rw [h.inlet_eq]
    exact Nat.lt_of_lt_of_le h.sound.maxInFlight h.sound.window
  · show e.inlet.assembler = _
    rw [h.inlet_eq]
  · show e.counters.protocolViolations = 0
    rw [h.counters_eq]
  · show ([] ++ (e.events ++ [Event.up])).filterMap Event.content? = []
    rw [h.events_eq]
    rfl

/-- After the handshake nothing has been sent but HELLO. -/
theorem New.loaded (h : e.New settings token .plain) {now started : Nat}
    (hconnect : e.connect started = .ok e') (limit : Nat) :
    e'.greeted.Loaded now (.empty limit) := by
  have hsize : settings.maxInFlight ≤ 2 ^ 32 := by
    have hwindow := Nat.le_trans h.sound.window h.sound.reorderWindow
    simp only [maxReorderWindow] at hwindow
    omega
  rw [h.connect hconnect, greeted, drainOutbox_snd, drainOutbox_snd]
  refine ⟨⟨?_, ?_, ?_, ?_, ?_⟩, ?_, ?_, ?_⟩
  · show e.queue.Pipelined now [] e.queue.window
    rw [h.queue_eq]
    exact .start now _ _
  · show 0 < e.queue.window
    rw [h.queue_eq]
    exact h.sound.maxInFlight
  · show e.queue.window ≤ 2 ^ 32
    rw [h.queue_eq]
    exact hsize
  · show 0 < e.roundTrip.floor
    rw [h.floor_eq]
    exact h.sound.minRto
  · show e.counters.retransmissions = 0
    rw [h.counters_eq]
  · show e.splitter.nextSeq = 0
    rw [h.splitter_eq]
  · show [] = (([] : List Fragment).take _).map _
    rw [List.take_nil, List.map_nil]
  · show e.settings.maxPacketSize ≤ maxTotal
    rw [h.settings_eq]
    exact h.sound.maxPacketSize

/-! ## Sending -/

variable [Mul α] [Seconds α]

/-- In the clear, a packet that is not too long is queued. -/
theorem send_of_plain (hup : e.phase = .established) (hplain : e.transform = .plain)
    {packet : Bytes} (hsmall : packet.length ≤ e.settings.maxPacketSize) (now : Nat) :
    e.send packet now =
      (e.enqueuePacket packet).pump now >>= fun e' => .ok (.ok (), e') := by
  have hwrap : e.transform.wrap e.secret packet = (.ok packet, e.secret) := by
    rw [hplain]
    rfl
  have hlong : ¬ e.settings.maxPacketSize < packet.length := Nat.not_lt.2 hsmall
  rw [send, refusal?_eq_none_iff.2 hup, hwrap]
  dsimp only
  rw [if_neg hlong, if_neg hlong]
  rfl

/-- A packet that is not too long is taken, and joins the consignment. -/
theorem Loaded.send {c : Consignment} {now limit : Nat} (h : e.Loaded now c)
    (hopened : e.Opened limit) {packet : Bytes} (hsmall : packet.length ≤ e.settings.maxPacketSize)
    (hlimit : packet.length ≤ c.limit) {answer : Except TunnelError Unit}
    (hsend : e.send packet now = .ok (answer, e')) :
    answer = .ok () ∧ e'.settings = e.settings ∧ e'.Opened limit ∧
      ∃ c' : Consignment, c'.packets = c.packets ++ [packet] ∧ c'.limit = c.limit ∧
        e'.Loaded now c' := by
  rw [send_of_plain hopened.up hopened.plain hsmall] at hsend
  obtain ⟨e₁, hpump, hpair⟩ := bind_eq_ok hsend
  obtain ⟨rfl, rfl⟩ := Prod.mk.inj (Except.ok.inj hpair)
  let c' := c.add e.splitter packet h.next hlimit (Nat.le_trans hsmall h.limit)
  have hpipelined := h.streaming.pipelined
  rw [List.drop_zero] at hpipelined
  have hqueued : (e.enqueuePacket packet).queue.Pipelined now (c'.frames.map waitingFor)
      (min e.queue.window c.frames.length) := by
    have hmore := hpipelined.enqueueAll ((e.splitter.fragments packet).map waitingFor)
    rw [← List.map_append, List.length_map] at hmore
    exact hmore
  have hnodup := nodup_waiting c'.consecutive 0 h.streaming.window_le
  rw [List.drop_zero] at hnodup
  obtain ⟨queue, framesSent, rfl, hqueue, hwindow⟩ := pump_pipelined hqueued (Nat.min_le_left _ _)
    hnodup h.streaming.floor_pos hpump
  change queue.Pipelined now (c'.frames.map waitingFor) e.queue.window at hqueue
  change queue.window = e.queue.window at hwindow
  refine ⟨rfl, rfl, ⟨hopened.up, hopened.plain, hopened.cursor_eq, hopened.held_eq,
    hopened.size_pos, hopened.assembler_eq, hopened.clean, hopened.calm, hopened.delivered_eq⟩, c',
    rfl, rfl, ⟨?_, ?_, ?_, h.streaming.floor_pos, h.streaming.unrepeated⟩, ?_, ?_, h.limit⟩
  · show queue.Pipelined now ((c'.frames.drop 0).map waitingFor) queue.window
    rw [hwindow, List.drop_zero]
    exact hqueue
  · exact hwindow.symm ▸ h.streaming.window_pos
  · exact hwindow.symm ▸ h.streaming.window_le
  · show e.splitter.nextSeq + UInt32.ofNat (e.splitter.fragments packet).length =
      UInt32.ofNat (c.frames ++ e.splitter.fragments packet).length
    rw [h.next, List.length_append, UInt32.ofNat_add]
  · -- what was sent before is the front of what the window allows now
    have hframes : c'.frames = c.frames ++ e.splitter.fragments packet := rfl
    have hfront : c'.frames.take (min e.queue.window c.frames.length) =
        c.frames.take e.queue.window := by
      rw [hframes, List.take_append_of_le_length (Nat.min_le_right _ _), ← List.take_eq_take_min]
    have hsplit := SendQueue.take_append_drop_take c'.frames
      (Nat.min_le_left e.queue.window c.frames.length)
    rw [hfront] at hsplit
    show e.outbox ++ (((c'.frames.map waitingFor).take e.queue.window).drop
        (min e.queue.window c.frames.length)).map Waiting.datagram =
      (c'.frames.take queue.window).map fun f => (Frame.data f).encode
    rw [hwindow, ← hsplit, List.map_append, h.outbox_eq, ← List.map_take, ← List.map_drop,
      List.map_map]
    rfl

end DatagramTunnel.Session.Endpoint
