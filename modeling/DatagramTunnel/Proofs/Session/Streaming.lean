import DatagramTunnel.Proofs.Flight.Pipeline
import DatagramTunnel.Proofs.Packet.Consignment
import DatagramTunnel.Proofs.Session.Delivering
import DatagramTunnel.Proofs.Session.Sending

/-!
# Endpoints on a path without loss

On a path that loses nothing and keeps the order, a sender knows exactly what it has in flight, and
a receiver gets every frame when its turn has come.  `Streaming` is the state of the sender when the
first `retired` frames of its stream have been acknowledged, and `Following` that of the receiver
when it has read the first `read` of them.  One acknowledgement moves the first on by one,
`Streaming.hear`, and one frame the second, `Following.hear`.  Unlike `Sending` and `Receiving` they
set no bound on the number of frames: no two frames in flight are far apart, so the numbers may run
around the circle any number of times.
-/

namespace DatagramTunnel.Session.Endpoint

open Flight Packet Wire

variable {α σ : Type}

/-! ## The sender -/

/-- An endpoint that keeps its window full, of whose stream the first frames are acknowledged. -/
structure Streaming (e : Endpoint α σ) (now : Nat) (stream : List Fragment) (retired : Nat) :
    Prop where
  pipelined : e.queue.Pipelined now ((stream.drop retired).map waitingFor) e.queue.window
  window_pos : 0 < e.queue.window
  window_le : e.queue.window ≤ 2 ^ 32
  floor_pos : 0 < e.roundTrip.floor
  /-- Nothing has been sent twice. -/
  unrepeated : e.counters.retransmissions = 0

/-- Only these parts of the endpoint matter. -/
theorem Streaming.congr {e e' : Endpoint α σ} {now retired : Nat} {stream : List Fragment}
    (h : e.Streaming now stream retired) (hqueue : e'.queue = e.queue)
    (hroundTrip : e'.roundTrip = e.roundTrip)
    (hrepeats : e'.counters.retransmissions = e.counters.retransmissions) :
    e'.Streaming now stream retired := by
  refine ⟨?_, ?_, ?_, ?_, hrepeats.trans h.unrepeated⟩
  · rw [hqueue]
    exact h.pipelined
  · rw [hqueue]
    exact h.window_pos
  · rw [hqueue]
    exact h.window_le
  · rw [hroundTrip]
    exact h.floor_pos

/-- The numbers of neighbouring frames differ, however long the stream is. -/
theorem nodup_waiting {stream : List Fragment} (hnum : ConsecutiveFrom 0 stream) (skipped : Nat)
    {window : Nat} (hwindow : window ≤ 2 ^ 32) :
    ((((stream.drop skipped).map waitingFor).take window).map Waiting.seq).Nodup := by
  have hnodup := (hnum.slice skipped window).nodup (Nat.le_trans (List.length_take_le _ _) hwindow)
  rw [← List.map_take, List.map_map]
  exact hnodup

section Pump

variable [Mul α] [Seconds α]

/-- The send queue fills the window, and does nothing else. -/
theorem pump_pipelined {e e' : Endpoint α σ} {now count : Nat} {frames : List Waiting}
    (h : e.queue.Pipelined now frames count) (hle : count ≤ e.queue.window)
    (hnodup : ((frames.take e.queue.window).map Waiting.seq).Nodup)
    (hfloor : 0 < e.roundTrip.floor) (hpump : e.pump now = .ok e') :
    ∃ queue framesSent,
      e' = { e with
        queue
        outbox := e.outbox ++ ((frames.take e.queue.window).drop count).map Waiting.datagram
        counters := { e.counters with framesSent } } ∧
      queue.Pipelined now frames e.queue.window ∧ queue.window = e.queue.window := by
  obtain ⟨timeout, htimeout, rfl⟩ := pump_eq_ok hpump
  have hpos : 0 < timeout := Nat.lt_of_lt_of_le hfloor (RoundTrip.floor_le_timeout htimeout)
  obtain ⟨hout, hagain, hqueue, hwindow⟩ := h.ticked hle hnodup hpos
  refine ⟨_, e.counters.framesSent + (e.queue.ticked now timeout).1.admitted, ?_, hqueue, hwindow⟩
  rw [pumped, Endpoint.count, hout, hagain]
  rfl

end Pump

/-- The acknowledgement of the oldest frame in flight makes the next frame go out. -/
theorem Streaming.hear [Add α] [Sub α] [Mul α] [Seconds α] {e e' : Endpoint α σ} {now retired : Nat}
    {stream : List Fragment} (h : e.Streaming now stream retired) (hnum : ConsecutiveFrom 0 stream)
    (hlt : retired < stream.length) (hack : e.onAck stream[retired].seq now = .ok e') :
    ∃ queue roundTrip counters,
      e' = { e with
        queue
        roundTrip
        outbox := e.outbox ++ ((stream.take (retired + 1 + e.queue.window)).drop
          (retired + e.queue.window)).map fun f => (Frame.data f).encode
        counters } ∧
      counters.protocolViolations = e.counters.protocolViolations ∧
      queue.window = e.queue.window ∧ e'.Streaming now stream (retired + 1) := by
  have hpos := h.window_pos
  have hpipelined := h.pipelined
  obtain ⟨fewer, hfewer⟩ : ∃ fewer, e.queue.window = fewer + 1 := ⟨e.queue.window - 1, by omega⟩
  rw [List.drop_eq_getElem_cons hlt, List.map_cons, hfewer] at hpipelined
  obtain ⟨sample, queue, hknown, hqueue, hwindow⟩ := hpipelined.acknowledge
  have hseq : (waitingFor stream[retired]).seq = stream[retired].seq := rfl
  rw [hseq] at hknown
  rw [onAck, hknown] at hack
  have hroom : (e.retire sample queue).queue.window = e.queue.window := hwindow
  have hnodup := nodup_waiting hnum (retired + 1) h.window_le
  obtain ⟨queue', framesSent, rfl, hqueue', hwindow'⟩ := pump_pipelined (e := e.retire sample queue)
    hqueue (by omega) (by rw [hroom]; exact hnodup) h.floor_pos hack
  rw [hroom] at hqueue' hwindow'
  refine ⟨queue', e.roundTrip.update sample,
    { e.counters with framesSent, acksReceived := e.counters.acksReceived + 1 }, ?_, rfl, hwindow',
    ?_, ?_, ?_, h.floor_pos, h.unrepeated⟩
  · -- the frame that goes out is the one behind the flight
    have hfresh : ((((stream.drop (retired + 1)).map waitingFor).take e.queue.window).drop
        fewer).map Waiting.datagram = ((stream.take (retired + 1 + e.queue.window)).drop
          (retired + e.queue.window)).map fun f => (Frame.data f).encode := by
      have hplace : retired + e.queue.window = retired + 1 + fewer := by omega
      rw [← List.map_take, ← List.map_drop, List.map_map, List.take_drop, List.drop_drop, hplace]
      rfl
    rw [hroom, hfresh]
    rfl
  · show queue'.Pipelined now _ queue'.window
    rw [hwindow']
    exact hqueue'
  · show 0 < queue'.window
    omega
  · show queue'.window ≤ 2 ^ 32
    rw [hwindow']
    exact h.window_le

/-! ## The receiver -/

/-- An endpoint that is up, has read the first frames of the stream and holds no other. -/
structure Following (e : Endpoint α σ) (c : Consignment) (read : Nat) : Prop where
  up : e.phase = .established
  cursor_eq : e.inlet.window.cursor = UInt32.ofNat read
  held_eq : e.inlet.window.held = []
  size_pos : 0 < e.inlet.window.size
  delivering : e.Delivering c.limit [] c.frames read c.packets

/-- A frame whose turn has come is released at once, and nothing after it. -/
theorem onData_in_turn {e : Endpoint α σ} {f : Fragment} (hup : e.phase = .established)
    (hheld : e.inlet.window.held = []) (hsize : 0 < e.inlet.window.size)
    (hseq : f.seq = e.inlet.window.cursor) :
    e.onData f = ((e.offered f).advanced f
      { e.inlet.window with cursor := e.inlet.window.cursor + 1 }).absorb
        (e.inlet.assembler.push f).1 ∧
      (e.inlet.window.classify f.seq).acknowledged = true := by
  have hcursor : e.inlet.window.cursor = e.inlet.window.cursor + UInt32.ofNat 0 := by simp
  have hnone : e.inlet.window.find? f.seq = none := by
    rw [ReorderWindow.find?, hheld]
    rfl
  have hclass : e.inlet.window.classify f.seq = .accepted := by
    rw [ReorderWindow.classify_ahead hcursor (hseq.trans hcursor) (Nat.le_refl 0) (by decide),
      hnone, Nat.sub_self, if_neg (by omega)]
    rfl
  have hwindow : (e.offered f).inlet.window = { e.inlet.window with held := [f] } := by
    rw [offered_window, ReorderWindow.insert_accepted hclass, hheld]
  have hpop : (e.offered f).inlet.window.pop? =
      some (f, { e.inlet.window with cursor := e.inlet.window.cursor + 1 }) := by
    rw [hwindow]
    simp [ReorderWindow.pop?, ReorderWindow.find?, hseq, hheld]
  have hup' : (e.offered f).phase = .established := by
    rw [offered_phase]
    exact hup
  constructor
  · rw [onData_eq, ← offered_window, hwindow, List.length_singleton,
      drainInlet_of_pop? hup' hpop, offered_assembler]
    rfl
  · rw [hclass]
    rfl

/-- In the clear, reading a frame without a fault hands over its packet and does nothing else. -/
theorem absorb_of_plain {e : Endpoint α σ} (hup : e.phase = .established)
    (hplain : e.transform = .plain) {out : Assembled} (hclean : out.errors = []) :
    ∃ violations packetsDelivered, e.absorb out = { e with
      violations
      counters := { e.counters with packetsDelivered }
      events := e.events ++ out.packet.toList.map .packet } := by
  unfold absorb
  rw [hclean]
  simp only [List.foldl_nil, hup, if_true]
  cases out.packet with
  | none =>
    refine ⟨e.violations, e.counters.packetsDelivered, ?_⟩
    rw [Option.toList_none, List.map_nil, List.append_nil, ← hup]
  | some packet =>
    have hopen : e.transform.unwrap e.secret packet = (.ok packet, e.secret) := by
      rw [hplain]
      rfl
    refine ⟨0, e.counters.packetsDelivered + 1, ?_⟩
    dsimp only
    rw [deliver, hopen, ← hup]
    rfl

namespace Following

variable {e e' : Endpoint α σ} {c : Consignment} {read : Nat}

/-- Only these parts of the endpoint matter. -/
theorem congr (h : e.Following c read) (hphase : e'.phase = e.phase) (hinlet : e'.inlet = e.inlet)
    (htransform : e'.transform = e.transform)
    (hfaults : e'.counters.protocolViolations = e.counters.protocolViolations)
    (hviolations : e'.violations = e.violations) (hevents : e'.events = e.events) :
    e'.Following c read := by
  refine ⟨hphase.trans h.up, ?_, ?_, ?_, ?_⟩
  · rw [hinlet]
    exact h.cursor_eq
  · rw [hinlet]
    exact h.held_eq
  · rw [hinlet]
    exact h.size_pos
  · apply h.delivering.congr htransform hfaults (Nat.le_of_eq hviolations) hevents
    intro hopen
    rw [hphase] at hopen
    exact ⟨hopen, congrArg Inlet.assembler hinlet⟩

/-- The next frame is acknowledged and read. -/
theorem hear (h : e.Following c read) (hlt : read < c.frames.length) :
    ∃ inlet violations counters events,
      e.onData c.frames[read] = { e with
        inlet
        violations
        counters
        events
        outbox := e.outbox ++ [(Frame.ack c.frames[read].seq).encode] } ∧
      counters.retransmissions = e.counters.retransmissions ∧
      (e.onData c.frames[read]).Following c (read + 1) := by
  have hseq : c.frames[read].seq = e.inlet.window.cursor := by
    rw [c.consecutive read hlt, UInt32.zero_add, h.cursor_eq]
  obtain ⟨hdata, hacknowledged⟩ := onData_in_turn h.up h.held_eq h.size_pos hseq
  have hoffered : e.offered c.frames[read] = { e with
      inlet := { e.inlet with window := (e.inlet.window.insert c.frames[read]).2 }
      counters := { e.counters with acksSent := e.counters.acksSent + 1 }
      outbox := e.outbox ++ [(Frame.ack c.frames[read].seq).encode] } := by
    rw [offered, if_pos hacknowledged]
    rfl
  have hup : (e.offered c.frames[read]).phase = .established := by
    rw [offered_phase]
    exact h.up
  have hclean := h.delivering.push_clean h.up c.carries c.within hlt
  have hdelivering := (h.delivering.offered c.frames[read]).advance hup c.carries c.within hlt
    { e.inlet.window with cursor := e.inlet.window.cursor + 1 }
  rw [offered_assembler, ← hdata] at hdelivering
  have hplain : ((e.offered c.frames[read]).advanced c.frames[read]
      { e.inlet.window with cursor := e.inlet.window.cursor + 1 }).transform = .plain :=
    (h.delivering.offered c.frames[read]).plain
  obtain ⟨violations, packetsDelivered, habsorb⟩ := absorb_of_plain
    (e := (e.offered c.frames[read]).advanced c.frames[read]
      { e.inlet.window with cursor := e.inlet.window.cursor + 1 }) hup hplain hclean
  rw [← hdata] at habsorb
  rw [habsorb, hoffered] at hdelivering ⊢
  refine ⟨_, _, _, _, rfl, rfl, h.up, ?_, h.held_eq, h.size_pos, hdelivering⟩
  show e.inlet.window.cursor + 1 = _
  rw [h.cursor_eq, UInt32.ofNat_add]
  rfl

end Following

end DatagramTunnel.Session.Endpoint
