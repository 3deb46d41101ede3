import DatagramTunnel.Proofs.Network.Progress
import DatagramTunnel.Proofs.Session.Streaming

/-!
# Two endpoints on a path without loss

Between the ends there is one channel in each direction, and what is put in comes out in order.
`Flow` ties the two ends to what is in the channels: in each direction go the frames of one
consignment and the acknowledgements of the other, and both are determined by how far the
consignments have come.  Whatever arrives first moves one count on by one, `Flow.receive`, so the
number of arrivals that are still to come is known from the beginning; and when it is zero,
everything has been read and acknowledged, `Flow.at_rest`.
-/

namespace DatagramTunnel.Session

/-- An endpoint that is up, has nothing under way in either direction, and has never had to send a
frame again or to complain. -/
structure Endpoint.AtRest {α σ : Type} (e : Endpoint α σ) : Prop where
  up : e.phase = .established
  inFlight_eq : e.queue.inFlight = []
  waiting_eq : e.queue.waiting = []
  held_eq : e.inlet.window.held = []
  slot_eq : e.inlet.assembler.slot = .idle
  retransmissions_eq : e.counters.retransmissions = 0
  protocolViolations_eq : e.counters.protocolViolations = 0
  violations_eq : e.violations = 0

end DatagramTunnel.Session

namespace DatagramTunnel.Network

open Flight Packet Session Wire

/-! ## Channels -/

/-- The datagrams carry these data frames and these acknowledgements, and nothing else. -/
inductive Traffic : List Bytes → List Fragment → List UInt32 → Prop
  | nil : Traffic [] [] []
  | piece {datagrams : List Bytes} {frames : List Fragment} {answers : List UInt32} (f : Fragment)
    (rest : Traffic datagrams frames answers) :
    Traffic ((Frame.data f).encode :: datagrams) (f :: frames) answers
  | answer {datagrams : List Bytes} {frames : List Fragment} {answers : List UInt32} (seq : UInt32)
    (rest : Traffic datagrams frames answers) :
    Traffic ((Frame.ack seq).encode :: datagrams) frames (seq :: answers)

namespace Traffic

theorem append {datagrams datagrams' : List Bytes} {frames frames' : List Fragment}
    {answers answers' : List UInt32} (h : Traffic datagrams frames answers)
    (h' : Traffic datagrams' frames' answers') :
    Traffic (datagrams ++ datagrams') (frames ++ frames') (answers ++ answers') := by
  induction h with
  | nil => exact h'
  | piece f _ ih => exact .piece f ih
  | answer seq _ ih => exact .answer seq ih

theorem ofFrames (frames : List Fragment) :
    Traffic (frames.map fun f => (Frame.data f).encode) frames [] := by
  induction frames with
  | nil => exact .nil
  | cons f rest ih => exact .piece f ih

theorem eq_nil {frames : List Fragment} {answers : List UInt32} (h : Traffic [] frames answers) :
    frames = [] ∧ answers = [] := by
  cases h
  exact ⟨rfl, rfl⟩

end Traffic

/-! ## Both directions -/

variable {α σ : Type}

/-- How far a consignment has come from `a` to `b`. -/
structure Leg (now : Nat) (c : Consignment) (a b : Endpoint α σ) (s : Stage) : Prop where
  streaming : a.Streaming now c.frames s.retired
  following : b.Following c s.read
  retired_le : s.retired ≤ s.read
  read_le : s.read ≤ c.frames.length
  /-- What has been read was in flight. -/
  read_le_window : s.read ≤ s.retired + a.queue.window

/-- One consignment travels from `a` to `b` and one back, and these datagrams are on the way. -/
structure Flow (now : Nat) (there back : Consignment) (a b : Endpoint α σ) (s t : Stage)
    (toB toA : List Bytes) : Prop where
  forward : Leg now there a b s
  backward : Leg now back b a t
  toB : Traffic toB (there.onWay a.queue.window s) (back.answers t)
  toA : Traffic toA (back.onWay b.queue.window t) (there.answers s)

namespace Flow

variable {now : Nat} {there back : Consignment} {a b b' : Endpoint α σ} {s t : Stage}
  {toB toA rest : List Bytes} {datagram : Bytes}

/-- Seen from the other end. -/
theorem swap (h : Flow now there back a b s t toB toA) : Flow now back there b a t s toA toB :=
  ⟨h.backward, h.forward, h.toA, h.toB⟩

/-- Emptying an outbox changes nothing of it. -/
theorem drained (h : Flow now there back a b s t toB toA) :
    Flow now there back a b.drainOutbox.2 s t toB toA := by
  rw [Endpoint.drainOutbox_snd]
  constructor
  · exact { h.forward with following := h.forward.following.congr rfl rfl rfl rfl rfl rfl }
  · exact { h.backward with streaming := h.backward.streaming.congr rfl rfl rfl }
  · exact h.toB
  · exact h.toA

/-- When nothing is on the way any more, everything has been delivered and acknowledged. -/
theorem at_rest (h : Flow now there back a b s t [] []) :
    b.delivered [] = there.packets ∧ b.AtRest := by
  obtain ⟨hframes, hanswers⟩ := h.toB.eq_nil
  obtain ⟨hframes', hanswers'⟩ := h.toA.eq_nil
  have hsent := there.all_of_quiet h.forward.streaming.window_pos h.forward.read_le hframes
    hanswers' h.forward.retired_le
  have hretired := back.all_of_quiet h.backward.streaming.window_pos h.backward.read_le hframes'
    hanswers h.backward.retired_le
  have hfollowing := h.forward.following
  obtain ⟨slot, hassembler, hreads⟩ :=
    hfollowing.delivering.reading (Endpoint.isTerminal_of_established hfollowing.up)
  rw [hsent.2, List.take_length] at hreads
  have hall := there.carries.read_all there.within
  have hpipelined := h.backward.streaming.pipelined
  rw [hretired.1, List.drop_length, List.map_nil] at hpipelined
  have hidle : slot = .idle :=
    congrArg Assembler.slot (hreads.assembler_eq.symm.trans hall.assembler_eq)
  refine ⟨hreads.packets_eq.symm.trans hall.packets_eq, hfollowing.up, ?_, ?_, hfollowing.held_eq,
    ?_, h.backward.streaming.unrepeated, hfollowing.delivering.clean, hfollowing.delivering.calm⟩
  · exact List.map_eq_nil_iff.1 (hpipelined.inFlight.trans List.take_nil)
  · exact hpipelined.waiting.trans List.drop_nil
  · rw [hassembler, hidle]

variable [Add α] [Sub α] [Mul α] [Seconds α]

/-- A data frame that arrives is the next one to read; its acknowledgement goes back. -/
theorem receive_piece {f : Fragment} {frames : List Fragment}
    (h : Flow now there back a b s t ((Frame.data f).encode :: rest) toA)
    (hframes : there.onWay a.queue.window s = f :: frames)
    (htraffic : Traffic rest frames (back.answers t))
    (hreceive : b.receive (Frame.data f).encode now = .ok b') :
    ∃ s' news, b'.outbox = b.outbox ++ news ∧ Flow now there back a b' s' t rest (toA ++ news) ∧
      there.left s' + 1 = there.left s := by
  obtain ⟨hread, hwindow, rfl, rfl⟩ := Consignment.onWay_eq_cons hframes
  have hframe : Frame.decode (Frame.data there.frames[s.read]).encode =
      .ok (.data there.frames[s.read]) :=
    Frame.decode_encode_of_fits (there.fits there.frames[s.read] (List.getElem_mem hread))
  rw [Endpoint.receive_data h.forward.following.up hframe] at hreceive
  obtain ⟨inlet, violations, counters, events, hdata, hunrepeated, hfollowing⟩ :=
    h.forward.following.hear hread
  rw [hdata] at hreceive hfollowing
  have heq := Except.ok.inj hreceive
  subst heq
  refine ⟨{ s with read := s.read + 1 }, [(Frame.ack there.frames[s.read].seq).encode], rfl,
    ⟨?_, ?_, htraffic, ?_⟩, Consignment.left_read_succ hread⟩
  · exact ⟨h.forward.streaming, hfollowing, Nat.le_succ_of_le h.forward.retired_le, hread, hwindow⟩
  · exact { h.backward with streaming := h.backward.streaming.congr rfl rfl hunrepeated }
  · have hall := h.toA.append (.answer there.frames[s.read].seq .nil)
    rw [List.append_nil, ← Consignment.answers_read_succ h.forward.retired_le hread] at hall
    exact hall

/-- An acknowledgement that arrives is that of the oldest frame in flight; the frame behind the
flight goes out. -/
theorem receive_answer {seq : UInt32} {answers : List UInt32}
    (h : Flow now there back a b s t ((Frame.ack seq).encode :: rest) toA)
    (hanswers : back.answers t = seq :: answers)
    (htraffic : Traffic rest (there.onWay a.queue.window s) answers)
    (hreceive : b.receive (Frame.ack seq).encode now = .ok b') :
    ∃ t' news, b'.outbox = b.outbox ++ news ∧ Flow now there back a b' s t' rest (toA ++ news) ∧
      back.left t' + 1 = back.left t := by
  obtain ⟨hretired, hread, rfl, rfl⟩ := Consignment.answers_eq_cons hanswers
  have hframe : Frame.decode (Frame.ack back.frames[t.retired].seq).encode =
      .ok (.ack back.frames[t.retired].seq) := Frame.decode_encode_of_fits trivial
  rw [Endpoint.receive_ack h.forward.following.up hframe] at hreceive
  obtain ⟨queue, roundTrip, counters, rfl, hclean, hwindow, hstreaming⟩ :=
    h.backward.streaming.hear back.consecutive hretired hreceive
  have hsent := h.backward.read_le_window
  refine ⟨{ t with retired := t.retired + 1 }, _, rfl, ⟨?_, ?_, htraffic, ?_⟩,
    Consignment.left_retired_succ hretired⟩
  · exact { h.forward with following := h.forward.following.congr rfl rfl rfl hclean rfl rfl }
  · refine ⟨hstreaming, h.backward.following, hread, h.backward.read_le, ?_⟩
    show t.read ≤ t.retired + 1 + queue.window
    omega
  · have hall := h.toA.append (.ofFrames ((back.frames.take (t.retired + 1 + b.queue.window)).drop
      (t.retired + b.queue.window)))
    rw [List.append_nil, ← Consignment.onWay_retired_succ hsent] at hall
    show Traffic _ (back.onWay queue.window _) _
    rw [hwindow]
    exact hall

/-- Whatever arrives first brings the consignments one step on. -/
theorem receive (h : Flow now there back a b s t (datagram :: rest) toA)
    (hreceive : b.receive datagram now = .ok b') :
    ∃ s' t' news, b'.outbox = b.outbox ++ news ∧
      Flow now there back a b' s' t' rest (toA ++ news) ∧
      there.left s' + back.left t' + 1 = there.left s + back.left t := by
  generalize hframes : there.onWay a.queue.window s = frames
  generalize hanswers : back.answers t = answers
  have htraffic := h.toB
  rw [hframes, hanswers] at htraffic
  cases htraffic with
  | piece f htraffic =>
    obtain ⟨s', news, houtbox, hflow, hleft⟩ :=
      h.receive_piece hframes (hanswers ▸ htraffic) hreceive
    exact ⟨s', t, news, houtbox, hflow, by omega⟩
  | answer seq htraffic =>
    obtain ⟨t', news, houtbox, hflow, hleft⟩ :=
      h.receive_answer hanswers (hframes ▸ htraffic) hreceive
    exact ⟨s, t', news, houtbox, hflow, by omega⟩

/-- The same for datagrams that arrive one after the other. -/
theorem receiveAll {arriving earlier : List Bytes}
    (h : Flow now there back a b s t (arriving ++ rest) (earlier ++ b.outbox))
    (hrun : b.receiveAll now arriving = .ok b') :
    ∃ s' t', Flow now there back a b' s' t' rest (earlier ++ b'.outbox) ∧
      there.left s' + back.left t' + arriving.length = there.left s + back.left t := by
  induction arriving generalizing b s t with
  | nil =>
    have heq := Except.ok.inj hrun
    subst heq
    exact ⟨s, t, h, rfl⟩
  | cons datagram later ih =>
    obtain ⟨b₁, hreceive, hlater⟩ := Endpoint.receiveAll_cons hrun
    obtain ⟨s₁, t₁, news, houtbox, hflow, hleft⟩ := h.receive hreceive
    rw [List.append_assoc, ← houtbox] at hflow
    obtain ⟨s', t', hflow', hleft'⟩ := ih hflow hlater
    refine ⟨s', t', hflow', ?_⟩
    rw [List.length_cons]
    omega

/-- Both ends empty their outboxes, and then each hears what the other has sent. -/
theorem relay {a' : Endpoint α σ} (h : Flow now there back a b s t a.outbox b.outbox)
    (hfar : b.drainOutbox.2.receiveAll now a.outbox = .ok b')
    (hnear : a.drainOutbox.2.receiveAll now b.outbox = .ok a') :
    ∃ s' t', Flow now there back a' b' s' t' a'.outbox b'.outbox ∧
      there.left s' + back.left t' + (a.outbox.length + b.outbox.length) =
        there.left s + back.left t := by
  have hempty : a.drainOutbox.2.outbox = [] := by rw [Endpoint.drainOutbox_snd]
  have hempty' : b.drainOutbox.2.outbox = [] := by rw [Endpoint.drainOutbox_snd]
  have hdrained : Flow now there back a.drainOutbox.2 b.drainOutbox.2 s t (a.outbox ++ [])
      (b.outbox ++ b.drainOutbox.2.outbox) := by
    rw [hempty', List.append_nil, List.append_nil]
    exact h.drained.swap.drained.swap
  obtain ⟨s₁, t₁, hflow, hleft⟩ := hdrained.receiveAll hfar
  have hturned : Flow now back there b' a.drainOutbox.2 t₁ s₁ (b.outbox ++ b'.outbox)
      ([] ++ a.drainOutbox.2.outbox) := by
    rw [hempty]
    exact hflow.swap
  obtain ⟨t', s', hflow', hleft'⟩ := hturned.receiveAll hnear
  exact ⟨s', t', hflow'.swap, by omega⟩

end Flow

end DatagramTunnel.Network
