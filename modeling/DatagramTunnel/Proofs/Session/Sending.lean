import DatagramTunnel.Proofs.Flight.Outstanding
import DatagramTunnel.Proofs.Packet.Pieces
import DatagramTunnel.Proofs.Session.Creation
import DatagramTunnel.Proofs.Session.Intake

/-!
# An endpoint that sends

`Sending e sent numbered` is what holds of an endpoint that has numbered the frames `numbered` and
has put the datagrams `sent` on the path: the frames are numbered one after the other, every data
frame that it has sent or is about to send is one of them, and its queue holds some of them, in
their order and as they were numbered.  Which of them it holds is another matter, and depends on
the other end.

`Sending.step` says that every operation keeps it, as long as there are no more frames than numbers.
-/

namespace DatagramTunnel.Session

open Flight Packet Wire

/-- The data frame as it waits in the queue. -/
def waitingFor (f : Fragment) : Waiting := ⟨f.seq, (Frame.data f).encode⟩

theorem decode_waitingFor {f : Fragment} (h : f.position.Fits) :
    Frame.decode (waitingFor f).datagram = .ok (.data f) :=
  Frame.decode_encode_of_fits h

namespace Endpoint

variable {α σ : Type}

/-- What holds of an endpoint that has numbered these frames and sent these datagrams. -/
structure Sending (e : Endpoint α σ) (sent : List Bytes) (numbered : List Fragment) : Prop where
  next : e.splitter.nextSeq = UInt32.ofNat numbered.length
  consecutive : ConsecutiveFrom 0 numbered
  fits : ∀ f ∈ numbered, f.position.Fits
  /-- The endpoint sends no data frame that it has not numbered. -/
  emitted : ∀ datagram ∈ sent ++ e.outbox, ∀ f, Frame.decode datagram = .ok (.data f) →
    f ∈ numbered
  scheduled : e.queue.Scheduled []
  window_pos : 0 < e.queue.window
  /-- The queue holds numbered frames, oldest first. -/
  outstanding : ∃ kept : List Fragment,
    kept.Sublist numbered ∧ e.queue.outstanding = kept.map waitingFor
  unopened : e.phase = .connecting → numbered = []
  limit : e.settings.maxPacketSize ≤ maxTotal

/-- What is written as another frame is not read as data. -/
theorem decode_ne_data {frame : Frame} (h : ∀ f, frame ≠ .data f) (f : Fragment) :
    Frame.decode frame.encode ≠ .ok (.data f) := by
  intro heq
  rw [Frame.decode_encode] at heq
  have hwire := Except.ok.inj heq
  cases frame with
  | data g => exact h g rfl
  | _ => cases hwire

namespace Sending

variable {e e' : Endpoint α σ} {sent : List Bytes} {numbered : List Fragment}

/-- A new endpoint has numbered nothing. -/
theorem start {settings : Settings} {token : Bytes} {transform : Transform σ}
    (h : e.New settings token transform) : Sending e [] [] := by
  refine ⟨?_, .nil 0, fun _ hf => absurd hf List.not_mem_nil, ?_, ?_, ?_, ?_, fun _ => rfl, ?_⟩
  · rw [h.splitter_eq]
    rfl
  · rw [h.outbox_eq]
    exact fun _ hd => absurd hd List.not_mem_nil
  · rw [h.queue_eq]
    exact SendQueue.Scheduled.clear (q := { window := settings.maxInFlight })
  · rw [h.queue_eq]
    exact h.sound.maxInFlight
  · rw [h.queue_eq]
    exact ⟨[], List.Sublist.refl _, rfl⟩
  · rw [h.settings_eq]
    exact h.sound.maxPacketSize

/-- No two frames of the queue have one number. -/
theorem nodup (h : Sending e sent numbered) (hlen : numbered.length ≤ 2 ^ 32) :
    (e.queue.outstanding.map Waiting.seq).Nodup := by
  obtain ⟨kept, hkept, heq⟩ := h.outstanding
  have hseqs : e.queue.outstanding.map Waiting.seq = kept.map Fragment.seq := by
    rw [heq, List.map_map]
    rfl
  rw [hseqs]
  exact (h.consecutive.nodup hlen).sublist (hkept.map Fragment.seq)

/-- A frame of the queue is a numbered one, as it was encoded. -/
theorem mem_outstanding (h : Sending e sent numbered) {w : Waiting} (hw : w ∈ e.queue.outstanding) :
    ∃ f ∈ numbered, w = waitingFor f := by
  obtain ⟨kept, hkept, heq⟩ := h.outstanding
  rw [heq] at hw
  obtain ⟨f, hf, rfl⟩ := List.mem_map.1 hw
  exact ⟨f, hkept.subset hf, rfl⟩

/-- An endpoint that is not up yet has numbered nothing. -/
theorem numbered_eq_nil (h : Sending e sent numbered) (hopen : e.phase.isTerminal = false)
    (hdown : e.phase ≠ .established) : numbered = [] := by
  apply h.unopened
  cases hphase : e.phase with
  | connecting => rfl
  | established => exact absurd hphase hdown
  | closing =>
    rw [hphase] at hopen
    cases hopen
  | closed =>
    rw [hphase] at hopen
    cases hopen

/-- Only these parts of the endpoint matter. -/
theorem congr (h : Sending e sent numbered) (hsplitter : e'.splitter = e.splitter)
    (houtbox : e'.outbox = e.outbox) (hqueue : e'.queue = e.queue)
    (hsettings : e'.settings = e.settings)
    (hphase : e'.phase = .connecting → e.phase = .connecting) : Sending e' sent numbered :=
  ⟨hsplitter ▸ h.next, h.consecutive, h.fits, houtbox ▸ h.emitted, hqueue ▸ h.scheduled,
    hqueue ▸ h.window_pos, hqueue ▸ h.outstanding, fun hc => h.unopened (hphase hc),
    hsettings ▸ h.limit⟩

/-- Other frames may go out besides. -/
theorem post (h : Sending e sent numbered) {frame : Frame} (hframe : ∀ f, frame ≠ .data f) :
    Sending (e.post frame.encode) sent numbered := by
  refine ⟨h.next, h.consecutive, h.fits, ?_, h.scheduled, h.window_pos, h.outstanding,
    h.unopened, h.limit⟩
  intro datagram hmem f hf
  have hmem' : datagram ∈ (sent ++ e.outbox) ++ [frame.encode] := by
    rw [List.append_assoc]
    exact hmem
  rcases List.mem_append.1 hmem' with hold | hnew
  · exact h.emitted datagram hold f hf
  · rw [List.mem_singleton] at hnew
    subst hnew
    exact absurd hf (decode_ne_data hframe f)

/-- What leaves the data alone keeps them in order. -/
theorem move {marks : List Mark} (h : Sending e sent numbered) (hmove : Move e marks e') :
    Sending e' sent numbered := by
  induction hmove with
  | @adjust e₁ e₂ same _ =>
    have hphase : e₂.phase = e₁.phase := congrArg Core.phase same
    exact h.congr (congrArg Core.splitter same) (congrArg Core.outbox same)
      (congrArg Core.queue same) (congrArg Core.settings same) (fun hc => hphase ▸ hc)
  | rise phase => exact h.congr rfl rfl rfl rfl (fun _ => phase)
  | post frame _ control =>
    apply h.post
    rintro f rfl
    exact control
  | finish _ _ =>
    refine ⟨h.next, h.consecutive, h.fits, ?_, .clear, h.window_pos, ⟨[], List.nil_sublist _, rfl⟩,
      fun hphase => (by cases hphase), h.limit⟩
    intro datagram hmem f hf
    refine h.emitted datagram ?_ f hf
    rcases List.mem_append.1 hmem with hsent | hout
    · exact List.mem_append_left _ hsent
    · exact absurd hout List.not_mem_nil
  | shut _ => exact h.congr rfl rfl rfl rfl (fun hphase => (by cases hphase))
  | trans _ _ ih₁ ih₂ => exact ih₂ (ih₁ h)
  | _ => exact h.congr rfl rfl rfl rfl (fun hphase => hphase)

/-- An arriving data frame is answered, and otherwise concerns the other direction. -/
theorem onData (h : Sending e sent numbered) (f : Fragment) :
    Sending (e.onData f) sent numbered := by
  apply onData_induct (P := fun e' => Sending e' sent numbered)
  · intro e₁ g window h₁ _ _
    obtain ⟨marks, hmove⟩ := absorb_move (e₁.advanced g window) (e₁.inlet.assembler.push g).1
    have hread : Sending (e₁.advanced g window) sent numbered :=
      h₁.congr rfl rfl rfl rfl (fun hphase => hphase)
    exact hread.move hmove
  · have hanswered : Sending (e.post (Frame.ack f.seq).encode) sent numbered := by
      apply h.post
      intro g hg
      cases hg
    unfold offered
    dsimp only
    split
    · exact hanswered.congr rfl rfl rfl rfl (fun hphase => hphase)
    · exact h.congr rfl rfl rfl rfl (fun hphase => hphase)

/-- Letting the send queue run keeps the frames in order. -/
theorem pumped (h : Sending e sent numbered) (hlen : numbered.length ≤ 2 ^ 32)
    (now timeout : Nat) : Sending (e.pumped now timeout) sent numbered := by
  have hadm := SendQueue.admissible_of_nodup (h.nodup hlen)
  obtain ⟨hscheduled, -⟩ := h.scheduled.ticked hadm now timeout
  refine ⟨h.next, h.consecutive, h.fits, ?_, hscheduled, ?_, ?_, h.unopened, h.limit⟩
  · intro datagram hmem f hf
    have hmem' : datagram ∈ (sent ++ e.outbox) ++ (e.queue.ticked now timeout).1.datagrams := by
      rw [List.append_assoc]
      exact hmem
    rcases List.mem_append.1 hmem' with hold | hnew
    · exact h.emitted datagram hold f hf
    · obtain ⟨w, hw, rfl⟩ := (SendQueue.mem_outstanding_ticked e.queue now timeout).2 datagram hnew
      obtain ⟨g, hg, rfl⟩ := h.mem_outstanding hw
      rw [decode_waitingFor (h.fits g hg)] at hf
      have hgf : g = f := Frame.data.inj (Except.ok.inj hf)
      exact hgf ▸ hg
  · show 0 < (e.queue.ticked now timeout).2.window
    rw [SendQueue.window_ticked]
    exact h.window_pos
  · have hsame := h.scheduled.outstanding_ticked hadm now timeout
    show ∃ kept : List Fragment, _ ∧ (e.queue.ticked now timeout).2.outstanding = _
    rw [hsame]
    exact h.outstanding

/-- A packet that is queued adds its frames at the end. -/
theorem enqueuePacket (h : Sending e sent numbered) (hphase : e.phase ≠ .connecting)
    {wrapped : Bytes} (hwrapped : wrapped.length ≤ e.settings.maxPacketSize) :
    Sending (e.enqueuePacket wrapped) sent (numbered ++ e.splitter.fragments wrapped) := by
  have hlen : wrapped.length ≤ maxTotal := Nat.le_trans hwrapped h.limit
  have hcarries := e.splitter.carries_fragments hlen
  refine ⟨?_, ?_, ?_, ?_, ?_, h.window_pos, ?_, fun hc => absurd hc hphase, h.limit⟩
  · show e.splitter.nextSeq + UInt32.ofNat (e.splitter.fragments wrapped).length = _
    rw [h.next, List.length_append, UInt32.ofNat_add]
  · refine h.consecutive.append ?_
    have hnext := e.splitter.consecutive_fragments wrapped
    rw [h.next] at hnext
    rw [UInt32.zero_add]
    exact hnext
  · intro f hf
    rcases List.mem_append.1 hf with hold | hnew
    · exact h.fits f hold
    · exact hcarries.fits hlen f hnew
  · intro datagram hmem f hf
    exact List.mem_append_left _ (h.emitted datagram hmem f hf)
  · exact h.scheduled.enqueueAll _
  · obtain ⟨kept, hkept, heq⟩ := h.outstanding
    refine ⟨kept ++ e.splitter.fragments wrapped, hkept.append (List.Sublist.refl _), ?_⟩
    show (e.queue.enqueueAll _).outstanding = _
    rw [SendQueue.outstanding_enqueueAll, heq, List.map_append]
    rfl

/-- The same for a packet that has been wrapped on the way. -/
theorem accepted (h : Sending e sent numbered) (hup : e.phase = .established) (secret : σ)
    {wrapped : Bytes} (hwrapped : wrapped.length ≤ e.settings.maxPacketSize) :
    Sending ({ e with secret := secret }.enqueuePacket wrapped) sent
      (numbered ++ e.splitter.fragments wrapped) := by
  have hsecret : Sending { e with secret := secret } sent numbered :=
    h.move (.afterSecret secret (.refl _))
  have hphase : e.phase ≠ .connecting := by
    rw [hup]
    intro hc
    cases hc
  exact hsecret.enqueuePacket hphase hwrapped

/-- Emptying the outbox. -/
theorem drained (h : Sending e sent numbered) : Sending e.drainOutbox.2 sent numbered := by
  rw [drainOutbox_snd]
  refine ⟨h.next, h.consecutive, h.fits, ?_, h.scheduled, h.window_pos, h.outstanding, h.unopened,
    h.limit⟩
  intro datagram hmem f hf
  rw [List.append_nil] at hmem
  exact h.emitted datagram (List.mem_append_left _ hmem) f hf

variable [Mul α] [Seconds α]

theorem pump (h : Sending e sent numbered) (hlen : numbered.length ≤ 2 ^ 32) {now : Nat}
    (hpump : e.pump now = .ok e') : Sending e' sent numbered := by
  obtain ⟨timeout, -, rfl⟩ := pump_eq_ok hpump
  exact h.pumped hlen now timeout

/-- Letting the send queue run loses no frame. -/
theorem outstanding_pump (h : Sending e sent numbered) (hlen : numbered.length ≤ 2 ^ 32) {now : Nat}
    (hpump : e.pump now = .ok e') : e'.queue.outstanding = e.queue.outstanding := by
  obtain ⟨timeout, -, rfl⟩ := pump_eq_ok hpump
  have hadm := SendQueue.admissible_of_nodup (h.nodup hlen)
  exact h.scheduled.outstanding_ticked hadm now timeout

variable [Add α] [Sub α]

/-- An acknowledgement takes a frame out of the queue and leaves the others. -/
theorem retire (h : Sending e sent numbered) (hlen : numbered.length ≤ 2 ^ 32) {seq : UInt32}
    {sample now : Nat} {queue : SendQueue}
    (hack : e.queue.acknowledge? seq now = some (sample, queue)) :
    Sending (e.retire sample queue) sent numbered := by
  obtain ⟨hscheduled, -, -, hwindow, -⟩ := h.scheduled.acknowledge hack
  have hkeep := h.scheduled.outstanding_acknowledge (h.nodup hlen) hack
  have hpos := h.window_pos
  refine ⟨h.next, h.consecutive, h.fits, h.emitted, hscheduled, ?_, ?_, h.unopened, h.limit⟩
  · show 0 < queue.window
    omega
  · obtain ⟨kept, hsub, heq⟩ := h.outstanding
    refine ⟨kept.filter fun f => !(f.seq == seq), List.filter_sublist.trans hsub, ?_⟩
    show queue.outstanding = _
    rw [hkeep, heq, List.filter_map]
    rfl

/-- Every operation keeps it. -/
theorem step {op : Operation} {answer : Answer} (h : Sending e sent numbered)
    (hout : Outcome e op answer e')
    (hlen : (numbered ++ e.numbers op answer).length ≤ 2 ^ 32) :
    Sending e' (sent ++ answer.sent) (numbered ++ e.numbers op answer) := by
  have hold : numbered.length ≤ 2 ^ 32 := by
    rw [List.length_append] at hlen
    omega
  cases hout with
  | aside move _ _ numbers _ sent _ _ =>
    rw [numbers, sent, List.append_nil, List.append_nil]
    exact h.move move
  | @accept packet wrapped secret now _ up wrap _ fits pump =>
    rw [numbers_send wrap] at hlen ⊢
    show Sending e' (sent ++ []) _
    rw [List.append_nil]
    exact (h.accepted up secret fits).pump hlen pump
  | pulse _ move pump =>
    show Sending e' (sent ++ []) (numbered ++ [])
    rw [List.append_nil, List.append_nil]
    exact (h.move move).pump hold pump
  | retire _ _ known pump =>
    show Sending e' (sent ++ []) (numbered ++ [])
    rw [List.append_nil, List.append_nil]
    exact (h.retire hold known).pump hold pump
  | piece _ _ =>
    show Sending _ (sent ++ []) (numbered ++ [])
    rw [List.append_nil, List.append_nil]
    exact h.onData _
  | @transmit datagram rest outbox =>
    show Sending _ (sent ++ [datagram]) (numbered ++ [])
    rw [List.append_nil]
    refine ⟨h.next, h.consecutive, h.fits, ?_, h.scheduled, h.window_pos, h.outstanding,
      h.unopened, h.limit⟩
    have hemitted := h.emitted
    rw [outbox] at hemitted
    rw [List.append_assoc]
    exact hemitted
  | report _ =>
    show Sending _ (sent ++ []) (numbered ++ [])
    rw [List.append_nil, List.append_nil]
    exact h.congr rfl rfl rfl rfl (fun hphase => hphase)

/-- An operation that numbers nothing. -/
theorem step_of_numbers_nil {op : Operation} {answer : Answer} (h : Sending e sent numbered)
    (hout : Outcome e op answer e') (hnone : e.numbers op answer = [])
    (hlen : numbered.length ≤ 2 ^ 32) : Sending e' (sent ++ answer.sent) numbered := by
  have hall : numbered ++ e.numbers op answer = numbered := by rw [hnone, List.append_nil]
  have hstep := h.step hout (hall.symm ▸ hlen)
  rw [hall] at hstep
  exact hstep

/-- While the endpoint stays up, what it numbers is queued, and only an acknowledgement takes a
frame out of the queue. -/
theorem keeps {op : Operation} {answer : Answer} (h : Sending e sent numbered)
    (hout : Outcome e op answer e')
    (hlen : (numbered ++ e.numbers op answer).length ≤ 2 ^ 32) (hup : e'.phase = .established) :
    (∀ f ∈ e.numbers op answer, waitingFor f ∈ e'.queue.outstanding) ∧
      ∀ w ∈ e.queue.outstanding, w ∈ e'.queue.outstanding ∨
        ∃ datagram now, op = .receive datagram now ∧ Frame.decode datagram = .ok (.ack w.seq) := by
  have hopen := isTerminal_of_established hup
  have hold : numbered.length ≤ 2 ^ 32 := by
    rw [List.length_append] at hlen
    omega
  cases hout with
  | aside move _ _ numbers _ _ _ _ =>
    have hqueue : e'.queue = e.queue := (move.data hopen).2.1
    refine ⟨?_, fun w hw => .inl (hqueue ▸ hw)⟩
    rw [numbers]
    exact fun f hf => absurd hf List.not_mem_nil
  | @accept packet wrapped secret now _ up wrap _ fits pump =>
    rw [numbers_send wrap] at hlen ⊢
    have hall : e'.queue.outstanding =
        e.queue.outstanding ++ (e.splitter.fragments wrapped).map waitingFor := by
      rw [(h.accepted up secret fits).outstanding_pump hlen pump]
      exact SendQueue.outstanding_enqueueAll e.queue _
    rw [hall]
    refine ⟨?_, fun w hw => .inl (List.mem_append_left _ hw)⟩
    intro f hf
    exact List.mem_append_right _ (List.mem_map_of_mem hf)
  | @pulse now e₁ _ up move pump =>
    have hopen₁ : e₁.phase.isTerminal = false := by
      obtain ⟨timeout, -, rfl⟩ := pump_eq_ok pump
      exact hopen
    have hqueue : e₁.queue = e.queue := (move.data hopen₁).2.1
    refine ⟨fun f hf => absurd hf List.not_mem_nil, ?_⟩
    intro w hw
    left
    rw [(h.move move).outstanding_pump hold pump, hqueue]
    exact hw
  | @retire datagram seq sample now queue _ up frame known pump =>
    have hkeep := h.scheduled.outstanding_acknowledge (h.nodup hold) known
    refine ⟨fun f hf => absurd hf List.not_mem_nil, ?_⟩
    intro w hw
    by_cases hseq : w.seq = seq
    · right
      exact ⟨datagram, now, rfl, hseq ▸ frame⟩
    · left
      rw [(h.retire hold known).outstanding_pump hold pump]
      show w ∈ queue.outstanding
      rw [hkeep]
      exact List.mem_filter.2 ⟨hw, by simp [hseq]⟩
  | piece up _ =>
    have hqueue := (onData_data hopen).2.1
    refine ⟨fun f hf => absurd hf List.not_mem_nil, ?_⟩
    intro w hw
    left
    rw [hqueue]
    exact hw
  | transmit _ =>
    exact ⟨fun f hf => absurd hf List.not_mem_nil, fun w hw => .inl hw⟩
  | report _ =>
    exact ⟨fun f hf => absurd hf List.not_mem_nil, fun w hw => .inl hw⟩

end Sending

/-- In the clear, what an operation numbers carries the packet that it accepts. -/
theorem Outcome.carries [Add α] [Sub α] [Mul α] [Seconds α] {e e' : Endpoint α σ} {op : Operation}
    {answer : Answer} (h : Outcome e op answer e') (hplain : e.transform = .plain)
    (hlimit : e.settings.maxPacketSize ≤ maxTotal) :
    (op.accepted answer = [] ∧ e.numbers op answer = []) ∨
      ∃ packet, op.accepted answer = [packet] ∧ packet.length ≤ e.settings.maxPacketSize ∧
        Carries packet (e.numbers op answer) := by
  cases h with
  | aside _ _ _ numbers _ _ _ accepted => exact .inl ⟨accepted, numbers⟩
  | @accept packet wrapped secret now _ _ wrap small _ _ =>
    right
    have hsame : wrapped = packet := by
      rw [hplain] at wrap
      exact (Except.ok.inj (Prod.mk.inj wrap).1).symm
    refine ⟨packet, rfl, small, ?_⟩
    rw [numbers_send wrap, hsame]
    exact e.splitter.carries_fragments (Nat.le_trans small hlimit)
  | _ => exact .inl ⟨rfl, rfl⟩

end Endpoint

end DatagramTunnel.Session
