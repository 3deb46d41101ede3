import DatagramTunnel.Proofs.Flight.Outstanding
import DatagramTunnel.Proofs.Session.Creation
import DatagramTunnel.Proofs.Session.Intake
import DatagramTunnel.Proofs.Wire.Reading

/-!
# An endpoint that receives

`Receiving e sent stream admitted` is what holds of an endpoint that takes data frames from the
stream `stream`, has admitted the frames `admitted` so far, and has put the datagrams `sent` on the
path: its window is in order, and each acknowledgement it has sent or is about to send names a frame
that it has admitted.  As long as the connection has not ended, it has forgotten none of them.

`Receiving.step` says that every operation keeps it, as long as only frames of the stream arrive
and their numbers can be told apart.  `Settled` is what holds between two operations besides: no
frame is left whose turn has come.
-/

namespace DatagramTunnel.Session.Endpoint

open Flight Packet Wire

variable {α σ : Type}

/-- The number of frames that the window has released, as long as there are fewer than numbers. -/
def released (e : Endpoint α σ) : Nat := e.inlet.window.cursor.toNat

theorem New.released_eq {e : Endpoint α σ} {settings : Settings} {token : Bytes}
    {transform : Transform σ} (h : e.New settings token transform) : e.released = 0 := by
  rw [released, h.inlet_eq]
  rfl

/-- A move releases no frame. -/
theorem Move.released {e e' : Endpoint α σ} {marks : List Mark} (h : Move e marks e') :
    e'.released = e.released := by
  induction h with
  | adjust same _ =>
    exact congrArg (fun inlet => inlet.window.cursor.toNat) (congrArg Core.inlet same)
  | trans _ _ ih₁ ih₂ => exact ih₂.trans ih₁
  | _ => rfl

/-- What the window says to an arriving frame releases none. -/
theorem released_offered (e : Endpoint α σ) (f : Fragment) :
    (e.offered f).released = e.released := by
  rw [released, offered_window, ReorderWindow.insert_snd_cursor, released]

/-- What holds of an endpoint that reads this stream and has admitted these frames of it. -/
structure Receiving (e : Endpoint α σ) (sent : List Bytes) (stream admitted : List Fragment) :
    Prop where
  ordered : e.inlet.window.Ordered 0 stream admitted e.released
  /-- Only admitted frames are acknowledged. -/
  answered : ∀ datagram ∈ sent ++ e.outbox, ∀ seq, Frame.decode datagram = .ok (.ack seq) →
    ∃ f ∈ admitted, f.seq = seq
  /-- The frames of the other direction are no acknowledgements. -/
  queued : ∀ w ∈ e.queue.outstanding, ∃ f, w.datagram = (Frame.data f).encode
  remembers : e.phase.isTerminal = false → e.inlet.window.Remembers stream admitted e.released
  size_pos : 0 < e.inlet.window.size

/-- No frame is left whose turn has come. -/
def Settled (e : Endpoint α σ) : Prop :=
  e.phase.isTerminal = false → e.inlet.window.pop? = none

/-- What is written as another frame is not read as an acknowledgement. -/
theorem decode_ne_ack {frame : Frame} (h : ∀ seq, frame ≠ .ack seq) (seq : UInt32) :
    Frame.decode frame.encode ≠ .ok (.ack seq) := by
  intro heq
  rw [Frame.decode_encode] at heq
  have hwire := Except.ok.inj heq
  cases frame with
  | ack other => exact h other rfl
  | _ => cases hwire

namespace Receiving

variable {e e' : Endpoint α σ} {sent : List Bytes} {stream admitted : List Fragment}

/-- A new endpoint has admitted nothing. -/
theorem start {settings : Settings} {token : Bytes} {transform : Transform σ}
    (h : e.New settings token transform) : Receiving e [] [] [] := by
  refine ⟨?_, ?_, ?_, fun _ _ hf => absurd hf List.not_mem_nil, ?_⟩
  · rw [h.released_eq, h.inlet_eq]
    exact ⟨rfl, Nat.le_refl _, fun _ hf => hf, fun _ hf => hf, fun _ hf => hf⟩
  · rw [h.outbox_eq]
    exact fun _ hd => absurd hd List.not_mem_nil
  · rw [h.queue_eq]
    exact fun _ hw => absurd hw List.not_mem_nil
  · rw [h.inlet_eq]
    exact Nat.lt_of_lt_of_le h.sound.maxInFlight h.sound.window

/-- Only these parts of the endpoint matter. -/
theorem congr (h : Receiving e sent stream admitted)
    (hwindow : e'.inlet.window = e.inlet.window) (houtbox : e'.outbox = e.outbox)
    (hqueue : e'.queue = e.queue)
    (hphase : e'.phase.isTerminal = false → e.phase.isTerminal = false) :
    Receiving e' sent stream admitted := by
  have hreleased : e'.released = e.released := congrArg (fun w => w.cursor.toNat) hwindow
  refine ⟨?_, houtbox ▸ h.answered, hqueue ▸ h.queued, fun hopen => ?_, hwindow ▸ h.size_pos⟩
  · rw [hwindow, hreleased]
    exact h.ordered
  · rw [hwindow, hreleased]
    exact h.remembers (hphase hopen)

/-- The stream may grow at its end. -/
theorem extend (h : Receiving e sent stream admitted) (more : List Fragment) :
    Receiving e sent (stream ++ more) admitted :=
  ⟨h.ordered.extend more, h.answered, h.queued,
    fun hopen => (h.remembers hopen).extend h.ordered.count_le more, h.size_pos⟩

/-- What goes out besides does no harm if it is no acknowledgement. -/
theorem append_outbox (h : Receiving e sent stream admitted) {datagrams : List Bytes}
    (hnone : ∀ datagram ∈ datagrams, ∀ seq, Frame.decode datagram ≠ .ok (.ack seq)) :
    ∀ datagram ∈ sent ++ (e.outbox ++ datagrams), ∀ seq,
      Frame.decode datagram = .ok (.ack seq) → ∃ f ∈ admitted, f.seq = seq := by
  intro datagram hmem seq hseq
  rw [← List.append_assoc] at hmem
  rcases List.mem_append.1 hmem with hold | hnew
  · exact h.answered datagram hold seq hseq
  · exact absurd hseq (hnone datagram hnew seq)

theorem post (h : Receiving e sent stream admitted) {frame : Frame}
    (hframe : ∀ seq, frame ≠ .ack seq) : Receiving (e.post frame.encode) sent stream admitted := by
  refine ⟨h.ordered, h.append_outbox ?_, h.queued, h.remembers, h.size_pos⟩
  intro datagram hmem seq
  rw [List.mem_singleton] at hmem
  subst hmem
  exact decode_ne_ack hframe seq

/-- What leaves the data alone keeps them in order. -/
theorem move {marks : List Mark} (h : Receiving e sent stream admitted)
    (hmove : Move e marks e') : Receiving e' sent stream admitted := by
  induction hmove with
  | @adjust e₁ e₂ same _ =>
    have hphase : e₂.phase = e₁.phase := congrArg Core.phase same
    have hinlet : e₂.inlet = e₁.inlet := congrArg Core.inlet same
    exact h.congr (congrArg Inlet.window hinlet) (congrArg Core.outbox same)
      (congrArg Core.queue same) (fun hopen => hphase ▸ hopen)
  | rise phase => exact h.congr rfl rfl rfl (fun _ => isTerminal_of_connecting phase)
  | post frame _ control =>
    apply h.post
    rintro seq rfl
    exact control
  | finish _ _ =>
    refine ⟨h.ordered.clear, ?_, fun w hw => absurd hw List.not_mem_nil,
      fun hopen => (by cases hopen), h.size_pos⟩
    intro datagram hmem seq hseq
    refine h.answered datagram ?_ seq hseq
    rcases List.mem_append.1 hmem with hsent | hout
    · exact List.mem_append_left _ hsent
    · exact absurd hout List.not_mem_nil
  | shut _ => exact h.congr rfl rfl rfl (fun hopen => (by cases hopen))
  | trans _ _ ih₁ ih₂ => exact ih₂ (ih₁ h)
  | _ => exact h.congr rfl rfl rfl (fun hopen => hopen)

/-- Letting the send queue run sends data frames only. -/
theorem pumped (h : Receiving e sent stream admitted) (now timeout : Nat) :
    Receiving (e.pumped now timeout) sent stream admitted := by
  have htick := SendQueue.mem_outstanding_ticked e.queue now timeout
  refine ⟨h.ordered, h.append_outbox ?_, fun w hw => h.queued w (htick.1 w hw), h.remembers,
    h.size_pos⟩
  intro datagram hmem seq
  obtain ⟨w, hw, rfl⟩ := htick.2 datagram hmem
  obtain ⟨f, hf⟩ := h.queued w hw
  rw [hf]
  apply decode_ne_ack
  intro other hother
  cases hother

theorem enqueuePacket (h : Receiving e sent stream admitted) (wrapped : Bytes) :
    Receiving (e.enqueuePacket wrapped) sent stream admitted := by
  refine ⟨h.ordered, h.answered, ?_, h.remembers, h.size_pos⟩
  intro w hw
  rcases List.mem_append.1 ((SendQueue.outstanding_enqueueAll e.queue _) ▸ hw) with hold | hnew
  · exact h.queued w hold
  · obtain ⟨f, -, rfl⟩ := List.mem_map.1 hnew
    exact ⟨f, rfl⟩

/-- Offering a frame of the stream admits it or leaves the window as it is, and an answer goes out
only if it is admitted, now or earlier. -/
theorem offered (h : Receiving e sent stream admitted) (hnum : ConsecutiveFrom 0 stream)
    (hlen : stream.length ≤ 2 ^ 31) {f : Fragment} (hf : f ∈ stream) :
    Receiving (e.offered f) sent stream
      (admitted ++ if e.inlet.window.classify f.seq = .accepted then [f] else []) := by
  have hreleased := released_offered e f
  obtain ⟨hordered, hadmitted⟩ := h.ordered.insert hnum hlen hf
  refine ⟨?_, ?_, ?_, ?_, ?_⟩
  · rw [hreleased, offered_window]
    exact hordered
  · rw [offered_outbox, ← List.append_assoc]
    intro datagram hmem seq hseq
    rcases List.mem_append.1 hmem with hold | hnew
    · obtain ⟨g, hg, hgseq⟩ := h.answered datagram hold seq hseq
      exact ⟨g, List.mem_append_left _ hg, hgseq⟩
    · by_cases hack : (e.inlet.window.classify f.seq).acknowledged = true
      · rw [if_pos hack, List.mem_singleton] at hnew
        subst hnew
        have hread : Frame.decode (Frame.ack f.seq).encode = .ok (.ack f.seq) :=
          Frame.decode_encode_of_fits trivial
        rw [hread] at hseq
        exact ⟨f, hadmitted hack, Frame.ack.inj (Except.ok.inj hseq)⟩
      · rw [if_neg hack] at hnew
        exact absurd hnew List.not_mem_nil
  · rw [offered_queue]
    exact h.queued
  · rw [offered_phase, hreleased, offered_window]
    intro hopen
    exact (h.remembers hopen).insert f
  · rw [offered_window, ReorderWindow.insert_snd_size]
    exact h.size_pos

/-- A frame that is released and read moves the count on by one. -/
theorem advanced (h : Receiving e sent stream admitted) (hnum : ConsecutiveFrom 0 stream)
    (hlen : stream.length ≤ 2 ^ 31) (hup : e.phase = .established) {f : Fragment}
    {window : ReorderWindow} (hpop : e.inlet.window.pop? = some (f, window)) :
    (∃ hcount : e.released < stream.length, f = stream[e.released]) ∧
      (e.advanced f window).released = e.released + 1 ∧
      Receiving (e.advanced f window) sent stream admitted := by
  have hopen := isTerminal_of_established hup
  obtain ⟨⟨hcount, hf⟩, hordered⟩ := h.ordered.pop hnum (by omega) hpop
  have hremembers := (h.remembers hopen).pop h.ordered hnum (by omega) hpop
  have hreleased : (e.advanced f window).released = e.released + 1 := by
    have hcursor := congrArg UInt32.toNat hordered.cursor_eq
    rw [UInt32.zero_add, UInt32.toNat_ofNat', Nat.mod_eq_of_lt (by omega)] at hcursor
    exact hcursor
  refine ⟨⟨hcount, hf⟩, hreleased, ?_, h.answered, h.queued, ?_, ?_⟩
  · rw [hreleased]
    exact hordered
  · rw [hreleased]
    intro _
    exact hremembers
  · obtain ⟨-, -, rfl⟩ := ReorderWindow.pop?_eq_some hpop
    exact h.size_pos

/-- Taking in a frame of the stream keeps all in order, and the window never goes back. -/
theorem onData (h : Receiving e sent stream admitted) (hnum : ConsecutiveFrom 0 stream)
    (hlen : stream.length ≤ 2 ^ 31) {f : Fragment} (hf : f ∈ stream) :
    Receiving (e.onData f) sent stream
        (admitted ++ if e.inlet.window.classify f.seq = .accepted then [f] else []) ∧
      e.released ≤ (e.onData f).released := by
  apply onData_induct (P := fun e' => Receiving e' sent stream
    (admitted ++ if e.inlet.window.classify f.seq = .accepted then [f] else []) ∧
      e.released ≤ e'.released)
  · rintro e₁ g window ⟨h₁, hle⟩ hup hpop
    obtain ⟨-, hreleased, hread⟩ := h₁.advanced hnum hlen hup hpop
    obtain ⟨marks, hmove⟩ := absorb_move (e₁.advanced g window) (e₁.inlet.assembler.push g).1
    refine ⟨hread.move hmove, ?_⟩
    have hsame := hmove.released
    omega
  · exact ⟨h.offered hnum hlen hf, Nat.le_of_eq (released_offered e f).symm⟩

variable [Mul α] [Seconds α]

theorem pump (h : Receiving e sent stream admitted) {now : Nat} (hpump : e.pump now = .ok e') :
    Receiving e' sent stream admitted := by
  obtain ⟨timeout, -, rfl⟩ := pump_eq_ok hpump
  exact h.pumped now timeout

variable [Add α] [Sub α]

theorem retire (h : Receiving e sent stream admitted) {seq : UInt32} {sample now : Nat}
    {queue : SendQueue} (hack : e.queue.acknowledge? seq now = some (sample, queue)) :
    Receiving (e.retire sample queue) sent stream admitted :=
  ⟨h.ordered, h.answered,
    fun w hw => h.queued w (SendQueue.mem_outstanding_acknowledge hack hw), h.remembers,
    h.size_pos⟩

/-- Every operation keeps it, if only frames of the stream arrive. -/
theorem step {op : Operation} {answer : Answer} (h : Receiving e sent stream admitted)
    (hnum : ConsecutiveFrom 0 stream) (hlen : stream.length ≤ 2 ^ 31)
    (hpath : ∀ datagram now f, op = .receive datagram now →
      Frame.decode datagram = .ok (.data f) → f ∈ stream)
    (hout : Outcome e op answer e') :
    Receiving e' (sent ++ answer.sent) stream (admitted ++ e.admits op) := by
  cases hout with
  | aside move _ _ _ admits sent _ _ =>
    rw [admits, sent, List.append_nil, List.append_nil]
    exact h.move move
  | @accept packet wrapped secret now _ _ _ _ _ pump =>
    show Receiving e' (sent ++ []) stream (admitted ++ [])
    rw [List.append_nil, List.append_nil]
    have hsecret : Receiving { e with secret := secret } sent stream admitted :=
      h.move (.afterSecret secret (.refl _))
    exact (hsecret.enqueuePacket wrapped).pump pump
  | pulse _ move pump =>
    show Receiving e' (sent ++ []) stream (admitted ++ [])
    rw [List.append_nil, List.append_nil]
    exact (h.move move).pump pump
  | @retire datagram seq _ now _ _ _ frame known pump =>
    have hadmits : e.admits (.receive datagram now) = [] := by
      rw [admits, arriving?_eq_none (by simp [frame])]
    rw [hadmits]
    show Receiving e' (sent ++ []) stream (admitted ++ [])
    rw [List.append_nil, List.append_nil]
    exact (h.retire known).pump pump
  | @piece datagram f now up frame =>
    have hadmits : e.admits (.receive datagram now) =
        if e.inlet.window.classify f.seq = .accepted then [f] else [] := by
      rw [admits, arriving?_eq_some_iff.2 ⟨up, frame⟩]
    rw [hadmits]
    show Receiving _ (sent ++ []) stream _
    rw [List.append_nil]
    exact (h.onData hnum hlen (hpath datagram now f rfl frame)).1
  | @transmit datagram rest outbox =>
    show Receiving _ (sent ++ [datagram]) stream (admitted ++ [])
    rw [List.append_nil]
    refine ⟨h.ordered, ?_, h.queued, h.remembers, h.size_pos⟩
    have hanswered := h.answered
    rw [outbox] at hanswered
    rw [List.append_assoc]
    exact hanswered
  | report _ =>
    show Receiving _ (sent ++ []) stream (admitted ++ [])
    rw [List.append_nil, List.append_nil]
    exact h.congr rfl rfl rfl (fun hopen => hopen)

end Receiving

/-! ## Between two operations -/

namespace Settled

variable {e e' : Endpoint α σ}

theorem start {settings : Settings} {token : Bytes} {transform : Transform σ}
    (h : e.New settings token transform) : Settled e := by
  intro _
  rw [h.inlet_eq]
  rfl

theorem move {marks : List Mark} (h : Settled e) (hmove : Move e marks e') : Settled e' := by
  intro hopen
  rw [(hmove.data hopen).2.2.2]
  exact h (hmove.isTerminal hopen)

variable [Mul α] [Seconds α]

theorem pump (h : Settled e) {now : Nat} (hpump : e.pump now = .ok e') : Settled e' := by
  obtain ⟨timeout, -, rfl⟩ := pump_eq_ok hpump
  exact h

variable [Add α] [Sub α]

/-- Every operation leaves no frame whose turn has come. -/
theorem step {op : Operation} {answer : Answer} (h : Settled e) (hout : Outcome e op answer e') :
    Settled e' := by
  cases hout with
  | aside move _ _ _ _ _ _ _ => exact h.move move
  | @accept _ wrapped secret _ _ _ _ _ _ hpump =>
    have hqueued : Settled ({ e with secret := secret }.enqueuePacket wrapped) := h
    exact hqueued.pump hpump
  | pulse _ move pump => exact (h.move move).pump pump
  | @retire _ _ sample _ queue _ _ _ _ hpump =>
    have hretired : Settled (e.retire sample queue) := h
    exact hretired.pump hpump
  | piece up _ =>
    intro hopen
    exact pop?_onData (onData_established up hopen)
  | transmit _ => exact h
  | report _ => exact h

end Settled

end DatagramTunnel.Session.Endpoint
