import DatagramTunnel.Proofs.Flight.Workload
import DatagramTunnel.Proofs.Session.History

/-!
# What an endpoint can still say at one instant

Datagrams call forth datagrams: a HELLO is answered by a HELLO, a PING by a PONG, a data frame by an
acknowledgement, and an acknowledgement lets the send queue run.  Each of these is paid for.  The
answer to a PING or a data frame calls for no further answer; the send queue can send no more than
its workload; and a second HELLO is not due at the instant of the first one.

`weight` counts a datagram together with the answer it calls for, and `effort` adds up what an
endpoint holds for the socket, what its send queue can still send and whether a HELLO is due.
`receive_effort` says that taking in a datagram never adds its whole weight.
-/

namespace DatagramTunnel.Session

open Flight Packet Wire

/-- Whether the frame is answered whenever the connection is up. -/
def isCall : Frame → Bool
  | .ping _ | .data _ => true
  | .hello _ | .pong _ | .ack _ | .pipe _ _ => false

/-- What a datagram can cost its receiver, with the answer it calls for. -/
def weight (datagram : Bytes) : Nat :=
  match Frame.decode datagram with
  | .ok frame => 1 + (isCall frame).toNat
  | .error _ => 1

theorem weight_of_frame {datagram : Bytes} {frame : Frame}
    (h : Frame.decode datagram = .ok frame) : weight datagram = 1 + (isCall frame).toNat := by
  rw [weight, h]

theorem weight_encode {f : Frame} (h : f.Fits) : weight f.encode = 1 + (isCall f).toNat :=
  weight_of_frame (Frame.decode_encode_of_fits h)

theorem weight_pos (datagram : Bytes) : 0 < weight datagram := by
  unfold weight
  split
  · exact Nat.lt_add_right _ Nat.one_pos
  · exact Nat.one_pos

theorem weight_le_two (datagram : Bytes) : weight datagram ≤ 2 := by
  unfold weight
  split
  · exact Nat.add_le_add_left (Bool.toNat_le _) 1
  · decide

theorem sum_weight_le (datagrams : List Bytes) :
    (datagrams.map weight).sum ≤ 2 * datagrams.length := by
  induction datagrams with
  | nil => exact Nat.le_refl _
  | cons datagram rest ih =>
    have hfirst := weight_le_two datagram
    simp only [List.map_cons, List.sum_cons, List.length_cons]
    omega

namespace Endpoint

variable {α σ : Type}

/-- A bound on what the endpoint can still put on the wire at an instant. -/
def effort (e : Endpoint α σ) (now : Nat) : Nat :=
  2 * e.queue.workload now + (e.helloDue now (e.settings.helloInterval / 2)).toNat +
    (e.outbox.map weight).sum

/-- Neither HELLOs nor retransmissions may follow one another at one instant. -/
structure Paced (e : Endpoint α σ) : Prop where
  interval : 2 ≤ e.settings.helloInterval
  floor : 0 < e.roundTrip.floor

theorem New.paced {e : Endpoint α σ} {settings : Settings} {token : Bytes}
    {transform : Transform σ} (h : e.New settings token transform)
    (hinterval : 2 ≤ settings.helloInterval) : e.Paced := by
  refine ⟨?_, ?_⟩
  · rw [h.settings_eq]
    exact hinterval
  · rw [h.floor_eq]
    exact h.sound.minRto

variable {e e' : Endpoint α σ} {now : Nat}

/-! ## What pays for what -/

theorem effort_post (e : Endpoint α σ) (datagram : Bytes) (now : Nat) :
    (e.post datagram).effort now = e.effort now + weight datagram := by
  simp only [effort, post, List.map_append, List.sum_append, List.map_cons, List.map_nil,
    List.sum_cons, List.sum_nil, Nat.add_zero]
  exact (Nat.add_assoc _ _ _).symm

theorem effort_finish_le (e : Endpoint α σ) (last : Event) (now : Nat) :
    (e.finish last).effort now ≤ e.effort now := by
  have hcleared : (e.finish last).effort now =
      0 + (e.helloDue now (e.settings.helloInterval / 2)).toNat + 0 := rfl
  rw [hcleared, effort]
  omega

/-- The answer to a HELLO is paid for by its being due. -/
theorem effort_sendHello_le (h : e.Paced)
    (hdue : e.helloDue now (e.settings.helloInterval / 2) = true) :
    (e.sendHello now).effort now ≤ e.effort now := by
  have hhalf : 0 < e.settings.helloInterval / 2 := Nat.div_pos h.interval (by decide)
  let e₁ : Endpoint α σ := { e with lastHello := some now }
  have hagain : e₁.helloDue now (e.settings.helloInterval / 2) = false := by
    simp only [helloDue, elapsed, Nat.sub_self, decide_eq_false_iff_not, e₁]
    omega
  have hpaid : e₁.effort now + 1 = e.effort now := by
    show 2 * e.queue.workload now + (e₁.helloDue now (e.settings.helloInterval / 2)).toNat +
      (e.outbox.map weight).sum + 1 = _
    rw [hagain, effort, hdue]
    simp only [Bool.toNat_false, Bool.toNat_true]
    omega
  have hpost : (e.sendHello now).effort now = e₁.effort now + 1 := by
    rw [sendHello, effort_post, weight_encode (f := .hello _) trivial]
    rfl
  exact Nat.le_of_eq (hpost.trans hpaid)

/-- What the send queue sends is paid for by its workload. -/
theorem effort_pumped_le (e : Endpoint α σ) (now : Nat) {timeout : Nat} (hpos : 0 < timeout) :
    (e.pumped now timeout).effort now ≤ e.effort now := by
  have hwork := e.queue.length_add_workload_ticked now hpos
  have hweight := sum_weight_le (e.queue.ticked now timeout).1.datagrams
  show 2 * (e.queue.ticked now timeout).2.workload now +
    (e.helloDue now (e.settings.helloInterval / 2)).toNat +
      ((e.outbox ++ (e.queue.ticked now timeout).1.datagrams).map weight).sum ≤ _
  rw [List.map_append, List.sum_append, effort]
  omega

/-- The window is judged, and the data frame is acknowledged at most once. -/
theorem effort_offered_le (e : Endpoint α σ) (f : Fragment) (now : Nat) :
    (e.offered f).effort now ≤ e.effort now + 1 := by
  unfold offered
  dsimp only
  split
  · rw [effort_post, weight_encode (f := .ack _) trivial]
    exact Nat.le_refl _
  · exact Nat.le_succ _

theorem effort_onHello_le (h : e.Paced) (token : Bytes) (now : Nat) :
    (e.onHello token now).effort now ≤ e.effort now := by
  unfold onHello
  cases hphase : e.phase with
  | connecting =>
    dsimp only
    split
    · exact Nat.le_refl _
    · rw [fail, if_pos hphase]
      exact effort_finish_le e _ now
  | established =>
    dsimp only
    split
    · split
      · rename_i hdue
        exact effort_sendHello_le h hdue
      · exact Nat.le_refl _
    · exact Nat.le_refl _
  | closing => exact Nat.le_refl _
  | closed => exact Nat.le_refl _

/-! ## One act -/

section Act

variable [Add α] [Sub α] [Mul α] [Seconds α] {op : Operation}

theorem Paced.act (h : e.Paced) (hact : Act op e e') : e'.Paced := by
  refine ⟨?_, ?_⟩
  · rw [hact.constants.1]
    exact h.interval
  · cases hact with
    | offer _ _ =>
      rw [offered_eq]
      exact h.floor
    | _ => exact h.floor

theorem Paced.acts (h : e.Paced) (hacts : Acts op e e') : e'.Paced :=
  hacts.induct (P := Paced) (fun ih hact => ih.act hact) h

theorem Paced.perform {answer : Answer} (h : e.Paced)
    (hperform : e.perform op = .ok (answer, e')) : e'.Paced := by
  cases perform_deed hperform with
  | acts hacts _ _ => exact h.acts hacts
  | transmit _ => exact ⟨h.interval, h.floor⟩
  | report _ => exact ⟨h.interval, h.floor⟩
  | shut _ _ => exact ⟨h.interval, h.floor⟩

theorem Paced.performAll {ops : List Operation} {answers : List Answer} (h : e.Paced)
    (hrun : e.performAll ops = .ok (answers, e')) : e'.Paced :=
  performAll_induct_past (P := fun _ _ e => e.Paced) (fun _ ih hperform => ih.perform hperform) h
    hrun

/-- What is no frame calls forth nothing. -/
theorem Act.effort_le {datagram : Bytes} (h : Act (.receive datagram now) e e') (hpaced : e.Paced)
    (hno : ∀ frame, Frame.decode datagram ≠ .ok frame) : e'.effort now ≤ e.effort now := by
  cases h with
  | down _ _ => exact effort_finish_le e _ now
  | fail _ _ => exact effort_finish_le e _ now
  | pump instant _ timeout_eq =>
    obtain rfl := Option.some.inj instant
    have hpos := Nat.lt_of_lt_of_le hpaced.floor (RoundTrip.floor_le_timeout timeout_eq)
    exact effort_pumped_le e now hpos
  | greet _ frame | rise _ frame | mismatch _ frame | offer _ frame | answer _ frame
  | heard _ frame | retire _ frame => exact absurd frame (hno _)
  | _ => exact Nat.le_refl _

end Act

/-! ## One datagram -/

section Arrival

variable [Add α] [Sub α] [Mul α] [Seconds α] {datagram : Bytes}

/-- The acts in which a packet is delivered or a violation is counted would be possible for a
datagram that is no frame, such as the empty one. -/
theorem Acts.effort_le (h : Acts (.receive [] now) e e') (hpaced : e.Paced) :
    e'.Paced ∧ e'.effort now ≤ e.effort now := by
  refine h.induct (P := fun e' => e'.Paced ∧ e'.effort now ≤ e.effort now)
    (fun ih hact => ⟨ih.1.act hact, ?_⟩) ⟨hpaced, Nat.le_refl _⟩
  exact (hact.effort_le ih.1 nofun).trans ih.2

theorem effort_onAck_le (h : e.Paced) {seq : UInt32} (hack : e.onAck seq now = .ok e') :
    e'.effort now ≤ e.effort now := by
  unfold onAck at hack
  split at hack
  · exact Except.ok.inj hack ▸ Nat.le_refl _
  · rename_i sample queue hknown
    obtain ⟨timeout, htimeout, rfl⟩ := pump_eq_ok (e := e.retire sample queue) hack
    have hfloor : 0 < (e.retire sample queue).roundTrip.floor := h.floor
    have hpos := Nat.lt_of_lt_of_le hfloor (RoundTrip.floor_le_timeout htimeout)
    have hretired : (e.retire sample queue).effort now ≤ e.effort now := by
      have hwork := SendQueue.workload_acknowledge_le hknown
      show 2 * queue.workload now + _ + _ ≤ 2 * e.queue.workload now + _ + _
      exact Nat.add_le_add_right (Nat.add_le_add_right (Nat.mul_le_mul_left 2 hwork) _) _
    exact (effort_pumped_le (e.retire sample queue) now hpos).trans hretired

theorem effort_onData_le (h : e.Paced) (f : Fragment) (now : Nat) :
    (e.onData f).effort now ≤ e.effort now + 1 := by
  have hoffered : (e.offered f).Paced := by
    rw [offered_eq]
    exact ⟨h.interval, h.floor⟩
  suffices hall : (e.onData f).Paced ∧ (e.onData f).effort now ≤ e.effort now + 1 from hall.2
  apply onData_induct (P := fun e' => e'.Paced ∧ e'.effort now ≤ e.effort now + 1)
  · rintro e₁ g window ⟨hpaced, hle⟩ hup₁ -
    have hread : (e₁.advanced g window).Paced := ⟨hpaced.interval, hpaced.floor⟩
    have hacts : Acts (.receive [] now) (e₁.advanced g window)
        ((e₁.advanced g window).absorb (e₁.inlet.assembler.push g).1) :=
      absorb_acts (e := e₁.advanced g window) hup₁ _
    obtain ⟨hpaced', hle'⟩ := hacts.effort_le hread
    exact ⟨hpaced', hle'.trans hle⟩
  · exact ⟨hoffered, effort_offered_le e f now⟩

theorem effort_onFrame_lt (h : e.Paced) {frame : Frame} (hframe : Frame.decode datagram = .ok frame)
    (hresult : e.onFrame frame now = .ok e') :
    e'.effort now < e.effort now + weight datagram := by
  have hpos := weight_pos datagram
  unfold onFrame at hresult
  split at hresult
  · have hle := Except.ok.inj hresult ▸ effort_onHello_le h _ now
    omega
  · split at hresult
    · rename_i hup
      split at hresult
      · exact Except.ok.inj hresult ▸ Nat.lt_add_of_pos_right hpos
      · rw [weight_of_frame hframe, ← Except.ok.inj hresult, effort_post,
          weight_encode (f := .pong _) trivial]
        exact Nat.lt_succ_self _
      · exact Except.ok.inj hresult ▸ Nat.lt_add_of_pos_right hpos
      · have hle := effort_onAck_le h hresult
        omega
      · have hle := Except.ok.inj hresult ▸ effort_onData_le h _ now
        rw [weight_of_frame hframe, isCall, Bool.toNat_true]
        omega
      · rename_i id payload _
        have hacts : Acts (.receive [] now) e (e.onPipe id payload) := onPipe_acts hup id payload
        have hle := Except.ok.inj hresult ▸ (hacts.effort_le h).2
        omega
    · exact Except.ok.inj hresult ▸ Nat.lt_add_of_pos_right hpos

/-- Whatever a datagram calls forth weighs less than the datagram itself. -/
theorem receive_effort (h : e.Paced) (hreceive : e.receive datagram now = .ok e') :
    e'.Paced ∧ e'.effort now < e.effort now + weight datagram := by
  have hpos := weight_pos datagram
  refine ⟨h.acts (receive_acts hreceive), ?_⟩
  unfold receive at hreceive
  split at hreceive
  · exact Except.ok.inj hreceive ▸ Nat.lt_add_of_pos_right hpos
  · split at hreceive
    · exact Except.ok.inj hreceive ▸ Nat.lt_add_of_pos_right hpos
    · rename_i hframe
      exact effort_onFrame_lt h hframe hreceive

end Arrival

end Endpoint

end DatagramTunnel.Session
