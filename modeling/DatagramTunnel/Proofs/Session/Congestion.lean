import DatagramTunnel.Proofs.Flight.Occupancy
import DatagramTunnel.Proofs.Session.History

/-!
# The congestion window of an endpoint

A place in flight becomes free when an acknowledgement arrives, and a frame begins to wait when a
packet is sent.  In both cases the send queue runs before the operation is over, and whatever else
an endpoint does leaves the queue alone or empties it.  So between two operations no place is free
while a frame waits: `Outcome.queue_packed`.
-/

namespace DatagramTunnel.Session.Endpoint

open Flight Packet Wire

variable {α σ : Type} {e e' : Endpoint α σ}

/-! ## Operations that move no frame -/

theorem Move.queue_packed {marks : List Mark} (h : Move e marks e') (hpacked : e.queue.Packed) :
    e'.queue.Packed ∧ e'.queue.window = e.queue.window := by
  rcases h.data_or_dropped with ⟨hqueue, -⟩ | ⟨hqueue, -⟩
  · rw [hqueue]
    exact ⟨hpacked, rfl⟩
  · rw [hqueue]
    exact ⟨.clear e.queue, rfl⟩

theorem queue_packed_onData (hpacked : e.queue.Packed) (f : Fragment) :
    (e.onData f).queue.Packed ∧ (e.onData f).queue.window = e.queue.window := by
  apply onData_induct_move
    (P := fun e' => e'.queue.Packed ∧ e'.queue.window = e.queue.window)
  · exact fun _ _ h => h
  · rintro e₁ e₂ marks ⟨hpacked₁, hwindow₁⟩ hmove
    obtain ⟨hnext, hwindow⟩ := hmove.queue_packed hpacked₁
    exact ⟨hnext, hwindow.trans hwindow₁⟩
  · rw [offered_queue]
    exact ⟨hpacked, rfl⟩

/-! ## Operations that move frames -/

variable [Mul α] [Seconds α]

theorem queue_packed_of_pump (hbounded : e.queue.Bounded) {now : Nat}
    (hpump : e.pump now = .ok e') : e'.queue.Packed ∧ e'.queue.window = e.queue.window := by
  obtain ⟨timeout, -, rfl⟩ := pump_eq_ok hpump
  exact hbounded.ticked now timeout

variable [Add α] [Sub α]

theorem Outcome.queue_packed {op : Operation} {answer : Answer} (h : Outcome e op answer e')
    (hpacked : e.queue.Packed) : e'.queue.Packed ∧ e'.queue.window = e.queue.window := by
  have hbounded := hpacked.toBounded
  cases h with
  | aside move _ _ _ _ _ _ _ => exact move.queue_packed hpacked
  | accept _ _ _ _ pump =>
    obtain ⟨hnext, hwindow⟩ := queue_packed_of_pump (hbounded.enqueueAll _) pump
    exact ⟨hnext, hwindow⟩
  | pulse _ move pump =>
    obtain ⟨hmoved, hwindow⟩ := move.queue_packed hpacked
    obtain ⟨hnext, hwindow'⟩ := queue_packed_of_pump hmoved.toBounded pump
    exact ⟨hnext, hwindow'.trans hwindow⟩
  | retire _ _ known pump =>
    obtain ⟨hretired, hwindow⟩ := hbounded.acknowledge known
    obtain ⟨hnext, hwindow'⟩ := queue_packed_of_pump hretired pump
    exact ⟨hnext, hwindow'.trans hwindow⟩
  | piece _ _ => exact queue_packed_onData hpacked _
  | transmit _ => exact ⟨hpacked, rfl⟩
  | report _ => exact ⟨hpacked, rfl⟩

/-- In a run, whatever is called and whatever arrives, the congestion window is kept, and no place
in it is free while a frame waits. A queue that stands alone is in the same state after every tick,
even if a number was queued twice. -/
theorem congestion_window_kept :
    (∀ {settings : Settings} {token : Bytes} {transform : Transform σ} {secret : σ}
        {nonces : Nat → Nonce} {e₀ e : Endpoint α σ} {ops : List Operation}
        {answers : List Answer},
      create settings token transform secret nonces = .ok e₀ →
      e₀.performAll ops = .ok (answers, e) →
        (e.queue.inFlight.map Sent.seq).Nodup ∧
          e.queue.inFlight.length ≤ settings.maxInFlight ∧
          (e.queue.waiting ≠ [] → e.queue.inFlight.length = settings.maxInFlight)) ∧
      ∀ (window : Nat) (calls : List SendQueue.Call) (now timeout : Nat) (q : SendQueue),
        SendQueue.callAll { window } (calls ++ [.tick now timeout]) = .ok q →
          (q.inFlight.map Sent.seq).Nodup ∧ q.inFlight.length ≤ window ∧
            (q.waiting ≠ [] → q.inFlight.length = window) := by
  constructor
  · intro settings token transform secret nonces e₀ e ops answers hcreate hrun
    have hnew := (create_new hcreate).queue_eq
    obtain ⟨hpacked, hwindow⟩ : e.queue.Packed ∧ e.queue.window = settings.maxInFlight := by
      refine performAll_induct_past
        (P := fun _ _ e => e.queue.Packed ∧ e.queue.window = settings.maxInFlight)
        (fun _ ih hperform => ?_) ?_ hrun
      · obtain ⟨hnext, hsame⟩ := (perform_outcome hperform).queue_packed ih.1
        exact ⟨hnext, hsame.trans ih.2⟩
      · rw [hnew]
        exact ⟨.new settings.maxInFlight, rfl⟩
    rw [← hwindow]
    exact ⟨hpacked.distinct, hpacked.length_le, hpacked.full⟩
  · intro window calls now timeout q hrun
    obtain ⟨hpacked, hwindow⟩ := SendQueue.packed_of_callAll_tick hrun
    exact ⟨hpacked.distinct, Nat.le_trans hpacked.length_le (Nat.le_of_eq hwindow),
      fun hwaiting => (hpacked.full hwaiting).trans hwindow⟩

/-- Two places, and a packet of four frames of which the first is acknowledged twice: one frame is
still waiting, so both places are taken.  The same holds of a queue that was given the number 7
twice. -/
theorem congestion_window_kept_two : ∃ (nonces : Nat → Nonce) (e₀ e : Endpoint Rat Unit)
    (ops : List Operation) (answers : List Answer),
      create { maxInFlight := 2, mtu := 16 } [7] .plain () nonces = .ok e₀ ∧
        e₀.performAll ops = .ok (answers, e) ∧ e.queue.waiting.length = 1 ∧
        e.queue.inFlight.length = 2 ∧
        ∃ q, SendQueue.callAll { window := 2 } [.enqueue 7 [1], .enqueue 7 [2], .enqueue 8 [3],
          .enqueue 9 [4], .tick 0 10] = .ok q ∧ q.inFlight.length = 2 := by
  obtain ⟨hengine, hqueue⟩ := congestion_window_kept (α := Rat) (σ := Unit)
  obtain ⟨nonces, e₀, answers, e, hcreate, hrun, hwaiting⟩ := exists_of_trial
    (p := fun r => r.2.queue.waiting.length == 1)
    (show (trial { maxInFlight := 2, mtu := 16 } [7]
      [.connect 0, .receive (Frame.hello [7]).encode 0, .send (List.replicate 40 1) 0,
        .receive (Frame.ack 0).encode 1, .receive (Frame.ack 0).encode 2]).any _ = true by
      decide +kernel)
  rw [beq_iff_eq] at hwaiting
  refine ⟨nonces, e₀, e, _, answers, hcreate, hrun, hwaiting, ?_, _, rfl, ?_⟩
  · refine (hengine hcreate hrun).2.2 fun hnone => ?_
    rw [hnone] at hwaiting
    cases hwaiting
  · exact (hqueue 2 [.enqueue 7 [1], .enqueue 7 [2], .enqueue 8 [3], .enqueue 9 [4]] 0 10 _ rfl).2.2
      (by decide)

end DatagramTunnel.Session.Endpoint
