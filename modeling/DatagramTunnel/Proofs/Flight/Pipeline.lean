import DatagramTunnel.Proofs.Flight.Outstanding

/-!
# A queue on a path without loss

On a path that loses nothing, all that a queue has in flight was sent at the present instant, so
nothing is ever overdue and frames are acknowledged from the oldest on.  `Pipelined now frames
count` is the state of such a queue: of the outstanding `frames` the first `count` are in flight.  A
tick tops the flight up to the window, `Pipelined.ticked`; an acknowledgement of the oldest frame
takes it off the front, `Pipelined.acknowledge`; and packets are queued at the back,
`Pipelined.enqueueAll`.
-/

namespace DatagramTunnel.Flight.SendQueue

/-- The queue holds `frames`, and the first `count` of them were sent at `now`. -/
structure Pipelined (q : SendQueue) (now : Nat) (frames : List Waiting) (count : Nat) : Prop where
  scheduled : q.Scheduled []
  inFlight : q.inFlight.map Sent.frame = frames.take count
  waiting : q.waiting = frames.drop count
  recent : ∀ f ∈ q.inFlight, f.lastSentAt = now

/-- What is in flight and what tops it up make the window. -/
theorem take_append_drop_take {β : Type} (frames : List β) {count window : Nat}
    (h : count ≤ window) :
    frames.take count ++ (frames.take window).drop count = frames.take window := by
  have hfront : frames.take count = (frames.take window).take count := by
    rw [List.take_take, Nat.min_eq_left h]
  rw [hfront, List.take_append_drop]

/-- A tick before anything is overdue only fills the free places. -/
theorem ticked_of_recent {q : SendQueue} {now timeout : Nat}
    (h : q.schedule.overdue now timeout = []) :
    q.ticked now timeout =
      ({ datagrams := (fill now q.waiting q).1, admitted := (fill now q.waiting q).1.length },
        (fill now q.waiting q).2) := by
  have hpending : q.schedule.pending now timeout = q.schedule := by
    have hsplit := Schedule.overdue_append_pending q.schedule now timeout
    rw [h] at hsplit
    exact hsplit
  rw [ticked, h, hpending]
  rfl

namespace Pipelined

variable {q : SendQueue} {now count : Nat} {frames : List Waiting}

/-- An empty queue. -/
theorem start (now window count : Nat) : Pipelined { window := window } now [] count := by
  refine ⟨.clear (q := { window := window }), ?_, ?_, fun _ hf => absurd hf List.not_mem_nil⟩
  · rw [List.take_nil]
    rfl
  · rw [List.drop_nil]

theorem overdue_eq_nil (h : q.Pipelined now frames count) {timeout : Nat} (hpos : 0 < timeout) :
    q.schedule.overdue now timeout = [] := by
  apply List.eq_nil_iff_forall_not_mem.2
  intro x hx
  obtain ⟨hmem, hdue⟩ := (Schedule.mem_overdue_iff h.scheduled.sorted).1 hx
  obtain ⟨f, hf, -, rfl⟩ := h.scheduled.live x hmem
  have hrecent : f.entry.sentAt = now := h.recent f hf
  omega

theorem length_inFlight (h : q.Pipelined now frames count) :
    q.inFlight.length = min count frames.length := by
  have hlen := congrArg List.length h.inFlight
  rw [List.length_map, List.length_take] at hlen
  exact hlen

/-- A tick tops the flight up to the window and sends nothing twice. -/
theorem ticked (h : q.Pipelined now frames count) (hle : count ≤ q.window)
    (hnodup : ((frames.take q.window).map Waiting.seq).Nodup) {timeout : Nat} (hpos : 0 < timeout) :
    (q.ticked now timeout).1.datagrams =
        ((frames.take q.window).drop count).map Waiting.datagram ∧
      (q.ticked now timeout).1.retransmitted = 0 ∧
      (q.ticked now timeout).2.Pipelined now frames q.window ∧
      (q.ticked now timeout).2.window = q.window := by
  have hlen := h.length_inFlight
  -- what finds room is what stands between the flight and the window
  have hfresh : q.waiting.take q.room = (frames.take q.window).drop count := by
    rw [h.waiting, List.drop_take]
    by_cases hshort : count ≤ frames.length
    · rw [room, hlen, Nat.min_eq_left hshort]
    · have hnil : frames.drop count = [] := List.drop_of_length_le (by omega)
      rw [hnil, List.take_nil, List.take_nil]
  have hflight := take_append_drop_take frames hle
  have hrest : q.waiting.drop q.room = frames.drop q.window := by
    have hall : frames.take count ++ q.waiting = frames := by
      rw [h.waiting, List.take_append_drop]
    have hsplit := List.take_append_drop q.room q.waiting
    rw [hfresh] at hsplit
    rw [← hsplit, ← List.append_assoc, hflight] at hall
    exact List.append_cancel_left (hall.trans (List.take_append_drop q.window frames).symm)
  have hadm : q.Admissible q.waiting := by
    have hseqs : q.inFlight.map Sent.seq = (frames.take count).map Waiting.seq := by
      rw [← h.inFlight, List.map_map]
      rfl
    rw [Admissible, hseqs, hfresh, ← List.map_append, hflight]
    exact hnodup
  obtain ⟨hout, hflight', hwaiting⟩ := hadm.fill now
  rw [ticked_of_recent (h.overdue_eq_nil hpos)]
  refine ⟨?_, rfl, ⟨h.scheduled.fill hadm now, ?_, ?_, ?_⟩, window_fill now q.waiting q⟩
  · exact hfresh ▸ hout
  · rw [hflight', List.map_append, map_frame_launch, h.inFlight, hfresh, hflight]
  · rw [hwaiting, hrest]
  · intro f hf
    rw [hflight'] at hf
    rcases List.mem_append.1 hf with hold | hnew
    · exact h.recent f hold
    · exact lastSentAt_of_mem_launch hnew

/-- An acknowledgement of the oldest frame retires it. -/
theorem acknowledge {w : Waiting} (h : q.Pipelined now (w :: frames) (count + 1)) :
    ∃ sample q', q.acknowledge? w.seq now = some (sample, q') ∧ q'.Pipelined now frames count ∧
      q'.window = q.window := by
  obtain ⟨f, rest, hflight, hf, hrest⟩ : ∃ f rest, q.inFlight = f :: rest ∧ f.frame = w ∧
      rest.map Sent.frame = frames.take count := by
    have hmap := h.inFlight
    rw [List.take_succ_cons] at hmap
    exact List.map_eq_cons_iff.1 hmap
  have hseq : f.seq = w.seq := congrArg Waiting.seq hf
  have hmem : f ∈ q.inFlight := by
    rw [hflight]
    exact List.mem_cons_self
  obtain ⟨sample, q', hack⟩ := exists_acknowledge? hmem now
  rw [hseq] at hack
  obtain ⟨hscheduled, hkept, hwaiting, hwindow, -⟩ := h.scheduled.acknowledge hack
  have hothers : q'.inFlight = rest := by
    have hdistinct := h.scheduled.distinct
    rw [hflight, List.map_cons, List.nodup_cons] at hdistinct
    rw [hkept, hflight, List.filter_cons_of_neg (by simp [hseq])]
    apply others_eq_self
    intro g hg heq
    exact hdistinct.1 (List.mem_map.2 ⟨g, hg, heq.trans hseq.symm⟩)
  refine ⟨sample, q', hack, ⟨hscheduled, ?_, ?_, ?_⟩, hwindow⟩
  · rw [hothers, hrest]
  · rw [hwaiting, h.waiting, List.drop_succ_cons]
  · intro g hg
    rw [hothers] at hg
    apply h.recent
    rw [hflight]
    exact List.mem_cons_of_mem f hg

/-- Frames are queued behind those that are there; fewer places are taken then than the window
would have allowed. -/
theorem enqueueAll (h : q.Pipelined now frames count) (more : List Waiting) :
    (q.enqueueAll more).Pipelined now (frames ++ more) (min count frames.length) := by
  have hle : min count frames.length ≤ frames.length := Nat.min_le_right _ _
  refine ⟨h.scheduled.enqueueAll more, ?_, ?_, h.recent⟩
  · show q.inFlight.map Sent.frame = _
    rw [h.inFlight, List.take_append_of_le_length hle, List.take_eq_take_min]
  · show q.waiting ++ more = _
    rw [h.waiting, List.drop_append_of_le_length hle]
    by_cases hshort : count ≤ frames.length
    · rw [Nat.min_eq_left hshort]
    · have hlong : frames.length ≤ count := by omega
      rw [Nat.min_eq_right hlong, List.drop_length, List.drop_of_length_le hlong]

end Pipelined

end DatagramTunnel.Flight.SendQueue
