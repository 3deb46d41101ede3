import DatagramTunnel.Proofs.Flight.Outstanding

/-!
# How many frames are in flight

A send queue lets only `window` frames be in flight, and a tick leaves no place free for which a
frame is waiting.  Neither depends on who calls the queue or on the numbers it is given: a number
may be queued twice, and then the second transmission takes the place of the first instead of
another one.  `Bounded` is what every call keeps, `Packed` is what a tick establishes.

A tick may have no result, and then the run has none.  `after` is what a call does otherwise.
-/

namespace DatagramTunnel.Flight.SendQueue

/-- A call on a send queue that stands alone. -/
inductive Call where
  | enqueue (seq : UInt32) (datagram : Bytes)
  | tick (now timeout : Nat)
  | acknowledge (seq : UInt32) (now : Nat)
  | clear
  deriving DecidableEq, Repr

/-- The queue after one call. An acknowledgement of a number that is not in flight is ignored. -/
def call (q : SendQueue) : Call → Except TimeError SendQueue
  | .enqueue seq datagram => .ok (q.enqueue seq datagram)
  | .tick now timeout => do
    let (_, q') ← q.tick now timeout
    return q'
  | .acknowledge seq now => .ok (((q.acknowledge? seq now).map Prod.snd).getD q)
  | .clear => .ok q.clear

/-- The queue after calls one after the other. -/
def callAll (q : SendQueue) (calls : List Call) : Except TimeError SendQueue := calls.foldlM call q

/-- What a call makes of the queue if it has a result. -/
def after (q : SendQueue) : Call → SendQueue
  | .enqueue seq datagram => q.enqueue seq datagram
  | .tick now timeout => (q.ticked now timeout).2
  | .acknowledge seq now => ((q.acknowledge? seq now).map Prod.snd).getD q
  | .clear => q.clear

theorem eq_after {q q' : SendQueue} {c : Call} (h : q.call c = .ok q') : q' = q.after c := by
  cases c with
  | tick now timeout =>
    obtain ⟨result, htick, hrest⟩ := bind_eq_ok h
    obtain ⟨-, rfl⟩ := tick_eq_ok_iff.1 htick
    exact (Except.ok.inj hrest).symm
  | enqueue | acknowledge | clear => exact (Except.ok.inj h).symm

/-- A tick that has a result computes no deadline after the last instant. -/
theorem inReach_of_call {q q' : SendQueue} {now timeout : Nat}
    (h : q.call (.tick now timeout) = .ok q') : q.schedule.InReach now timeout := by
  obtain ⟨result, htick, -⟩ := bind_eq_ok h
  exact (tick_eq_ok_iff.1 htick).1

/-- A call has a result, unless it is a tick whose deadlines are not all instants. -/
theorem call_eq_after {q : SendQueue} {c : Call}
    (h : ∀ now timeout, c = .tick now timeout → q.schedule.InReach now timeout) :
    q.call c = .ok (q.after c) := by
  cases c with
  | tick now timeout =>
    rw [call, tick_of_inReach (h now timeout rfl)]
    rfl
  | enqueue | acknowledge | clear => rfl

theorem callAll_cons (q : SendQueue) (c : Call) (rest : List Call) :
    q.callAll (c :: rest) = q.call c >>= fun q' => q'.callAll rest :=
  List.foldlM_cons

theorem callAll_append (q : SendQueue) (first second : List Call) :
    q.callAll (first ++ second) = q.callAll first >>= fun q' => q'.callAll second :=
  List.foldlM_append

/-- A run that has a result has one at its first call, and from there on. -/
theorem exists_call_of_callAll {q q'' : SendQueue} {c : Call} {rest : List Call}
    (h : q.callAll (c :: rest) = .ok q'') :
    ∃ q', q.call c = .ok q' ∧ q'.callAll rest = .ok q'' := by
  rw [callAll_cons] at h
  exact bind_eq_ok h

/-- A run that has a result has one after its first part, and from there on. -/
theorem exists_of_callAll_append {q q'' : SendQueue} {first second : List Call}
    (h : q.callAll (first ++ second) = .ok q'') :
    ∃ q', q.callAll first = .ok q' ∧ q'.callAll second = .ok q'' := by
  rw [callAll_append] at h
  exact bind_eq_ok h

/-- What every call keeps holds after any run. -/
theorem callAll_induction {P : SendQueue → Prop}
    (hstep : ∀ {q : SendQueue} (c : Call), P q → P (q.after c)) {q q' : SendQueue} (h : P q)
    {calls : List Call} (hrun : q.callAll calls = .ok q') : P q' := by
  induction calls generalizing q with
  | nil => exact Except.ok.inj hrun ▸ h
  | cons c rest ih =>
    obtain ⟨q₁, hcall, hrest⟩ := exists_call_of_callAll hrun
    exact ih (eq_after hcall ▸ hstep c h) hrest

/-- No more frames are in flight than there are places for, each under a number of its own. -/
structure Bounded (q : SendQueue) : Prop where
  distinct : (q.inFlight.map Sent.seq).Nodup
  length_le : q.inFlight.length ≤ q.window

/-- No place is free while a frame waits. -/
structure Packed (q : SendQueue) : Prop extends Bounded q where
  full : q.waiting ≠ [] → q.inFlight.length = q.window

/-! ## Calls without a transmission -/

theorem Bounded.enqueueAll {q : SendQueue} (h : q.Bounded) (frames : List Waiting) :
    (q.enqueueAll frames).Bounded := ⟨h.distinct, h.length_le⟩

theorem Packed.clear (q : SendQueue) : q.clear.Packed where
  distinct := List.nodup_nil
  length_le := Nat.zero_le _
  full hwaiting := absurd rfl hwaiting

/-- An acknowledgement gives a place back. -/
theorem Bounded.acknowledge {q q' : SendQueue} (h : q.Bounded) {seq : UInt32} {now sample : Nat}
    (hack : q.acknowledge? seq now = some (sample, q')) : q'.Bounded ∧ q'.window = q.window := by
  obtain ⟨f, -, hpair⟩ := Option.map_eq_some_iff.1 hack
  obtain ⟨-, rfl⟩ := Prod.mk.inj hpair
  refine ⟨⟨?_, ?_⟩, rfl⟩
  · exact h.distinct.sublist (List.filter_sublist.map _)
  · exact Nat.le_trans (List.length_filter_le _ _) h.length_le

/-! ## Transmissions -/

theorem Bounded.resendAll {q : SendQueue} (h : q.Bounded) (now : Nat) (late : List UInt32) :
    (resendAll now late q).2.Bounded := by
  have hseqs := map_seq_resendAll now late q
  have hlength := congrArg List.length hseqs
  rw [List.length_map, List.length_map] at hlength
  refine ⟨?_, ?_⟩
  · rw [hseqs]
    exact h.distinct
  · rw [hlength, window_resendAll]
    exact h.length_le

/-- A first transmission takes a place, or the one that its number has already. -/
theorem Bounded.sendFirst {q : SendQueue} (h : q.Bounded) (hroom : q.inFlight.length < q.window)
    (now : Nat) (f : Waiting) : (q.sendFirst now f).Bounded := by
  refine ⟨distinct_sendFirst h.distinct now f, ?_⟩
  have hkept := List.length_filter_le (fun g : Sent => !(g.seq == f.seq)) q.inFlight
  simp only [SendQueue.sendFirst, List.length_append, List.length_cons, List.length_nil]
  omega

/-- Frames are sent until none is waiting or no place is free. -/
theorem Bounded.fill {q : SendQueue} (h : q.Bounded) (now : Nat) (frames : List Waiting) :
    (fill now frames q).2.Packed := by
  induction frames generalizing q with
  | nil => exact ⟨⟨h.distinct, h.length_le⟩, fun hwaiting => absurd rfl hwaiting⟩
  | cons f rest ih =>
    by_cases hroom : q.inFlight.length < q.window
    · rw [fill_of_room hroom]
      exact ih (h.sendFirst hroom now f)
    · rw [fill_of_full hroom]
      have hfull := Nat.le_antisymm h.length_le (Nat.le_of_not_lt hroom)
      exact ⟨⟨h.distinct, h.length_le⟩, fun _ => hfull⟩

/-- After a tick no place is free while a frame waits. -/
theorem Bounded.ticked {q : SendQueue} (h : q.Bounded) (now timeout : Nat) :
    (q.ticked now timeout).2.Packed ∧ (q.ticked now timeout).2.window = q.window := by
  let q₀ : SendQueue := { q with schedule := q.schedule.pending now timeout }
  have h₀ : q₀.Bounded := ⟨h.distinct, h.length_le⟩
  exact ⟨(h₀.resendAll now _).fill now _, window_ticked q now timeout⟩

/-! ## Any calls -/

theorem Bounded.after {q : SendQueue} (h : q.Bounded) (c : Call) :
    (q.after c).Bounded ∧ (q.after c).window = q.window := by
  cases c with
  | enqueue seq datagram => exact ⟨h.enqueueAll _, rfl⟩
  | tick now timeout =>
    obtain ⟨hpacked, hwindow⟩ := h.ticked now timeout
    exact ⟨hpacked.toBounded, hwindow⟩
  | acknowledge seq now =>
    rw [SendQueue.after]
    cases hack : q.acknowledge? seq now with
    | none => exact ⟨h, rfl⟩
    | some result => exact h.acknowledge hack
  | clear => exact ⟨(Packed.clear q).toBounded, rfl⟩

theorem Bounded.callAll {q q' : SendQueue} (h : q.Bounded) {calls : List Call}
    (hrun : q.callAll calls = .ok q') : q'.Bounded ∧ q'.window = q.window :=
  callAll_induction (P := fun q' => q'.Bounded ∧ q'.window = q.window)
    (fun c hkept => ⟨(hkept.1.after c).1, (hkept.1.after c).2.trans hkept.2⟩) ⟨h, rfl⟩ hrun

theorem Packed.new (window : Nat) : Packed { window } where
  distinct := List.nodup_nil
  length_le := Nat.zero_le _
  full hwaiting := absurd rfl hwaiting

/-- Whatever was called before, a tick leaves no place free while a frame waits. -/
theorem packed_of_callAll_tick {window : Nat} {calls : List Call} {now timeout : Nat}
    {q : SendQueue} (hrun : callAll { window } (calls ++ [.tick now timeout]) = .ok q) :
    q.Packed ∧ q.window = window := by
  obtain ⟨q₁, hcalls, hlast⟩ := exists_of_callAll_append hrun
  obtain ⟨hbounded, hwindow⟩ := (Packed.new window).toBounded.callAll hcalls
  obtain ⟨q₂, htick, hend⟩ := exists_call_of_callAll hlast
  obtain rfl : q₂ = q := Except.ok.inj hend
  obtain ⟨hpacked, hsame⟩ := hbounded.ticked now timeout
  rw [eq_after htick]
  exact ⟨hpacked, hsame.trans hwindow⟩

end DatagramTunnel.Flight.SendQueue
