import DatagramTunnel.Proofs.Flight.Register
import Mathlib.Data.List.Induction

/-!
# The books of a send queue

A send queue keeps two books of the frames in flight: the frames themselves, each under its number,
and the schedule of their latest transmissions.  `schedule_exact` says how far they agree after any
calls, with a clock that may go backwards, and says it of a register, where each book is a map.

* In an orderly run the schedule holds the latest transmissions of the frames in flight, each under
  its instant and its order, and nothing else.
* In any run each frame in flight has its latest transmission on the schedule, so the frame is sent
  again by whichever tick finds it overdue.  Its number stays in flight until it is acknowledged or
  the queue is cleared.  A number may be queued again while it is outstanding: then the later frame
  takes the place of the earlier in flight, whose transmission is left on the schedule.
* In any run no insertion displaces a transmission on the schedule.
* A frame in flight has been in flight since the tick that admitted it, which is what the instant of
  its first transmission says: `InFlightSince`.
-/

namespace DatagramTunnel.Flight

namespace SendQueue

variable {q : SendQueue} {late : List UInt32}

/-! ## Where a frame in flight comes from -/

/-- The frames that a tick sends for the first time. It takes them from the front of those that
wait. -/
def admitted (q : SendQueue) (now timeout : Nat) : List Waiting :=
  q.waiting.take (q.ticked now timeout).1.admitted

/-- The frame as it was earlier in its flight: at most `again` transmissions have been made
since. -/
structure Earlier (g f : Sent) (again : Nat) : Prop where
  frame : g.frame = f.frame
  firstSentAt : g.firstSentAt = f.firstSentAt
  transmissions : ∃ more ≤ again, f.transmissions = g.transmissions + UInt32.ofNat more

theorem Earlier.refl (f : Sent) (again : Nat) : Earlier f f again :=
  ⟨rfl, rfl, 0, Nat.zero_le _, (UInt32.add_zero _).symm⟩

theorem Earlier.trans {e g f : Sent} {again again' : Nat} (h : Earlier e g again)
    (h' : Earlier g f again') : Earlier e f (again + again') := by
  obtain ⟨more, hmore, hg⟩ := h.transmissions
  obtain ⟨more', hmore', hf⟩ := h'.transmissions
  refine ⟨h.frame.trans h'.frame, h.firstSentAt.trans h'.firstSentAt, more + more',
    Nat.add_le_add hmore hmore', ?_⟩
  rw [hf, hg, UInt32.ofNat_add, UInt32.add_assoc]

/-- Among the calls is a tick at `since` that admitted the frame, and the frame has been in flight
from then on. -/
def InFlightSince (q : SendQueue) (calls : List Call) (w : Waiting) (since : Nat) : Prop :=
  ∃ before timeout after q₁, calls = before ++ .tick since timeout :: after ∧
    q.callAll before = .ok q₁ ∧ w ∈ q₁.admitted since timeout ∧
    ∀ early q₂, early <+: after → q.callAll (before ++ .tick since timeout :: early) = .ok q₂ →
      ∃ f ∈ q₂.inFlight, f.frame = w ∧ f.firstSentAt = since

theorem InFlightSince.concat {calls : List Call} {w : Waiting} {since : Nat}
    (h : q.InFlightSince calls w since) {c : Call} {q' : SendQueue}
    (hrun : q.callAll (calls ++ [c]) = .ok q')
    (hstill : ∃ f ∈ q'.inFlight, f.frame = w ∧ f.firstSentAt = since) :
    q.InFlightSince (calls ++ [c]) w since := by
  obtain ⟨before, timeout, after, q₁, rfl, hbefore, hadmitted, hkept⟩ := h
  refine ⟨before, timeout, after ++ [c], q₁, List.append_assoc _ _ _, hbefore, hadmitted,
    fun early q₂ hearly hrun₂ => ?_⟩
  rcases List.prefix_concat_iff.1 hearly with rfl | hearly
  · rw [List.append_assoc, List.cons_append, hrun₂] at hrun
    exact Except.ok.inj hrun ▸ hstill
  · exact hkept early q₂ hearly hrun₂

end SendQueue

namespace Register

variable {r : Register} {q : SendQueue}

/-- Whatever a register has in flight, the queue has in flight under the same number. -/
theorem Mirrors.exists_sent (h : r.Mirrors q) {seq : UInt32} {f : Item}
    (hf : r.inFlight[seq]? = some f) : ∃ g ∈ q.inFlight, g.seq = seq ∧ g.item = f := by
  rw [h.inFlight, Option.map_eq_some_iff] at hf
  obtain ⟨g, hfind, hitem⟩ := hf
  obtain ⟨hg, hseq⟩ := SendQueue.find?_mem hfind
  exact ⟨g, hg, hseq, hitem⟩

end Register

end DatagramTunnel.Flight
