import DatagramTunnel.Flight.SendQueue
import Mathlib.Data.List.TakeWhile

/-!
# What a send queue can still send

Within one instant a frame in flight is sent again at most once: from then on its transmission is
too young to be overdue, because the retransmit timeout is not nought.  So what the queue can still
put on the wire at an instant is bounded by its `workload`, the frames that wait and the
transmissions that are older than that instant.  A tick pays for every datagram it sends,
`length_add_workload_ticked`, and nothing but new frames adds to the workload.

Neither the order of the schedule nor its agreement with the frames in flight matters here.
-/

namespace DatagramTunnel.Flight

namespace Schedule

/-- The number of transmissions that were made before an instant. -/
def aged (s : Schedule) (now : Nat) : Nat := s.countP fun e => e.sentAt < now

/-- A transmission made at an instant is not older than it. -/
theorem aged_insert_le (s : Schedule) {now : Nat} (order : Nat) (seq : UInt32) :
    aged (Schedule.insert ⟨now, order, seq⟩ s) now ≤ s.aged now := by
  have hyoung (rest : Schedule) : aged (⟨now, order, seq⟩ :: rest) now = rest.aged now :=
    List.countP_cons_of_neg (by simp)
  induction s with
  | nil => exact Nat.le_of_eq (hyoung [])
  | cons x rest ih =>
    have htail : aged rest now ≤ aged (x :: rest) now :=
      (List.sublist_cons_self x rest).countP_le
    unfold Schedule.insert
    split
    · exact Nat.le_of_eq (hyoung _)
    · split
      · exact (hyoung rest).trans_le htail
      · simp only [aged, List.countP_cons] at ih ⊢
        exact Nat.add_le_add_right ih _

theorem aged_erase_le (s : Schedule) (now sentAt order : Nat) :
    (s.erase sentAt order).aged now ≤ s.aged now :=
  List.filter_sublist.countP_le

/-- Whatever is overdue is older than the instant at which it is. -/
theorem length_overdue_add_aged_pending (s : Schedule) (now : Nat) {timeout : Nat}
    (hpos : 0 < timeout) :
    (s.overdue now timeout).length + (s.pending now timeout).aged now = s.aged now := by
  have hold : aged (s.overdue now timeout) now = (s.overdue now timeout).length := by
    refine List.countP_eq_length.2 fun e he => ?_
    have hdue := List.mem_takeWhile_imp he
    simp only [decide_eq_true_eq] at hdue ⊢
    omega
  calc (s.overdue now timeout).length + (s.pending now timeout).aged now
      = (s.overdue now timeout).aged now + (s.pending now timeout).aged now := by rw [hold]
    _ = aged (s.overdue now timeout ++ s.pending now timeout) now := List.countP_append.symm
    _ = s.aged now := by rw [s.overdue_append_pending]

end Schedule

namespace SendQueue

/-- A bound on the datagrams that the queue can still send at an instant. -/
def workload (q : SendQueue) (now : Nat) : Nat := q.waiting.length + q.schedule.aged now

theorem resend_work (q : SendQueue) (now : Nat) (seq : UInt32) :
    (q.resend now seq).1.length ≤ 1 ∧ (q.resend now seq).2.workload now ≤ q.workload now := by
  unfold resend
  split
  · exact ⟨Nat.zero_le _, Nat.le_refl _⟩
  · exact ⟨Nat.le_refl _, Nat.add_le_add_left (q.schedule.aged_insert_le _ _) _⟩

theorem resendAll_work (now : Nat) (seqs : List UInt32) (q : SendQueue) :
    (resendAll now seqs q).1.length ≤ seqs.length ∧
      (resendAll now seqs q).2.workload now ≤ q.workload now := by
  induction seqs generalizing q with
  | nil => exact ⟨Nat.le_refl _, Nat.le_refl _⟩
  | cons seq rest ih =>
    obtain ⟨hout, hwork⟩ := q.resend_work now seq
    obtain ⟨houts, hworks⟩ := ih (q.resend now seq).2
    refine ⟨?_, hworks.trans hwork⟩
    simp only [resendAll, List.length_append, List.length_cons]
    omega

/-- Each free place turns a frame that waits into one that has just been sent. -/
theorem fill_work (now : Nat) (frames : List Waiting) (q : SendQueue) :
    (fill now frames q).1.length + (fill now frames q).2.workload now ≤
      frames.length + q.schedule.aged now := by
  induction frames generalizing q with
  | nil => simp [fill, workload]
  | cons f rest ih =>
    unfold fill
    split
    · have hmore := ih (q.sendFirst now f)
      have hyoung : (q.sendFirst now f).schedule.aged now ≤ q.schedule.aged now :=
        q.schedule.aged_insert_le _ _
      simp only [List.length_cons]
      omega
    · simp [workload]

/-- Every datagram of a tick is paid for. -/
theorem length_add_workload_ticked (q : SendQueue) (now : Nat) {timeout : Nat}
    (hpos : 0 < timeout) :
    (q.ticked now timeout).1.datagrams.length + (q.ticked now timeout).2.workload now ≤
      q.workload now := by
  have hdue := q.schedule.length_overdue_add_aged_pending now hpos
  let q₀ : SendQueue := { q with schedule := q.schedule.pending now timeout }
  let again := resendAll now ((q.schedule.overdue now timeout).map Entry.seq) q₀
  obtain ⟨hagain, hkept⟩ : again.1.length ≤ ((q.schedule.overdue now timeout).map Entry.seq).length
      ∧ again.2.workload now ≤ q₀.workload now := resendAll_work now _ q₀
  have hfresh := fill_work now again.2.waiting again.2
  rw [List.length_map] at hagain
  change (again.1 ++ (fill now again.2.waiting again.2).1).length +
    (fill now again.2.waiting again.2).2.workload now ≤ _
  rw [List.length_append]
  simp only [workload, q₀] at hkept hfresh ⊢
  omega

/-- What has been acknowledged is not sent any more. -/
theorem workload_acknowledge_le {q q' : SendQueue} {seq : UInt32} {now sample : Nat}
    (h : q.acknowledge? seq now = some (sample, q')) : q'.workload now ≤ q.workload now := by
  obtain ⟨f, -, hpair⟩ := Option.map_eq_some_iff.1 h
  obtain ⟨-, rfl⟩ := Prod.mk.inj hpair
  exact Nat.add_le_add_left (q.schedule.aged_erase_le _ _ _) _

end SendQueue

end DatagramTunnel.Flight
