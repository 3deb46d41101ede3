import DatagramTunnel.Proofs.Flight.Tracking

/-!
# Frames that are not acknowledged

`SendQueue.outstanding` are the frames in flight followed by those that wait, oldest first.  A tick
moves frames from the second part to the first and changes none of them, `outstanding_ticked`; an
acknowledgement takes one frame out, `outstanding_acknowledge`.

`Scheduled q late` says that the schedule holds the latest transmission of every frame in flight
and nothing else, except that the frames numbered in `late` have been taken off the schedule to be
sent again.  It is `Tracked q late` with the converse, so `Scheduled q []` is what holds between two
operations as long as no number is queued while it is outstanding.
-/

namespace DatagramTunnel.Flight

namespace SendQueue

/-- The frames that have not been acknowledged, oldest first. -/
def outstanding (q : SendQueue) : List Waiting := q.inFlight.map Sent.frame ++ q.waiting

/-- The places in flight that are free. -/
def room (q : SendQueue) : Nat := q.window - q.inFlight.length

/-- The schedule mirrors the frames in flight, but for those numbered in `late`. -/
structure Scheduled (q : SendQueue) (late : List UInt32) : Prop where
  /-- A number is in flight once. -/
  distinct : (q.inFlight.map Sent.seq).Nodup
  sorted : q.schedule.Sorted
  /-- Every frame in flight is due for another transmission. -/
  entered : ∀ f ∈ q.inFlight, f.seq ∉ late → f.entry ∈ q.schedule
  /-- Every transmission that is due is the latest one of a frame in flight. -/
  live : ∀ x ∈ q.schedule, ∃ f ∈ q.inFlight, f.seq ∉ late ∧ f.entry = x
  /-- The next place in the order of transmissions is new. -/
  fresh : ∀ x ∈ q.schedule, x.order < q.nextOrder
  /-- A place in the order belongs to one transmission. -/
  unique : ∀ x ∈ q.schedule, ∀ y ∈ q.schedule, x.order = y.order → x = y

/-- The frames that wait are not on the schedule. -/
theorem Scheduled.withWaiting {q : SendQueue} {late : List UInt32} (h : q.Scheduled late)
    (frames : List Waiting) : ({ q with waiting := frames } : SendQueue).Scheduled late :=
  ⟨h.distinct, h.sorted, h.entered, h.live, h.fresh, h.unique⟩

/-! ## Tracking both ways -/

theorem Scheduled.tracked {q : SendQueue} {late : List UInt32} (h : q.Scheduled late) :
    q.Tracked late :=
  ⟨h.distinct, h.sorted, h.entered, h.fresh, h.unique⟩

/-- What is tracked is scheduled if nothing else is due. -/
theorem Tracked.scheduled {q : SendQueue} {late : List UInt32} (h : q.Tracked late)
    (live : ∀ x ∈ q.schedule, ∃ f ∈ q.inFlight, f.seq ∉ late ∧ f.entry = x) : q.Scheduled late :=
  ⟨h.distinct, h.sorted, h.entered, live, h.fresh, h.unique⟩

/-! ## Retransmission -/

/-- Sending a late frame again puts it back on the schedule. -/
theorem Scheduled.resend {q : SendQueue} {seq : UInt32} {late : List UInt32}
    (h : q.Scheduled (seq :: late)) (hlate : seq ∉ late) {f : Sent} (hf : q.find? seq = some f)
    (now : Nat) : (q.resend now seq).2.Scheduled late := by
  obtain ⟨hmem, hseq⟩ := find?_mem hf
  refine (h.tracked.resend now).scheduled fun x hx => ?_
  rw [resend_of_find hf now] at hx ⊢
  rcases h.tracked.mem_insert_iff.1 hx with rfl | hx
  · refine ⟨repeated now q.nextOrder seq f, List.mem_map_of_mem hmem, ?_, ?_⟩
    · simpa [hseq] using hlate
    · simp [repeated, Sent.entry, hseq]
  · obtain ⟨g, hg, hnot, hentry⟩ := h.live x hx
    have hgs : g.seq ≠ seq := fun heq => hnot (by simp [heq])
    refine ⟨repeated now q.nextOrder seq g, List.mem_map_of_mem hg, ?_, ?_⟩
    · rw [repeated_seq]
      exact fun hin => hnot (List.mem_cons_of_mem seq hin)
    · rwa [repeated_of_ne hgs]

/-- Sending every late frame again mends the schedule. -/
theorem Scheduled.resendAll {q : SendQueue} {late : List UInt32} (h : q.Scheduled late)
    (hnodup : late.Nodup) (hin : ∀ seq ∈ late, q.isInFlight seq = true) (now : Nat) :
    (resendAll now late q).2.Scheduled [] := by
  induction late generalizing q with
  | nil => exact h
  | cons seq rest ih =>
    obtain ⟨hseq, hrest⟩ := List.nodup_cons.1 hnodup
    obtain ⟨f, hf⟩ := Option.isSome_iff_exists.1 (hin seq List.mem_cons_self)
    have hin' : ∀ other ∈ rest, (q.resend now seq).2.isInFlight other = true := by
      intro other hother
      rw [isInFlight, find?_resend, Option.isSome_map]
      exact hin other (List.mem_cons_of_mem seq hother)
    exact ih (h.resend hseq hf now) hrest hin'

/-! ## First transmissions -/

/-- A number that is not in flight finds a place of its own. -/
theorem inFlight_sendFirst {q : SendQueue} {f : Waiting} (hnew : f.seq ∉ q.inFlight.map Sent.seq)
    (now : Nat) :
    (q.sendFirst now f).inFlight =
      q.inFlight ++ [⟨f.seq, f.datagram, now, now, 1, q.nextOrder⟩] := by
  have hkeep : (q.inFlight.filter fun g => !(g.seq == f.seq)) = q.inFlight :=
    others_eq_self fun g hg heq => hnew (heq ▸ List.mem_map_of_mem hg)
  simp only [sendFirst, hkeep]

theorem Scheduled.sendFirst {q : SendQueue} (h : q.Scheduled []) {f : Waiting}
    (hnew : f.seq ∉ q.inFlight.map Sent.seq) (now : Nat) :
    (q.sendFirst now f).Scheduled [] := by
  refine (h.tracked.sendFirst now f).scheduled fun x hx => ?_
  rw [inFlight_sendFirst hnew]
  rcases h.tracked.mem_insert_iff.1 hx with rfl | hx
  · exact ⟨_, List.mem_append_right _ (List.mem_singleton_self _), List.not_mem_nil, rfl⟩
  · obtain ⟨g, hg, hnot, hentry⟩ := h.live x hx
    exact ⟨g, List.mem_append_left _ hg, hnot, hentry⟩

/-- As long as there is room, the first frame that waits goes out. -/
theorem fill_of_room {q : SendQueue} (h : q.inFlight.length < q.window) (now : Nat) (f : Waiting)
    (rest : List Waiting) :
    fill now (f :: rest) q =
      (f.datagram :: (fill now rest (q.sendFirst now f)).1,
        (fill now rest (q.sendFirst now f)).2) := by
  rw [fill, if_pos h]

theorem fill_of_full {q : SendQueue} (h : ¬ q.inFlight.length < q.window) (now : Nat) (f : Waiting)
    (rest : List Waiting) :
    fill now (f :: rest) q = ([], { q with waiting := f :: rest }) := by
  rw [fill, if_neg h]

/-- The numbers that the next first transmissions would put in flight are new. -/
def Admissible (q : SendQueue) (frames : List Waiting) : Prop :=
  (q.inFlight.map Sent.seq ++ (frames.take q.room).map Waiting.seq).Nodup

/-- A first transmission uses up one place, and the numbers that come after it stay new. -/
theorem Admissible.sendFirst {q : SendQueue} {f : Waiting} {rest : List Waiting}
    (hnew : q.Admissible (f :: rest)) (hroom : q.inFlight.length < q.window) (now : Nat) :
    f.seq ∉ q.inFlight.map Sent.seq ∧ q.room = (q.sendFirst now f).room + 1 ∧
      (q.sendFirst now f).Admissible rest := by
  obtain ⟨room, hroom'⟩ : ∃ room, q.room = room + 1 :=
    ⟨q.window - q.inFlight.length - 1, by unfold SendQueue.room; omega⟩
  unfold Admissible at hnew
  rw [hroom', List.take_succ_cons, List.map_cons] at hnew
  have hfresh : f.seq ∉ q.inFlight.map Sent.seq := fun hin =>
    (List.nodup_append.1 hnew).2.2 _ hin _ List.mem_cons_self rfl
  have hnext : (q.sendFirst now f).room = room := by
    unfold SendQueue.room at hroom' ⊢
    rw [inFlight_sendFirst hfresh, List.length_append]
    show q.window - _ = room
    simp only [List.length_cons, List.length_nil]
    omega
  refine ⟨hfresh, hroom'.trans (by rw [hnext]), ?_⟩
  unfold Admissible
  rw [hnext, inFlight_sendFirst hfresh, List.map_append, List.append_assoc]
  exact hnew

/-- Frames as they are put in flight at `now`, the first in the place `order` of all
transmissions. -/
def launch (now : Nat) : Nat → List Waiting → List Sent
  | _, [] => []
  | order, f :: rest => ⟨f.seq, f.datagram, now, now, 1, order⟩ :: launch now (order + 1) rest

theorem map_launch (now order : Nat) (frames : List Waiting) :
    (launch now order frames).map (fun f => (f.frame, f.firstSentAt)) =
      frames.map fun w => (w, now) := by
  induction frames generalizing order with
  | nil => rfl
  | cons w rest ih => rw [launch, List.map_cons, List.map_cons, ih, Sent.frame]

@[simp] theorem map_frame_launch (now order : Nat) (frames : List Waiting) :
    (launch now order frames).map Sent.frame = frames := by
  have hpairs := congrArg (List.map Prod.fst) (map_launch now order frames)
  rw [List.map_map, List.map_map] at hpairs
  exact hpairs.trans (List.map_id frames)

theorem lastSentAt_of_mem_launch {now order : Nat} {frames : List Waiting} {f : Sent}
    (h : f ∈ launch now order frames) : f.lastSentAt = now := by
  induction frames generalizing order with
  | nil => exact absurd h List.not_mem_nil
  | cons w rest ih =>
    rcases List.mem_cons.1 h with rfl | h
    · rfl
    · exact ih h

/-- Filling the free places takes frames from the front of those that wait. -/
theorem Admissible.fill {q : SendQueue} {frames : List Waiting} (hnew : q.Admissible frames)
    (now : Nat) :
    (fill now frames q).1 = (frames.take q.room).map Waiting.datagram ∧
      (fill now frames q).2.inFlight =
        q.inFlight ++ launch now q.nextOrder (frames.take q.room) ∧
      (fill now frames q).2.waiting = frames.drop q.room := by
  induction frames generalizing q with
  | nil => simp [SendQueue.fill, launch]
  | cons f rest ih =>
    by_cases hroom : q.inFlight.length < q.window
    · obtain ⟨hfresh, hnext, hadm⟩ := hnew.sendFirst hroom now
      obtain ⟨hout, hflight, hwaiting⟩ := ih hadm
      rw [fill_of_room hroom, hnext, List.take_succ_cons, List.drop_succ_cons]
      refine ⟨by rw [hout, List.map_cons], ?_, hwaiting⟩
      rw [hflight, inFlight_sendFirst hfresh, List.append_assoc]
      rfl
    · have hzero : q.room = 0 := by
        unfold SendQueue.room
        omega
      rw [fill_of_full hroom, hzero]
      exact ⟨rfl, (List.append_nil _).symm, rfl⟩

theorem window_fill (now : Nat) (frames : List Waiting) (q : SendQueue) :
    (SendQueue.fill now frames q).2.window = q.window := by
  induction frames generalizing q with
  | nil => rfl
  | cons f rest ih =>
    rw [SendQueue.fill]
    split
    · exact ih (q.sendFirst now f)
    · rfl

/-- First transmissions are on the schedule like all others. -/
theorem Scheduled.fill {q : SendQueue} (h : q.Scheduled []) {frames : List Waiting}
    (hnew : q.Admissible frames) (now : Nat) : (fill now frames q).2.Scheduled [] := by
  induction frames generalizing q with
  | nil => exact h.withWaiting []
  | cons f rest ih =>
    by_cases hroom : q.inFlight.length < q.window
    · obtain ⟨hfresh, -, hadm⟩ := hnew.sendFirst hroom now
      rw [fill_of_room hroom]
      exact ih (h.sendFirst hfresh now) hadm
    · rw [fill_of_full hroom]
      exact h.withWaiting (f :: rest)

/-! ## A tick -/

/-- Sending again neither frees a place nor takes one. -/
theorem room_resendAll (now : Nat) (late : List UInt32) (q : SendQueue) :
    (SendQueue.resendAll now late q).2.room = q.room := by
  have hlength := congrArg List.length (map_frame_resendAll now late q)
  rw [List.length_map, List.length_map] at hlength
  rw [room, room, window_resendAll, hlength]

theorem Admissible.resendAll {q : SendQueue} (hnew : q.Admissible q.waiting) (now : Nat)
    (late : List UInt32) :
    (SendQueue.resendAll now late q).2.Admissible (SendQueue.resendAll now late q).2.waiting := by
  rw [Admissible, room_resendAll, waiting_resendAll, map_seq_resendAll]
  exact hnew

theorem window_ticked (q : SendQueue) (now timeout : Nat) :
    (q.ticked now timeout).2.window = q.window := by
  refine (window_fill now _ _).trans ?_
  rw [window_resendAll]

/-- What a tick does: the frames in flight that are on the schedule as overdue go out again, then as
many of those that wait as there is room for. -/
theorem Admissible.ticked {q : SendQueue} (hnew : q.Admissible q.waiting) (now timeout : Nat) :
    (q.ticked now timeout).1.datagrams =
        (q.schedule.overdue now timeout).filterMap
            (fun x => (q.find? x.seq).map Sent.datagram) ++
          (q.waiting.take q.room).map Waiting.datagram ∧
      (q.ticked now timeout).2.inFlight =
        (SendQueue.resendAll now ((q.schedule.overdue now timeout).map Entry.seq)
            { q with schedule := q.schedule.pending now timeout }).2.inFlight ++
          launch now (q.nextOrder + (q.schedule.overdue now timeout).length)
            (q.waiting.take q.room) ∧
      (q.ticked now timeout).2.waiting = q.waiting.drop q.room := by
  let late := (q.schedule.overdue now timeout).map Entry.seq
  let q₀ : SendQueue := { q with schedule := q.schedule.pending now timeout }
  let q₁ := (SendQueue.resendAll now late q₀).2
  have hroom : q₁.room = q.room := room_resendAll now late q₀
  have horder : q₁.nextOrder = q.nextOrder + (q.schedule.overdue now timeout).length :=
    (nextOrder_resendAll now late q₀).trans (by rw [List.length_map])
  have hwaits : q₁.waiting = q.waiting := waiting_resendAll now late q₀
  have hadm₀ : q₀.Admissible q₀.waiting := hnew
  obtain ⟨hout, hflight, hwaiting⟩ := (hadm₀.resendAll now late).fill now
  rw [hroom, hwaits] at hout hflight hwaiting
  rw [horder] at hflight
  refine ⟨?_, ?_, ?_⟩
  · show (SendQueue.resendAll now late q₀).1 ++ (SendQueue.fill now q₁.waiting q₁).1 = _
    rw [hwaits, hout, datagrams_resendAll, List.filterMap_map]
    rfl
  · show (SendQueue.fill now q₁.waiting q₁).2.inFlight = _
    rw [hwaits, hflight]
  · show (SendQueue.fill now q₁.waiting q₁).2.waiting = _
    rw [hwaits, hwaiting]

/-- The frames whose transmissions a tick takes off the schedule are late. -/
theorem Scheduled.takeOverdue {q : SendQueue} (h : q.Scheduled []) (now timeout : Nat) :
    ({ q with schedule := q.schedule.pending now timeout } : SendQueue).Scheduled
        ((q.schedule.overdue now timeout).map Entry.seq) ∧
      ((q.schedule.overdue now timeout).map Entry.seq).Nodup := by
  have hsame : ∀ x ∈ q.schedule, ∀ y ∈ q.schedule, x.seq = y.seq → x = y := by
    intro x hx y hy heq
    obtain ⟨f, hf, -, rfl⟩ := h.live x hx
    obtain ⟨g, hg, -, rfl⟩ := h.live y hy
    rw [seq_injective h.distinct hf hg heq]
  refine ⟨(h.tracked.takeOverdue now timeout).scheduled fun x hx => ?_, ?_⟩
  · obtain ⟨hmem, hpend⟩ := (Schedule.mem_pending_iff h.sorted).1 hx
    obtain ⟨f, hf, -, rfl⟩ := h.live x hmem
    refine ⟨f, hf, fun hin => ?_, rfl⟩
    obtain ⟨y, hy, hseq⟩ := List.mem_map.1 hin
    obtain ⟨hymem, hydue⟩ := (Schedule.mem_overdue_iff h.sorted).1 hy
    have heq := hsame y hymem f.entry hmem hseq
    rw [heq] at hydue
    omega
  · have hnodup : (q.schedule.overdue now timeout).Nodup :=
      h.sorted.nodup.sublist (List.takeWhile_sublist _)
    refine List.pairwise_map.2 (List.Pairwise.imp_of_mem (fun {x y} hx hy hne heq => ?_) hnodup)
    exact hne (hsame x ((Schedule.mem_overdue_iff h.sorted).1 hx).1 y
      ((Schedule.mem_overdue_iff h.sorted).1 hy).1 heq)

/-- A tick leaves the schedule in order, and changes no frame that it sends. -/
theorem Scheduled.ticked {q : SendQueue} (h : q.Scheduled []) (hnew : q.Admissible q.waiting)
    (now timeout : Nat) :
    (q.ticked now timeout).2.Scheduled [] ∧
      (q.ticked now timeout).2.inFlight.map Sent.frame =
        q.inFlight.map Sent.frame ++ q.waiting.take q.room := by
  let late := (q.schedule.overdue now timeout).map Entry.seq
  let q₀ : SendQueue := { q with schedule := q.schedule.pending now timeout }
  obtain ⟨hlate, hnodup⟩ := h.takeOverdue now timeout
  have hin : ∀ seq ∈ late, q₀.isInFlight seq = true := by
    intro seq hseq
    obtain ⟨x, hx, rfl⟩ := List.mem_map.1 hseq
    obtain ⟨f, hf, -, rfl⟩ := h.live x ((Schedule.mem_overdue_iff h.sorted).1 hx).1
    exact isInFlight_iff.2 ⟨f, hf, rfl⟩
  have hadm₀ : q₀.Admissible q₀.waiting := hnew
  refine ⟨(hlate.resendAll hnodup hin now).fill (hadm₀.resendAll now late) now, ?_⟩
  rw [(hnew.ticked now timeout).2.1, List.map_append, map_frame_launch,
    map_frame_resendAll now late q₀]

/-- A tick neither loses nor changes a frame that is not acknowledged. -/
theorem Scheduled.outstanding_ticked {q : SendQueue} (h : q.Scheduled [])
    (hnew : q.Admissible q.waiting) (now timeout : Nat) :
    (q.ticked now timeout).2.outstanding = q.outstanding := by
  obtain ⟨-, hframes⟩ := h.ticked hnew now timeout
  obtain ⟨-, -, hwaiting⟩ := hnew.ticked now timeout
  rw [outstanding, hframes, hwaiting, List.append_assoc, List.take_append_drop, outstanding]

/-- A tick puts a datagram on the wire for a frame in flight that is overdue, or for a frame that
waits and finds room. -/
theorem Scheduled.mem_datagrams_ticked {q : SendQueue} (h : q.Scheduled [])
    (hnew : q.Admissible q.waiting) {now timeout : Nat} {datagram : Bytes} :
    datagram ∈ (q.ticked now timeout).1.datagrams ↔
      (∃ f ∈ q.inFlight, f.lastSentAt + timeout ≤ now ∧ f.datagram = datagram) ∨
        ∃ w ∈ q.waiting.take q.room, w.datagram = datagram := by
  rw [(hnew.ticked now timeout).1, List.mem_append, List.mem_filterMap, List.mem_map]
  refine or_congr_left ⟨?_, ?_⟩
  · rintro ⟨x, hx, hfind⟩
    obtain ⟨hmem, hdue⟩ := (Schedule.mem_overdue_iff h.sorted).1 hx
    obtain ⟨f, hf, -, rfl⟩ := h.live x hmem
    rw [show f.entry.seq = f.seq from rfl, find?_eq_some h.distinct hf] at hfind
    exact ⟨f, hf, hdue, by simpa using hfind⟩
  · rintro ⟨f, hf, hdue, rfl⟩
    refine ⟨f.entry, (Schedule.mem_overdue_iff h.sorted).2
      ⟨h.entered f hf List.not_mem_nil, hdue⟩, ?_⟩
    rw [show f.entry.seq = f.seq from rfl, find?_eq_some h.distinct hf]
    rfl

/-! ## Nothing is made up -/

theorem outstanding_resendAll (now : Nat) (late : List UInt32) (q : SendQueue) :
    (SendQueue.resendAll now late q).2.outstanding = q.outstanding := by
  rw [outstanding, outstanding, map_frame_resendAll, waiting_resendAll]

theorem mem_datagrams_resendAll (now : Nat) (late : List UInt32) (q : SendQueue) {datagram : Bytes}
    (h : datagram ∈ (SendQueue.resendAll now late q).1) :
    ∃ w ∈ q.outstanding, w.datagram = datagram := by
  rw [datagrams_resendAll] at h
  obtain ⟨seq, -, hfind⟩ := List.mem_filterMap.1 h
  obtain ⟨f, hf, rfl⟩ := Option.map_eq_some_iff.1 hfind
  exact ⟨f.frame, List.mem_append_left _ (List.mem_map_of_mem (find?_mem hf).1), rfl⟩

theorem mem_outstanding_fill (now : Nat) (frames : List Waiting) (q : SendQueue) :
    (∀ w ∈ (SendQueue.fill now frames q).2.outstanding,
        w ∈ q.inFlight.map Sent.frame ++ frames) ∧
      ∀ datagram ∈ (SendQueue.fill now frames q).1, ∃ w ∈ frames, w.datagram = datagram := by
  induction frames generalizing q with
  | nil => exact ⟨fun _ hw => hw, fun _ hd => absurd hd List.not_mem_nil⟩
  | cons f rest ih =>
    by_cases hroom : q.inFlight.length < q.window
    · obtain ⟨hkept, hsent⟩ := ih (q.sendFirst now f)
      rw [fill_of_room hroom]
      constructor
      · intro w hw
        rcases List.mem_append.1 (hkept w hw) with hflight | hrest
        · obtain ⟨g, hg, rfl⟩ := List.mem_map.1 hflight
          rcases List.mem_append.1 hg with hold | hnew
          · exact List.mem_append_left _ (List.mem_map_of_mem (List.mem_filter.1 hold).1)
          · rw [List.mem_singleton] at hnew
            subst hnew
            exact List.mem_append_right _ List.mem_cons_self
        · exact List.mem_append_right _ (List.mem_cons_of_mem f hrest)
      · intro datagram hd
        rcases List.mem_cons.1 hd with rfl | hd
        · exact ⟨f, List.mem_cons_self, rfl⟩
        · obtain ⟨w, hw, heq⟩ := hsent datagram hd
          exact ⟨w, List.mem_cons_of_mem f hw, heq⟩
    · rw [fill_of_full hroom]
      exact ⟨fun _ hw => hw, fun _ hd => absurd hd List.not_mem_nil⟩

/-- A tick sends and keeps only frames that were outstanding, whatever the state of the queue. -/
theorem mem_outstanding_ticked (q : SendQueue) (now timeout : Nat) :
    (∀ w ∈ (q.ticked now timeout).2.outstanding, w ∈ q.outstanding) ∧
      ∀ datagram ∈ (q.ticked now timeout).1.datagrams,
        ∃ w ∈ q.outstanding, w.datagram = datagram := by
  let q₀ : SendQueue := { q with schedule := q.schedule.pending now timeout }
  let again := SendQueue.resendAll now ((q.schedule.overdue now timeout).map Entry.seq) q₀
  have hkept : again.2.outstanding = q.outstanding := outstanding_resendAll now _ q₀
  obtain ⟨hkept', hsent'⟩ := mem_outstanding_fill now again.2.waiting again.2
  constructor
  · intro w hw
    rw [← hkept]
    exact hkept' w hw
  · intro datagram hd
    rcases List.mem_append.1 hd with hd | hd
    · exact mem_datagrams_resendAll now _ q₀ hd
    · obtain ⟨w, hw, heq⟩ := hsent' datagram hd
      refine ⟨w, ?_, heq⟩
      rw [← hkept]
      exact List.mem_append_right _ hw

/-! ## Acknowledgements and the rest -/

/-- An acknowledgement retires the frame in flight under its number. -/
theorem Scheduled.acknowledge {q q' : SendQueue} (h : q.Scheduled []) {seq : UInt32}
    {now sample : Nat} (hack : q.acknowledge? seq now = some (sample, q')) :
    q'.Scheduled [] ∧ q'.inFlight = q.inFlight.filter (fun f => !(f.seq == seq)) ∧
      q'.waiting = q.waiting ∧ q'.window = q.window ∧
      ∃ f ∈ q.inFlight, f.seq = seq ∧ sample = elapsed now f.firstSentAt := by
  have htracked := h.tracked.acknowledge hack
  obtain ⟨f, hfind, hpair⟩ := Option.map_eq_some_iff.1 hack
  obtain ⟨hf, hseq⟩ := find?_mem hfind
  obtain ⟨rfl, rfl⟩ := Prod.mk.inj hpair
  refine ⟨htracked.scheduled fun x hx => ?_, rfl, rfl, rfl, f, hf, hseq, rfl⟩
  obtain ⟨hmem, hkey⟩ := Schedule.mem_erase_iff.1 hx
  obtain ⟨g, hg, hnot, rfl⟩ := h.live x hmem
  refine ⟨g, List.mem_filter.2 ⟨hg, ?_⟩, hnot, rfl⟩
  have hne : g.seq ≠ seq := by
    intro heq
    have hgf := seq_injective h.distinct hg hf (heq.trans hseq.symm)
    exact hkey (hgf ▸ ⟨rfl, rfl⟩)
  simp [hne]

/-- An acknowledgement takes the frame of its number out of those that are outstanding. -/
theorem Scheduled.outstanding_acknowledge {q q' : SendQueue} (h : q.Scheduled [])
    (hnodup : (q.outstanding.map Waiting.seq).Nodup) {seq : UInt32} {now sample : Nat}
    (hack : q.acknowledge? seq now = some (sample, q')) :
    q'.outstanding = q.outstanding.filter fun w => !(w.seq == seq) := by
  obtain ⟨-, hflight, hwaiting, -, f, hf, hseq, -⟩ := h.acknowledge hack
  have hkeep : q.waiting.filter (fun w => !(w.seq == seq)) = q.waiting := by
    refine List.filter_eq_self.2 fun w hw => ?_
    rw [outstanding, List.map_append, List.map_map, List.nodup_append] at hnodup
    have hne := hnodup.2.2 f.seq (List.mem_map.2 ⟨f, hf, rfl⟩) w.seq (List.mem_map_of_mem hw)
    have hws : w.seq ≠ seq := fun heq => hne (hseq.trans heq.symm)
    simp [hws]
  rw [outstanding, outstanding, hflight, hwaiting, List.filter_append, hkeep, List.filter_map]
  rfl

theorem mem_outstanding_acknowledge {q q' : SendQueue} {seq : UInt32} {now sample : Nat}
    (hack : q.acknowledge? seq now = some (sample, q')) {w : Waiting} (hw : w ∈ q'.outstanding) :
    w ∈ q.outstanding := by
  obtain ⟨f, -, hpair⟩ := Option.map_eq_some_iff.1 hack
  obtain ⟨rfl, rfl⟩ := Prod.mk.inj hpair
  rcases List.mem_append.1 hw with hflight | hwaiting
  · obtain ⟨g, hg, rfl⟩ := List.mem_map.1 hflight
    exact List.mem_append_left _ (List.mem_map_of_mem (List.mem_filter.1 hg).1)
  · exact List.mem_append_right _ hwaiting

theorem acknowledge?_eq_none_iff {q : SendQueue} {seq : UInt32} {now : Nat} :
    q.acknowledge? seq now = none ↔ q.isInFlight seq = false := by
  simp [acknowledge?, isInFlight]

/-- An acknowledgement of a frame in flight is known. -/
theorem exists_acknowledge? {q : SendQueue} {f : Sent} (hf : f ∈ q.inFlight) (now : Nat) :
    ∃ sample q', q.acknowledge? f.seq now = some (sample, q') := by
  cases hack : q.acknowledge? f.seq now with
  | none =>
    have hmissing := acknowledge?_eq_none_iff.1 hack
    rw [isInFlight_iff.2 ⟨f, hf, rfl⟩] at hmissing
    cases hmissing
  | some result => exact ⟨result.1, result.2, rfl⟩

theorem Scheduled.clear {q : SendQueue} : q.clear.Scheduled [] :=
  (Tracked.empty rfl rfl).scheduled fun _ hx => absurd hx List.not_mem_nil

theorem Scheduled.enqueueAll {q : SendQueue} (h : q.Scheduled []) (frames : List Waiting) :
    (q.enqueueAll frames).Scheduled [] := h.withWaiting (q.waiting ++ frames)

@[simp] theorem outstanding_enqueueAll (q : SendQueue) (frames : List Waiting) :
    (q.enqueueAll frames).outstanding = q.outstanding ++ frames := by
  simp [outstanding, SendQueue.enqueueAll]

/-- The oldest frame is in flight, or it is the first that waits and there is room for it. -/
theorem oldest_cases {q : SendQueue} (hwindow : 0 < q.window) {oldest : Waiting}
    {others : List Waiting} (h : q.outstanding = oldest :: others) :
    (∃ f ∈ q.inFlight, f.frame = oldest) ∨ oldest ∈ q.waiting.take q.room := by
  rw [outstanding] at h
  cases hflight : q.inFlight with
  | nil =>
    right
    rw [hflight] at h
    have hwaiting : q.waiting = oldest :: others := h
    have hroom : q.room = q.window - 1 + 1 := by
      rw [room, hflight, List.length_nil]
      omega
    rw [hwaiting, hroom, List.take_succ_cons]
    exact List.mem_cons_self
  | cons f rest =>
    left
    rw [hflight] at h
    exact ⟨f, List.mem_cons_self, (List.cons.inj h).1⟩

/-- If no number is outstanding twice, the frames that wait can be put in flight. -/
theorem admissible_of_nodup {q : SendQueue} (h : (q.outstanding.map Waiting.seq).Nodup) :
    q.Admissible q.waiting := by
  rw [outstanding, List.map_append, List.map_map] at h
  exact h.sublist ((List.Sublist.refl _).append ((List.take_sublist _ _).map _))

/-! ## How many frames there are -/

/-- A frame that waits is sent or goes on waiting. -/
theorem length_fill (now : Nat) (frames : List Waiting) (q : SendQueue) :
    (SendQueue.fill now frames q).1.length + (SendQueue.fill now frames q).2.waiting.length =
      frames.length := by
  induction frames generalizing q with
  | nil => rfl
  | cons f rest ih =>
    by_cases hroom : q.inFlight.length < q.window
    · have hrest := ih (q.sendFirst now f)
      rw [fill_of_room hroom]
      simp only [List.length_cons]
      omega
    · rw [fill_of_full hroom]
      exact Nat.zero_add _

theorem admitted_add_waiting_ticked (q : SendQueue) (now timeout : Nat) :
    (q.ticked now timeout).1.admitted + (q.ticked now timeout).2.waiting.length =
      q.waiting.length := by
  refine (length_fill now _ _).trans ?_
  rw [waiting_resendAll]

/-- A tick counts every datagram that it puts on the wire, as a first transmission or as another
one. -/
theorem length_datagrams_ticked (q : SendQueue) (now timeout : Nat) :
    (q.ticked now timeout).1.datagrams.length =
      (q.ticked now timeout).1.admitted + (q.ticked now timeout).1.retransmitted :=
  List.length_append.trans (Nat.add_comm _ _)

theorem Scheduled.length_inFlight_ticked {q : SendQueue} (h : q.Scheduled [])
    (hnew : q.Admissible q.waiting) (now timeout : Nat) :
    (q.ticked now timeout).2.inFlight.length =
      q.inFlight.length + (q.ticked now timeout).1.admitted := by
  have hkept := congrArg List.length (h.outstanding_ticked hnew now timeout)
  have hcount := admitted_add_waiting_ticked q now timeout
  simp only [outstanding, List.length_append, List.length_map] at hkept
  omega

/-- An acknowledgement retires one frame. -/
theorem Scheduled.length_inFlight_acknowledge {q q' : SendQueue} (h : q.Scheduled [])
    {seq : UInt32} {now sample : Nat} (hack : q.acknowledge? seq now = some (sample, q')) :
    q'.inFlight.length + 1 = q.inFlight.length := by
  obtain ⟨-, hflight, -, -, f, hf, hseq, -⟩ := h.acknowledge hack
  rw [hflight]
  exact length_others h.distinct hf hseq

end SendQueue

end DatagramTunnel.Flight
