import DatagramTunnel.Flight.SendQueue
import DatagramTunnel.Proofs.Flight.Timetable

/-!
# Every frame in flight is on the schedule

`Tracked q late` says that the latest transmission of every frame in flight is on the schedule,
except that the frames numbered in `late` have been taken off it to be sent again.  `Tracked q []`
is what holds between two operations, and it does not depend on the numbers that are queued.  A
number may be queued twice: then the second frame takes the place of the first in flight, and the
transmission of the first stays on the schedule although no frame in flight has made it.

A transmission enters the schedule in an order of its own, so it displaces no other:
`Tracked.transmit` says this once for frames that are sent again and for those sent for the first
time.
-/

namespace DatagramTunnel.Flight

/-- The frame as it was queued. -/
def Sent.frame (f : Sent) : Waiting := ⟨f.seq, f.datagram⟩

namespace SendQueue

/-- Every frame in flight is on the schedule, but for those numbered in `late`. -/
structure Tracked (q : SendQueue) (late : List UInt32) : Prop where
  /-- A number is in flight once. -/
  distinct : (q.inFlight.map Sent.seq).Nodup
  sorted : q.schedule.Sorted
  /-- Every frame in flight is due for another transmission. -/
  entered : ∀ f ∈ q.inFlight, f.seq ∉ late → f.entry ∈ q.schedule
  /-- The next place in the order of transmissions is new. -/
  fresh : ∀ x ∈ q.schedule, x.order < q.nextOrder
  /-- A place in the order belongs to one transmission. -/
  unique : ∀ x ∈ q.schedule, ∀ y ∈ q.schedule, x.order = y.order → x = y

/-! ## Finding a frame -/

theorem find?_mem {q : SendQueue} {seq : UInt32} {f : Sent} (h : q.find? seq = some f) :
    f ∈ q.inFlight ∧ f.seq = seq :=
  ⟨List.mem_of_find?_eq_some h, by simpa using List.find?_some h⟩

theorem seq_ne_of_find?_eq_none {q : SendQueue} {seq : UInt32} (h : q.find? seq = none) {f : Sent}
    (hf : f ∈ q.inFlight) : f.seq ≠ seq := by
  simpa using List.find?_eq_none.1 h f hf

theorem seq_injective {fs : List Sent} (h : (fs.map Sent.seq).Nodup) {f g : Sent} (hf : f ∈ fs)
    (hg : g ∈ fs) (heq : f.seq = g.seq) : f = g := by
  induction fs with
  | nil => exact absurd hf List.not_mem_nil
  | cons x rest ih =>
    rw [List.map_cons, List.nodup_cons] at h
    rcases List.mem_cons.1 hf with rfl | hf' <;> rcases List.mem_cons.1 hg with rfl | hg'
    · rfl
    · exact absurd (List.mem_map.2 ⟨g, hg', heq.symm⟩) h.1
    · exact absurd (List.mem_map.2 ⟨f, hf', heq⟩) h.1
    · exact ih h.2 hf' hg'

theorem find?_eq_some {q : SendQueue} (h : (q.inFlight.map Sent.seq).Nodup) {f : Sent}
    (hf : f ∈ q.inFlight) : q.find? f.seq = some f := by
  cases hfind : q.find? f.seq with
  | none => exact absurd rfl (seq_ne_of_find?_eq_none hfind hf)
  | some g =>
    obtain ⟨hg, hseq⟩ := find?_mem hfind
    rw [seq_injective h hg hf hseq]

theorem isInFlight_iff {q : SendQueue} {seq : UInt32} :
    q.isInFlight seq = true ↔ ∃ f ∈ q.inFlight, f.seq = seq := by
  simp [isInFlight, find?]

theorem others_eq_self {fs : List Sent} {seq : UInt32} (h : ∀ f ∈ fs, f.seq ≠ seq) :
    (fs.filter fun g => !(g.seq == seq)) = fs :=
  List.filter_eq_self.2 fun f hf => by simpa using h f hf

theorem find?_others {fs : List Sent} {seq other : UInt32} :
    (fs.filter fun g => !(g.seq == seq)).find? (fun g => g.seq == other) =
      if seq = other then none else fs.find? fun g => g.seq == other := by
  rw [List.find?_filter]
  split
  · rename_i heq
    exact List.find?_eq_none.2 fun g _ => by simp [heq]
  · rename_i hne
    congr 1
    funext g
    by_cases hg : g.seq = other
    · simp [hg, Ne.symm hne]
    · simp [hg]

/-- Of the frames in flight one has a number that is in flight. -/
theorem length_others {fs : List Sent} (h : (fs.map Sent.seq).Nodup) {f : Sent} (hf : f ∈ fs)
    {seq : UInt32} (hseq : f.seq = seq) :
    (fs.filter fun g => !(g.seq == seq)).length + 1 = fs.length := by
  subst hseq
  have hmem : f.seq ∈ fs.map Sent.seq := List.mem_map_of_mem hf
  have hrest : (fs.filter fun g => !(g.seq == f.seq)).map Sent.seq =
      (fs.map Sent.seq).erase f.seq := by
    rw [h.erase_eq_filter, List.filter_map]
    rfl
  have hlength := congrArg List.length hrest
  have hpos := List.length_pos_of_mem hmem
  rw [List.length_erase_of_mem hmem] at hlength
  simp only [List.length_map] at hlength hpos
  omega

/-! ## One transmission -/

/-- A transmission that takes the next place in the order is entered beside those that are due. -/
theorem Tracked.mem_insert_iff {q : SendQueue} {late : List UInt32} (h : q.Tracked late)
    {now : Nat} {seq : UInt32} {x : Entry} :
    x ∈ q.schedule.insert ⟨now, q.nextOrder, seq⟩ ↔
      x = ⟨now, q.nextOrder, seq⟩ ∨ x ∈ q.schedule :=
  Schedule.mem_insert_iff fun y hy => Nat.ne_of_lt (h.fresh y hy)

/-- After a transmission the frames in flight are tracked that made it or were tracked before. -/
theorem Tracked.transmit {q : SendQueue} {late late' : List UInt32} (h : q.Tracked late)
    {now : Nat} {seq : UInt32} {fs : List Sent} (hdistinct : (fs.map Sent.seq).Nodup)
    (hfrom : ∀ f ∈ fs, f.seq ∉ late' →
      f.entry = ⟨now, q.nextOrder, seq⟩ ∨ f ∈ q.inFlight ∧ f.seq ∉ late) :
    Tracked { q with
      inFlight := fs
      schedule := q.schedule.insert ⟨now, q.nextOrder, seq⟩
      nextOrder := q.nextOrder + 1 } late' where
  distinct := hdistinct
  sorted := h.sorted.insert _
  entered f hf hnot := by
    refine h.mem_insert_iff.2 ((hfrom f hf hnot).imp_right ?_)
    rintro ⟨hmem, hnot⟩
    exact h.entered f hmem hnot
  fresh x hx := by
    rcases h.mem_insert_iff.1 hx with rfl | hx
    · exact Nat.lt_succ_self _
    · exact Nat.lt_succ_of_lt (h.fresh x hx)
  unique x hx y hy hxy := by
    rcases h.mem_insert_iff.1 hx with rfl | hx <;> rcases h.mem_insert_iff.1 hy with rfl | hy
    · rfl
    · exact absurd hxy.symm (Nat.ne_of_lt (h.fresh y hy))
    · exact absurd hxy (Nat.ne_of_lt (h.fresh x hx))
    · exact h.unique x hx y hy hxy

/-! ## Retransmission -/

/-- The frame numbered `seq` after one more transmission at `now`. -/
def repeated (now order : Nat) (seq : UInt32) (f : Sent) : Sent :=
  if f.seq == seq then
    { f with lastSentAt := now, transmissions := f.transmissions + 1, order := order }
  else f

@[simp] theorem repeated_seq (now order : Nat) (seq : UInt32) (f : Sent) :
    (repeated now order seq f).seq = f.seq := by
  unfold repeated
  split <;> rfl

@[simp] theorem repeated_frame (now order : Nat) (seq : UInt32) (f : Sent) :
    (repeated now order seq f).frame = f.frame := by
  unfold repeated
  split <;> rfl

theorem repeated_of_eq {seq : UInt32} {f : Sent} (h : f.seq = seq) (now order : Nat) :
    repeated now order seq f =
      { f with lastSentAt := now, transmissions := f.transmissions + 1, order := order } :=
  if_pos (beq_iff_eq.2 h)

theorem repeated_of_ne {seq : UInt32} {f : Sent} (h : f.seq ≠ seq) (now order : Nat) :
    repeated now order seq f = f :=
  if_neg (by simpa using h)

theorem map_seq_repeated (now order : Nat) (seq : UInt32) (fs : List Sent) :
    (fs.map (repeated now order seq)).map Sent.seq = fs.map Sent.seq := by
  have hsame : Sent.seq ∘ repeated now order seq = Sent.seq :=
    funext (repeated_seq now order seq)
  rw [List.map_map, hsame]

theorem map_frame_repeated (now order : Nat) (seq : UInt32) (fs : List Sent) :
    (fs.map (repeated now order seq)).map Sent.frame = fs.map Sent.frame := by
  have hsame : Sent.frame ∘ repeated now order seq = Sent.frame :=
    funext (repeated_frame now order seq)
  rw [List.map_map, hsame]

theorem resend_of_find {q : SendQueue} {seq : UInt32} {f : Sent} (h : q.find? seq = some f)
    (now : Nat) :
    q.resend now seq = ([f.datagram],
      { q with
        inFlight := q.inFlight.map (repeated now q.nextOrder seq)
        schedule := q.schedule.insert ⟨now, q.nextOrder, seq⟩
        nextOrder := q.nextOrder + 1 }) := by
  simp only [resend, h]
  rfl

theorem resend_of_missing {q : SendQueue} {seq : UInt32} (h : q.find? seq = none) (now : Nat) :
    q.resend now seq = ([], { q with nextOrder := q.nextOrder + 1 }) := by
  simp only [resend, h]

@[simp] theorem waiting_resend (q : SendQueue) (now : Nat) (seq : UInt32) :
    (q.resend now seq).2.waiting = q.waiting := by
  unfold resend
  split <;> rfl

@[simp] theorem window_resend (q : SendQueue) (now : Nat) (seq : UInt32) :
    (q.resend now seq).2.window = q.window := by
  unfold resend
  split <;> rfl

@[simp] theorem nextOrder_resend (q : SendQueue) (now : Nat) (seq : UInt32) :
    (q.resend now seq).2.nextOrder = q.nextOrder + 1 := by
  unfold resend
  split <;> rfl

theorem inFlight_resend (q : SendQueue) (now : Nat) (seq : UInt32) :
    (q.resend now seq).2.inFlight = q.inFlight.map (repeated now q.nextOrder seq) := by
  cases hfind : q.find? seq with
  | some f => rw [resend_of_find hfind]
  | none =>
    have hsame : ∀ f ∈ q.inFlight, repeated now q.nextOrder seq f = f := fun f hf =>
      repeated_of_ne (seq_ne_of_find?_eq_none hfind hf) now q.nextOrder
    rw [resend_of_missing hfind, List.map_congr_left hsame, List.map_id']

theorem find?_resend (q : SendQueue) (now : Nat) (seq other : UInt32) :
    (q.resend now seq).2.find? other = (q.find? other).map (repeated now q.nextOrder seq) := by
  have hpred : (fun g : Sent => g.seq == other) ∘ repeated now q.nextOrder seq =
      fun g => g.seq == other := funext fun g => by simp
  rw [find?, inFlight_resend, List.find?_map, hpred]
  rfl

/-- Sending again repeats frames verbatim. -/
theorem datagrams_resendAll (now : Nat) (late : List UInt32) (q : SendQueue) :
    (resendAll now late q).1 = late.filterMap fun seq => (q.find? seq).map Sent.datagram := by
  induction late generalizing q with
  | nil => rfl
  | cons seq rest ih =>
    have hverbatim : Sent.datagram ∘ repeated now q.nextOrder seq = Sent.datagram :=
      funext fun f => congrArg Waiting.datagram (repeated_frame now q.nextOrder seq f)
    show (q.resend now seq).1 ++ (resendAll now rest (q.resend now seq).2).1 = _
    simp only [ih, find?_resend, Option.map_map, hverbatim]
    cases hfind : q.find? seq with
    | none => rw [resend_of_missing hfind, List.filterMap_cons_none (by rw [hfind]; rfl)]; rfl
    | some f => rw [resend_of_find hfind, List.filterMap_cons_some (by rw [hfind]; rfl)]; rfl

theorem map_frame_resendAll (now : Nat) (late : List UInt32) (q : SendQueue) :
    (resendAll now late q).2.inFlight.map Sent.frame = q.inFlight.map Sent.frame := by
  induction late generalizing q with
  | nil => rfl
  | cons seq rest ih =>
    refine (ih (q.resend now seq).2).trans ?_
    rw [inFlight_resend, map_frame_repeated]

/-- Sending again does not change which numbers are in flight. -/
theorem map_seq_resendAll (now : Nat) (late : List UInt32) (q : SendQueue) :
    (resendAll now late q).2.inFlight.map Sent.seq = q.inFlight.map Sent.seq := by
  have hseqs := congrArg (List.map Waiting.seq) (map_frame_resendAll now late q)
  rwa [List.map_map, List.map_map] at hseqs

@[simp] theorem waiting_resendAll (now : Nat) (late : List UInt32) (q : SendQueue) :
    (resendAll now late q).2.waiting = q.waiting := by
  induction late generalizing q with
  | nil => rfl
  | cons seq rest ih => exact (ih (q.resend now seq).2).trans (waiting_resend q now seq)

@[simp] theorem window_resendAll (now : Nat) (late : List UInt32) (q : SendQueue) :
    (resendAll now late q).2.window = q.window := by
  induction late generalizing q with
  | nil => rfl
  | cons seq rest ih => exact (ih (q.resend now seq).2).trans (window_resend q now seq)

@[simp] theorem nextOrder_resendAll (now : Nat) (late : List UInt32) (q : SendQueue) :
    (resendAll now late q).2.nextOrder = q.nextOrder + late.length := by
  induction late generalizing q with
  | nil => rfl
  | cons seq rest ih =>
    refine (ih (q.resend now seq).2).trans ?_
    rw [nextOrder_resend, List.length_cons]
    omega

/-- Sending a late frame again puts it back on the schedule; a number that is not in flight any more
has no frame to put back. -/
theorem Tracked.resend {q : SendQueue} {seq : UInt32} {late : List UInt32}
    (h : q.Tracked (seq :: late)) (now : Nat) : (q.resend now seq).2.Tracked late := by
  cases hfind : q.find? seq with
  | none =>
    rw [resend_of_missing hfind now]
    refine ⟨h.distinct, h.sorted, fun f hf hnot => h.entered f hf ?_,
      fun x hx => Nat.lt_succ_of_lt (h.fresh x hx), h.unique⟩
    exact List.not_mem_cons_of_ne_of_not_mem (seq_ne_of_find?_eq_none hfind hf) hnot
  | some f =>
    rw [resend_of_find hfind now]
    refine h.transmit ?_ fun g' hg' hnot => ?_
    · rw [map_seq_repeated]
      exact h.distinct
    · obtain ⟨g, hg, rfl⟩ := List.mem_map.1 hg'
      rw [repeated_seq] at hnot
      by_cases hgs : g.seq = seq
      · left
        rw [repeated_of_eq hgs, Sent.entry]
        exact congrArg _ hgs
      · right
        rw [repeated_of_ne hgs]
        exact ⟨hg, List.not_mem_cons_of_ne_of_not_mem hgs hnot⟩

theorem Tracked.resendAll {late : List UInt32} {q : SendQueue} (h : q.Tracked late) (now : Nat) :
    (resendAll now late q).2.Tracked [] := by
  induction late generalizing q with
  | nil => exact h
  | cons seq rest ih => exact ih (h.resend now)

/-! ## First transmissions -/

theorem find?_sendFirst (q : SendQueue) (now : Nat) (f : Waiting) (other : UInt32) :
    (q.sendFirst now f).find? other =
      if f.seq = other then some ⟨f.seq, f.datagram, now, now, 1, q.nextOrder⟩
      else q.find? other := by
  rw [find?, sendFirst, List.find?_append, find?_others]
  by_cases hother : f.seq = other
  · rw [if_pos hother, if_pos hother, Option.none_or,
      List.find?_cons_of_pos (by simpa using hother)]
  · rw [if_neg hother, if_neg hother, List.find?_cons_of_neg (by simpa using hother),
      List.find?_nil, Option.or_none]
    rfl

/-- A first transmission takes a place of its own, or the one that its number has already. -/
theorem distinct_sendFirst {q : SendQueue} (h : (q.inFlight.map Sent.seq).Nodup) (now : Nat)
    (f : Waiting) : ((q.sendFirst now f).inFlight.map Sent.seq).Nodup := by
  simp only [sendFirst, List.map_append, List.map_cons, List.map_nil]
  refine List.nodup_append.2 ⟨h.sublist (List.filter_sublist.map _), by simp, ?_⟩
  intro seq hseq other hother heq
  obtain ⟨g, hg, rfl⟩ := List.mem_map.1 hseq
  rw [List.mem_singleton] at hother
  simpa [heq, hother] using (List.mem_filter.1 hg).2

theorem Tracked.sendFirst {q : SendQueue} (h : q.Tracked []) (now : Nat) (f : Waiting) :
    (q.sendFirst now f).Tracked [] := by
  refine h.transmit (distinct_sendFirst h.distinct now f) fun g hg _ => ?_
  rcases List.mem_append.1 hg with hg | hg
  · exact .inr ⟨(List.mem_filter.1 hg).1, List.not_mem_nil⟩
  · rw [List.mem_singleton] at hg
    subst hg
    exact .inl rfl

theorem Tracked.withWaiting {q : SendQueue} {late : List UInt32} (h : q.Tracked late)
    (frames : List Waiting) : ({ q with waiting := frames } : SendQueue).Tracked late :=
  ⟨h.distinct, h.sorted, h.entered, h.fresh, h.unique⟩

theorem Tracked.fill {frames : List Waiting} {q : SendQueue} (h : q.Tracked []) (now : Nat) :
    (fill now frames q).2.Tracked [] := by
  induction frames generalizing q with
  | nil => exact h.withWaiting []
  | cons f rest ih =>
    rw [SendQueue.fill]
    split
    · exact ih (h.sendFirst now f)
    · exact h.withWaiting (f :: rest)

/-! ## The operations -/

/-- The frames whose transmissions a tick takes off the schedule are late. -/
theorem Tracked.takeOverdue {q : SendQueue} (h : q.Tracked []) (now timeout : Nat) :
    ({ q with schedule := q.schedule.pending now timeout } : SendQueue).Tracked
      ((q.schedule.overdue now timeout).map Entry.seq) where
  distinct := h.distinct
  sorted := h.sorted.pending now timeout
  entered f hf hnot := by
    have hentry := h.entered f hf List.not_mem_nil
    refine (Schedule.mem_pending_iff h.sorted).2 ⟨hentry, Nat.lt_of_not_le fun hdue => hnot ?_⟩
    exact List.mem_map.2 ⟨f.entry, (Schedule.mem_overdue_iff h.sorted).2 ⟨hentry, hdue⟩, rfl⟩
  fresh x hx := h.fresh x ((Schedule.mem_pending_iff h.sorted).1 hx).1
  unique x hx y hy := h.unique x ((Schedule.mem_pending_iff h.sorted).1 hx).1 y
    ((Schedule.mem_pending_iff h.sorted).1 hy).1

theorem Tracked.ticked {q : SendQueue} (h : q.Tracked []) (now timeout : Nat) :
    (q.ticked now timeout).2.Tracked [] :=
  ((h.takeOverdue now timeout).resendAll now).fill now

/-- An acknowledgement takes a frame out of flight, and its transmission off the schedule. -/
theorem Tracked.acknowledge {q q' : SendQueue} (h : q.Tracked []) {seq : UInt32}
    {now sample : Nat} (hack : q.acknowledge? seq now = some (sample, q')) : q'.Tracked [] := by
  obtain ⟨f, hfind, hpair⟩ := Option.map_eq_some_iff.1 hack
  obtain ⟨hf, hseq⟩ := find?_mem hfind
  obtain ⟨-, rfl⟩ := Prod.mk.inj hpair
  refine ⟨h.distinct.sublist (List.filter_sublist.map _), h.sorted.erase _ _, ?_, ?_, ?_⟩
  · intro g hg _
    obtain ⟨hg, hne⟩ := List.mem_filter.1 hg
    have hentry := h.entered g hg List.not_mem_nil
    refine Schedule.mem_erase_iff.2 ⟨hentry, fun hkey => ?_⟩
    -- the key names one transmission, and that is the one of the frame that is retired
    have heq := h.unique _ hentry _ (h.entered f hf List.not_mem_nil) hkey.2
    have : g.seq = f.seq := congrArg Entry.seq heq
    simp [this, hseq] at hne
  · exact fun x hx => h.fresh x (Schedule.mem_erase_iff.1 hx).1
  · exact fun x hx y hy =>
      h.unique x (Schedule.mem_erase_iff.1 hx).1 y (Schedule.mem_erase_iff.1 hy).1

theorem Tracked.empty {q : SendQueue} (hflight : q.inFlight = []) (hschedule : q.schedule = []) :
    q.Tracked [] := by
  refine ⟨?_, ?_, ?_, ?_, ?_⟩ <;> simp [hflight, hschedule, Schedule.Sorted]

end SendQueue

end DatagramTunnel.Flight
