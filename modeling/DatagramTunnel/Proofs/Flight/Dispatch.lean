import DatagramTunnel.Proofs.Flight.Orderly
import Mathlib.Data.List.Sort

/-!
# What a tick dispatches

A tick reads the frames that it sends again off the schedule, which it changes as it goes.
`SendQueue.overdue` says which ones they are without the schedule: the frames in flight whose latest
transmission is old enough, in the order of these transmissions.  `TicksExactly` says of one tick
that it has a result, what it sends, what it counts and what it leaves.

In any queue that calls can lead to in which a number is outstanding once, all ticks in reach of the
clock are exact if and only if the schedule holds no transmission of a frame in flight but its
latest, and orderly runs lead to such queues only, `ticks_exactly`.  So two transmissions of a frame
are apart by the timeout of the later tick.
-/

namespace DatagramTunnel.Flight

/-! ## The order of transmissions -/

/-- The latest transmission of this frame was made no later than that of the other. -/
def Sent.Precedes (f g : Sent) : Prop :=
  f.lastSentAt < g.lastSentAt ∨ f.lastSentAt = g.lastSentAt ∧ f.order ≤ g.order

namespace Sent

instance : DecidableRel Precedes := fun f g =>
  inferInstanceAs (Decidable (f.lastSentAt < g.lastSentAt ∨
    f.lastSentAt = g.lastSentAt ∧ f.order ≤ g.order))

instance : Std.Total Precedes where
  total f g := by
    unfold Precedes
    omega

instance : IsTrans Sent Precedes where
  trans f g e := by
    unfold Precedes
    omega

theorem precedes_of_before {f g : Sent} (h : f.entry.before g.entry = true) : f.Precedes g := by
  simp only [Entry.before, Bool.or_eq_true, Bool.and_eq_true, decide_eq_true_eq, beq_iff_eq] at h
  exact h.imp_right fun hsame => ⟨hsame.1, Nat.le_of_lt hsame.2⟩

theorem order_eq_of_precedes {f g : Sent} (hfg : f.Precedes g) (hgf : g.Precedes f) :
    f.order = g.order := by
  unfold Precedes at hfg hgf
  omega

end Sent

namespace SendQueue

/-- The frames in flight that a tick has to send again, in the order of their latest
transmissions. -/
def overdue (q : SendQueue) (now timeout : Nat) : List Sent :=
  (q.inFlight.filter fun f => f.lastSentAt + timeout ≤ now).insertionSort Sent.Precedes

/-- The frames that a tick has to send: those that are overdue, then those that wait and find
room. -/
def dispatch (q : SendQueue) (now timeout : Nat) : List Waiting :=
  (q.overdue now timeout).map Sent.frame ++ q.waiting.take q.room

/-- What a tick makes of a frame in flight: one that is overdue is transmitted once more, in the
order in which the schedule has it, and any other is left alone. -/
def afterTick (q : SendQueue) (now timeout : Nat) (f : Sent) : Sent :=
  if f.lastSentAt + timeout ≤ now then
    { f with
      lastSentAt := now
      transmissions := f.transmissions + 1
      order := q.nextOrder + ((q.schedule.overdue now timeout).map Entry.seq).idxOf f.seq }
  else f

/-- A tick does what is due at the time, and nothing else. -/
structure TicksExactly (q : SendQueue) (now timeout : Nat) : Prop where
  returns : q.tick now timeout = .ok (q.ticked now timeout)
  datagrams : (q.ticked now timeout).1.datagrams = (q.dispatch now timeout).map Waiting.datagram
  /-- No frame is sent twice. -/
  once : ((q.dispatch now timeout).map Waiting.seq).Nodup
  /-- No two of the latest transmissions tie. -/
  ascending : (q.overdue now timeout).Pairwise fun f g => f.entry.before g.entry
  retransmitted : (q.ticked now timeout).1.retransmitted = (q.overdue now timeout).length
  admitted : (q.ticked now timeout).1.admitted =
    min (q.window - q.inFlight.length) q.waiting.length
  counted : (q.ticked now timeout).1.datagrams.length =
    (q.ticked now timeout).1.admitted + (q.ticked now timeout).1.retransmitted
  /-- A first transmission comes after all retransmissions in the order. -/
  inFlight : (q.ticked now timeout).2.inFlight = q.inFlight.map (q.afterTick now timeout) ++
    launch now (q.nextOrder + (q.schedule.overdue now timeout).length) (q.waiting.take q.room)
  waiting : (q.ticked now timeout).2.waiting = q.waiting.drop q.room

theorem mem_overdue_iff {q : SendQueue} {now timeout : Nat} {f : Sent} :
    f ∈ q.overdue now timeout ↔ f ∈ q.inFlight ∧ f.lastSentAt + timeout ≤ now := by
  rw [overdue, List.mem_insertionSort, List.mem_filter, decide_eq_true_eq]

@[simp] theorem afterTick_seq (q : SendQueue) (now timeout : Nat) (f : Sent) :
    (q.afterTick now timeout f).seq = f.seq := by
  unfold afterTick
  split <;> rfl

@[simp] theorem afterTick_frame (q : SendQueue) (now timeout : Nat) (f : Sent) :
    (q.afterTick now timeout f).frame = f.frame := by
  unfold afterTick
  split <;> rfl

@[simp] theorem afterTick_firstSentAt (q : SendQueue) (now timeout : Nat) (f : Sent) :
    (q.afterTick now timeout f).firstSentAt = f.firstSentAt := by
  unfold afterTick
  split <;> rfl

/-! ## Sending several frames again -/

/-- The frame after the frames numbered in `late` are sent again from the place `order` on. -/
def resent (now order : Nat) (late : List UInt32) (f : Sent) : Sent :=
  if f.seq ∈ late then
    { f with
      lastSentAt := now
      transmissions := f.transmissions + 1
      order := order + late.idxOf f.seq }
  else f

theorem resent_repeated {now order : Nat} {seq : UInt32} {rest : List UInt32} {f : Sent}
    (honce : f.seq = seq → f.seq ∉ rest) :
    resent now (order + 1) rest (repeated now order seq f) = resent now order (seq :: rest) f := by
  by_cases hseq : f.seq = seq
  · rw [resent, repeated_seq, if_neg (honce hseq), repeated_of_eq hseq, resent, hseq,
      if_pos List.mem_cons_self, List.idxOf_cons_self]
    rfl
  · have hmem : f.seq ∈ seq :: rest ↔ f.seq ∈ rest := by simp [hseq]
    have hplace : order + 1 + rest.idxOf f.seq = order + (seq :: rest).idxOf f.seq := by
      rw [List.idxOf_cons_ne rest (Ne.symm hseq)]
      omega
    rw [repeated_of_ne hseq, resent, resent, hplace]
    simp only [hmem]

/-- A number may stand among the late ones more than once if it is not in flight. -/
theorem inFlight_resendAll {q : SendQueue} {late : List UInt32}
    (honce : late.Pairwise fun seq other => seq = other → q.find? seq = none) (now : Nat) :
    (SendQueue.resendAll now late q).2.inFlight =
      q.inFlight.map (resent now q.nextOrder late) := by
  induction late generalizing q with
  | nil =>
    have hsame : resent now q.nextOrder [] = id := funext fun f => if_neg List.not_mem_nil
    rw [hsame, List.map_id]
    rfl
  | cons seq rest ih =>
    obtain ⟨hseq, hrest⟩ := List.pairwise_cons.1 honce
    have hrest' : rest.Pairwise fun a b => a = b → (q.resend now seq).2.find? a = none :=
      hrest.imp fun {a b} hab heq => by rw [find?_resend, hab heq, Option.map_none]
    refine (ih hrest').trans ?_
    rw [inFlight_resend, nextOrder_resend, List.map_map]
    refine List.map_congr_left fun f hf => resent_repeated ?_
    rintro rfl hin
    exact seq_ne_of_find?_eq_none (hseq f.seq hin rfl) hf rfl

/-! ## What the schedule has overdue -/

variable {q : SendQueue}

/-- Only the latest transmission of a frame leads to the frame. -/
theorem Unambiguous.eq_entry (h : q.Unambiguous) {x : Entry} (hx : x ∈ q.schedule) {f : Sent}
    (hf : q.find? x.seq = some f) : x = f.entry :=
  h.latest x hx f (find?_mem hf).1 (find?_mem hf).2.symm

theorem Unambiguous.distinct_inFlight (h : q.Unambiguous) : (q.inFlight.map Sent.seq).Nodup := by
  have hall := h.distinct
  rw [outstanding, List.map_append, List.map_map] at hall
  exact (List.nodup_append.1 hall).1

theorem Unambiguous.admissible (h : q.Unambiguous) : q.Admissible q.waiting :=
  admissible_of_nodup h.distinct

/-- Of the transmissions that are overdue, two of one number are not of a frame in flight. -/
theorem Unambiguous.late_once (h : q.Unambiguous) (htracked : q.Tracked []) (now timeout : Nat) :
    ((q.schedule.overdue now timeout).map Entry.seq).Pairwise fun seq other =>
      seq = other → q.find? seq = none := by
  have hnodup : (q.schedule.overdue now timeout).Nodup :=
    htracked.sorted.nodup.sublist (List.takeWhile_sublist _)
  refine List.pairwise_map.2 (List.Pairwise.imp_of_mem (fun {x y} hx hy hne heq => ?_) hnodup)
  have hx' := ((Schedule.mem_overdue_iff htracked.sorted).1 hx).1
  have hy' := ((Schedule.mem_overdue_iff htracked.sorted).1 hy).1
  cases hfind : q.find? x.seq with
  | none => rfl
  | some f =>
    have hxf := h.eq_entry hx' hfind
    have hyf := h.eq_entry hy' (heq ▸ hfind)
    exact absurd (hxf.trans hyf.symm) hne

theorem Unambiguous.mem_late_iff (h : q.Unambiguous) (htracked : q.Tracked []) {now timeout : Nat}
    {f : Sent} (hf : f ∈ q.inFlight) :
    f.seq ∈ (q.schedule.overdue now timeout).map Entry.seq ↔ f.lastSentAt + timeout ≤ now := by
  constructor
  · intro hin
    obtain ⟨x, hx, hseq⟩ := List.mem_map.1 hin
    obtain ⟨hmem, hdue⟩ := (Schedule.mem_overdue_iff htracked.sorted).1 hx
    rwa [h.latest x hmem f hf hseq] at hdue
  · intro hdue
    have hentry := htracked.entered f hf List.not_mem_nil
    exact List.mem_map.2
      ⟨f.entry, (Schedule.mem_overdue_iff htracked.sorted).2 ⟨hentry, hdue⟩, rfl⟩

/-- The frames that the schedule has overdue, in its order. -/
theorem Unambiguous.filterMap_overdue (h : q.Unambiguous) (htracked : q.Tracked [])
    (now timeout : Nat) :
    (q.schedule.overdue now timeout).filterMap (fun x => q.find? x.seq) = q.overdue now timeout ∧
      (q.overdue now timeout).Pairwise fun f g => f.entry.before g.entry := by
  have hmem : ∀ x ∈ q.schedule.overdue now timeout, x ∈ q.schedule ∧ x.sentAt + timeout ≤ now :=
    fun x hx => (Schedule.mem_overdue_iff htracked.sorted).1 hx
  let late := (q.schedule.overdue now timeout).filterMap fun x => q.find? x.seq
  have hascend : late.Pairwise fun f g => f.entry.before g.entry := by
    have hsorted : (q.schedule.overdue now timeout).Pairwise fun x y => x.before y :=
      List.Pairwise.sublist (List.takeWhile_sublist _) htracked.sorted
    refine List.pairwise_filterMap.2 (hsorted.imp_of_mem fun {x y} hx hy hbefore f hf g hg => ?_)
    rwa [← h.eq_entry (hmem x hx).1 hf, ← h.eq_entry (hmem y hy).1 hg]
  have hiff : ∀ f, f ∈ late ↔ f ∈ q.inFlight.filter fun f => f.lastSentAt + timeout ≤ now := by
    intro f
    rw [List.mem_filterMap, List.mem_filter, decide_eq_true_eq]
    constructor
    · rintro ⟨x, hx, hf⟩
      have hdue := (hmem x hx).2
      rw [h.eq_entry (hmem x hx).1 hf] at hdue
      exact ⟨(find?_mem hf).1, hdue⟩
    · rintro ⟨hf, hdue⟩
      have hentry := htracked.entered f hf List.not_mem_nil
      exact ⟨f.entry, (Schedule.mem_overdue_iff htracked.sorted).2 ⟨hentry, hdue⟩,
        find?_eq_some h.distinct_inFlight hf⟩
  have hnodup : late.Nodup := hascend.imp fun {f g} hfg heq => by
    rw [heq, Entry.not_before_self] at hfg
    cases hfg
  have hperm : late.Perm (q.overdue now timeout) :=
    ((List.perm_ext_iff_of_nodup hnodup (h.distinct_inFlight.of_map.filter _)).2 hiff).trans
      (List.perm_insertionSort Sent.Precedes _).symm
  -- a place in the order belongs to one transmission, and so to one frame
  have heq : late = q.overdue now timeout := by
    refine hperm.eq_of_pairwise (fun f g hf hg hfg hgf => ?_)
      (hascend.imp Sent.precedes_of_before) (List.pairwise_insertionSort Sent.Precedes _)
    have hf' := (List.mem_filter.1 ((hiff f).1 hf)).1
    have hg' := (mem_overdue_iff.1 hg).1
    have hentry := htracked.unique _ (htracked.entered f hf' List.not_mem_nil) _
      (htracked.entered g hg' List.not_mem_nil) (Sent.order_eq_of_precedes hfg hgf)
    exact seq_injective h.distinct_inFlight hf' hg' (congrArg Entry.seq hentry)
  exact ⟨heq, heq ▸ hascend⟩

/-! ## One tick -/

theorem dispatch_once (h : (q.outstanding.map Waiting.seq).Nodup) (now timeout : Nat) :
    ((q.dispatch now timeout).map Waiting.seq).Nodup := by
  let due := q.inFlight.filter fun f => f.lastSentAt + timeout ≤ now
  have hperm : (q.dispatch now timeout).Perm (due.map Sent.frame ++ q.waiting.take q.room) :=
    ((List.perm_insertionSort Sent.Precedes due).map Sent.frame).append_right _
  have hsub : (due.map Sent.frame ++ q.waiting.take q.room).Sublist q.outstanding :=
    (List.filter_sublist.map Sent.frame).append (List.take_sublist _ _)
  exact (hperm.map Waiting.seq).nodup_iff.2 (h.sublist (hsub.map Waiting.seq))

theorem Unambiguous.ticksExactly (h : q.Unambiguous) (htracked : q.Tracked []) {now timeout : Nat}
    (hreach : q.schedule.InReach now timeout) : q.TicksExactly now timeout := by
  obtain ⟨hlate, hascend⟩ := h.filterMap_overdue htracked now timeout
  obtain ⟨hout, hflight, hwaiting⟩ := h.admissible.ticked now timeout
  have hagain : (q.schedule.overdue now timeout).filterMap
      (fun x => (q.find? x.seq).map Sent.datagram) =
        (q.overdue now timeout).map Sent.datagram := by
    rw [← hlate, List.map_filterMap]
  have hcount := length_datagrams_ticked q now timeout
  have hadmitted : (q.ticked now timeout).1.admitted = min q.room q.waiting.length := by
    have hkept := admitted_add_waiting_ticked q now timeout
    rw [hwaiting, List.length_drop] at hkept
    omega
  refine ⟨tick_of_inReach hreach, ?_, dispatch_once h.distinct now timeout, hascend, ?_, hadmitted,
    hcount, ?_, hwaiting⟩
  · rw [hout, hagain, dispatch, List.map_append, List.map_map]
    rfl
  · rw [hout, hagain, List.length_append, List.length_map, List.length_map, List.length_take,
      hadmitted] at hcount
    omega
  · let q₀ : SendQueue := { q with schedule := q.schedule.pending now timeout }
    have hresent := @inFlight_resendAll q₀ _ (h.late_once htracked now timeout) now
    have hafter : ∀ f ∈ q.inFlight,
        resent now q.nextOrder ((q.schedule.overdue now timeout).map Entry.seq) f =
          q.afterTick now timeout f := by
      intro f hf
      rw [resent, afterTick]
      simp only [h.mem_late_iff htracked hf]
    rw [hflight, hresent, List.map_congr_left hafter]

/-- A transmission of a frame in flight that is not its latest is sent as a frame of its own. -/
theorem TicksExactly.latest
    (h : ∀ now timeout, q.schedule.InReach now timeout → q.TicksExactly now timeout)
    (hinstants : ∀ x ∈ q.schedule, x.sentAt ≤ lastInstant)
    (hdistinct : (q.inFlight.map Sent.seq).Nodup) (htracked : q.Tracked []) :
    ∀ x ∈ q.schedule, ∀ f ∈ q.inFlight, x.seq = f.seq → x = f.entry := by
  intro x hx f hf hseq
  by_contra hne
  let now := max x.sentAt f.lastSentAt
  have hexact := h now 0 (Schedule.inReach_of_forall hinstants now)
  let known := (q.schedule.overdue now 0).filter fun y =>
    ((q.find? y.seq).map Sent.datagram).isSome
  have hcount : (q.ticked now 0).1.retransmitted = known.length := by
    show (SendQueue.resendAll now ((q.schedule.overdue now 0).map Entry.seq)
      { q with schedule := q.schedule.pending now 0 }).1.length = _
    rw [datagrams_resendAll, List.filterMap_map, List.length_filterMap_eq_countP,
      List.countP_eq_length_filter]
    rfl
  have hknown : ∀ y ∈ q.schedule, y.sentAt ≤ now → ∀ g ∈ q.inFlight, g.seq = y.seq → y ∈ known := by
    intro y hy hdue g hg hgy
    refine List.mem_filter.2 ⟨(Schedule.mem_overdue_iff htracked.sorted).2 ⟨hy, hdue⟩, ?_⟩
    rw [← hgy, find?_eq_some hdistinct hg]
    rfl
  have hnodup : (x :: (q.overdue now 0).map Sent.entry).Nodup := by
    refine List.nodup_cons.2 ⟨fun hin => ?_, ?_⟩
    · obtain ⟨g, hg, rfl⟩ := List.mem_map.1 hin
      rw [seq_injective hdistinct (mem_overdue_iff.1 hg).1 hf hseq] at hne
      exact hne rfl
    · refine List.pairwise_map.2 (hexact.ascending.imp fun {g e} hge heq => ?_)
      rw [heq, Entry.not_before_self] at hge
      cases hge
  have hsub : x :: (q.overdue now 0).map Sent.entry ⊆ known := by
    intro y hy
    rcases List.mem_cons.1 hy with rfl | hy
    · exact hknown _ hx (Nat.le_max_left _ _) f hf hseq.symm
    · obtain ⟨g, hg, rfl⟩ := List.mem_map.1 hy
      obtain ⟨hg, hdue⟩ := mem_overdue_iff.1 hg
      exact hknown _ (htracked.entered g hg List.not_mem_nil) hdue g hg rfl
  have hlength := (List.subperm_of_subset hnodup hsub).length_le
  have hexactly := hexact.retransmitted
  rw [List.length_cons, List.length_map] at hlength
  omega

/-! ## Several ticks -/

/-- A frame is in flight under the number, and no transmission of it is older than `since`. -/
def SentSince (q : SendQueue) (seq : UInt32) (since : Nat) : Prop :=
  ∃ f ∈ q.inFlight, f.seq = seq ∧ since ≤ f.lastSentAt

/-- What is dispatched is in flight from then on. -/
theorem TicksExactly.sentSince {now timeout : Nat} (h : q.TicksExactly now timeout) {seq : UInt32}
    (hsent : seq ∈ (q.dispatch now timeout).map Waiting.seq) :
    (q.ticked now timeout).2.SentSince seq now := by
  obtain ⟨w, hw, rfl⟩ := List.mem_map.1 hsent
  unfold SentSince
  rw [h.inFlight]
  rcases List.mem_append.1 hw with hagain | hfirst
  · obtain ⟨f, hf, rfl⟩ := List.mem_map.1 hagain
    obtain ⟨hf, hdue⟩ := mem_overdue_iff.1 hf
    refine ⟨_, List.mem_append_left _ (List.mem_map_of_mem hf), afterTick_seq q now timeout f, ?_⟩
    rw [afterTick, if_pos hdue]
  · rw [← map_frame_launch now (q.nextOrder + (q.schedule.overdue now timeout).length)
      (q.waiting.take q.room)] at hfirst
    obtain ⟨f, hf, rfl⟩ := List.mem_map.1 hfirst
    exact ⟨f, List.mem_append_right _ hf, rfl, Nat.le_of_eq (lastSentAt_of_mem_launch hf).symm⟩

/-- Only an acknowledgement of the frame and `clear` end what a transmission has begun. -/
theorem SentSince.call {seq : UInt32} {since : Nat} (h : q.SentSince seq since)
    (hexact : ∀ now timeout, q.schedule.InReach now timeout → q.TicksExactly now timeout) {c : Call}
    (hack : ∀ now, c ≠ .acknowledge seq now) (hclear : c ≠ .clear) {q' : SendQueue}
    (hcall : q.call c = .ok q') : q'.SentSince seq since := by
  obtain ⟨f, hf, rfl, hsince⟩ := h
  have hreach : ∀ now timeout, c = .tick now timeout → q.schedule.InReach now timeout :=
    fun now timeout htick => inReach_of_call (htick ▸ hcall)
  rw [eq_after hcall]
  cases c with
  | enqueue other datagram => exact ⟨f, hf, rfl, hsince⟩
  | tick now timeout =>
    refine ⟨q.afterTick now timeout f, ?_, afterTick_seq q now timeout f, ?_⟩
    · rw [SendQueue.after, (hexact now timeout (hreach now timeout rfl)).inFlight]
      exact List.mem_append_left _ (List.mem_map_of_mem hf)
    · unfold afterTick
      split
      · rename_i hdue
        show since ≤ now
        omega
      · exact hsince
  | acknowledge other now =>
    rw [SendQueue.after]
    cases hknown : q.acknowledge? other now with
    | none => exact ⟨f, hf, rfl, hsince⟩
    | some result =>
      obtain ⟨g, -, rfl⟩ := Option.map_eq_some_iff.1 hknown
      have hne : f.seq ≠ other := fun heq => hack now (congrArg (Call.acknowledge · now) heq.symm)
      exact ⟨f, List.mem_filter.2 ⟨hf, by simp [hne]⟩, rfl, hsince⟩
  | clear => exact absurd rfl hclear

theorem SentSince.callAll {seq : UInt32} {since : Nat} (h : q.SentSince seq since)
    {calls : List Call}
    (hexact : ∀ early q₁, early <+: calls → q.callAll early = .ok q₁ →
      ∀ now timeout, q₁.schedule.InReach now timeout → q₁.TicksExactly now timeout)
    (hack : ∀ now, .acknowledge seq now ∉ calls) (hclear : .clear ∉ calls) {q' : SendQueue}
    (hrun : q.callAll calls = .ok q') : q'.SentSince seq since := by
  induction calls generalizing q with
  | nil => exact Except.ok.inj hrun ▸ h
  | cons c rest ih =>
    obtain ⟨q₁, hcall, hrest⟩ := exists_call_of_callAll hrun
    have hnext : q₁.SentSince seq since := by
      refine h.call (hexact [] q List.nil_prefix rfl) (fun now heq => hack now ?_)
        (fun heq => hclear ?_) hcall
      · exact heq ▸ List.mem_cons_self
      · exact heq ▸ List.mem_cons_self
    refine ih hnext (fun early q₂ hearly hrun₂ => ?_)
      (fun now hin => hack now (List.mem_cons_of_mem c hin))
      (fun hin => hclear (List.mem_cons_of_mem c hin)) hrest
    refine hexact (c :: early) q₂ (List.cons_prefix_cons.2 ⟨rfl, hearly⟩) ?_
    rw [callAll_cons, hcall]
    exact hrun₂

/-- A frame that was transmitted is not due before the timeout has passed. -/
theorem SentSince.due (h : (q.outstanding.map Waiting.seq).Nodup) {seq : UInt32} {since : Nat}
    (hsent : q.SentSince seq since) {now timeout : Nat}
    (hdue : seq ∈ (q.dispatch now timeout).map Waiting.seq) : since + timeout ≤ now := by
  obtain ⟨f, hf, rfl, hsince⟩ := hsent
  rw [outstanding, List.map_append, List.map_map, List.nodup_append] at h
  obtain ⟨hdistinct, -, hapart⟩ := h
  obtain ⟨w, hw, hseq⟩ := List.mem_map.1 hdue
  rcases List.mem_append.1 hw with hagain | hfirst
  · obtain ⟨g, hg, rfl⟩ := List.mem_map.1 hagain
    obtain ⟨hg, hdue⟩ := mem_overdue_iff.1 hg
    have hgf : g = f := seq_injective hdistinct hg hf hseq
    rw [hgf] at hdue
    omega
  · have hwaits : w.seq ∈ q.waiting.map Waiting.seq :=
      List.mem_map_of_mem (List.mem_of_mem_take hfirst)
    exact absurd hseq.symm (hapart f.seq (List.mem_map_of_mem hf) w.seq hwaits)

/-- A run that goes on with a tick and more calls has results on the way. -/
theorem exists_of_callAll_tick {q₀ : SendQueue} {before between : List Call} {now timeout : Nat}
    (hrun : q₀.callAll (before ++ .tick now timeout :: between) = .ok q) :
    ∃ q₁, q₀.callAll before = .ok q₁ ∧ q₁.schedule.InReach now timeout ∧
      (q₁.ticked now timeout).2.callAll between = .ok q := by
  obtain ⟨q₁, hbefore, hrest⟩ := exists_of_callAll_append hrun
  obtain ⟨q₂, htick, hbetween⟩ := exists_call_of_callAll hrest
  rw [eq_after htick] at hbetween
  exact ⟨q₁, hbefore, inReach_of_call htick, hbetween⟩

/-- A run has a result if no timeout leads beyond the last instant.  In a queue in which a number is
outstanding once, the ticks in reach are exact if and only if the schedule holds no transmission of
a frame in flight but its latest.  Orderly runs lead to such queues.  As long as they last, the
timeout of the later tick passes between two transmissions of a frame. -/
theorem ticks_exactly (window : Nat) :
    (∀ calls, (∀ sentAt before now timeout, .tick sentAt before ∈ calls →
        .tick now timeout ∈ calls → sentAt + timeout ≤ lastInstant) →
      ∃ q, callAll { window } calls = .ok q) ∧
    (∀ calls q, (∀ now timeout, .tick now timeout ∈ calls → now ≤ lastInstant) →
      callAll { window } calls = .ok q → (q.outstanding.map Waiting.seq).Nodup →
      ((∀ now timeout, q.schedule.InReach now timeout → q.TicksExactly now timeout) ↔
        ∀ x ∈ q.schedule, ∀ f ∈ q.inFlight, x.seq = f.seq → x = f.entry)) ∧
    (∀ calls q, callAll { window } calls = .ok q → Orderly { window } calls → q.Unambiguous) ∧
    (∀ before between t₁ r₁ t₂ r₂ seq q₁ q₂,
      callAll { window } before = .ok q₁ →
      callAll { window } (before ++ .tick t₁ r₁ :: between) = .ok q₂ →
      (∀ early q, before <+: early → early <+: before ++ .tick t₁ r₁ :: between →
        callAll { window } early = .ok q → q.Unambiguous) →
      (∀ now, .acknowledge seq now ∉ between) → .clear ∉ between →
      seq ∈ (q₁.dispatch t₁ r₁).map Waiting.seq → seq ∈ (q₂.dispatch t₂ r₂).map Waiting.seq →
      t₁ + r₂ ≤ t₂) := by
  refine ⟨fun calls hreach => exists_callAll hreach, ?_,
    fun calls q hrun h => ((Regular.new window).callAll h hrun).unambiguous, ?_⟩
  · intro calls q hinstants hrun hdistinct
    have htracked := tracked_callAll hrun
    have hmade : ∀ x ∈ q.schedule, x.sentAt ≤ lastInstant := by
      intro x hx
      rcases mem_schedule_callAll hrun hx with hx | ⟨timeout, htick⟩
      · exact absurd hx List.not_mem_nil
      · exact hinstants x.sentAt timeout htick
    constructor
    · exact fun hexact => TicksExactly.latest hexact hmade htracked.distinct htracked
    · exact fun hlatest now timeout => Unambiguous.ticksExactly ⟨hdistinct, hlatest⟩ htracked
  · intro before between t₁ r₁ t₂ r₂ seq q₁ q₂ hbefore hrun hclear hack hkept hsent hdue
    obtain ⟨q₀, hbefore', hreach, hbetween⟩ := exists_of_callAll_tick hrun
    obtain rfl : q₁ = q₀ := Except.ok.inj (hbefore.symm.trans hbefore')
    have hstart := hclear before q₁ (List.prefix_refl _) (List.prefix_append _ _) hbefore
    have hend := hclear _ q₂ (List.prefix_append _ _) (List.prefix_refl _) hrun
    have hsince := (hstart.ticksExactly (tracked_callAll hbefore) hreach).sentSince hsent
    refine (hsince.callAll (fun early q hearly hrun₃ => ?_) hack hkept hbetween).due hend.distinct
      hdue
    -- the state after `early` is one of the run
    have hpath : callAll { window } (before ++ .tick t₁ r₁ :: early) = .ok q := by
      rw [callAll_append, hbefore]
      show callAll q₁ (.tick t₁ r₁ :: early) = .ok q
      rw [callAll_cons, call, tick_of_inReach hreach]
      exact hrun₃
    have hstate := hclear _ q (List.prefix_append _ _)
      ((List.prefix_append_right_inj before).2 (List.cons_prefix_cons.2 ⟨rfl, hearly⟩)) hpath
    exact fun now timeout => hstate.ticksExactly (tracked_callAll hpath)

/-- A queue in which a number was once queued twice, and a frame that is sent again. -/
theorem ticks_exactly_two :
    let calls : List Call := [.enqueue 5 [1], .enqueue 5 [2], .tick 0 100, .clear, .enqueue 5 [3],
      .tick 7 100, .enqueue 6 [4]]
    (∃ q, callAll { window := 2 } calls = .ok q ∧ ∀ now timeout,
      q.schedule.InReach now timeout → q.TicksExactly now timeout) ∧ 7 + 100 ≤ 110 := by
  intro calls
  obtain ⟨hreturns, hexact, horderly, hapart⟩ := ticks_exactly 2
  have hticks : ∀ now timeout, .tick now timeout ∈ calls → now + timeout ≤ 107 ∧ timeout = 100 := by
    intro now timeout htick
    obtain ⟨rfl, rfl⟩ | ⟨rfl, rfl⟩ : now = 0 ∧ timeout = 100 ∨ now = 7 ∧ timeout = 100 := by
      simpa [calls] using htick
    · decide
    · decide
  have hlast : 107 ≤ lastInstant := by decide
  constructor
  · obtain ⟨q, hrun⟩ := hreturns calls fun sentAt before now timeout hmade hnow => by
      have hmade := hticks sentAt before hmade
      have hnow := hticks now timeout hnow
      omega
    obtain rfl : _ = q := Except.ok.inj hrun
    refine ⟨_, hrun, (hexact calls _ (fun now timeout htick => ?_) hrun (by decide)).2 (by decide)⟩
    have htick := hticks now timeout htick
    omega
  · refine hapart [.enqueue 5 [3]] [.enqueue 6 [4], .tick 50 100] 7 100 110 100 5 _ _ rfl rfl
      (fun early q _ hearly hrun => horderly early q hrun (Orderly.of_prefix ?_ hearly)) (by simp)
      (by decide) (by decide) (by decide)
    decide

/-- A number that is queued while it is outstanding leaves a second transmission on the schedule:
the frame is then sent twice by one tick, although its number is outstanding once. And no tick has a
result if the first deadline is after the last instant. -/
theorem sent_twice_by_one_tick :
    let calls : List Call := [.enqueue 5 [1], .enqueue 5 [2], .tick 0 100]
    ∃ q out q', callAll { window := 2 } calls = .ok q ∧ (q.outstanding.map Waiting.seq).Nodup ∧
      q.tick 100 100 = .ok (out, q') ∧ out.datagrams = [[2], [2]] ∧
      q.dispatch 100 100 = [⟨5, [2]⟩] ∧ ¬ q.TicksExactly 100 100 ∧
      q.tick 100 (2 * lastInstant) = .error .outOfReach := by
  intro calls
  refine ⟨_, _, _, rfl, by decide, rfl, by decide, by decide, fun h => ?_, by decide⟩
  exact absurd h.datagrams (by decide)

end SendQueue

end DatagramTunnel.Flight
