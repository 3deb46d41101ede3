import DatagramTunnel.Proofs.Flight.Dispatch

/-!
# What becomes of the frames that are queued

A `Manifest` is kept beside a send queue by someone who sees only the calls and their answers.  It
lists the frames in the order in which they were queued, each with its `Fate`: a tick that admits
some number of frames has sent as many of those that waited longest, and an acknowledgement that was
known has ended the passage of the frame in flight under its number.

As long as the queue is not cleared, an orderly run leaves in it what the manifest says,
`neither_lost_nor_doubled`: the frames that wait and those in flight are read off the manifest in
its order, with the instants of their first transmissions, and the first transmissions are the
frames in the order in which they were queued.
-/

namespace DatagramTunnel.Flight

/-- What has become of a frame that was queued. -/
inductive Fate where
  | waiting
  | inFlight (firstSentAt : Nat)
  | acknowledged
  deriving DecidableEq, Repr

/-- A frame that was queued, with its fate. -/
structure Passage where
  frame : Waiting
  fate : Fate
  deriving DecidableEq, Repr

namespace Passage

/-- The frame, if it waits. -/
def waiting? (p : Passage) : Option Waiting :=
  match p.fate with
  | .waiting => some p.frame
  | .inFlight _ | .acknowledged => none

/-- The frame and the instant of its first transmission, if it is in flight. -/
def inFlight? (p : Passage) : Option (Waiting × Nat) :=
  match p.fate with
  | .inFlight firstSentAt => some (p.frame, firstSentAt)
  | .waiting | .acknowledged => none

/-- The acknowledgement of a number ends the passage of the frame in flight under it. -/
def retire (seq : UInt32) (p : Passage) : Passage :=
  match p.fate with
  | .inFlight _ => if p.frame.seq = seq then { p with fate := .acknowledged } else p
  | .waiting | .acknowledged => p

/-- The first `count` frames that wait are sent for the first time at `now`. -/
def depart (now : Nat) : Nat → List Passage → List Passage
  | 0, passages => passages
  | _ + 1, [] => []
  | count + 1, p :: rest =>
    if p.fate = .waiting then { p with fate := .inFlight now } :: depart now count rest
    else p :: depart now (count + 1) rest

/-- A frame as it is when it is queued. -/
def queued (w : Waiting) : Passage := ⟨w, .waiting⟩

/-- A frame as it is once it was sent at `now`. -/
def sent (now : Nat) (w : Waiting) : Passage := ⟨w, .inFlight now⟩

@[simp] theorem retire_frame (seq : UInt32) (p : Passage) : (p.retire seq).frame = p.frame := by
  rcases p with ⟨frame, _ | firstSentAt | _⟩
  · rfl
  · unfold retire
    dsimp only
    split <;> rfl
  · rfl

theorem retire_fate_ne (seq : UInt32) {p : Passage} (h : p.fate ≠ .waiting) :
    (p.retire seq).fate ≠ .waiting := by
  rcases p with ⟨frame, _ | firstSentAt | _⟩
  · exact absurd rfl h
  · unfold retire
    dsimp only
    split <;> simp
  · exact h

theorem waiting?_eq_none {p : Passage} (h : p.fate ≠ .waiting) : p.waiting? = none := by
  rcases p with ⟨frame, _ | firstSentAt | _⟩
  · exact absurd rfl h
  · rfl
  · rfl

/-- The acknowledgement of a number takes what is in flight under it out of flight. -/
theorem inFlight?_retire (seq : UInt32) (p : Passage) :
    (p.retire seq).inFlight? = p.inFlight?.filter fun entry => !(entry.1.seq == seq) := by
  rcases p with ⟨frame, _ | firstSentAt | _⟩
  · rfl
  · by_cases hseq : frame.seq = seq
    · simp [retire, inFlight?, Option.filter, hseq]
    · simp [retire, inFlight?, Option.filter, hseq]
  · rfl

/-! ## Departures -/

theorem map_frame_depart (now count : Nat) (passages : List Passage) :
    (depart now count passages).map frame = passages.map frame := by
  induction passages generalizing count with
  | nil => cases count <;> rfl
  | cons p rest ih =>
    cases count with
    | zero => rfl
    | succ count =>
      rw [depart]
      split
      · rw [List.map_cons, List.map_cons, ih]
      · rw [List.map_cons, List.map_cons, ih]

/-- Frames that have left already are passed over. -/
theorem depart_append {past : List Passage} (h : ∀ p ∈ past, p.fate ≠ .waiting) (now count : Nat)
    (passages : List Passage) :
    depart now count (past ++ passages) = past ++ depart now count passages := by
  induction past with
  | nil => rfl
  | cons p rest ih =>
    cases count with
    | zero => simp only [depart]
    | succ count =>
      rw [List.cons_append, depart, if_neg (h p List.mem_cons_self),
        ih fun other hother => h other (List.mem_cons_of_mem p hother), List.cons_append]

/-- The frames that have waited longest leave first. -/
theorem depart_queued (now count : Nat) (frames : List Waiting) :
    depart now count (frames.map queued) =
      (frames.take count).map (sent now) ++ (frames.drop count).map queued := by
  induction frames generalizing count with
  | nil => cases count <;> simp [depart]
  | cons w rest ih =>
    cases count with
    | zero => rfl
    | succ count =>
      rw [List.map_cons, depart, if_pos (show (queued w).fate = .waiting from rfl), ih,
        List.take_succ_cons, List.map_cons, List.drop_succ_cons, List.cons_append]
      rfl

end Passage

/-! ## Keeping the manifest -/

/-- What the calls on a queue and their answers tell. -/
structure Manifest where
  /-- The frames in the order in which they were queued. -/
  passages : List Passage := []
  /-- The datagrams of the first transmissions, in the order in which they were made. -/
  firsts : List Bytes := []
  deriving DecidableEq, Repr

/-- The frame that a call queues. -/
def SendQueue.Call.frame? : SendQueue.Call → Option Waiting
  | .enqueue seq datagram => some ⟨seq, datagram⟩
  | .tick _ _ | .acknowledge _ _ | .clear => none

namespace Manifest

open SendQueue (Call)

/-- The manifest after a call on the queue `q` that has a result: a frame is entered when it is
queued, leaves when a tick admits it, and is struck off when its acknowledgement is known. It is not
meant for a queue that is cleared. -/
def record (m : Manifest) (q : SendQueue) : Call → Manifest
  | .enqueue seq datagram =>
    { m with passages := m.passages ++ [Passage.queued ⟨seq, datagram⟩] }
  | .tick now timeout =>
    let out := (q.ticked now timeout).1
    { passages := Passage.depart now out.admitted m.passages
      firsts := m.firsts ++ out.datagrams.drop out.retransmitted }
  | .acknowledge seq now =>
    if (q.acknowledge? seq now).isSome then
      { m with passages := m.passages.map (Passage.retire seq) }
    else m
  | .clear => m

/-- The manifest after calls one after the other, the first on the queue `q`. -/
def recordAll (m : Manifest) (q : SendQueue) : List Call → Manifest
  | [] => m
  | c :: rest => (m.record q c).recordAll (q.after c) rest

theorem map_frame_record (m : Manifest) (q : SendQueue) (c : Call) :
    (m.record q c).passages.map Passage.frame =
      m.passages.map Passage.frame ++ c.frame?.toList := by
  cases c with
  | enqueue seq datagram => exact List.map_append
  | tick now timeout =>
    exact (Passage.map_frame_depart now _ m.passages).trans (List.append_nil _).symm
  | acknowledge seq now =>
    rw [record]
    split
    · have hsame : Passage.frame ∘ Passage.retire seq = Passage.frame :=
        funext (Passage.retire_frame seq)
      show (m.passages.map (Passage.retire seq)).map Passage.frame = _
      rw [List.map_map, hsame]
      exact (List.append_nil _).symm
    · exact (List.append_nil _).symm
  | clear => exact (List.append_nil _).symm

/-- The manifest lists the frames that were queued. -/
theorem map_frame_recordAll (m : Manifest) (q : SendQueue) (calls : List Call) :
    (m.recordAll q calls).passages.map Passage.frame =
      m.passages.map Passage.frame ++ calls.filterMap Call.frame? := by
  induction calls generalizing m q with
  | nil => exact (List.append_nil _).symm
  | cons c rest ih =>
    rw [recordAll, ih, map_frame_record, List.append_assoc]
    cases hc : c.frame? with
    | none => rw [List.filterMap_cons_none hc]; rfl
    | some w => rw [List.filterMap_cons_some hc]; rfl

/-! ## The manifest and the queue -/

/-- The queue holds what the manifest says.  Those of `past` have left, and the others wait. -/
structure Describes (m : Manifest) (q : SendQueue) (past : List Passage) : Prop where
  passages : m.passages = past ++ q.waiting.map Passage.queued
  left : ∀ p ∈ past, p.fate ≠ .waiting
  firsts : m.firsts = past.map fun p => p.frame.datagram
  inFlight : past.filterMap Passage.inFlight? = q.inFlight.map fun f => (f.frame, f.firstSentAt)

variable {m : Manifest} {q : SendQueue} {past : List Passage}

/-- The frames that wait are those whose fate is to wait. -/
theorem Describes.filterMap_waiting? (h : m.Describes q past) :
    m.passages.filterMap Passage.waiting? = q.waiting := by
  have hleft : past.filterMap Passage.waiting? = [] :=
    List.filterMap_eq_nil_iff.2 fun p hp => Passage.waiting?_eq_none (h.left p hp)
  have hqueued : Passage.waiting? ∘ Passage.queued = some := rfl
  rw [h.passages, List.filterMap_append, hleft, List.filterMap_map, hqueued, List.filterMap_some,
    List.nil_append]

/-- The frames in flight are those whose fate is to be in flight. -/
theorem Describes.filterMap_inFlight? (h : m.Describes q past) :
    m.passages.filterMap Passage.inFlight? = q.inFlight.map fun f => (f.frame, f.firstSentAt) := by
  have hqueued : Passage.inFlight? ∘ Passage.queued = fun _ => none := rfl
  rw [h.passages, List.filterMap_append, h.inFlight, List.filterMap_map, hqueued,
    List.filterMap_none, List.append_nil]

/-- The frames before those that wait have been sent for the first time, in their order. -/
theorem Describes.exists_sent (h : m.Describes q past) :
    ∃ sent, m.passages.map Passage.frame = sent ++ q.waiting ∧
      m.firsts = sent.map Waiting.datagram := by
  have hqueued : Passage.frame ∘ Passage.queued = id := rfl
  refine ⟨past.map Passage.frame, ?_, ?_⟩
  · rw [h.passages, List.map_append, List.map_map, hqueued, List.map_id]
  · rw [h.firsts, List.map_map]
    rfl

/-! ## The manifest follows the queue -/

theorem Describes.enqueue (h : m.Describes q past) (seq : UInt32) (datagram : Bytes) :
    (m.record q (.enqueue seq datagram)).Describes (q.enqueue seq datagram) past where
  passages := by
    show m.passages ++ _ = past ++ (q.waiting ++ _).map Passage.queued
    rw [h.passages, List.map_append, List.append_assoc]
    rfl
  left := h.left
  firsts := h.firsts
  inFlight := h.inFlight

/-- What a tick admits leaves at its instant; the frames that it sends again have left before. -/
theorem Describes.ticked (h : m.Describes q past) {now timeout : Nat}
    (hexact : q.TicksExactly now timeout) :
    (m.record q (.tick now timeout)).Describes (q.ticked now timeout).2
      (past ++ (q.waiting.take q.room).map (Passage.sent now)) where
  passages := by
    show Passage.depart now _ m.passages = _
    rw [h.passages, Passage.depart_append h.left, Passage.depart_queued, hexact.waiting,
      hexact.admitted, ← List.take_eq_take_min, ← List.drop_eq_drop_min, List.append_assoc]
    rfl
  left p hp := by
    rcases List.mem_append.1 hp with hp | hp
    · exact h.left p hp
    · obtain ⟨w, -, rfl⟩ := List.mem_map.1 hp
      exact Fate.noConfusion
  firsts := by
    show m.firsts ++
      (q.ticked now timeout).1.datagrams.drop (q.ticked now timeout).1.retransmitted = _
    rw [h.firsts, hexact.datagrams, hexact.retransmitted, SendQueue.dispatch, List.map_append,
      List.drop_left' (by rw [List.length_map, List.length_map]), List.map_append, List.map_map]
    rfl
  inFlight := by
    have hkept : (fun f : Sent => (f.frame, f.firstSentAt)) ∘ q.afterTick now timeout =
        fun f => (f.frame, f.firstSentAt) := funext fun f => by simp
    have hfirst : Passage.inFlight? ∘ Passage.sent now = some ∘ fun w => (w, now) := rfl
    rw [hexact.inFlight, List.filterMap_append, h.inFlight, List.map_append, List.map_map, hkept,
      SendQueue.map_launch, List.filterMap_map, hfirst, List.filterMap_eq_map]

/-- An acknowledgement that is known ends the passage of one frame. -/
theorem Describes.acknowledge (h : m.Describes q past) {seq : UInt32} {now sample : Nat}
    {q' : SendQueue} (hack : q.acknowledge? seq now = some (sample, q')) :
    (m.record q (.acknowledge seq now)).Describes q' (past.map (Passage.retire seq)) := by
  have hrecord : m.record q (.acknowledge seq now) =
      { m with passages := m.passages.map (Passage.retire seq) } := by
    rw [record, hack]
    rfl
  obtain ⟨f, -, hpair⟩ := Option.map_eq_some_iff.1 hack
  obtain ⟨-, rfl⟩ := Prod.mk.inj hpair
  rw [hrecord]
  refine ⟨?_, ?_, ?_, ?_⟩
  · show m.passages.map (Passage.retire seq) = _
    rw [h.passages, List.map_append, List.map_map]
    rfl
  · intro p' hp'
    obtain ⟨p, hp, rfl⟩ := List.mem_map.1 hp'
    exact Passage.retire_fate_ne seq (h.left p hp)
  · have hsame : (fun p : Passage => p.frame.datagram) ∘ Passage.retire seq =
        fun p => p.frame.datagram := funext fun p => by simp
    show m.firsts = _
    rw [h.firsts, List.map_map, hsame]
  · have hretire : Passage.inFlight? ∘ Passage.retire seq = fun p : Passage =>
        p.inFlight?.filter fun entry => !(entry.1.seq == seq) :=
      funext (Passage.inFlight?_retire seq)
    rw [List.filterMap_map, hretire, ← List.filter_filterMap, h.inFlight, List.filter_map]
    rfl

theorem Describes.call (h : m.Describes q past) (hq : q.Unambiguous) (htracked : q.Tracked [])
    {c : Call} (hkept : c ≠ .clear) {q' : SendQueue} (hcall : q.call c = .ok q') :
    ∃ past', (m.record q c).Describes (q.after c) past' := by
  cases c with
  | enqueue seq datagram => exact ⟨past, h.enqueue seq datagram⟩
  | tick now timeout =>
    exact ⟨_, h.ticked (hq.ticksExactly htracked (SendQueue.inReach_of_call hcall))⟩
  | acknowledge seq now =>
    rw [SendQueue.after]
    cases hack : q.acknowledge? seq now with
    | none =>
      rw [record, hack]
      exact ⟨past, h⟩
    | some result => exact ⟨_, h.acknowledge hack⟩
  | clear => exact absurd rfl hkept

theorem Describes.callAll (h : m.Describes q past) (hq : q.Regular) {calls : List Call}
    (horderly : q.Orderly calls) (hkept : .clear ∉ calls) {q' : SendQueue}
    (hrun : q.callAll calls = .ok q') :
    ∃ past', (m.recordAll q calls).Describes q' past' := by
  induction calls generalizing m q past with
  | nil => exact ⟨past, Except.ok.inj hrun ▸ h⟩
  | cons c rest ih =>
    rw [List.mem_cons, not_or] at hkept
    obtain ⟨q₁, hcall, hrest⟩ := SendQueue.exists_call_of_callAll hrun
    obtain ⟨past', hnext⟩ := h.call hq.unambiguous hq.scheduled.tracked (Ne.symm hkept.1) hcall
    have hnext_eq := SendQueue.eq_after hcall
    exact ih hnext (hq.after horderly.1) (hnext_eq ▸ horderly.next hcall) hkept.2 (hnext_eq ▸ hrest)

end Manifest

namespace SendQueue

/-! ## Acknowledgements -/

/-- An acknowledgement takes its frame out of flight and the frame's latest transmission off the
schedule, and nothing else. -/
theorem Tracked.acknowledge?_eq {q : SendQueue} (h : q.Tracked []) {f : Sent} (hf : f ∈ q.inFlight)
    (now : Nat) :
    q.acknowledge? f.seq now = some (elapsed now f.firstSentAt,
      { q with
        inFlight := q.inFlight.filter (· ≠ f)
        schedule := q.schedule.filter (· ≠ f.entry) }) := by
  have hflight : q.inFlight.filter (fun g => !(g.seq == f.seq)) = q.inFlight.filter (· ≠ f) := by
    refine List.filter_congr fun g hg => ?_
    by_cases hseq : g.seq = f.seq
    · simp [seq_injective h.distinct hg hf hseq]
    · have hne : g ≠ f := fun heq => hseq (congrArg Sent.seq heq)
      simp [hseq, hne]
  have hschedule : q.schedule.erase f.lastSentAt f.order = q.schedule.filter (· ≠ f.entry) := by
    refine List.filter_congr fun x hx => ?_
    have hiff : x.hasKey f.lastSentAt f.order = true ↔ x = f.entry := by
      rw [Entry.hasKey, Bool.and_eq_true, beq_iff_eq, beq_iff_eq]
      refine ⟨fun hkey => ?_, fun heq => heq ▸ ⟨rfl, rfl⟩⟩
      exact h.unique x hx f.entry (h.entered f hf List.not_mem_nil) hkey.2
    simp [← hiff]
  rw [acknowledge?, find?_eq_some h.distinct hf, Option.map_some, hflight, hschedule]

/-- The frames that were queued are where the manifest says, and nowhere else: those that wait and
those in flight are read off it, and the others have been acknowledged.  First transmissions are
made in the order in which the frames were queued, one for each, and a known acknowledgement
concerns one frame. -/
theorem neither_lost_nor_doubled {window : Nat} {calls : List Call} {q : SendQueue}
    (hrun : callAll { window } calls = .ok q) (horderly : Orderly { window } calls)
    (hkept : .clear ∉ calls) :
    let m := Manifest.recordAll {} { window } calls
    m.passages.map Passage.frame = calls.filterMap Call.frame? ∧
    m.passages.filterMap Passage.waiting? = q.waiting ∧
    m.passages.filterMap Passage.inFlight? = q.inFlight.map (fun f => (f.frame, f.firstSentAt)) ∧
    (∃ sent, calls.filterMap Call.frame? = sent ++ q.waiting ∧
      m.firsts = sent.map Waiting.datagram) ∧
    (∀ seq now, (q.acknowledge? seq now).isSome = q.isInFlight seq) ∧
    (∀ f ∈ q.inFlight, ∀ now,
      q.acknowledge? f.seq now = some (elapsed now f.firstSentAt,
        { q with
          inFlight := q.inFlight.filter (· ≠ f)
          schedule := q.schedule.filter (· ≠ f.entry) }) ∧
      ∀ g ∈ q.inFlight, g ≠ f → g.entry ∈ q.schedule.filter (· ≠ f.entry)) ∧
    (∀ seq now, q.isInFlight seq = false →
      q.acknowledge? seq now = none ∧ q.call (.acknowledge seq now) = .ok q) := by
  intro m
  have hq : q.Regular := (Regular.new window).callAll horderly hrun
  have htracked : q.Tracked [] := hq.scheduled.tracked
  have hframes : m.passages.map Passage.frame = calls.filterMap Call.frame? :=
    Manifest.map_frame_recordAll {} { window } calls
  have hstart : Manifest.Describes {} { window } [] :=
    ⟨rfl, fun _ hp => absurd hp List.not_mem_nil, rfl, rfl⟩
  obtain ⟨past, hdescribes⟩ := hstart.callAll (Regular.new window) horderly hkept hrun
  have hsent := hdescribes.exists_sent
  rw [hframes] at hsent
  refine ⟨hframes, hdescribes.filterMap_waiting?, hdescribes.filterMap_inFlight?, hsent, ?_, ?_, ?_⟩
  · intro seq now
    rw [acknowledge?, Option.isSome_map]
    rfl
  · intro f hf now
    refine ⟨htracked.acknowledge?_eq hf now, fun g hg hne => List.mem_filter.2 ⟨?_, ?_⟩⟩
    · exact htracked.entered g hg List.not_mem_nil
    · have hother : g.entry ≠ f.entry := fun heq =>
        hne (seq_injective htracked.distinct hg hf (congrArg Entry.seq heq))
      simpa using hother
  · intro seq now hmissing
    have hnone : q.acknowledge? seq now = none := acknowledge?_eq_none_iff.2 hmissing
    exact ⟨hnone, by rw [SendQueue.call, hnone]; rfl⟩

/-- A number comes back after its frame was acknowledged, and a number that was never queued is
acknowledged in between. -/
theorem neither_lost_nor_doubled_reused :
    let calls : List Call := [.enqueue 5 [1], .enqueue 6 [2], .tick 10 100, .acknowledge 9 12,
      .tick 200 100, .acknowledge 5 150, .enqueue 5 [3], .tick 140 100]
    (∃ q, callAll { window := 1 } calls = .ok q) ∧ Orderly { window := 1 } calls ∧
      .clear ∉ calls ∧
      (Manifest.recordAll {} { window := 1 } calls).passages.filterMap Passage.inFlight? =
        [(⟨6, [2]⟩, 140)] :=
  ⟨⟨_, rfl⟩, by decide, by decide,
    (neither_lost_nor_doubled rfl (by decide) (by decide)).2.2.1.trans (by decide)⟩

end SendQueue

end DatagramTunnel.Flight
