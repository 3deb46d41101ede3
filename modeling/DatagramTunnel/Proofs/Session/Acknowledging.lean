import DatagramTunnel.Proofs.Session.History
import DatagramTunnel.Proofs.Session.Receiving

/-!
# What is acknowledged

An endpoint acknowledges the data frame that has just arrived, and nothing else: whatever other
calls put into the outbox is no acknowledgement (`arrives_of_acknowledged`).  Whether it
acknowledges is for the window to say, and the window knows its past only by the cursor.  So what
is acknowledged has been taken in as far as the window is right about its past: up to half the
circle ahead of what has been read.  Beyond that the acknowledgement is a false one.
-/

namespace DatagramTunnel.Session

open Flight Packet Wire

/-! ## Acknowledgements among datagrams -/

/-- The number that a datagram acknowledges, if it is an acknowledgement. -/
def acknowledged? (datagram : Bytes) : Option UInt32 :=
  match Frame.decode datagram with
  | .ok (.ack seq) => some seq
  | _ => none

/-- The numbers that datagrams acknowledge, one after the other. -/
def acknowledgements (datagrams : List Bytes) : List UInt32 := datagrams.filterMap acknowledged?

@[simp] theorem acknowledgements_append (first second : List Bytes) :
    acknowledgements (first ++ second) = acknowledgements first ++ acknowledgements second :=
  List.filterMap_append

@[simp] theorem acknowledged?_ack (seq : UInt32) :
    acknowledged? (Frame.ack seq).encode = some seq := by
  have hread : Frame.decode (Frame.ack seq).encode = .ok (.ack seq) :=
    Frame.decode_encode_of_fits trivial
  simp [acknowledged?, hread]

theorem acknowledged?_eq_none {frame : Frame} (h : ∀ seq, frame ≠ .ack seq) :
    acknowledged? frame.encode = none := by
  unfold acknowledged?
  split
  · rename_i seq hread
    exact absurd hread (Endpoint.decode_ne_ack h seq)
  · rfl

theorem acknowledgements_eq_nil {datagrams : List Bytes}
    (h : ∀ datagram ∈ datagrams, ∃ f, datagram = (Frame.data f).encode) :
    acknowledgements datagrams = [] := by
  refine List.filterMap_eq_nil_iff.2 fun datagram hdatagram => ?_
  obtain ⟨f, rfl⟩ := h datagram hdatagram
  exact acknowledged?_eq_none (by simp)

/-- The queue holds data frames only. -/
def HoldsData (q : SendQueue) : Prop := ∀ w ∈ q.outstanding, ∃ f, w.datagram = (Frame.data f).encode

theorem HoldsData.clear (q : SendQueue) : HoldsData q.clear := by
  intro w hw
  cases hw

namespace Endpoint

variable {α σ : Type} {e e' : Endpoint α σ}

/-! ## What is put into the outbox -/

/-- A move acknowledges nothing. -/
theorem Move.acknowledgements {marks : List Mark} (h : Move e marks e') :
    (acknowledgements e'.outbox).Sublist (acknowledgements e.outbox) := by
  induction h with
  | @adjust e₁ e₂ same _ =>
    have hsame : e₂.outbox = e₁.outbox := congrArg Core.outbox same
    exact hsame ▸ .refl _
  | @post e₁ frame _ control =>
    have hnone : acknowledged? frame.encode = none := by
      apply acknowledged?_eq_none
      rintro seq rfl
      exact control
    simp [Endpoint.post, Session.acknowledgements, hnone]
  | finish _ _ => exact List.nil_sublist _
  | trans _ _ ih₁ ih₂ => exact ih₂.trans ih₁
  | _ => exact .refl _

theorem Move.holdsData {marks : List Mark} (h : Move e marks e') (hdata : HoldsData e.queue) :
    HoldsData e'.queue := by
  rcases h.data_or_dropped with ⟨hqueue, -⟩ | ⟨hqueue, -⟩
  · rw [hqueue]
    exact hdata
  · rw [hqueue]
    exact .clear e.queue

/-- A new endpoint queues nothing. -/
theorem New.holdsData {settings : Settings} {token : Bytes} {transform : Transform σ}
    (h : e.New settings token transform) : HoldsData e.queue := by
  rw [h.queue_eq]
  exact .clear { window := settings.maxInFlight }

/-- The send queue acknowledges nothing. -/
theorem acknowledgements_pumped (hdata : HoldsData e.queue) (now timeout : Nat) :
    HoldsData (e.pumped now timeout).queue ∧
      acknowledgements (e.pumped now timeout).outbox = acknowledgements e.outbox := by
  obtain ⟨hkept, hsent⟩ := e.queue.mem_outstanding_ticked now timeout
  have hnone : acknowledgements (e.queue.ticked now timeout).1.datagrams = [] := by
    refine acknowledgements_eq_nil fun datagram hdatagram => ?_
    obtain ⟨w, hw, rfl⟩ := hsent datagram hdatagram
    exact hdata w hw
  refine ⟨fun w hw => hdata w (hkept w hw), ?_⟩
  simp [pumped, count, hnone]

theorem holdsData_enqueuePacket (hdata : HoldsData e.queue) (wrapped : Bytes) :
    HoldsData (e.enqueuePacket wrapped).queue := by
  intro w hw
  rcases List.mem_append.1 ((SendQueue.outstanding_enqueueAll e.queue _) ▸ hw) with hold | hnew
  · exact hdata w hold
  · obtain ⟨f, -, rfl⟩ := List.mem_map.1 hnew
    exact ⟨f, rfl⟩

/-- An arriving data frame is the only one to be acknowledged. -/
theorem acknowledgements_onData (e : Endpoint α σ) (f : Fragment) :
    (acknowledgements (e.onData f).outbox).Sublist
      (acknowledgements e.outbox ++
        if (e.inlet.window.classify f.seq).acknowledged then [f.seq] else []) := by
  apply onData_induct_move (P := fun e' => (acknowledgements e'.outbox).Sublist
    (acknowledgements e.outbox ++
      if (e.inlet.window.classify f.seq).acknowledged then [f.seq] else []))
  · exact fun _ _ h => h
  · exact fun h hmove => hmove.acknowledgements.trans h
  · rw [offered_outbox, acknowledgements_append]
    split <;> simp [acknowledgements]

theorem holdsData_onData (hdata : HoldsData e.queue) (f : Fragment) :
    HoldsData (e.onData f).queue := by
  apply onData_induct_move (P := fun e' => HoldsData e'.queue)
  · exact fun _ _ h => h
  · exact fun h hmove => hmove.holdsData h
  · rw [offered_queue]
    exact hdata

variable [Add α] [Sub α] [Mul α] [Seconds α] {op : Operation} {answer : Answer}

/-- No call acknowledges anything but the data frame that it brings. -/
theorem Outcome.acknowledgements (h : Outcome e op answer e') (hdata : HoldsData e.queue) :
    HoldsData e'.queue ∧ (e.arrives? op = none →
      (acknowledgements e'.outbox).Sublist (acknowledgements e.outbox)) := by
  cases h with
  | aside move _ _ _ _ _ _ _ => exact ⟨move.holdsData hdata, fun _ => move.acknowledgements⟩
  | @accept _ wrapped secret _ _ _ _ _ _ pump =>
    obtain ⟨timeout, -, rfl⟩ := pump_eq_ok pump
    have hqueued : HoldsData ({ e with secret := secret }.enqueuePacket wrapped).queue :=
      holdsData_enqueuePacket (e := { e with secret := secret }) hdata wrapped
    obtain ⟨hkept, hsame⟩ := acknowledgements_pumped hqueued _ timeout
    exact ⟨hkept, fun _ => hsame ▸ .refl _⟩
  | pulse _ move pump =>
    obtain ⟨timeout, -, rfl⟩ := pump_eq_ok pump
    obtain ⟨hkept, hsame⟩ := acknowledgements_pumped (move.holdsData hdata) _ timeout
    exact ⟨hkept, fun _ => hsame ▸ move.acknowledgements⟩
  | @retire _ _ sample _ queue _ _ _ known pump =>
    obtain ⟨timeout, -, rfl⟩ := pump_eq_ok pump
    have hretired : HoldsData (e.retire sample queue).queue :=
      fun w hw => hdata w (SendQueue.mem_outstanding_acknowledge known hw)
    obtain ⟨hkept, hsame⟩ := acknowledgements_pumped hretired _ timeout
    exact ⟨hkept, fun _ => hsame ▸ .refl _⟩
  | piece up frame =>
    exact ⟨holdsData_onData hdata _, fun hnone => absurd hnone (arrives?_ne_none up frame _)⟩
  | @transmit datagram rest outbox =>
    refine ⟨hdata, fun _ => ?_⟩
    rw [outbox]
    exact (List.sublist_cons_self datagram rest).filterMap _
  | report _ => exact ⟨hdata, fun _ => .refl _⟩

theorem holdsData_run {settings : Settings} {token : Bytes} {transform : Transform σ} {secret : σ}
    {nonces : Nat → Nonce} {e₀ : Endpoint α σ} {ops : List Operation} {answers : List Answer}
    (hcreate : create settings token transform secret nonces = .ok e₀)
    (hrun : e₀.performAll ops = .ok (answers, e)) : HoldsData e.queue := by
  exact performAll_induct_past (P := fun _ _ e => HoldsData e.queue)
    (fun _ ih hperform => ((perform_outcome hperform).acknowledgements ih).1)
    (create_new hcreate).holdsData hrun

/-- A call after which the outbox holds one more acknowledgement of a number has brought a data
frame of this number, and the window wanted it acknowledged. -/
theorem arrives_of_acknowledged {seq : UInt32} (hdata : HoldsData e.queue)
    (hperform : e.perform op = .ok (answer, e'))
    (hmore : (acknowledgements e.outbox).count seq < (acknowledgements e'.outbox).count seq) :
    ∃ f, e.arrives? op = some f ∧ f.seq = seq ∧
      (e.inlet.window.classify f.seq).acknowledged = true := by
  cases harrives : e.arrives? op with
  | none =>
    have hsublist := ((perform_outcome hperform).acknowledgements hdata).2 harrives
    exact absurd hmore (Nat.not_lt.2 (hsublist.count_le seq))
  | some f =>
    obtain ⟨-, rfl⟩ := perform_of_arrives harrives hperform
    have hcount := (acknowledgements_onData e f).count_le seq
    rw [List.count_append] at hcount
    have hpos : 0 < (if (e.inlet.window.classify f.seq).acknowledged then [f.seq] else []).count
        seq := by omega
    split at hpos
    · rename_i hack
      have hmem := List.count_pos_iff.1 hpos
      exact ⟨f, rfl, (List.mem_singleton.1 hmem).symm, hack⟩
    · simp at hpos

/-- Whenever a call leaves one more acknowledgement of a number in the outbox, a frame of this
number has been taken in, by this call or an earlier one, if the number is less than half the circle
ahead of what has been read, and only then. Under the same condition, and at any moment, a number
that the window calls a duplicate has been read or is held. -/
theorem acknowledges_admitted_iff {settings : Settings} {token : Bytes} {transform : Transform σ}
    {secret : σ} {nonces : Nat → Nonce} {e₀ : Endpoint α σ} {ops : List Operation}
    {answers : List Answer} (hcreate : create settings token transform secret nonces = .ok e₀)
    (hrun : e₀.performAll ops = .ok (answers, e)) (hperform : e.perform op = .ok (answer, e')) :
    (∀ seq, (acknowledgements e.outbox).count seq < (acknowledgements e'.outbox).count seq →
      ((∃ f ∈ e₀.history admits (ops ++ [op]), f.seq = seq) ↔
        seq.toNat < (e₀.history reads ops).length + 2 ^ 31)) ∧
      ∀ f, (e.inlet.window.insert f).1 = .duplicate →
        ((∃ g ∈ e₀.history reads ops ++ e.inlet.window.held, g.seq = f.seq) ↔
          f.seq.toNat < (e₀.history reads ops).length + 2 ^ 31) := by
  have hrecorded := recorded_run hcreate hrun
  constructor
  · intro seq hmore
    obtain ⟨f, harrives, rfl, hack⟩ :=
      arrives_of_acknowledged (holdsData_run hcreate hrun) hperform hmore
    have hiff := hrecorded.acknowledged_iff hack
    rw [UInt32.sub_zero] at hiff
    rw [history_concat admits hrun, admits_of_arrives harrives]
    exact hiff
  · intro f hdup
    rw [ReorderWindow.insert_fst] at hdup
    have hiff := hrecorded.duplicate_iff hdup
    rw [UInt32.sub_zero] at hiff
    exact hiff

/-- A frame that has been read and comes again is acknowledged again. -/
theorem acknowledges_admitted_iff_again : ∃ (nonces : Nat → Nonce) (e₀ e e' : Endpoint Rat Unit)
    (ops : List Operation) (op : Operation) (answers : List Answer) (answer : Answer),
      create {} [7] .plain () nonces = .ok e₀ ∧ e₀.performAll ops = .ok (answers, e) ∧
        e.perform op = .ok (answer, e') ∧
        (acknowledgements e.outbox).count 1 < (acknowledgements e'.outbox).count 1 ∧
        ∃ f ∈ e₀.history admits (ops ++ [op]), f.seq = 1 := by
  let piece (seq : UInt32) : Operation := .receive (Frame.data ⟨seq, .only, [5]⟩).encode 0
  obtain ⟨nonces, e₀, answers, e, hcreate, hrun, hnext⟩ := exists_of_trial
    (p := fun r => (r.2.perform (piece 1)).toOption.any fun result =>
      (acknowledgements r.2.outbox).count 1 < (acknowledgements result.2.outbox).count 1)
    (show (trial {} [7]
      [.connect 0, .receive (Frame.hello [7]).encode 0, piece 1, piece 0]).any _ = true by
      decide +kernel)
  obtain ⟨⟨answer, e'⟩, hperform, hmore⟩ := exists_of_any_toOption hnext
  rw [decide_eq_true_eq] at hmore
  refine ⟨nonces, e₀, e, e', _, piece 1, answers, answer, hcreate, hrun, hperform, hmore, ?_⟩
  exact ((acknowledges_admitted_iff hcreate hrun hperform).1 1 hmore).2 (by simp)

/-- A new connection acknowledges the frame with the last of all numbers, though it has taken in
none. -/
theorem acknowledges_unadmitted : ∃ (nonces : Nat → Nonce) (e₀ e e' : Endpoint Rat Unit)
    (answers : List Answer) (answer : Answer),
      create {} [7] .plain () nonces = .ok e₀ ∧
        e₀.performAll [.connect 0, .receive (Frame.hello [7]).encode 0] = .ok (answers, e) ∧
        e.perform (.receive (Frame.data ⟨4294967295, .only, [5]⟩).encode 0) = .ok (answer, e') ∧
        acknowledgements e.outbox = [] ∧ acknowledgements e'.outbox = [4294967295] ∧
        e₀.history admits [.connect 0, .receive (Frame.hello [7]).encode 0,
          .receive (Frame.data ⟨4294967295, .only, [5]⟩).encode 0] = [] := by
  let last : Operation := .receive (Frame.data ⟨4294967295, .only, [5]⟩).encode 0
  obtain ⟨e₀, hcreate, hrest⟩ := exists_of_any_toOption
    (show (blank {} [7]).toOption.any (fun e₀ =>
      (e₀.history admits [.connect 0, .receive (Frame.hello [7]).encode 0, last] == []) &&
        (e₀.performAll [.connect 0, .receive (Frame.hello [7]).encode 0]).toOption.any fun r =>
          (r.2.perform last).toOption.any fun r' => (acknowledgements r.2.outbox == []) &&
            (acknowledgements r'.2.outbox == [4294967295])) = true by decide +kernel)
  rw [Bool.and_eq_true, beq_iff_eq] at hrest
  obtain ⟨hnone, hrest⟩ := hrest
  obtain ⟨⟨answers, e⟩, hrun, hrest⟩ := exists_of_any_toOption hrest
  obtain ⟨⟨answer, e'⟩, hperform, hrest⟩ := exists_of_any_toOption hrest
  rw [Bool.and_eq_true, beq_iff_eq, beq_iff_eq] at hrest
  exact ⟨_, e₀, e, e', answers, answer, hcreate, hrun, hperform, hrest.1, hrest.2, hnone⟩

end Endpoint

end DatagramTunnel.Session
