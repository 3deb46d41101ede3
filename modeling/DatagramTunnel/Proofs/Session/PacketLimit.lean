import DatagramTunnel.Proofs.Packet.Limits
import DatagramTunnel.Proofs.Session.History

/-!
# How long a packet may be that is handed over

In the clear the application gets what the assembler returns, so the limit on packets holds of what
is handed over as far as it holds of the assembler.  `Limited` is what holds throughout a run; it
keeps record of the frames that were read, because the one way past the limit is a frame that holds
a packet as a whole.
-/

namespace DatagramTunnel.Session.Endpoint

open Flight Packet Wire

variable {α σ : Type} {e e' : Endpoint α σ}

/-! ## Packets among the events -/

/-- A packet that is waiting for the application was waiting before, or is marked as handed over. -/
theorem Move.packet_mem {marks : List Mark} (h : Move e marks e') {content : Bytes}
    (hevent : .packet content ∈ e'.events) :
    .packet content ∈ e.events ∨ .packet content ∈ marks := by
  obtain ⟨news, hnews, hmarks⟩ := h.events
  rw [hnews] at hevent
  rcases List.mem_append.1 hevent with hold | hnew
  · exact .inl hold
  · right
    have hcontent : content ∈ news.filterMap Event.content? :=
      List.mem_filterMap.2 ⟨.packet content, hnew, rfl⟩
    rw [hmarks] at hcontent
    obtain ⟨mark, hmark, heq⟩ := List.mem_filterMap.1 hcontent
    cases mark with
    | fault => cases heq
    | packet other => exact Option.some.inj heq ▸ hmark

theorem foldl_violation_silent (errors : List AssemblyError) (e : Endpoint α σ) :
    ∃ m, Move e m (errors.foldl (fun e _ => e.violation) e) ∧
      ∀ content, Mark.packet content ∉ m := by
  induction errors generalizing e with
  | nil => exact ⟨[], .refl e, fun _ => List.not_mem_nil⟩
  | cons error errors ih =>
    obtain ⟨m, hmove, hsilent⟩ := ih e.violation
    exact ⟨_, (violation_move e).trans hmove, by simp [hsilent]⟩

/-- In the clear a packet is handed over only if the assembler has returned it. -/
theorem absorb_hands (hplain : e.transform = .plain) (out : Assembled) :
    ∃ m, Move e m (e.absorb out) ∧
      ∀ content, Mark.packet content ∈ m → out.packet = some content := by
  obtain ⟨m, hmove, hsilent⟩ := foldl_violation_silent out.errors e
  have hnone : ∀ content, Mark.packet content ∈ m → out.packet = some content :=
    fun content hmem => absurd hmem (hsilent content)
  unfold absorb
  dsimp only
  split
  · rename_i hup
    split
    · rename_i packet hpacket
      have hplain' := hmove.constants.2.2.trans hplain
      have hdeliver := deliver_move_of_plain (isTerminal_of_established hup) hplain' packet
      refine ⟨_, hmove.trans hdeliver, fun content hmem => ?_⟩
      rcases List.mem_append.1 hmem with hmem | hmem
      · exact absurd hmem (hsilent content)
      · rw [List.mem_singleton, Mark.packet.injEq] at hmem
        rw [hpacket, hmem]
    · exact ⟨m, hmove, hnone⟩
  · exact ⟨m, hmove, hnone⟩

/-! ## The invariant -/

/-- The packet is within the limit, or one of the frames read holds it as a whole. -/
def Admissible (limit : Nat) (read : List Fragment) (content : Bytes) : Prop :=
  content.length ≤ limit ∨ ∃ f ∈ read, f.position = .only ∧ f.payload = content

theorem Admissible.append {limit : Nat} {read : List Fragment} {content : Bytes}
    (h : Admissible limit read content) (more : List Fragment) :
    Admissible limit (read ++ more) content :=
  h.imp_right fun ⟨f, hf, hwhole⟩ => ⟨f, List.mem_append_left _ hf, hwhole⟩

/-- What holds of an endpoint in the clear that has read these frames and handed out these events.
-/
structure Limited (e : Endpoint α σ) (limit : Nat) (read : List Fragment) (taken : List Event) :
    Prop where
  plain : e.transform = .plain
  limit_eq : e.inlet.assembler.limit = limit
  slot : e.inlet.assembler.slot.Within limit
  packets : ∀ content, .packet content ∈ taken ++ e.events → Admissible limit read content

namespace Limited

variable {limit : Nat} {read : List Fragment} {taken : List Event}

/-- Only these parts of the endpoint matter. -/
theorem congr (h : e.Limited limit read taken) (htransform : e'.transform = e.transform)
    (hinlet : e'.inlet = e.inlet) (hevents : e'.events = e.events) :
    e'.Limited limit read taken := by
  refine ⟨htransform.trans h.plain, ?_, ?_, ?_⟩
  · rw [hinlet]
    exact h.limit_eq
  · rw [hinlet]
    exact h.slot
  · rw [hevents]
    exact h.packets

/-- A move keeps to the limit if what it hands over does. -/
theorem move (h : e.Limited limit read taken) {marks : List Mark} (hmove : Move e marks e')
    (hmarks : ∀ content, .packet content ∈ marks → Admissible limit read content) :
    e'.Limited limit read taken := by
  have hpackets : ∀ content, .packet content ∈ taken ++ e'.events →
      Admissible limit read content := by
    intro content hcontent
    rcases List.mem_append.1 hcontent with hold | hevent
    · exact h.packets content (List.mem_append_left _ hold)
    · rcases hmove.packet_mem hevent with hold | hmark
      · exact h.packets content (List.mem_append_right _ hold)
      · exact hmarks content hmark
  have hplain := hmove.constants.2.2.trans h.plain
  rcases hmove.data_or_dropped with ⟨-, hinlet⟩ | ⟨-, hinlet⟩
  · exact ⟨hplain, hinlet ▸ h.limit_eq, hinlet ▸ h.slot, hpackets⟩
  · refine ⟨hplain, ?_, ?_, hpackets⟩
    · rw [hinlet]
      exact h.limit_eq
    · rw [hinlet]
      trivial

/-- Reading a frame keeps to the limit. -/
theorem reading (h : e.Limited limit read taken) {f : Fragment} (window : ReorderWindow) :
    ((e.advanced f window).absorb (e.inlet.assembler.push f).1).Limited limit (read ++ [f])
      taken := by
  have hslot := h.slot
  rw [← h.limit_eq] at hslot
  obtain ⟨hnext, hreturned⟩ := Assembler.within_push hslot f
  rw [h.limit_eq] at hnext hreturned
  have hadvanced : (e.advanced f window).Limited limit (read ++ [f]) taken :=
    ⟨h.plain, (Assembler.push_limit _ f).trans h.limit_eq, hnext,
      fun content hcontent => (h.packets content hcontent).append [f]⟩
  obtain ⟨marks, hmove, hhands⟩ := absorb_hands hadvanced.plain (e.inlet.assembler.push f).1
  refine hadvanced.move hmove fun content hmark => ?_
  refine (hreturned content (hhands content hmark)).imp_right fun hwhole => ?_
  exact ⟨f, by simp, hwhole⟩

theorem start {settings : Settings} {token : Bytes} (h : e.New settings token .plain) :
    e.Limited settings.maxPacketSize [] [] := by
  refine ⟨h.transform_eq, ?_, ?_, ?_⟩
  · rw [h.inlet_eq]
  · rw [h.inlet_eq]
    trivial
  · rw [h.events_eq]
    simp

variable [Add α] [Sub α] [Mul α] [Seconds α] {op : Operation} {answer : Answer}

/-- A call that brings no data frame hands over no packet. -/
theorem other (h : e.Limited limit read taken) (hout : Outcome e op answer e')
    (hnone : e.arrives? op = none) : e'.Limited limit read (taken ++ answer.taken) := by
  cases hout with
  | aside move silent _ _ _ _ htaken _ =>
    rw [htaken, List.append_nil]
    exact h.move move fun content hmark => absurd hmark (silent content)
  | accept _ _ _ _ pump =>
    obtain ⟨timeout, -, rfl⟩ := pump_eq_ok pump
    rw [Answer.taken_done, List.append_nil]
    exact h.congr rfl rfl rfl
  | pulse _ move pump =>
    obtain ⟨timeout, -, rfl⟩ := pump_eq_ok pump
    have hmoved := h.move move fun _ hmark => absurd hmark List.not_mem_nil
    rw [Answer.taken_done, List.append_nil]
    exact hmoved.congr rfl rfl rfl
  | retire _ _ _ pump =>
    obtain ⟨timeout, -, rfl⟩ := pump_eq_ok pump
    rw [Answer.taken_done, List.append_nil]
    exact h.congr rfl rfl rfl
  | piece up frame => exact absurd hnone (arrives?_ne_none up frame _)
  | transmit _ =>
    rw [Answer.taken_datagram, List.append_nil]
    exact h.congr rfl rfl rfl
  | @report event rest events =>
    -- the event moves from those that wait to those that were taken
    refine ⟨h.plain, h.limit_eq, h.slot, fun content hcontent => h.packets content ?_⟩
    rw [events]
    simpa [Answer.taken] using hcontent

theorem step (h : e.Limited limit read taken) (hperform : e.perform op = .ok (answer, e')) :
    e'.Limited limit (read ++ e.reads op) (taken ++ answer.taken) := by
  cases harrives : e.arrives? op with
  | none =>
    rw [reads_of_none harrives, List.append_nil]
    exact h.other (perform_outcome hperform) harrives
  | some f =>
    obtain ⟨rfl, rfl⟩ := perform_of_arrives harrives hperform
    rw [Answer.taken_done, List.append_nil]
    refine onData_induct_past (P := fun read e => e.Limited limit read taken) harrives
      (fun ih _ _ => ih.reading _) ?_
    have hoffered := e.offered_eq f
    refine ⟨?_, ?_, ?_, ?_⟩
    · rw [hoffered]
      exact h.plain
    · rw [offered_assembler]
      exact h.limit_eq
    · rw [offered_assembler]
      exact h.slot
    · rw [hoffered]
      exact h.packets

end Limited

/-! ## Runs -/

variable [Add α] [Sub α] [Mul α] [Seconds α]

/-- In the clear, whatever arrives, no packet is handed over that is longer than the limit, unless
it came as a whole in one frame. An assembler that stands alone holds no more of an open packet than
was announced, never takes an announcement above the limit, and returns a longer packet exactly for
a frame that holds it as a whole. -/
theorem packets_within_limit {settings : Settings} {token : Bytes} {secret : σ}
    {nonces : Nat → Nonce} {e₀ : Endpoint α σ} {ops : List Operation} {answers : List Answer}
    (hcreate : create settings token .plain secret nonces = .ok e₀)
    (hrun : e₀.performAll ops = .ok (answers, e)) :
    (∀ content, .packet content ∈ answers.flatMap Answer.taken ++ e.events →
      content.length ≤ settings.maxPacketSize ∨ ∃ datagram now seq,
        .receive datagram now ∈ ops ∧ Frame.decode datagram = .ok (.data ⟨seq, .only, content⟩)) ∧
      ∀ (limit : Nat) (calls : List Assembler.Call) (f : Fragment) (a : Assembler),
        Assembler.callAll { limit } calls = a →
          (∀ p, a.slot = .collecting p → p.received ≤ p.announced ∧ p.announced ≤ limit) ∧
            ((∃ packet, (a.push f).1.packet = some packet ∧ limit < packet.length) ↔
              f.position = .only ∧ limit < f.payload.length) := by
  constructor
  · have hlimited : e.Limited settings.maxPacketSize (e₀.history reads ops)
        (answers.flatMap Answer.taken) := by
      refine performAll_induct_past (P := fun ops answers e => e.Limited settings.maxPacketSize
        (e₀.history reads ops) (answers.flatMap Answer.taken))
        (fun hrun₁ ih hperform => ?_) (Limited.start (create_new hcreate)) hrun
      rw [history_concat reads hrun₁, List.flatMap_append, List.flatMap_singleton]
      exact ih.step hperform
    intro content hcontent
    refine (hlimited.packets content hcontent).imp_right ?_
    rintro ⟨⟨seq, position, payload⟩, hread, rfl, rfl⟩
    have hadmitted := (recorded_run hcreate hrun).released_admitted _ hread
    obtain ⟨op, hop, e₁, hadmits⟩ := exists_of_mem_history hadmitted
    obtain ⟨datagram, now, rfl, hframe⟩ := receive_of_mem_admits hadmits
    exact ⟨datagram, now, seq, hop, hframe⟩
  · rintro limit calls f a rfl
    obtain ⟨hslot, hlimit⟩ := Assembler.within_callAll (a := { limit }) trivial calls
    refine ⟨fun p hp => ?_, ?_⟩
    · rw [hp] at hslot
      exact hslot
    · have hexact := Assembler.oversize_iff (hlimit.symm ▸ hslot) f
      rw [hlimit] at hexact
      exact hexact

/-- Three bytes in two frames reach the application, for which four is the limit. -/
theorem packets_within_limit_four : ∃ (nonces : Nat → Nonce) (e₀ e : Endpoint Rat Unit)
    (ops : List Operation) (answers : List Answer),
      create { maxPacketSize := 4 } [7] .plain () nonces = .ok e₀ ∧
        e₀.performAll ops = .ok (answers, e) ∧ .packet [1, 2, 3] ∈ e.events ∧
        ∀ content, .packet content ∈ answers.flatMap Answer.taken ++ e.events →
          content.length ≤ 4 := by
  obtain ⟨nonces, e₀, answers, e, hcreate, hrun, hpacket⟩ := exists_of_trial
    (p := fun r => r.2.events.contains (.packet [1, 2, 3]))
    (show (trial { maxPacketSize := 4 } [7]
      [.connect 0, .receive (Frame.hello [7]).encode 0,
        .receive (Frame.data ⟨0, .first 3, [1]⟩).encode 0,
        .receive (Frame.data ⟨1, .last, [2, 3]⟩).encode 0]).any _ = true by decide +kernel)
  refine ⟨nonces, e₀, e, _, answers, hcreate, hrun, by simpa using hpacket, ?_⟩
  intro content hcontent
  rcases (packets_within_limit hcreate hrun).1 content hcontent with
    hshort | ⟨datagram, now, seq, harrived, hwhole⟩
  · exact hshort
  · simp only [List.mem_cons, reduceCtorEq, Operation.receive.injEq, List.not_mem_nil, or_false,
      false_or] at harrived
    rcases harrived with ⟨rfl, -⟩ | ⟨rfl, -⟩ | ⟨rfl, -⟩ <;> rw [Frame.decode_encode] at hwhole <;>
      cases hwhole

/-- Five bytes in one frame reach the application, for which four is the limit. -/
theorem packet_exceeds_limit : ∃ (nonces : Nat → Nonce) (e₀ e : Endpoint Rat Unit)
    (answers : List Answer),
      create { maxPacketSize := 4 } [7] .plain () nonces = .ok e₀ ∧
        e₀.performAll [.connect 0, .receive (Frame.hello [7]).encode 0,
          .receive (Frame.data ⟨0, .only, [1, 2, 3, 4, 5]⟩).encode 0] = .ok (answers, e) ∧
        .packet [1, 2, 3, 4, 5] ∈ e.events := by
  obtain ⟨nonces, e₀, answers, e, hcreate, hrun, hpacket⟩ := exists_of_trial
    (p := fun r => r.2.events.contains (.packet [1, 2, 3, 4, 5]))
    (show (trial { maxPacketSize := 4 } [7]
      [.connect 0, .receive (Frame.hello [7]).encode 0,
        .receive (Frame.data ⟨0, .only, [1, 2, 3, 4, 5]⟩).encode 0]).any _ = true by decide +kernel)
  exact ⟨nonces, e₀, e, answers, hcreate, hrun, by simpa using hpacket⟩

end DatagramTunnel.Session.Endpoint
