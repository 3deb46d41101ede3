import DatagramTunnel.Proofs.Packet.Reassembly
import DatagramTunnel.Proofs.Session.Receiving

/-!
# An endpoint that delivers

`Receiving` says which frames an endpoint reads, and this is about what it makes of them.  In the
clear, and if the frames of the stream carry packets that are not too long, the packets it has
emitted are exactly those that reading the first `count` frames yields, and it finds no fault.  This
is `Delivering`; `Delivering.advance` reads one frame more.  `Delivering.step` says that every
operation keeps it when `count` is the number of frames that the window has released.

When the connection ends the assembler is emptied, so from then on only the packets that have been
emitted are spoken of: they stay a prefix of those that the stream carries.
-/

namespace DatagramTunnel.Session.Endpoint

open Flight Packet Wire

variable {α σ : Type}

/-- The packets among the events that the application has taken, and among those that wait. -/
def delivered (e : Endpoint α σ) (taken : List Event) : List Bytes :=
  (taken ++ e.events).filterMap Event.content?

/-- What holds of an endpoint that reads packets of at most `limit` bytes in the clear, whose
application has taken these events, which has read `count` frames of its stream, and whose stream
carries these packets. -/
structure Delivering (limit : Nat) (e : Endpoint α σ) (taken : List Event)
    (stream : List Fragment) (count : Nat) (packets : List Bytes) : Prop where
  plain : e.transform = .plain
  clean : e.counters.protocolViolations = 0
  calm : e.violations = 0
  reading : e.phase.isTerminal = false → ∃ slot, e.inlet.assembler = ⟨limit, slot⟩ ∧
    Reads limit .idle (stream.take count) (e.delivered taken) slot
  delivered_initial : e.delivered taken <+: packets

/-- Letting the send queue run releases no frame. -/
theorem released_pump [Mul α] [Seconds α] {e e' : Endpoint α σ} {now : Nat}
    (h : e.pump now = .ok e') : e'.released = e.released := by
  obtain ⟨timeout, -, rfl⟩ := pump_eq_ok h
  rfl

namespace Delivering

variable {e e' : Endpoint α σ} {limit count : Nat} {taken : List Event} {stream : List Fragment}
  {packets : List Bytes}

theorem start {settings : Settings} {token : Bytes}
    (h : e.New settings token .plain) : Delivering settings.maxPacketSize e [] [] 0 [] := by
  have hnone : e.delivered [] = [] := by
    rw [delivered, h.events_eq]
    rfl
  refine ⟨h.transform_eq, ?_, h.violations_eq, ?_, ?_⟩
  · rw [h.counters_eq]
  · intro _
    refine ⟨.idle, ?_, ?_⟩
    · rw [h.inlet_eq]
    · rw [hnone, List.take_nil]
      exact .nil _ _
  · exact List.prefix_nil.2 hnone

/-- Only these parts of the endpoint matter. -/
theorem congr (h : Delivering limit e taken stream count packets)
    (htransform : e'.transform = e.transform)
    (hfaults : e'.counters.protocolViolations = e.counters.protocolViolations)
    (hviolations : e'.violations ≤ e.violations) (hevents : e'.events = e.events)
    (hphase : e'.phase.isTerminal = false → e.phase.isTerminal = false ∧
      e'.inlet.assembler = e.inlet.assembler) :
    Delivering limit e' taken stream count packets := by
  have hsame : e'.delivered taken = e.delivered taken := by
    rw [delivered, delivered, hevents]
  have hcalm := h.calm
  refine ⟨htransform.trans h.plain, hfaults.trans h.clean, by omega, ?_, ?_⟩
  · intro hopen
    obtain ⟨hopen₀, hinlet⟩ := hphase hopen
    obtain ⟨slot, hassembler, hreads⟩ := h.reading hopen₀
    refine ⟨slot, hinlet.trans hassembler, ?_⟩
    rw [hsame]
    exact hreads
  · rw [hsame]
    exact h.delivered_initial

/-- The stream may grow at its end, and carry more packets. -/
theorem extend (h : Delivering limit e taken stream count packets) (hle : count ≤ stream.length)
    (frames : List Fragment) (more : List Bytes) :
    Delivering limit e taken (stream ++ frames) count (packets ++ more) := by
  refine ⟨h.plain, h.clean, h.calm, ?_, h.delivered_initial.trans (List.prefix_append _ _)⟩
  rw [List.take_append_of_le_length hle]
  exact h.reading

/-- A move without marks delivers nothing. -/
theorem move (h : Delivering limit e taken stream count packets) (hmove : Move e [] e') :
    Delivering limit e' taken stream count packets := by
  obtain ⟨hfaults, hviolations⟩ := hmove.faultless List.not_mem_nil
  obtain ⟨news, hnews, hnone⟩ := hmove.events
  have hsame : e'.delivered taken = e.delivered taken := by
    rw [delivered, delivered, hnews, ← List.append_assoc, List.filterMap_append, hnone]
    exact List.append_nil _
  have hcalm := h.calm
  refine ⟨hmove.constants.2.2.trans h.plain, hfaults.trans h.clean, by omega, ?_, ?_⟩
  · intro hopen
    obtain ⟨slot, hassembler, hreads⟩ := h.reading (hmove.isTerminal hopen)
    refine ⟨slot, ?_, ?_⟩
    · rw [(hmove.data hopen).2.2.2]
      exact hassembler
    · rw [hsame]
      exact hreads
  · rw [hsame]
    exact h.delivered_initial

/-- What the window says to an arriving frame delivers nothing. -/
theorem offered (h : Delivering limit e taken stream count packets) (f : Fragment) :
    Delivering limit (e.offered f) taken stream count packets := by
  have hkept : (e.offered f).phase.isTerminal = false → e.phase.isTerminal = false ∧
      (e.offered f).inlet.assembler = e.inlet.assembler := by
    intro hopen
    rw [offered_phase] at hopen
    exact ⟨hopen, offered_assembler e f⟩
  revert hkept
  unfold Endpoint.offered
  dsimp only
  split
  · exact h.congr rfl rfl (Nat.le_refl _) rfl
  · exact h.congr rfl rfl (Nat.le_refl _) rfl

/-- The frame that is due reveals no fault. -/
theorem push_clean (h : Delivering limit e taken stream count packets)
    (hup : e.phase = .established) (hcarries : CarriesAll packets stream)
    (hlimit : ∀ p ∈ packets, p.length ≤ limit) (hcount : count < stream.length) :
    (e.inlet.assembler.push stream[count]).1.errors = [] := by
  obtain ⟨slot, hassembler, hreads⟩ := h.reading (isTerminal_of_established hup)
  obtain ⟨early, slot', hreads', -⟩ := hcarries.read_take hlimit (count + 1)
  rw [hassembler]
  exact (hreads.next hcount hreads').1

/-- Reading the next frame emits the packet that it completes, if any, and finds no fault. -/
theorem advance (h : Delivering limit e taken stream count packets) (hup : e.phase = .established)
    (hcarries : CarriesAll packets stream) (hlimit : ∀ p ∈ packets, p.length ≤ limit)
    (hcount : count < stream.length) (window : ReorderWindow) :
    Delivering limit
      ((e.advanced stream[count] window).absorb (e.inlet.assembler.push stream[count]).1) taken
      stream (count + 1) packets := by
  obtain ⟨slot, hassembler, hreads⟩ := h.reading (isTerminal_of_established hup)
  obtain ⟨early, slot', hreads', hinitial⟩ := hcarries.read_take hlimit (count + 1)
  obtain ⟨hclean, hearly, hpush⟩ := hreads.next hcount hreads'
  rw [← hassembler] at hclean hearly hpush
  have hmove := absorb_move_of_plain (e := e.advanced stream[count] window) hup h.plain hclean
  generalize he' : (e.advanced stream[count] window).absorb
    (e.inlet.assembler.push stream[count]).1 = e' at hmove ⊢
  have hnofault : Mark.fault ∉
      (e.inlet.assembler.push stream[count]).1.packet.toList.map Mark.packet := by
    simp
  obtain ⟨hfaults, hviolations⟩ := hmove.faultless hnofault
  obtain ⟨news, hnews, hmarks⟩ := hmove.events
  have hcontents : news.filterMap Event.content? =
      (e.inlet.assembler.push stream[count]).1.packet.toList := by
    rw [hmarks]
    cases (e.inlet.assembler.push stream[count]).1.packet <;> rfl
  have hdelivered : e'.delivered taken = early := by
    rw [delivered, hnews, ← List.append_assoc, List.filterMap_append, hcontents, hearly]
    rfl
  have hcalm : e.violations = 0 := h.calm
  have hviolations' : e'.violations ≤ e.violations := hviolations
  refine ⟨hmove.constants.2.2.trans h.plain, hfaults.trans h.clean, by omega, ?_, ?_⟩
  · intro hopen
    refine ⟨slot', ?_, ?_⟩
    · rw [(hmove.data hopen).2.2.2]
      exact hpush
    · rw [hdelivered]
      exact hreads'
  · rw [hdelivered]
    exact hinitial

/-- Taking in a frame of the stream emits what it completes, and nothing else. -/
theorem onData {sent : List Bytes} {admitted : List Fragment}
    (h : Delivering limit e taken stream e.released packets)
    (hreceiving : Receiving e sent stream admitted)
    (hnum : ConsecutiveFrom 0 stream) (hlen : stream.length ≤ 2 ^ 31)
    (hcarries : CarriesAll packets stream) (hlimit : ∀ p ∈ packets, p.length ≤ limit)
    {f : Fragment} (hf : f ∈ stream) :
    Delivering limit (e.onData f) taken stream (e.onData f).released packets := by
  suffices hboth : (∃ admitted', Receiving (e.onData f) sent stream admitted') ∧
      Delivering limit (e.onData f) taken stream (e.onData f).released packets from hboth.2
  apply onData_induct (P := fun e' => (∃ admitted', Receiving e' sent stream admitted') ∧
    Delivering limit e' taken stream e'.released packets)
  · rintro e₁ g window ⟨⟨admitted', hreceiving₁⟩, h₁⟩ hup hpop
    obtain ⟨⟨hcount, rfl⟩, hreleased, hread⟩ := hreceiving₁.advanced hnum hlen hup hpop
    obtain ⟨marks, hmove⟩ := absorb_move (e₁.advanced stream[e₁.released] window)
      (e₁.inlet.assembler.push stream[e₁.released]).1
    refine ⟨⟨admitted', hread.move hmove⟩, ?_⟩
    rw [hmove.released, hreleased]
    exact h₁.advance hup hcarries hlimit hcount window
  · refine ⟨⟨_, hreceiving.offered hnum hlen hf⟩, ?_⟩
    rw [released_offered]
    exact h.offered f

variable [Mul α] [Seconds α]

theorem pump (h : Delivering limit e taken stream count packets) {now : Nat}
    (hpump : e.pump now = .ok e') : Delivering limit e' taken stream count packets := by
  obtain ⟨timeout, -, rfl⟩ := pump_eq_ok hpump
  exact h.congr rfl rfl (Nat.le_refl _) rfl (fun hopen => ⟨hopen, rfl⟩)

variable [Add α] [Sub α]

/-- Every operation keeps it, if only frames of the stream arrive. -/
theorem step {sent : List Bytes} {admitted : List Fragment} {op : Operation} {answer : Answer}
    (h : Delivering limit e taken stream e.released packets)
    (hreceiving : Receiving e sent stream admitted)
    (hnum : ConsecutiveFrom 0 stream) (hlen : stream.length ≤ 2 ^ 31)
    (hcarries : CarriesAll packets stream) (hlimit : ∀ p ∈ packets, p.length ≤ limit)
    (hpath : ∀ datagram now f, op = .receive datagram now →
      Frame.decode datagram = .ok (.data f) → f ∈ stream)
    (hout : Outcome e op answer e') :
    Delivering limit e' (taken ++ answer.taken) stream e'.released packets := by
  cases hout with
  | aside move _ clean _ _ _ taken _ =>
    rw [taken, List.append_nil, move.released]
    rw [clean h.plain] at move
    exact h.move move
  | @accept _ wrapped secret _ _ _ _ _ _ hpump =>
    show Delivering limit e' (taken ++ []) stream e'.released packets
    have hqueued : Delivering limit ({ e with secret := secret }.enqueuePacket wrapped) taken
        stream e.released packets :=
      h.congr rfl rfl (Nat.le_refl _) rfl (fun hopen => ⟨hopen, rfl⟩)
    rw [List.append_nil, released_pump hpump]
    exact hqueued.pump hpump
  | pulse _ move hpump =>
    show Delivering limit e' (taken ++ []) stream e'.released packets
    rw [List.append_nil, released_pump hpump, move.released]
    exact (h.move move).pump hpump
  | @retire _ _ sample _ queue _ _ _ _ hpump =>
    show Delivering limit e' (taken ++ []) stream e'.released packets
    have hretired : Delivering limit (e.retire sample queue) taken stream e.released packets :=
      h.congr rfl rfl (Nat.le_refl _) rfl (fun hopen => ⟨hopen, rfl⟩)
    rw [List.append_nil, released_pump hpump]
    exact hretired.pump hpump
  | @piece datagram f now _ frame =>
    show Delivering limit _ (taken ++ []) stream _ packets
    rw [List.append_nil]
    exact h.onData hreceiving hnum hlen hcarries hlimit (hpath datagram now f rfl frame)
  | transmit _ =>
    show Delivering limit _ (taken ++ []) stream e.released packets
    rw [List.append_nil]
    exact h.congr rfl rfl (Nat.le_refl _) rfl (fun hopen => ⟨hopen, rfl⟩)
  | @report event rest events =>
    show Delivering limit _ (taken ++ [event]) stream e.released packets
    have hsame : ({ e with events := rest } : Endpoint α σ).delivered (taken ++ [event]) =
        e.delivered taken := by
      rw [delivered, delivered, events, List.append_assoc]
      rfl
    refine ⟨h.plain, h.clean, h.calm, ?_, ?_⟩
    · rw [hsame]
      exact h.reading
    · rw [hsame]
      exact h.delivered_initial

end Delivering

end DatagramTunnel.Session.Endpoint
