import DatagramTunnel.Packet.Inlet
import DatagramTunnel.Proofs.Packet.Ordering
import DatagramTunnel.Proofs.Packet.Reassembly

/-!
# Frames in any order of arrival

Packets are cut one after the other, and their frames reach an inlet in any order, some of them more
than once and some not at all.  `ReorderWindow.Tracks` and `Inlet.Tracks` are what every arrival
keeps: the window has released the first `count` frames of the stream and holds only later ones, and
the assembler has read exactly what the window released.

`packets_in_order` draws from this that no fault is reported and the packets put together are the
first of those that were cut, and that they are all of them once every frame has come and the window
has room for the whole stream.
-/

namespace DatagramTunnel.Packet

open Wire

/-! ## The stream -/

namespace Splitter

@[simp] theorem splitAll_cons (s : Splitter) (packet : Bytes) (packets : List Bytes) :
    (s.splitAll (packet :: packets)).1 =
      s.fragments packet ++ ((s.advance (s.fragments packet).length).splitAll packets).1 := rfl

/-- The frames of packets that are cut one after the other carry them in this order. -/
theorem carriesAll_splitAll (s : Splitter) {packets : List Bytes}
    (h : ∀ p ∈ packets, p.length ≤ maxTotal) : CarriesAll packets (s.splitAll packets).1 := by
  induction packets generalizing s with
  | nil => exact .nil
  | cons packet packets ih =>
    rw [splitAll_cons]
    exact .cons (s.carries_fragments (h packet List.mem_cons_self))
      (ih _ fun p hp => h p (List.mem_cons_of_mem packet hp))

/-- The frames of packets that are cut one after the other are numbered through. -/
theorem consecutive_splitAll (s : Splitter) (packets : List Bytes) :
    ConsecutiveFrom s.nextSeq (s.splitAll packets).1 := by
  induction packets generalizing s with
  | nil => exact .nil _
  | cons packet packets ih =>
    rw [splitAll_cons]
    exact (s.consecutive_fragments packet).append (ih (s.advance (s.fragments packet).length))

end Splitter

/-! ## The window -/

namespace ReorderWindow

variable {w w' : ReorderWindow} {start : UInt32} {stream admitted : List Fragment} {count : Nat}

/-- The window has released the first `count` frames of the stream, remembers all that it admitted,
and holds no frame that it has released. -/
structure Tracks (w : ReorderWindow) (start : UInt32) (stream admitted : List Fragment)
    (count : Nat) : Prop where
  ordered : w.Ordered start stream admitted count
  remembers : w.Remembers stream admitted count
  ahead : ∀ f ∈ w.held, f ∈ stream.drop count

/-- A window as wide as the stream turns no frame of it away. -/
theorem Ordered.acknowledged_of_room (h : w.Ordered start stream admitted count)
    (hnum : ConsecutiveFrom start stream) (hlen : stream.length ≤ 2 ^ 31)
    (hroom : stream.length ≤ w.size) {f : Fragment} (hf : f ∈ stream) :
    (w.classify f.seq).acknowledged = true := by
  obtain ⟨index, hindex, rfl⟩ := List.getElem_of_mem hf
  rw [h.classify_eq hnum hlen hindex]
  have hnear : ¬ w.size ≤ index - count := by omega
  rw [if_neg hnear]
  split
  · rfl
  · split <;> rfl

/-- A frame of the stream that is accepted has not been released yet. -/
theorem Ordered.mem_drop_of_accepted (h : w.Ordered start stream admitted count)
    (hnum : ConsecutiveFrom start stream) (hlen : stream.length ≤ 2 ^ 31) {f : Fragment}
    (hf : f ∈ stream) (hacc : w.classify f.seq = .accepted) : f ∈ stream.drop count := by
  obtain ⟨index, hindex, rfl⟩ := List.getElem_of_mem hf
  rw [h.classify_eq hnum hlen hindex] at hacc
  have hlater : count ≤ index := by
    refine Nat.le_of_not_lt fun hlt => ?_
    rw [if_pos hlt] at hacc
    cases hacc
  exact List.mem_drop_iff_getElem.2 ⟨index - count, by omega, by simp [Nat.add_sub_cancel' hlater]⟩

namespace Tracks

/-- An arrival from the stream is noted, and one that the window has room for is admitted, now or
earlier. -/
theorem insert (h : w.Tracks start stream admitted count) (hnum : ConsecutiveFrom start stream)
    (hlen : stream.length ≤ 2 ^ 31) {f : Fragment} (hf : f ∈ stream) :
    ∃ admitted', admitted ⊆ admitted' ∧ (w.insert f).2.Tracks start stream admitted' count ∧
      (stream.length ≤ w.size → f ∈ admitted') := by
  obtain ⟨hordered, hadmitted⟩ := h.ordered.insert hnum hlen hf
  refine ⟨_, List.subset_append_left _ _, ⟨hordered, h.remembers.insert f, ?_⟩, fun hroom =>
    hadmitted (h.ordered.acknowledged_of_room hnum hlen hroom hf)⟩
  by_cases hacc : w.classify f.seq = .accepted
  · rw [insert_accepted hacc]
    intro g hg
    rcases List.mem_cons.1 hg with rfl | hold
    · exact h.ordered.mem_drop_of_accepted hnum hlen hf hacc
    · exact h.ahead g hold
  · rw [insert_refused hacc]
    exact h.ahead

/-- A release is the next frame of the stream. -/
theorem pop (h : w.Tracks start stream admitted count) (hnum : ConsecutiveFrom start stream)
    (hlen : stream.length ≤ 2 ^ 31) {f : Fragment} (hpop : w.pop? = some (f, w')) :
    (∃ hcount : count < stream.length, f = stream[count]) ∧
      w'.Tracks start stream admitted (count + 1) := by
  obtain ⟨⟨hcount, hnext⟩, hordered⟩ := h.ordered.pop hnum (by omega) hpop
  refine ⟨⟨hcount, hnext⟩, hordered, h.remembers.pop h.ordered hnum (by omega) hpop, ?_⟩
  obtain ⟨-, hseq, rfl⟩ := pop?_eq_some hpop
  intro g hg
  obtain ⟨hheld, hother⟩ := List.mem_filter.1 hg
  have hlater := h.ahead g hheld
  rw [List.drop_eq_getElem_cons hcount] at hlater
  rcases List.mem_cons.1 hlater with rfl | hlater
  · -- the frame that is released leaves the window
    rw [← hnext, hseq] at hother
    simp at hother
  · exact hlater

/-- What is released at once continues the stream. -/
theorem popMany (h : w.Tracks start stream admitted count) (hnum : ConsecutiveFrom start stream)
    (hlen : stream.length ≤ 2 ^ 31) (limit : Nat) :
    ∃ count', count ≤ count' ∧ (popMany limit w).1 = (stream.take count').drop count ∧
      (ReorderWindow.popMany limit w).2.Tracks start stream admitted count' := by
  induction limit generalizing w count with
  | zero => exact ⟨count, Nat.le_refl _, by simp [ReorderWindow.popMany], h⟩
  | succ limit ih =>
    rw [ReorderWindow.popMany]
    cases hpop : w.pop? with
    | none => exact ⟨count, Nat.le_refl _, by simp, h⟩
    | some released =>
      obtain ⟨f, w'⟩ := released
      obtain ⟨⟨hcount, rfl⟩, hnext⟩ := h.pop hnum hlen hpop
      obtain ⟨count', hle, hreleased, hlast⟩ := ih hnext
      refine ⟨count', Nat.le_of_succ_le hle, ?_, hlast⟩
      have hinside : count < (stream.take count').length := by
        rw [List.length_take]
        omega
      rw [List.drop_eq_getElem_cons hinside, List.getElem_take, ← hreleased]

end Tracks

@[simp] theorem popMany_size (limit : Nat) (w : ReorderWindow) :
    (popMany limit w).2.size = w.size := by
  induction limit generalizing w with
  | zero => rfl
  | succ limit ih =>
    rw [popMany]
    cases hpop : w.pop? with
    | none => rfl
    | some released =>
      obtain ⟨f, w'⟩ := released
      obtain ⟨-, -, rfl⟩ := pop?_eq_some hpop
      exact ih _

/-- Each release takes one frame from those held, so their number is limit enough. -/
theorem pop?_popMany (limit : Nat) {w : ReorderWindow} (h : w.held.length ≤ limit) :
    (popMany limit w).2.pop? = none := by
  induction limit generalizing w with
  | zero =>
    have hnil : w.held = [] := List.eq_nil_of_length_eq_zero (Nat.le_zero.1 h)
    exact pop?_eq_none_iff.2 fun f hf => absurd (hnil ▸ hf) List.not_mem_nil
  | succ limit ih =>
    rw [popMany]
    cases hpop : w.pop? with
    | none => exact hpop
    | some released =>
      have hfewer := length_held_lt_of_pop? hpop
      exact ih (by omega)

end ReorderWindow

/-! ## The inlet -/

namespace Inlet

variable {i : Inlet} {limit : Nat} {start : UInt32} {stream admitted : List Fragment}
  {outs : List Assembled}

@[simp] theorem offerAll_nil (i : Inlet) : i.offerAll [] = ([], i) := rfl

@[simp] theorem offerAll_cons (i : Inlet) (f : Fragment) (rest : List Fragment) :
    i.offerAll (f :: rest) =
      ((i.offer f).2.1 ++ ((i.offer f).2.2.offerAll rest).1,
        ((i.offer f).2.2.offerAll rest).2) := rfl

/-- The assembler has read what the window has released, nothing is left whose turn has come, and
`outs` is what the reading led to. -/
def Tracks (i : Inlet) (limit : Nat) (start : UInt32) (stream admitted : List Fragment)
    (outs : List Assembled) : Prop :=
  ∃ count, i.window.Tracks start stream admitted count ∧ i.window.pop? = none ∧
    Assembler.pushAll ⟨limit, .idle⟩ (stream.take count) = (outs, i.assembler)

theorem Tracks.fresh (limit size : Nat) (start : UInt32) (stream : List Fragment) :
    Tracks ⟨{ size, cursor := start }, { limit }⟩ limit start stream [] [] := by
  have hcursor : start = start + UInt32.ofNat 0 := (UInt32.add_zero start).symm
  refine ⟨0, ⟨⟨hcursor, Nat.zero_le _, ?_, ?_, ?_⟩, ?_, ?_⟩, rfl, rfl⟩ <;>
    exact fun f hf => absurd hf List.not_mem_nil

@[simp] theorem offer_size (i : Inlet) (f : Fragment) :
    (i.offer f).2.2.window.size = i.window.size := by
  show (ReorderWindow.popMany _ (i.window.insert f).2).2.size = _
  rw [ReorderWindow.popMany_size, ReorderWindow.insert_snd_size]

/-- An arrival from the stream is noted, and what it releases is read. -/
theorem Tracks.offer (h : i.Tracks limit start stream admitted outs)
    (hnum : ConsecutiveFrom start stream) (hlen : stream.length ≤ 2 ^ 31) {f : Fragment}
    (hf : f ∈ stream) :
    ∃ admitted', admitted ⊆ admitted' ∧
      (i.offer f).2.2.Tracks limit start stream admitted' (outs ++ (i.offer f).2.1) ∧
        (stream.length ≤ i.window.size → f ∈ admitted') := by
  obtain ⟨count, hwindow, -, hread⟩ := h
  obtain ⟨admitted', hsub, hinsert, hroom⟩ := hwindow.insert hnum hlen hf
  obtain ⟨count', hle, hreleased, hdrain⟩ :=
    hinsert.popMany hnum hlen (i.window.insert f).2.held.length
  refine ⟨admitted', hsub, ⟨count', hdrain, ReorderWindow.pop?_popMany _ (Nat.le_refl _), ?_⟩,
    hroom⟩
  have hsplit := List.take_append_drop count (stream.take count')
  rw [List.take_take, Nat.min_eq_left hle, ← hreleased] at hsplit
  rw [← hsplit, Assembler.pushAll_append, hread]
  rfl

/-- Arrivals from the stream, one after the other. -/
theorem Tracks.offerAll (h : i.Tracks limit start stream admitted outs)
    (hnum : ConsecutiveFrom start stream) (hlen : stream.length ≤ 2 ^ 31)
    {arrivals : List Fragment} (hstream : ∀ f ∈ arrivals, f ∈ stream) :
    ∃ admitted', admitted ⊆ admitted' ∧
      (i.offerAll arrivals).2.Tracks limit start stream admitted'
          (outs ++ (i.offerAll arrivals).1) ∧
        (stream.length ≤ i.window.size → ∀ f ∈ arrivals, f ∈ admitted') := by
  induction arrivals generalizing i admitted outs with
  | nil =>
    rw [offerAll_nil, List.append_nil]
    exact ⟨admitted, List.Subset.refl _, h, fun _ f hf => absurd hf List.not_mem_nil⟩
  | cons f rest ih =>
    obtain ⟨first, hsub, hoffer, hfirst⟩ := h.offer hnum hlen (hstream f List.mem_cons_self)
    obtain ⟨admitted', hsub', hrest, hlater⟩ :=
      ih hoffer fun g hg => hstream g (List.mem_cons_of_mem f hg)
    rw [offer_size] at hlater
    rw [offerAll_cons, ← List.append_assoc]
    refine ⟨admitted', List.Subset.trans hsub hsub', hrest, fun hroom g hg => ?_⟩
    rcases List.mem_cons.1 hg with rfl | hg
    · exact hsub' (hfirst hroom)
    · exact hlater hroom g hg

/-- Once every frame of the stream has been admitted, all of it has been read and nothing is
held. -/
theorem Tracks.complete (h : i.Tracks limit start stream admitted outs)
    (hnum : ConsecutiveFrom start stream) (hlen : stream.length ≤ 2 ^ 31)
    (hall : ∀ f ∈ stream, f ∈ admitted) :
    Assembler.pushAll ⟨limit, .idle⟩ stream = (outs, i.assembler) ∧ i.window.held = [] := by
  obtain ⟨count, hwindow, hpop, hread⟩ := h
  have hend : stream.length ≤ count := by
    refine Nat.le_of_not_lt fun hlt => ?_
    have hmissing :=
      hwindow.remembers.not_admitted hwindow.ordered hnum (by omega) hpop hlt
    exact hmissing (hall _ (List.getElem_mem hlt))
  refine ⟨?_, List.eq_nil_iff_forall_not_mem.2 fun f hf => ?_⟩
  · rw [List.take_of_length_le hend] at hread
    exact hread
  · have hlater := hwindow.ahead f hf
    rw [List.drop_of_length_le hend] at hlater
    exact absurd hlater List.not_mem_nil

end Inlet

/-- The frames of packets reach an inlet by the indices in `order`: no fault is reported, and the
packets put together are the first of those that were cut.  If the window has room for all frames
and every one of them comes, they are all the packets, and nothing is left over. -/
theorem packets_in_order (mtu size limit : Nat) (start : UInt32) {packets : List Bytes}
    {frames : List Fragment} {outs : List Assembled} {inlet : Inlet} {order : List Nat}
    (hlimit : ∀ p ∈ packets, p.length ≤ limit) (htotal : ∀ p ∈ packets, p.length ≤ maxTotal)
    (hframes : (Splitter.splitAll ⟨mtu, start⟩ packets).1 = frames)
    (hlen : frames.length ≤ 2 ^ 31)
    (harrive : Inlet.offerAll ⟨{ size, cursor := start }, { limit }⟩
      (order.filterMap fun index => frames[index]?) = (outs, inlet)) :
    faultsOf outs = [] ∧ packetsOf outs <+: packets ∧
      (frames.length ≤ size → (∀ index < frames.length, index ∈ order) →
        packetsOf outs = packets ∧ inlet.window.held = [] ∧ inlet.assembler.slot = .idle) := by
  subst hframes
  have hcarries := Splitter.carriesAll_splitAll ⟨mtu, start⟩ htotal
  have hnum := Splitter.consecutive_splitAll ⟨mtu, start⟩ packets
  generalize (Splitter.splitAll ⟨mtu, start⟩ packets).1 = frames at *
  have hstream : ∀ f ∈ order.filterMap fun index => frames[index]?, f ∈ frames := by
    intro f hf
    obtain ⟨index, -, hindex⟩ := List.mem_filterMap.1 hf
    exact List.mem_of_getElem? hindex
  obtain ⟨admitted, -, htracks, hadmitted⟩ :=
    (Inlet.Tracks.fresh limit size start frames).offerAll hnum hlen hstream
  rw [harrive, List.nil_append] at htracks
  refine ⟨?_, ?_, fun hroom hall => ?_⟩
  · obtain ⟨count, -, -, hread⟩ := htracks
    obtain ⟨early, slot, hreads, -⟩ := hcarries.read_take hlimit count
    have hfaults := hreads.faults_eq
    rw [hread] at hfaults
    exact hfaults
  · obtain ⟨count, -, -, hread⟩ := htracks
    obtain ⟨early, slot, hreads, hinitial⟩ := hcarries.read_take hlimit count
    have hpackets := hreads.packets_eq
    rw [hread] at hpackets
    exact hpackets ▸ hinitial
  · have hevery : ∀ f ∈ frames, f ∈ admitted := by
      intro f hf
      obtain ⟨index, hindex, rfl⟩ := List.getElem_of_mem hf
      exact hadmitted hroom _
        (List.mem_filterMap.2 ⟨index, hall index hindex, List.getElem?_eq_getElem hindex⟩)
    obtain ⟨hread, hheld⟩ := htracks.complete hnum hlen hevery
    have hreads := hcarries.read_all hlimit
    have hpackets := hreads.packets_eq
    have hassembler := hreads.assembler_eq
    rw [hread] at hpackets hassembler
    exact ⟨hpackets, hheld, congrArg Assembler.slot hassembler⟩

/-- Two packets whose numbers pass `2 ^ 32`, with frames that come early, twice and late. -/
theorem packets_in_order_wrapped :
    ∃ frames outs inlet,
      (Splitter.splitAll ⟨16, 0xFFFFFFFF⟩ [List.replicate 12 1, [2, 3]]).1 = frames ∧
        frames.map Fragment.seq = [0xFFFFFFFF, 0, 1] ∧
        Inlet.offerAll ⟨{ size := 3, cursor := 0xFFFFFFFF }, { limit := 12 }⟩
            ([2, 1, 1, 0, 2, 0].filterMap fun index => frames[index]?) = (outs, inlet) ∧
          faultsOf outs = [] ∧ packetsOf outs = [List.replicate 12 1, [2, 3]] ∧
            inlet.window.held = [] ∧ inlet.assembler.slot = .idle := by
  have hbounds : ∀ p ∈ [List.replicate 12 (1 : UInt8), [2, 3]], p.length ≤ 12 := by decide
  have hthree :
      (Splitter.splitAll ⟨16, 0xFFFFFFFF⟩ [List.replicate 12 1, [2, 3]]).1.length = 3 := by decide
  have hlimits : ∀ p ∈ [List.replicate 12 (1 : UInt8), [2, 3]], p.length ≤ maxTotal :=
    fun p hp => Nat.le_trans (hbounds p hp) (by decide)
  obtain ⟨hfaults, -, hall⟩ := @packets_in_order 16 3 12 0xFFFFFFFF _ _ _ _ [2, 1, 1, 0, 2, 0]
    hbounds hlimits rfl (by rw [hthree]; decide) rfl
  exact ⟨_, _, _, rfl, by decide, rfl, hfaults, hall (by rw [hthree]) (by rw [hthree]; decide)⟩

end DatagramTunnel.Packet
