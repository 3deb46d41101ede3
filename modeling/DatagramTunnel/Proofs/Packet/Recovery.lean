import DatagramTunnel.Proofs.Packet.Grammar

/-!
# Recovering from any stream

Whatever a peer has sent, the frames of the next packet put the assembler right.  `recovers` starts
from any assembler at all, idle, in the middle of a packet or of a rejected one, and follows the
frames of a packet through it: the packet comes out with the last of them and with no other, or it
is too long and rejected with the first of them.  Nothing else is reported, except that a packet
that was open is reported as interrupted, and in the end the assembler is idle.
-/

namespace DatagramTunnel.Packet

open Wire

namespace Assembler

@[simp] theorem length_pushAll (a : Assembler) (frames : List Fragment) :
    (a.pushAll frames).1.length = frames.length := by
  induction frames generalizing a with
  | nil => rfl
  | cons f rest ih => rw [pushAll_cons, List.length_cons, List.length_cons, ih]

/-- What is interrupted is the open packet. -/
theorem interruption_eq (a : Assembler) :
    (∀ p, a.slot = .collecting p → a.interruption = [.interrupted p.start]) ∧
      (a.isOpen = false → a.interruption = []) := by
  unfold interruption isOpen
  cases a.slot <;> simp

end Assembler

open Assembler

/-- Frames that return no packet and reveal no fault lead to nothing at all. -/
theorem eq_replicate_of_silent {outs : List Assembled} (hpackets : packetsOf outs = [])
    (hfaults : faultsOf outs = []) : outs = List.replicate outs.length {} := by
  induction outs with
  | nil => rfl
  | cons out rest ih =>
    rw [packetsOf_cons, List.append_eq_nil_iff, Option.toList_eq_nil_iff] at hpackets
    rw [faultsOf_cons, List.append_eq_nil_iff] at hfaults
    have hout : out = {} := by
      cases out
      rw [Assembled.mk.injEq]
      exact ⟨hpackets.1, hfaults.1⟩
    rw [List.length_cons, List.replicate_succ, ← ih hpackets.2 hfaults.2, hout]

namespace Carries

variable {packet : Bytes} {frames : List Fragment}

theorem length_pos (h : Carries packet frames) : 0 < frames.length := by
  cases h <;> exact Nat.succ_pos _

/-- The frames of a packet that is within the limit, or that is in one frame, return it with the
last frame. -/
theorem pushAll_within (h : Carries packet frames) (a : Assembler)
    (hfits : packet.length ≤ a.limit ∨ frames.length = 1) :
    (a.pushAll frames).2 = a.reset ∧
      (a.pushAll frames).1.map Assembled.packet =
        List.replicate (frames.length - 1) none ++ [some packet] ∧
      (a.pushAll frames).1.map Assembled.errors =
        a.interruption :: List.replicate (frames.length - 1) [] := by
  cases h with
  | whole position payload =>
    rw [pushAll_cons, push_only a position, payload]
    exact ⟨rfl, rfl, rfl⟩
  | @spread first last middles total opens announced continues ends payloads =>
    have hlimit : total.toNat ≤ a.limit := by
      simp only [List.length_cons, List.length_append] at hfits
      omega
    have hlength := congrArg List.length payloads
    simp only [List.length_append] at hlength
    have hfirst : a.push first = ({ errors := a.interruption },
        { a with slot := .collecting (.ofFirst first.seq total.toNat first.payload) }) := by
      rw [push_first a opens, openSlot, if_neg (by omega), if_neg (by omega), List.append_nil]
    obtain ⟨q, hreads, hannounced, hbytes⟩ := Reads.middles a.limit
      (.ofFirst first.seq total.toNat first.payload) continues
      (show first.payload.length + _ ≤ total.toNat by omega)
    have hmiddles := eq_replicate_of_silent hreads.packets_eq hreads.faults_eq
    rw [length_pushAll] at hmiddles
    have hpacket : (q.extend last.payload).bytes = packet := by
      rw [OpenPacket.bytes_extend, hbytes, OpenPacket.bytes_ofFirst, List.append_assoc, payloads]
    have hfull : (q.extend last.payload).received = q.announced := by
      rw [← OpenPacket.length_bytes, hpacket, hannounced]
      exact announced.symm
    have hlast : push ⟨a.limit, .collecting q⟩ last = ({ packet := some packet }, a.reset) := by
      rw [push_last _ ends]
      simp [resume, continueSlot, hfull, hpacket, reset]
    rw [pushAll_cons, hfirst]
    dsimp only
    rw [pushAll_append, hmiddles, hreads.assembler_eq, pushAll_cons, hlast]
    refine ⟨rfl, ?_, ?_⟩
    · simp [List.replicate_succ]
    · simp [List.replicate_succ']

/-- The frames of a packet beyond the limit, if they are several, get it rejected with the first of
them. -/
theorem pushAll_beyond (h : Carries packet frames) (a : Assembler)
    (hlong : a.limit < packet.length) (hseveral : 1 < frames.length) :
    a.pushAll frames =
      ({ errors := a.interruption ++ [.oversized packet.length a.limit] } ::
        List.replicate (frames.length - 1) {}, a.reset) := by
  cases h with
  | whole position payload => exact absurd hseveral (Nat.lt_irrefl 1)
  | @spread first last middles total opens announced continues ends payloads =>
    have hfirst : a.push first =
        ({ errors := a.interruption ++ [.oversized packet.length a.limit] },
          { a with slot := .discarding }) := by
      rw [push_first a opens, openSlot, if_pos (announced ▸ hlong), announced]
    have hlast : push ⟨a.limit, .discarding⟩ last = ({}, a.reset) := push_last _ ends
    rw [pushAll_cons, hfirst]
    dsimp only
    rw [pushAll_append, pushAll_middles_discarding a.limit continues, pushAll_cons, hlast]
    simp [List.replicate_succ']

end Carries

/-- From whatever the assembler is in the middle of, the frames that a splitter makes of a packet
leave it idle.  A packet within the limit, or in one frame, is returned with the last frame and no
other; one beyond the limit and in several frames is reported as oversized with the first frame, and
nothing is returned.  Besides, a packet that was open is reported as interrupted with the first
frame, and no other frame reports anything. -/
theorem recovers (a : Assembler) (s : Splitter) {packet : Bytes}
    (hlength : packet.length < 2 ^ 24) :
    let frames := s.fragments packet
    let outs := (a.pushAll frames).1
    (a.pushAll frames).2 = { limit := a.limit, slot := .idle } ∧
      (packet.length ≤ a.limit ∨ frames.length = 1 →
        outs.map Assembled.packet = List.replicate (frames.length - 1) none ++ [some packet] ∧
        outs.map Assembled.errors = a.interruption :: List.replicate (frames.length - 1) []) ∧
      (a.limit < packet.length → 1 < frames.length →
        outs.map Assembled.packet = List.replicate frames.length none ∧
        outs.map Assembled.errors = (a.interruption ++ [.oversized packet.length a.limit]) ::
          List.replicate (frames.length - 1) []) ∧
      (∀ p, a.slot = .collecting p → a.interruption = [.interrupted p.start]) ∧
      (a.isOpen = false → a.interruption = []) := by
  intro frames outs
  have hcarries : Carries packet frames := by
    refine s.carries_fragments ?_
    simp only [maxTotal, totalSize]
    omega
  have hpos := hcarries.length_pos
  refine ⟨?_, fun hfits => (hcarries.pushAll_within a hfits).2, fun hlong hseveral => ?_,
    a.interruption_eq⟩
  · by_cases hfits : packet.length ≤ a.limit ∨ frames.length = 1
    · exact (hcarries.pushAll_within a hfits).1
    · rw [hcarries.pushAll_beyond a (by omega) (by omega)]
      rfl
  · have houts : outs = _ := congrArg Prod.fst (hcarries.pushAll_beyond a hlong hseveral)
    rw [houts, List.map_cons, List.map_cons, List.map_replicate, List.map_replicate,
      ← List.replicate_succ, Nat.sub_add_cancel hpos]
    exact ⟨rfl, rfl⟩

/-- In the middle of a packet, and of a rejected one, the frames of three bytes bring them out, and
those of five bytes are rejected, for which four is the limit. -/
theorem recovers_either_way :
    let s : Splitter := { mtu := 9, nextSeq := 7 }
    let opened := (Assembler.pushAll { limit := 4 } [⟨3, .first 2, [1]⟩]).2
    let rejected := (Assembler.pushAll { limit := 4 } [⟨3, .first 2, [1, 1, 1]⟩]).2
    (opened.pushAll (s.fragments [1, 2, 3])).1.map Assembled.packet = [none, some [1, 2, 3]] ∧
      (opened.pushAll (s.fragments [1, 2, 3])).1.map Assembled.errors = [[.interrupted 3], []] ∧
      (rejected.pushAll (s.fragments [1, 2, 3, 4, 5])).1.map Assembled.errors =
        [[.oversized 5 4], []] := by
  intro s opened rejected
  have hcount : (s.fragments [1, 2, 3]).length = 2 := by decide
  have hcount' : (s.fragments [1, 2, 3, 4, 5]).length = 2 := by decide
  have hopened := (recovers opened s
    (show [1, 2, 3].length < 2 ^ 24 by decide)).2.1 (.inl (by decide))
  have hrejected := (recovers rejected s
    (show [1, 2, 3, 4, 5].length < 2 ^ 24 by decide)).2.2.1 (by decide) (by decide)
  rw [hcount] at hopened
  rw [hcount'] at hrejected
  exact ⟨hopened.1, hopened.2, hrejected.2⟩

end DatagramTunnel.Packet
