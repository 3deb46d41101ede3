import DatagramTunnel.Proofs.Packet.Pieces

/-!
# Packets on their way

A `Consignment` is a list of packets with the frames that carry them.  On a path that loses nothing
two counts say how far it has come: the receiver has read the first `read` frames, and the sender
knows this of the first `retired` of them.  Everything else follows from this `Stage`: the frames
that are on the way (`onWay`), if the sender keeps `window` of them in flight, the numbers whose
acknowledgements are on the way (`answers`), and how many arrivals are still to come (`left`).
-/

namespace DatagramTunnel.Packet

open Wire

/-- Packets, the frames that carry them, and the longest packet that the receiver allows. -/
structure Consignment where
  packets : List Bytes
  frames : List Fragment
  limit : Nat
  carries : CarriesAll packets frames
  within : ∀ p ∈ packets, p.length ≤ limit
  consecutive : ConsecutiveFrom 0 frames
  fits : ∀ f ∈ frames, f.position.Fits

/-- No packets. -/
def Consignment.empty (limit : Nat) : Consignment where
  packets := []
  frames := []
  limit := limit
  carries := .nil
  within := fun _ hp => absurd hp List.not_mem_nil
  consecutive := .nil 0
  fits := fun _ hf => absurd hf List.not_mem_nil

/-- One packet more, in the frames that a splitter makes of it. -/
def Consignment.add (c : Consignment) (splitter : Splitter) (packet : Bytes)
    (hnext : splitter.nextSeq = UInt32.ofNat c.frames.length) (hlimit : packet.length ≤ c.limit)
    (htotal : packet.length ≤ maxTotal) : Consignment where
  packets := c.packets ++ [packet]
  frames := c.frames ++ splitter.fragments packet
  limit := c.limit
  carries := c.carries.concat (splitter.carries_fragments htotal)
  within := by
    intro p hp
    rcases List.mem_append.1 hp with hold | hnew
    · exact c.within p hold
    · rw [List.mem_singleton] at hnew
      exact hnew ▸ hlimit
  consecutive := by
    apply c.consecutive.append
    rw [UInt32.zero_add, ← hnext]
    exact splitter.consecutive_fragments packet
  fits := by
    intro f hf
    rcases List.mem_append.1 hf with hold | hnew
    · exact c.fits f hold
    · exact (splitter.carries_fragments htotal).fits htotal f hnew

/-- How far the frames have come. -/
structure Stage where
  /-- So many frames are known by the sender to have arrived. -/
  retired : Nat
  /-- So many frames have been read. -/
  read : Nat

/-! ## Slices -/

section Slices

variable {γ : Type} {l : List γ} {low mid high : Nat}

theorem slice_eq_cons {x : γ} {rest : List γ} (h : (l.take high).drop low = x :: rest) :
    ∃ hlow : low < l.length, low < high ∧ x = l[low] ∧ rest = (l.take high).drop (low + 1) := by
  have hlt : low < (l.take high).length := by
    refine Nat.lt_of_not_le fun hle => ?_
    rw [List.drop_of_length_le hle] at h
    cases h
  rw [List.drop_eq_getElem_cons hlt] at h
  obtain ⟨hx, hrest⟩ := List.cons.inj h
  rw [List.length_take] at hlt
  refine ⟨by omega, by omega, ?_, hrest.symm⟩
  rw [← hx, List.getElem_take]

theorem slice_succ (hle : low ≤ high) (hlt : high < l.length) :
    (l.take (high + 1)).drop low = (l.take high).drop low ++ [l[high]] := by
  have hlen : low ≤ (l.take high).length := by
    rw [List.length_take]
    omega
  rw [List.take_succ_eq_append_getElem hlt, List.drop_append_of_le_length hlen]

theorem slice_append (hlow : low ≤ mid) (hhigh : mid ≤ high) :
    (l.take mid).drop low ++ (l.take high).drop mid = (l.take high).drop low := by
  by_cases hshort : l.length ≤ mid
  · have hnil : (l.take high).drop mid = [] := by
      apply List.drop_of_length_le
      rw [List.length_take]
      omega
    rw [hnil, List.append_nil, List.take_of_length_le hshort,
      List.take_of_length_le (Nat.le_trans hshort hhigh)]
  · have hlen : low ≤ (l.take mid).length := by
      rw [List.length_take]
      omega
    have hfront : (l.take high).take mid = l.take mid := by
      rw [List.take_take, Nat.min_eq_left hhigh]
    have hsplit := List.take_append_drop mid (l.take high)
    rw [hfront] at hsplit
    rw [← List.drop_append_of_le_length hlen, hsplit]

end Slices

namespace Consignment

/-- The frames on the way, if `window` of them may be in flight. -/
def onWay (c : Consignment) (window : Nat) (s : Stage) : List Fragment :=
  (c.frames.take (s.retired + window)).drop s.read

/-- The numbers whose acknowledgements are on the way. -/
def answers (c : Consignment) (s : Stage) : List UInt32 :=
  ((c.frames.take s.read).drop s.retired).map Fragment.seq

/-- How many frames and acknowledgements are still to arrive. -/
def left (c : Consignment) (s : Stage) : Nat :=
  (c.frames.length - s.read) + (c.frames.length - s.retired)

variable {c : Consignment} {s : Stage} {window : Nat}

/-- The first frame on the way is the next one to read. -/
theorem onWay_eq_cons {f : Fragment} {rest : List Fragment} (h : c.onWay window s = f :: rest) :
    ∃ hread : s.read < c.frames.length, s.read < s.retired + window ∧ f = c.frames[s.read] ∧
      rest = c.onWay window { s with read := s.read + 1 } :=
  slice_eq_cons h

/-- A frame that is read is answered. -/
theorem answers_read_succ (hle : s.retired ≤ s.read) (hlt : s.read < c.frames.length) :
    c.answers { s with read := s.read + 1 } = c.answers s ++ [c.frames[s.read].seq] := by
  rw [answers, slice_succ hle hlt, List.map_append]
  rfl

/-- The first acknowledgement on the way is that of the oldest frame in flight. -/
theorem answers_eq_cons {seq : UInt32} {rest : List UInt32} (h : c.answers s = seq :: rest) :
    ∃ hretired : s.retired < c.frames.length, s.retired < s.read ∧
      seq = c.frames[s.retired].seq ∧ rest = c.answers { s with retired := s.retired + 1 } := by
  obtain ⟨f, fs, hslice, rfl, rfl⟩ := List.map_eq_cons_iff.1 h
  obtain ⟨hlt, hread, rfl, rfl⟩ := slice_eq_cons hslice
  exact ⟨hlt, hread, rfl, rfl⟩

/-- A frame that is retired makes room for one more. -/
theorem onWay_retired_succ (hle : s.read ≤ s.retired + window) :
    c.onWay window { s with retired := s.retired + 1 } =
      c.onWay window s ++
        (c.frames.take (s.retired + 1 + window)).drop (s.retired + window) := by
  have hmore : s.retired + window ≤ s.retired + 1 + window := by omega
  exact (slice_append hle hmore).symm

theorem left_read_succ (h : s.read < c.frames.length) :
    c.left { s with read := s.read + 1 } + 1 = c.left s := by
  unfold left
  dsimp only
  omega

theorem left_retired_succ (h : s.retired < c.frames.length) :
    c.left { s with retired := s.retired + 1 } + 1 = c.left s := by
  unfold left
  dsimp only
  omega

/-- When nothing is on the way in either direction, everything has arrived. -/
theorem all_of_quiet (hwindow : 0 < window) (hread : s.read ≤ c.frames.length)
    (honWay : c.onWay window s = []) (hanswers : c.answers s = []) (hle : s.retired ≤ s.read) :
    s.retired = c.frames.length ∧ s.read = c.frames.length := by
  have hframes := List.drop_eq_nil_iff.1 honWay
  have hseqs := List.drop_eq_nil_iff.1 (List.map_eq_nil_iff.1 hanswers)
  rw [List.length_take] at hframes hseqs
  omega

end Consignment

end DatagramTunnel.Packet
