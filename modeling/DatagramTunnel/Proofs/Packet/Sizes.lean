import DatagramTunnel.Proofs.Packet.Pieces

/-!
# The size of a data frame

A splitter chooses the number of frames by the room that the MTU leaves behind the headers, and then
spreads the bytes evenly.  An even share cannot be larger than the room it was divided by, so every
frame fits, the first one with its longer header too: `Splitter.wireLength_le`.
-/

namespace DatagramTunnel.Packet

open Wire

/-! ## Shares -/

/-- As many parts as are taken hold everything. -/
theorem le_mul_partsFor {size : Nat} (h : 0 < size) (total : Nat) :
    total ≤ size * partsFor total size := by
  have hdiv := Nat.div_add_mod (total + size - 1) size
  have hmod := Nat.mod_lt (total + size - 1) h
  rw [partsFor]
  omega

theorem partsFor_pos {size total : Nat} (h : 0 < size) (htotal : 0 < total) :
    0 < partsFor total size :=
  Nat.div_pos (by omega) h

/-- What fits into parts of size `bound` is spread evenly without going above it. -/
theorem le_of_mem_evenShares {parts total bound share : Nat} (hfits : total ≤ parts * bound)
    (hshare : share ∈ evenShares parts total) : share ≤ bound := by
  have hsplit := Nat.div_add_mod total parts
  rcases List.mem_append.1 hshare with hlarge | hsmall
  · obtain ⟨hsome, rfl⟩ := List.mem_replicate.1 hlarge
    have hlt : parts * (total / parts) < parts * bound := by omega
    exact Nat.lt_of_mul_lt_mul_left hlt
  · obtain ⟨-, rfl⟩ := List.mem_replicate.1 hsmall
    exact Nat.div_le_of_le_mul hfits

/-! ## Frames -/

variable {mtu len : Nat}

/-- Behind the shorter header there is room wherever the longer one fits. -/
theorem restRoom_pos (h : firstHeaderSize ≤ mtu) : 0 < restRoom mtu := by
  simp only [restRoom, firstHeaderSize, totalSize] at h ⊢
  omega

/-- A packet that a first frame cannot hold takes as many others as its excess needs. -/
theorem frameCount_of_long (h : firstRoom mtu < len) :
    frameCount mtu len = 1 + partsFor (len - firstRoom mtu) (restRoom mtu) := by
  rw [frameCount, if_neg (Nat.not_le.2 h)]

/-- A packet that travels in one frame is short enough for that. -/
theorem le_firstRoom_of_frameCount (h : firstHeaderSize ≤ mtu) (hone : frameCount mtu len = 1) :
    len ≤ firstRoom mtu := by
  by_contra hlong
  rw [frameCount_of_long (Nat.lt_of_not_le hlong)] at hone
  have hmore : 0 < partsFor (len - firstRoom mtu) (restRoom mtu) :=
    partsFor_pos (restRoom_pos h) (by omega)
  omega

theorem firstRoom_lt_of_frameCount (hmany : frameCount mtu len ≠ 1) : firstRoom mtu < len := by
  by_contra hshort
  exact hmany (if_pos (Nat.le_of_not_lt hshort))

/-- The shares of a packet that takes several frames. -/
theorem shares_of_many (hmany : frameCount mtu len ≠ 1) :
    shares mtu len = min (partsFor len (frameCount mtu len)) (firstRoom mtu) ::
      evenShares (frameCount mtu len - 1)
        (len - min (partsFor len (frameCount mtu len)) (firstRoom mtu)) := by
  simp only [shares, if_neg hmany]

/-- The frames after the first have room for what the first leaves over. -/
theorem rest_le (h : firstHeaderSize ≤ mtu) (hmany : frameCount mtu len ≠ 1) :
    len - min (partsFor len (frameCount mtu len)) (firstRoom mtu) ≤
      (frameCount mtu len - 1) * restRoom mtu := by
  have hpos := frameCount_pos mtu len
  by_cases hshort : firstRoom mtu ≤ partsFor len (frameCount mtu len)
  · rw [Nat.min_eq_right hshort, frameCount_of_long (firstRoom_lt_of_frameCount hmany),
      Nat.add_sub_cancel_left, Nat.mul_comm]
    exact le_mul_partsFor (restRoom_pos h) _
  · -- the first frame takes an even share, so the others need no more than as much each
    have hall := le_mul_partsFor hpos len
    rw [Nat.min_eq_left (by omega)]
    generalize frameCount mtu len = count at *
    obtain ⟨others, rfl⟩ : ∃ others, count = others + 1 := ⟨count - 1, by omega⟩
    have hshare : partsFor len (others + 1) ≤ restRoom mtu := by
      simp only [restRoom, firstRoom, firstHeaderSize] at hshort ⊢
      omega
    have hmul : others * partsFor len (others + 1) ≤ others * restRoom mtu :=
      Nat.mul_le_mul_left others hshare
    rw [Nat.add_mul, Nat.one_mul] at hall
    rw [Nat.add_sub_cancel]
    omega

theorem getElem_shares_le (h : firstHeaderSize ≤ mtu) {index : Nat}
    (hindex : index < (shares mtu len).length) :
    (positionAt (frameCount mtu len) len index).kind.headerSize + (shares mtu len)[index] ≤
      mtu := by
  by_cases hone : frameCount mtu len = 1
  · have hshares : shares mtu len = [len] := by simp [shares, hone]
    have hfits := le_firstRoom_of_frameCount h hone
    have hzero : index = 0 := by simpa [hone] using hindex
    subst hzero
    simp only [hshares, positionAt, hone, if_true, List.getElem_cons_zero, Position.kind,
      Kind.headerSize]
    simp only [firstRoom, firstHeaderSize] at hfits h
    omega
  · have hshares := shares_of_many hone
    cases index with
    | zero =>
      simp only [hshares, positionAt_zero hone, List.getElem_cons_zero, Position.kind,
        Kind.headerSize]
      simp only [firstRoom]
      omega
    | succ index =>
      have hheader : (positionAt (frameCount mtu len) len (index + 1)).kind.headerSize =
          seqHeaderSize := by
        by_cases hlast : index + 1 + 1 = frameCount mtu len <;>
          simp [positionAt, hone, hlast, Position.kind, Kind.headerSize]
      have hmem : (shares mtu len)[index + 1] ∈ evenShares (frameCount mtu len - 1)
          (len - min (partsFor len (frameCount mtu len)) (firstRoom mtu)) := by
        simp [hshares]
      have hshare := le_of_mem_evenShares (rest_le h hone) hmem
      rw [hheader]
      simp only [restRoom, firstHeaderSize] at hshare h
      omega

/-- Cutting at sizes that the bytes suffice for makes pieces of these sizes. -/
theorem map_length_cut (sizes : List Nat) (bytes : Bytes) (h : sizes.sum ≤ bytes.length) :
    (cut sizes bytes).map List.length = sizes := by
  induction sizes generalizing bytes with
  | nil => rfl
  | cons size sizes ih =>
    rw [List.sum_cons] at h
    rw [cut_cons, List.map_cons, List.length_take, Nat.min_eq_left (by omega),
      ih _ (by rw [List.length_drop]; omega)]

namespace Splitter

@[simp] theorem length_fragments (s : Splitter) (packet : Bytes) :
    (s.fragments packet).length = frameCount s.mtu packet.length := by
  simp [fragments]

theorem payloads_fragments (s : Splitter) (packet : Bytes) :
    (s.fragments packet).map Fragment.payload = cut (shares s.mtu packet.length) packet := by
  apply List.ext_getElem <;> simp [fragments]

/-- The payloads of the frames of a packet are as long as its shares. -/
theorem payload_lengths (s : Splitter) (packet : Bytes) :
    (s.fragments packet).map (fun f => f.payload.length) = shares s.mtu packet.length := by
  have hall : (shares s.mtu packet.length).sum = packet.length := sum_shares s.mtu packet.length
  rw [← map_length_cut _ packet (Nat.le_of_eq hall), ← payloads_fragments, List.map_map]
  rfl

/-- No data frame is longer than the MTU. -/
theorem wireLength_le (s : Splitter) (h : firstHeaderSize ≤ s.mtu) (packet : Bytes) :
    ∀ f ∈ s.fragments packet, f.wireLength ≤ s.mtu := by
  intro f hf
  obtain ⟨index, hindex, rfl⟩ := List.getElem_of_mem hf
  have hshares : index < (shares s.mtu packet.length).length := by simpa using hindex
  have hlength : (s.fragments packet)[index].payload.length = (shares s.mtu packet.length)[index] :=
    by simp [← payload_lengths]
  have hposition : (s.fragments packet)[index].position =
      positionAt (frameCount s.mtu packet.length) packet.length index := by simp [fragments]
  rw [Fragment.wireLength, hposition, hlength]
  exact getElem_shares_le h hshares

end Splitter

end DatagramTunnel.Packet
