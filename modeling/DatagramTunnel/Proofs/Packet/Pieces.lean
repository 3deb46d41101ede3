import DatagramTunnel.Packet.Fragmentation
import DatagramTunnel.Proofs.Wire.Reading

/-!
# The frames of a packet

What a splitter makes of a packet, said without the sizes it chose.  `Carries packet frames` is the
shape of the frames: one that holds everything, or a first one that announces the length, any
number of middle ones and a last one, whose payloads put together are the packet.
`ConsecutiveFrom start frames` says that the frames are numbered one after the other from `start`,
modulo `2 ^ 32`.

`Splitter.carries_fragments` and `Splitter.consecutive_fragments` say both of one packet, and
`CarriesAll` extends the first to packets cut one after the other.
-/

namespace DatagramTunnel.Packet

open Wire

/-! ## Sizes -/

theorem partsFor_le {size : Nat} (h : 0 < size) (total : Nat) : partsFor total size ≤ total := by
  rw [partsFor, Nat.add_sub_assoc (Nat.succ_le_of_lt h), Nat.div_le_iff_le_mul_add_pred h]
  have hmul : total ≤ size * total := Nat.le_mul_of_pos_left total h
  omega

theorem frameCount_pos (mtu len : Nat) : 0 < frameCount mtu len := by
  unfold frameCount
  split <;> omega

@[simp] theorem length_shares (mtu len : Nat) : (shares mtu len).length = frameCount mtu len := by
  have hpos := frameCount_pos mtu len
  unfold shares
  by_cases h : frameCount mtu len = 1
  · simp [h]
  · have hrest : 0 < frameCount mtu len - 1 := by omega
    simp only [if_neg h, List.length_cons, length_evenShares hrest]
    omega

theorem sum_evenShares {parts : Nat} (h : 0 < parts) (total : Nat) :
    (evenShares parts total).sum = total := by
  have hmod := Nat.mod_lt total h
  have hsplit := Nat.div_add_mod total parts
  simp only [evenShares, List.sum_append, List.sum_replicate_nat]
  generalize total / parts = q at *
  generalize total % parts = r at *
  have : (parts - r) * q + r * q = parts * q := by
    rw [← Nat.add_mul]
    congr 1
    omega
  rw [Nat.mul_add]
  omega

/-- The shares of a packet add up to its length. -/
theorem sum_shares (mtu len : Nat) : (shares mtu len).sum = len := by
  have hpos := frameCount_pos mtu len
  unfold shares
  by_cases h : frameCount mtu len = 1
  · simp [h]
  · have hrest : 0 < frameCount mtu len - 1 := by omega
    have hfirst : min (partsFor len (frameCount mtu len)) (firstRoom mtu) ≤ len :=
      Nat.le_trans (Nat.min_le_left _ _) (partsFor_le hpos len)
    simp only [if_neg h, List.sum_cons, sum_evenShares hrest]
    omega

/-- Cutting at sizes that add up to the length loses nothing. -/
theorem flatten_cut (sizes : List Nat) (bytes : Bytes) (h : sizes.sum = bytes.length) :
    (cut sizes bytes).flatten = bytes := by
  induction sizes generalizing bytes with
  | nil =>
    have : bytes = [] := List.eq_nil_of_length_eq_zero (by simpa using h.symm)
    simp [this]
  | cons size sizes ih =>
    rw [List.sum_cons] at h
    rw [cut_cons, List.flatten_cons, ih _ (by rw [List.length_drop]; omega),
      List.take_append_drop]

/-! ## Numbers -/

/-- The frames are numbered one after the other from `start`, modulo `2 ^ 32`. -/
def ConsecutiveFrom (start : UInt32) (frames : List Fragment) : Prop :=
  ∀ i (h : i < frames.length), frames[i].seq = start + UInt32.ofNat i

theorem ConsecutiveFrom.nil (start : UInt32) : ConsecutiveFrom start [] := by
  intro i h
  exact absurd h (Nat.not_lt_zero i)

theorem ConsecutiveFrom.append {start : UInt32} {front back : List Fragment}
    (hfront : ConsecutiveFrom start front)
    (hback : ConsecutiveFrom (start + UInt32.ofNat front.length) back) :
    ConsecutiveFrom start (front ++ back) := by
  intro i h
  by_cases hi : i < front.length
  · rw [List.getElem_append_left hi]
    exact hfront i hi
  · have hle : front.length ≤ i := Nat.le_of_not_lt hi
    rw [List.getElem_append_right hle, hback, UInt32.add_assoc, ← UInt32.ofNat_add,
      Nat.add_sub_cancel' hle]

/-- As long as there are no more frames than numbers, a number belongs to one frame. -/
theorem ConsecutiveFrom.index_unique {start : UInt32} {frames : List Fragment}
    (h : ConsecutiveFrom start frames) (hlen : frames.length ≤ 2 ^ 32) {i j : Nat}
    (hi : i < frames.length) (hj : j < frames.length) (heq : frames[i].seq = frames[j].seq) :
    i = j := by
  rw [h i hi, h j hj] at heq
  have hnat := congrArg UInt32.toNat ((UInt32.add_right_inj start).1 heq)
  rw [UInt32.toNat_ofNat', UInt32.toNat_ofNat', Nat.mod_eq_of_lt (Nat.lt_of_lt_of_le hi hlen),
    Nat.mod_eq_of_lt (Nat.lt_of_lt_of_le hj hlen)] at hnat
  exact hnat

theorem ConsecutiveFrom.eq_of_seq_eq {start : UInt32} {frames : List Fragment}
    (h : ConsecutiveFrom start frames) (hlen : frames.length ≤ 2 ^ 32) {f g : Fragment}
    (hf : f ∈ frames) (hg : g ∈ frames) (heq : f.seq = g.seq) : f = g := by
  obtain ⟨i, hi, rfl⟩ := List.getElem_of_mem hf
  obtain ⟨j, hj, rfl⟩ := List.getElem_of_mem hg
  have hij := h.index_unique hlen hi hj heq
  subst hij
  rfl

theorem ConsecutiveFrom.nodup {start : UInt32} {frames : List Fragment}
    (h : ConsecutiveFrom start frames) (hlen : frames.length ≤ 2 ^ 32) :
    (frames.map Fragment.seq).Nodup := by
  refine List.pairwise_map.2 (List.pairwise_iff_getElem.2 ?_)
  intro i j hi hj hij heq
  exact Nat.ne_of_lt hij (h.index_unique hlen hi hj heq)

/-- Any frames that follow one another are numbered one after the other, too. -/
theorem ConsecutiveFrom.slice {start : UInt32} {frames : List Fragment}
    (h : ConsecutiveFrom start frames) (skipped count : Nat) :
    ConsecutiveFrom (start + UInt32.ofNat skipped) ((frames.drop skipped).take count) := by
  intro i hi
  have hindex : skipped + i < frames.length := by
    rw [List.length_take, List.length_drop] at hi
    omega
  rw [List.getElem_take, List.getElem_drop, h (skipped + i) hindex, UInt32.ofNat_add,
    UInt32.add_assoc]

/-- Numbered from zero, and as long as the numbers last, the frames ascend by number. -/
theorem ConsecutiveFrom.ascending {frames : List Fragment} (h : ConsecutiveFrom 0 frames)
    (hlen : frames.length ≤ 2 ^ 32) :
    (∀ i (hi : i < frames.length), frames[i].seq.toNat = i) ∧
      frames.Pairwise fun f g => f.seq.toNat < g.seq.toNat := by
  have hnumber : ∀ i (hi : i < frames.length), frames[i].seq.toNat = i := by
    intro i hi
    rw [h i hi, UInt32.zero_add, UInt32.toNat_ofNat', Nat.mod_eq_of_lt (by omega)]
  refine ⟨hnumber, List.pairwise_iff_getElem.2 ?_⟩
  intro i j hi hj hij
  rw [hnumber i hi, hnumber j hj]
  exact hij

namespace Splitter

theorem consecutive_fragments (s : Splitter) (packet : Bytes) :
    ConsecutiveFrom s.nextSeq (s.fragments packet) := by
  intro i h
  simp [fragments]

end Splitter

/-! ## Shape -/

/-- The frames that carry one packet. -/
inductive Carries (packet : Bytes) : List Fragment → Prop
  /-- One frame holds the packet. -/
  | whole {f : Fragment} (position : f.position = .only) (payload : f.payload = packet) :
    Carries packet [f]
  /-- The packet is spread over several frames, the first of which announces its length. -/
  | spread {first last : Fragment} {middles : List Fragment} {total : UInt32}
    (opens : first.position = .first total) (announced : total.toNat = packet.length)
    (continues : ∀ f ∈ middles, f.position = .middle) (ends : last.position = .last)
    (payloads : first.payload ++ ((middles.map Fragment.payload).flatten ++ last.payload) =
      packet) : Carries packet (first :: (middles ++ [last]))

theorem positionAt_zero {count len : Nat} (h : count ≠ 1) :
    positionAt count len 0 = .first (UInt32.ofNat len) := by
  simp [positionAt, h]

theorem positionAt_middle {count len index : Nat} (h : index + 2 < count) :
    positionAt count len (index + 1) = .middle := by
  have hone : count ≠ 1 := by omega
  have hlast : index + 1 + 1 ≠ count := by omega
  simp [positionAt, hone, hlast]

theorem positionAt_last {count len index : Nat} (h : index + 2 = count) :
    positionAt count len (index + 1) = .last := by
  have hone : count ≠ 1 := by omega
  simp [positionAt, hone, h]

/-- A splitter cuts a packet whose length is a word into frames that carry it. -/
theorem Splitter.carries_fragments_of_lt (s : Splitter) {packet : Bytes}
    (hsmall : packet.length < 2 ^ 32) : Carries packet (s.fragments packet) := by
  have hpos := frameCount_pos s.mtu packet.length
  have hlen : (cut (shares s.mtu packet.length) packet).length =
      frameCount s.mtu packet.length := by simp
  have hflat : (cut (shares s.mtu packet.length) packet).flatten = packet :=
    flatten_cut _ _ (sum_shares s.mtu packet.length)
  unfold Splitter.fragments
  generalize frameCount s.mtu packet.length = count at hpos hlen
  generalize cut (shares s.mtu packet.length) packet = pieces at hlen hflat
  by_cases hone : count = 1
  · obtain ⟨piece, rfl⟩ := List.length_eq_one_iff.1 (hlen.trans hone)
    refine .whole ?_ ?_
    · simp [positionAt, hone]
    · simpa using hflat
  · obtain ⟨head, tail, rfl⟩ : ∃ head tail, pieces = head :: tail := by
      cases pieces with
      | nil => simp only [List.length_nil] at hlen; omega
      | cons head tail => exact ⟨head, tail, rfl⟩
    obtain ⟨body, final, rfl⟩ : ∃ body final, tail = body ++ [final] := by
      rcases List.eq_nil_or_concat tail with rfl | ⟨body, final, rfl⟩
      · simp only [List.length_cons, List.length_nil] at hlen; omega
      · exact ⟨body, final, by simp⟩
    simp only [List.length_cons, List.length_append, List.length_nil] at hlen
    rw [List.mapIdx_cons, List.mapIdx_concat]
    refine .spread (positionAt_zero hone) ?_ ?_ (positionAt_last (by omega)) ?_
    · rw [UInt32.toNat_ofNat', Nat.mod_eq_of_lt hsmall]
    · intro f hf
      obtain ⟨i, hi, rfl⟩ := List.mem_mapIdx.1 hf
      exact positionAt_middle (by omega)
    · have hbody : (body.mapIdx fun i payload => (⟨s.nextSeq + UInt32.ofNat (i + 1),
          positionAt count packet.length (i + 1), payload⟩ : Fragment)).map Fragment.payload =
            body := by
        apply List.ext_getElem <;> simp
      rw [hbody]
      simpa using hflat

/-- A splitter cuts a packet that is not too long into frames that carry it. -/
theorem Splitter.carries_fragments (s : Splitter) {packet : Bytes}
    (h : packet.length ≤ maxTotal) : Carries packet (s.fragments packet) := by
  refine s.carries_fragments_of_lt ?_
  simp only [maxTotal, totalSize] at h
  omega

/-- The frames of a packet that is not too long travel without loss. -/
theorem Carries.fits {packet : Bytes} {frames : List Fragment} (h : Carries packet frames)
    (hlen : packet.length ≤ maxTotal) : ∀ f ∈ frames, f.position.Fits := by
  cases h with
  | whole position _ =>
    intro f hf
    rw [List.mem_singleton] at hf
    subst hf
    rw [position]
    trivial
  | spread opens announced continues ends _ =>
    intro f hf
    rcases List.mem_cons.1 hf with rfl | hf
    · rw [opens]
      exact Nat.le_trans (Nat.le_of_eq announced) hlen
    · rcases List.mem_append.1 hf with hmiddle | hlast
      · rw [continues f hmiddle]
        trivial
      · rw [List.mem_singleton] at hlast
        subst hlast
        rw [ends]
        trivial

/-- The frames that carry packets one after the other. -/
inductive CarriesAll : List Bytes → List Fragment → Prop
  | nil : CarriesAll [] []
  | cons {packet : Bytes} {packets : List Bytes} {frames rest : List Fragment}
    (head : Carries packet frames) (tail : CarriesAll packets rest) :
    CarriesAll (packet :: packets) (frames ++ rest)

theorem CarriesAll.concat {packet : Bytes} {packets : List Bytes} {frames later : List Fragment}
    (h : CarriesAll packets frames) (hlater : Carries packet later) :
    CarriesAll (packets ++ [packet]) (frames ++ later) := by
  induction h with
  | nil => simpa using CarriesAll.cons hlater .nil
  | cons head _ ih =>
    rw [List.append_assoc]
    exact .cons head ih

end DatagramTunnel.Packet
