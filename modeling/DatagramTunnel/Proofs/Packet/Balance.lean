import DatagramTunnel.Proofs.Packet.Sizes
import Mathlib.Algebra.Order.Floor.Div
import Mathlib.Order.Bounds.Defs

/-!
# Few frames, and even ones

The number of frames is the least that holds the packet, as `frameCount_le_iff` says of any number:
`n` frames are enough exactly if the room of a first frame and of `n - 1` others is.

The bytes are spread as evenly as the headers allow.  Shares of one total never differ by more than
one, `evenShares_even`.  The first frame of a packet takes an even share of everything unless its
longer header leaves less room than that, and the two cases are `shares_of_fitting` and
`shares_of_capped`: in the first all frames are within one byte of each other, in the second the
first frame is full and each other one carries up to the three bytes more that its header is
shorter.
-/

namespace DatagramTunnel.Packet

open Wire

variable {mtu len : Nat}

/-! ## Rounding up -/

/-- `n` parts are enough exactly if they hold everything. -/
theorem partsFor_le_iff {size : Nat} (h : 0 < size) (total n : Nat) :
    partsFor total size ≤ n ↔ total ≤ size * n :=
  ceilDiv_le_iff_le_mul h

theorem lt_partsFor_iff {size : Nat} (h : 0 < size) (total n : Nat) :
    n < partsFor total size ↔ size * n < total := by
  rw [← Nat.not_le, partsFor_le_iff h, Nat.not_le]

/-! ## The number of frames -/

/-- A number of frames is enough exactly if that many frames, filled up, hold the packet. -/
theorem frameCount_le_iff (h : firstHeaderSize ≤ mtu) {count : Nat} (hcount : 1 ≤ count) :
    frameCount mtu len ≤ count ↔ len ≤ firstRoom mtu + (count - 1) * restRoom mtu := by
  have hroom : 0 < restRoom mtu := restRoom_pos h
  rcases Nat.lt_or_ge (firstRoom mtu) len with hlong | hshort
  · have hothers := partsFor_le_iff hroom (len - firstRoom mtu) (count - 1)
    rw [frameCount_of_long hlong, Nat.mul_comm (count - 1)]
    omega
  · have hone : frameCount mtu len = 1 := if_pos hshort
    rw [hone]
    exact ⟨fun _ => Nat.le_add_right_of_le hshort, fun _ => hcount⟩

theorem isLeast_frameCount (h : firstHeaderSize ≤ mtu) (len : Nat) :
    IsLeast {count | 1 ≤ count ∧ len ≤ firstRoom mtu + (count - 1) * restRoom mtu}
      (frameCount mtu len) := by
  constructor
  · exact ⟨frameCount_pos mtu len, (frameCount_le_iff h (frameCount_pos mtu len)).1 le_rfl⟩
  · rintro count ⟨hcount, hholds⟩
    exact (frameCount_le_iff h hcount).2 hholds

/-! ## Even shares -/

/-- Shares of one total descend, and differ by one at most. -/
theorem evenShares_even (parts total : Nat) :
    (evenShares parts total).Pairwise fun a b => b ≤ a ∧ a ≤ b + 1 := by
  refine List.pairwise_append.2 ⟨?_, ?_, ?_⟩
  · exact List.pairwise_replicate.2 (.inr ⟨le_rfl, Nat.le_succ _⟩)
  · exact List.pairwise_replicate.2 (.inr ⟨le_rfl, Nat.le_succ _⟩)
  · intro a ha b hb
    rw [List.eq_of_mem_replicate ha, List.eq_of_mem_replicate hb]
    exact ⟨Nat.le_succ _, le_rfl⟩

/-- What fills parts of size `bound` is spread evenly without going below it. -/
theorem le_of_mem_evenShares_of_mul_le {parts total bound share : Nat} (hparts : 0 < parts)
    (hfills : parts * bound ≤ total) (hshare : share ∈ evenShares parts total) :
    bound ≤ share := by
  have hleast : bound ≤ total / parts :=
    (Nat.le_div_iff_mul_le hparts).2 (Nat.mul_comm _ _ ▸ hfills)
  rcases List.mem_append.1 hshare with hlarge | hsmall
  · rw [List.eq_of_mem_replicate hlarge]
    exact Nat.le_succ_of_le hleast
  · rw [List.eq_of_mem_replicate hsmall]
    exact hleast

/-! ## The shares of a packet -/

/-- The first frame takes an even share when it has room for it, and then no share is smaller by
more than one. -/
theorem shares_of_fitting (hmany : frameCount mtu len ≠ 1)
    (hfits : partsFor len (frameCount mtu len) ≤ firstRoom mtu) :
    ∃ rest, shares mtu len = partsFor len (frameCount mtu len) :: rest ∧
      rest.Pairwise (fun a b => b ≤ a ∧ a ≤ b + 1) ∧
      ∀ share ∈ partsFor len (frameCount mtu len) :: rest,
        share ≤ partsFor len (frameCount mtu len) ∧
          partsFor len (frameCount mtu len) ≤ share + 1 := by
  have hshares := shares_of_many hmany
  rw [Nat.min_eq_left hfits] at hshares
  refine ⟨_, hshares, evenShares_even _ _, List.forall_mem_cons.2 ⟨⟨le_rfl, Nat.le_succ _⟩, ?_⟩⟩
  intro share hshare
  have hpos := frameCount_pos mtu len
  generalize frameCount mtu len = count at *
  obtain ⟨others, rfl⟩ : ∃ others, count = others + 1 := ⟨count - 1, by omega⟩
  have hall := le_mul_partsFor hpos len
  have hleast := lt_partsFor_iff hpos len (partsFor len (others + 1) - 1)
  generalize partsFor len (others + 1) = first at *
  rw [Nat.add_sub_cancel] at hshare
  rw [Nat.add_mul, Nat.one_mul] at hall hleast
  refine ⟨le_of_mem_evenShares (by omega) hshare, ?_⟩
  -- one byte less for everybody would not be enough
  have hsmaller : others * (first - 1) ≤ len - first := by
    rcases Nat.eq_zero_or_pos first with rfl | hfirst
    · omega
    · have := hleast.1 (by omega)
      omega
  have := le_of_mem_evenShares_of_mul_le (by omega) hsmaller hshare
  omega

/-- When an even share is more than its header leaves room for, the first frame is full, and the
others carry no less. -/
theorem shares_of_capped (h : firstHeaderSize ≤ mtu) (hmany : frameCount mtu len ≠ 1)
    (hcapped : firstRoom mtu < partsFor len (frameCount mtu len)) :
    ∃ rest, shares mtu len = firstRoom mtu :: rest ∧
      rest.Pairwise (fun a b => b ≤ a ∧ a ≤ b + 1) ∧
      ∀ share ∈ rest, firstRoom mtu ≤ share ∧ share ≤ restRoom mtu := by
  have hshares := shares_of_many hmany
  have hfits := rest_le h hmany
  rw [Nat.min_eq_right (Nat.le_of_lt hcapped)] at hshares hfits
  refine ⟨_, hshares, evenShares_even _ _, fun share hshare => ⟨?_, ?_⟩⟩
  · have hpos := frameCount_pos mtu len
    have hmore := (lt_partsFor_iff hpos _ _).1 hcapped
    generalize frameCount mtu len = count at *
    obtain ⟨others, rfl⟩ : ∃ others, count = others + 1 := ⟨count - 1, by omega⟩
    rw [Nat.add_mul, Nat.one_mul] at hmore
    rw [Nat.add_sub_cancel] at hshare
    exact le_of_mem_evenShares_of_mul_le (by omega) (by omega) hshare
  · exact le_of_mem_evenShares hfits hshare

/-- No frame of several is empty. -/
theorem shares_pos (h : firstHeaderSize < mtu) (hmany : frameCount mtu len ≠ 1) :
    ∀ share ∈ shares mtu len, 0 < share := by
  have hroom : 0 < firstRoom mtu := Nat.sub_pos_of_lt h
  have hlong := firstRoom_lt_of_frameCount hmany
  have hpos := frameCount_pos mtu len
  have hcount : frameCount mtu len ≤ len := by
    refine (frameCount_le_iff (Nat.le_of_lt h) (by omega)).2 ?_
    have := Nat.le_mul_of_pos_right (len - 1) (restRoom_pos (Nat.le_of_lt h))
    omega
  rw [shares_of_many hmany]
  generalize frameCount mtu len = count at *
  have hfirst : 0 < partsFor len count := partsFor_pos hpos (by omega)
  refine List.forall_mem_cons.2 ⟨by omega, fun share hshare => ?_⟩
  refine le_of_mem_evenShares_of_mul_le (by omega) ?_ hshare
  -- one byte more for each other frame would not be left only if the first share were larger
  have hless : count * (partsFor len count - 1) < len := (lt_partsFor_iff hpos _ _).1 (by omega)
  obtain ⟨others, rfl⟩ : ∃ others, count = others + 1 := ⟨count - 1, by omega⟩
  obtain ⟨excess, hexcess⟩ : ∃ excess, partsFor len (others + 1) = excess + 1 :=
    ⟨partsFor len (others + 1) - 1, by omega⟩
  rw [hexcess, Nat.add_sub_cancel, Nat.add_mul, Nat.one_mul] at hless
  rw [hexcess, Nat.add_sub_cancel, Nat.mul_one]
  rcases Nat.eq_zero_or_pos excess with rfl | hmore
  · omega
  · have := Nat.le_mul_of_pos_right others hmore
    omega

/-! ## The frames of a packet -/

/-- For every MTU that leaves room behind a first header, 8 bytes long, and for every packet: the
number of frames is the least that is enough, where the others have headers of 5 bytes; and if there
are several frames, their payloads after the first descend and differ by one byte at most, all
differ by three at most, and by one if the first frame has room for an even share.  If it has not,
it is full, and no other payload is smaller. -/
theorem Splitter.few_and_even (s : Splitter) (hmtu : 8 < s.mtu) :
    (∀ len, IsLeast {count | 1 ≤ count ∧ len ≤ (s.mtu - 8) + (count - 1) * (s.mtu - 5)}
      (frameCount s.mtu len)) ∧
    ∀ packet : Bytes, 1 < (s.fragments packet).length →
      ∃ first rest, (s.fragments packet).map (fun f => f.payload.length) = first :: rest ∧
        rest.Pairwise (fun a b => b ≤ a ∧ a ≤ b + 1) ∧
        (∀ a ∈ first :: rest, ∀ b ∈ first :: rest, a ≤ b + 3) ∧
        (packet.length ⌈/⌉ (s.fragments packet).length ≤ s.mtu - 8 →
          ∀ a ∈ first :: rest, ∀ b ∈ first :: rest, a ≤ b + 1) ∧
        (s.mtu - 8 < packet.length ⌈/⌉ (s.fragments packet).length →
          first = s.mtu - 8 ∧ ∀ share ∈ rest, first ≤ share) := by
  have hheader : firstHeaderSize ≤ s.mtu := Nat.le_of_lt hmtu
  refine ⟨isLeast_frameCount hheader, fun packet hmany => ?_⟩
  rw [length_fragments] at hmany ⊢
  rw [payload_lengths]
  have hrest : restRoom s.mtu = firstRoom s.mtu + 3 := by
    simp only [restRoom, firstRoom, firstHeaderSize, seqHeaderSize, kindSize, seqSize, totalSize]
    omega
  by_cases hfits : partsFor packet.length (frameCount s.mtu packet.length) ≤ firstRoom s.mtu
  · obtain ⟨rest, hshares, heven, hnear⟩ := shares_of_fitting (Nat.ne_of_gt hmany) hfits
    refine ⟨_, rest, hshares, heven, ?_, ?_, fun hcapped => absurd hfits (Nat.not_le.2 hcapped)⟩
    · intro a ha b hb
      exact ((hnear a ha).1.trans (hnear b hb).2).trans (by omega)
    · exact fun _ a ha b hb => (hnear a ha).1.trans (hnear b hb).2
  · obtain ⟨rest, hshares, heven, hbounds⟩ :=
      shares_of_capped hheader (Nat.ne_of_gt hmany) (Nat.lt_of_not_le hfits)
    have hall : ∀ a ∈ firstRoom s.mtu :: rest, firstRoom s.mtu ≤ a ∧ a ≤ restRoom s.mtu :=
      List.forall_mem_cons.2 ⟨⟨le_rfl, by omega⟩, hbounds⟩
    refine ⟨firstRoom s.mtu, rest, hshares, heven, ?_, fun hfits' => absurd hfits' hfits,
      fun _ => ⟨rfl, fun share hshare => (hbounds share hshare).1⟩⟩
    intro a ha b hb
    have hmost := (hall a ha).2
    have hleast := (hall b hb).1
    omega

/-- A first frame of an MTU of 9 bytes holds one byte, and any other four: six bytes take three
frames, and the first is full. -/
theorem Splitter.few_and_even_nine : 8 < ({ mtu := 9 } : Splitter).mtu ∧
    IsLeast {count | 1 ≤ count ∧ 6 ≤ 1 + (count - 1) * 4} 3 ∧
    (({ mtu := 9 } : Splitter).fragments [1, 2, 3, 4, 5, 6]).map (fun f => f.payload.length) =
      [1, 3, 2] ∧
    9 - 8 < 6 ⌈/⌉ 3 ∧ ∀ share ∈ [3, 2], 1 ≤ share := by
  obtain ⟨hleast, hsizes⟩ := few_and_even { mtu := 9 } (by decide)
  obtain ⟨first, rest, hlengths, -, -, -, hcapped⟩ := hsizes [1, 2, 3, 4, 5, 6] (by decide)
  have hconcrete : (({ mtu := 9 } : Splitter).fragments [1, 2, 3, 4, 5, 6]).map
      (fun f => f.payload.length) = [1, 3, 2] := by decide
  obtain ⟨rfl, rfl⟩ := List.cons.inj (hconcrete.symm.trans hlengths)
  exact ⟨by decide, hleast 6, hconcrete, by decide, (hcapped (by decide)).2⟩

end DatagramTunnel.Packet
