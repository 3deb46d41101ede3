import DatagramTunnel.Proofs.Packet.Balance
import Mathlib.Data.Nat.PSub

/-!
# One frame at a time

A splitter chooses the sizes of all frames before it cuts.  The same frames come out of a loop that
remembers no more than how far it has come: each frame takes an even share, rounded up, of the bytes
that are left among the frames that are left, and only the first one may have to take less.
`Splitter.splitStepwise?` is that loop, and it fails where a difference would be negative, a divisor
is nought, a slice reaches past the end of the packet, or bytes are left over at the end.

`splitStepwise?_eq` says that it never fails and makes the frames of `Splitter.split`.  The reason
is `evenShares_succ`: taking an even share, rounded up, leaves even shares for the others.
-/

namespace DatagramTunnel.Packet

open Wire

/-! ## The loop -/

/-- The quotient rounded up; there is none by nought. -/
def divUp? (total size : Nat) : Option Nat := if size = 0 then none else some (total ⌈/⌉ size)

/-- The bytes from `start` up to `stop`, if there are as many. -/
def slice? (bytes : Bytes) (start stop : Nat) : Option Bytes :=
  if start ≤ stop ∧ stop ≤ bytes.length then some (bytes.extract start stop) else none

/-- The number of frames for a packet of `len` bytes. -/
def frameCount? (mtu len : Nat) : Option Nat := do
  let firstRoom ← Nat.psub mtu firstHeaderSize
  if len ≤ firstRoom then return 1
  let restRoom ← Nat.psub mtu seqHeaderSize
  let excess ← Nat.psub len firstRoom
  return 1 + (← divUp? excess restRoom)

/-- Cuts the frames from `index` on, of `count`, when the bytes before `offset` have been cut
already: the frames, and the number after theirs. -/
def cutFrom? (firstRoom count : Nat) (packet : Bytes) :
    Nat → UInt32 → Nat → Nat → Option (List Fragment × UInt32)
  | 0, seq, _, offset => if offset = packet.length then some ([], seq) else none
  | steps + 1, seq, index, offset => do
    let remaining ← Nat.psub packet.length offset
    let left ← Nat.psub count index
    let share ← divUp? remaining left
    let size := if index = 0 then min share firstRoom else share
    let position : Position :=
      if index = 0 then .first (UInt32.ofNat packet.length)
      else if left = 1 then .last
      else .middle
    let payload ← slice? packet offset (offset + size)
    let (others, next) ←
      cutFrom? firstRoom count packet steps (seq + 1) (index + 1) (offset + size)
    return (⟨seq, position, payload⟩ :: others, next)

/-- Cuts a packet frame by frame. -/
def Splitter.splitStepwise? (s : Splitter) (packet : Bytes) :
    Option (List Fragment × Splitter) := do
  let count ← frameCount? s.mtu packet.length
  if count = 1 then
    return ([⟨s.nextSeq, .only, packet⟩], { s with nextSeq := s.nextSeq + 1 })
  let firstRoom ← Nat.psub s.mtu firstHeaderSize
  let (frames, next) ← cutFrom? firstRoom count packet count s.nextSeq 0 0
  return (frames, { s with nextSeq := next })

/-! ## Checked steps -/

theorem psub_eq_some_of_le {a b : Nat} (h : b ≤ a) : Nat.psub a b = some (a - b) :=
  Nat.psub_eq_some.2 (Nat.sub_add_cancel h)

theorem divUp?_eq_some {total size : Nat} (h : 0 < size) :
    divUp? total size = some (partsFor total size) :=
  if_neg (Nat.ne_of_gt h)

theorem slice?_eq_some {bytes : Bytes} {start size : Nat} (h : start + size ≤ bytes.length) :
    slice? bytes start (start + size) = some ((bytes.drop start).take size) := by
  rw [slice?, if_pos ⟨Nat.le_add_right _ _, h⟩, List.extract_eq_take_drop,
    Nat.add_sub_cancel_left]

theorem frameCount?_eq {mtu : Nat} (h : firstHeaderSize ≤ mtu) (len : Nat) :
    frameCount? mtu len = some (frameCount mtu len) := by
  have hseq : seqHeaderSize ≤ mtu := Nat.le_trans (Nat.le_add_right _ _) h
  have hfirst : Nat.psub mtu firstHeaderSize = some (firstRoom mtu) := psub_eq_some_of_le h
  have hrest : Nat.psub mtu seqHeaderSize = some (restRoom mtu) := psub_eq_some_of_le hseq
  unfold frameCount? frameCount
  simp only [hfirst, hrest, Option.bind_eq_bind, Option.bind_some]
  by_cases hshort : len ≤ firstRoom mtu
  · rw [if_pos hshort, if_pos hshort]
    rfl
  · rw [if_neg hshort, if_neg hshort, psub_eq_some_of_le (Nat.le_of_not_le hshort),
      Option.bind_some, divUp?_eq_some (restRoom_pos h)]
    rfl

/-! ## Shares taken one after the other -/

theorem evenShares_mul_add {parts share larger : Nat} (h : larger < parts) :
    evenShares parts (parts * share + larger) =
      List.replicate larger (share + 1) ++ List.replicate (parts - larger) share := by
  have hmod : (parts * share + larger) % parts = larger := by
    rw [Nat.mul_add_mod, Nat.mod_eq_of_lt h]
  have hdiv : (parts * share + larger) / parts = share := by
    rw [Nat.mul_add_div (by omega), Nat.div_eq_of_lt h, Nat.add_zero]
  rw [evenShares, hmod, hdiv]

/-- Whoever takes an even share, rounded up, leaves even shares for the others. -/
theorem evenShares_succ (others total : Nat) :
    evenShares (others + 1) total =
      partsFor total (others + 1) :: evenShares others (total - partsFor total (others + 1)) := by
  obtain ⟨share, larger, hlarger, rfl⟩ :
      ∃ share larger, larger < others + 1 ∧ total = (others + 1) * share + larger :=
    ⟨total / (others + 1), total % (others + 1), Nat.mod_lt _ (Nat.succ_pos others),
      (Nat.div_add_mod _ _).symm⟩
  have hup : partsFor ((others + 1) * share + larger) (others + 1) =
      share + (larger + others) / (others + 1) := by
    rw [partsFor, Nat.add_succ_sub_one, Nat.add_assoc, Nat.mul_add_div (Nat.succ_pos others)]
  have hall : (others + 1) * share = others * share + share := by
    rw [Nat.add_mul, Nat.one_mul]
  rw [evenShares_mul_add hlarger, hup]
  cases larger with
  | zero =>
    have hexact : (0 + others) / (others + 1) = 0 := Nat.div_eq_of_lt (by omega)
    have hleft : (others + 1) * share + 0 - (share + 0) = others * share := by omega
    rw [hexact, hleft, List.replicate_zero, List.nil_append, Nat.sub_zero, List.replicate_succ]
    rcases Nat.eq_zero_or_pos others with rfl | hothers
    · simp [evenShares]
    · rw [← Nat.add_zero (others * share), evenShares_mul_add hothers]
      rfl
  | succ larger =>
    have hexcess : (larger + 1 + others) / (others + 1) = 1 := by
      rw [Nat.add_assoc, Nat.add_comm 1, Nat.add_div_right _ (Nat.succ_pos others),
        Nat.div_eq_of_lt (by omega)]
    have hleft : (others + 1) * share + (larger + 1) - (share + 1) = others * share + larger := by
      omega
    rw [hexcess, hleft, evenShares_mul_add (by omega), List.replicate_succ, Nat.add_sub_add_right]
    rfl

/-! ## What the loop makes -/

/-- Pieces as frames of a packet of `len` bytes in `count` frames, from the place `index` on. -/
def numbered (count len : Nat) (seq : UInt32) (index : Nat) (pieces : List Bytes) :
    List Fragment :=
  pieces.mapIdx fun i payload => ⟨seq + UInt32.ofNat i, positionAt count len (index + i), payload⟩

theorem seq_add_succ (seq : UInt32) (n : Nat) :
    seq + UInt32.ofNat (n + 1) = seq + 1 + UInt32.ofNat n := by
  rw [UInt32.add_assoc, Nat.add_comm n, UInt32.ofNat_add]
  rfl

theorem numbered_cons (count len : Nat) (seq : UInt32) (index : Nat) (piece : Bytes)
    (pieces : List Bytes) :
    numbered count len seq index (piece :: pieces) =
      ⟨seq, positionAt count len index, piece⟩ ::
        numbered count len (seq + 1) (index + 1) pieces := by
  have hshift : (fun i payload => (⟨seq + UInt32.ofNat (i + 1),
        positionAt count len (index + (i + 1)), payload⟩ : Fragment)) =
      fun i payload =>
        ⟨seq + 1 + UInt32.ofNat i, positionAt count len (index + 1 + i), payload⟩ := by
    funext i payload
    rw [seq_add_succ, Nat.add_assoc, Nat.add_comm 1]
  rw [numbered, List.mapIdx_cons, hshift]
  simp [numbered]

/-- One frame of the loop, which succeeds when the share that the frame takes is there. -/
theorem cutFrom?_succ {firstRoom count steps index size : Nat} (packet : Bytes) (offset : Nat)
    {seq next : UInt32} {others : List Fragment} (hcount : index + (steps + 1) = count)
    (hsize : size = if index = 0 then min (partsFor (packet.length - offset) (steps + 1)) firstRoom
      else partsFor (packet.length - offset) (steps + 1))
    (hfits : offset + size ≤ packet.length) (hmany : count ≠ 1)
    (hrest : cutFrom? firstRoom count packet steps (seq + 1) (index + 1) (offset + size) =
      some (others, next)) :
    cutFrom? firstRoom count packet (steps + 1) seq index offset =
      some (⟨seq, positionAt count packet.length index, (packet.drop offset).take size⟩ :: others,
        next) := by
  have hleft : count - index = steps + 1 := by omega
  have hposition : (if index = 0 then Position.first (UInt32.ofNat packet.length)
      else if steps + 1 = 1 then .last else .middle) = positionAt count packet.length index := by
    have hlast : steps + 1 = 1 ↔ index + 1 = count := by omega
    simp only [positionAt, if_neg hmany, hlast]
  rw [cutFrom?, psub_eq_some_of_le (by omega), psub_eq_some_of_le (by omega), hleft]
  simp only [Option.bind_eq_bind, Option.bind_some, divUp?_eq_some (Nat.succ_pos steps)]
  rw [← hsize, slice?_eq_some hfits, Option.bind_some, hrest, hposition]
  rfl

/-- From any place after the first frame, the loop cuts what is left into even shares. -/
theorem cutFrom?_eq (firstRoom : Nat) {count : Nat} (packet : Bytes) (hmany : count ≠ 1)
    (steps : Nat) (seq : UInt32) (index offset : Nat) (hindex : index ≠ 0)
    (hcount : index + steps = count) (hoffset : offset ≤ packet.length)
    (hend : steps = 0 → offset = packet.length) :
    cutFrom? firstRoom count packet steps seq index offset =
      some (numbered count packet.length seq index
          (cut (evenShares steps (packet.length - offset)) (packet.drop offset)),
        seq + UInt32.ofNat steps) := by
  induction steps generalizing seq index offset with
  | zero =>
    rw [cutFrom?, if_pos (hend rfl), hend rfl, Nat.sub_self]
    simp [evenShares, numbered]
  | succ steps ih =>
    have hshare : partsFor (packet.length - offset) (steps + 1) ≤ packet.length - offset :=
      partsFor_le (Nat.succ_pos steps) _
    have hends : steps = 0 →
        offset + partsFor (packet.length - offset) (steps + 1) = packet.length := by
      rintro rfl
      simp only [partsFor]
      omega
    have hrest := ih (seq + 1) (index + 1) (offset + partsFor (packet.length - offset) (steps + 1))
      (Nat.succ_ne_zero index) (by omega) (by omega) hends
    rw [cutFrom?_succ packet offset hcount (if_neg hindex).symm (by omega) hmany hrest,
      evenShares_succ, cut_cons, numbered_cons, List.drop_drop, Nat.sub_sub, seq_add_succ]

/-! ## The frames of a packet -/

namespace Splitter

/-- Cutting frame by frame always succeeds, and makes the frames that are made at once. -/
theorem splitStepwise?_eq (s : Splitter) (h : firstHeaderSize ≤ s.mtu) (packet : Bytes) :
    s.splitStepwise? packet = some (s.split packet) := by
  have hcount := frameCount?_eq h packet.length
  have hroom : Nat.psub s.mtu firstHeaderSize = some (firstRoom s.mtu) := psub_eq_some_of_le h
  have hfragments : s.fragments packet = numbered (frameCount s.mtu packet.length) packet.length
      s.nextSeq 0 (cut (shares s.mtu packet.length) packet) := by
    simp only [fragments, numbered, Nat.zero_add]
  rw [split, length_fragments, hfragments, splitStepwise?, hcount, Option.bind_eq_bind,
    Option.bind_some]
  by_cases hone : frameCount s.mtu packet.length = 1
  · simp [hone, shares, positionAt, numbered, advance]
  · rw [if_neg hone, hroom, shares_of_many hone, cut_cons, numbered_cons]
    have hpos := frameCount_pos s.mtu packet.length
    obtain ⟨others, hothers⟩ : ∃ others, frameCount s.mtu packet.length = others + 1 :=
      ⟨frameCount s.mtu packet.length - 1, by omega⟩
    have hfirst : min (partsFor packet.length (others + 1)) (firstRoom s.mtu) ≤ packet.length :=
      (Nat.min_le_left _ _).trans (partsFor_le (Nat.succ_pos others) _)
    rw [hothers] at hone ⊢
    generalize hsize : min (partsFor packet.length (others + 1)) (firstRoom s.mtu) = size at *
    have hrest := cutFrom?_eq (firstRoom s.mtu) packet hone others (s.nextSeq + 1) (0 + 1)
      (0 + size) Nat.one_ne_zero (by omega) (by omega) (by omega)
    have hstep := cutFrom?_succ packet 0 (Nat.zero_add (others + 1)) hsize.symm (by omega) hone
      hrest
    rw [Option.bind_some, hstep, advance, seq_add_succ]
    simp only [Nat.zero_add, List.drop_zero, Nat.add_sub_cancel]
    rfl

end Splitter

/-- What carries a packet is one frame for itself, or a first one, middle ones and a last one. -/
theorem Carries.positions {packet : Bytes} {frames : List Fragment} (h : Carries packet frames) :
    frames.map Fragment.position = [.only] ∨
      ∃ total middles, total.toNat = packet.length ∧ frames.map Fragment.position =
        .first total :: (List.replicate middles .middle ++ [.last]) := by
  cases h with
  | whole position _ => exact .inl (by rw [List.map_singleton, position])
  | @spread first last middles total opens announced continues ends _ =>
    have hmiddles : middles.map Fragment.position = List.replicate middles.length .middle :=
      List.eq_replicate_iff.2 ⟨List.length_map _, List.forall_mem_map.2 continues⟩
    refine .inr ⟨total, middles.length, announced, ?_⟩
    rw [List.map_cons, List.map_append, opens, hmiddles, List.map_singleton, ends]

/-- The payloads of what carries a packet are the packet. -/
theorem Carries.flatten_payloads {packet : Bytes} {frames : List Fragment}
    (h : Carries packet frames) : (frames.map Fragment.payload).flatten = packet := by
  cases h with
  | whole _ payload => simpa using payload
  | spread _ _ _ _ payloads => simpa using payloads

/-- For every MTU that leaves room behind a first header, 8 bytes long, every first number and every
packet whose length is a word: cutting it frame by frame never fails, and makes as many frames as
`frameCount` says.  Their payloads are the packet; they are one frame for itself, or a first one
that announces the length, middle ones and a last one; they are numbered consecutively from the
splitter's number, which ends just after them; none is longer than the MTU when encoded; and none of
several is empty. -/
theorem Splitter.split_stepwise (s : Splitter) (hmtu : 8 < s.mtu) (packet : Bytes)
    (hlen : packet.length < 2 ^ 32) :
    let frames := (s.split packet).1
    s.splitStepwise? packet = some (s.split packet) ∧
      frames.length = frameCount s.mtu packet.length ∧
      (frames.map Fragment.payload).flatten = packet ∧
      (frames.map Fragment.position = [.only] ∨
        ∃ total middles, total.toNat = packet.length ∧ frames.map Fragment.position =
          .first total :: (List.replicate middles .middle ++ [.last])) ∧
      ConsecutiveFrom s.nextSeq frames ∧
      (s.split packet).2 = { s with nextSeq := s.nextSeq + UInt32.ofNat frames.length } ∧
      (∀ f ∈ frames, (Frame.data f).encode.length ≤ s.mtu) ∧
      (1 < frames.length → ∀ f ∈ frames, f.payload ≠ []) := by
  have hheader : firstHeaderSize ≤ s.mtu := Nat.le_of_lt hmtu
  have hcarries := s.carries_fragments_of_lt hlen
  refine ⟨s.splitStepwise?_eq hheader packet, s.length_fragments packet,
    hcarries.flatten_payloads, hcarries.positions, s.consecutive_fragments packet, rfl,
    fun f hf => ?_, fun hmany f hf hempty => ?_⟩
  · rw [Frame.length_encode]
    exact s.wireLength_le hheader packet f hf
  · have hshare : f.payload.length ∈ shares s.mtu packet.length := by
      rw [← payload_lengths]
      exact List.mem_map.2 ⟨f, hf, rfl⟩
    have hmany' : frameCount s.mtu packet.length ≠ 1 :=
      Nat.ne_of_gt (s.length_fragments packet ▸ hmany)
    have hpos := shares_pos hmtu hmany' _ hshare
    rw [hempty] at hpos
    exact Nat.lt_irrefl 0 hpos

/-- The numbers run out within a packet of three frames, the first of which has room for one byte.
-/
theorem Splitter.split_stepwise_wrapped :
    let s : Splitter := { mtu := 9, nextSeq := 4294967295 }
    8 < s.mtu ∧ [1, 2, 3, 4, 5, 6].length < 2 ^ 32 ∧
      s.splitStepwise? [1, 2, 3, 4, 5, 6] =
        some ([⟨4294967295, .first 6, [1]⟩, ⟨0, .middle, [2, 3, 4]⟩, ⟨1, .last, [5, 6]⟩],
          { mtu := 9, nextSeq := 2 }) ∧
      ∀ f ∈ (s.split [1, 2, 3, 4, 5, 6]).1, (Frame.data f).encode.length ≤ 9 ∧ f.payload ≠ [] := by
  refine ⟨by decide, by decide, ?_⟩
  obtain ⟨hstepwise, -, -, -, -, -, hfits, hfull⟩ :=
    split_stepwise { mtu := 9, nextSeq := 4294967295 } (by decide) [1, 2, 3, 4, 5, 6] (by decide)
  refine ⟨?_, fun f hf => ⟨hfits f hf, hfull (by decide) f hf⟩⟩
  rw [hstepwise]
  decide

end DatagramTunnel.Packet
