import DatagramTunnel.Proofs.Packet.Limits
import DatagramTunnel.Proofs.Packet.Reassembly

/-!
# Which frames complete a packet

The assembler judges frame by frame and remembers little.  Seen from outside it follows a rule about
the frames alone: a last frame completes a packet if the frames so far end with a first frame,
middle frames and this one, if the announced length is within the limit, and if the payloads add up
to exactly that length.  `completed_iff` says so of every stream of frames.

The reason is that a frame other than a middle one settles alone where the assembler stands after
it: `push_only`, `push_first` and `push_last` show nothing of what was open before but the fault of
interrupting it.  So only the frames since the last such frame matter, and `collects_iff` says where
they lead.
-/

namespace DatagramTunnel.Packet

open Wire

/-- The payloads of frames, one after the other. -/
def contents (frames : List Fragment) : Bytes := (frames.map Fragment.payload).flatten

@[simp] theorem contents_nil : contents [] = [] := rfl

@[simp] theorem contents_cons (f : Fragment) (rest : List Fragment) :
    contents (f :: rest) = f.payload ++ contents rest := rfl

@[simp] theorem contents_append (front back : List Fragment) :
    contents (front ++ back) = contents front ++ contents back := by
  simp [contents]

theorem length_contents (frames : List Fragment) :
    (contents frames).length = (frames.map fun f => f.payload.length).sum := by
  rw [contents, List.length_flatten, List.map_map]
  rfl

/-- Frames are middle ones throughout, or middle ones since some other frame. -/
theorem middles_or_boundary (frames : List Fragment) :
    (∀ f ∈ frames, f.position = .middle) ∨
      ∃ before f middles, frames = before ++ f :: middles ∧ f.position ≠ .middle ∧
        ∀ g ∈ middles, g.position = .middle := by
  induction frames with
  | nil => exact .inl fun _ hf => absurd hf List.not_mem_nil
  | cons f rest ih =>
    rcases ih with hmiddles | ⟨before, g, middles, rfl, hposition, hmiddles⟩
    · by_cases hposition : f.position = .middle
      · refine .inl fun g hg => ?_
        rcases List.mem_cons.1 hg with rfl | hg
        · exact hposition
        · exact hmiddles g hg
      · exact .inr ⟨[], f, rest, rfl, hposition, hmiddles⟩
    · exact .inr ⟨f :: before, g, middles, rfl, hposition, hmiddles⟩

namespace Assembler

variable {a : Assembler} {f first : Fragment} {middles : List Fragment} {total : UInt32}

/-! ## One frame -/

theorem push_only (a : Assembler) (h : f.position = .only) :
    a.push f = ({ packet := some f.payload, errors := a.interruption }, a.reset) := by
  simp [push, h, reset]

theorem push_first (a : Assembler) (h : f.position = .first total) :
    a.push f =
      ({ errors := a.interruption ++ (openSlot a.limit f.seq total.toNat f.payload).2 },
        { a with slot := (openSlot a.limit f.seq total.toNat f.payload).1 }) := by
  simp [push, h]

theorem push_middle (a : Assembler) (h : f.position = .middle) :
    a.push f = ((a.resume f.seq false f.payload).2,
      { a with slot := (a.resume f.seq false f.payload).1 }) := by
  simp [push, h]

/-- No continuation is left to expect after the last one. -/
theorem resume_last_fst (a : Assembler) (seq : UInt32) (payload : Bytes) :
    (a.resume seq true payload).1 = .idle := by
  unfold resume
  cases a.slot with
  | idle => rfl
  | discarding => rfl
  | collecting p =>
    simp only [continueSlot, Bool.not_true, Bool.false_eq_true, if_false, if_true]
    split
    · rfl
    · split <;> rfl

theorem push_last (a : Assembler) (h : f.position = .last) :
    a.push f = ((a.resume f.seq true f.payload).2, a.reset) := by
  simp [push, h, resume_last_fst, reset]

/-- A last frame returns a packet exactly if it brings the open one to the announced length. -/
theorem push_last_packet_iff (h : f.position = .last) (packet : Bytes) :
    (a.push f).1.packet = some packet ↔
      ∃ p, a.slot = .collecting p ∧ p.received + f.payload.length = p.announced ∧
        packet = p.bytes ++ f.payload := by
  rw [push_last a h, resume]
  cases hslot : a.slot with
  | idle => simp
  | discarding => simp
  | collecting p =>
    simp only [continueSlot, OpenPacket.received_extend, OpenPacket.bytes_extend, Bool.not_true,
      Bool.false_eq_true, if_false, if_true, Slot.collecting.injEq, exists_eq_left']
    by_cases hover : p.announced < p.received + f.payload.length
    · rw [if_pos hover]
      simp only [reduceCtorEq, false_iff, not_and]
      omega
    · rw [if_neg hover]
      by_cases hfull : p.received + f.payload.length = p.announced
      · simp [hfull, eq_comm]
      · simp [hfull]

/-- A first or a middle frame never returns a packet. -/
theorem push_packet_eq_none (h : f.position = .middle ∨ ∃ total, f.position = .first total) :
    (a.push f).1.packet = none := by
  rcases h with hmiddle | ⟨total, hfirst⟩
  · rw [push_middle a hmiddle, resume]
    cases a.slot with
    | idle => rfl
    | discarding => rfl
    | collecting p =>
      simp only [continueSlot, Bool.not_false, if_true]
      split <;> rfl
  · rw [push_first a hfirst]

/-! ## Middle frames -/

theorem pushAll_middles_idle (limit : Nat) (h : ∀ g ∈ middles, g.position = .middle) :
    (pushAll ⟨limit, .idle⟩ middles).2 = ⟨limit, .idle⟩ := by
  induction middles with
  | nil => rfl
  | cons g rest ih =>
    rw [pushAll_cons, push_middle _ (h g List.mem_cons_self)]
    exact ih fun g' hg' => h g' (List.mem_cons_of_mem g hg')

/-- The middle frames of a rejected packet pass without a word. -/
theorem pushAll_middles_discarding (limit : Nat) (h : ∀ g ∈ middles, g.position = .middle) :
    pushAll ⟨limit, .discarding⟩ middles =
      (List.replicate middles.length {}, ⟨limit, .discarding⟩) := by
  induction middles with
  | nil => rfl
  | cons g rest ih =>
    have hstep : push ⟨limit, .discarding⟩ g = ({}, ⟨limit, .discarding⟩) :=
      push_middle _ (h g List.mem_cons_self)
    rw [pushAll_cons, hstep, ih fun g' hg' => h g' (List.mem_cons_of_mem g hg')]
    rfl

/-- Middle frames that go beyond the announced length get the packet rejected. -/
theorem pushAll_middles_overflow (limit : Nat) {p : OpenPacket}
    (h : ∀ g ∈ middles, g.position = .middle) (hroom : p.received ≤ p.announced)
    (hover : p.announced < p.received + (contents middles).length) :
    (pushAll ⟨limit, .collecting p⟩ middles).2 = ⟨limit, .discarding⟩ := by
  induction middles generalizing p with
  | nil => exact absurd hroom (Nat.not_le.2 hover)
  | cons g rest ih =>
    have hrest : ∀ g' ∈ rest, g'.position = .middle := fun g' hg' =>
      h g' (List.mem_cons_of_mem g hg')
    rw [contents_cons, List.length_append, ← Nat.add_assoc] at hover
    rw [pushAll_cons, push_middle _ (h g List.mem_cons_self)]
    simp only [resume, continueSlot, OpenPacket.received_extend, Bool.not_false, if_true]
    by_cases hhere : p.announced < p.received + g.payload.length
    · rw [if_pos hhere]
      exact congrArg Prod.snd (pushAll_middles_discarding limit hrest)
    · rw [if_neg hhere]
      exact ih hrest (Nat.le_of_not_lt hhere) hover

/-! ## The frames since the last first frame -/

/-- After a first frame and middle ones the packet is open if the announced length is within the
limit and the payloads are within the announced length; otherwise it has been rejected. -/
theorem pushAll_spread (a : Assembler) (hfirst : first.position = .first total)
    (hmiddles : ∀ g ∈ middles, g.position = .middle) :
    (total.toNat ≤ a.limit ∧ (contents (first :: middles)).length ≤ total.toNat ∧
      ∃ p, (a.pushAll (first :: middles)).2 = { a with slot := .collecting p } ∧
        p.announced = total.toNat ∧ p.bytes = contents (first :: middles)) ∨
    ((total.toNat ≤ a.limit → total.toNat < (contents (first :: middles)).length) ∧
      (a.pushAll (first :: middles)).2 = { a with slot := .discarding }) := by
  rw [pushAll_cons, push_first a hfirst, contents_cons, List.length_append]
  by_cases hlimit : total.toNat ≤ a.limit
  · by_cases hroom : first.payload.length ≤ total.toNat
    · simp only [openSlot, if_neg (Nat.not_lt.2 hlimit), if_neg (Nat.not_lt.2 hroom)]
      by_cases hall : first.payload.length + (contents middles).length ≤ total.toNat
      · obtain ⟨p, hreads, hannounced, hbytes⟩ := Reads.middles a.limit
          (.ofFirst first.seq total.toNat first.payload) hmiddles hall
        rw [OpenPacket.bytes_ofFirst] at hbytes
        exact .inl ⟨hlimit, hall, p, hreads.assembler_eq, hannounced, hbytes⟩
      · exact .inr ⟨fun _ => Nat.lt_of_not_le hall,
          pushAll_middles_overflow a.limit hmiddles hroom (Nat.lt_of_not_le hall)⟩
    · simp only [openSlot, if_neg (Nat.not_lt.2 hlimit), if_pos (Nat.lt_of_not_le hroom)]
      refine .inr ⟨fun _ => by omega, ?_⟩
      exact congrArg Prod.snd (pushAll_middles_discarding a.limit hmiddles)
  · simp only [openSlot, if_pos (Nat.lt_of_not_le hlimit)]
    refine .inr ⟨fun hle => absurd hle hlimit, ?_⟩
    exact congrArg Prod.snd (pushAll_middles_discarding a.limit hmiddles)

@[simp] theorem pushAll_limit (a : Assembler) (frames : List Fragment) :
    (a.pushAll frames).2.limit = a.limit := by
  induction frames generalizing a with
  | nil => rfl
  | cons f rest ih => rw [pushAll_cons, ih, push_limit]

/-- Nothing is open after middle frames that follow an only frame or a last one. -/
theorem pushAll_closed (a : Assembler) (hclosing : f.position = .only ∨ f.position = .last)
    (hmiddles : ∀ g ∈ middles, g.position = .middle) :
    (a.pushAll (f :: middles)).2 = a.reset := by
  rcases hclosing with honly | hlast
  · rw [pushAll_cons, push_only a honly]
    exact pushAll_middles_idle a.limit hmiddles
  · rw [pushAll_cons, push_last a hlast]
    exact pushAll_middles_idle a.limit hmiddles

/-- A packet is open in a stream exactly if the frames so far end with its first frame and middle
ones, within both lengths. -/
theorem collects_iff (limit : Nat) (past : List Fragment) (announced : Nat) (bytes : Bytes) :
    (∃ p, (pushAll { limit } past).2.slot = .collecting p ∧ p.announced = announced ∧
        p.bytes = bytes) ↔
      ∃ before first middles total, past = before ++ first :: middles ∧
        first.position = .first total ∧ (∀ g ∈ middles, g.position = .middle) ∧
        total.toNat = announced ∧ announced ≤ limit ∧ bytes.length ≤ announced ∧
        contents (first :: middles) = bytes := by
  constructor
  · rintro ⟨p, hslot, rfl, rfl⟩
    rcases middles_or_boundary past with hmiddles | ⟨before, f, middles, rfl, hposition, hmiddles⟩
    · rw [pushAll_middles_idle limit hmiddles] at hslot
      cases hslot
    · rw [pushAll_append] at hslot
      have hlimit := pushAll_limit { limit } before
      generalize (pushAll { limit } before).2 = a at hslot hlimit
      dsimp only at hslot hlimit
      cases hkind : f.position with
      | middle => exact absurd hkind hposition
      | only =>
        rw [pushAll_closed a (.inl hkind) hmiddles] at hslot
        cases hslot
      | last =>
        rw [pushAll_closed a (.inr hkind) hmiddles] at hslot
        cases hslot
      | first total =>
        rcases pushAll_spread a hkind hmiddles with
          ⟨hwithin, hroom, q, hopen, hannounced, hbytes⟩ | ⟨-, hrejected⟩
        · rw [hopen] at hslot
          obtain rfl := Slot.collecting.inj hslot
          rw [hlimit] at hwithin
          rw [hannounced, hbytes]
          exact ⟨before, f, middles, total, rfl, hkind, hmiddles, rfl, hwithin, hroom, rfl⟩
        · rw [hrejected] at hslot
          cases hslot
  · rintro ⟨before, first, middles, total, rfl, hfirst, hmiddles, rfl, hwithin, hroom, rfl⟩
    rw [pushAll_append]
    rcases pushAll_spread (pushAll { limit } before).2 hfirst hmiddles with
      ⟨-, -, p, hopen, hannounced, hbytes⟩ | ⟨hover, -⟩
    · exact ⟨p, congrArg slot hopen, hannounced, hbytes⟩
    · rw [pushAll_limit] at hover
      exact absurd hroom (Nat.not_le.2 (hover hwithin))

end Assembler

/-! ## The rule -/

open Assembler

/-- Whatever the frames before it, a last frame returns a packet exactly if the frames end with a
first frame, middle frames and this one, the announced length is within the limit, and the payloads
add up to it; the packet is these payloads.  An only frame returns its payload, and no other frame
returns anything. -/
theorem completed_iff (limit : Nat) (past : List Fragment) (f : Fragment) :
    let out := ((pushAll { limit } past).2.push f).1
    (f.position = .last → ∀ packet, out.packet = some packet ↔
      ∃ before first middles total, past = before ++ first :: middles ∧
        first.position = .first total ∧ (∀ g ∈ middles, g.position = .middle) ∧
        total.toNat ≤ limit ∧
        ((first :: (middles ++ [f])).map fun g => g.payload.length).sum = total.toNat ∧
        packet = contents (first :: (middles ++ [f]))) ∧
      (f.position = .only → out.packet = some f.payload) ∧
      (f.position = .middle ∨ (∃ total, f.position = .first total) → out.packet = none) := by
  dsimp only
  refine ⟨fun hlast packet => ?_, fun honly => by rw [push_only _ honly], push_packet_eq_none⟩
  rw [push_last_packet_iff hlast]
  constructor
  · rintro ⟨p, hslot, hfull, rfl⟩
    obtain ⟨before, first, middles, total, hpast, hfirst, hmiddles, htotal, hwithin, -, hbytes⟩ :=
      (collects_iff limit past p.announced p.bytes).1 ⟨p, hslot, rfl, rfl⟩
    have hcontents : contents (first :: (middles ++ [f])) = p.bytes ++ f.payload := by
      rw [← List.cons_append, contents_append, hbytes, contents_cons, contents_nil,
        List.append_nil]
    refine ⟨before, first, middles, total, hpast, hfirst, hmiddles, htotal ▸ hwithin, ?_,
      hcontents.symm⟩
    rw [← length_contents, hcontents, List.length_append, OpenPacket.length_bytes, hfull, htotal]
  · rintro ⟨before, first, middles, total, hpast, hfirst, hmiddles, hwithin, hsum, rfl⟩
    have hcontents : contents (first :: (middles ++ [f])) =
        contents (first :: middles) ++ f.payload := by
      rw [← List.cons_append, contents_append, contents_cons f, contents_nil, List.append_nil]
    rw [← length_contents, hcontents, List.length_append] at hsum
    obtain ⟨p, hslot, hannounced, hbytes⟩ :=
      (collects_iff limit past total.toNat (contents (first :: middles))).2
        ⟨before, first, middles, total, hpast, hfirst, hmiddles, rfl, hwithin, by omega, rfl⟩
    refine ⟨p, hslot, ?_, by rw [hcontents, hbytes]⟩
    rw [← OpenPacket.length_bytes, hbytes, hannounced]
    exact hsum

/-- Four bytes come through after a stray frame and an interrupted packet, for which four is the
limit. A frame in place of the last one returns its own payload or nothing. -/
theorem completed_iff_interrupted :
    let past : List Fragment := [⟨0, .middle, [9]⟩, ⟨1, .first 3, [8]⟩, ⟨2, .first 4, [1, 2]⟩,
      ⟨3, .middle, [3]⟩]
    let a := (pushAll { limit := 4 } past).2
    (a.push ⟨4, .last, [4]⟩).1.packet = some [1, 2, 3, 4] ∧
      (a.push ⟨4, .only, [4]⟩).1.packet = some [4] ∧
      (a.push ⟨4, .middle, [4]⟩).1.packet = none := by
  intro past a
  refine ⟨((completed_iff 4 past ⟨4, .last, [4]⟩).1 rfl [1, 2, 3, 4]).2 ?_,
    (completed_iff 4 past ⟨4, .only, [4]⟩).2.1 rfl,
    (completed_iff 4 past ⟨4, .middle, [4]⟩).2.2 (.inl rfl)⟩
  exact ⟨[⟨0, .middle, [9]⟩, ⟨1, .first 3, [8]⟩], ⟨2, .first 4, [1, 2]⟩, [⟨3, .middle, [3]⟩], 4,
    rfl, rfl, by simp, by decide, by decide, rfl⟩

end DatagramTunnel.Packet
