import DatagramTunnel.Packet.Assembler

/-!
# How long a packet may become

The limit of an assembler bounds what a first frame may announce, and the announced length bounds
what is collected, so a packet that is put together of several frames is never longer than the
limit: `Slot.Within` is the invariant.  A frame that holds a whole packet announces nothing, and
nothing bounds its payload.  `Assembler.oversize_iff` says that this is the one way past the limit.
-/

namespace DatagramTunnel.Packet

open Wire

/-- An open packet holds no more than was announced, and what was announced is within the limit. -/
def Slot.Within (limit : Nat) : Slot → Prop
  | .collecting p => p.received ≤ p.announced ∧ p.announced ≤ limit
  | .idle | .discarding => True

namespace Assembler

/-- A call on an assembler that stands alone. -/
inductive Call where
  | push (f : Fragment)
  | reset
  deriving DecidableEq, Repr

/-- The assembler after one call. -/
def call (a : Assembler) : Call → Assembler
  | .push f => (a.push f).2
  | .reset => a.reset

/-- The assembler after calls one after the other. -/
def callAll (a : Assembler) (calls : List Call) : Assembler := calls.foldl call a

variable {a : Assembler} {f : Fragment} {limit : Nat} {packet : Bytes}

/-! ## What one frame does -/

theorem within_openSlot (limit : Nat) (seq : UInt32) (announced : Nat) (payload : Bytes) :
    (openSlot limit seq announced payload).1.Within limit := by
  unfold openSlot
  by_cases hlong : limit < announced
  · rw [if_pos hlong]
    trivial
  · by_cases hover : announced < payload.length
    · rw [if_neg hlong, if_pos hover]
      trivial
    · rw [if_neg hlong, if_neg hover]
      exact ⟨Nat.le_of_not_lt hover, Nat.le_of_not_lt hlong⟩

/-- A continuation keeps within the announced length, and so does the packet that it completes. -/
theorem within_continueSlot {p : OpenPacket} (h : p.announced ≤ limit) (isLast : Bool)
    (payload : Bytes) :
    (continueSlot p isLast payload).1.Within limit ∧
      ∀ packet, (continueSlot p isLast payload).2.packet = some packet →
        packet.length ≤ limit := by
  have hannounced : (p.extend payload).announced = p.announced := rfl
  unfold continueSlot
  dsimp only
  by_cases hover : p.announced < (p.extend payload).received
  · rw [if_pos hover]
    refine ⟨?_, by simp⟩
    cases isLast <;> trivial
  · rw [if_neg hover]
    cases isLast with
    | false => exact ⟨⟨Nat.le_of_not_lt hover, hannounced ▸ h⟩, by simp⟩
    | true =>
      by_cases hfull : (p.extend payload).received = p.announced
      · simp only [Bool.not_true, Bool.false_eq_true, if_false, if_pos hfull]
        refine ⟨trivial, fun packet hpacket => ?_⟩
        rw [← Option.some.inj hpacket, OpenPacket.length_bytes, hfull]
        exact h
      · simp only [Bool.not_true, Bool.false_eq_true, if_false, if_neg hfull]
        exact ⟨trivial, by simp⟩

theorem within_resume (h : a.slot.Within a.limit) (seq : UInt32) (isLast : Bool)
    (payload : Bytes) :
    (a.resume seq isLast payload).1.Within a.limit ∧
      ∀ packet, (a.resume seq isLast payload).2.packet = some packet →
        packet.length ≤ a.limit := by
  unfold resume
  cases hslot : a.slot with
  | idle => exact ⟨trivial, by simp⟩
  | discarding =>
    refine ⟨?_, by simp⟩
    cases isLast <;> trivial
  | collecting p =>
    rw [hslot] at h
    exact within_continueSlot h.2 isLast payload

@[simp] theorem push_limit (a : Assembler) (f : Fragment) : (a.push f).2.limit = a.limit := by
  unfold push
  split <;> rfl

/-- A frame keeps the open packet within the limit, and returns no longer packet unless it holds the
packet as a whole. -/
theorem within_push (h : a.slot.Within a.limit) (f : Fragment) :
    (a.push f).2.slot.Within a.limit ∧
      ∀ packet, (a.push f).1.packet = some packet →
        packet.length ≤ a.limit ∨ f.position = .only ∧ f.payload = packet := by
  unfold push
  cases hposition : f.position with
  | only => exact ⟨trivial, fun packet hpacket => .inr ⟨rfl, Option.some.inj hpacket⟩⟩
  | first total => exact ⟨within_openSlot a.limit f.seq total.toNat f.payload, by simp⟩
  | middle =>
    obtain ⟨hslot, hshort⟩ := within_resume h f.seq false f.payload
    exact ⟨hslot, fun packet hpacket => .inl (hshort packet hpacket)⟩
  | last =>
    obtain ⟨hslot, hshort⟩ := within_resume h f.seq true f.payload
    exact ⟨hslot, fun packet hpacket => .inl (hshort packet hpacket)⟩

/-- A packet longer than the limit is returned for a frame that holds it as a whole, and only then.
-/
theorem oversize_iff (h : a.slot.Within a.limit) (f : Fragment) :
    (∃ packet, (a.push f).1.packet = some packet ∧ a.limit < packet.length) ↔
      f.position = .only ∧ a.limit < f.payload.length := by
  constructor
  · rintro ⟨packet, hpacket, hlong⟩
    rcases (within_push h f).2 packet hpacket with hshort | ⟨hposition, rfl⟩
    · exact absurd hlong (Nat.not_lt.2 hshort)
    · exact ⟨hposition, hlong⟩
  · rintro ⟨hposition, hlong⟩
    refine ⟨f.payload, ?_, hlong⟩
    simp [push, hposition]

/-! ## Any calls -/

theorem within_callAll (h : a.slot.Within a.limit) (calls : List Call) :
    (a.callAll calls).slot.Within a.limit ∧ (a.callAll calls).limit = a.limit := by
  induction calls generalizing a with
  | nil => exact ⟨h, rfl⟩
  | cons c rest ih =>
    cases c with
    | push f =>
      have hnext := (within_push h f).1
      rw [← push_limit a f] at hnext
      obtain ⟨hslot, hlimit⟩ := ih hnext
      rw [push_limit] at hslot hlimit
      exact ⟨hslot, hlimit⟩
    | reset => exact ih (a := a.reset) trivial

end Assembler

end DatagramTunnel.Packet
