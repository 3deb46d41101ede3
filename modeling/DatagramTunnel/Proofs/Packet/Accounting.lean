import DatagramTunnel.Proofs.Packet.Grammar

/-!
# What becomes of the packets that were begun

Every first frame begins a packet, and of every packet that was begun one thing becomes: it is
returned with its last frame, it is rejected, or it is still open.  `push_balance` keeps the account
of one frame and `balance` that of a stream from any point on; `packets_accounted` is the account of
a whole stream, with that of the frames that continue nothing.

A packet that was rejected has been accounted for.  So nothing more is reported of it, however much
of it follows.
-/

namespace DatagramTunnel.Wire

/-- Whether a frame begins a packet that others continue. -/
def Position.begins : Position → Bool
  | .first _ => true
  | .only | .middle | .last => false

/-- Whether a frame continues a packet. -/
def Position.continues : Position → Bool
  | .middle | .last => true
  | .only | .first _ => false

end DatagramTunnel.Wire

namespace DatagramTunnel.Packet

open Wire

/-- Whether the fault rejects a packet that was begun. -/
def AssemblyError.isRejection : AssemblyError → Bool
  | .interrupted _ | .oversized _ _ | .overflow _ _ | .lengthMismatch _ _ => true
  | .orphan _ => false

/-- Whether the fault is that a frame continues nothing. -/
def AssemblyError.isOrphan : AssemblyError → Bool
  | .orphan _ => true
  | .interrupted _ | .oversized _ _ | .overflow _ _ | .lengthMismatch _ _ => false

/-- How many packets these frames begin. -/
def begun (frames : List Fragment) : Nat := frames.countP fun f => f.position.begins

/-- How many packets were rejected. -/
def rejected (outs : List Assembled) : Nat := (faultsOf outs).countP AssemblyError.isRejection

namespace Assembler

/-- One frame that was read. -/
structure Entry where
  /-- What the assembler was in the middle of. -/
  before : Slot
  frame : Fragment
  /-- What the frame led to. -/
  out : Assembled
  deriving DecidableEq

namespace Entry

/-- Whether a last frame returned a packet. -/
def completes (e : Entry) : Bool := e.frame.position = .last && e.out.packet.isSome

/-- Whether the frame continues a packet while there is none. -/
def isStray (e : Entry) : Bool := e.before = .idle && e.frame.position.continues

end Entry

/-- The frames that were read, one after the other. -/
def journal (a : Assembler) : List Fragment → List Entry
  | [] => []
  | f :: rest => ⟨a.slot, f, (a.push f).1⟩ :: (a.push f).2.journal rest

/-- How many packets are open. -/
def underWay (a : Assembler) : Nat := if a.isOpen then 1 else 0

variable {a : Assembler} {f : Fragment}

theorem underWay_of_idle (limit : Nat) : underWay ⟨limit, .idle⟩ = 0 := rfl

/-! ## One frame -/

/-- The packet that is interrupted is the one that was open. -/
theorem countP_interruption (a : Assembler) :
    a.interruption.countP AssemblyError.isRejection = a.underWay := by
  obtain ⟨limit, slot⟩ := a
  cases slot <;> rfl

/-- A packet that begins is open or rejected. -/
theorem openSlot_balance (limit : Nat) (seq : UInt32) (announced : Nat) (payload : Bytes) :
    (openSlot limit seq announced payload).2.countP AssemblyError.isRejection +
      underWay ⟨limit, (openSlot limit seq announced payload).1⟩ = 1 := by
  unfold openSlot
  split
  · rfl
  · split <;> rfl

/-- A packet that is continued stays open, is rejected, or is complete with its last frame. -/
theorem continueSlot_balance (limit : Nat) (p : OpenPacket) (isLast : Bool) (payload : Bytes) :
    (if isLast && (continueSlot p isLast payload).2.packet.isSome then 1 else 0) +
        (continueSlot p isLast payload).2.errors.countP AssemblyError.isRejection +
      underWay ⟨limit, (continueSlot p isLast payload).1⟩ = 1 := by
  unfold continueSlot
  dsimp only
  split
  · cases isLast <;> rfl
  · cases isLast with
    | false => rfl
    | true =>
      simp only [Bool.not_true, Bool.false_eq_true, if_false]
      split <;> rfl

theorem resume_balance (a : Assembler) (seq : UInt32) (isLast : Bool) (payload : Bytes) :
    a.underWay =
      (if isLast && (a.resume seq isLast payload).2.packet.isSome then 1 else 0) +
        (a.resume seq isLast payload).2.errors.countP AssemblyError.isRejection +
      underWay ⟨a.limit, (a.resume seq isLast payload).1⟩ := by
  obtain ⟨limit, slot⟩ := a
  cases slot with
  | idle => cases isLast <;> rfl
  | discarding => cases isLast <;> rfl
  | collecting p => exact (continueSlot_balance limit p isLast payload).symm

/-- What begins and what was open is complete, rejected or open after one frame. -/
theorem push_balance (a : Assembler) (f : Fragment) :
    (if f.position.begins then 1 else 0) + a.underWay =
      (if (⟨a.slot, f, (a.push f).1⟩ : Entry).completes then 1 else 0) +
        (a.push f).1.errors.countP AssemblyError.isRejection + (a.push f).2.underWay := by
  unfold Entry.completes
  cases hposition : f.position with
  | only =>
    rw [push_only a hposition]
    simp [Position.begins, countP_interruption, reset, underWay_of_idle]
  | first total =>
    have hopen := openSlot_balance a.limit f.seq total.toNat f.payload
    rw [push_first a hposition]
    simp only [Position.begins, List.countP_append, countP_interruption, Option.isSome_none,
      Bool.and_false, Bool.false_eq_true, if_false, if_true]
    omega
  | middle =>
    rw [push_middle a hposition]
    simpa [Position.begins] using a.resume_balance f.seq false f.payload
  | last =>
    have hbalance := a.resume_balance f.seq true f.payload
    rw [resume_last_fst] at hbalance
    rw [push_last a hposition]
    simpa [Position.begins, reset] using hbalance

/-- A frame is an orphan if it continues a packet while there is none, and only then. -/
theorem push_orphans (a : Assembler) (f : Fragment) :
    (a.push f).1.errors.countP AssemblyError.isOrphan =
      if (⟨a.slot, f, (a.push f).1⟩ : Entry).isStray then 1 else 0 := by
  have hinterruption : a.interruption.countP AssemblyError.isOrphan = 0 := by
    unfold interruption
    cases a.slot <;> rfl
  have hresume : ∀ isLast, (a.resume f.seq isLast f.payload).2.errors.countP
      AssemblyError.isOrphan = if a.slot = .idle then 1 else 0 := by
    intro isLast
    unfold resume
    cases a.slot with
    | idle => rfl
    | discarding => cases isLast <;> rfl
    | collecting p =>
      simp only [continueSlot]
      split
      · rfl
      · cases isLast with
        | false => rfl
        | true =>
          simp only [Bool.not_true, Bool.false_eq_true, if_false]
          split <;> rfl
  unfold Entry.isStray
  cases hposition : f.position with
  | only =>
    rw [push_only a hposition]
    simp [Position.continues, hinterruption]
  | first total =>
    rw [push_first a hposition]
    simp only [List.countP_append, hinterruption, Position.continues, Bool.and_false,
      Bool.false_eq_true, if_false, openSlot]
    split
    · rfl
    · split <;> rfl
  | middle =>
    rw [push_middle a hposition]
    simp [Position.continues, hresume]
  | last =>
    rw [push_last a hposition]
    simp [Position.continues, hresume]

/-- What is left of a rejected packet leads to nothing. -/
theorem push_of_discarding (h : a.slot = .discarding) (hcontinues : f.position.continues = true) :
    (a.push f).1 = {} := by
  cases hposition : f.position with
  | only =>
    rw [hposition] at hcontinues
    cases hcontinues
  | first total =>
    rw [hposition] at hcontinues
    cases hcontinues
  | middle => rw [push_middle a hposition, resume, h]
  | last => rw [push_last a hposition, resume, h]

/-! ## Streams -/

theorem begun_cons (f : Fragment) (rest : List Fragment) :
    begun (f :: rest) = begun rest + if f.position.begins then 1 else 0 :=
  List.countP_cons

theorem rejected_cons (out : Assembled) (rest : List Assembled) :
    rejected (out :: rest) = out.errors.countP AssemblyError.isRejection + rejected rest := by
  rw [rejected, faultsOf_cons, List.countP_append]
  rfl

/-- From any point on, what begins and what was open is complete, rejected or open. -/
theorem balance (a : Assembler) (frames : List Fragment) :
    begun frames + a.underWay =
      (a.journal frames).countP Entry.completes + rejected (a.pushAll frames).1 +
        (a.pushAll frames).2.underWay := by
  induction frames generalizing a with
  | nil => simp [begun, rejected, journal]
  | cons f rest ih =>
    have hhere := a.push_balance f
    have hrest := ih (a.push f).2
    rw [begun_cons, journal, List.countP_cons, pushAll_cons, rejected_cons]
    dsimp only
    omega

theorem orphans_eq (a : Assembler) (frames : List Fragment) :
    (faultsOf (a.pushAll frames).1).countP AssemblyError.isOrphan =
      (a.journal frames).countP Entry.isStray := by
  induction frames generalizing a with
  | nil => rfl
  | cons f rest ih =>
    rw [pushAll_cons, faultsOf_cons, List.countP_append, journal, List.countP_cons, push_orphans,
      ih, Nat.add_comm]

theorem journal_of_discarding {frames : List Fragment} {entry : Entry}
    (hentry : entry ∈ a.journal frames) (hbefore : entry.before = .discarding)
    (hcontinues : entry.frame.position.continues = true) : entry.out = {} := by
  induction frames generalizing a with
  | nil => cases hentry
  | cons f rest ih =>
    rw [journal] at hentry
    rcases List.mem_cons.1 hentry with rfl | hlater
    · exact push_of_discarding hbefore hcontinues
    · exact ih hlater

end Assembler

open Assembler

/-- At any moment of any stream, as many packets have been begun as have been returned with a last
frame, rejected, or are still open; and as many orphans have been reported as frames continued a
packet while there was none.  What continues a rejected packet leads to nothing.  And from any
moment on at which no packet is open, in particular since one was rejected, all that is returned
with last frames and all that is rejected was begun afterwards. -/
theorem packets_accounted (limit : Nat) (frames : List Fragment) :
    let a : Assembler := { limit }
    let outs := (a.pushAll frames).1
    begun frames = (a.journal frames).countP Entry.completes + rejected outs +
        (if (a.pushAll frames).2.isOpen then 1 else 0) ∧
      (faultsOf outs).countP AssemblyError.isOrphan = (a.journal frames).countP Entry.isStray ∧
      (∀ entry ∈ a.journal frames, entry.before = .discarding →
        entry.frame.position.continues = true → entry.out = {}) ∧
      ∀ past more, frames = past ++ more → (a.pushAll past).2.isOpen = false →
        begun more = ((a.pushAll past).2.journal more).countP Entry.completes +
          rejected ((a.pushAll past).2.pushAll more).1 +
          (if (a.pushAll frames).2.isOpen then 1 else 0) := by
  intro a outs
  refine ⟨?_, orphans_eq a frames, fun entry => journal_of_discarding, ?_⟩
  · have hbalance := balance a frames
    rw [underWay_of_idle limit] at hbalance
    exact hbalance
  · rintro past more rfl hclosed
    have hbalance := balance (a.pushAll past).2 more
    have hzero : (a.pushAll past).2.underWay = 0 := by rw [underWay, hclosed]; rfl
    rw [hzero, Nat.add_zero] at hbalance
    rw [pushAll_append]
    exact hbalance

/-- Nine bytes are announced where four is the limit: the packet is rejected with its first frame,
the rest of it passes without a word, and the one rejection that follows is that of a packet that
began afterwards. -/
theorem packets_accounted_oversized :
    let first : Fragment := ⟨0, .first 9, [1]⟩
    let rest : List Fragment := [⟨1, .middle, [2]⟩, ⟨2, .last, [3]⟩]
    let later : List Fragment := [⟨3, .first 2, [4]⟩, ⟨4, .only, [5]⟩]
    let a := (pushAll { limit := 4 } [first]).2
    (∀ entry ∈ a.journal rest, entry.before = .discarding → entry.out = {}) ∧
      rejected (a.pushAll (rest ++ later)).1 = 1 := by
  intro first rest later a
  obtain ⟨-, -, hsilent, hclosed⟩ := packets_accounted 4 ([first] ++ (rest ++ later))
  refine ⟨fun entry hentry hbefore => ?_, ?_⟩
  · have hcontinues : ∀ entry ∈ a.journal rest, entry.frame.position.continues = true := by decide
    have hamong : ∀ entry ∈ a.journal rest,
        entry ∈ journal { limit := 4 } ([first] ++ (rest ++ later)) := by decide
    exact hsilent entry (hamong entry hentry) hbefore (hcontinues entry hentry)
  · have hcount := hclosed [first] (rest ++ later) rfl (by decide)
    have hbegun : begun (rest ++ later) = 1 := by decide
    have hcompleted : (a.journal (rest ++ later)).countP Entry.completes = 0 := by decide
    have hopen : (pushAll { limit := 4 } ([first] ++ (rest ++ later))).2.isOpen = false := by decide
    rw [hbegun, hopen, hcompleted, Nat.zero_add, if_neg Bool.false_ne_true] at hcount
    exact hcount.symm

end DatagramTunnel.Packet
