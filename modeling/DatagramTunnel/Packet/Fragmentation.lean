import DatagramTunnel.Wire.Frame

/-!
# Cutting packets into data frames

A packet that fits behind a first header travels in one frame; a longer one takes the least number
of frames that the MTU allows, and its bytes are spread over them as evenly as that number allows,
so the last frame is never a small remainder. `shares` are the payload sizes, `cut` cuts at them,
and a `Splitter` numbers the pieces.
-/

namespace DatagramTunnel.Packet

open Wire

/-- The least number of parts of size `size` that hold `total`. -/
def partsFor (total size : Nat) : Nat := (total + size - 1) / size

/-- `total` in `parts` sizes that differ by at most one, the larger ones first. -/
def evenShares (parts total : Nat) : List Nat :=
  List.replicate (total % parts) (total / parts + 1) ++
    List.replicate (parts - total % parts) (total / parts)

@[simp] theorem length_evenShares {parts : Nat} (h : 0 < parts) (total : Nat) :
    (evenShares parts total).length = parts := by
  have := Nat.mod_lt total h
  simp only [evenShares, List.length_append, List.length_replicate]
  omega

/-- Payload bytes that fit behind a first header. -/
def firstRoom (mtu : Nat) : Nat := mtu - firstHeaderSize

/-- Payload bytes that fit behind any other data header. -/
def restRoom (mtu : Nat) : Nat := mtu - seqHeaderSize

/-- The number of frames for a packet of `len` bytes. -/
def frameCount (mtu len : Nat) : Nat :=
  if len ≤ firstRoom mtu then 1 else 1 + partsFor (len - firstRoom mtu) (restRoom mtu)

/-- The payload sizes for a packet of `len` bytes: an even share each, except that the longer header
of the first frame may leave less room there, and then the others share the rest evenly. -/
def shares (mtu len : Nat) : List Nat :=
  let count := frameCount mtu len
  if count = 1 then [len]
  else
    let firstShare := min (partsFor len count) (firstRoom mtu)
    firstShare :: evenShares (count - 1) (len - firstShare)

/-- The pieces cut so far, last one first, followed by pieces of the given sizes. -/
def cutOnto (done : List Bytes) : List Nat → Bytes → List Bytes
  | [], _ => done.reverse
  | size :: sizes, bytes => cutOnto (bytes.take size :: done) sizes (bytes.drop size)

/-- Consecutive pieces of the given sizes. -/
def cut (sizes : List Nat) (bytes : Bytes) : List Bytes := cutOnto [] sizes bytes

theorem cutOnto_eq (done : List Bytes) (sizes : List Nat) (bytes : Bytes) :
    cutOnto done sizes bytes = done.reverse ++ cut sizes bytes := by
  induction sizes generalizing done bytes with
  | nil => exact (List.append_nil _).symm
  | cons size sizes ih =>
    rw [cut, cutOnto, cutOnto, ih, ih [bytes.take size]]
    simp

@[simp] theorem cut_nil (bytes : Bytes) : cut [] bytes = [] := rfl

@[simp] theorem cut_cons (size : Nat) (sizes : List Nat) (bytes : Bytes) :
    cut (size :: sizes) bytes = bytes.take size :: cut sizes (bytes.drop size) := by
  rw [cut, cutOnto, cutOnto_eq]
  rfl

@[simp] theorem length_cut (sizes : List Nat) (bytes : Bytes) :
    (cut sizes bytes).length = sizes.length := by
  induction sizes generalizing bytes with
  | nil => rfl
  | cons size sizes ih => simp [ih]

/-- The place of piece `index` among `count` pieces of a packet of `len` bytes. -/
def positionAt (count len index : Nat) : Position :=
  if count = 1 then .only
  else if index = 0 then .first (UInt32.ofNat len)
  else if index + 1 = count then .last
  else .middle

/-- Cuts packets for one path and numbers the data frames of all of them consecutively, modulo
`2 ^ 32`. -/
structure Splitter where
  mtu : Nat
  nextSeq : UInt32 := 0
  deriving DecidableEq, Repr

namespace Splitter

/-- The data frames of one packet. -/
def fragments (s : Splitter) (packet : Bytes) : List Fragment :=
  let count := frameCount s.mtu packet.length
  (cut (shares s.mtu packet.length) packet).mapIdx fun index payload =>
    ⟨s.nextSeq + UInt32.ofNat index, positionAt count packet.length index, payload⟩

/-- The splitter after `count` more frames. -/
def advance (s : Splitter) (count : Nat) : Splitter :=
  { s with nextSeq := s.nextSeq + UInt32.ofNat count }

/-- The data frames of one packet, and the splitter for the next packet. -/
def split (s : Splitter) (packet : Bytes) : List Fragment × Splitter :=
  let pieces := s.fragments packet
  (pieces, s.advance pieces.length)

/-- The data frames of packets cut one after the other. -/
def splitAll (s : Splitter) : List Bytes → List Fragment × Splitter
  | [] => ([], s)
  | packet :: packets =>
    let (pieces, s') := s.split packet
    let (others, s'') := s'.splitAll packets
    (pieces ++ others, s'')

end Splitter

end DatagramTunnel.Packet
