import DatagramTunnel.Bytes

/-!
# Frame kinds

The first byte of every datagram names its kind, and the kind fixes the length of the header.
`Kind.byte` and `Kind.ofByte?` are tables of their own, one for writing and one for reading;
`Kind.ofByte?_eq_some_iff` says that they agree.
-/

namespace DatagramTunnel.Wire

/-- What a datagram is: handshake and liveness frames, the four places of a data frame within its
packet, acknowledgements, and raw pipe datagrams. -/
inductive Kind where
  | hello
  | ping
  | pong
  /-- A whole packet in one frame. -/
  | only
  /-- The first of several frames. -/
  | first
  /-- The last of several frames. -/
  | last
  /-- A frame between the first and the last. -/
  | middle
  | ack
  | pipe
  deriving DecidableEq, Repr

/-- Bytes of the kind itself. -/
def kindSize : Nat := 1

/-- Bytes of a sequence number. -/
def seqSize : Nat := 4

/-- Bytes of the total length in a first frame. -/
def totalSize : Nat := 3

/-- Header of a frame that carries a sequence number and nothing more. -/
def seqHeaderSize : Nat := kindSize + seqSize

/-- Header of a first frame: the total length follows the sequence number. -/
def firstHeaderSize : Nat := seqHeaderSize + totalSize

/-- Header of a pipe datagram: the pipe's number follows the kind. -/
def pipeHeaderSize : Nat := kindSize + 1

/-- Bytes of the random value that a PING carries and its PONG echoes. -/
def nonceSize : Nat := 64

/-- The largest packet length that the total length field of a first frame can hold. -/
def maxTotal : Nat := (1 <<< (8 * totalSize)) - 1

/-- The smallest path MTU an endpoint accepts. -/
def minMtu : Nat := 16

namespace Kind

/-- The byte that names the kind on the wire. -/
def byte : Kind → UInt8
  | hello => 1
  | ping => 2
  | pong => 3
  | only => 16
  | first => 17
  | last => 18
  | middle => 19
  | ack => 32
  | pipe => 48

/-- The kind that a byte names, if it names one. -/
def ofByte? : UInt8 → Option Kind
  | 1 => some hello
  | 2 => some ping
  | 3 => some pong
  | 16 => some only
  | 17 => some first
  | 18 => some last
  | 19 => some middle
  | 32 => some ack
  | 48 => some pipe
  | _ => none

/-- Bytes before the body of a frame of this kind. -/
def headerSize : Kind → Nat
  | hello | ping | pong => kindSize
  | only | last | middle | ack => seqHeaderSize
  | first => firstHeaderSize
  | pipe => pipeHeaderSize

/-- The name of the kind in diagnostics. -/
def name : Kind → String
  | hello => "MgmtHello"
  | ping => "MgmtPing"
  | pong => "MgmtPong"
  | only => "PktSingle"
  | first => "PktStart"
  | last => "PktEnd"
  | middle => "PktMid"
  | ack => "PktAck"
  | pipe => "UdpPipe"

@[simp] theorem ofByte?_byte (k : Kind) : ofByte? k.byte = some k := by
  cases k <;> rfl

/-- The two tables agree. -/
theorem ofByte?_eq_some_iff {b : UInt8} {k : Kind} : ofByte? b = some k ↔ b = k.byte := by
  constructor
  · intro h
    unfold ofByte? at h
    split at h <;> cases h <;> rfl
  · rintro rfl
    exact ofByte?_byte k

theorem ofByte?_eq_none_iff {b : UInt8} : ofByte? b = none ↔ ∀ k : Kind, k.byte ≠ b := by
  rw [Option.eq_none_iff_forall_ne_some]
  exact forall_congr' fun k => not_congr (ofByte?_eq_some_iff.trans eq_comm)

end Kind

end DatagramTunnel.Wire
