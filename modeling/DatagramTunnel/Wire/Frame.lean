import DatagramTunnel.Wire.Kind

/-!
# Frames

A frame is one datagram, and `Frame.encode` is its written form: the kind byte, the fixed fields of
the kind, then a body that runs to the end of the datagram. `Frame.wireLength` gives its length
without writing it, from tables of header and body lengths; `Frame.length_encode` says that it is
right.
-/

namespace DatagramTunnel.Wire

/-- The random value of a PING, 64 bytes long. -/
structure Nonce where
  bytes : Bytes
  length_bytes : bytes.length = nonceSize
  deriving DecidableEq

/-- Where a data frame stands within its packet. -/
inductive Position where
  /-- The frame holds the whole packet. -/
  | only
  /-- The first of several frames; it announces the length of the packet. -/
  | first (total : UInt32)
  | middle
  | last
  deriving DecidableEq, Repr

/-- A data frame: a numbered piece of a packet. -/
structure Fragment where
  seq : UInt32
  position : Position
  payload : Bytes
  deriving DecidableEq, Repr

/-- The content of a datagram. -/
inductive Frame where
  /-- Opens a connection, or answers an opening; the token must match the receiver's. -/
  | hello (token : Bytes)
  | ping (nonce : Nonce)
  | pong (nonce : Nonce)
  | data (fragment : Fragment)
  /-- The data frame numbered `seq` has arrived. -/
  | ack (seq : UInt32)
  /-- An unreliable datagram on pipe `id`. -/
  | pipe (id : UInt8) (payload : Bytes)
  deriving DecidableEq

/-- The four bytes of a sequence number. -/
def seqField (seq : UInt32) : Bytes := LittleEndian.encode seqSize seq.toNat

/-- The three bytes of a total length; higher bits are dropped. -/
def totalField (total : UInt32) : Bytes := LittleEndian.encode totalSize total.toNat

/-- The kind of a data frame. -/
def Position.kind : Position → Kind
  | .only => .only
  | .first _ => .first
  | .middle => .middle
  | .last => .last

namespace Fragment

/-- Everything before the payload. -/
def header (f : Fragment) : Bytes :=
  f.position.kind.byte :: seqField f.seq ++
    match f.position with
    | .first total => totalField total
    | _ => []

/-- Bytes on the wire. -/
def wireLength (f : Fragment) : Nat := f.position.kind.headerSize + f.payload.length

@[simp] theorem length_header (f : Fragment) : f.header.length = f.position.kind.headerSize := by
  cases h : f.position <;>
    simp [header, h, seqField, totalField, Position.kind, Kind.headerSize, seqHeaderSize,
      firstHeaderSize, kindSize, seqSize, totalSize]

end Fragment

namespace Frame

def kind : Frame → Kind
  | hello _ => .hello
  | ping _ => .ping
  | pong _ => .pong
  | data fragment => fragment.position.kind
  | ack _ => .ack
  | pipe _ _ => .pipe

/-- The kind byte and the fixed fields. -/
def header : Frame → Bytes
  | hello _ => [Kind.hello.byte]
  | ping _ => [Kind.ping.byte]
  | pong _ => [Kind.pong.byte]
  | data fragment => fragment.header
  | ack seq => Kind.ack.byte :: seqField seq
  | pipe id _ => [Kind.pipe.byte, id]

/-- What follows the header, to the end of the datagram. -/
def body : Frame → Bytes
  | hello token => token
  | ping nonce => nonce.bytes
  | pong nonce => nonce.bytes
  | data fragment => fragment.payload
  | ack _ => []
  | pipe _ payload => payload

/-- Writes the frame after what a buffer already holds. -/
def encodeInto (buffer : Bytes) (f : Frame) : Bytes := (buffer ++ f.header) ++ f.body

/-- The datagram that carries the frame. -/
def encode (f : Frame) : Bytes := f.header ++ f.body

/-- Bytes after the header. -/
def bodyLength : Frame → Nat
  | hello token => token.length
  | ping _ | pong _ => nonceSize
  | data fragment => fragment.payload.length
  | ack _ => 0
  | pipe _ payload => payload.length

/-- Bytes on the wire. -/
def wireLength (f : Frame) : Nat := f.kind.headerSize + f.bodyLength

@[simp] theorem length_header (f : Frame) : f.header.length = f.kind.headerSize := by
  cases f with
  | data fragment => exact fragment.length_header
  | _ => simp [header, kind, Kind.headerSize, seqField, seqHeaderSize, kindSize, seqSize,
      pipeHeaderSize]

@[simp] theorem length_body (f : Frame) : f.body.length = f.bodyLength := by
  cases f with
  | ping nonce | pong nonce => exact nonce.length_bytes
  | _ => rfl

/-- What is written is as long as the table of lengths says. -/
theorem length_encode (f : Frame) : f.encode.length = f.wireLength := by
  rw [encode, List.length_append, length_header, length_body, wireLength]

end Frame

end DatagramTunnel.Wire
