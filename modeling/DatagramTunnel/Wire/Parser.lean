import DatagramTunnel.Wire.Frame

/-!
# Reading frames

`Frame.decode` reads a datagram or names what is wrong with it. The faults are ordered: an empty
datagram, then a byte that is no kind, then a header that is cut short, then a body of a length
that the kind does not allow.
-/

namespace DatagramTunnel.Wire

/-- Why a datagram is not a frame. -/
inductive FrameError where
  /-- There is no kind byte. -/
  | empty
  /-- The first byte names no kind. -/
  | unknownKind (byte : UInt8)
  /-- The datagram ends within the header. -/
  | tooShort (kind : Kind) (expected actual : Nat)
  /-- The body of a PING or PONG is not one nonce. -/
  | nonceLength (actual : Nat)
  /-- Bytes follow a frame that has no body. -/
  | trailingBytes (kind : Kind) (extra : Nat)
  deriving DecidableEq, Repr

/-- The two hexadecimal digits of a byte. -/
def hexByte (b : UInt8) : String :=
  String.ofList [Nat.digitChar (b.toNat / 16), Nat.digitChar (b.toNat % 16)]

/-- A short name for logs. -/
def FrameError.code : FrameError → String
  | .empty => "Empty"
  | .unknownKind _ => "UnknownKind"
  | .tooShort _ _ _ => "TooShort"
  | .nonceLength _ => "InvalidNonceLength"
  | .trailingBytes _ _ => "TrailingBytes"

def FrameError.message : FrameError → String
  | empty => "empty datagram"
  | unknownKind byte => "unknown chunk kind: 0x" ++ hexByte byte
  | tooShort kind expected actual =>
    kind.name ++ " frame too short: expected at least " ++ toString expected ++ " bytes, got " ++
      toString actual
  | nonceLength actual =>
    "nonce must be " ++ toString nonceSize ++ " bytes, got " ++ toString actual
  | trailingBytes kind extra =>
    toString extra ++ " trailing bytes after " ++ kind.name ++ " frame"

/-- The sequence number in the bytes after the kind. -/
def readSeq (fields : Bytes) : UInt32 :=
  UInt32.ofNat (LittleEndian.decode (fields.take seqSize))

/-- The total length in the bytes after the kind and the sequence number. -/
def readTotal (fields : Bytes) : UInt32 :=
  UInt32.ofNat (LittleEndian.decode ((fields.drop seqSize).take totalSize))

/-- The nonce that makes up a whole body. -/
def readNonce (body : Bytes) : Except FrameError Nonce :=
  if h : body.length = nonceSize then .ok ⟨body, h⟩ else .error (.nonceLength body.length)

/-- Reads the frame of a known kind from the bytes after the kind byte, of which there are enough
for the header. -/
def Frame.ofFields (kind : Kind) (fields : Bytes) : Except FrameError Frame :=
  match kind with
  | .hello => .ok (.hello fields)
  | .ping => (readNonce fields).map .ping
  | .pong => (readNonce fields).map .pong
  | .only => .ok (.data ⟨readSeq fields, .only, fields.drop seqSize⟩)
  | .first =>
    .ok (.data ⟨readSeq fields, .first (readTotal fields), fields.drop (seqSize + totalSize)⟩)
  | .last => .ok (.data ⟨readSeq fields, .last, fields.drop seqSize⟩)
  | .middle => .ok (.data ⟨readSeq fields, .middle, fields.drop seqSize⟩)
  | .ack =>
    match fields.drop seqSize with
    | [] => .ok (.ack (readSeq fields))
    | extra => .error (.trailingBytes .ack extra.length)
  | .pipe =>
    match fields with
    | id :: payload => .ok (.pipe id payload)
    | [] => .error (.tooShort .pipe pipeHeaderSize kindSize)

/-- Reads one datagram. -/
def Frame.decode (datagram : Bytes) : Except FrameError Frame :=
  match datagram with
  | [] => .error .empty
  | b :: fields =>
    match Kind.ofByte? b with
    | none => .error (.unknownKind b)
    | some kind =>
      if datagram.length < kind.headerSize then
        .error (.tooShort kind kind.headerSize datagram.length)
      else
        Frame.ofFields kind fields

end DatagramTunnel.Wire
