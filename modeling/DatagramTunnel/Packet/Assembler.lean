import DatagramTunnel.Wire.Frame

/-!
# Putting packets together

The assembler reads released data frames in order and returns packets. Between packets it is idle;
after a first frame it collects payloads until the last one; and after a packet that it had to
reject it skips frames until that packet ends, so each rejected packet is reported once.
-/

namespace DatagramTunnel.Packet

open Wire

/-- Why a packet, or a stray frame, is rejected. -/
inductive AssemblyError where
  /-- Another packet began before the one that starts at `seq` was complete. -/
  | interrupted (seq : UInt32)
  /-- A continuation without a packet to continue. -/
  | orphan (seq : UInt32)
  /-- The last frame came before all announced bytes had. -/
  | lengthMismatch (announced received : Nat)
  /-- The announced length is above the limit. -/
  | oversized (announced limit : Nat)
  /-- More bytes came than were announced. -/
  | overflow (announced received : Nat)
  deriving DecidableEq, Repr

/-- A short name for logs. -/
def AssemblyError.code : AssemblyError → String
  | .interrupted _ => "Interrupted"
  | .orphan _ => "Orphan"
  | .lengthMismatch _ _ => "LengthMismatch"
  | .oversized _ _ => "Oversized"
  | .overflow _ _ => "Overflow"

def AssemblyError.message : AssemblyError → String
  | interrupted seq =>
    "reassembly of packet starting at seq " ++ toString seq.toNat ++ " interrupted"
  | orphan seq => "orphan fragment seq " ++ toString seq.toNat ++ " with no open packet"
  | lengthMismatch announced received =>
    "packet length mismatch: announced " ++ toString announced ++ ", received " ++
      toString received
  | oversized announced limit =>
    "announced packet of " ++ toString announced ++ " bytes exceeds maximum " ++ toString limit
  | overflow announced received =>
    "packet overflow: announced " ++ toString announced ++ ", received at least " ++
      toString received

/-- A packet in the making. -/
structure OpenPacket where
  /-- The number of its first frame. -/
  start : UInt32
  /-- The announced length. -/
  announced : Nat
  /-- The payloads so far, the latest first. -/
  parts : List Bytes
  /-- The number of bytes so far. -/
  received : Nat
  received_eq : received = parts.flatten.length
  deriving DecidableEq

namespace OpenPacket

/-- The packet that a first frame opens. -/
def ofFirst (seq : UInt32) (announced : Nat) (payload : Bytes) : OpenPacket where
  start := seq
  announced := announced
  parts := [payload]
  received := payload.length
  received_eq := by simp

/-- The packet with one more payload. -/
def extend (p : OpenPacket) (payload : Bytes) : OpenPacket :=
  { p with
    parts := payload :: p.parts
    received := p.received + payload.length
    received_eq := by simp [p.received_eq, Nat.add_comm] }

/-- The bytes so far, in order. -/
def bytes (p : OpenPacket) : Bytes := p.parts.reverse.flatten

theorem length_bytes (p : OpenPacket) : p.bytes.length = p.received := by
  simp [bytes, p.received_eq, List.length_flatten]

end OpenPacket

/-- What the assembler is in the middle of. -/
inductive Slot where
  | idle
  | collecting (packet : OpenPacket)
  /-- Skipping the rest of a rejected packet. -/
  | discarding
  deriving DecidableEq

/-- What one frame led to: at most one packet, and the faults it revealed in order. -/
structure Assembled where
  packet : Option Bytes := none
  errors : List AssemblyError := []
  deriving DecidableEq, Repr

/-- Reads data frames and returns packets of at most `limit` announced bytes. -/
structure Assembler where
  limit : Nat
  slot : Slot := .idle
  deriving DecidableEq

namespace Assembler

/-- Whether a packet is open. -/
def isOpen (a : Assembler) : Bool := a.slot matches .collecting _

/-- Whether a rejected packet is being skipped. -/
def isDiscarding (a : Assembler) : Bool := a.slot matches .discarding

/-- The fault of dropping what is open when another packet begins. -/
def interruption (a : Assembler) : List AssemblyError :=
  match a.slot with
  | .collecting p => [.interrupted p.start]
  | .idle | .discarding => []

/-- A first frame opens its packet unless the announced length, or already the first payload, is
too long. -/
def openSlot (limit : Nat) (seq : UInt32) (announced : Nat) (payload : Bytes) :
    Slot × List AssemblyError :=
  if limit < announced then (.discarding, [.oversized announced limit])
  else if announced < payload.length then (.discarding, [.overflow announced payload.length])
  else (.collecting (.ofFirst seq announced payload), [])

/-- A continuation of the open packet, the last one or not. -/
def continueSlot (p : OpenPacket) (isLast : Bool) (payload : Bytes) : Slot × Assembled :=
  let longer := p.extend payload
  if p.announced < longer.received then
    (if isLast then .idle else .discarding,
      { errors := [.overflow p.announced longer.received] })
  else if !isLast then (.collecting longer, {})
  else if longer.received = p.announced then (.idle, { packet := some longer.bytes })
  else (.idle, { errors := [.lengthMismatch p.announced longer.received] })

/-- A frame that is neither the first nor the only one of its packet. -/
def resume (a : Assembler) (seq : UInt32) (isLast : Bool) (payload : Bytes) :
    Slot × Assembled :=
  match a.slot with
  | .idle => (.idle, { errors := [.orphan seq] })
  | .discarding => (if isLast then .idle else .discarding, {})
  | .collecting p => continueSlot p isLast payload

/-- Reads the next frame. -/
def push (a : Assembler) (f : Fragment) : Assembled × Assembler :=
  match f.position with
  | .only => ({ packet := some f.payload, errors := a.interruption }, { a with slot := .idle })
  | .first total =>
    let (slot, errors) := openSlot a.limit f.seq total.toNat f.payload
    ({ errors := a.interruption ++ errors }, { a with slot })
  | .middle =>
    let (slot, out) := a.resume f.seq false f.payload
    (out, { a with slot })
  | .last =>
    let (slot, out) := a.resume f.seq true f.payload
    (out, { a with slot })

/-- Forgets what is open. -/
def reset (a : Assembler) : Assembler := { a with slot := .idle }

/-- Reads frames one after the other. -/
def pushAll (a : Assembler) : List Fragment → List Assembled × Assembler
  | [] => ([], a)
  | f :: rest =>
    let (out, a') := a.push f
    let (outs, a'') := a'.pushAll rest
    (out :: outs, a'')

end Assembler

end DatagramTunnel.Packet
