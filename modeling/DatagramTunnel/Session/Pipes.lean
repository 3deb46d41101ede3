import DatagramTunnel.Session.Failure

/-!
# Raw pipes

Up to 256 numbered pipes share the path with the packets but bypass them: a raw datagram is sent
once, has no number and is not acknowledged.
-/

namespace DatagramTunnel.Session

open Wire

/-- Writes raw datagrams for one path and counts them in both directions. -/
structure Pipes where
  mtu : Nat
  sent : Nat := 0
  received : Nat := 0
  deriving DecidableEq, Repr

namespace Pipes

/-- The largest payload of a raw datagram. -/
def maxPayload (p : Pipes) : Nat := p.mtu - pipeHeaderSize

/-- The datagram that carries a payload on pipe `id`. -/
def outbound (p : Pipes) (id : UInt8) (payload : Bytes) : Except TunnelError (Bytes × Pipes) :=
  if p.maxPayload < payload.length then .error (.packetTooLarge payload.length p.maxPayload)
  else .ok ((Frame.pipe id payload).encode, { p with sent := p.sent + 1 })

/-- Counts an arrival. -/
def inbound (p : Pipes) : Pipes := { p with received := p.received + 1 }

end Pipes

end DatagramTunnel.Session
