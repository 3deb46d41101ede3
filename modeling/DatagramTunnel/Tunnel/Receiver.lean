import DatagramTunnel.Session.Failure

/-!
# The receiving side of a socket

A tunnel talks to one peer. The receiver passes on the peer's datagrams, drops those of anybody
else, survives transient socket errors and stops at the first other error, which it reports once.
-/

namespace DatagramTunnel.Tunnel

open Session

/-- The address of a socket. -/
structure Address where
  host : String
  port : Nat
  deriving DecidableEq, Repr

def Address.text (a : Address) : String := a.host ++ ":" ++ toString a.port

/-- What one receive call on the socket returns. -/
inductive Arrival where
  | datagram (sender : Address) (content : Bytes)
  | failure (kind : SocketErrorKind)
  deriving DecidableEq, Repr

/-- What the receiver passes on. -/
inductive Intake where
  /-- A datagram of the peer. -/
  | datagram (content : Bytes)
  /-- Nothing will follow. -/
  | ended
  deriving DecidableEq, Repr

/-- Filters what arrives at a socket. -/
structure Receiver where
  peer : Address
  /-- Room for one datagram; a longer one is cut. -/
  bufferSize : Nat
  stopped : Bool := false
  deriving DecidableEq, Repr

namespace Receiver

/-- Looks at one arrival: what is passed on, and the receiver afterwards. -/
def take (r : Receiver) (a : Arrival) : Option Intake × Receiver :=
  if r.stopped then (none, r)
  else
    match a with
    | .datagram sender content =>
      (if sender = r.peer then some (.datagram (content.take r.bufferSize)) else none, r)
    | .failure kind =>
      if kind.isTransient then (none, r) else (some .ended, { r with stopped := true })

end Receiver

end DatagramTunnel.Tunnel
