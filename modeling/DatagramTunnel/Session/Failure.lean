import DatagramTunnel.Packet.Assembler
import DatagramTunnel.Session.Settings
import DatagramTunnel.Session.Transform
import DatagramTunnel.Wire.Parser

/-!
# Failures

Why a handshake fails, why an established connection goes down, and why an operation of the tunnel
is refused. Each cause has one text.
-/

namespace DatagramTunnel.Session

/-- The life of a connection. -/
inductive Phase where
  /-- The handshake is under way. -/
  | connecting
  /-- Data may flow. -/
  | established
  /-- The end has been decided, and its event waits to be taken. -/
  | closing
  | closed
  deriving DecidableEq, Repr

namespace Phase

def name : Phase → String
  | connecting => "Connecting"
  | established => "Established"
  | closing => "Closing"
  | closed => "Closed"

/-- Whether the connection has ended. -/
def isTerminal : Phase → Bool
  | connecting | established => false
  | closing | closed => true

end Phase

/-- Why a handshake did not complete. -/
inductive HandshakeFailure where
  /-- The peer presented another token. -/
  | tokenMismatch
  /-- No HELLO came in time. -/
  | helloTimeout
  /-- The socket stopped delivering. -/
  | socketClosed
  /-- Closed on this side. -/
  | localClose
  deriving DecidableEq, Repr

/-- A short name for logs. -/
def HandshakeFailure.code : HandshakeFailure → String
  | .tokenMismatch => "TokenMismatch"
  | .helloTimeout => "HelloTimeout"
  | .socketClosed => "SocketClosed"
  | .localClose => "LocalClose"

def HandshakeFailure.message : HandshakeFailure → String
  | tokenMismatch => "handshake token mismatch"
  | helloTimeout => "hello timeout"
  | socketClosed => "socket closed"
  | localClose => "closed locally"

/-- Why an established connection went down. -/
inductive Outage where
  /-- No PONG came in time. -/
  | pongTimeout
  /-- The peer broke the protocol this many times without a packet in between. -/
  | protocolViolations (count : Nat)
  /-- The socket stopped delivering. -/
  | socketClosed
  /-- Closed on this side. -/
  | localClose
  deriving DecidableEq, Repr

/-- A short name for logs. -/
def Outage.code : Outage → String
  | .pongTimeout => "PongTimeout"
  | .protocolViolations count => "ProtocolViolations(" ++ toString count ++ ")"
  | .socketClosed => "SocketClosed"
  | .localClose => "LocalClose"

def Outage.message : Outage → String
  | pongTimeout => "pong timeout"
  | protocolViolations count => toString count ++ " protocol violations"
  | socketClosed => "socket closed"
  | localClose => "closed locally"

/-- The kinds of socket error. Those with a name of their own here pass: they report that an
earlier datagram was refused, or that nothing has arrived yet. -/
inductive SocketErrorKind where
  | connectionReset
  | connectionRefused
  | interrupted
  | wouldBlock
  /-- Any other kind. -/
  | lasting (name : String)
  deriving DecidableEq, Repr

namespace SocketErrorKind

def name : SocketErrorKind → String
  | connectionReset => "ConnectionReset"
  | connectionRefused => "ConnectionRefused"
  | interrupted => "Interrupted"
  | wouldBlock => "WouldBlock"
  | lasting name => name

/-- The kind with this name. -/
def ofName (name : String) : SocketErrorKind :=
  if name = "ConnectionReset" then connectionReset
  else if name = "ConnectionRefused" then connectionRefused
  else if name = "Interrupted" then interrupted
  else if name = "WouldBlock" then wouldBlock
  else lasting name

/-- Whether receiving may go on after the error. -/
def isTransient : SocketErrorKind → Bool
  | connectionReset | connectionRefused | interrupted | wouldBlock => true
  | lasting _ => false

end SocketErrorKind

/-- An error of the socket, with the text it came with. -/
structure SocketError where
  kind : SocketErrorKind
  text : String
  deriving DecidableEq, Repr

/-- Why an operation is refused, or a connection ends. -/
inductive TunnelError where
  | frame (cause : Wire.FrameError)
  | assembly (cause : Packet.AssemblyError)
  | settings (cause : SettingsError)
  | transform (cause : TransformError)
  | socket (cause : SocketError)
  /-- Data may not flow yet. -/
  | notEstablished (phase : Phase)
  | packetTooLarge (size max : Nat)
  | handshakeFailed (reason : HandshakeFailure)
  | closed

namespace TunnelError

/-- A short name for logs: what failed, and after a point which fault it was. -/
def code : TunnelError → String
  | .frame cause => "Frame." ++ cause.code
  | .assembly cause => "Reassembly." ++ cause.code
  | .settings cause => "Config." ++ cause.code
  | .transform _ => "Transform"
  | .socket cause => "Io." ++ cause.kind.name
  | .notEstablished phase => "NotEstablished." ++ phase.name
  | .packetTooLarge _ _ => "PacketTooLarge"
  | .handshakeFailed reason => "HandshakeFailed." ++ reason.code
  | .closed => "ConnectionClosed"

def message : TunnelError → String
  | frame cause => "frame error: " ++ cause.message
  | assembly cause => "reassembly error: " ++ cause.message
  | settings cause => "invalid configuration: " ++ cause.message
  | transform cause => cause.message
  | socket cause => "i/o error: " ++ cause.text
  | notEstablished phase => "connection not established (phase " ++ phase.name ++ ")"
  | packetTooLarge size max =>
    "packet of " ++ toString size ++ " bytes exceeds limit of " ++ toString max
  | handshakeFailed reason => "handshake failed: " ++ reason.message
  | closed => "connection closed"

/-- The text of the error that this one wraps. The text of a failed transform is its own. -/
def source? : TunnelError → Option String
  | frame cause => some cause.message
  | assembly cause => some cause.message
  | settings cause => some cause.message
  | socket cause => some cause.text
  | transform _ | notEstablished _ | packetTooLarge _ _ | handshakeFailed _ | closed => none

/-- Whether the datagram behind the error is dropped without an answer. -/
def isSilentDrop : TunnelError → Bool
  | frame _ => true
  | _ => false

/-- Whether the peer broke the protocol, which the connection survives a number of times. -/
def isProtocolViolation : TunnelError → Bool
  | assembly _ | transform _ => true
  | _ => false

/-- Whether the connection is over. -/
def isFatal : TunnelError → Bool
  | socket _ | handshakeFailed _ | closed => true
  | _ => false

end TunnelError

/-- What the application is told. -/
inductive Event where
  /-- The handshake is complete. -/
  | up
  /-- The handshake failed, and the connection is over. -/
  | failed (reason : HandshakeFailure)
  /-- The established connection is over. -/
  | down (reason : Outage)
  /-- A packet arrived. -/
  | packet (content : Bytes)
  /-- A raw datagram arrived on pipe `id`. -/
  | raw (id : UInt8) (content : Bytes)
  deriving DecidableEq, Repr

end DatagramTunnel.Session
