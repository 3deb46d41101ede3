import DatagramTunnel.Time

/-!
# Keeping the connection alive

The first tick of a connection sends a PING and starts to wait for an answer. Another PING follows
whenever `pingInterval` has passed since the last one, every PONG starts the wait anew, and a wait
of `pongTimeout` means that the peer is gone, which is reported once.
-/

namespace DatagramTunnel.Session

/-- How far the keepalive has come. -/
inductive Watch where
  /-- No tick has come yet. -/
  | idle
  /-- PINGs go out, the latest at `lastPing`; the wait for a PONG began at `lastPong`. -/
  | active (lastPing lastPong : Nat)
  /-- The peer stopped answering. -/
  | timedOut (lastPing lastPong : Nat)
  deriving DecidableEq, Repr

/-- What a tick asks for. -/
inductive Alarm where
  /-- A PING is due. -/
  | ping
  /-- The peer has stopped answering. -/
  | timedOut
  deriving DecidableEq, Repr

structure Keepalive where
  pingInterval : Nat
  pongTimeout : Nat
  watch : Watch := .idle
  deriving DecidableEq, Repr

namespace Keepalive

/-- When the last PING went out. -/
def lastPing? (k : Keepalive) : Option Nat :=
  match k.watch with
  | .idle => none
  | .active lastPing _ | .timedOut lastPing _ => some lastPing

/-- When the present wait for a PONG began. -/
def lastPong? (k : Keepalive) : Option Nat :=
  match k.watch with
  | .idle => none
  | .active _ lastPong | .timedOut _ lastPong => some lastPong

/-- Advances to `now`. The wait is judged before the next PING. -/
def tick (k : Keepalive) (now : Nat) : Option Alarm × Keepalive :=
  match k.watch with
  | .idle => (some .ping, { k with watch := .active now now })
  | .active lastPing lastPong =>
    if k.pongTimeout ≤ elapsed now lastPong then
      (some .timedOut, { k with watch := .timedOut lastPing lastPong })
    else if k.pingInterval ≤ elapsed now lastPing then
      (some .ping, { k with watch := .active now lastPong })
    else
      (none, k)
  | .timedOut _ _ => (none, k)

/-- Starts the wait anew; a PONG before the first PING, or after the end, says nothing. -/
def heardPong (k : Keepalive) (now : Nat) : Keepalive :=
  match k.watch with
  | .active lastPing _ => { k with watch := .active lastPing now }
  | .idle | .timedOut _ _ => k

/-- Back to the state before the first tick. -/
def reset (k : Keepalive) : Keepalive := { k with watch := .idle }

end Keepalive

end DatagramTunnel.Session
