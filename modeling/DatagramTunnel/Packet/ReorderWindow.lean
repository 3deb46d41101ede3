import DatagramTunnel.Wire.Frame

/-!
# The reorder window

Data frames arrive in any order and are released in the order of their numbers. The window holds
the frames that arrived ahead of the cursor, at most one for each number, and admits a number only
if it is less than `size` ahead. Numbers are compared modulo `2 ^ 32`: a number less than half the
circle ahead of the cursor is ahead of it, any other is behind.
-/

namespace DatagramTunnel.Packet

open Wire

/-- What the window does with an arriving frame. -/
inductive Admission where
  /-- The frame is taken in. -/
  | accepted
  /-- A frame of this number is held, or the number lies behind the cursor. -/
  | duplicate
  /-- The number is too far ahead to be held. -/
  | outOfWindow
  deriving DecidableEq, Repr

/-- Whether the sender is told that the frame arrived: a frame that was not taken in must come
again, so it stays unacknowledged. -/
def Admission.acknowledged : Admission → Bool
  | accepted | duplicate => true
  | outOfWindow => false

/-- The receiving end of the numbered frames. -/
structure ReorderWindow where
  /-- How far ahead of the cursor a frame may be. -/
  size : Nat
  /-- The number of the next frame to release. -/
  cursor : UInt32 := 0
  /-- Frames that wait for their turn. -/
  held : List Fragment := []
  deriving DecidableEq, Repr

namespace ReorderWindow

/-- How far the number is ahead of the cursor, going upwards modulo `2 ^ 32`. -/
def ahead (w : ReorderWindow) (seq : UInt32) : Nat := (seq - w.cursor).toNat

/-- The frame held under a number. -/
def find? (w : ReorderWindow) (seq : UInt32) : Option Fragment :=
  w.held.find? fun f => f.seq == seq

/-- What an arriving number calls for. -/
def classify (w : ReorderWindow) (seq : UInt32) : Admission :=
  if 1 <<< 31 ≤ w.ahead seq then .duplicate
  else if w.size ≤ w.ahead seq then .outOfWindow
  else if (w.find? seq).isSome then .duplicate
  else .accepted

/-- Takes a frame in if its number calls for it. -/
def insert (w : ReorderWindow) (f : Fragment) : Admission × ReorderWindow :=
  match w.classify f.seq with
  | .accepted => (.accepted, { w with held := f :: w.held })
  | refusal => (refusal, w)

/-- Releases the frame at the cursor, if it has arrived. -/
def pop? (w : ReorderWindow) : Option (Fragment × ReorderWindow) :=
  (w.find? w.cursor).map fun f =>
    (f, { w with
      cursor := w.cursor + 1
      held := w.held.filter fun g => !(g.seq == w.cursor) })

/-- Forgets the frames that wait; the cursor stays. -/
def clear (w : ReorderWindow) : ReorderWindow := { w with held := [] }

/-- Releases up to `limit` frames. -/
def popMany : Nat → ReorderWindow → List Fragment × ReorderWindow
  | 0, w => ([], w)
  | limit + 1, w =>
    match w.pop? with
    | none => ([], w)
    | some (f, w') =>
      let (others, rest) := popMany limit w'
      (f :: others, rest)

/-- Releases every frame whose turn has come. Each release takes one frame from those held, so no
more than are held can follow. -/
def drain (w : ReorderWindow) : List Fragment × ReorderWindow := popMany w.held.length w

end ReorderWindow

end DatagramTunnel.Packet
