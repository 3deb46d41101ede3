import DatagramTunnel.Packet.Assembler
import DatagramTunnel.Packet.ReorderWindow

/-!
# From arriving frames to packets

An inlet is a reorder window in front of an assembler: each arriving frame is offered to the
window, and everything the window then releases goes to the assembler.
-/

namespace DatagramTunnel.Packet

open Wire

/-- A reorder window that feeds an assembler. -/
structure Inlet where
  window : ReorderWindow
  assembler : Assembler
  deriving DecidableEq

namespace Inlet

/-- Pushes every frame whose turn has come. -/
def settle (i : Inlet) : List Assembled × Inlet :=
  let (released, window) := i.window.drain
  let (outs, assembler) := i.assembler.pushAll released
  (outs, { window, assembler })

/-- Takes in one arriving frame: what the window says to it, and what the frames released by it led
to, one after the other. -/
def offer (i : Inlet) (f : Fragment) : Admission × List Assembled × Inlet :=
  let (admission, window) := i.window.insert f
  let (outs, i') := { i with window }.settle
  (admission, outs, i')

/-- Takes in frames one after the other. -/
def offerAll (i : Inlet) : List Fragment → List Assembled × Inlet
  | [] => ([], i)
  | f :: rest =>
    let (_, outs, i') := i.offer f
    let (others, i'') := i'.offerAll rest
    (outs ++ others, i'')

end Inlet

end DatagramTunnel.Packet
