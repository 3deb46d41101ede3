import DatagramTunnel.Network.Link
import DatagramTunnel.Session.Polling

/-!
# Two endpoints on a path

A `Duplex` joins two endpoints by one link in each direction; the far end may be missing, and then
whatever is sent to it is lost. An exchange moves datagrams at one instant until both outboxes are
empty, and a run lets time pass in equal steps, with an exchange after each.
-/

namespace DatagramTunnel.Network

open Flight Session

/-- The ends of a path. -/
inductive Side where
  | near
  | far
  deriving DecidableEq, Repr

def Side.other : Side → Side
  | near => far
  | far => near

/-- An endpoint with the link that leaves it. -/
structure Node (α σ : Type) where
  endpoint : Endpoint α σ
  link : Link := {}

/-- What is seen of a datagram on the path, or that the moving was broken off. -/
inductive Sighting where
  | sent (side : Side) (datagram : Bytes)
  | outOfRounds
  deriving DecidableEq, Repr

/-- Two ends, or one that talks to nobody. -/
structure Duplex (α σ : Type) where
  near : Node α σ
  far : Option (Node α σ)

/-- How many rounds an exchange may take. -/
def maxRounds : Nat := 1000

namespace Node

variable {α σ : Type}

/-- Takes everything out of the outbox. -/
def drain (n : Node α σ) : List Bytes × Node α σ :=
  let (datagrams, endpoint) := n.endpoint.drainOutbox
  (datagrams, { n with endpoint })

/-- Puts datagrams into the link that leaves the node: what arrives at its end. -/
def transmit (n : Node α σ) (datagrams : List Bytes) : List Bytes × Node α σ :=
  let (arriving, link) := n.link.passAll datagrams
  (arriving, { n with link })

/-- Takes every event. -/
def drainEvents (n : Node α σ) : List Event × Node α σ :=
  let (events, endpoint) := n.endpoint.drainEvents
  (events, { n with endpoint })

variable [Add α] [Sub α] [Mul α] [Seconds α]

/-- Hands datagrams to the endpoint, one after the other. -/
def receiveAll (n : Node α σ) (now : Nat) : List Bytes → Except TimeError (Node α σ)
  | [] => .ok n
  | datagram :: rest => do
    let endpoint ← n.endpoint.receive datagram now
    { n with endpoint }.receiveAll now rest

/-- Lets time pass. -/
def tick (n : Node α σ) (now : Nat) : Except TimeError (Node α σ) := do
  return { n with endpoint := ← n.endpoint.tick now }

end Node

namespace Duplex

variable {α σ : Type}

/-- The node on one side. -/
def node? (n : Duplex α σ) : Side → Option (Node α σ)
  | .near => some n.near
  | .far => n.far

/-- Puts a node on one side. -/
def place (n : Duplex α σ) (node : Node α σ) : Side → Duplex α σ
  | .near => { n with near := node }
  | .far => { n with far := some node }

/-- Takes everything out of both outboxes. -/
def drain (n : Duplex α σ) : List Bytes × List Bytes × Duplex α σ :=
  let (fromNear, near) := n.near.drain
  match n.far with
  | none => (fromNear, [], { n with near })
  | some far =>
    let (fromFar, far) := far.drain
    (fromNear, fromFar, { near, far := some far })

/-- Takes every event of both ends. -/
def drainEvents (n : Duplex α σ) : List Event × List Event × Duplex α σ :=
  let (atNear, near) := n.near.drainEvents
  match n.far with
  | none => (atNear, [], { n with near })
  | some far =>
    let (atFar, far) := far.drainEvents
    (atNear, atFar, { near, far := some far })

variable [Add α] [Sub α] [Mul α] [Seconds α]

/-- Hands datagrams to one end; they are lost if there is none. -/
def deliver (n : Duplex α σ) (side : Side) (datagrams : List Bytes) (now : Nat) :
    Except TimeError (Duplex α σ) :=
  match n.node? side with
  | none => .ok n
  | some node => do return n.place (← node.receiveAll now datagrams) side

/-- Moves datagrams over the link that leaves one end, one after the other. -/
def carry (n : Duplex α σ) (side : Side) (now : Nat) :
    List Bytes → Except TimeError (Duplex α σ)
  | [] => .ok n
  | datagram :: rest =>
    match n.node? side with
    | none => .ok n
    | some node => do
      let (arriving, node) := node.transmit [datagram]
      let n' ← (n.place node side).deliver side.other arriving now
      n'.carry side now rest

/-- Moves datagrams until both outboxes are empty, for at most `rounds` rounds. A round empties both
outboxes before it delivers anything, first what the near end sent. -/
def exchangeWithin (now : Nat) :
    Nat → Duplex α σ → Except TimeError (List Sighting × Duplex α σ)
  | 0, n => .ok ([.outOfRounds], n)
  | rounds + 1, n => do
    let (fromNear, fromFar, drained) := n.drain
    if fromNear.isEmpty && fromFar.isEmpty then return ([], drained)
    else
      let carried ← (← drained.carry .near now fromNear).carry .far now fromFar
      let (later, settled) ← exchangeWithin now rounds carried
      return (fromNear.map (.sent .near) ++ (fromFar.map (.sent .far) ++ later), settled)

/-- Moves datagrams until both outboxes are empty. -/
def exchange (n : Duplex α σ) (now : Nat) : Except TimeError (List Sighting × Duplex α σ) :=
  n.exchangeWithin now maxRounds

/-- Ticks both ends. -/
def tick (n : Duplex α σ) (now : Nat) : Except TimeError (Duplex α σ) := do
  let near ← n.near.tick now
  match n.far with
  | none => return { n with near }
  | some far => return { near, far := some (← far.tick now) }

/-- What a run showed: the datagrams on the path, and the events of each end with their instants. -/
structure Record where
  sightings : List Sighting := []
  nearEvents : List (Nat × Event) := []
  farEvents : List (Nat × Event) := []

/-- The first record followed by the second. -/
def Record.append (first second : Record) : Record where
  sightings := first.sightings ++ second.sightings
  nearEvents := first.nearEvents ++ second.nearEvents
  farEvents := first.farEvents ++ second.farEvents

/-- One instant of a run: both ends are ticked, datagrams move, and the events are taken. -/
def runInstant (n : Duplex α σ) (now : Nat) : Except TimeError (Record × Duplex α σ) := do
  let (sightings, n') ← (← n.tick now).exchange now
  let (atNear, atFar, n'') := n'.drainEvents
  return ({
    sightings
    nearEvents := atNear.map (now, ·)
    farEvents := atFar.map (now, ·) }, n'')

/-- Runs through `count` instants, `step` apart and the first one at `now`. -/
def run (now step : Nat) : Nat → Duplex α σ → Except TimeError (Record × Duplex α σ)
  | 0, n => .ok ({}, n)
  | count + 1, n => do
    let (record, n') ← n.runInstant now
    let (later, n'') ← run (now + step) step count n'
    return (record.append later, n'')

end Duplex

end DatagramTunnel.Network
