import DatagramTunnel.Flight.Schedule

/-!
# The send queue

Data frames wait in the order in which they were queued until one of the `window` places in flight
is free, and stay in flight until they are acknowledged. A frame in flight is sent again, verbatim,
once the retransmit timeout has passed since its latest transmission. `SendQueue.tick` does both:
first everything overdue, then whatever the free places allow. It has no result if a deadline that
it computes is no instant; otherwise it does what `ticked` says, `tick_eq`.
-/

namespace DatagramTunnel.Flight

/-- A data frame that has not been sent yet. -/
structure Waiting where
  seq : UInt32
  /-- The encoded frame. -/
  datagram : Bytes
  deriving DecidableEq, Repr

/-- A data frame that has been sent and not been acknowledged. -/
structure Sent where
  seq : UInt32
  /-- The encoded frame, repeated verbatim by every transmission. -/
  datagram : Bytes
  firstSentAt : Nat
  lastSentAt : Nat
  /-- Counted modulo `2 ^ 32`. -/
  transmissions : UInt32
  /-- The place of the latest transmission among all transmissions. -/
  order : Nat
  deriving DecidableEq, Repr

/-- The entry of the latest transmission in the schedule. -/
def Sent.entry (f : Sent) : Entry := ⟨f.lastSentAt, f.order, f.seq⟩

/-- What one tick puts on the wire. -/
structure Emission where
  /-- Retransmissions first, then first transmissions. -/
  datagrams : List Bytes := []
  /-- How many of them are first transmissions. -/
  admitted : Nat := 0
  /-- How many of them are retransmissions. -/
  retransmitted : Nat := 0
  deriving DecidableEq, Repr

/-- Data frames on their way to the peer. -/
structure SendQueue where
  /-- The number of frames that may be in flight. -/
  window : Nat
  waiting : List Waiting := []
  /-- At most one frame for each number. -/
  inFlight : List Sent := []
  schedule : Schedule := []
  /-- The place that the next transmission gets. -/
  nextOrder : Nat := 0
  deriving DecidableEq, Repr

namespace SendQueue

/-- The frame in flight under a number. -/
def find? (q : SendQueue) (seq : UInt32) : Option Sent := q.inFlight.find? fun f => f.seq == seq

def isInFlight (q : SendQueue) (seq : UInt32) : Bool := (q.find? seq).isSome

/-- Whether every queued frame has been acknowledged. -/
def isEmpty (q : SendQueue) : Bool := q.waiting.isEmpty && q.inFlight.isEmpty

/-- Queues encoded frames for their first transmission. -/
def enqueueAll (q : SendQueue) (frames : List Waiting) : SendQueue :=
  { q with waiting := q.waiting ++ frames }

/-- Queues one encoded frame. -/
def enqueue (q : SendQueue) (seq : UInt32) (datagram : Bytes) : SendQueue :=
  q.enqueueAll [⟨seq, datagram⟩]

/-- Sends the frame numbered `seq` again. A number that is no longer in flight only uses up a place
in the order of transmissions. -/
def resend (q : SendQueue) (now : Nat) (seq : UInt32) : List Bytes × SendQueue :=
  let order := q.nextOrder
  match q.find? seq with
  | none => ([], { q with nextOrder := order + 1 })
  | some f =>
    ([f.datagram],
      { q with
        inFlight := q.inFlight.map fun g =>
          if g.seq == seq then
            { g with lastSentAt := now, transmissions := g.transmissions + 1, order := order }
          else g
        schedule := q.schedule.insert ⟨now, order, seq⟩
        nextOrder := order + 1 })

/-- Sends frames again, one after the other. -/
def resendAll (now : Nat) : List UInt32 → SendQueue → List Bytes × SendQueue
  | [], q => ([], q)
  | seq :: rest, q =>
    let (out, q') := q.resend now seq
    let (outs, q'') := resendAll now rest q'
    (out ++ outs, q'')

/-- Sends a frame for the first time. -/
def sendFirst (q : SendQueue) (now : Nat) (f : Waiting) : SendQueue :=
  let order := q.nextOrder
  { q with
    inFlight := (q.inFlight.filter fun g => !(g.seq == f.seq)) ++
      [⟨f.seq, f.datagram, now, now, 1, order⟩]
    schedule := q.schedule.insert ⟨now, order, f.seq⟩
    nextOrder := order + 1 }

/-- Sends waiting frames for the first time while there are free places. -/
def fill (now : Nat) : List Waiting → SendQueue → List Bytes × SendQueue
  | [], q => ([], { q with waiting := [] })
  | f :: rest, q =>
    if q.inFlight.length < q.window then
      let (outs, q') := fill now rest (q.sendFirst now f)
      (f.datagram :: outs, q')
    else
      ([], { q with waiting := f :: rest })

/-- Sends frames again, then fills the free places. -/
def emit (q : SendQueue) (now : Nat) (late : List UInt32) : Emission × SendQueue :=
  let (again, q₁) := resendAll now late q
  let (fresh, q₂) := fill now q₁.waiting q₁
  ({ datagrams := again ++ fresh, admitted := fresh.length, retransmitted := again.length }, q₂)

/-- Sends again whatever is overdue, then fills the free places. -/
def tick (q : SendQueue) (now timeout : Nat) : Except TimeError (Emission × SendQueue) := do
  let (due, left) ← q.schedule.takeOverdue now timeout
  return { q with schedule := left }.emit now (due.map Entry.seq)

/-- What a tick does if its deadlines are instants. -/
def ticked (q : SendQueue) (now timeout : Nat) : Emission × SendQueue :=
  { q with schedule := q.schedule.pending now timeout }.emit now
    ((q.schedule.overdue now timeout).map Entry.seq)

theorem tick_eq (q : SendQueue) (now timeout : Nat) :
    q.tick now timeout =
      if q.schedule.InReach now timeout then .ok (q.ticked now timeout)
      else .error .outOfReach := by
  rw [tick, Schedule.takeOverdue_eq]
  split <;> rfl

theorem tick_of_inReach {q : SendQueue} {now timeout : Nat} (h : q.schedule.InReach now timeout) :
    q.tick now timeout = .ok (q.ticked now timeout) := by
  rw [tick_eq, if_pos h]

theorem tick_eq_ok_iff {q : SendQueue} {now timeout : Nat} {result : Emission × SendQueue} :
    q.tick now timeout = .ok result ↔
      q.schedule.InReach now timeout ∧ result = q.ticked now timeout := by
  rw [tick_eq]
  split <;> rename_i hreach
  · exact ⟨fun h => ⟨hreach, (Except.ok.inj h).symm⟩, fun h => congrArg _ h.2.symm⟩
  · exact ⟨fun h => (by cases h), fun h => absurd h.1 hreach⟩

/-- A tick fails only because of a deadline. -/
theorem eq_outOfReach_of_tick {q : SendQueue} {now timeout : Nat} {cause : TimeError}
    (h : q.tick now timeout = .error cause) :
    cause = .outOfReach ∧ ¬ q.schedule.InReach now timeout := by
  rw [tick_eq] at h
  split at h <;> rename_i hreach
  · cases h
  · exact ⟨(Except.error.inj h).symm, hreach⟩

/-- Retires an acknowledged frame and returns the time since its first transmission. Any other
acknowledgement is unknown. -/
def acknowledge? (q : SendQueue) (seq : UInt32) (now : Nat) : Option (Nat × SendQueue) :=
  (q.find? seq).map fun f =>
    (elapsed now f.firstSentAt,
      { q with
        inFlight := q.inFlight.filter fun g => !(g.seq == seq)
        schedule := q.schedule.erase f.lastSentAt f.order })

/-- Forgets every frame. -/
def clear (q : SendQueue) : SendQueue := { q with waiting := [], inFlight := [], schedule := [] }

end SendQueue

end DatagramTunnel.Flight
