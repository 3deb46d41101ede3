import DatagramTunnel.Flight.Seconds

/-!
# Round-trip times

The mean of the round-trip time and the mean of its square are averages in which a sample counts
`decay` and what came before it the rest. The retransmit timeout is a multiple of the mean, but
never below a floor, and the endpoint wakes up a few times per timeout.
-/

namespace DatagramTunnel.Flight

/-- A running estimate of the round-trip time, in seconds. -/
structure RoundTrip (α : Type) where
  mean : α
  meanSquare : α
  /-- The weight of a new sample. -/
  decay : α
  /-- The retransmit timeout as a multiple of the mean. -/
  multiplier : α
  /-- The least retransmit timeout, in nanoseconds. -/
  floor : Nat
  samples : Nat

namespace RoundTrip

/-- The part of the retransmit timeout between two ticks. -/
def tickFactor : Float := 0.3

/-- The least time between two ticks. -/
def minTickInterval : Nat := nanosPerMilli

variable {α : Type} [Add α] [Sub α] [Mul α] [Seconds α]

open Seconds

/-- An estimate before any sample: the mean is what is assumed at first. -/
def start (initial : Nat) (decay multiplier : Float) (floor : Nat) : RoundTrip α where
  mean := ofDuration initial
  meanSquare := ofDuration initial * ofDuration initial
  decay := ofFloat decay
  multiplier := ofFloat multiplier
  floor := floor
  samples := 0

/-- The estimate with one more sample. The mean square is never below the square of the mean;
rounding may not take it there. -/
def update (r : RoundTrip α) (sample : Nat) : RoundTrip α :=
  let s : α := ofDuration sample
  let keep := ofFloat 1.0 - r.decay
  let mean := keep * r.mean + r.decay * s
  { r with
    mean := mean
    meanSquare := larger (keep * r.meanSquare + r.decay * s * s) (mean * mean)
    samples := r.samples + 1 }

/-- The smoothed round-trip time. -/
def smoothed (r : RoundTrip α) : Except TimeError Nat := toDuration r.mean

/-- The variance of the round-trip time, in square seconds. -/
def variance (r : RoundTrip α) : α := larger (r.meanSquare - r.mean * r.mean) (ofFloat 0.0)

/-- How long a frame stays unacknowledged before it is sent again. -/
def timeout (r : RoundTrip α) : Except TimeError Nat := do
  let scaled ← toDuration (r.mean * r.multiplier)
  return max scaled r.floor

/-- The time between two ticks. -/
def tickInterval (r : RoundTrip α) : Except TimeError Nat := do
  let timeout ← r.timeout
  let part ← toDuration (ofFloat tickFactor * (ofDuration timeout : α))
  return max part minTickInterval

end RoundTrip

/-- The retransmit timeout is at least the floor. -/
theorem RoundTrip.floor_le_timeout {α : Type} [Mul α] [Seconds α] {r : RoundTrip α} {timeout : Nat}
    (h : r.timeout = .ok timeout) : r.floor ≤ timeout := by
  unfold RoundTrip.timeout at h
  cases hscaled : (Seconds.toDuration (r.mean * r.multiplier) : Except TimeError Nat) with
  | error cause =>
    rw [hscaled] at h
    cases h
  | ok scaled =>
    rw [hscaled] at h
    have hmax : max scaled r.floor = timeout := Except.ok.inj h
    rw [← hmax]
    exact Nat.le_max_right _ _

end DatagramTunnel.Flight
