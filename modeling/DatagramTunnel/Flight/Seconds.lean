import DatagramTunnel.Decimal.Binary64
import DatagramTunnel.Time

/-!
# Counting seconds

Round-trip times are averaged as numbers of seconds. `Seconds` is what the estimator asks of these
numbers beyond sum, difference and product. There are two instances: doubles, in which an endpoint
computes, and rationals, in which the same formulas hold without rounding. A number of seconds is a
duration unless it is negative, not a number, or at least `2 ^ 64`.
-/

namespace DatagramTunnel.Flight

/-- Numbers that count seconds. -/
class Seconds (α : Type) where
  /-- The number nearest to a double. -/
  ofFloat : Float → α
  /-- The seconds of a duration in nanoseconds. -/
  ofDuration : Nat → α
  /-- The duration in nanoseconds, to the nearest one. -/
  toDuration : α → Except TimeError Nat
  /-- The larger of two numbers; one that is not a number loses. -/
  larger : α → α → α

/-- Durations stay below this many seconds. -/
def maxSeconds : Nat := 1 <<< 64

/-- The duration of `significand * 2 ^ exponent` seconds, to the nearest nanosecond. -/
def durationOf (significand : Nat) (exponent : Int) : Except TimeError Nat :=
  let num := significand <<< exponent.toNat
  let den := 1 <<< (-exponent).toNat
  if maxSeconds * den ≤ num then .error .tooLargeOrNaN
  else .ok (nearestInt (num * nanosPerSecond) den)

/-- Doubles: whole seconds and the rest are converted apart and added, so a duration may be rounded
twice. -/
instance : Seconds Float where
  ofFloat x := x
  ofDuration d := Float.ofNat (d / nanosPerSecond) + Float.ofNat (d % nanosPerSecond) / 1e9
  toDuration x :=
    match Binary64.ofFloat x with
    | .nan => .error .tooLargeOrNaN
    | .infinite negative => .error (if negative then .negative else .tooLargeOrNaN)
    | .finite negative significand exponent =>
      if negative && significand != 0 then .error .negative else durationOf significand exponent
  larger x y := if x.isNaN then y else if y.isNaN then x else if x < y then y else x

/-- Rationals: nothing is rounded until a number becomes a duration again. -/
instance : Seconds Rat where
  ofFloat x := (Binary64.ofFloat x).rational?.getD 0
  ofDuration d := mkRat d nanosPerSecond
  toDuration q :=
    if q < 0 then .error .negative
    else if (maxSeconds : Rat) ≤ q then .error .tooLargeOrNaN
    else .ok (nearestInt (q.num.toNat * nanosPerSecond) q.den)
  larger p q := if p < q then q else p

end DatagramTunnel.Flight
