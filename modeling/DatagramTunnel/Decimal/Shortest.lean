import DatagramTunnel.Decimal.Binary64

/-!
# The shortest decimal that reads back

The reals that round to a double form an interval around its value. `Shortest.digits` looks for the
coarsest decimal grid with a point in that interval: on a grid only the two neighbours of the value
can be the nearest ones, so each grid asks two questions in exact integer arithmetic. Of two points
the nearer one is taken, and the upper one if they are equally near. `Float.plainText` writes the
result without an exponent.
-/

namespace DatagramTunnel

/-- The decimal number `digits * 10 ^ exponent`. -/
structure Decimal where
  digits : Nat
  exponent : Int
  deriving DecidableEq, Repr

namespace Shortest

/-- Up to this many significant digits are ever needed. -/
def maxDigits : Nat := 17

/-- The interval of reals that round to one double, in units of `2 ^ exponent`: the double itself
is `middle`, and the ends belong to the interval if `closed`. -/
structure Interval where
  low : Nat
  middle : Nat
  high : Nat
  closed : Bool
  exponent : Int

/-- The interval of the double `significand * 2 ^ exponent`. Its lower half is narrower when the
significand is the least of its binade, where the doubles below lie twice as dense. -/
def interval (significand : Nat) (exponent : Int) : Interval where
  low := if significand = 1 <<< 52 ∧ -1074 < exponent then 4 * significand - 1
    else 4 * significand - 2
  middle := 4 * significand
  high := 4 * significand + 2
  closed := significand % 2 = 0
  exponent := exponent - 2

/-- Factors `(grid, binary)` with which `a * 10 ^ tens` and `b * 2 ^ twos` compare as
`a * grid` and `b * binary`. -/
def scales (tens twos : Int) : Nat × Nat :=
  (Nat.pow 10 tens.toNat <<< (-twos).toNat, Nat.pow 10 (-tens).toNat <<< twos.toNat)

/-- Whether the grid point `scaled`, already multiplied by its factor, lies in the interval. -/
def Interval.holds (i : Interval) (binary scaled : Nat) : Bool :=
  if i.closed then i.low * binary ≤ scaled && scaled ≤ i.high * binary
  else i.low * binary < scaled && scaled < i.high * binary

/-- The best point of the grid of step `10 ^ tens`, if one lies in the interval. -/
def onGrid (i : Interval) (tens : Int) : Option Decimal :=
  let (grid, binary) := scales tens i.exponent
  let value := i.middle * binary
  let below := value / grid
  let lowHit := i.holds binary (below * grid)
  let highHit := i.holds binary ((below + 1) * grid)
  let pick := if lowHit && highHit then
      if value - below * grid < (below + 1) * grid - value then some below else some (below + 1)
    else if lowHit then some below
    else if highHit then some (below + 1)
    else none
  pick.map fun digits => ⟨digits, tens⟩

/-- The place of the leading digit: the least `place` with value below `10 ^ place`. The value is
positive and below `2 ^ 1024`, so the search from the largest place downwards is short enough. -/
def leadingPlace (i : Interval) : Int :=
  let places := (List.range 640).map fun (n : Nat) => (n : Int) - 330
  match places.find? fun place =>
      let (grid, binary) := scales place i.exponent
      i.middle * binary < grid with
  | some place => place
  | none => 310

/-- The digits of a positive double: the first grid with a hit, from one digit upwards. -/
def digits (significand : Nat) (exponent : Int) : Decimal :=
  let i := interval significand exponent
  let place := leadingPlace i
  let grids := (List.range maxDigits).map fun (n : Nat) => place - (n : Int) - 1
  (grids.findSome? (onGrid i)).getD ⟨i.middle, 0⟩

end Shortest

/-- The text without an exponent. Trailing zeros after the point, and a point with nothing after
it, are not written. -/
def Decimal.plain (d : Decimal) : String :=
  let text := toString d.digits
  match d.exponent with
  | .ofNat up => text ++ String.ofList (List.replicate up '0')
  | .negSucc down =>
    let places := down + 1
    let padded := List.replicate (places + 1 - text.length) '0' ++ text.toList
    let whole := padded.take (padded.length - places)
    let part := ((padded.drop (padded.length - places)).reverse.dropWhile (· == '0')).reverse
    if part.isEmpty then String.ofList whole else String.ofList (whole ++ '.' :: part)

/-- The shortest text of a double that reads back as it, never with an exponent. -/
def plainText (x : Float) : String :=
  match Binary64.ofFloat x with
  | .nan => "NaN"
  | .infinite negative => if negative then "-inf" else "inf"
  | .finite negative significand exponent =>
    let sign := if negative then "-" else ""
    if significand = 0 then sign ++ "0"
    else sign ++ (Shortest.digits significand exponent).plain

end DatagramTunnel
