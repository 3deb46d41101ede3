import DatagramTunnel.Bytes

/-!
# The value of a binary64 number

A double is not a number, an infinity, or a sign with a magnitude `significand * 2 ^ exponent`.
`ofFloat` reads these parts off the bits and `Binary64.rational?` is the value as a rational.
`Binary64.nearestInt` rounds a scaled magnitude to an integer, a half going to the even neighbour.
-/

namespace DatagramTunnel

/-- What the bits of a double stand for. -/
inductive Binary64 where
  /-- Not a number. -/
  | nan
  /-- An infinity. -/
  | infinite (negative : Bool)
  /-- The number `± significand * 2 ^ exponent`; zero keeps its sign. -/
  | finite (negative : Bool) (significand : Nat) (exponent : Int)
  deriving DecidableEq, Repr

namespace Binary64

/-- The parts of a double given as a word: sign bit, eleven exponent bits, 52 fraction bits. -/
def ofBits (word : Nat) : Binary64 :=
  let negative := 1 <<< 63 ≤ word
  let biased : Nat := (word >>> 52) % (1 <<< 11)
  let fraction : Nat := word % (1 <<< 52)
  if biased = 2047 then
    if fraction = 0 then .infinite negative else .nan
  else if biased = 0 then
    .finite negative fraction (-1074)
  else
    .finite negative ((1 <<< 52) + fraction) ((biased : Int) - 1075)

/-- The parts of a double. -/
def ofFloat (x : Float) : Binary64 := ofBits x.toBits.toNat

/-- The exact value, if there is one. -/
def rational? : Binary64 → Option Rat
  | .nan => none
  | .infinite _ => none
  | .finite negative significand exponent =>
    let magnitude : Rat := match exponent with
      | .ofNat up => ((significand <<< up : Nat) : Rat)
      | .negSucc down => mkRat significand (1 <<< (down + 1))
    some (if negative then -magnitude else magnitude)

end Binary64

/-- The integer nearest `num / den`; a half goes to the even neighbour. -/
def nearestInt (num den : Nat) : Nat :=
  let below := num / den
  let excess := 2 * (num % den)
  if excess < den then below
  else if den < excess then below + 1
  else if below % 2 = 0 then below
  else below + 1

/-- Rounding to the nearest integer moves a quotient by at most half a unit. -/
theorem nearestInt_bounds {num den : Nat} (h : 0 < den) :
    2 * num ≤ (2 * nearestInt num den + 1) * den ∧
      (2 * nearestInt num den) * den ≤ 2 * num + den := by
  have hsplit : den * (num / den) + num % den = num := Nat.div_add_mod num den
  have hmod : num % den < den := Nat.mod_lt num h
  generalize hq : num / den = q at *
  generalize hr : num % den = r at *
  have hcomm : den * q = q * den := Nat.mul_comm den q
  have key : nearestInt num den = q ∧ 2 * r ≤ den ∨ nearestInt num den = q + 1 ∧ den ≤ 2 * r := by
    unfold nearestInt
    rw [hq, hr]
    dsimp only
    split
    · exact .inl ⟨rfl, by omega⟩
    · split
      · exact .inr ⟨rfl, by omega⟩
      · split
        · exact .inl ⟨rfl, by omega⟩
        · exact .inr ⟨rfl, by omega⟩
  rcases key with ⟨hn, hb⟩ | ⟨hn, hb⟩ <;> rw [hn] <;>
    simp only [Nat.add_mul, Nat.mul_add, Nat.mul_assoc, Nat.one_mul, Nat.mul_one] <;> omega

end DatagramTunnel
