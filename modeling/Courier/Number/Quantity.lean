/-!
The arithmetic that waits and delays are computed with. The operations are those of machine
floats, where one operand of a comparison may be undefined; an undefined operand gives way.
-/

namespace Courier

class Quantity (F : Type) where
  ofInt : Int → F
  add : F → F → F
  sub : F → F → F
  mul : F → F → F
  div : F → F → F
  lt : F → F → Bool
  le : F → F → Bool
  /-- The larger of two. -/
  atLeast : F → F → F
  /-- The smaller of two. -/
  atMost : F → F → F
  /-- The nearest whole number, a half going away from zero, held within 64 signed bits. -/
  nearest : F → Int

namespace Quantity

variable {F : Type} [Quantity F]

def zero : F := ofInt 0

def one : F := ofInt 1

/-- `x` between `low` and `high`; an undefined `x` stays. -/
def between (low high x : F) : F :=
  let x := if lt x low then low else x
  if lt high x then high else x

/-- Repeated squaring: `acc * x ^ n`. -/
def powFrom (acc x : F) (n : Nat) : F :=
  let acc := if n % 2 = 1 then mul acc x else acc
  if n / 2 = 0 then acc else powFrom acc (mul x x) (n / 2)
termination_by n
decreasing_by omega

def pow (x : F) (n : Nat) : F := powFrom one x n

end Quantity

/-- A whole number as a float, rounded to the nearest. -/
def floatOfInt (n : Int) : Float :=
  if n < 0 then -Float.ofNat n.natAbs else Float.ofNat n.natAbs

/-- The magnitude `m * 2 ^ e` as a whole number, a half going up. -/
def wholeMagnitude (m : Nat) (e : Int) : Nat :=
  if 0 ≤ e then m * Nat.pow 2 e.toNat
  else (m + Nat.pow 2 ((-e).toNat - 1)) / Nat.pow 2 (-e).toNat

/-- The whole number nearest to a float, a half going away from zero; an undefined one is zero. -/
def wholeOfFloat (x : Float) : Int :=
  let n : Int := match x.toModel.unpack with
    | .notANumber | .zero _ => 0
    | .infinity s => s.apply 9223372036854775808
    | .finite s m e _ => s.apply (wholeMagnitude m e)
  max (-9223372036854775808) (min 9223372036854775807 n)

/-- The magnitude `m * 2 ^ e` as a whole number, rounded up. -/
def wholeAbove (m : Nat) (e : Int) : Nat :=
  if 0 ≤ e then m * Nat.pow 2 e.toNat
  else (m + (Nat.pow 2 (-e).toNat - 1)) / Nat.pow 2 (-e).toNat

/-- The least whole number from a float on, held within 64 unsigned bits; an undefined one is
zero. -/
def ceilOfFloat (x : Float) : Nat :=
  match x.toModel.unpack with
  | .infinity .positive => 18446744073709551615
  | .finite .positive m e _ => min 18446744073709551615 (wholeAbove m e)
  | _ => 0

instance : Quantity Float where
  ofInt := floatOfInt
  add := (· + ·)
  sub := (· - ·)
  mul := (· * ·)
  div := (· / ·)
  lt := (· < ·)
  le := (· ≤ ·)
  atLeast a b := if a.isNaN then b else if a < b then b else a
  atMost a b := if a.isNaN then b else if b < a then b else a
  nearest := wholeOfFloat

end Courier
