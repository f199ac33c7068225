/-!
The shortest decimal that reads back as a given binary number. A double stands for every real
that rounds to it; among the decimals with the fewest digits in that interval the nearest is
chosen.
-/

namespace Courier.Shortest

/-- A positive double as `mantissa * 2 ^ exponent`. -/
structure Binary where
  mantissa : Nat
  exponent : Int
  /-- The neighbour below is nearer than the one above. -/
  atPower : Bool

/-- The magnitude in the bits of a finite double. -/
def Binary.ofBits (bits : UInt64) : Binary :=
  let e : Nat := bits.toNat / Nat.pow 2 52 % Nat.pow 2 11
  let f : Nat := bits.toNat % Nat.pow 2 52
  if e = 0 then ⟨f, -1074, false⟩ else ⟨Nat.pow 2 52 + f, (e : Int) - 1075, f = 0 && 1 < e⟩

/-- A decimal `digits * 10 ^ exponent`. -/
structure Decimal where
  digits : Nat
  exponent : Int
deriving DecidableEq

/-- `a / b` against `c * 10 ^ p`: the two sides as whole numbers. -/
def scaled (a b c : Nat) (p : Int) : Nat × Nat :=
  if 0 ≤ p then (a, c * Nat.pow 10 p.toNat * b) else (a * Nat.pow 10 (-p).toNat, c * b)

/-- The largest `c` with `c * 10 ^ p ≤ a / b`. -/
def floorOn (a b : Nat) (p : Int) : Nat :=
  let (x, y) := scaled a b 1 p
  x / y

/-- The power of ten of the leading digit of `a / b`, which is positive. -/
def leadingPower (a b : Nat) : Int :=
  if b ≤ a then ((toString (a / b)).length : Int) - 1
  else
    let guess : Int := ((toString a).length : Int) - (toString b).length
    if floorOn a b guess = 0 then guess - 1 else guess

/-- The interval of reals that round to a double, as quotients with one denominator. -/
structure Interval where
  low : Nat
  value : Nat
  high : Nat
  den : Nat
  closed : Bool

def Interval.ofBinary (b : Binary) : Interval :=
  let up := Nat.pow 2 (b.exponent - 2).toNat
  let down := Nat.pow 2 (2 - b.exponent).toNat
  ⟨(4 * b.mantissa - if b.atPower then 1 else 2) * up, 4 * b.mantissa * up,
    (4 * b.mantissa + 2) * up, down, b.mantissa % 2 = 0⟩

/-- Whether `c * 10 ^ p` rounds to the double. -/
def Interval.contains (i : Interval) (c : Nat) (p : Int) : Bool :=
  let (l, x) := scaled i.low i.den c p
  let (h, y) := scaled i.high i.den c p
  if i.closed then l ≤ x && y ≤ h else l < x && y < h

/-- The nearest decimal of the grid `10 ^ p` in the interval. -/
def Interval.pick (i : Interval) (p : Int) : Option Decimal :=
  let c := floorOn i.value i.den p
  match i.contains c p && c ≠ 0, i.contains (c + 1) p with
  | true, true =>
    let (v, x) := scaled i.value i.den c p
    let (_, y) := scaled i.value i.den (c + 1) p
    some ⟨if v - x < y - v || (v - x = y - v && c % 2 = 0) then c else c + 1, p⟩
  | true, false => some ⟨c, p⟩
  | false, true => some ⟨c + 1, p⟩
  | false, false => none

/-- Tries one digit, then two, and so on. -/
def Interval.search (i : Interval) (lead : Int) : Nat → Nat → Decimal
  | _, 0 => ⟨floorOn i.value i.den (lead - 17), lead - 17⟩
  | n, fuel + 1 =>
    match i.pick (lead - n) with
    | some d => d
    | none => i.search lead (n + 1) fuel

/-- The shortest decimal of a finite double's magnitude; `0` for zero. -/
def ofBits (bits : UInt64) : Decimal :=
  let b := Binary.ofBits bits
  if b.mantissa = 0 then ⟨0, 0⟩
  else
    let i := Interval.ofBinary b
    i.search (leadingPower i.value i.den) 0 18

end Courier.Shortest
