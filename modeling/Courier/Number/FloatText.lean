import Courier.Number.Shortest
import Courier.Text.Decimal

/-!
Floats as text. A layout says between which powers of ten a number is written positionally;
outside it has one digit before the point and an exponent.
-/

namespace Courier

/-- Where positional notation begins and ends, by the power of ten of the leading digit. -/
structure FloatLayout where
  leastPower : Int
  mostPower : Int

namespace FloatLayout

/-- Diagnostic text: positional from `1e-4` up to `1e16`. -/
def diagnostic : FloatLayout := ⟨-4, 15⟩

/-- Documents: positional from `1e-5` up to `1e16`. -/
def document : FloatLayout := ⟨-5, 15⟩

/-- Digits with a point after the first `whole` of them, and at least one on either side. -/
def positional (ds : List Char) (whole : Int) : List Char :=
  if whole ≤ 0 then '0' :: '.' :: List.replicate (-whole).toNat '0' ++ ds
  else
    let w := whole.toNat
    if ds.length ≤ w then ds ++ List.replicate (w - ds.length) '0' ++ ['.', '0']
    else ds.take w ++ '.' :: ds.drop w

def scientific (ds : List Char) (power : Int) : List Char :=
  let tail := match ds.drop 1 with
    | [] => []
    | more => '.' :: more
  ds.take 1 ++ tail ++ 'e' :: Decimal.ofInt power

def magnitude (l : FloatLayout) (d : Shortest.Decimal) : List Char :=
  if d.digits = 0 then ['0', '.', '0']
  else
    let all := Decimal.ofNat d.digits
    let ds := (all.reverse.dropWhile (· = '0')).reverse
    let power := d.exponent + all.length - 1
    if l.leastPower ≤ power ∧ power ≤ l.mostPower then positional ds (power + 1)
    else scientific ds power

def text (l : FloatLayout) (x : Float) : String :=
  if x.isNaN then "NaN"
  else
    let sign := if x.toBits.toNat ≥ Nat.pow 2 63 then ['-'] else []
    if x.isInf then String.ofList (sign ++ ['i', 'n', 'f'])
    else String.ofList (sign ++ l.magnitude (Shortest.ofBits x.toBits))

end FloatLayout

end Courier
