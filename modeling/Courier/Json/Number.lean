import Courier.Json.Basic
import Courier.Text.Decimal

/-!
Numbers in JSON text. A number without point and exponent that fits 64 bits is an integer; any
other is a float, made from at most 64 bits of its digits by one multiplication or division with
a power of ten.
-/

namespace Courier.Json

/-- The largest whole number that digits are gathered into. -/
def mostDigits : Nat := Nat.pow 2 64 - 1

/-- Digits gathered while they fit: their value, how many were gathered, and what follows. -/
def gather (acc count : Nat) : List Char → Nat × Nat × List Char
  | [] => (acc, count, [])
  | c :: cs =>
    if Decimal.isDigit c then
      let next := acc * 10 + Decimal.digitValue c
      if mostDigits < next then (acc, count, c :: cs) else gather next (count + 1) cs
    else (acc, count, c :: cs)

def tenTo (n : Nat) : Float := Float.ofScientific 1 false n

/-- `significand * 10 ^ exponent`, in steps of at most `10 ^ 308`; infinite when out of range. -/
def scale (f : Float) (exponent : Int) : Nat → Float
  | 0 => f
  | fuel + 1 =>
    if exponent.natAbs ≤ 308 then
      if 0 ≤ exponent then f * tenTo exponent.natAbs else f / tenTo exponent.natAbs
    else if f == 0.0 then f
    else if 0 ≤ exponent then 1.0 / 0.0
    else scale (f / 1e308) (exponent + 308) fuel

def floatOf (negative : Bool) (significand : Nat) (exponent : Int) : Json :=
  let f := scale (Float.ofNat significand) exponent 8
  if f.isFinite then float (if negative then -f else f) else overrange

/-- The largest exponent that is read; a larger one is as good as infinite. -/
def mostExponent : Nat := Nat.pow 2 31 - 1

/-- After the `e` of an exponent. -/
def readExponent (negative : Bool) (significand : Nat) (start : Int) (cs : List Char) :
    Option (Json × List Char) :=
  let (down, cs) := match cs with
    | '+' :: rest => (false, rest)
    | '-' :: rest => (true, rest)
    | rest => (false, rest)
  let (ds, rest) := (cs.takeWhile Decimal.isDigit, cs.dropWhile Decimal.isDigit)
  if ds.isEmpty then none
  else
    let e := Decimal.value ds
    if mostExponent < e then
      if significand ≠ 0 && !down then some (overrange, rest)
      else some (float (if negative then -0.0 else 0.0), rest)
    else some (floatOf negative significand (if down then start - e else start + e), rest)

/-- What may follow the digits of a float. -/
def readTail (negative : Bool) (significand : Nat) (exponent : Int) :
    List Char → Option (Json × List Char)
  | 'e' :: cs | 'E' :: cs => readExponent negative significand exponent cs
  | cs => some (floatOf negative significand exponent, cs)

/-- After the point. -/
def readFractionDigits (negative : Bool) (significand : Nat) (start : Int) (cs : List Char) :
    Option (Json × List Char) :=
  match cs with
  | c :: _ =>
    if Decimal.isDigit c then
      let (acc, count, rest) := gather significand 0 cs
      readTail negative acc (start - count) (rest.dropWhile Decimal.isDigit)
    else none
  | [] => none

/-- A number whose digits did not fit: the rest of them count only by their number. -/
def readLong (negative : Bool) (significand : Nat) (cs : List Char) : Option (Json × List Char) :=
  let more := (cs.takeWhile Decimal.isDigit).length
  match cs.dropWhile Decimal.isDigit with
  | '.' :: rest => readFractionDigits negative significand more rest
  | rest => readTail negative significand more rest

/-- The number at the head of a text, its sign already taken. -/
def readUnsigned (negative : Bool) (cs : List Char) : Option (Json × List Char) :=
  let finish (significand : Nat) (rest : List Char) : Option (Json × List Char) :=
    match rest with
    | '.' :: rest => readFractionDigits negative significand 0 rest
    | 'e' :: rest | 'E' :: rest => readExponent negative significand 0 rest
    | rest =>
      if !negative then some (int significand, rest)
      else if 0 < significand ∧ significand ≤ Nat.pow 2 63 then some (int (-significand), rest)
      else some (float (-Float.ofNat significand), rest)
  match cs with
  | '0' :: rest =>
    match rest with
    | c :: _ => if Decimal.isDigit c then none else finish 0 rest
    | [] => finish 0 rest
  | c :: _ =>
    if Decimal.isDigit c then
      let (acc, _, rest) := gather 0 0 cs
      match rest with
      | d :: _ => if Decimal.isDigit d then readLong negative acc rest else finish acc rest
      | [] => finish acc rest
    else none
  | [] => none

def readNumber : List Char → Option (Json × List Char)
  | '-' :: cs => readUnsigned true cs
  | cs => readUnsigned false cs

end Courier.Json
