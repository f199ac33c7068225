import Courier.Json.Reader
import Courier.Time.Calendar

/-!
Values of a TOML document that stand without quotes: booleans, whole numbers in four bases, floats,
dates and times. Each is one run of characters; a date may have a time after a single blank.
-/

namespace Courier.Toml

/-- Digits in groups, a single underscore between two groups. -/
def grouped? (isDigit : Char → Bool) : List Char → Option (List Char)
  | [] => none
  | [c] => if isDigit c then some [c] else none
  | c :: '_' :: rest => if isDigit c then (c :: ·) <$> grouped? isDigit rest else none
  | c :: rest => if isDigit c then (c :: ·) <$> grouped? isDigit rest else none

/-- Whether a character is a digit of a base up to sixteen. -/
def isDigitOf (base : Nat) (c : Char) : Bool := (Json.hexValue? c).any fun d => d < base

def valueIn (base : Nat) (ds : List Char) : Nat :=
  ds.foldl (fun n c => n * base + (Json.hexValue? c).getD 0) 0

/-- Decimal digits without a leading zero. -/
def decimalDigits? (cs : List Char) : Option (List Char) :=
  match grouped? Decimal.isDigit cs with
  | some ('0' :: d :: ds) => if (d :: ds).isEmpty then some ['0'] else none
  | ds => ds

/-- A whole number. One that needs more than 64 bits fits no field, and one that needs more than
128 bits is not read at all. -/
def ofWhole? (n : Int) : Option Json :=
  if -(Nat.pow 2 63) ≤ n ∧ n < Nat.pow 2 64 then some (.int n)
  else if -(Nat.pow 2 127) ≤ n ∧ n < Nat.pow 2 128 then some .overrange
  else none

def whole? : List Char → Option Json
  | '0' :: 'x' :: ds => do ofWhole? (valueIn 16 (← grouped? (isDigitOf 16) ds))
  | '0' :: 'o' :: ds => do ofWhole? (valueIn 8 (← grouped? (isDigitOf 8) ds))
  | '0' :: 'b' :: ds => do ofWhole? (valueIn 2 (← grouped? (isDigitOf 2) ds))
  | '-' :: ds => do ofWhole? (-(Decimal.value (← decimalDigits? ds) : Int))
  | '+' :: ds => do ofWhole? (Decimal.value (← decimalDigits? ds))
  | ds => do ofWhole? (Decimal.value (← decimalDigits? ds))

/-- `significand * 10 ^ exponent`, which has to be finite. -/
def scaled? (significand : Nat) (exponent : Int) : Option Float :=
  let size := exponent + (Decimal.ofNat significand).length
  if significand = 0 ∨ size < -400 then some 0.0
  else if 400 < size then none
  else
    let x := Float.ofScientific significand (decide (exponent < 0)) exponent.natAbs
    if x.isFinite then some x else none

/-- An exponent with its sign. -/
def exponent? (cs : List Char) : Option Int :=
  match cs with
  | '-' :: ds => (grouped? Decimal.isDigit ds).map fun ds => -(Decimal.value ds : Int)
  | '+' :: ds => (grouped? Decimal.isDigit ds).map fun ds => (Decimal.value ds : Int)
  | ds => (grouped? Decimal.isDigit ds).map fun ds => (Decimal.value ds : Int)

def isExponentMark (c : Char) : Bool := c = 'e' || c = 'E'

/-- A float without sign: a fraction, an exponent or both follow its whole part. -/
def magnitude? (cs : List Char) : Option Float :=
  match cs with
  | ['i', 'n', 'f'] => some (1.0 / 0.0)
  | ['n', 'a', 'n'] => some (0.0 / 0.0)
  | _ => do
    let isEnd := fun c => c = '.' || isExponentMark c
    let whole ← decimalDigits? (cs.takeWhile fun c => !isEnd c)
    match cs.dropWhile fun c => !isEnd c with
    | '.' :: rest =>
      let fraction ← grouped? Decimal.isDigit (rest.takeWhile fun c => !isExponentMark c)
      let exponent ← match rest.dropWhile fun c => !isExponentMark c with
        | _ :: e => exponent? e
        | [] => some 0
      scaled? (Decimal.value (whole ++ fraction)) (exponent - fraction.length)
    | _ :: e => do scaled? (Decimal.value whole) (← exponent? e)
    | [] => none

def float? : List Char → Option Json
  | '-' :: cs => (magnitude? cs).map fun x => .float (-x)
  | '+' :: cs => (magnitude? cs).map .float
  | cs => (magnitude? cs).map .float

/-- Two digits no larger than `most`, and what follows. -/
def takeTwo? (most : Nat) : List Char → Option (List Char)
  | a :: b :: rest =>
    if Decimal.isDigit a && Decimal.isDigit b && Decimal.value [a, b] ≤ most then some rest else none
  | _ => none

def afterChar? (c : Char) : List Char → Option (List Char)
  | d :: rest => if d = c then some rest else none
  | [] => none

/-- A date of the calendar, and what follows. -/
def takeDate? (cs : List Char) : Option (List Char) :=
  match cs with
  | y₁ :: y₂ :: y₃ :: y₄ :: '-' :: m₁ :: m₂ :: '-' :: d₁ :: d₂ :: rest =>
    if [y₁, y₂, y₃, y₄, m₁, m₂, d₁, d₂].all Decimal.isDigit then
      (Date.ofParts? (Decimal.value [y₁, y₂, y₃, y₄]) (Decimal.value [m₁, m₂])
        (Decimal.value [d₁, d₂])).map fun _ => rest
    else none
  | _ => none

/-- Hours and minutes, and seconds with a fraction if they are written. -/
def takeClock? (cs : List Char) : Option (List Char) := do
  let rest ← takeTwo? 59 (← afterChar? ':' (← takeTwo? 23 cs))
  match rest with
  | ':' :: rest =>
    let rest ← takeTwo? 60 rest
    match rest with
    | '.' :: c :: more => if Decimal.isDigit c then some (more.dropWhile Decimal.isDigit) else none
    | rest => some rest
  | rest => some rest

/-- Whether a text is an offset from UTC. -/
def isOffset : List Char → Bool
  | ['Z'] | ['z'] => true
  | c :: cs =>
    (c = '+' || c = '-') &&
      (do takeTwo? 59 (← afterChar? ':' (← takeTwo? 23 cs))) == some []
  | [] => false

/-- Whether a text is a date, a time, or both with or without an offset. -/
def isMoment (cs : List Char) : Bool :=
  match takeDate? cs with
  | some [] => true
  | some (c :: rest) =>
    (c = 'T' || c = 't' || c = ' ') &&
      (takeClock? rest).any fun offset => offset.isEmpty || isOffset offset
  | none => takeClock? cs == some []

/-- A date or time is a table with a member that no field is named for. -/
def ofMoment (cs : List Char) : Json := .obj [("$datetime", .str (String.ofList cs))]

def ofRun? (cs : List Char) : Option Json :=
  if cs = "true".toList then some (.bool true)
  else if cs = "false".toList then some (.bool false)
  else if isMoment cs then some (ofMoment cs)
  else (whole? cs).orElse fun _ => float? cs

def isRunChar (c : Char) : Bool := c.isAlphanum || "_+-:.".toList.contains c

/-- The unquoted value at the head of a text, and what follows. -/
def readScalar (cs : List Char) : Option (Json × List Char) :=
  let run := cs.takeWhile isRunChar
  let rest := cs.dropWhile isRunChar
  match rest with
  | ' ' :: d :: more =>
    if takeDate? run == some [] && Decimal.isDigit d then
      let clock := (d :: more).takeWhile isRunChar
      (ofRun? (run ++ ' ' :: clock)).map fun v => (v, (d :: more).dropWhile isRunChar)
    else (ofRun? run).map fun v => (v, rest)
  | rest => (ofRun? run).map fun v => (v, rest)

end Courier.Toml
