import Courier.Time.Calendar
import Courier.Text.Blank
import Courier.Text.Decimal

/-!
Timestamps as text. Written in UTC with as many fraction digits as the value needs, in threes.
Read with any offset and with the blanks between the parts that hand-written documents have.
-/

namespace Courier

structure TimeOfDay where
  date : Date
  hour : Nat
  minute : Nat
  second : Nat
  nano : Nat

namespace TimeOfDay

def ofTimestamp (t : Timestamp) : TimeOfDay :=
  let seconds := t.nanos / 1000000000
  let nano := (t.nanos % 1000000000).toNat
  let day := seconds / 86400
  let s := (seconds % 86400).toNat
  ⟨Date.ofDays day, s / 3600, s / 60 % 60, s % 60, nano⟩

/-- Years of four digits stand bare; all others carry their sign. -/
def yearText (y : Int) : List Char :=
  if 0 ≤ y ∧ y ≤ 9999 then Decimal.padded 4 y.toNat
  else (if y < 0 then '-' else '+') :: Decimal.padded 4 y.natAbs

/-- No fraction, or three, six or nine digits of it. -/
def fractionText (nano : Nat) : List Char :=
  if nano = 0 then []
  else if nano % 1000000 = 0 then '.' :: Decimal.padded 3 (nano / 1000000)
  else if nano % 1000 = 0 then '.' :: Decimal.padded 6 (nano / 1000)
  else '.' :: Decimal.padded 9 nano

def dateText (d : Date) : List Char :=
  yearText d.year ++ '-' :: Decimal.padded 2 d.month ++ '-' :: Decimal.padded 2 d.day

def clockText (t : TimeOfDay) : List Char :=
  Decimal.padded 2 t.hour ++ ':' :: Decimal.padded 2 t.minute ++ ':' :: Decimal.padded 2 t.second
    ++ fractionText t.nano

end TimeOfDay

namespace Timestamp

open TimeOfDay

/-- The interchange form, `2024-01-01T00:00:00.500Z`. -/
def toText (t : Timestamp) : String :=
  let p := ofTimestamp t
  String.ofList (dateText p.date ++ 'T' :: clockText p ++ ['Z'])

/-- The form used in messages, `2024-01-01 00:00:00.500 UTC`. -/
def toMessageText (t : Timestamp) : String :=
  let p := ofTimestamp t
  String.ofList (dateText p.date ++ ' ' :: clockText p ++ " UTC".toList)

/-- One part of a written date: a number of at most `width` digits after blanks, and the rest. -/
def readPart (width : Nat) (cs : List Char) : Option (Nat × List Char) :=
  match Decimal.takeDigits width (Blank.trimStart cs) with
  | ([], _) => none
  | (ds, rest) => some (Decimal.value ds, rest)

/-- A year: four digits at most, or a sign and any number of them. -/
def readYear (cs : List Char) : Option (Int × List Char) :=
  match Blank.trimStart cs with
  | '-' :: rest =>
    match Decimal.takeDigits rest.length rest with
    | ([], _) => none
    | (ds, rest) => some (-(Decimal.value ds : Int), rest)
  | '+' :: rest =>
    match Decimal.takeDigits rest.length rest with
    | ([], _) => none
    | (ds, rest) => some ((Decimal.value ds : Int), rest)
  | cs => (readPart 4 cs).map fun (n, rest) => ((n : Int), rest)

/-- A separator, which blanks may precede. -/
def readMark (c : Char) (cs : List Char) : Option (List Char) :=
  match Blank.trimStart cs with
  | d :: rest => if d = c then some rest else none
  | [] => none

/-- A fraction of a second in nanoseconds; digits after the ninth are dropped. -/
def readFraction : List Char → Option (Nat × List Char)
  | '.' :: cs =>
    match Decimal.takeDigits 9 cs with
    | ([], _) => none
    | (ds, rest) =>
      some (Decimal.value ds * Nat.pow 10 (9 - ds.length), rest.dropWhile Decimal.isDigit)
  | cs => some (0, cs)

/-- Exactly two digits. -/
def readTwo : List Char → Option (Nat × List Char)
  | a :: b :: rest =>
    if Decimal.isDigit a && Decimal.isDigit b then some (Decimal.value [a, b], rest) else none
  | _ => none

/-- The minutes of an offset, after a colon or blanks or nothing. -/
def readOffsetMinutes (cs : List Char) : Option (Nat × List Char) :=
  readTwo (cs.dropWhile fun c => c = ':' || Blank.isBlank c)

/-- An offset from UTC in seconds: `Z`, `UTC`, or a sign, hours and minutes. -/
def readOffset (cs : List Char) : Option (Int × List Char) :=
  match cs with
  | 'Z' :: rest | 'z' :: rest => some (0, rest)
  | u :: t :: c :: rest =>
    if u.toUpper = 'U' && t.toUpper = 'T' && c.toUpper = 'C' then some (0, rest)
    else
      let sign : Option Int :=
        if u = '+' then some 1 else if u = '-' || u = '\u2212' then some (-1) else none
      sign.bind fun sign =>
        (readTwo (t :: c :: rest)).bind fun (hours, rest) =>
          (readOffsetMinutes rest).bind fun (minutes, rest) =>
            if minutes ≤ 59 ∧ hours < 24 then
              some (sign * ((hours * 3600 + minutes * 60 : Nat) : Int), rest)
            else none
  | _ => none

/-- Reads a written timestamp; `none` when it names no instant. -/
def ofText? (s : String) : Option Timestamp := do
  let (year, cs) ← readYear s.toList
  let cs ← readMark '-' cs
  let (month, cs) ← readPart 2 cs
  let cs ← readMark '-' cs
  let (day, cs) ← readPart 2 cs
  let cs ← match cs with
    | c :: rest => if c = 'T' || c = 't' || c = ' ' then some rest else none
    | [] => none
  let (hour, cs) ← readPart 2 cs
  let cs ← readMark ':' cs
  let (minute, cs) ← readPart 2 cs
  let cs ← readMark ':' cs
  let (second, cs) ← readPart 2 cs
  let (nano, cs) ← readFraction cs
  let (offset, cs) ← readOffset (Blank.trimStart cs)
  if !(Blank.trimStart cs).isEmpty then none
  let date ← Date.ofParts? year month day
  if hour ≤ 23 ∧ minute ≤ 59 ∧ second ≤ 60 then
    let seconds := date.toDays * 86400 + ((hour * 3600 + minute * 60 + second : Nat) : Int)
    let _ ← ofNanos? (seconds * 1000000000 + nano)
    ofNanos? ((seconds - offset) * 1000000000 + nano)
  else none

end Timestamp

end Courier
