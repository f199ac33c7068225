import Courier.Text.Diagnostic
import Courier.Json.Reader

/-!
Identifiers: 128-bit numbers, written as 32 hexadecimal digits in groups of 8, 4, 4, 4 and 12. New
ones come from a supply in ascending order.
-/

namespace Courier

structure Uuid where
  value : Nat
  bound : value < Nat.pow 2 128
deriving DecidableEq

namespace Uuid

instance : LE Uuid := ⟨fun a b => a.value ≤ b.value⟩
instance : LT Uuid := ⟨fun a b => a.value < b.value⟩
instance (a b : Uuid) : Decidable (a ≤ b) := inferInstanceAs (Decidable (a.value ≤ b.value))
instance (a b : Uuid) : Decidable (a < b) := inferInstanceAs (Decidable (a.value < b.value))

def ofNat (n : Nat) : Uuid := ⟨n % Nat.pow 2 128, Nat.mod_lt _ (by decide)⟩

instance : Inhabited Uuid := ⟨ofNat 0⟩

/-- The lowest `n` hexadecimal digits of a number. -/
def hexDigits : Nat → Nat → List Char
  | 0, _ => []
  | n + 1, v => hexDigits n (v / 16) ++ [Diagnostic.hexDigit v]

/-- The written form, 36 characters. -/
def toChars (u : Uuid) : List Char :=
  hexDigits 8 (u.value >>> 96) ++ '-' :: hexDigits 4 (u.value >>> 80) ++
    '-' :: hexDigits 4 (u.value >>> 64) ++ '-' :: hexDigits 4 (u.value >>> 48) ++
    '-' :: hexDigits 12 u.value

def toText (u : Uuid) : String := String.ofList u.toChars

/-- The number that hexadecimal digits of either case stand for. -/
def hexNumber? (cs : List Char) : Option Nat :=
  cs.foldl (fun acc c => do
    let n ← acc
    let d ← Json.hexValue? c
    some (n * 16 + d)) (some 0)

/-- 32 digits in a row. -/
def ofDigits? (cs : List Char) : Option Uuid :=
  if cs.length = 32 then (hexNumber? cs).map ofNat else none

/-- The digits of a text with hyphens in their four places. -/
def ofHyphenated? (cs : List Char) : Option Uuid :=
  let at? (n : Nat) := cs[n]? == some '-'
  if cs.length = 36 && at? 8 && at? 13 && at? 18 && at? 23 then
    ofDigits? (cs.take 8 ++ (cs.drop 9).take 4 ++ (cs.drop 14).take 4 ++ (cs.drop 19).take 4
      ++ cs.drop 24)
  else none

/-- The contents of a text in braces. -/
def unbraced? (cs : List Char) : Option (List Char) :=
  match cs with
  | '\x7b' :: rest => if rest.getLast? = some '\x7d' then some rest.dropLast else none
  | _ => none

/-- What follows the prefix of a URN, in which case does not matter. -/
def afterUrn? (cs : List Char) : Option (List Char) :=
  if String.ofList ((cs.take 9).map Char.toLower) = "urn:uuid:" then some (cs.drop 9) else none

/-- Reads an identifier: with hyphens, bare, in braces, or as a URN. -/
def ofText? (s : String) : Option Uuid :=
  let cs := s.toList
  if cs.length = 32 then ofDigits? cs
  else if cs.length = 36 then ofHyphenated? cs
  else if cs.length = 38 then (unbraced? cs).bind ofHyphenated?
  else if cs.length = 45 then (afterUrn? cs).bind ofHyphenated?
  else none

/-- The generation scheme named in an identifier. -/
def version (u : Uuid) : Nat := (u.value >>> 76) % 16

end Uuid

/-- Names a job. -/
structure JobId where
  uuid : Uuid
deriving DecidableEq, Inhabited

/-- Names a stored result envelope. -/
structure EnvelopeId where
  uuid : Uuid
deriving DecidableEq, Inhabited

def JobId.toText (id : JobId) : String := id.uuid.toText

def EnvelopeId.toText (id : EnvelopeId) : String := id.uuid.toText

instance : LE JobId := ⟨fun a b => a.uuid ≤ b.uuid⟩
instance (a b : JobId) : Decidable (a ≤ b) := inferInstanceAs (Decidable (a.uuid ≤ b.uuid))
instance : LE EnvelopeId := ⟨fun a b => a.uuid ≤ b.uuid⟩
instance (a b : EnvelopeId) : Decidable (a ≤ b) := inferInstanceAs (Decidable (a.uuid ≤ b.uuid))

/-- A supply of identifiers that counts upward. -/
structure IdSupply where
  drawn : Nat
deriving Inhabited

namespace IdSupply

/-- The identifiers drawn are of the time-ordered kind, version 7. -/
def base : Nat := 0x01990000000070008000000000000000

def nth (n : Nat) : Uuid := Uuid.ofNat (base + n % Nat.pow 2 62)

def start : IdSupply := ⟨0⟩

def next (s : IdSupply) : Uuid := nth s.drawn

def advance (s : IdSupply) : IdSupply := ⟨s.drawn + 1⟩

end IdSupply

end Courier
