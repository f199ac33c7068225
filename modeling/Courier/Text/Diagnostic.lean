import Courier.Text.Decimal
import Courier.Text.Invisible

/-!
Values as diagnostic text: quoted strings, and records, lists and options in the notation
`Name \x7b field: value \x7d`, `[a, b]`, `Some(x)`.
-/

namespace Courier.Diagnostic

def hexDigit (n : Nat) : Char :=
  if n % 16 < 10 then Char.ofNat ('0'.toNat + n % 16) else Char.ofNat ('a'.toNat + (n % 16 - 10))

/-- A number in hexadecimal, without leading zeros. -/
def hex (n : Nat) : List Char :=
  if n < 16 then [hexDigit n] else hex (n / 16) ++ [hexDigit n]

def quotedChar (c : Char) : List Char :=
  match c with
  | '\x00' => ['\\', '0']
  | '\t' => ['\\', 't']
  | '\r' => ['\\', 'r']
  | '\n' => ['\\', 'n']
  | '"' => ['\\', '"']
  | '\\' => ['\\', '\\']
  | c => if Invisible.isInvisible c then "\\u\x7b".toList ++ hex c.toNat ++ ['\x7d'] else [c]

/-- A string between quotes, each character without a glyph as an escape. -/
def quoted (s : String) : String := String.ofList ('"' :: s.toList.flatMap quotedChar ++ ['"'])

/-- A list of texts between brackets. -/
def list (xs : List String) : String := "[" ++ String.intercalate ", " xs ++ "]"

def option : Option String → String
  | some x => "Some(" ++ x ++ ")"
  | none => "None"

/-- A map of texts between braces. -/
def map (xs : List (String × String)) : String :=
  "\x7b" ++ String.intercalate ", " (xs.map fun (k, v) => k ++ ": " ++ v) ++ "\x7d"

/-- A record under its name; one without fields is its name alone. -/
def record (name : String) (fields : List (String × String)) : String :=
  if fields.isEmpty then name
  else name ++ " \x7b " ++ String.intercalate ", " (fields.map fun (k, v) => k ++ ": " ++ v) ++ " \x7d"

def bool (b : Bool) : String := if b then "true" else "false"

end Courier.Diagnostic
