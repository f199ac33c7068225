import Courier.Json.Basic
import Courier.Number.FloatText
import Courier.Text.Diagnostic

/-!
JSON as text, without blanks.
-/

namespace Courier.Json

def escapeChar (c : Char) : List Char :=
  match c with
  | '"' => ['\\', '"']
  | '\\' => ['\\', '\\']
  | '\n' => ['\\', 'n']
  | '\r' => ['\\', 'r']
  | '\t' => ['\\', 't']
  | '\x08' => ['\\', 'b']
  | '\x0c' => ['\\', 'f']
  | c =>
    if c.toNat < 0x20 then
      ['\\', 'u', '0', '0', Diagnostic.hexDigit (c.toNat / 16), Diagnostic.hexDigit c.toNat]
    else [c]

def stringText (s : String) : String := String.ofList ('"' :: s.toList.flatMap escapeChar ++ ['"'])

mutual

def toText : Json → String
  | null => "null"
  | bool b => if b then "true" else "false"
  | int n => String.ofList (Decimal.ofInt n)
  | float x => FloatLayout.document.text x
  | str s => stringText s
  | arr xs => "[" ++ String.intercalate "," (textAll xs) ++ "]"
  | obj ms => "\x7b" ++ String.intercalate "," (textMembers ms) ++ "\x7d"
  | overrange => "null"
  | broken => "null"

def textAll : List Json → List String
  | [] => []
  | x :: xs => toText x :: textAll xs

def textMembers : List (String × Json) → List String
  | [] => []
  | (k, v) :: ms => (stringText k ++ ":" ++ toText v) :: textMembers ms

end

end Courier.Json
