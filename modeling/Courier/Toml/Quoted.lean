import Courier.Json.Reader

/-!
Quoted text in a TOML document. Between double quotes a backslash starts an escape; between single
quotes every character stands for itself. Three quotes open a text that may go over several lines.
-/

namespace Courier.Toml

/-- Characters that may stand in a line: all but the control characters, of which only the tab. -/
def isPlain (c : Char) : Bool := c = '\t' || (0x20 ≤ c.toNat && c.toNat ≠ 0x7F)

def isGap (c : Char) : Bool := c = ' ' || c = '\t'

/-- What follows a line break, if one stands here. -/
def afterBreak? : List Char → Option (List Char)
  | '\n' :: rest => some rest
  | '\x0d' :: '\n' :: rest => some rest
  | _ => none

/-- A character given by `n` hexadecimal digits. -/
def readCode (n : Nat) (cs : List Char) : Option (Char × List Char) := do
  let ds ← (cs.take n).mapM Json.hexValue?
  let code := ds.foldl (fun acc d => acc * 16 + d) 0
  if ds.length = n ∧ code.isValidChar then some (Char.ofNat code, cs.drop n) else none

/-- The character behind a backslash. -/
def readEscape : List Char → Option (Char × List Char)
  | 'b' :: rest => some ('\x08', rest)
  | 't' :: rest => some ('\t', rest)
  | 'n' :: rest => some ('\n', rest)
  | 'f' :: rest => some ('\x0c', rest)
  | 'r' :: rest => some ('\x0d', rest)
  | 'e' :: rest => some ('\x1b', rest)
  | '"' :: rest => some ('"', rest)
  | '\\' :: rest => some ('\\', rest)
  | 'x' :: rest => readCode 2 rest
  | 'u' :: rest => readCode 4 rest
  | 'U' :: rest => readCode 8 rest
  | _ => none

/-- A text in one line after its opening quote; `acc` holds its characters, last first. -/
def readLine (quote : Char) (acc : List Char) : Nat → List Char → Option (String × List Char)
  | 0, _ => none
  | _, [] => none
  | fuel + 1, c :: cs =>
    if c = quote then some (String.ofList acc.reverse, cs)
    else if c = '\\' ∧ quote = '"' then
      match readEscape cs with
      | some (e, rest) => readLine quote (e :: acc) fuel rest
      | none => none
    else if isPlain c then readLine quote (c :: acc) fuel cs
    else none

/-- What follows a backslash at the end of a line: the next character that is no blank. -/
def afterFold? (cs : List Char) : Option (List Char) :=
  (afterBreak? (cs.dropWhile isGap)).map fun rest =>
    rest.dropWhile fun c => isGap c || c = '\n' || c = '\x0d'

/-- A text over several lines after its opening quotes. Up to two quotes may stand right before the
three that close it. -/
def readLines (quote : Char) (acc : List Char) : Nat → List Char → Option (String × List Char)
  | 0, _ => none
  | _, [] => none
  | fuel + 1, c :: cs =>
    if c = quote then
      match cs with
      | d :: e :: rest =>
        if d = quote ∧ e = quote then
          let more := (rest.takeWhile (· = quote)).take 2
          some (String.ofList (more ++ acc).reverse, rest.drop more.length)
        else readLines quote (c :: acc) fuel cs
      | _ => none
    else if c = '\\' ∧ quote = '"' then
      match afterFold? cs with
      | some rest => readLines quote acc fuel rest
      | none =>
        match readEscape cs with
        | some (e, rest) => readLines quote (e :: acc) fuel rest
        | none => none
    else
      match afterBreak? (c :: cs) with
      | some rest => readLines quote (((c :: cs).take (cs.length + 1 - rest.length)).reverse ++ acc) fuel rest
      | none => if isPlain c then readLines quote (c :: acc) fuel cs else none

/-- The quoted text at the head of a text, and what follows. -/
def readQuoted (cs : List Char) : Option (String × List Char) :=
  match cs with
  | q :: rest =>
    if q ≠ '"' ∧ q ≠ '\'' then none
    else
      match rest with
      | q₂ :: q₃ :: more =>
        if q₂ = q ∧ q₃ = q then readLines q [] (more.length + 1) ((afterBreak? more).getD more)
        else readLine q [] (rest.length + 1) rest
      | _ => readLine q [] (rest.length + 1) rest
  | [] => none

end Courier.Toml
