import Courier.Json.Number

/-!
Reading JSON text. The reader never fails: where the text is not JSON it leaves `broken` and stops,
and every container open at that point ends with a `broken` of its own.
-/

namespace Courier.Json

def isSpace (c : Char) : Bool := c = ' ' || c = '\n' || c = '\t' || c = '\r'

def skipSpace (cs : List Char) : List Char := cs.dropWhile isSpace

def hexValue? (c : Char) : Option Nat :=
  if Decimal.isDigit c then some (Decimal.digitValue c)
  else if 'a' ≤ c && c ≤ 'f' then some (c.toNat - 'a'.toNat + 10)
  else if 'A' ≤ c && c ≤ 'F' then some (c.toNat - 'A'.toNat + 10)
  else none

/-- Four hexadecimal digits. -/
def readUnit : List Char → Option (Nat × List Char)
  | a :: b :: c :: d :: rest => do
    let a ← hexValue? a
    let b ← hexValue? b
    let c ← hexValue? c
    let d ← hexValue? d
    some (((a * 16 + b) * 16 + c) * 16 + d, rest)
  | _ => none

/-- The character written after a backslash. -/
def readEscape : List Char → Option (Char × List Char)
  | '"' :: rest => some ('"', rest)
  | '\\' :: rest => some ('\\', rest)
  | '/' :: rest => some ('/', rest)
  | 'b' :: rest => some ('\x08', rest)
  | 'f' :: rest => some ('\x0c', rest)
  | 'n' :: rest => some ('\n', rest)
  | 'r' :: rest => some ('\r', rest)
  | 't' :: rest => some ('\t', rest)
  | 'u' :: rest => do
    let (u, rest) ← readUnit rest
    if 0xDC00 ≤ u ∧ u ≤ 0xDFFF then none
    else if 0xD800 ≤ u ∧ u ≤ 0xDBFF then
      match rest with
      | '\\' :: 'u' :: rest =>
        let (v, rest) ← readUnit rest
        if 0xDC00 ≤ v ∧ v ≤ 0xDFFF then
          some (Char.ofNat (0x10000 + (u - 0xD800) * 0x400 + (v - 0xDC00)), rest)
        else none
      | _ => none
    else some (Char.ofNat u, rest)
  | _ => none

/-- The rest of a string after its opening quote; `acc` holds its characters, last first. -/
def readString (acc : List Char) : Nat → List Char → Option (String × List Char)
  | 0, _ => none
  | _, [] => none
  | fuel + 1, c :: cs =>
    if c = '"' then some (String.ofList acc.reverse, cs)
    else if c = '\\' then
      match readEscape cs with
      | some (e, rest) => readString (e :: acc) fuel rest
      | none => none
    else if c.toNat < 0x20 then none
    else readString (c :: acc) fuel cs

/-- A value, what follows it, and whether the text broke off inside it. -/
structure Taken where
  value : Json
  rest : List Char
  cut : Bool

/-- How many containers may stand inside one another. -/
def deepest : Nat := 127

def Taken.here : Taken := ⟨.broken, [], true⟩

/-- Skips a given word. -/
def afterWord : List Char → List Char → Option (List Char)
  | [], cs => some cs
  | w :: ws, c :: cs => if w = c then afterWord ws cs else none
  | _, [] => none

def word (w : String) (value : Json) (cs : List Char) : Taken :=
  match afterWord w.toList cs with
  | some rest => ⟨value, rest, false⟩
  | none => .here

mutual

/-- The value at the head of a text, in at most `depth` containers. -/
def takeValue : Nat → Nat → List Char → Taken
  | 0, _, _ => .here
  | fuel + 1, depth, cs =>
    match skipSpace cs with
    | [] => .here
    | c :: rest =>
      if c = '"' then
        match readString [] (rest.length + 1) rest with
        | some (s, rest) => ⟨.str s, rest, false⟩
        | none => .here
      else if c = '[' then
        match depth with
        | 0 => .here
        | depth + 1 =>
          match skipSpace rest with
          | ']' :: rest => ⟨.arr [], rest, false⟩
          | rest => takeElements fuel depth [] rest
      else if c = '\x7b' then
        match depth with
        | 0 => .here
        | depth + 1 =>
          match skipSpace rest with
          | '\x7d' :: rest => ⟨.obj [], rest, false⟩
          | rest => takeMembers fuel depth [] rest
      else if c = 'n' then word "ull" .null rest
      else if c = 't' then word "rue" (.bool true) rest
      else if c = 'f' then word "alse" (.bool false) rest
      else
        match readNumber (c :: rest) with
        | some (n, rest) => ⟨n, rest, false⟩
        | none => .here

/-- The elements of an array from here on; `acc` holds those before, last first. -/
def takeElements : Nat → Nat → List Json → List Char → Taken
  | 0, _, _, _ => .here
  | fuel + 1, depth, acc, cs =>
    let t := takeValue fuel depth cs
    if t.cut then ⟨.arr (.broken :: t.value :: acc).reverse, [], true⟩
    else
      match skipSpace t.rest with
      | ']' :: rest => ⟨.arr (t.value :: acc).reverse, rest, false⟩
      | ',' :: rest => takeElements fuel depth (t.value :: acc) rest
      | _ => ⟨.arr (.broken :: t.value :: acc).reverse, [], true⟩

/-- The members of an object from here on; `acc` holds those before, last first. -/
def takeMembers : Nat → Nat → List (String × Json) → List Char → Taken
  | 0, _, _, _ => .here
  | fuel + 1, depth, acc, cs =>
    match skipSpace cs with
    | '"' :: rest =>
      match readString [] (rest.length + 1) rest with
      | none => ⟨.obj (("", .broken) :: acc).reverse, [], true⟩
      | some (key, rest) =>
        match skipSpace rest with
        | ':' :: rest =>
          let t := takeValue fuel depth rest
          if t.cut then ⟨.obj (("", .broken) :: (key, t.value) :: acc).reverse, [], true⟩
          else
            match skipSpace t.rest with
            | '\x7d' :: rest => ⟨.obj ((key, t.value) :: acc).reverse, rest, false⟩
            | ',' :: rest => takeMembers fuel depth ((key, t.value) :: acc) rest
            | _ => ⟨.obj (("", .broken) :: (key, t.value) :: acc).reverse, [], true⟩
        | _ => ⟨.obj (("", .broken) :: acc).reverse, [], true⟩
    | _ => ⟨.obj (("", .broken) :: acc).reverse, [], true⟩

end

/-- A text as a document, and whether anything but blanks follows it. -/
structure Document where
  value : Json
  trailing : Bool

def ofText (s : String) : Document :=
  let cs := s.toList
  let t := takeValue (2 * cs.length + 2) deepest cs
  ⟨t.value, !t.cut && !(skipSpace t.rest).isEmpty⟩

end Courier.Json
