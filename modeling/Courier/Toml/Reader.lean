import Courier.Toml.Quoted
import Courier.Toml.Scalar
import Courier.Toml.Tree

/-!
Reading a TOML document: its text into lines, the lines into one value. A line break ends a line
except inside an array, an inline table or a text of several lines.
-/

namespace Courier.Toml

def skipGap (cs : List Char) : List Char := cs.dropWhile isGap

/-- Skips a comment, up to the line break that ends it. -/
def skipComment? : List Char → Option (List Char)
  | '#' :: cs =>
    let rest := cs.dropWhile isPlain
    if rest.isEmpty || (afterBreak? rest).isSome then some rest else none
  | cs => some cs

/-- Skips blanks, line breaks and comments. -/
def skipFiller? : Nat → List Char → Option (List Char)
  | 0, _ => none
  | fuel + 1, cs => do
    let rest ← skipComment? (skipGap cs)
    match afterBreak? rest with
    | some rest => skipFiller? fuel rest
    | none => some rest

/-- The end of a line: a comment may stand before it. -/
def endLine? (cs : List Char) : Option (List Char) := do
  let rest ← skipComment? (skipGap cs)
  if rest.isEmpty then some [] else afterBreak? rest

def isKeyChar (c : Char) : Bool := c.isAlphanum || c = '_' || c = '-'

/-- One part of a key, bare or quoted. -/
def readKeyPart (cs : List Char) : Option (String × List Char) :=
  match cs with
  | '"' :: '"' :: '"' :: _ => none
  | '\'' :: '\'' :: '\'' :: _ => none
  | '"' :: _ | '\'' :: _ => readQuoted cs
  | _ =>
    let part := cs.takeWhile isKeyChar
    if part.isEmpty then none else some (String.ofList part, cs.dropWhile isKeyChar)

/-- A key: its parts, joined by points. -/
def readKey : Nat → List Char → Option (List String × List Char)
  | 0, _ => none
  | fuel + 1, cs => do
    let (part, rest) ← readKeyPart (skipGap cs)
    match skipGap rest with
    | '.' :: rest => do
      let (parts, rest) ← readKey fuel rest
      some (part :: parts, rest)
    | rest => some ([part], rest)

/-- How many arrays and inline tables may stand inside one another. -/
def deepest : Nat := 80

mutual

/-- The value at the head of a text, in at most `depth` containers. -/
def readValue : Nat → Nat → List Char → Option (Json × List Char)
  | 0, _, _ => none
  | fuel + 1, depth, cs =>
    match cs with
    | '"' :: _ | '\'' :: _ => (readQuoted cs).map fun (s, rest) => (.str s, rest)
    | '[' :: rest =>
      match depth with
      | 0 => none
      | depth + 1 => readElements fuel depth [] rest
    | '\x7b' :: rest =>
      match depth with
      | 0 => none
      | depth + 1 => readPairs fuel depth [] rest
    | _ => readScalar cs

/-- The elements of an array from here on; `acc` holds those before, last first. -/
def readElements : Nat → Nat → List Json → List Char → Option (Json × List Char)
  | 0, _, _, _ => none
  | fuel + 1, depth, acc, cs => do
    match ← skipFiller? (cs.length + 1) cs with
    | ']' :: rest => some (.arr acc.reverse, rest)
    | cs =>
      let (v, rest) ← readValue fuel depth cs
      match ← skipFiller? (rest.length + 1) rest with
      | ',' :: rest => readElements fuel depth (v :: acc) rest
      | ']' :: rest => some (.arr (v :: acc).reverse, rest)
      | _ => none

/-- The entries of an inline table from here on. -/
def readPairs : Nat → Nat → Entries → List Char → Option (Json × List Char)
  | 0, _, _, _ => none
  | fuel + 1, depth, es, cs => do
    match ← skipFiller? (cs.length + 1) cs with
    | '\x7d' :: rest => some ((Node.table .opened es).toJson, rest)
    | cs =>
      let (path, rest) ← readKey (cs.length + 1) cs
      let rest ← afterChar? '=' rest
      let (v, rest) ← readValue fuel depth (skipGap rest)
      let es ← es.set? path v
      match ← skipFiller? (rest.length + 1) rest with
      | ',' :: rest => readPairs fuel depth es rest
      | '\x7d' :: rest => some ((Node.table .opened es).toJson, rest)
      | _ => none

end

/-- The line at the head of a text, up to what follows it in its line. -/
def readLineHead (cs : List Char) : Option (Line × List Char) :=
  let fuel := cs.length + 1
  match cs with
  | '[' :: '[' :: rest => do
    let (path, rest) ← readKey fuel rest
    match rest with
    | ']' :: ']' :: rest => some (.element path, rest)
    | _ => none
  | '[' :: rest => do
    let (path, rest) ← readKey fuel rest
    match rest with
    | ']' :: rest => some (.table path, rest)
    | _ => none
  | _ => do
    let (path, rest) ← readKey fuel cs
    let rest ← afterChar? '=' rest
    let (v, rest) ← readValue (2 * fuel) deepest (skipGap rest)
    some (.entry path v, rest)

/-- All lines of a text. -/
def readAllLines : Nat → List Char → Option (List Line)
  | 0, _ => none
  | fuel + 1, cs => do
    match ← skipFiller? (cs.length + 1) cs with
    | [] => some []
    | cs =>
      let (line, rest) ← readLineHead cs
      let rest ← endLine? rest
      (line :: ·) <$> readAllLines fuel rest

/-- The value of a document; a byte order mark may stand at its head. -/
def ofText? (s : String) : Option Json :=
  let cs := match s.toList with
    | '\ufeff' :: cs => cs
    | cs => cs
  (readAllLines (cs.length + 1) cs).bind ofLines?

end Courier.Toml
