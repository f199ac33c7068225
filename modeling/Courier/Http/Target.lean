import Courier.Json.Reader

/-!
Request targets: a path with an optional query, on their own or after a scheme and an authority.
Both are taken as they were sent; `percentDecode` gives the text they stand for.
-/

namespace Courier.Http

structure Target where
  path : String
  query : Option String
deriving DecidableEq

namespace Target

def isPathChar (c : Char) : Bool :=
  let n := c.toNat
  n = 0x21 || n = 0x22 || (0x24 ≤ n && n ≤ 0x3B) || n = 0x3D || (0x40 ≤ n && n ≤ 0x5F)
    || (0x61 ≤ n && n ≤ 0x7E) || 0x7F ≤ n

def isQueryChar (c : Char) : Bool :=
  let n := c.toNat
  n = 0x21 || (0x24 ≤ n && n ≤ 0x3B) || n = 0x3D || 0x3F ≤ n

/-- The query up to a fragment. -/
def readQuery (cs : List Char) : Option String :=
  let q := cs.takeWhile (· ≠ '#')
  if q.all isQueryChar then some (String.ofList q) else none

/-- A path with its query; an empty path is the root. -/
def readPath (cs : List Char) : Option Target :=
  let p := cs.takeWhile fun c => c ≠ '?' && c ≠ '#'
  let path := if p.isEmpty then "/" else String.ofList p
  if !p.all isPathChar then none
  else
    match cs.dropWhile fun c => c ≠ '?' && c ≠ '#' with
    | '?' :: rest => (readQuery rest).map fun q => ⟨path, some q⟩
    | _ => some ⟨path, none⟩

def isSchemeChar (c : Char) : Bool := c.isAlphanum || c = '+' || c = '-' || c = '.'

def longestScheme : Nat := 64

/-- What follows the scheme, if there is one. -/
def skipScheme? (cs : List Char) : Option (List Char) :=
  let s := cs.takeWhile isSchemeChar
  match cs.dropWhile isSchemeChar with
  | ':' :: '/' :: '/' :: rest => if s.isEmpty || longestScheme < s.length then none else some rest
  | _ => none

def isAuthorityChar (c : Char) : Bool := c.isAlphanum || "!$&'()*+,-.:;=@[]_~%".toList.contains c

/-- An authority in reading: open colons, brackets, and whether a percent sign came up. -/
structure Authority where
  colons : Nat
  opened : Bool
  closed : Bool
  percent : Bool

namespace Authority

def start : Authority := ⟨0, false, false, false⟩

def next (a : Authority) (c : Char) : Option Authority :=
  if c = ':' then some { a with colons := a.colons + 1 }
  else if c = '[' then if a.percent || a.opened then none else some { a with opened := true }
  else if c = ']' then
    if !a.opened || a.closed then none else some { a with closed := true, colons := 0, percent := false }
  else if c = '@' then some { a with colons := 0, percent := false }
  else if c = '%' then some { a with percent := true }
  else if isAuthorityChar c then some a
  else none

/-- Whether the characters form an authority. -/
def accepts (cs : List Char) : Bool :=
  match cs.foldl (fun a c => a.bind (·.next c)) (some start) with
  | some a => a.opened == a.closed && a.colons ≤ 1 && !a.percent && cs.getLast? != some '@'
  | none => false

end Authority

def longest : Nat := 65534

/-- Reads a target. One without a leading slash is an authority alone, and has no path, unless it
has a scheme. -/
def ofText? (s : String) : Option Target :=
  let cs := s.toList
  let isAuthority := fun c => c ≠ '/' && c ≠ '?' && c ≠ '#'
  if longest < s.utf8ByteSize then none
  else
    match cs with
    | [] => none
    | '/' :: _ => readPath cs
    | ['*'] => some ⟨"*", none⟩
    | _ =>
      match skipScheme? cs with
      | some rest =>
        let a := rest.takeWhile isAuthority
        if a.isEmpty || !Authority.accepts a then none else readPath (rest.dropWhile isAuthority)
      | none => if cs.all isAuthority && Authority.accepts cs then some ⟨"", none⟩ else none

end Target

/-- The bytes that a text with percent escapes stands for; a percent sign without two hexadecimal
digits after it stands for itself. -/
def escapedBytes : List Char → List UInt8
  | [] => []
  | '%' :: a :: b :: rest =>
    match Json.hexValue? a, Json.hexValue? b with
    | some x, some y => UInt8.ofNat (x * 16 + y) :: escapedBytes rest
    | _, _ => 0x25 :: escapedBytes (a :: b :: rest)
  | c :: rest => (String.singleton c).toUTF8.toList ++ escapedBytes rest

/-- The text behind percent escapes, if it is text. -/
def percentDecode? (s : String) : Option String :=
  String.fromUTF8? ⟨(escapedBytes s.toList).toArray⟩

/-- The fields of a query, in order; a name or value that is no text is `none`. -/
def queryFields (q : String) : List (Option String × Option String) :=
  let parts := (q.splitOn "&").filter fun p => !p.isEmpty
  parts.map fun p =>
    let cs := p.toList.map fun c => if c = '+' then ' ' else c
    let name := cs.takeWhile (· ≠ '=')
    let value := (cs.dropWhile (· ≠ '=')).drop 1
    (percentDecode? (String.ofList name), percentDecode? (String.ofList value))

end Courier.Http
