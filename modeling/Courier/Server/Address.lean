import Courier.Json.Reader

/-!
Socket addresses: four octets or eight groups of sixteen bits, and a port. Groups are written in
lower case, the longest run of zero groups as a double colon.
-/

namespace Courier

inductive HostAddress where
  | v4 (octets : List Nat)
  /-- Eight groups, with the zone that they are valid in. -/
  | v6 (groups : List Nat) (zone : Nat)
deriving DecidableEq

structure Address where
  host : HostAddress
  port : Nat
deriving DecidableEq

namespace Address

def afterMark? (c : Char) : List Char → Option (List Char)
  | d :: rest => if d = c then some rest else none
  | [] => none

/-- A decimal number up to `most`, with or without leading zeros. -/
def takeNumber? (most : Nat) (cs : List Char) : Option (Nat × List Char) :=
  let ds := cs.takeWhile Decimal.isDigit
  if ds.isEmpty || most < Decimal.value ds then none
  else some (Decimal.value ds, cs.dropWhile Decimal.isDigit)

/-- An octet, without leading zeros. -/
def takeOctet? (cs : List Char) : Option (Nat × List Char) :=
  match cs with
  | '0' :: d :: _ => if Decimal.isDigit d then none else takeNumber? 255 cs
  | _ => takeNumber? 255 cs

/-- `n` octets more, each after a point. -/
def takeMoreOctets? : Nat → List Char → Option (List Nat × List Char)
  | 0, cs => some ([], cs)
  | n + 1, cs => do
    let (a, rest) ← takeOctet? (← afterMark? '.' cs)
    let (as, rest) ← takeMoreOctets? n rest
    some (a :: as, rest)

def takeOctets? (cs : List Char) : Option (List Nat × List Char) := do
  let (a, rest) ← takeOctet? cs
  let (as, rest) ← takeMoreOctets? 3 rest
  some (a :: as, rest)

/-- A group: up to four hexadecimal digits. -/
def takeGroup? (cs : List Char) : Option (Nat × List Char) :=
  let isHex := fun c => (Json.hexValue? c).isSome
  let ds := cs.takeWhile isHex
  if ds.isEmpty || 4 < ds.length then none
  else some (ds.foldl (fun n c => n * 16 + (Json.hexValue? c).getD 0) 0, cs.dropWhile isHex)

/-- Groups as they are read: up to a limit, and whether four octets stood for the last two. -/
structure Groups where
  groups : List Nat
  octets : Bool
  rest : List Char

/-- At most `limit` groups with colons between them; octets may stand for the last two. -/
def takeGroups (first : Bool) : Nat → List Char → Groups
  | 0, cs => ⟨[], false, cs⟩
  | n + 1, cs =>
    match if first then some cs else afterMark? ':' cs with
    | none => ⟨[], false, cs⟩
    | some body =>
      match if n = 0 then none else takeOctets? body with
      | some ([a, b, c, d], rest) => ⟨[a * 256 + b, c * 256 + d], true, rest⟩
      | _ =>
        match takeGroup? body with
        | none => ⟨[], false, cs⟩
        | some (g, rest) =>
          let more := takeGroups false n rest
          { more with groups := g :: more.groups }

/-- Eight groups; a double colon stands for one or more that are zero. -/
def takeV6? (cs : List Char) : Option (List Nat × List Char) :=
  let head := takeGroups true 8 cs
  if head.groups.length = 8 then some (head.groups, head.rest)
  else if head.octets then none
  else
    match head.rest with
    | ':' :: ':' :: rest =>
      let tail := takeGroups true (7 - head.groups.length) rest
      let zeros := List.replicate (8 - head.groups.length - tail.groups.length) 0
      some (head.groups ++ zeros ++ tail.groups, tail.rest)
    | _ => none

/-- A zone after a percent sign, zero if there is none. -/
def takeZone? : List Char → Option (Nat × List Char)
  | '%' :: rest => takeNumber? (Nat.pow 2 32 - 1) rest
  | cs => some (0, cs)

def takeHost? (cs : List Char) : Option (HostAddress × List Char) :=
  match cs with
  | '[' :: rest => do
    let (groups, rest) ← takeV6? rest
    let (zone, rest) ← takeZone? rest
    some (.v6 groups zone, ← afterMark? ']' rest)
  | _ => (takeOctets? cs).map fun (octets, rest) => (.v4 octets, rest)

def ofText? (s : String) : Option Address := do
  let (host, rest) ← takeHost? s.toList
  match ← takeNumber? 65535 (← afterMark? ':' rest) with
  | (port, []) => some ⟨host, port⟩
  | _ => none

def hexDigit (n : Nat) : Char :=
  if n < 10 then Decimal.digitChar n else Char.ofNat ('a'.toNat + (n - 10))

/-- A group without leading zeros. -/
def groupText (g : Nat) : String :=
  let ds := [g / 4096 % 16, g / 256 % 16, g / 16 % 16].dropWhile (· = 0)
  String.ofList ((ds ++ [g % 16]).map hexDigit)

/-- The first of the longest runs of zeros: where it starts and how long it is. -/
def longestZeros (gs : List Nat) : Nat × Nat :=
  (List.range gs.length).foldl (fun (start, size) i =>
    let n := ((gs.drop i).takeWhile (· = 0)).length
    if size < n then (i, n) else (start, size)) (0, 0)

def joined (gs : List Nat) : String := ":".intercalate (gs.map groupText)

def octetsText (octets : List Nat) : String :=
  ".".intercalate (octets.map fun n => String.ofList (Decimal.ofNat n))

def groupsText (gs : List Nat) : String :=
  match gs with
  | [0, 0, 0, 0, 0, 0xffff, a, b] =>
    "::ffff:" ++ octetsText [a / 256, a % 256, b / 256, b % 256]
  | _ =>
    let (start, size) := longestZeros gs
    if size ≤ 1 then joined gs
    else joined (gs.take start) ++ "::" ++ joined (gs.drop (start + size))

def hostText : HostAddress → String
  | .v4 octets => octetsText octets
  | .v6 groups zone =>
    let mark := if zone = 0 then "" else "%" ++ String.ofList (Decimal.ofNat zone)
    "[" ++ groupsText groups ++ mark ++ "]"

def toText (a : Address) : String :=
  hostText a.host ++ ":" ++ String.ofList (Decimal.ofNat a.port)

end Address

end Courier
