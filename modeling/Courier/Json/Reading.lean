import Courier.Json.Reader
import Courier.Number.Quantity

/-!
Reading domain values from JSON. A reading fails in one of two ways: the text is no JSON, or it is
JSON of the wrong shape. Of several flaws the one that stands first in the text counts.
-/

namespace Courier

/-- Why a text does not give a value. -/
inductive Flaw where
  /-- It is no JSON. -/
  | malformed
  /-- It is JSON of the wrong shape. -/
  | mismatch
deriving DecidableEq

/-- A value, or the first flaw and its place among the parts of the value. -/
inductive Reading (α : Type) where
  | ok (a : α)
  | failed (f : Flaw) (place : Nat)

namespace Reading

variable {α β : Type}

def malformed : Reading α := failed .malformed 0

def mismatch : Reading α := failed .mismatch 0

def map (f : α → β) : Reading α → Reading β
  | ok a => ok (f a)
  | failed x p => failed x p

/-- Reads both parts; of two flaws the one in the earlier place prevails. -/
def ap (f : Reading (α → β)) (x : Unit → Reading α) : Reading β :=
  match f, x () with
  | ok f, ok a => ok (f a)
  | failed x p, ok _ => failed x p
  | ok _, failed y q => failed y q
  | failed x p, failed y q => if q < p then failed y q else failed x p

instance : Functor Reading where
  map := map

instance : Applicative Reading where
  pure := ok
  seq := ap

/-- Goes on with the value read. -/
def andThen (r : Reading α) (f : α → Reading β) : Reading β :=
  match r with
  | ok a => f a
  | failed x p => failed x p

/-- The same reading as a part in a given place. -/
def inPlace (place : Nat) : Reading α → Reading α
  | ok a => ok a
  | failed x _ => failed x place

def toOption : Reading α → Option α
  | ok a => some a
  | _ => none

/-- `some` value, or a mismatch. -/
def ofOption : Option α → Reading α
  | some a => ok a
  | none => mismatch

@[simp] theorem map_ok (f : α → β) (a : α) : (f <$> ok a) = ok (f a) := rfl

@[simp] theorem seq_ok (f : α → β) (a : α) : (ok f <*> ok a) = ok (f a) := rfl

@[simp] theorem pure_eq_ok (a : α) : (pure a : Reading α) = ok a := rfl

end Reading

namespace Json

open Reading

/-- What a scalar reader says of a value it has no use for. -/
def unfit {α : Type} : Json → Reading α
  | broken | overrange => malformed
  | _ => mismatch

def readBool : Json → Reading Bool
  | bool b => ok b
  | j => unfit j

def readString? : Json → Reading String
  | str s => ok s
  | j => unfit j

/-- A whole number between two bounds. -/
def readInt (low high : Int) : Json → Reading Int
  | int n => if low ≤ n ∧ n ≤ high then ok n else mismatch
  | j => unfit j

def readNat (bits : Nat) : Json → Reading Nat
  | int n => if 0 ≤ n ∧ n < Nat.pow 2 bits then ok n.toNat else mismatch
  | j => unfit j

def readU16 : Json → Reading Nat := readNat 16

def readU32 : Json → Reading Nat := readNat 32

def readU64 : Json → Reading Nat := readNat 64

def readI64 : Json → Reading Int := readInt (-(Nat.pow 2 63)) (Nat.pow 2 63 - 1)

/-- A number of either kind. -/
def readFloat : Json → Reading Float
  | int n => ok (floatOfInt n)
  | float x => ok x
  | j => unfit j

/-- Any value, as it stands. -/
def readAny (j : Json) : Reading Json := if j.isRead true then ok j.normalize else malformed

def readOption {α : Type} (read : Json → Reading α) : Json → Reading (Option α)
  | null => ok none
  | j => some <$> read j

def readEach {α : Type} (read : Json → Reading α) : List Json → Reading (List α)
  | [] => ok []
  | x :: xs => List.cons <$> read x <*> readEach read xs

def readList {α : Type} (read : Json → Reading α) : Json → Reading (List α)
  | arr xs => readEach read xs
  | j => unfit j

def readMembers {α : Type} (read : Json → Reading α) :
    List (String × Json) → Reading (List (String × α))
  | [] => ok []
  | (k, v) :: ms => (fun a rest => (k, a) :: rest) <$> read v <*> readMembers read ms

/-- Sets a key of a sorted association list. -/
def setKey {α : Type} (k : String) (a : α) : List (String × α) → List (String × α)
  | [] => [(k, a)]
  | (k', a') :: rest =>
    if k = k' then (k, a) :: rest
    else if k < k' then (k, a) :: (k', a') :: rest
    else (k', a') :: setKey k a rest

/-- An object as a map in the order of its keys; of two members with one key the later counts. -/
def readMap {α : Type} (read : Json → Reading α) : Json → Reading (List (String × α))
  | obj ms => (fun kvs => kvs.foldl (fun acc (k, a) => setKey k a acc) []) <$> readMembers read ms
  | j => unfit j

/-- One of a few names. A name may also stand as the one key of an object, over `null`; any other
value breaks the text off. -/
def readName {α : Type} (names : List (String × α)) : Json → Reading α
  | str s => Reading.ofOption (names.lookup s)
  | obj ((s, v) :: rest) =>
    match names.lookup s with
    | none => if s = "" && v matches .broken then malformed else mismatch
    | some a =>
      match v with
      | null => if rest.isEmpty then ok a else malformed
      | v => unfit v
  | _ => malformed

/-- A record under reading: its members by name. One written as a list gives its fields by
position. -/
structure Fields where
  members : List (String × Json)
  positional : Bool

namespace Fields

/-- A field and its place, if it is written. -/
def find? (f : Fields) (name : String) : Option (Nat × Json) :=
  go 0 f.members
where
  go (n : Nat) : List (String × Json) → Option (Nat × Json)
    | [] => none
    | (k, v) :: ms => if k = name then some (n, v) else go (n + 1) ms

/-- What is missing is missed at the end. -/
def absent {α : Type} (f : Fields) : Reading α := .failed .mismatch f.members.length

/-- A field that has to be there. -/
def required {α : Type} (f : Fields) (name : String) (read : Json → Reading α) : Reading α :=
  match f.find? name with
  | some (n, j) => (read j).inPlace n
  | none => f.absent

/-- A field with a value for when it is left out. -/
def orElse {α : Type} (f : Fields) (name : String) (other : α) (read : Json → Reading α) :
    Reading α :=
  match f.find? name with
  | some (n, j) => (read j).inPlace n
  | none => ok other

/-- A field that may be `null`, or left out of a record with named members. -/
def optional {α : Type} (f : Fields) (name : String) (read : Json → Reading α) :
    Reading (Option α) :=
  match f.find? name with
  | some (n, j) => (readOption read j).inPlace n
  | none => if f.positional then f.absent else ok none

end Fields

/-- No listed name comes twice, and members under other names are JSON. -/
def checkMembers (names seen : List String) (place : Nat) : List (String × Json) → Reading Unit
  | [] => ok ()
  | (k, v) :: ms =>
    if names.contains k then
      if seen.contains k then .failed .mismatch place
      else checkMembers names (k :: seen) (place + 1) ms
    else if v.isRead false then checkMembers names seen (place + 1) ms
    else .failed .malformed place

/-- The first `names` of a list of elements, and whether there are more elements. -/
def byPosition : List String → List Json → List (String × Json) × Bool
  | _, [] => ([], false)
  | [], _ :: _ => ([], true)
  | n :: ns, x :: xs =>
    let (ms, more) := byPosition ns xs
    ((n, x) :: ms, more)

/-- Reads a record with the fields `names`. -/
def readRecord {α : Type} (names : List String) (read : Fields → Reading α) : Json → Reading α
  | obj ms =>
    ((fun a _ => a) <$> read ⟨ms, false⟩ <*> checkMembers names [] 0 ms).inPlace 0
  | arr xs =>
    let (ms, more) := byPosition names xs
    ((fun a _ => a) <$> read ⟨ms, true⟩ <*>
      (if more then .failed .malformed names.length else ok ())).inPlace 0
  | j => unfit j

/-- Reads a whole text. -/
def readText {α : Type} (read : Json → Reading α) (s : String) : Reading α :=
  let d := ofText s
  (fun a _ => a) <$> read d.value <*> (if d.trailing then malformed else ok ())

end Json

end Courier
