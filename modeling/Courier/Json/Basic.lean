/-!
JSON values. An object keeps its members as they were written; `normalize` gives the value they
stand for, with one member per key, in the order of the keys. A text that stops being JSON part of
the way through is read as far as it goes, and `broken` marks the place.
-/

namespace Courier

inductive Json where
  | null
  | bool (b : Bool)
  | int (n : Int)
  | float (x : Float)
  | str (s : String)
  | arr (xs : List Json)
  | obj (members : List (String × Json))
  /-- A number too large for a float. -/
  | overrange
  /-- The text is not JSON from here on. -/
  | broken
deriving Inhabited

namespace Json

/-- Sets a key of a sorted list of members. -/
def setMember (k : String) (v : Json) : List (String × Json) → List (String × Json)
  | [] => [(k, v)]
  | (k', v') :: rest =>
    if k = k' then (k, v) :: rest
    else if k < k' then (k, v) :: (k', v') :: rest
    else (k', v') :: setMember k v rest

/-- The members in the order of their keys; of two with one key the later counts. -/
def sortMembers (ms : List (String × Json)) : List (String × Json) :=
  ms.foldl (fun acc (k, v) => setMember k v acc) []

mutual

/-- The value that a document stands for. -/
def normalize : Json → Json
  | arr xs => arr (normalizeAll xs)
  | obj ms => obj (sortMembers (normalizeMembers ms))
  | j => j

def normalizeAll : List Json → List Json
  | [] => []
  | x :: xs => normalize x :: normalizeAll xs

def normalizeMembers : List (String × Json) → List (String × Json)
  | [] => []
  | (k, v) :: ms => (k, normalize v) :: normalizeMembers ms

end

mutual

/-- Whether a document was read to its end; when `ranged`, every number has to be in range. -/
def isRead (ranged : Bool) : Json → Bool
  | broken => false
  | overrange => !ranged
  | arr xs => allRead ranged xs
  | obj ms => allMembersRead ranged ms
  | _ => true

def allRead (ranged : Bool) : List Json → Bool
  | [] => true
  | x :: xs => isRead ranged x && allRead ranged xs

def allMembersRead (ranged : Bool) : List (String × Json) → Bool
  | [] => true
  | (_, v) :: ms => isRead ranged v && allMembersRead ranged ms

end

/-- A number; one that is not finite has no written form and becomes `null`. -/
def ofFloat (x : Float) : Json := if x.isFinite then float x else null

def ofNat (n : Nat) : Json := int n

def isNull : Json → Bool
  | null => true
  | _ => false

/-- The member under a key, `null` where there is none. -/
def get (j : Json) (key : String) : Json :=
  match j with
  | obj ms => (ms.lookup key).getD null
  | _ => null

/-- `null` or the value. -/
def ofOption {α : Type} (f : α → Json) : Option α → Json
  | some a => f a
  | none => null

/-- An object in the order of its keys. -/
def sorted (ms : List (String × Json)) : Json := obj (sortMembers ms)

end Json

end Courier
