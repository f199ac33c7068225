import Courier.Json.Basic

/-!
The tables of a TOML document. A line opens a table, adds an element to a list of tables, or sets
an entry under a dotted path. No table is opened twice, and no entry is set twice; a table that
came about on the way to another may still be opened once.
-/

namespace Courier.Toml

inductive Line where
  /-- Opens the table at a path. -/
  | table (path : List String)
  /-- Adds a table to the list at a path, and opens it. -/
  | element (path : List String)
  /-- Sets an entry below the open table. -/
  | entry (path : List String) (value : Json)

/-- How a table came about. -/
inductive Origin where
  /-- It was opened by a line of its own, or is the whole document. -/
  | opened
  /-- It lies on the way to a table that was opened. -/
  | implied
  /-- It lies on the path of an entry. -/
  | dotted
deriving DecidableEq

inductive Node where
  | value (v : Json)
  | table (origin : Origin) (entries : List (String × Node))
  /-- A list of tables, those before the last in reverse. -/
  | tables (before : List (List (String × Node))) (last : List (String × Node))

abbrev Entries := List (String × Node)

namespace Entries

/-- Puts what `f` makes of the entry under a key in its place. -/
def alter? (key : String) (f : Option Node → Option Node) : Entries → Option Entries
  | [] => (f none).map fun n => [(key, n)]
  | (k, n) :: rest =>
    if k = key then (f (some n)).map fun n => (k, n) :: rest
    else (alter? key f rest).map fun rest => (k, n) :: rest

/-- Changes the table at a path. Tables that are missing come about on the way; on the path of an
entry (`along`) no table may lie that was opened. -/
def descend? (along : Bool) (f : Origin → Entries → Option Entries) :
    List String → Origin → Entries → Option Entries
  | [], origin, es => f origin es
  | key :: path, _, es =>
    es.alter? key fun
      | none =>
        let origin := if along then Origin.dotted else .implied
        (descend? along f path origin []).map (Node.table origin)
      | some (.table origin inner) =>
        if along && origin = .opened then none
        else (descend? along f path origin inner).map (Node.table origin)
      | some (.tables before last) => (descend? along f path .opened last).map (Node.tables before)
      | some (.value _) => none

def openTable? : Option Node → Option Node
  | none => some (.table .opened [])
  | some (.table .implied es) => some (.table .opened es)
  | some _ => none

def addElement? : Option Node → Option Node
  | none => some (.tables [] [])
  | some (.tables before last) => some (.tables (last :: before) [])
  | some _ => none

/-- Changes the last step of a path. -/
def atPath? (along : Bool) (path : List String) (f : Option Node → Option Node) (es : Entries) :
    Option Entries := do
  let key ← path.getLast?
  descend? along (fun origin inner =>
    if along && 1 < path.length && origin ≠ .dotted then none else inner.alter? key f)
    path.dropLast .opened es

/-- Sets an entry that is not there yet. -/
def set? (path : List String) (v : Json) (es : Entries) : Option Entries :=
  es.atPath? true path fun n => if n.isSome then none else some (.value v)

end Entries

/-- A document under construction: its tables and the path of the open one. -/
structure Tree where
  entries : Entries
  current : List String

namespace Tree

def empty : Tree := ⟨[], []⟩

def add? (t : Tree) : Line → Option Tree
  | .table path => (t.entries.atPath? false path Entries.openTable?).map fun es => ⟨es, path⟩
  | .element path => (t.entries.atPath? false path Entries.addElement?).map fun es => ⟨es, path⟩
  | .entry path v =>
    (t.entries.descend? false (fun _ inner => inner.set? path v) t.current .opened).map fun es =>
      { t with entries := es }

end Tree

mutual

def Node.toJson : Node → Json
  | .value v => v
  | .table _ es => .obj (Json.sortMembers (entriesToJson es))
  | .tables before last =>
    .arr ((.obj (Json.sortMembers (entriesToJson last)) :: elementsToJson before).reverse)

def entriesToJson : List (String × Node) → List (String × Json)
  | [] => []
  | (k, n) :: rest => (k, n.toJson) :: entriesToJson rest

def elementsToJson : List (List (String × Node)) → List Json
  | [] => []
  | es :: rest => .obj (Json.sortMembers (entriesToJson es)) :: elementsToJson rest

end

/-- The document that lines make up, if they agree with each other. -/
def ofLines? (lines : List Line) : Option Json :=
  (lines.foldlM Tree.add? .empty).map fun t => (Node.table .opened t.entries).toJson

end Courier.Toml
