import Courier.Text.Blank
import Courier.Text.Letter

/-!
Files of variables, a `NAME=value` a line. Between quotes a value may go over several lines, and
outside single quotes it may name variables, whose values stand in the place of their names. What
is set already is not set again.
-/

namespace Courier

/-- Variables and their values; of two with one name the first counts. -/
abbrev Environment := List (String × String)

namespace EnvFile

/-- Where in a line its reader stands, while the end of the line is sought. -/
inductive Place where
  | bare
  | gap
  | escaped
  | single
  | singleEscaped
  | double
  | doubleEscaped
  | comment
deriving DecidableEq

namespace Place

def isLineBlank (c : Char) : Bool := Blank.isBlank c && c ≠ '\n' && c ≠ '\x0d'

/-- The place after a character outside quotes. -/
def outside (c : Char) : Place :=
  if c = '\\' then escaped else if c = '"' then double else if c = '\'' then single else bare

def next (c : Char) : Place → Place
  | bare => if isLineBlank c then gap else outside c
  | gap => if c = '#' then comment else outside c
  | escaped => bare
  | single => if c = '\\' then singleEscaped else if c = '\'' then bare else single
  | singleEscaped => single
  | double => if c = '\\' then doubleEscaped else if c = '"' then bare else double
  | doubleEscaped => double
  | comment => comment

/-- What stands before a comment, and the place at the end. -/
def scan : Place → List Char → List Char × Place
  | p, [] => ([], p)
  | p, c :: cs =>
    match p.next c with
    | comment => ([], comment)
    | q =>
      let (part, last) := scan q cs
      (c :: part, last)

end Place

/-- The lines of a text, each with the break that ends it. -/
def splitLines : List Char → List (List Char)
  | [] => []
  | c :: cs =>
    if c = '\n' then [c] :: splitLines cs
    else
      match splitLines cs with
      | [] => [[c]]
      | l :: ls => (c :: l) :: ls

def isCommentLine (cs : List Char) : Bool := (Blank.trimStart cs).head? == some '#'

/-- Joins lines that a quote holds together; `open_` is what came before of the line being read. A
text that ends in the middle of a line has none. -/
def joinLines? (open_ : List Char) (p : Place) : List (List Char) → Option (List (List Char))
  | [] => if p = .bare then some [] else none
  | l :: ls =>
    let line := open_ ++ l
    if isCommentLine line then joinLines? [] .bare ls
    else
      match p.scan l with
      | (part, .comment) => ((open_ ++ part) :: ·) <$> joinLines? [] .bare ls
      | (_, .bare) => (line :: ·) <$> joinLines? [] .bare ls
      | (_, q) => joinLines? line q ls

inductive Quote where
  | none
  | single
  | double
deriving DecidableEq

/-- A name in reading, its characters last first. -/
inductive Naming where
  | none
  | bare (name : List Char)
  | braced (name : List Char)

/-- How much of a value has been read. -/
inductive Extent where
  | inside
  /-- A blank ended the value; only a comment may follow. -/
  | after
  | finished
deriving DecidableEq

/-- A value in reading. -/
structure Draft where
  /-- The value so far, last character first. -/
  value : List Char
  quote : Quote
  escaped : Bool
  naming : Naming
  extent : Extent

namespace Draft

def start : Draft := ⟨[], .none, false, .none, .inside⟩

def push (c : Char) (v : Draft) : Draft := { v with value := c :: v.value }

/-- Puts a variable's value in; one that is not set is empty. -/
def substitute (env : Environment) (name : List Char) (v : Draft) : Draft :=
  let text := (env.lookup (String.ofList name.reverse)).getD ""
  { v with value := text.toList.reverse ++ v.value, naming := .none }

def nextEscaped (c : Char) (v : Draft) : Option Draft :=
  let v := { v with escaped := false }
  if "\\'\"$ ".toList.contains c then some (v.push c)
  else if c = 'n' then some (v.push '\n')
  else none

/-- A character outside single quotes and names. -/
def nextPlain (c : Char) (v : Draft) : Draft :=
  if c = '$' then { v with naming := .bare [] }
  else if c = '\\' then { v with escaped := true }
  else if v.quote = .double then
    if c = '"' then { v with quote := .none } else v.push c
  else if c = '\'' then { v with quote := .single }
  else if c = '"' then { v with quote := .double }
  else if c = ' ' || c = '\t' then { v with extent := .after }
  else v.push c

/-- A character in or right after a name. The character that ends a bare name is taken as it is,
even a quote. -/
def nextInName (env : Environment) (c : Char) (v : Draft) : Naming → Draft
  | .none => v.nextPlain c
  | .bare name =>
    if Letter.isAlphanumeric c then { v with naming := .bare (c :: name) }
    else if c = '\x7b' && name.isEmpty then { v with naming := .braced [] }
    else
      let v := v.substitute env name
      if c = '$' then { v with naming := .bare [] } else v.push c
  | .braced name =>
    if c = '\x7d' then v.substitute env name else { v with naming := .braced (c :: name) }

def next (env : Environment) (v : Draft) (c : Char) : Option Draft :=
  match v.extent with
  | .finished => some v
  | .after =>
    if c = ' ' || c = '\t' then some v
    else if c = '#' then some { v with extent := .finished }
    else none
  | .inside =>
    if v.escaped then v.nextEscaped c
    else if v.quote = .single then
      some (if c = '\'' then { v with quote := .none } else v.push c)
    else some (v.nextInName env c v.naming)

def finish? (env : Environment) (v : Draft) : Option String :=
  let done (v : Draft) : Option String :=
    if v.quote = .none then some (String.ofList v.value.reverse) else none
  match v.naming with
  | .braced _ => none
  | .bare name => done (v.substitute env name)
  | .none => done v

end Draft

def readValue (env : Environment) (cs : List Char) : Option String := do
  (← cs.foldlM (Draft.next env) .start).finish? env

def isNameStart (c : Char) : Bool := c.isAlpha || c = '_'

def isNameChar (c : Char) : Bool := c.isAlphanum || c = '_' || c = '.'

/-- A name, and what follows it and the blanks after it. -/
def readName (cs : List Char) : Option (String × List Char) :=
  match cs with
  | c :: _ =>
    if isNameStart c then
      some (String.ofList (cs.takeWhile isNameChar), Blank.trimStart (cs.dropWhile isNameChar))
    else none
  | [] => none

/-- The name that a line sets and what follows the equals sign. The word `export` may stand in
front of the name. -/
def readHead (cs : List Char) : Option (String × List Char) := do
  match ← readName cs with
  | (name, '=' :: rest) => some (name, rest)
  | ("export", rest) =>
    match ← readName rest with
    | (name, '=' :: rest) => some (name, rest)
    | _ => none
  | _ => none

/-- Sets what a line says, unless it is set; a line may say nothing. -/
def setLine? (env : Environment) (line : List Char) : Option Environment :=
  let cs := Blank.trim line
  if cs.isEmpty || cs.head? == some '#' then some env
  else do
    let (name, rest) ← readHead cs
    let rest := Blank.trimStart rest
    let value ← if rest.isEmpty || rest.head? == some '#' then some "" else readValue env rest
    some (if (env.lookup name).isSome then env else env ++ [(name, value)])

/-- The variables after a file has been read, unless a line of it cannot be. -/
def load? (env : Environment) (text : String) : Option Environment := do
  let cs := match text.toList with
    | '\ufeff' :: cs => cs
    | cs => cs
  (← joinLines? [] .bare (splitLines cs)).foldlM setLine? env

/-- The words in a text that may be names of variables. -/
def wordsOf (text : String) : List String :=
  let blanked := text.map fun c => if isNameChar c then c else ' '
  (blanked.splitOn " ").filter (· ≠ "")

end EnvFile

end Courier
