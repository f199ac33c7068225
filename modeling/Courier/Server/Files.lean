/-!
The text files a program can read, by path. A path is what it is without the steps that stay where
they are: empty steps and single points.
-/

namespace Courier

abbrev Files := List (String × String)

namespace Files

def steps (path : String) : List String :=
  (path.splitOn "/").filter fun s => s ≠ "" && s ≠ "."

def isAbsolute (path : String) : Bool := path.toList.head? == some '/'

/-- Whether two paths lead to one file. -/
def same (p q : String) : Bool := isAbsolute p == isAbsolute q && steps p == steps q

def read? (files : Files) (path : String) : Option String :=
  (files.find? fun (p, _) => same p path).map Prod.snd

/-- The last step of a path, unless it leads back. -/
def fileName? (path : String) : Option String := (steps path).getLast?.filter (· ≠ "..")

/-- What follows the last point of a file's name; a name that starts with its only point has none. -/
def extension? (path : String) : Option String := do
  let name := (← fileName? path).toList
  let after := (name.reverse.takeWhile (· ≠ '.')).reverse
  if after.length + 1 < name.length then some (String.ofList after) else none

/-- The paths of a file's name in a directory and in all above it, from the inside out. -/
def upward (name : String) : List String → List String
  | [] => []
  | step :: inner => ("/".intercalate (inner.reverse ++ [step, name])) :: upward name inner

/-- Looks for a file in a directory and in all above it. -/
def search? (files : Files) (directory name : String) : Option String :=
  (upward name (directory.splitOn "/").reverse).findSome? files.read?

end Files

end Courier
