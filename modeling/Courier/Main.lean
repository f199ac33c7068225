import Courier.Http.Service
import Courier.Json.Writer
import Courier.Server.Launch
import Std.Time.DateTime.Timestamp

/-!
The program. It reads its command line, its environment and its files, and then answers requests
from standard input, one a line: a method, a target and, if there is one, a JSON body. Between two
requests the engine's loops run for as long as the second one took to come.
-/

namespace Courier.Program

/-- A request on a line. -/
def readRequest? (line : String) : Option Http.Request :=
  let cs := line.toList
  let isWord := fun c => c ≠ ' '
  let rest := (cs.dropWhile isWord).drop 1
  let body := String.ofList (Blank.trim ((rest.dropWhile isWord).drop 1))
  let kind := if body.isEmpty then none else some "application/json"
  let word (cs : List Char) := String.ofList (cs.takeWhile isWord)
  Http.Request.ofParts? (word cs) (word rest) kind body

/-- A response on a line. -/
def responseLine (r : Http.Response) : String :=
  let content := match r.content with
    | .document j => j.toText
    | .text s => s
  natText r.status ++ " " ++ content

/-- The schedule after some time has passed. -/
def pass (ms : Nat) (s : Schedule) : Schedule :=
  (s.run (.step (.sleep ms) fun _ => .done ())).2

/-- The answer to a line; a line that is no request gets none. -/
def answerLine (line : String) (s : Schedule) : Option (String × Schedule) := do
  let (response, engine) ← Http.answer (← readRequest? line) s.engine
  return (responseLine response, { s with engine })

def readFile? (path : String) : IO (Option String) := do
  try
    return some (← IO.FS.readFile path)
  catch _ =>
    return none

/-- The first of some files that can be read. -/
def readFirst? : List String → IO (Option String)
  | [] => return none
  | path :: rest => do
    match ← readFile? path with
    | some text => return some text
    | none => readFirst? rest

/-- Those of some variables that are set. -/
def environment (names : List String) : IO Environment :=
  names.filterMapM fun name => do return (← IO.getEnv name).map fun v => (name, v)

partial def serve (input output : IO.FS.Stream) (since : Nat) (s : Schedule) : IO Schedule := do
  let line ← input.getLine
  if line.isEmpty then return s
  let now ← IO.monoMsNow
  let s := pass (now - since) s
  match answerLine (String.ofList (Blank.trim line.toList)) s with
  | some (text, s) =>
    output.putStrLn text
    output.flush
    serve input output now s
  | none => serve input output now s

/-- Prints what a run ends with. -/
def finish (e : Launch.Ending) : IO UInt32 := do
  if !e.errors.isEmpty then IO.eprintln e.errors
  match e.output with
  | some text => if !text.isEmpty then IO.println text
  | none => return UInt32.ofNat e.code
  return UInt32.ofNat e.code

def now : IO Timestamp := do
  return .clamp (← Std.Time.Timestamp.now).toNanosecondsSinceUnixEpoch.val

def run (arguments : List String) : IO UInt32 := do
  let directory := (← IO.currentDir).toString
  let envFile ← readFirst? (Files.upward ".env" (directory.splitOn "/").reverse)
  let env ← environment (Variable.all ++ EnvFile.wordsOf (envFile.getD ""))
  let path := Launch.configPath? envFile env arguments
  let files ← match path with
    | some p => do pure ((← readFile? p).map fun text => (p, text)).toList
    | none => pure []
  match Launch.prepare files envFile env arguments with
  | .error e => finish (Launch.ending (.error e))
  | .ok l =>
    let start ← now
    match Launch.run l, Launch.engine start l.config with
    | .ok a, .ok engine =>
      IO.println ("listening for " ++ a.toText)
      let (_, engine) := engine.start
      let _ ← serve (← IO.getStdin) (← IO.getStdout) (← IO.monoMsNow) ⟨engine, []⟩
      finish (Launch.ending (.ok a))
    | .error e, _ => finish (Launch.ending (.error e))
    | _, .error e => finish (Launch.ending (.error e))

end Courier.Program

def main (arguments : List String) : IO UInt32 := Courier.Program.run arguments
