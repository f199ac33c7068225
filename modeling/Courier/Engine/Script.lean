import Courier.Engine.Surroundings
import Courier.Outcome.Codec

/-!
Scripts as JSON documents.
-/

namespace Courier

open Json

namespace AdapterError

/-- An error as a list of its kind and its text; an unknown kind is some other error. -/
def read : Json → Reading AdapterError
  | .arr [.str kind, .str text] =>
    .ok <| match kind with
      | "transport" => .transport text
      | "invalid_intent" => .invalidIntent text
      | _ => .other text
  | j => unfit j

end AdapterError

namespace Turn

/-- What is seen of a crash: a text of its own, a text made for the occasion, or nothing. -/
def crashText : String → String
  | "static" => "static panic"
  | "other" => "unknown panic payload"
  | t => t ++ "!"

/-- An entry of a script. A crash comes before an error, and an error before the value, which is
read from the member `valueName`. -/
def readWith {α : Type} (crash : String → α) (error : AdapterError → α) (valueName : String)
    (usual : α) (value : Json → Reading α) : Json → Reading (Turn α) :=
  readRecord ["advance", "sleep", "reclaim", "panic", "error", valueName] fun f =>
    (fun advance sleep reclaims crashed failed value =>
      { advance := advance.map Span.ofMillis
        sleepMs := sleep
        reclaims
        reply := match crashed, failed with
          | some t, _ => crash (crashText t)
          | none, some x => error x
          | none, none => value })
      <$> f.orElse "advance" none (readOption readI64) <*> f.orElse "sleep" none (readOption readU64)
      <*> f.orElse "reclaim" false readBool <*> f.orElse "panic" none (readOption readString?)
      <*> f.orElse "error" none (readOption AdapterError.read) <*> f.orElse valueName usual value

def readAdapter : Json → Reading (Turn AdapterReply) :=
  readWith .crashed .error "result" (.outcome .success) fun
    | .null => .ok (.outcome .success)
    | j => .outcome <$> Outcome.read j

def readContent : Json → Reading (Turn ContentReply) :=
  readWith (fun _ => .crashed) .error "payload" (.payload .null) fun j => .payload <$> readAny j

end Turn

namespace Fault

def read : Json → Reading Fault := readName (all.map fun x => (x.name, x))

end Fault

namespace Store

def read : Json → Reading Store := readName (all.map fun x => (x.name, x))

end Store

namespace Surroundings

/-- Faults by the names of store calls. -/
def readFaults (j : Json) : Reading (List (StoreCall × List Fault)) :=
  (readMap (readList Fault.read) j).andThen fun ms =>
    Reading.ofOption <| ms.mapM fun (k, fs) => (StoreCall.ofName? k).map fun c => (c, fs)

/-- Surroundings by their scripts. Without adapters there is one, for the platform `usual`. -/
def read (usual : String) (j : Json) : Reading Surroundings :=
  (readRecord ["adapters", "dry_run", "materializer", "applier", "faults"] fun f =>
    (fun adapters dryRuns materializer producer faults =>
      let scripted := adapters.foldl (fun s (p, ts) => s.connect p (.scripted ts)) quiet
      let s := dryRuns.foldl (fun s p => s.connect p .dryRun) scripted
      { s with materializer, producer := producer.map (· != "fail"), faults })
    <$> f.orElse "adapters" [(usual, [])] (readMap (readList Turn.readAdapter))
    <*> f.orElse "dry_run" [] (readList readString?)
    <*> f.orElse "materializer" none (readOption (readList Turn.readContent))
    <*> f.orElse "applier" [] (readList readString?)
    <*> f.orElse "faults" [] readFaults) j

end Surroundings

end Courier
