import Courier.Outcome.Basic

/-!
The contracts toward the outside: adapters carry out intents, a materializer produces their
content, and either may answer, report an error or crash.
-/

namespace Courier

inductive AdapterError where
  | transport (text : String)
  | invalidIntent (text : String)
  | other (text : String)

def AdapterError.message : AdapterError → String
  | transport text => "transport error: " ++ text
  | invalidIntent text => "invalid intent: " ++ text
  | other text => text

/-- How an adapter call ends. -/
inductive AdapterReply where
  | outcome (o : Outcome)
  | error (e : AdapterError)
  | crashed (message : String)
  | noAdapter

namespace AdapterReply

/-- The outcome of an attempt on `platform`: whatever keeps the adapter from giving one is a fault
on this side. -/
def toOutcome (platform : String) : AdapterReply → Outcome
  | outcome o => o
  | error e => .fault ("adapter error: " ++ e.message)
  | crashed m => .fault ("adapter panicked: " ++ m)
  | noAdapter => .fault ("no adapter registered for platform " ++ platform)

end AdapterReply

/-- How producing the content of an intent ends. -/
inductive ContentReply where
  | payload (p : Json)
  | error (e : AdapterError)
  | crashed
  | noMaterializer

namespace ContentReply

/-- The intent that is carried out: with the content produced, else with its fallback if it has
one, else as it was. `none` when the materializer crashed. -/
def apply (i : Intent) : ContentReply → Option Intent
  | payload p => some { i with payload := p }
  | error _ =>
    match i.fallbackPayload with
    | some p => some { i with payload := p }
    | none => some i
  | crashed => none
  | noMaterializer => some i

end ContentReply

/-- An adapter that carries out nothing and reports what it would have done. -/
def dryRun (platform : String) (i : Intent) : Outcome :=
  { Outcome.success with
    effects :=
      [Json.sorted
        [("dry_run", .bool true), ("platform", .str platform), ("target", .str i.target),
          ("action", .str i.action)]] }

end Courier
