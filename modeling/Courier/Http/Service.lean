import Courier.Engine.Service
import Courier.Http.MediaType
import Courier.Http.Target
import Courier.Text.Blank

/-!
The operators' interface: which request asks what of the engine, and how its answer is put.
-/

namespace Courier

namespace ErrorKind

/-- The status under which a kind of error is answered. -/
def status : ErrorKind → Nat
  | notFound => 404
  | validation => 400
  | conflict | invalidTransition | leaseMismatch => 409
  | internal | database => 500

/-- What a client is told of an error. -/
def shown (k : ErrorKind) (detail : String) : String :=
  match k with
  | internal => k.message detail
  | database => "Database operation failed"
  | _ => detail

end ErrorKind

namespace Http

structure Request where
  method : String
  target : Target
  contentType : Option String
  body : String

namespace Request

/-- Characters that a field may have. -/
def isVisible (c : Char) : Bool := c = '\t' || (0x20 ≤ c.toNat && c.toNat < 0x7F)

/-- A request, if its method, target and content type can be sent. -/
def ofParts? (method target : String) (contentType : Option String) (body : String) :
    Option Request :=
  if method.isEmpty || !method.toList.all MediaType.isToken then none
  else if contentType.any fun s => !s.toList.all isVisible then none
  else (Target.ofText? target).map fun t => ⟨method, t, contentType, body⟩

end Request

/-- An answer: a document, or plain text. -/
inductive Content where
  | document (j : Json)
  | text (s : String)

structure Response where
  status : Nat
  content : Content

namespace Response

def ok (j : Json) : Response := ⟨200, .document j⟩

def empty (status : Nat) : Response := ⟨status, .text ""⟩

/-- An error as a document. -/
def refusal (status : Nat) (message : String) : Response :=
  ⟨status, .document <| Json.sorted
    [("error", Json.sorted [("message", .str message), ("status", Json.ofNat status)])]⟩

def ofError (e : Error) : Response := refusal e.kind.status (e.kind.shown e.detail)

def ofResult {α : Type} (toJson : α → Json) : Except Error α → Response
  | .ok a => ok (toJson a)
  | .error e => ofError e

end Response

/-- What the paths stand for. -/
inductive Route where
  | health
  | jobs
  | job (id : String)
  | deadLetters
  | replay (id : String)
  | resolve (id : String)
  | queueFigures
  | circuitEvents
  | rateLimits
  | workers

namespace Route

/-- The part of a path that names a job is not empty. -/
def named? (make : String → Route) (id : String) : Option Route :=
  if id.isEmpty then none else some (make id)

def ofPath? (path : String) : Option Route :=
  match path.splitOn "/" with
  | ["", "health"] => some health
  | ["", "v1", "jobs"] => some jobs
  | ["", "v1", "jobs", id] => named? job id
  | ["", "v1", "dlq"] => some deadLetters
  | ["", "v1", "dlq", id, "replay"] => named? replay id
  | ["", "v1", "dlq", id, "resolve"] => named? resolve id
  | ["", "v1", "metrics", "queue"] => some queueFigures
  | ["", "v1", "circuits", "events"] => some circuitEvents
  | ["", "v1", "rate-limits"] => some rateLimits
  | ["", "v1", "workers"] => some workers
  | _ => none

def isWrite : Route → Bool
  | jobs | replay _ | resolve _ => true
  | _ => false

/-- A route that is read answers to requests for its head, too. -/
def allows (r : Route) (method : String) : Bool :=
  if r.isWrite then method = "POST" else method = "GET" || method = "HEAD"

end Route

/-- Why a request does not get as far as the engine. -/
inductive Rejection where
  | badPath
  | badQuery
  | noJsonAnnounced
  | tooLong
  | malformedBody
  | wrongShape

namespace Rejection

def status : Rejection → Nat
  | badPath | badQuery | malformedBody => 400
  | tooLong => 413
  | noJsonAnnounced => 415
  | wrongShape => 422

/-- The head of the text; the web framework's particulars, which would follow it after a colon, are
left out. -/
def text : Rejection → String
  | badPath => "Invalid URL"
  | badQuery => "Failed to deserialize query string"
  | noJsonAnnounced => "Expected request with \x60Content-Type"
  | tooLong => "Failed to buffer the request body"
  | malformedBody => "Failed to parse the request body as JSON"
  | wrongShape => "Failed to deserialize the JSON body into the target type"

def toResponse (r : Rejection) : Response := ⟨r.status, .text r.text⟩

end Rejection

/-- The longest body, in bytes. -/
def longestBody : Nat := 2097152

def checkLength (r : Request) : Except Rejection Unit :=
  if longestBody < r.body.utf8ByteSize then .error .tooLong else .ok ()

/-- The body as a document of a given kind. -/
def readBody {α : Type} (read : Json → Reading α) (r : Request) : Except Rejection α := do
  if !r.contentType.any MediaType.isJson then throw .noJsonAnnounced
  checkLength r
  match Json.readText read r.body with
  | .ok a => pure a
  | .failed .malformed _ => throw .malformedBody
  | .failed .mismatch _ => throw .wrongShape

/-- The part of a path that names a job, as text. -/
def readName (id : String) : Except Rejection String :=
  match percentDecode? id with
  | some s => .ok s
  | none => .error .badPath

def readJobId (raw : String) : Except Response JobId :=
  match Uuid.ofText? raw with
  | some u => .ok ⟨u⟩
  | none => .error (.refusal 400 ("invalid job id: " ++ raw))

/-- What a client says of a job to be taken in. -/
structure Submission where
  intent : Intent
  contextKey : Option String
  priority : Option Float
  maxAttempts : Option Nat
  reservation : Option Reservation
  availableAt : Option Timestamp

namespace Submission

def read : Json → Reading Submission :=
  Json.readRecord
    ["intent", "context_key", "priority", "max_attempts", "reservation_delta", "available_at"]
    fun f =>
      Submission.mk <$> f.required "intent" Intent.read
        <*> f.orElse "context_key" none (Json.readOption Json.readString?)
        <*> f.orElse "priority" none (Json.readOption Json.readFloat)
        <*> f.orElse "max_attempts" none (Json.readOption Json.readU32)
        <*> f.orElse "reservation_delta" none (Json.readOption Reservation.read)
        <*> f.orElse "available_at" none (Json.readOption Timestamp.read)

/-- The job with what the client said of it. -/
def applyTo (s : Submission) (j : Job) : Job :=
  { j with
    contextKey := s.contextKey.getD j.contextKey
    priority := s.priority.getD j.priority
    maxAttempts := s.maxAttempts.getD j.maxAttempts
    reservation := s.reservation.getD j.reservation
    availableAt := s.availableAt.getD j.availableAt }

end Submission

/-- Who decides, when the client does not say. -/
def someOperator : String := "operator"

/-- The actor of a decision; a name that is blank is none. -/
def actorOf (named : Option String) : String :=
  match named with
  | some a => if Blank.allBlank a then someOperator else a
  | none => someOperator

def readActor : Json → Reading (Option String) :=
  Json.readRecord ["actor"] fun f => f.orElse "actor" none (Json.readOption Json.readString?)

def readResolution : Json → Reading (Option String × DlqState) :=
  Json.readRecord ["actor", "state"] fun f =>
    Prod.mk <$> f.orElse "actor" none (Json.readOption Json.readString?)
      <*> f.required "state" DlqState.read

def usualLimit : Nat := 50

def mostListed : Nat := 500

/-- How many dead letters a query asks for. -/
def readLimit (query : String) : Except Rejection Nat :=
  match (queryFields query).filter fun (k, _) => k = some "limit" with
  | [] => .ok usualLimit
  | [(_, some v)] =>
    match Decimal.unsigned? (Nat.pow 2 64 - 1) v with
    | some n => .ok (min n mostListed)
    | none => .error .badQuery
  | _ => .error .badQuery

def jsonList {α : Type} (toJson : α → Json) (xs : List α) : Json := .arr (xs.map toJson)

/-- The figures on queue, inbox and delivery. -/
def figures (e : Engine) : Except Error Json := do
  let depth ← e.depth
  let byContext ← e.depthByContext
  let inboxDepth ← e.inboxDepth
  pure <| Json.sorted
    [("depth", depth.toJson), ("depth_by_context", .obj (byContext.map fun (k, n) => (k, Json.ofNat n))),
      ("inbox_depth", Json.ofNat inboxDepth), ("sla", e.stats.toJson)]

/-- An answer that leaves the engine as it was. -/
def unchanged (e : Engine) (r : Response) : Option (Response × Engine) := some (r, e)

/-- Takes in a job. A crash of the store leaves the request without an answer. -/
def submit (r : Request) (e : Engine) : Option (Response × Engine) :=
  match readBody Submission.read r with
  | .error x => unchanged e x.toResponse
  | .ok s =>
    let (j, e) := e.newJob s.intent
    match e.enqueue (s.applyTo j) with
    | (.ok h, e) => some (⟨if h.accepted then 202 else 200, .document h.toJson⟩, e)
    | (.error (.error x), e) => some (.ofError x, e)
    | (.error .crash, _) => none

def showJob (id : String) (e : Engine) : Response :=
  match readName id with
  | .error x => x.toResponse
  | .ok raw =>
    match readJobId raw with
    | .error x => x
    | .ok id =>
      match e.job? id with
      | .ok (some j) => .ok j.toJson
      | .ok none => .ofError (.unknownJob id)
      | .error x => .ofError x

def showDeadLetters (query : Option String) (e : Engine) : Response :=
  match readLimit (query.getD "") with
  | .error x => x.toResponse
  | .ok n => .ofResult (jsonList Job.toJson) (e.listDlq n)

/-- What the body of a replay says; it may be left out. -/
def readReplay (r : Request) : Except Response (Option String) :=
  if r.body.isEmpty then .ok none
  else
    match Json.readText readActor r.body with
    | .ok a => .ok a
    | _ => .error (.refusal 400 "invalid replay request")

def replay (id : String) (r : Request) (e : Engine) : Response × Engine :=
  match readName id, checkLength r with
  | .error x, _ => (x.toResponse, e)
  | _, .error x => (x.toResponse, e)
  | .ok raw, .ok _ =>
    match readJobId raw, readReplay r with
    | .error x, _ => (x, e)
    | _, .error x => (x, e)
    | .ok id, .ok actor =>
      let (h, e) := e.replay id (actorOf actor)
      (.ofResult Handle.toJson h, e)

def resolve (id : String) (r : Request) (e : Engine) : Response × Engine :=
  match readName id, readBody readResolution r with
  | .error x, _ => (x.toResponse, e)
  | _, .error x => (x.toResponse, e)
  | .ok raw, .ok (actor, entry) =>
    match readJobId raw with
    | .error x => (x, e)
    | .ok id =>
      let (j, e) := e.resolve id entry (actorOf actor)
      (.ofResult Job.toJson j, e)

/-- The answer to a request that its route allows. -/
def serve (route : Route) (r : Request) (e : Engine) : Option (Response × Engine) :=
  match route with
  | .health => unchanged e (.ok (.obj [("status", .str "ok")]))
  | .jobs => submit r e
  | .job id => unchanged e (showJob id e)
  | .deadLetters => unchanged e (showDeadLetters r.target.query e)
  | .replay id => some (replay id r e)
  | .resolve id => some (resolve id r e)
  | .queueFigures => unchanged e (.ofResult id (figures e))
  | .circuitEvents =>
    let (events, e) := e.drainCircuit
    some (.ok (jsonList CircuitEvent.toJson events), e)
  | .rateLimits =>
    let (uses, e) := e.rateUsage e.now
    some (.ok (Json.sorted
      [("windows", jsonList WindowUse.toJson uses), ("adaptive", jsonList PaceView.toJson e.paces)]), e)
  | .workers => unchanged e (.ofResult (jsonList Beat.toJson) e.beats)

/-- The same answer without its content. -/
def headOnly (r : Response) : Response := .empty r.status

/-- Answers a request; `none` when the engine crashed over it. -/
def answer (r : Request) (e : Engine) : Option (Response × Engine) :=
  match Route.ofPath? r.target.path with
  | none => unchanged e (.empty 404)
  | some route =>
    if !route.allows r.method then unchanged e (.empty 405)
    else
      match serve route r e with
      | some (x, e) => some (if r.method = "HEAD" then headOnly x else x, e)
      | none => none

end Http

end Courier
