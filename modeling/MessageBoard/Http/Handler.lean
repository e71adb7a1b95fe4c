import MessageBoard.Ballot
import MessageBoard.Filter.Query
import MessageBoard.Http.MediaType
import MessageBoard.Http.Problem
import MessageBoard.Http.Route
import MessageBoard.Related
import MessageBoard.Shape.Json

/-!
# Handling requests

What each endpoint does. A request is looked at in a fixed order: its identifiers, the type of its
body, the body, and then what the body says. The store is asked only when nothing is wrong with it.
-/

namespace MessageBoard.Http

open Text

def maxBodyLength : Nat := 2097152

namespace Request

variable {α : Type}

def segment? (raw : List Char) : Option String := Utf8.text? (unescape (Utf8.encode raw))

def readId (field raw : String) : Except Problem Uuid :=
  match Uuid.ofText raw with
  | some id => .ok id
  | none => .error (.validation (.invalidFormat field "invalid UUID format"))

def unreadableId : Problem := .validation (.empty "id")

def pathId (raw : List Char) : Except Problem Uuid :=
  match segment? raw with
  | some s => readId "id" s
  | none => .error unreadableId

def pathIds (first second : List Char) : Except Problem (Uuid × Uuid) :=
  match segment? first, segment? second with
  | some a, some b => return (← readId "id" a, ← readId "user_id" b)
  | _, _ => .error unreadableId

def readBody (wire : Wire α) (req : Request) : Except Response α :=
  if ¬ ((req.header? "content-type").map MediaType.isJson).getD false then
    .error (.ofText 415 "Expected request with \x60Content-Type: application/json\x60")
  else if maxBodyLength < req.body.length then
    .error (.ofText 413 "Failed to buffer the request body: length limit exceeded")
  else match wire.ofChars (Utf8.decode req.body) with
    | .ok a => .ok a
    | .error .malformed => .error (.ofText 400 "Failed to parse the request body as JSON")
    | .error .mismatch =>
      .error (.ofText 422 "Failed to deserialize the JSON body into the target type")

def query (req : Request) : Except Problem FilterParams :=
  match FilterParams.ofQuery (req.target.query.getD []) with
  | .ok params => .ok params
  | .error e => .error (.invalidFilter e)

end Request

namespace Endpoint

variable {α : Type} (limit : Option Duration)

/-- The response that tells the outcome of an operation. -/
def answer (status : Nat) (wire : Wire α) (p : Operation α) : Program Response :=
  p.bind fun
    | .ok a => .done (.ofJson status (wire.toJson a))
    | .error e => .done (Problem.ofFailure e).response

def orProblem (x : Except Problem α) (go : α → Program Response) : Program Response :=
  match x with
  | .ok a => go a
  | .error p => .done p.response

def orResponse (x : Except Response α) (go : α → Program Response) : Program Response :=
  match x with
  | .ok a => go a
  | .error r => .done r

def version : String := "0.1.0"

def healthResponse (code : Nat) (status database : String) : Response :=
  .ofJson code (.object [("status", .text status), ("version", .text version),
    ("database", .text database)])

/-- Asks the store for an answer, outside of any transaction and without a limit. -/
def checkHealth : Program Response :=
  .ask (.execute .ping) fun
    | .rows _ => .done (healthResponse 200 "available" "ok")
    | .refused _ => .done (healthResponse 503 "degraded" "unavailable")
    | .lost _ => .done (healthResponse 503 "degraded" "unavailable")
    | .silence => .stalled

def listPage (r : Resource) (params : FilterParams) : Program Response :=
  if params.withRelated.getD false then
    answer 200 (Page.wire r.detailsWire) (Related.list limit r params.toFilter)
  else answer 200 (Page.wire r.recordWire) (Repository.list limit r params.toFilter)

/-- Casts a vote and tells the votes on its target after that. -/
def cast (v : Votable) (target : Uuid) (input : VoteInput) : Program Response :=
  match input.check with
  | .error e => .done (Problem.validation e).response
  | .ok () =>
    answer 200 VoteSummary.wire <|
      (Ballot.cast limit v target input.user input.vote).andThen fun _ =>
        Ballot.summary limit v target

def findVote (v : Votable) (target user : Uuid) : Operation Vote :=
  (Ballot.get limit v target user).andThen fun
    | some vote => .done (.ok vote)
    | none => .fail (.notFound v.schema.resource (target.toText ++ "/" ++ user.toText))

def run (fresh : Uuid) (req : Request) : Endpoint → Program Response
  | health => checkHealth
  | create r => orResponse (req.readBody r.inputWire) fun input =>
    answer 201 r.recordWire (Repository.create limit r fresh input)
  | list r => orProblem req.query (listPage limit r)
  | get r id => orProblem (Request.pathId id) fun id =>
    answer 200 r.recordWire (Repository.get limit r id)
  | patch r id => orProblem (Request.pathId id) fun id =>
    orResponse (req.readBody r.patchWire) fun p =>
      answer 200 r.recordWire (Repository.patch limit r (r.aim id p))
  | softDelete r id => orProblem (Request.pathId id) fun id =>
    answer 200 r.recordWire (Repository.softDelete limit r id)
  | restore r id => orProblem (Request.pathId id) fun id =>
    answer 200 r.recordWire (Repository.restore limit r id)
  | purge r id => orProblem (Request.pathId id) fun id =>
    answer 200 r.recordWire (Repository.purge limit r id)
  | details r id => orProblem (Request.pathId id) fun id =>
    answer 200 r.detailsWire (Related.get limit r id)
  | setLocked locked id => orProblem (Request.pathId id) fun id =>
    answer 200 Thread.wire (Repository.setLocked limit id locked)
  | castVote v id => orProblem (Request.pathId id) fun id =>
    orResponse (req.readBody VoteInput.wire) (cast limit v id)
  | summary v id => orProblem (Request.pathId id) fun id =>
    answer 200 VoteSummary.wire (Ballot.summary limit v id)
  | userVote v id user => orProblem (Request.pathIds id user) fun (id, user) =>
    answer 200 (Vote.wire v) (findVote limit v id user)

end Endpoint

def handle (limit : Option Duration) (fresh : Uuid) (req : Request) : Program Response :=
  match Route.ofPath req.target.path with
  | none => .done (.ofStatus 404)
  | some route =>
    match route.endpoint? (if req.method = "HEAD" then "GET" else req.method) with
    | none => .done ⟨405, [("allow", route.allow)], .empty⟩
    | some endpoint =>
      (endpoint.run limit fresh req).bind fun r =>
        .done (if req.method = "HEAD" then r.withoutBody else r)

end MessageBoard.Http
