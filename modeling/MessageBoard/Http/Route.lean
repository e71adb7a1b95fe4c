import MessageBoard.Resource
import MessageBoard.Text.Split
import MessageBoard.Vote

/-!
# Routes

The paths of the interface and the methods that each of them knows. The names in a path are
compared as they stand; an identifier is any segment with something in it.
-/

namespace MessageBoard.Http

inductive Route where
  | health
  | collection (r : Resource)
  | item (r : Resource) (id : List Char)
  | restore (r : Resource) (id : List Char)
  | purge (r : Resource) (id : List Char)
  | details (r : Resource) (id : List Char)
  | lock (locked : Bool) (id : List Char)
  | votes (v : Votable) (id : List Char)
  | userVote (v : Votable) (id user : List Char)
  deriving DecidableEq

inductive Endpoint where
  | health
  | create (r : Resource)
  | list (r : Resource)
  | get (r : Resource) (id : List Char)
  | patch (r : Resource) (id : List Char)
  | softDelete (r : Resource) (id : List Char)
  | restore (r : Resource) (id : List Char)
  | purge (r : Resource) (id : List Char)
  | details (r : Resource) (id : List Char)
  | setLocked (locked : Bool) (id : List Char)
  | castVote (v : Votable) (id : List Char)
  | summary (v : Votable) (id : List Char)
  | userVote (v : Votable) (id user : List Char)
  deriving DecidableEq

namespace Route

def resource? : String → Option Resource
  | "users" => some .user
  | "forums" => some .forum
  | "threads" => some .thread
  | "posts" => some .post
  | _ => none

def votable? : Resource → Option Votable
  | .thread => some .thread
  | .post => some .post
  | _ => none

def ofAction (r : Resource) (id : List Char) : String → Option Route
  | "restore" => some (restore r id)
  | "purge" => some (purge r id)
  | "details" => if r = .user then none else some (details r id)
  | "lock" => if r = .thread then some (lock true id) else none
  | "unlock" => if r = .thread then some (lock false id) else none
  | "votes" => (votable? r).map (votes · id)
  | _ => none

def ofSegments : List (List Char) → Option Route
  | [name] => if String.ofList name = "healthcheck" then some health
    else (resource? (.ofList name)).map collection
  | [name, id] => (resource? (.ofList name)).map (item · id)
  | [name, id, action] => (resource? (.ofList name)).bind (ofAction · id (.ofList action))
  | [name, id, action, user] =>
    if String.ofList action = "votes" then
      ((resource? (.ofList name)).bind votable?).map (userVote · id user)
    else none
  | _ => none

def ofPath (path : List Char) : Option Route :=
  match Text.pieces '/' path with
  | [] :: ['a', 'p', 'i'] :: ['v', '1'] :: rest =>
    if rest.all (· ≠ []) then ofSegments rest else none
  | _ => none

def allow : Route → String
  | health => "GET,HEAD"
  | collection _ => "POST,GET,HEAD"
  | item _ _ => "GET,HEAD,PATCH,DELETE"
  | restore _ _ => "POST"
  | purge _ _ => "DELETE"
  | details _ _ => "GET,HEAD"
  | lock _ _ => "POST"
  | votes _ _ => "PUT,GET,HEAD"
  | userVote _ _ _ => "GET,HEAD"

def endpoint? (method : String) : Route → Option Endpoint
  | health => if method = "GET" then some .health else none
  | collection r =>
    if method = "POST" then some (.create r) else if method = "GET" then some (.list r) else none
  | item r id =>
    if method = "GET" then some (.get r id)
    else if method = "PATCH" then some (.patch r id)
    else if method = "DELETE" then some (.softDelete r id)
    else none
  | restore r id => if method = "POST" then some (.restore r id) else none
  | purge r id => if method = "DELETE" then some (.purge r id) else none
  | details r id => if method = "GET" then some (.details r id) else none
  | lock locked id => if method = "POST" then some (.setLocked locked id) else none
  | votes v id =>
    if method = "PUT" then some (.castVote v id)
    else if method = "GET" then some (.summary v id)
    else none
  | userVote v id user => if method = "GET" then some (.userVote v id user) else none

end Route

end MessageBoard.Http
