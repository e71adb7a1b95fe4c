import MessageBoard.Http.Uri
import MessageBoard.Json.Basic

/-!
# Requests and responses

What the interface of the board sees of a request, and what it answers.
-/

namespace MessageBoard.Http

structure Request where
  method : String
  target : Target
  /-- Names are in lower case. -/
  headers : List (String × String)
  body : List UInt8

def Request.header? (req : Request) (name : String) : Option String := req.headers.lookup name

inductive Body where
  | empty
  | json (j : Json)
  | text (s : String)

structure Response where
  status : Nat
  headers : List (String × String)
  body : Body

namespace Response

def ofStatus (status : Nat) : Response := ⟨status, [], .empty⟩

def ofJson (status : Nat) (j : Json) : Response :=
  ⟨status, [("content-type", "application/json")], .json j⟩

def ofText (status : Nat) (s : String) : Response :=
  ⟨status, [("content-type", "text/plain; charset=utf-8")], .text s⟩

def withoutBody (r : Response) : Response := { r with body := .empty }

def addHeaders (headers : List (String × String)) (r : Response) : Response :=
  { r with headers := r.headers ++ headers }

end Response

end MessageBoard.Http
