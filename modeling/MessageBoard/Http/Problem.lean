import MessageBoard.Http.Message
import MessageBoard.Store.Failure

/-!
# Problems

How failures are told to clients: a status, a code and a message. What is wrong with the store is
not told, only that something is.
-/

namespace MessageBoard.Http

inductive Problem where
  | validation (e : ValidationError)
  | invalidFilter (e : FilterError)
  | notFound (resource id : String)
  | conflict (message : String)
  | constraint (kind : ConstraintKind) (message : String)
  | unavailable (cause : Failure)
  | timeout (limit : Duration)
  | internal (cause : Failure)
  deriving DecidableEq

namespace Problem

def ofFailure : Failure → Problem
  | .notFound resource id => notFound resource id
  | .invalidFilter e => invalidFilter e
  | .invalid e => validation e
  | .constraintViolation .unique _ message => conflict message
  | .constraintViolation kind _ message => constraint kind message
  | .timeout limit => timeout limit
  | .unavailable cause => unavailable (.unavailable cause)
  | .query cause => internal (.query cause)

def status : Problem → Nat
  | validation _ => 400
  | invalidFilter _ => 400
  | notFound _ _ => 404
  | conflict _ => 409
  | constraint _ _ => 400
  | unavailable _ => 503
  | timeout _ => 504
  | internal _ => 500

def code : Problem → String
  | validation _ => "validation_error"
  | invalidFilter _ => "invalid_filter"
  | notFound _ _ => "not_found"
  | conflict _ => "conflict"
  | constraint _ _ => "constraint_violation"
  | unavailable _ => "unavailable"
  | timeout _ => "timeout"
  | internal _ => "internal_error"

def message : Problem → String
  | validation e => e.message
  | invalidFilter e => e.message
  | notFound resource id => s!"{resource} '{id}' not found"
  | conflict message => message
  | constraint kind message => kind.text ++ s!" constraint violated: {message}"
  | unavailable _ => "the database is currently unavailable"
  | timeout limit => "operation timed out after " ++ limit.secondsText ++ " seconds"
  | internal _ => "an internal error occurred"

def response (p : Problem) : Response :=
  .ofJson p.status (.object [("error", .text p.code), ("message", .text p.message)])

end Problem

end MessageBoard.Http
