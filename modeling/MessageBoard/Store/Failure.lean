import MessageBoard.Duration
import MessageBoard.Filter.Error
import MessageBoard.Uuid
import MessageBoard.Validation

/-!
# Failures

What can go wrong with an operation of the board. What the store or the connection to it reports is
classified here once, so that nobody else looks at codes: broken constraints are told apart, lost
connections are told from refused statements.
-/

namespace MessageBoard

inductive ConstraintKind where
  | foreignKey
  | unique
  | notNull
  | check
  | restrict
  deriving DecidableEq

namespace ConstraintKind

/-- The kind of constraint that the five characters of a state code stand for. -/
def ofCode? : String → Option ConstraintKind
  | "23503" => some foreignKey
  | "23505" => some unique
  | "23502" => some notNull
  | "23514" => some check
  | "23001" => some restrict
  | _ => none

def text : ConstraintKind → String
  | foreignKey => "foreign key"
  | unique => "unique"
  | notNull => "not null"
  | check => "check"
  | restrict => "restrict"

end ConstraintKind

inductive FaultKind where
  | io
  | tls
  | poolTimedOut
  | poolClosed
  | workerCrashed
  | rowNotFound
  | protocol
  | columnNotFound
  | configuration
  | decode
  | unlisted (name : String)
  deriving DecidableEq

/-- The store cannot be reached, as opposed to: it answered, but not as it should. -/
def FaultKind.isOutage : FaultKind → Bool
  | .io => true
  | .tls => true
  | .poolTimedOut => true
  | .poolClosed => true
  | .workerCrashed => true
  | _ => false

inductive Fault where
  | reported (code : Option String) (message : String) (constraint : Option String)
  | other (kind : FaultKind) (message : String)
  deriving DecidableEq

inductive Failure where
  | notFound (resource id : String)
  | constraintViolation (kind : ConstraintKind) (constraint : Option String) (message : String)
  | invalidFilter (e : FilterError)
  | invalid (e : ValidationError)
  | unavailable (cause : Fault)
  | timeout (limit : Duration)
  | query (cause : Fault)
  deriving DecidableEq

namespace Failure

def ofFault : Fault → Failure
  | .reported code message constraint =>
    match code.bind ConstraintKind.ofCode? with
    | some kind => constraintViolation kind constraint message
    | none => query (.reported code message constraint)
  | .other kind message =>
    if kind.isOutage then unavailable (.other kind message) else query (.other kind message)

def missing (resource : String) (id : Uuid) : Failure := notFound resource id.toText

def isNotFound : Failure → Bool
  | notFound _ _ => true
  | _ => false

def constraintKind? : Failure → Option ConstraintKind
  | constraintViolation kind _ _ => some kind
  | _ => none

/-- The message of a failure, unless it is that of a fault which is not the store's own. -/
def message? : Failure → Option String
  | notFound resource id => s!"not found: {resource} '{id}'"
  | constraintViolation kind _ message => kind.text ++ s!" constraint violated: {message}"
  | invalidFilter e => "invalid filter: " ++ e.message
  | invalid e => "invalid input: " ++ e.message
  | unavailable _ => none
  | timeout limit => "database operation timed out after " ++ limit.toText
  | query (.reported _ message _) =>
    s!"database error: error returned from database: {message}"
  | query (.other _ _) => none

end Failure

end MessageBoard
