import MessageBoard.Text.Blank
import MessageBoard.Text.Pattern

/-!
# Validation of single fields

Texts have a greatest length, counted in characters, and are not blank; user names and addresses
have a form; a vote has a range.
-/

namespace MessageBoard

open Text

inductive ValidationError where
  | empty (field : String)
  | tooLong (field : String) (max : Nat)
  | invalidFormat (field reason : String)
  | outOfRange (field : String) (min max : Int)
  deriving DecidableEq

def ValidationError.message : ValidationError → String
  | .empty field => s!"{field} cannot be empty"
  | .tooLong field max => s!"{field} exceeds maximum length of {max} characters"
  | .invalidFormat field reason => s!"{field}: {reason}"
  | .outOfRange field min max => s!"{field} must be between {min} and {max}"

abbrev Checked := Except ValidationError Unit

def requireText (field value : String) (max : Nat) : Checked :=
  if allBlank value then .error (.empty field)
  else if max < value.length then .error (.tooLong field max)
  else .ok ()

def optionalText (field : String) (value : Option String) (max : Nat) : Checked :=
  match value with
  | some v => requireText field v max
  | none => .ok ()

def isUsernameChar (c : Char) : Bool :=
  c.isAlphanum || c == '_' || c == '.' || c == '-'

/-- One to 64 such characters. -/
def usernamePattern : Pattern := .seq (.one isUsernameChar) (.upTo 63 (.one isUsernameChar))

def checkUsername (name : String) : Checked :=
  if name = "" then .error (.empty "username")
  else if usernamePattern.accepts name.toList then .ok ()
  else .error (.invalidFormat "username" "must be 1-64 letters, digits, '_', '.' or '-'")

/-- One `@` with a name before it and at least two parts of a host after it, parted by dots. -/
def emailPattern : Pattern :=
  let name := Pattern.one fun c => c != '@' && !isBlank c
  let part := Pattern.some (.one fun c => c != '@' && !isBlank c && c != '.')
  .seq (.some name) (.seq (.char '@') (.seq part (.some (.seq (.char '.') part))))

def checkEmail (email : String) : Checked := do
  requireText "email" email 256
  if emailPattern.accepts email.toList then .ok ()
  else .error (.invalidFormat "email" "must look like name@example.com")

end MessageBoard
