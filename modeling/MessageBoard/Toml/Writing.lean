import MessageBoard.Text.Digits

/-!
# Writing a configuration text

Sections of texts, integers and truth values, one to a line. A text is written between quotation
marks where none of its characters needs an escape there; otherwise between apostrophes, then over
several lines of either kind, and only if none of these can hold it with escapes.
-/

namespace MessageBoard.Toml

open MessageBoard.Text

inductive Style where
  | basic
  | literal
  | basicBlock
  | literalBlock
  deriving DecidableEq

def isHidden (c : Char) : Bool :=
  (c.toNat < 0x20 && c ≠ '\t' && c ≠ '\n') || c.toNat == 0x7F

/-- Whether a character occurs three times in a row. -/
def tripled (c : Char) : List Char → Bool
  | x :: y :: z :: cs => (x == c && y == c && z == c) || tripled c (y :: z :: cs)
  | _ => false

def Style.ofText (cs : List Char) : Style :=
  let lines := cs.contains '\n'
  if cs.any isHidden then if lines then .basicBlock else .basic
  else if !cs.contains '\\' && !cs.contains '"' && !lines then .basic
  else if !cs.contains '\'' && !lines then .literal
  else if !cs.contains '\\' && !tripled '"' cs then .basicBlock
  else if !tripled '\'' cs then .literalBlock
  else if lines then .basicBlock
  else .basic

def escaped (c : Char) : List Char :=
  match c with
  | '\x08' => ['\\', 'b']
  | '\t' => ['\\', 't']
  | '\n' => ['\\', 'n']
  | '\x0c' => ['\\', 'f']
  | '\r' => ['\\', 'r']
  | '"' => ['\\', '"']
  | '\\' => ['\\', '\\']
  | c =>
    if isHidden c then '\\' :: 'u' :: (fixed 16 4 c.toNat).map Char.toUpper else [c]

/-- The characters of a text of several lines, of which `run` quotation marks were just written: a
third one in a row is escaped. -/
def escapedBlock (run : Nat) : List Char → List Char
  | [] => []
  | c :: cs =>
    if c = '"' then
      if run = 2 then '\\' :: '"' :: escapedBlock 0 cs else '"' :: escapedBlock (run + 1) cs
    else if c = '\n' then '\n' :: escapedBlock 0 cs
    else escaped c ++ escapedBlock 0 cs

/-- A text of several lines starts on a line of its own. -/
def opening (cs : List Char) : List Char := if cs.contains '\n' then ['\n'] else []

def textChars (cs : List Char) : List Char :=
  match Style.ofText cs with
  | .basic => '"' :: cs.flatMap escaped ++ ['"']
  | .literal => '\'' :: cs ++ ['\'']
  | .basicBlock => ['"', '"', '"'] ++ opening cs ++ escapedBlock 0 cs ++ ['"', '"', '"']
  | .literalBlock => ['\'', '\'', '\''] ++ opening cs ++ cs ++ ['\'', '\'', '\'']

inductive Scalar where
  | text (s : String)
  | int (n : Int)
  | flag (b : Bool)
  deriving DecidableEq

def Scalar.chars? : Scalar → Option (List Char)
  | .text s => some (textChars s.toList)
  | .int n => if (Int64.ofInt n).toInt = n then some (decimalInt n) else none
  | .flag b => some (if b then "true" else "false").toList

def lineChars? (key : String) (v : Scalar) : Option (List Char) :=
  v.chars?.map fun cs => key.toList ++ " = ".toList ++ cs ++ ['\n']

def sectionChars? (name : String) (entries : List (String × Scalar)) : Option (List Char) := do
  let lines ← entries.mapM fun (key, v) => lineChars? key v
  return '[' :: name.toList ++ [']', '\n'] ++ lines.flatten

def documentChars? (parts : List (String × List (String × Scalar))) : Option (List Char) := do
  return ['\n'].intercalate (← parts.mapM fun (name, entries) => sectionChars? name entries)

end MessageBoard.Toml
