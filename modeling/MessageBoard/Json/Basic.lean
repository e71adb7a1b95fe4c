import MessageBoard.Text.Digits

/-!
# JSON values

The values that are written as JSON, and their text: no blanks, the entries of an object in the
order given, and escapes only where a string must have them.
-/

namespace MessageBoard

inductive Json where
  | null
  | flag (b : Bool)
  | int (n : Int)
  | text (s : String)
  | array (items : List Json)
  | object (entries : List (String × Json))

namespace Json

open Text

/-- A character within a string: quotes, backslashes and control characters are escaped. -/
def escape (c : Char) : List Char :=
  match c with
  | '"' => ['\\', '"']
  | '\\' => ['\\', '\\']
  | '\n' => ['\\', 'n']
  | '\r' => ['\\', 'r']
  | '\t' => ['\\', 't']
  | '\x08' => ['\\', 'b']
  | '\x0c' => ['\\', 'f']
  | c => if c.toNat < 0x20 then '\\' :: 'u' :: fixed 16 4 c.toNat else [c]

def quote (s : String) : List Char := '"' :: s.toList.flatMap escape ++ ['"']

mutual

def write : Json → List Char
  | null => "null".toList
  | flag true => "true".toList
  | flag false => "false".toList
  | int n => decimalInt n
  | text s => quote s
  | array items => '[' :: writeItems items
  | object entries => '\x7b' :: writeEntries entries

def writeItems : List Json → List Char
  | [] => [']']
  | [j] => j.write ++ [']']
  | j :: items => j.write ++ ',' :: writeItems items

def writeEntries : List (String × Json) → List Char
  | [] => ['\x7d']
  | [(key, j)] => quote key ++ ':' :: j.write ++ ['\x7d']
  | (key, j) :: entries => quote key ++ ':' :: j.write ++ ',' :: writeEntries entries

end

def render (j : Json) : String := .ofList j.write

end Json

end MessageBoard
