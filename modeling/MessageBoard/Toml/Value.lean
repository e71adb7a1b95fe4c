import MessageBoard.Toml.Moment
import MessageBoard.Toml.Number
import MessageBoard.Toml.Text
import MessageBoard.Toml.Tree

/-!
# Values of a configuration text

Keys, which are joined by points, and the values that stand behind them: strings, numbers, moments,
truth values, arrays over any number of lines and tables on one line. Nesting has a limit, both of
values in values and of keys in keys.
-/

namespace MessageBoard.Toml

/-- The longest path of keys, and the most arrays and tables around a value. -/
def depthLimit : Nat := 79

def isBare (c : Char) : Bool := c.isAlphanum || c == '-' || c == '_'

def key? : List Char → Option (String × List Char)
  | '"' :: cs => (basic cs).map fun (s, rest) => (.ofList s, rest)
  | '\'' :: cs => (literal cs).map fun (s, rest) => (.ofList s, rest)
  | cs =>
    if cs.takeWhile isBare = [] then none
    else some (.ofList (cs.takeWhile isBare), cs.dropWhile isBare)

/-- At most `limit` keys, with points between them and spaces around them. -/
def keyPath? : (limit : Nat) → List Char → Option (KeyPath × List Char)
  | 0, _ => none
  | limit + 1, cs => do
    let (key, rest) ← key? (skipSpaces cs)
    match skipSpaces rest with
    | '.' :: rest =>
      let (path, rest) ← keyPath? limit rest
      return (⟨key :: path.above, path.last⟩, rest)
    | rest => return (⟨[], key⟩, rest)

def entry? (value : List Char → Option (Tree × List Char)) (cs : List Char) :
    Option (Entry × List Char) := do
  let (path, rest) ← keyPath? depthLimit cs
  let (tree, rest) ← value (skipSpaces (← mark? '=' rest))
  return (⟨path, tree⟩, rest)

def items? (value : List Char → Option (Tree × List Char)) :
    (most : Nat) → List Char → Option (List Tree × List Char)
  | 0, _ => none
  | most + 1, cs =>
    match skipBlanks false cs with
    | ']' :: rest => some ([], rest)
    | cs => do
      let (tree, rest) ← value cs
      match skipBlanks false rest with
      | ',' :: rest => (items? value most rest).map fun (ts, rest) => (tree :: ts, rest)
      | ']' :: rest => some ([tree], rest)
      | _ => none

def entries? (value : List Char → Option (Tree × List Char)) :
    (most : Nat) → List Char → Option (List Entry × List Char)
  | 0, _ => none
  | most + 1, cs => do
    let (e, rest) ← entry? value cs
    match skipSpaces rest with
    | ',' :: rest => (entries? value most rest).map fun (es, rest) => (e :: es, rest)
    | '\x7d' :: rest => some ([e], rest)
    | _ => none

def numeric? (cs : List Char) : Option (Tree × List Char) :=
  match afterMoment? cs with
  | some rest => some (.moment, rest)
  | none =>
    match afterReal? cs with
    | some rest => some (.real, rest)
    | none => (int? cs).map fun (n, rest) => (.int n, rest)

def scalar? : List Char → Option (Tree × List Char)
  | 't' :: 'r' :: 'u' :: 'e' :: rest => some (.flag true, rest)
  | 'f' :: 'a' :: 'l' :: 's' :: 'e' :: rest => some (.flag false, rest)
  | c :: cs =>
    if c = '"' ∨ c = '\'' then (string? (c :: cs)).map fun (s, rest) => (.text (.ofList s), rest)
    else numeric? (c :: cs)
  | [] => none

/-- A value within which values nest at most `depth` times. -/
def value? : (depth : Nat) → List Char → Option (Tree × List Char)
  | 0, '[' :: _ => none
  | 0, '\x7b' :: _ => none
  | depth + 1, '[' :: cs =>
    (items? (value? depth) (cs.length + 1) cs).map fun (ts, rest) => (.array ts, rest)
  | depth + 1, '\x7b' :: cs =>
    match skipSpaces cs with
    | '\x7d' :: rest => some (.table .closed [], rest)
    | _ => do
      let (es, rest) ← entries? (value? depth) (cs.length + 1) cs
      return (.table .closed (← es.foldlM Table.put []), rest)
  | _, cs => scalar? cs

end MessageBoard.Toml
