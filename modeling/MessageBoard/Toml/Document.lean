import MessageBoard.Toml.Value

/-!
# Configuration texts

A text is a list of lines, each of them an entry or a header, with blank lines and comments between
them. The entries below a header belong to its section.
-/

namespace MessageBoard.Toml

inductive Line where
  | entry (e : Entry)
  | header (path : KeyPath) (listed : Bool)

def line? : List Char → Option (Line × List Char)
  | '[' :: '[' :: cs => do
    let (path, rest) ← keyPath? depthLimit cs
    return (.header path true, ← afterLine? (← mark? ']' (← mark? ']' rest)))
  | '[' :: cs => do
    let (path, rest) ← keyPath? depthLimit cs
    return (.header path false, ← afterLine? (← mark? ']' rest))
  | cs => do
    let (e, rest) ← entry? (value? depthLimit) cs
    return (.entry e, ← afterLine? rest)

def lines? : (most : Nat) → List Char → Option (List Line)
  | 0, _ => none
  | most + 1, cs =>
    match skipBlanks false cs with
    | [] => some []
    | cs => do
      let (line, rest) ← line? cs
      return line :: (← lines? most rest)

/-- The entries before the first header, and the sections. -/
def sections : List Line → List Entry × List Section
  | [] => ([], [])
  | .entry e :: lines => (e :: (sections lines).1, (sections lines).2)
  | .header path listed :: lines => ([], ⟨path, listed, (sections lines).1⟩ :: (sections lines).2)

/-- The table of a text, which may start with a mark of its byte order. -/
def ofChars? (cs : List Char) : Option Table := do
  let cs := if cs.head? = some '\uFEFF' then cs.drop 1 else cs
  let lines ← lines? (cs.length + 1) cs
  Table.ofSections? (sections lines).1 (sections lines).2

def ofText? (s : String) : Option Table := ofChars? s.toList

end MessageBoard.Toml
