import MessageBoard.Json.Token

/-!
# JSON documents

A JSON text read as far as it goes. Reading never fails: where the text breaks off, the tree says
so at that place, and whoever walks the tree in reading order meets the break just where the text
has it. The tree is built in one pass over the tokens, with the containers still open on a stack.
-/

namespace MessageBoard.Json

inductive Ending where
  | closed
  | broken
  deriving DecidableEq

inductive Document where
  | malformed
  | null
  | flag (b : Bool)
  | number (n : Number)
  | text (content : Option String)
  | array (items : List Document) (ending : Ending)
  | object (entries : List (Option String × Document)) (ending : Ending)

/-- A container still open, what it has so far in reverse. -/
inductive Open where
  | array (items : List Document)
  | object (entries : List (Option String × Document))
  | entry (entries : List (Option String × Document)) (key : Option String)

inductive Wanted where
  | value
  | itemOrEnd
  | keyOrEnd
  | key
  | colon (key : Option String)
  | separator
  deriving DecidableEq

inductive Reader where
  | reading (wanted : Wanted) (stack : List Open)
  | done (document : Document)

/-- The document as it stands when the text breaks off. -/
def breakOff : List Open → Document → Document
  | [], d => d
  | .array items :: stack, d =>
    breakOff stack (.array (match d with
      | .malformed => items.reverse
      | d => (d :: items).reverse) .broken)
  | .object entries :: stack, _ => breakOff stack (.object entries.reverse .broken)
  | .entry entries key :: stack, d =>
    breakOff stack (.object ((key, d) :: entries).reverse .broken)

def deliver (d : Document) : List Open → Reader
  | [] => .done d
  | .array items :: stack => .reading .separator (.array (d :: items) :: stack)
  | .entry entries key :: stack => .reading .separator (.object ((key, d) :: entries) :: stack)
  | .object entries :: stack => .reading .separator (.object entries :: stack)

def fault (wanted : Wanted) (stack : List Open) : Reader :=
  match wanted, stack with
  | .colon key, .object entries :: stack =>
    .done (breakOff (.entry entries key :: stack) .malformed)
  | _, stack => .done (breakOff stack .malformed)

def startValue (token : Token) (wanted : Wanted) (stack : List Open) : Reader :=
  match token with
  | .null => deliver .null stack
  | .flag b => deliver (.flag b) stack
  | .number n => deliver (.number n) stack
  | .text content => deliver (.text content) stack
  | .openArray => .reading .itemOrEnd (.array [] :: stack)
  | .openObject => .reading .keyOrEnd (.object [] :: stack)
  | _ => fault wanted stack

def Reader.step (token : Token) : Reader → Reader
  | .done d => .done d
  | .reading .value stack => startValue token .value stack
  | .reading .itemOrEnd (.array items :: stack) =>
    if token = .closeArray then deliver (.array items.reverse .closed) stack
    else startValue token .itemOrEnd (.array items :: stack)
  | .reading .separator (.array items :: stack) =>
    match token with
    | .comma => .reading .value (.array items :: stack)
    | .closeArray => deliver (.array items.reverse .closed) stack
    | _ => fault .separator (.array items :: stack)
  | .reading .separator (.object entries :: stack) =>
    match token with
    | .comma => .reading .key (.object entries :: stack)
    | .closeObject => deliver (.object entries.reverse .closed) stack
    | _ => fault .separator (.object entries :: stack)
  | .reading .keyOrEnd (.object entries :: stack) =>
    match token with
    | .closeObject => deliver (.object entries.reverse .closed) stack
    | .text key => .reading (.colon key) (.object entries :: stack)
    | _ => fault .keyOrEnd (.object entries :: stack)
  | .reading .key (.object entries :: stack) =>
    match token with
    | .text key => .reading (.colon key) (.object entries :: stack)
    | _ => fault .key (.object entries :: stack)
  | .reading (.colon key) (.object entries :: stack) =>
    match token with
    | .colon => .reading .value (.entry entries key :: stack)
    | _ => fault (.colon key) (.object entries :: stack)
  | .reading wanted stack => fault wanted stack

/-- The document of the tokens, and the tokens after it. -/
def Reader.run : Reader → List Token → Document × List Token
  | .done d, tokens => (d, tokens)
  | .reading wanted stack, [] =>
    match fault wanted stack with
    | .done d => (d, [])
    | .reading _ _ => (.malformed, [])
  | r, token :: tokens => (r.step token).run tokens

/-- The document that a text begins with, and whether more than blanks follows it. -/
def Document.ofChars (cs : List (Option Char)) : Document × Bool :=
  let (d, rest) := (Reader.reading .value []).run (tokens cs)
  (d, !rest.isEmpty)

namespace Document

mutual

/-- Whether the text is well formed, as far as it matters to who skips it: the contents of strings
and the sizes of numbers do not. -/
def isSound : Document → Bool
  | malformed => false
  | array items ending => ending == .closed && soundItems items
  | object entries ending => ending == .closed && soundEntries entries
  | _ => true

def soundItems : List Document → Bool
  | [] => true
  | d :: items => d.isSound && soundItems items

def soundEntries : List (Option String × Document) → Bool
  | [] => true
  | (_, d) :: entries => d.isSound && soundEntries entries

end

mutual

/-- Whether the text is well formed in every part, with fewer than `depth` containers in one
another. -/
def isStrict (depth : Nat) : Document → Bool
  | malformed => false
  | null => true
  | flag _ => true
  | number n => n != .overflow
  | text content => content.isSome
  | array items ending => 1 < depth && ending == .closed && strictItems (depth - 1) items
  | object entries ending => 1 < depth && ending == .closed && strictEntries (depth - 1) entries

def strictItems (depth : Nat) : List Document → Bool
  | [] => true
  | d :: items => isStrict depth d && strictItems depth items

def strictEntries (depth : Nat) : List (Option String × Document) → Bool
  | [] => true
  | (key, d) :: entries => key.isSome && isStrict depth d && strictEntries depth entries

end

end Document

end MessageBoard.Json
