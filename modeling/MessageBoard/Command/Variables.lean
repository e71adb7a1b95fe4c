import MessageBoard.Text.Blank
import MessageBoard.Text.Letter

/-!
# Files of variables

A file may add variables to the environment, one to a line, but does not change those that are set.
Values may be quoted, on several lines too; a dollar sign starts the name of a variable whose value
is put in its place, except between apostrophes. The first line that says nothing of this kind ends
the reading, and what came before it stays.
-/

namespace MessageBoard.Command

open Text

/-- Variables with their values; the first entry of a name counts. -/
abbrev Variables := List (String × String)

namespace Variables

inductive Stand where
  | plain
  | blank
  | escape
  | strong
  | strongEscape
  | weak
  | weakEscape
  deriving DecidableEq

def Stand.open (c : Char) : Stand :=
  if c = '\\' then .escape else if c = '"' then .weak else if c = '\'' then .strong else .plain

def Stand.next (c : Char) : Stand → Stand
  | plain => if isBlank c ∧ c ≠ '\n' ∧ c ≠ '\r' then blank else Stand.open c
  | blank => Stand.open c
  | escape => plain
  | strong => if c = '\\' then strongEscape else if c = '\'' then plain else strong
  | strongEscape => strong
  | weak => if c = '\\' then weakEscape else if c = '"' then plain else weak
  | weakEscape => weak

/-- How the reading stands after some characters, or how many of them come before a comment. -/
def scan (stand : Stand) (count : Nat) : List Char → Stand ⊕ Nat
  | [] => .inl stand
  | c :: cs =>
    if stand = .blank ∧ c = '#' then .inr count
    else scan (stand.next c) (count + 1) cs

def cutLine : List Char → List Char × List Char
  | [] => ([], [])
  | '\n' :: cs => (['\n'], cs)
  | c :: cs => (c :: (cutLine cs).1, (cutLine cs).2)

def withoutNewline (line : List Char) : List Char :=
  match line.reverse with
  | '\n' :: '\r' :: cs => cs.reverse
  | '\n' :: cs => cs.reverse
  | _ => line

/-- The lines of a text, those that a quotation holds together joined; `none` for a last one that is
not complete. A line that is a comment is empty. -/
def lines : (most : Nat) → (held : List Char) → Stand → List Char → List (Option (List Char))
  | 0, _, _, _ => []
  | _ + 1, _, stand, [] => if stand = .plain then [] else [none]
  | most + 1, held, stand, cs =>
    let (line, rest) := cutLine cs
    let all := held ++ line
    if (trimStart all).head? = some '#' then some [] :: lines most [] .plain rest
    else
      match scan stand 0 line with
      | .inr count => some (held ++ line.take count) :: lines most [] .plain rest
      | .inl .plain => some (withoutNewline all) :: lines most [] .plain rest
      | .inl stand => lines most all stand rest

def escape? (c : Char) : Option Char :=
  if c = 'n' then some '\n' else if "\\'\"$ ".toList.contains c then some c else none

structure Naming where
  braced : Bool
  name : List Char

structure Reading where
  text : List Char := []
  escaped : Bool := false
  strong : Bool := false
  weak : Bool := false
  ended : Bool := false
  naming : Option Naming := none

namespace Reading

variable (lookup : String → Option String)

def push (r : Reading) (c : Char) : Reading := { r with text := r.text ++ [c] }

/-- Puts the value of the name that was read in its place; it is empty without one. -/
def named (r : Reading) : Reading :=
  match r.naming with
  | none => r
  | some n =>
    { r with text := r.text ++ ((lookup (.ofList n.name)).getD "").toList, naming := none }

def stepNaming (n : Naming) (c : Char) (r : Reading) : Reading :=
  if isWordCharacter c then { r with naming := some { n with name := n.name ++ [c] } }
  else if n.braced then
    if c = '\x7d' then r.named lookup
    else { r with naming := some { n with name := n.name ++ [c] } }
  else if c = '\x7b' ∧ n.name = [] then { r with naming := some { n with braced := true } }
  else if c = '$' then { r.named lookup with naming := some ⟨false, []⟩ }
  else (r.named lookup).push c

def step? (c : Char) (r : Reading) : Option Reading :=
  if r.escaped then (escape? c).map fun c => { r.push c with escaped := false }
  else if r.strong then some (if c = '\'' then { r with strong := false } else r.push c)
  else match r.naming with
    | some n => some (stepNaming lookup n c r)
    | none =>
      if c = '$' then some { r with naming := some ⟨false, []⟩ }
      else if c = '\\' then some { r with escaped := true }
      else if c = '"' then some { r with weak := !r.weak }
      else if r.weak then some (r.push c)
      else if c = '\'' then some { r with strong := true }
      else if c = ' ' ∨ c = '\t' then some { r with ended := true }
      else some (r.push c)

def finish? (r : Reading) : Option (List Char) :=
  if r.strong ∨ r.weak ∨ r.naming.any (·.braced) then none else some (r.named lookup).text

def value? (r : Reading) : List Char → Option (List Char)
  | [] => r.finish? lookup
  | c :: cs =>
    if r.ended then
      if c = ' ' ∨ c = '\t' then value? r cs
      else if c = '#' then r.finish? lookup
      else none
    else (r.step? lookup c).bind fun r => value? r cs

end Reading

def isNameStart (c : Char) : Bool := c.isAlpha || c == '_'

def isNamePart (c : Char) : Bool := c.isAlphanum || c == '_' || c == '.'

def name? (cs : List Char) : Option (List Char × List Char) :=
  match cs with
  | [] => none
  | c :: _ =>
    if isNameStart c then some (cs.takeWhile isNamePart, trimStart (cs.dropWhile isNamePart))
    else none

/-- A name and what follows its equals sign; the word `export` may stand before the name. -/
def assignment? (cs : List Char) : Option (List Char × List Char) := do
  let (name, rest) ← name? cs
  match rest with
  | '=' :: rest => return (name, trimStart rest)
  | _ =>
    if name = "export".toList then
      let (name, rest) ← name? rest
      match rest with
      | '=' :: rest => return (name, trimStart rest)
      | _ => none
    else none

/-- The variable that a line sets, if it sets one; a line that is neither this nor blank nor a
comment is wrong. -/
def ofLine? (lookup : String → Option String) (line : List Char) :
    Option (Option (String × String)) :=
  let cs := trimChars line
  if cs = [] ∨ cs.head? = some '#' then some none
  else do
    let (name, rest) ← assignment? cs
    if rest = [] ∨ rest.head? = some '#' then return some (.ofList name, "")
    else return some (.ofList name, .ofList (← Reading.value? lookup {} rest))

def addLines (vars : Variables) : List (Option (List Char)) → Variables
  | some line :: rest =>
    match ofLine? (fun name => List.lookup name vars) line with
    | none => vars
    | some none => addLines vars rest
    | some (some entry) => addLines (vars ++ [entry]) rest
  | _ => vars

def addFile (vars : Variables) (text : String) : Variables :=
  let cs := text.toList
  let cs := if cs.head? = some '\uFEFF' then cs.drop 1 else cs
  vars.addLines (lines (cs.length + 1) [] .plain cs)

end Variables

end MessageBoard.Command
