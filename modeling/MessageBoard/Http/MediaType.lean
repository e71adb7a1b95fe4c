/-!
# Media types

The type of a request's body as its header tells it: two names parted by a slash, and parameters.
Names are compared without regard to case. A subtype may end in a suffix behind a plus sign.
-/

namespace MessageBoard.Http.MediaType

def isToken (c : Char) : Bool := c.isAlphanum || "!#$%&'*+-.^_\x60|~".toList.contains c

def isQuotedChar (c : Char) : Bool := 0x1f < c.toNat && c.toNat != 0x7f

def quoted? : List Char → Option (List Char)
  | [] => none
  | c :: cs =>
    if isQuotedChar c then
      let rest := cs.dropWhile fun c => c != '"' && isQuotedChar c
      if rest.head? = some '"' then some (rest.drop 1) else none
    else none

def parameter? (cs : List Char) : Option (List Char) :=
  let name := cs.takeWhile isToken
  match name, cs.drop name.length with
  | _ :: _, '=' :: '"' :: rest => do
    match (← quoted? rest).dropWhile (· = ' ') with
    | [] => some []
    | ';' :: rest => some rest
    | _ => none
  | _ :: _, '=' :: rest =>
    let value := rest.takeWhile isToken
    match rest.drop value.length with
    | [] => some []
    | ';' :: rest => if value = [] then none else some rest
    | _ => none
  | _, _ => none

/-- Whether a text is a list of parameters, each behind any number of blanks. Every parameter takes
a character, so there are at most `fuel` of them. -/
def parameters : (fuel : Nat) → List Char → Bool
  | 0, _ => true
  | fuel + 1, cs =>
    match cs.dropWhile (· = ' ') with
    | [] => true
    | cs =>
      match parameter? cs with
      | some rest => parameters fuel rest
      | none => false

/-- A subtype without its suffix, and the suffix behind its last plus sign. -/
def splitSuffix (cs : List Char) : List Char × Option (List Char) :=
  let suffix := (cs.reverse.takeWhile (· ≠ '+')).reverse
  let before := cs.take (cs.length - suffix.length - 1)
  if before = [] then (cs, none) else (before, some suffix)

def isJson (header : String) : Bool :=
  let cs := header.toList
  let type := cs.takeWhile isToken
  match cs.drop type.length with
  | '/' :: rest =>
    let whole := rest.takeWhile isToken
    let after := rest.drop whole.length
    let (subtype, suffix) := splitSuffix (whole.map Char.toLower)
    type.map Char.toLower = "application".toList &&
      (subtype = "json".toList || suffix = some "json".toList) &&
      match after with
      | [] => true
      | ';' :: rest => parameters (rest.length + 1) rest
      | _ => false
  | _ => false

end MessageBoard.Http.MediaType
