/-!
# Request targets

The target of a request is an absolute path, a whole URI, an authority alone or an asterisk. Of it
only the path and the query matter. Fragments are cut off.
-/

namespace MessageBoard.Http

structure Target where
  path : List Char
  query : Option (List Char)
  deriving DecidableEq

namespace Target

def isPathChar (c : Char) : Bool :=
  let n := c.toNat
  n == 0x21 || (0x24 ≤ n && n ≤ 0x3B) || n == 0x3D || (0x40 ≤ n && n ≤ 0x5F) ||
    (0x61 ≤ n && n ≤ 0x7A) || n == 0x7C || 0x7E ≤ n || c == '"' || c == '\x7b' || c == '\x7d'

def isQueryChar (c : Char) : Bool :=
  let n := c.toNat
  n == 0x21 || (0x24 ≤ n && n ≤ 0x3B) || n == 0x3D || 0x3F ≤ n

def beforeFragment (cs : List Char) : List Char := cs.takeWhile (· ≠ '#')

/-- A path and a query; an empty path is the root. -/
def ofPathAndQuery (cs : List Char) : Option Target :=
  let cs := beforeFragment cs
  let path := cs.takeWhile (· ≠ '?')
  let query := match cs.dropWhile (· ≠ '?') with
    | [] => none
    | _ :: query => some query
  if path.all isPathChar ∧ (query.getD []).all isQueryChar then
    some ⟨if path = [] then ['/'] else path, query⟩
  else none

def isAuthorityChar (c : Char) : Bool := c.isAlphanum || "-._~:[]@!$&'()*+,;=%".toList.contains c

/-- The colons and percent signs that count are those after the user's name and the brackets. -/
def isAuthority (cs : List Char) : Bool :=
  let host := (cs.reverse.takeWhile fun c => c != '@' && c != ']').reverse
  let brackets := cs.filter fun c => c == '[' || c == ']'
  let colons := cs.count ':'
  cs.all isAuthorityChar && (brackets == [] || brackets == ['[', ']']) &&
    host.count ':' ≤ 1 && !host.contains '%' && cs.getLast? != some '@' && colons ≤ 8

def afterScheme? (cs : List Char) : Option (List Char) :=
  let scheme := cs.takeWhile fun c => c.isAlphanum || c == '+' || c == '-' || c == '.'
  match cs.drop scheme.length with
  | ':' :: '/' :: '/' :: rest => if scheme.length ≤ 64 then some rest else none
  | _ => none

def maxLength : Nat := 65534

def ofChars (cs : List Char) : Option Target :=
  match cs with
  | [] => none
  | '/' :: _ => ofPathAndQuery cs
  | ['*'] => some ⟨cs, none⟩
  | cs =>
    match afterScheme? cs with
    | none => if isAuthority cs then some ⟨[], none⟩ else none
    | some rest =>
      let authority := rest.takeWhile fun c => c != '/' && c != '?' && c != '#'
      if authority ≠ [] ∧ isAuthority authority then ofPathAndQuery (rest.drop authority.length)
      else none

def ofText (s : String) : Option Target :=
  if s.utf8ByteSize ≤ maxLength then ofChars s.toList else none

end Target

end MessageBoard.Http
