import MessageBoard.Net.Address
import MessageBoard.Text.Percent

/-!
# Addresses of stores

A URL tells where a store listens: at a port of a host, or at a socket in a directory. A host that
is a path, once its percent signs are resolved, is such a directory. The parameters of the URL may
say otherwise, the later ones over the earlier.
-/

namespace MessageBoard.Store

open Text

inductive Encryption where
  | refused
  | welcome
  | required
  deriving DecidableEq

structure Address where
  host : String := "localhost"
  /-- The directory of the socket, which counts instead of the host. -/
  directory : Option String := none
  port : UInt16 := 5432
  encryption : Encryption := .welcome
  deriving DecidableEq

namespace Address

def socket? (a : Address) : Option String :=
  a.directory.map fun dir => dir ++ "/.s.PGSQL." ++ .ofList (decimal a.port.toNat)

def port? (cs : List Char) : Option UInt16 := (unsigned? UInt16.size cs).map .ofNat

def resolved? (cs : List Char) : Option String := Utf8.text? (unescape (Utf8.encode cs))

def atHost (a : Address) (host : String) : Address :=
  if host.toList.head? = some '/' then { a with directory := some host } else { a with host }

def lowered (s : String) : String := .ofList (s.toList.map Char.toLower)

def encryption? (mode : String) : Option Encryption :=
  match lowered mode with
  | "disable" | "allow" => some .refused
  | "prefer" => some .welcome
  | "require" | "verify-ca" | "verify-full" => some .required
  | _ => none

def isAddress (cs : List Char) : Bool :=
  (Net.Ip4.ofChars? cs).isSome || (Net.Ip6.ofChars? cs).isSome

/-- Takes a parameter into account, unless it says nothing that it could say. -/
def withParameter? (a : Address) (name value : String) : Option Address :=
  match name with
  | "host" => some (a.atHost value)
  | "hostaddr" => if isAddress value.toList then some { a with host := value } else none
  | "port" => (port? value.toList).map fun port => { a with port }
  | "sslmode" | "ssl-mode" => (encryption? value).map fun encryption => { a with encryption }
  | "statement-cache-capacity" => (unsigned? UInt64.size value.toList).map fun _ => a
  | _ => some a

def isForbidden (c : Char) : Bool := "\x00 <>^|\\[]@".toList.contains c

/-- The host and the port of an authority, the latter missing or empty when none is set. -/
def hostPort? (cs : List Char) : Option (List Char × List Char) :=
  match cs with
  | '[' :: rest => do
    let (host, port) ← cutFirst? [']'] rest
    if (Net.Ip6.ofChars? host).isNone then none
    else
      match port with
      | [] => some ('[' :: host ++ [']'], [])
      | ':' :: port => some ('[' :: host ++ [']'], port)
      | _ => none
  | cs =>
    match cutFirst? [':'] cs with
    | none => if cs.any isForbidden then none else some (cs, [])
    | some (host, port) => if host = [] ∨ host.any isForbidden then none else some (host, port)

def withPort? (a : Address) (cs : List Char) : Option Address :=
  if cs = [] then some a
  else if cs.all Char.isDigit then (port? cs).map fun port => { a with port }
  else none

def ofAuthority? (cs : List Char) : Option Address := do
  let (credentials, rest) := (cutLast? '@' cs).getD ([], cs)
  let (host, port) ← hostPort? rest
  let _ ← resolved? credentials
  let name ← resolved? host
  if host ≠ [] then (({} : Address).atHost name).withPort? port
  else if cs.contains '@' then none
  else withPort? {} port

def afterScheme? (cs : List Char) : Option (List Char) := do
  let (scheme, rest) ← cutFirst? [':'] cs
  if (scheme.head?.map Char.isAlpha) = some true ∧
      scheme.all (fun c => c.isAlphanum || c == '+' || c == '-' || c == '.') then some rest
  else none

/-- Characters that a URL does not count at its ends. -/
def isEdge (c : Char) : Bool := c.toNat ≤ 0x20

def trimEdges (cs : List Char) : List Char :=
  ((cs.dropWhile isEdge).reverse.dropWhile isEdge).reverse

/-- Characters that a URL does not count anywhere. -/
def isBreak (c : Char) : Bool := c == '\t' || c == '\n' || c == '\r'

def ofUrl? (url : String) : Option Address := do
  let rest ← afterScheme? ((trimEdges url.toList).filter (!isBreak ·))
  let rest := rest.takeWhile (· ≠ '#')
  let query := (rest.dropWhile (· ≠ '?')).drop 1
  let (authority, path) :=
    match rest.takeWhile (· ≠ '?') with
    | '/' :: '/' :: rest => (rest.takeWhile (· ≠ '/'), rest.dropWhile (· ≠ '/'))
    | rest => ([], rest)
  let a ← ofAuthority? authority
  let _ ← resolved? path
  (formPairs query).foldlM (fun a (name, value) => a.withParameter? name value) a

end Address

end MessageBoard.Store
