import MessageBoard.Text.Digits
import MessageBoard.Text.Magnitude

/-!
# Numbers of a configuration text

Integers of 64 bits, in base ten with or without a sign, or without one in base two, eight or
sixteen; and real numbers, of which only the place in the text matters. An underscore may stand
between any two digits.
-/

namespace MessageBoard.Toml

open MessageBoard.Text

def moreDigits (base : Nat) : List Char → Option (List Char × List Char)
  | [] => some ([], [])
  | ['_'] => none
  | '_' :: c :: cs =>
    if (digit? base c).isSome then (moreDigits base cs).map fun (ds, rest) => (c :: ds, rest)
    else none
  | c :: cs =>
    if (digit? base c).isSome then (moreDigits base cs).map fun (ds, rest) => (c :: ds, rest)
    else some ([], c :: cs)

def digits? (base : Nat) : List Char → Option (List Char × List Char)
  | c :: cs =>
    if (digit? base c).isSome then (moreDigits base cs).map fun (ds, rest) => (c :: ds, rest)
    else none
  | [] => none

/-- The digits of a whole number, which starts with a zero only if it is zero. -/
def whole? : List Char → Option (List Char × List Char)
  | '0' :: cs => some (['0'], cs)
  | cs => digits? 10 cs

def signed : List Char → Bool × List Char
  | '-' :: cs => (true, cs)
  | '+' :: cs => (false, cs)
  | cs => (false, cs)

def word? (n : Int) : Option Int := if (Int64.ofInt n).toInt = n then some n else none

def based? (base : Nat) (cs : List Char) : Option (Int × List Char) := do
  let (ds, rest) ← digits? base cs
  return (← word? (← ofDigits? base ds), rest)

def int? : List Char → Option (Int × List Char)
  | '0' :: 'x' :: cs => based? 16 cs
  | '0' :: 'o' :: cs => based? 8 cs
  | '0' :: 'b' :: cs => based? 2 cs
  | cs => do
    let (negative, cs) := signed cs
    let (ds, rest) ← whole? cs
    let n : Int ← ofDigits? 10 ds
    return (← word? (if negative then -n else n), rest)

def fraction? : List Char → Option (List Char × List Char)
  | '.' :: cs => digits? 10 cs
  | cs => some ([], cs)

def exponent? : List Char → Option (Int × List Char)
  | 'e' :: cs | 'E' :: cs => do
    let (negative, cs) := signed cs
    let (ds, rest) ← digits? 10 cs
    let n : Int ← ofDigits? 10 ds
    return (if negative then -n else n, rest)
  | cs => some (0, cs)

/-- What follows a real number, which has a fraction or an exponent and is not beyond the range of
numbers above. -/
def afterDecimal? (cs : List Char) : Option (List Char) := do
  let (negative, cs) := signed cs
  let (ds, rest) ← whole? cs
  let (part, rest) ← fraction? rest
  let (power, after) ← exponent? rest
  if part = [] ∧ after.length = rest.length then none
  else if !negative && exceeds (ds ++ part) (power - part.length) then none
  else some after

def afterSpecial? (cs : List Char) : Option (List Char) :=
  match (signed cs).2 with
  | 'i' :: 'n' :: 'f' :: cs => some cs
  | 'n' :: 'a' :: 'n' :: cs => some cs
  | _ => none

def afterReal? (cs : List Char) : Option (List Char) :=
  match afterDecimal? cs with
  | some rest => some rest
  | none => afterSpecial? cs

end MessageBoard.Toml
