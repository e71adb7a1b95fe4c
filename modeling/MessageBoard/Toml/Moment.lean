import MessageBoard.Instant.Calendar

/-!
# Dates and times of a configuration text

A day, a time of day, or both with or without an offset from universal time. Only the place of a
moment in the text matters.
-/

namespace MessageBoard.Toml

def exactly? (width : Nat) (cs : List Char) : Option (Nat × List Char) :=
  let ds := cs.take width
  if ds.length = width ∧ ds.all Char.isDigit then
    some (Nat.ofDigitChars 10 ds 0, cs.drop width)
  else none

def pair? (low high : Nat) (cs : List Char) : Option (Nat × List Char) :=
  (exactly? 2 cs).bind fun (n, rest) => if low ≤ n ∧ n ≤ high then some (n, rest) else none

def mark? (c : Char) : List Char → Option (List Char)
  | [] => none
  | x :: xs => if x = c then some xs else none

def afterDay? (cs : List Char) : Option (List Char) := do
  let (year, cs) ← exactly? 4 cs
  let (month, cs) ← pair? 1 12 (← mark? '-' cs)
  let (_, cs) ← pair? 1 (daysIn year month) (← mark? '-' cs)
  return cs

def afterFraction (cs : List Char) : List Char :=
  match cs with
  | '.' :: c :: rest => if c.isDigit then rest.dropWhile Char.isDigit else cs
  | _ => cs

def afterTime? (cs : List Char) : Option (List Char) := do
  let (_, cs) ← pair? 0 23 cs
  let (_, cs) ← pair? 0 59 (← mark? ':' cs)
  let (_, cs) ← pair? 0 60 (← mark? ':' cs)
  return afterFraction cs

def afterOffset? : List Char → Option (List Char)
  | 'Z' :: cs | 'z' :: cs => some cs
  | '+' :: cs | '-' :: cs => do
    let (_, cs) ← pair? 0 23 cs
    let (_, cs) ← pair? 0 59 (← mark? ':' cs)
    return cs
  | _ => none

/-- The time of day and the offset that may follow a day. -/
def afterClock (cs : List Char) : List Char :=
  match cs with
  | 'T' :: rest | 't' :: rest | ' ' :: rest =>
    match afterTime? rest with
    | some rest => (afterOffset? rest).getD rest
    | none => cs
  | _ => cs

def afterMoment? (cs : List Char) : Option (List Char) :=
  match afterDay? cs with
  | some rest => some (afterClock rest)
  | none => afterTime? cs

end MessageBoard.Toml
