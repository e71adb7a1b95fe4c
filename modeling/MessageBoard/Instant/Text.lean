import MessageBoard.Instant.Basic
import MessageBoard.Text.Blank
import MessageBoard.Text.Digits

/-!
# The text of an instant

An instant is written in universal time with a `Z`, with none, three, six or nine digits of a
second's fraction, the fewest that lose nothing; a year outside 0 to 9999 carries a sign.
It is read more freely: blanks may stand before each number, a blank may replace the `T`, and the
zone is a `Z` or an offset in hours and minutes.
-/

namespace MessageBoard.Instant

open Text

def yearText (year : Int) : List Char :=
  if 0 ≤ year ∧ year ≤ 9999 then fixed 10 4 year.toNat
  else
    let ds := decimal year.natAbs
    (if year < 0 then '-' else '+') :: ds.leftpad 4 '0'

/-- The fraction of a second, with the fewest of three, six or nine digits. -/
def fractionText (nano : Nat) : List Char :=
  if nano = 0 then []
  else if nano % 1000000 = 0 then '.' :: fixed 10 3 (nano / 1000000)
  else if nano % 1000 = 0 then '.' :: fixed 10 6 (nano / 1000)
  else '.' :: fixed 10 9 nano

def toChars (t : Instant) : List Char :=
  let leap := nanosPerSecond ≤ t.clock.nano
  let second := if leap then 60 else t.clock.second
  let nano := if leap then t.clock.nano - nanosPerSecond else t.clock.nano
  yearText t.date.year ++ '-' :: fixed 10 2 t.date.month ++ '-' :: fixed 10 2 t.date.day ++
    'T' :: fixed 10 2 t.clock.hour ++ ':' :: fixed 10 2 t.clock.minute ++
    ':' :: fixed 10 2 second ++ fractionText nano ++ ['Z']

def toText (t : Instant) : String := .ofList t.toChars

instance : ToString Instant := ⟨toText⟩

def number? (most : Nat) (cs : List Char) : Option (Nat × List Char) :=
  let ds := (cs.take most).takeWhile Char.isDigit
  if ds = [] then none else some (Nat.ofDigitChars 10 ds 0, cs.drop ds.length)

def literal? (c : Char) : List Char → Option (List Char)
  | [] => none
  | x :: xs => if x = c then some xs else none

/-- A year of up to four digits, or of any number of them behind a sign. -/
def year? : List Char → Option (Int × List Char)
  | '-' :: cs => (number? cs.length cs).map fun (n, cs) => (-n, cs)
  | '+' :: cs => (number? cs.length cs).map fun (n, cs) => (n, cs)
  | cs => (number? 4 cs).map fun (n, cs) => (n, cs)

/-- The nanoseconds of a fraction, digits after the ninth dropped; none without a point. -/
def fraction? : List Char → Option (Nat × List Char)
  | '.' :: cs =>
    let ds := cs.takeWhile Char.isDigit
    if ds = [] then none
    else some (Nat.ofDigitChars 10 (ds.take 9) 0 * Nat.pow 10 (9 - ds.length), cs.drop ds.length)
  | cs => some (0, cs)

/-- Hours and minutes of two digits each, colons and blanks allowed between, in minutes. -/
def offset? (cs : List Char) : Option (Nat × List Char) :=
  let two (cs : List Char) :=
    if (cs.take 2).length = 2 ∧ (cs.take 2).all Char.isDigit then
      some (Nat.ofDigitChars 10 (cs.take 2) 0, cs.drop 2)
    else none
  do
    let (hours, cs) ← two cs
    let (minutes, cs) ← two (cs.dropWhile fun c => c = ':' || isBlank c)
    if hours < 24 ∧ minutes < 60 then some (hours * 60 + minutes, cs) else none

def zone? : List Char → Option (Int × List Char)
  | 'Z' :: cs | 'z' :: cs => some (0, cs)
  | '+' :: cs => (offset? cs).map fun (m, cs) => (m, cs)
  | '-' :: cs | '\u2212' :: cs => (offset? cs).map fun (m, cs) => (-m, cs)
  | u :: t :: c :: cs => if [u, t, c].map Char.toLower = ['u', 't', 'c'] then some (0, cs) else none
  | _ => none

def ofChars? (cs : List Char) : Option Instant := do
  let (year, cs) ← year? (trimStart cs)
  let cs ← literal? '-' (trimStart cs)
  let (month, cs) ← number? 2 (trimStart cs)
  let cs ← literal? '-' (trimStart cs)
  let (day, cs) ← number? 2 (trimStart cs)
  let cs ← literal? 'T' cs <|> literal? 't' cs <|> literal? ' ' cs
  let (hour, cs) ← number? 2 (trimStart cs)
  let cs ← literal? ':' (trimStart cs)
  let (minute, cs) ← number? 2 (trimStart cs)
  let cs ← literal? ':' (trimStart cs)
  let (second, cs) ← number? 2 (trimStart cs)
  let (nano, cs) ← fraction? cs
  let (minutes, cs) ← zone? (trimStart cs)
  if trimStart cs = [] then
    let date ← Date.of? year month day
    let clock ← if second = 60 then Clock.of? hour minute 59 (nanosPerSecond + nano)
      else Clock.of? hour minute second nano
    ofLocal? date clock minutes
  else none

def ofText? (s : String) : Option Instant := ofChars? s.toList

end MessageBoard.Instant
