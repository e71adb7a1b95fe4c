import MessageBoard.Text.Digits
import MessageBoard.Text.Magnitude

/-!
# JSON tokens

The words of a JSON text. The first thing that is no word ends the list as `broken`: nothing after
it is ever read. Characters are optional, `none` standing for an ill-formed place of the encoding.
-/

namespace MessageBoard.Json

open Text

inductive Number where
  /-- An integer without fraction or exponent, except a negative zero. -/
  | int (n : Int)
  | real
  /-- A number beyond the range of binary floating point. -/
  | overflow
  deriving DecidableEq

inductive Token where
  | openArray
  | closeArray
  | openObject
  | closeObject
  | comma
  | colon
  | null
  | flag (b : Bool)
  | number (n : Number)
  /-- A string; without content when its escapes or its encoding do not make up characters. -/
  | text (content : Option String)
  | broken
  deriving DecidableEq

variable (cs : List (Option Char))

def isDigitAt : Option Char → Bool
  | some c => c.isDigit
  | none => false

def digits : List Char := (cs.takeWhile isDigitAt).filterMap id

def afterDigits : List (Option Char) := cs.dropWhile isDigitAt

/-- The digits after a point, and what follows; `none` when a point has no digits after it. -/
def fraction? : Option (List Char × List (Option Char)) :=
  match cs with
  | some '.' :: cs => if digits cs = [] then none else some (digits cs, afterDigits cs)
  | cs => some ([], cs)

def exponent? : Option (Option Int × List (Option Char)) :=
  let signed (sign : Int) (cs : List (Option Char)) :=
    if digits cs = [] then none
    else some (some (sign * Nat.ofDigitChars 10 (digits cs) 0), afterDigits cs)
  match cs with
  | some 'e' :: cs | some 'E' :: cs =>
    match cs with
    | some '-' :: cs => signed (-1) cs
    | some '+' :: cs => signed 1 cs
    | cs => signed 1 cs
  | cs => some (none, cs)

def unsigned? (negative : Bool) : Option (Number × List (Option Char)) := do
  let whole := digits cs
  if whole = [] ∨ whole.head? = some '0' ∧ 1 < whole.length then none
  else
    let (part, rest) ← fraction? (afterDigits cs)
    let (power, rest) ← exponent? rest
    if exceeds (whole ++ part) (power.getD 0 - part.length) then some (.overflow, rest)
    else if part = [] ∧ power = none then
      let n := Nat.ofDigitChars 10 whole 0
      if negative then some (if n = 0 then .real else .int (-n), rest) else some (.int n, rest)
    else some (.real, rest)

def number? : Option (Number × List (Option Char)) :=
  match cs with
  | some '-' :: cs => unsigned? cs true
  | cs => unsigned? cs false

def code? : List (Option Char) → Option (Nat × List (Option Char))
  | some a :: some b :: some c :: some d :: cs => (ofDigits? 16 [a, b, c, d]).map (·, cs)
  | _ => none

def surrogates? (high low : Nat) : Option Char :=
  if 0xD800 ≤ high ∧ high < 0xDC00 ∧ 0xDC00 ≤ low ∧ low < 0xE000 then
    some (Char.ofNat (0x10000 + (high - 0xD800) * 0x400 + (low - 0xDC00)))
  else none

def plainEscape? : Char → Option Char
  | '"' => some '"'
  | '\\' => some '\\'
  | '/' => some '/'
  | 'b' => some '\x08'
  | 'f' => some '\x0c'
  | 'n' => some '\n'
  | 'r' => some '\r'
  | 't' => some '\t'
  | _ => none

inductive Piece where
  | finish (rest : List (Option Char))
  | char (c : Option Char) (rest : List (Option Char))
  | broken

/-- An escaped code unit, joined with a second one where the two make up one character. -/
def unitEscape (cs : List (Option Char)) : Piece :=
  match code? cs with
  | none => .broken
  | some (n, cs) =>
    if 0xD800 ≤ n ∧ n < 0xE000 then
      match cs with
      | some '\\' :: some 'u' :: low =>
        match code? low with
        | none => .broken
        | some (m, after) =>
          match surrogates? n m with
          | some c => .char (some c) after
          | none => .char none cs
      | cs => .char none cs
    else .char (some (Char.ofNat n)) cs

def piece : List (Option Char) → Piece
  | [] => .broken
  | some '"' :: cs => .finish cs
  | some '\\' :: some 'u' :: cs => unitEscape cs
  | some '\\' :: some c :: cs =>
    match plainEscape? c with
    | some c => .char (some c) cs
    | none => .broken
  | some '\\' :: _ => .broken
  | some c :: cs => if c.toNat < 0x20 then .broken else .char (some c) cs
  | none :: cs => .char none cs

/-- What a piece leaves is shorter than the text it was taken from. -/
def Piece.Within (n : Nat) : Piece → Prop
  | .finish rest => rest.length < n
  | .char _ rest => rest.length < n
  | .broken => True

theorem length_code? {cs rest : List (Option Char)} {n : Nat} (h : code? cs = some (n, rest)) :
    rest.length < cs.length := by
  unfold code? at h
  split at h
  · obtain ⟨_, _, e⟩ := Option.map_eq_some_iff.1 h
    simp only [Prod.mk.injEq] at e
    simp only [← e.2, List.length_cons]
    omega
  · simp at h

theorem within_unitEscape (cs : List (Option Char)) : (unitEscape cs).Within cs.length := by
  unfold unitEscape
  split
  · trivial
  · rename_i n rest h
    have hl := length_code? h
    split
    · split
      · rename_i low
        split
        · trivial
        · rename_i m after h'
          have hl' := length_code? h'
          simp only [List.length_cons] at hl
          split <;> simp only [Piece.Within, List.length_cons] <;> omega
      · exact hl
    · exact hl

theorem within_piece (cs : List (Option Char)) : (piece cs).Within cs.length := by
  unfold piece
  split
  · trivial
  · simp [Piece.Within]
  · rename_i cs
    have := within_unitEscape cs
    cases h : unitEscape cs <;> simp_all [Piece.Within] <;> omega
  · split
    · simp only [Piece.Within, List.length_cons]
      omega
    · trivial
  · trivial
  · split <;> simp [Piece.Within]
  · simp [Piece.Within]

/-- A string after its opening quote: its content and what follows it, unless it is broken. The
characters so far are in reverse, and missing once one of them is. -/
def string? (sofar : Option (List Char)) (cs : List (Option Char)) :
    Option (Option String × List (Option Char)) :=
  match h : piece cs with
  | .finish rest => some (sofar.map fun s => .ofList s.reverse, rest)
  | .char c rest =>
    have : rest.length < cs.length := by simpa [h, Piece.Within] using within_piece cs
    string? (do return (← c) :: (← sofar)) rest
  | .broken => none
termination_by cs.length

def next : (c : Option Char) → (cs : List (Option Char)) → Token × List (Option Char)
  | some '[', cs => (.openArray, cs)
  | some ']', cs => (.closeArray, cs)
  | some '\x7b', cs => (.openObject, cs)
  | some '\x7d', cs => (.closeObject, cs)
  | some ',', cs => (.comma, cs)
  | some ':', cs => (.colon, cs)
  | some 'n', some 'u' :: some 'l' :: some 'l' :: cs => (.null, cs)
  | some 't', some 'r' :: some 'u' :: some 'e' :: cs => (.flag true, cs)
  | some 'f', some 'a' :: some 'l' :: some 's' :: some 'e' :: cs => (.flag false, cs)
  | some '"', cs =>
    match string? (some []) cs with
    | some (content, cs) => (.text content, cs)
    | none => (.broken, [])
  | c, cs =>
    match number? (c :: cs) with
    | some (n, cs) => (.number n, cs)
    | none => (.broken, [])

def isSpace : Option Char → Bool
  | some c => c == ' ' || c == '\n' || c == '\t' || c == '\r'
  | none => false

/-- The tokens of a text, after those already found in reverse. Every token takes a character, so
there are at most `fuel` of them. -/
def tokensFrom (found : List Token) : (fuel : Nat) → List (Option Char) → List Token
  | 0, _ => found.reverse
  | fuel + 1, cs =>
    match cs.dropWhile isSpace with
    | [] => found.reverse
    | c :: cs =>
      let (token, rest) := next c cs
      tokensFrom (token :: found) fuel rest

def tokens (cs : List (Option Char)) : List Token := tokensFrom [] cs.length cs

end MessageBoard.Json
