import MessageBoard.Text.Digits

/-!
# Durations

Spans of time in nanoseconds. A duration is written in its largest fitting unit, exactly, or as a
number of seconds in binary floating point, with the fewest decimal places that read back.
-/

namespace MessageBoard

open Text

structure Duration where
  nanos : Nat
  deriving DecidableEq

namespace Duration

instance : Inhabited Duration := ⟨⟨0⟩⟩

def ofSeconds (n : Nat) : Duration := ⟨n * 1000000000⟩

def ofMillis (n : Nat) : Duration := ⟨n * 1000000⟩

/-- A number of units of `10 ^ places`, without trailing zeros after the point. -/
def pointed (places n : Nat) : List Char :=
  let fraction := ((fixed 10 places (n % Nat.pow 10 places)).reverse.dropWhile (· = '0')).reverse
  decimal (n / Nat.pow 10 places) ++ if fraction = [] then [] else '.' :: fraction

def toText (d : Duration) : String :=
  if 1000000000 ≤ d.nanos then .ofList (pointed 9 d.nanos) ++ "s"
  else if 1000000 ≤ d.nanos then .ofList (pointed 6 d.nanos) ++ "ms"
  else if 1000 ≤ d.nanos then .ofList (pointed 3 d.nanos) ++ "µs"
  else .ofList (pointed 0 d.nanos) ++ "ns"

def spacing (x : Rat) : Rat :=
  let scale : Int := (Nat.log2 x.num.natAbs : Int) - Nat.log2 x.den - 52
  if x < 2 ^ (scale + 52) then 2 ^ (scale - 1) else 2 ^ scale

/-- The whole number nearest to `x`, the even one of two. -/
def roundEven (x : Rat) : Int :=
  let below := x.floor
  let rest := x - below
  if rest < 1 / 2 ∨ rest = 1 / 2 ∧ below % 2 = 0 then below else below + 1

def nearest (x : Rat) : Rat :=
  if x = 0 then 0 else roundEven (x / spacing x) * spacing x

/-- The duration in seconds, whole seconds and the fraction rounded before they are added. -/
def seconds (d : Duration) : Rat :=
  nearest (nearest ((d.nanos / 1000000000 : Nat) : Rat) +
    nearest (((d.nanos % 1000000000 : Nat) : Rat) / 1000000000))

/-- The decimal of fewest places, at least `places`, whose nearest binary number is `x`. -/
def shortest (x : Rat) : (fuel places : Nat) → List Char
  | 0, places => pointed places (roundEven (x * Nat.pow 10 places)).toNat
  | fuel + 1, places =>
    let n := roundEven (x * Nat.pow 10 places)
    if nearest (n / Nat.pow 10 places) = x then pointed places n.toNat
    else shortest x fuel (places + 1)

def secondsText (d : Duration) : String := .ofList (shortest d.seconds 40 0)

end Duration

end MessageBoard
