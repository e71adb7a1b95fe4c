import MessageBoard.Instant.Calendar

/-!
# Instants

A moment of universal time: a day and a time of day. Instants are ordered by their rank, which
reads the fields as the digits of one number, so a leap second comes after the second it extends
and before the next.
-/

namespace MessageBoard

structure Instant where
  date : Date
  clock : Clock
  deriving DecidableEq

namespace Instant

/-- The fields as one number, largest unit first. -/
def rank (t : Instant) : Int :=
  ((((t.date.year * 13 + t.date.month) * 32 + t.date.day) * 24 + t.clock.hour) * 60 +
    t.clock.minute) * 60 * 2000000000 + t.clock.second * 2000000000 + t.clock.nano

instance : Ord Instant := ⟨fun a b => compare a.rank b.rank⟩

instance : LT Instant := ⟨fun a b => a.rank < b.rank⟩

instance (a b : Instant) : Decidable (a < b) := inferInstanceAs (Decidable (a.rank < b.rank))

/-- The start of the year 2000, from which the store counts. -/
def epoch : Instant :=
  ⟨⟨2000, 1, 1, by decide, by decide, by decide⟩, Clock.midnight⟩

instance : Inhabited Instant :=
  ⟨⟨⟨1970, 1, 1, by decide, by decide, by decide⟩, Clock.midnight⟩⟩

/-- The instant at `minutes` before the given local time, when it is in range. -/
def ofLocal? (date : Date) (clock : Clock) (minutes : Int) : Option Instant :=
  let m : Int := clock.hour * 60 + clock.minute - minutes
  let day := if m < 0 then date.previous? else if m < 1440 then some date else date.next?
  let m := (m % 1440).toNat
  day.bind fun d =>
    (Clock.of? (m / 60) (m % 60) clock.second clock.nano).map fun c => ⟨d, c⟩

def nextSecond? (t : Instant) : Option Instant :=
  let s := t.clock.hour * 3600 + t.clock.minute * 60 + t.clock.second + 1
  let day := if s < 86400 then some t.date else t.date.next?
  day.bind fun d =>
    (Clock.of? (s / 3600 % 24) (s / 60 % 60) (s % 60) 0).map fun c => ⟨d, c⟩

def withNano (t : Instant) (nano : Nat) : Instant :=
  match Clock.of? t.clock.hour t.clock.minute t.clock.second nano with
  | some c => ⟨t.date, c⟩
  | none => t

/-- A leap second told as the second that follows it. -/
def unleap (t : Instant) : Instant :=
  if nanosPerSecond ≤ t.clock.nano then
    match t.nextSecond? with
    | some s => s.withNano (t.clock.nano - nanosPerSecond)
    | none => t
  else t

/-- The instant as the store keeps it: whole microseconds from its epoch, cut toward the epoch. -/
def stored (t : Instant) : Instant :=
  let t := t.unleap
  let micros := t.clock.nano / 1000
  if t.clock.nano % 1000 = 0 ∨ ¬ t < epoch then t.withNano (micros * 1000)
  else if micros + 1 < 1000000 then t.withNano ((micros + 1) * 1000)
  else t.nextSecond?.getD t

end MessageBoard.Instant
