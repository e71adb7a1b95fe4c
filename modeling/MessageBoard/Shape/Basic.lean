import MessageBoard.Instant.Basic
import MessageBoard.Uuid

/-!
# Shapes

A shape describes the values that cross the boundary of the program: numbers, texts, lists, and
records of named fields in a fixed order. Each way of writing values is defined once on shapes, and
a type of the library is written and read by way of the shape it is converted to.

Records are read field by field, in any order, into slots that are empty at first. A field that is
still missing at the end takes its initial value if its shape or its presence allows that.
-/

namespace MessageBoard

inductive Width where
  | int16
  | int64
  | uint32
  | uint64
  deriving DecidableEq

namespace Width

@[reducible] def Val : Width → Type
  | int16 => Int16
  | int64 => Int64
  | uint32 => UInt32
  | uint64 => UInt64

def toInt : (w : Width) → w.Val → Int
  | int16, n => Int16.toInt n
  | int64, n => Int64.toInt n
  | uint32, n => (UInt32.toNat n : Int)
  | uint64, n => (UInt64.toNat n : Int)

/-- The integer of this size that `n` comes to when its higher bits are dropped. -/
def wrap : (w : Width) → Int → w.Val
  | int16, n => Int16.ofInt n
  | int64, n => Int64.ofInt n
  | uint32, n => UInt32.ofInt n
  | uint64, n => UInt64.ofInt n

def ofInt? (w : Width) (n : Int) : Option w.Val :=
  if w.toInt (w.wrap n) = n then some (w.wrap n) else none

end Width

/-- Whether a field may be left out although its shape has no absent value. -/
inductive Presence where
  | required
  | defaulted
  deriving DecidableEq

mutual

inductive Shape where
  | uuid
  | text
  | flag
  | instant
  | number (w : Width)
  | option (s : Shape)
  | list (s : Shape)
  | record (fs : Fields)
  /-- A record whose first fields are those of another one. -/
  | flat (inner own : Fields)

inductive Fields where
  | nil
  | cons (name : String) (s : Shape) (p : Presence) (rest : Fields)

end

mutual

@[reducible] def Shape.Val : Shape → Type
  | .uuid => Uuid
  | .text => String
  | .flag => Bool
  | .instant => Instant
  | .number w => w.Val
  | .option s => Option s.Val
  | .list s => List s.Val
  | .record fs => fs.Val
  | .flat inner own => inner.Val × own.Val

@[reducible] def Fields.Val : Fields → Type
  | .nil => Unit
  | .cons _ s _ rest => s.Val × rest.Val

end

mutual

def Shape.initial : (s : Shape) → s.Val
  | .uuid => Uuid.zero
  | .text => ""
  | .flag => false
  | .instant => default
  | .number .int16 => (0 : Int16)
  | .number .int64 => (0 : Int64)
  | .number .uint32 => (0 : UInt32)
  | .number .uint64 => (0 : UInt64)
  | .option _ => none
  | .list _ => []
  | .record fs => fs.initial
  | .flat inner own => (inner.initial, own.initial)

def Fields.initial : (fs : Fields) → fs.Val
  | .nil => ()
  | .cons _ s _ rest => (s.initial, rest.initial)

end

def Shape.absent? : (s : Shape) → Option s.Val
  | .option _ => some none
  | _ => none

namespace Fields

/-- A record being read: the values found so far. -/
@[reducible] def Slots : Fields → Type
  | nil => Unit
  | cons _ s _ rest => Option s.Val × rest.Slots

@[reducible] def Readers (ε α : Type) : Fields → Type
  | nil => Unit
  | cons _ s _ rest => (α → Except ε s.Val) × rest.Readers ε α

variable {ε α : Type}

def noSlots : (fs : Fields) → fs.Slots
  | nil => ()
  | cons _ _ _ rest => (none, rest.noSlots)

/-- Reads the field `name`, unless there is none of that name; a field is not read twice. -/
def put (repeated : String → ε) (name : String) (input : α) :
    (fs : Fields) → fs.Readers ε α → fs.Slots → Except ε (Option fs.Slots)
  | nil, _, _ => .ok none
  | cons field _ _ rest, (read, readers), (slot, slots) =>
    if name = field then
      match slot with
      | some _ => .error (repeated field)
      | none => (read input).map fun v => some (some v, slots)
    else (rest.put repeated name input readers slots).map (Option.map fun slots => (slot, slots))

/-- The record of the fields found, when none that it needs is missing. -/
def fill : (fs : Fields) → fs.Slots → Option fs.Val
  | nil, _ => some ()
  | cons _ s p rest, (slot, slots) => do
    let v ← slot <|> s.absent? <|> (if p = .defaulted then some s.initial else none)
    return (v, ← rest.fill slots)

def names : Fields → List String
  | nil => []
  | cons name _ _ rest => name :: rest.names

end Fields

/-- How the values of a type are told as values of a shape. -/
structure Wire (α : Type) where
  shape : Shape
  toVal : α → shape.Val
  ofVal : shape.Val → α

end MessageBoard
