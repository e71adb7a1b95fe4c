import MessageBoard.Instant.Text
import MessageBoard.Shape.Basic
import MessageBoard.Sql

/-!
# Rows

What the store answers: rows of named cells. A record is read from a row by the names of its
columns, a number by its position. A cell that is missing or null where a value is needed makes the
row unreadable; instants are read in whole microseconds.
-/

namespace MessageBoard

inductive Cell where
  | null
  | flag (b : Bool)
  | int (n : Int)
  | text (s : String)
  | bound (b : Bind)
  deriving DecidableEq

abbrev Row := List (String × Cell)

namespace Cell

def uuid? : Cell → Option Uuid
  | text s => Uuid.ofText s
  | bound (.value (.uuid u)) => u
  | _ => none

def text? : Cell → Option String
  | text s => some s
  | bound (.value (.text s)) => s
  | _ => none

def flag? : Cell → Option Bool
  | flag b => some b
  | bound (.value (.flag b)) => b
  | _ => none

def instant? : Cell → Option Instant
  | text s => (Instant.ofText? s).map Instant.stored
  | bound (.value (.instant t)) => t.map Instant.stored
  | _ => none

def number? (w : Width) : Cell → Option w.Val
  | int n => w.ofInt? n
  | bound (.value (.int (some n))) => w.ofInt? n.toInt
  | bound (.smallint n) => w.ofInt? n.toInt
  | _ => none

def isNull : Cell → Bool
  | null => true
  | bound (.value v) => v.isNull
  | _ => false

end Cell

def Shape.ofCell? : (s : Shape) → Cell → Option s.Val
  | .uuid, c => c.uuid?
  | .text, c => c.text?
  | .flag, c => c.flag?
  | .instant, c => c.instant?
  | .number w, c => c.number? w
  | .option s, c => if c.isNull then some none else (s.ofCell? c).map some
  | .list _, _ => none
  | .record _, _ => none
  | .flat _ _, _ => none

def Fields.ofRow? : (fs : Fields) → Row → Option fs.Val
  | .nil, _ => some ()
  | .cons name s _ rest, row => do
    let v ← s.ofCell? (← row.lookup name)
    return (v, ← rest.ofRow? row)

def Shape.ofRow? : (s : Shape) → Row → Option s.Val
  | .record fs, row => fs.ofRow? row
  | _, _ => none

def Wire.ofRow? {α : Type} (wire : Wire α) (row : Row) : Option α :=
  (wire.shape.ofRow? row).map wire.ofVal

/-- The number in a column, counted from zero. -/
def Row.number? (row : Row) (i : Nat) : Option Int64 := row[i]?.bind fun c => c.2.number? .int64

end MessageBoard
