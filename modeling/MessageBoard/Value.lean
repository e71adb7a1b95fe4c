import MessageBoard.Instant.Basic
import MessageBoard.Uuid

/-!
# Typed values

The values that columns hold and statements bind. Each value has a type, also the absent one, and
only present values of one type can be compared.
-/

namespace MessageBoard

inductive ColumnType where
  | uuid
  | text
  | flag
  | instant
  | int
  deriving DecidableEq

def ColumnType.name : ColumnType → String
  | .uuid => "uuid"
  | .text => "text"
  | .flag => "bool"
  | .instant => "timestamp"
  | .int => "int"

/-- A value of one of the column types; `none` is the null of that type. -/
inductive Value where
  | uuid (content : Option Uuid)
  | text (content : Option String)
  | flag (content : Option Bool)
  | instant (content : Option Instant)
  | int (content : Option Int64)
  deriving DecidableEq

namespace Value

def type : Value → ColumnType
  | .uuid _ => .uuid
  | .text _ => .text
  | .flag _ => .flag
  | .instant _ => .instant
  | .int _ => .int

def isNull : Value → Bool
  | .uuid v => v.isNone
  | .text v => v.isNone
  | .flag v => v.isNone
  | .instant v => v.isNone
  | .int v => v.isNone

/-- The order of two present values of one type: texts by their characters, `false` first. -/
def compare? : Value → Value → Option Ordering
  | .uuid (some a), .uuid (some b) => some (compare a b)
  | .text (some a), .text (some b) => some (compare a b)
  | .flag (some a), .flag (some b) => some (compare a b)
  | .instant (some a), .instant (some b) => some (compare a b)
  | .int (some a), .int (some b) => some (compare a b)
  | _, _ => none

end Value

def supplied {α : Type} (column : String) (value : Option α → Value) :
    Option α → List (String × Value)
  | none => []
  | some v => [(column, value (some v))]

end MessageBoard
