import MessageBoard.Filter.Error
import MessageBoard.Text.Blank

/-!
# Sort orders

A listing is sorted by the fields asked for, each up or down, and by the identifier at last, so
that no two rows tie.
-/

namespace MessageBoard

open Text

structure SortKey where
  column : String
  descending : Bool
  deriving DecidableEq

namespace SortKey

/-- A name behind an optional `-`, which asks for descending order. -/
def ofText (raw : String) : SortKey :=
  match trimChars raw.toList with
  | '-' :: cs => ⟨.ofList cs, true⟩
  | cs => ⟨.ofList cs, false⟩

def read (safelist : List String) (raw : String) : Except FilterError SortKey :=
  let key := ofText raw
  if key.column ≠ "" ∧ key.column ∈ safelist then .ok key else .error (.unsortableField raw)

def toText (key : SortKey) : String := key.column ++ if key.descending then " DESC" else " ASC"

end SortKey

def sortKeys (fields safelist : List String) : Except FilterError (List SortKey) :=
  fields.mapM (SortKey.read safelist)

/-- The identifier alone, or the given keys and the identifier after them. -/
def orderByText (keys : List SortKey) : String :=
  if keys = [] then "ORDER BY id"
  else "ORDER BY " ++ ", ".intercalate ((keys ++ [SortKey.mk "id" false]).map SortKey.toText)

def orderByClause (fields safelist : List String) : Except FilterError String :=
  (sortKeys fields safelist).map orderByText

end MessageBoard
