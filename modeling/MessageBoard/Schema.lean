import MessageBoard.Value

/-!
# Schemas

What a statement needs to know of a table: its names, the list of its selected columns, and the
columns that a filter may constrain or sort by.
-/

namespace MessageBoard

structure Column where
  name : String
  type : ColumnType
  deriving DecidableEq

structure TableSchema where
  table : String
  /-- The name of a row of the table within a statement. -/
  row : String
  resource : String
  select : String
  filterable : List Column
  sortable : List String
  deriving DecidableEq

namespace TableSchema

def column? (schema : TableSchema) (name : String) : Option ColumnType :=
  (schema.filterable.find? (·.name == name)).map (·.type)

def isSortable (schema : TableSchema) (name : String) : Bool := schema.sortable.contains name

end TableSchema

/-- A table of votes, one by each user on each target. -/
structure VoteSchema where
  table : String
  /-- The column of what is voted on. -/
  target : String
  resource : String
  deriving DecidableEq

end MessageBoard
