import MessageBoard.Filter.Basic
import MessageBoard.Filter.Order
import MessageBoard.Schema

/-!
# Filters checked against a table

Only columns that the table's schema names get into a statement. A filter is checked before it is
used: the page size, then each constraint in the order of the columns, then each sort field.
-/

namespace MessageBoard.Filter

def checkType (column : String) (expected : ColumnType) (value : Value) :
    Except FilterError Unit :=
  if value.type = expected then .ok ()
  else .error (.typeMismatch column expected.name value.type.name)

def checkConstraint (column : String) (expected : ColumnType) : Constraint →
    Except FilterError Unit
  | .equals value => checkType column expected value
  | .between none none => .error (.emptyRange column)
  | .between (some lower) none => checkType column expected lower
  | .between none (some upper) => checkType column expected upper
  | .between (some lower) (some upper) => do
    checkType column expected lower
    checkType column expected upper
    if lower.compare? upper = some .gt then .error (.invertedRange column) else .ok ()

def checkEntry (schema : TableSchema) (entry : String × Constraint) : Except FilterError Unit :=
  match schema.column? entry.1 with
  | none => .error (.unknownColumn schema.resource entry.1)
  | some expected => checkConstraint entry.1 expected entry.2

/-- The sortable columns of the table that the filter's own safelist leaves. -/
def safelistFor (f : Filter) (schema : TableSchema) : List String :=
  schema.sortable.filter fun name => f.safelist.isEmpty || f.safelist.contains name

def sortKeys (f : Filter) (schema : TableSchema) : Except FilterError (List SortKey) :=
  MessageBoard.sortKeys f.orderBy (f.safelistFor schema)

def orderByClause (f : Filter) (schema : TableSchema) : Except FilterError String :=
  (f.sortKeys schema).map orderByText

def check (f : Filter) (schema : TableSchema) : Except FilterError Unit := do
  if f.pageSize = 0 ∨ maxPageSize < f.pageSize then
    throw (.pageSize f.pageSize maxPageSize)
  f.constraints.entries.forM (checkEntry schema)
  discard (f.sortKeys schema)

end MessageBoard.Filter
