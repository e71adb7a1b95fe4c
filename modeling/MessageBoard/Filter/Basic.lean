import MessageBoard.Filter.Constraints

/-!
# Filters

A filter says which rows of a table a listing shows, in which order, and which page of them. It is
made of single settings; of two settings of the same thing the later one counts.
-/

namespace MessageBoard

structure Filter where
  constraints : Constraints := .empty
  /-- The fields to sort by, each behind a `-` for descending order. -/
  orderBy : List String := []
  /-- The only fields that may be sorted by, unless empty. -/
  safelist : List String := []
  /-- The listing continues after this identifier. -/
  lastSeen : Uuid := .zero
  pageSize : UInt32 := 1
  deriving DecidableEq

namespace Filter

def maxPageSize : UInt32 := 1000

inductive Setting where
  | equals (column : String) (value : Value)
  | between (column : String) (lower upper : Option Value)
  | orderBy (fields : List String)
  | safelist (fields : List String)
  | after (id : Uuid)
  | pageSize (n : UInt32)
  deriving DecidableEq

def set (f : Filter) : Setting → Filter
  | .equals column value => { f with constraints := f.constraints.put column (.equals value) }
  | .between column lower upper =>
    { f with constraints := f.constraints.put column (.between lower upper) }
  | .orderBy fields => { f with orderBy := fields }
  | .safelist fields => { f with safelist := fields }
  | .after id => { f with lastSeen := id }
  | .pageSize n => { f with pageSize := n }

def ofSettings (settings : List Setting) : Filter := settings.foldl set {}

def after (f : Filter) (id : Uuid) : Filter := f.set (.after id)

end Filter

end MessageBoard
