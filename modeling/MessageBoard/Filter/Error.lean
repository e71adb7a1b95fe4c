/-!
# Refused filters

Why a filter does not fit a table, or could not be read.
-/

namespace MessageBoard

inductive FilterError where
  | unknownColumn (resource column : String)
  | typeMismatch (column expected found : String)
  | emptyRange (column : String)
  | invertedRange (column : String)
  | pageSize (size max : UInt32)
  | unsortableField (field : String)
  | malformed (reason : String)
  deriving DecidableEq

def FilterError.message : FilterError → String
  | .unknownColumn resource column => s!"{resource} cannot be filtered by '{column}'"
  | .typeMismatch column expected found => s!"'{column}' expects a {expected} value, got {found}"
  | .emptyRange column => s!"range on '{column}' has neither a lower nor an upper bound"
  | .invertedRange column => s!"range on '{column}' has its lower bound after its upper bound"
  | .pageSize size max => s!"page_size must be between 1 and {max.toNat}, got {size.toNat}"
  | .unsortableField field => s!"cannot order by '{field}'"
  | .malformed reason => s!"malformed query: {reason}"

end MessageBoard
