import MessageBoard.Schema
import MessageBoard.Shape.Basic

/-!
# Stamps

When a record came to be and was last changed, and whether it is deleted. Deleted records stay in
their tables until they are purged.
-/

namespace MessageBoard

structure Stamps where
  created : Instant
  updated : Instant
  deleted : Bool
  deletedAt : Option Instant
  deriving DecidableEq

namespace Stamps

abbrev fields : Fields :=
  .cons "created_at" .instant .required <| .cons "updated_at" .instant .required <|
    .cons "deleted" .flag .required <| .cons "deleted_at" (.option .instant) .required .nil

def toVal (s : Stamps) : fields.Val := (s.created, s.updated, s.deleted, s.deletedAt, ())

def ofVal : fields.Val → Stamps
  | (created, updated, deleted, deletedAt, ()) => ⟨created, updated, deleted, deletedAt⟩

def columns : List Column :=
  [⟨"created_at", .instant⟩, ⟨"updated_at", .instant⟩, ⟨"deleted", .flag⟩, ⟨"deleted_at", .instant⟩]

end Stamps

end MessageBoard
