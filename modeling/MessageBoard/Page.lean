import MessageBoard.Shape.Basic

/-!
# Pages

A page of a listing is read with one row more than it may hold. That row is dropped: it only tells
that another page follows. The cursor of the next page is the identifier of the last row kept.
-/

namespace MessageBoard

structure Metadata where
  lastSeen : Uuid
  next : Bool
  length : UInt64
  deriving DecidableEq

namespace Metadata

abbrev fields : Fields :=
  .cons "last_seen" .uuid .required <| .cons "next" .flag .required <|
    .cons "response_length" (.number .uint64) .required .nil

def toVal (m : Metadata) : fields.Val := (m.lastSeen, m.next, m.length, ())

def ofVal : fields.Val → Metadata
  | (lastSeen, next, length, ()) => ⟨lastSeen, next, length⟩

def wire : Wire Metadata := ⟨.record fields, toVal, ofVal⟩

end Metadata

structure Page (α : Type) where
  rows : List α
  metadata : Metadata
  deriving DecidableEq

namespace Page

variable {α β : Type}

/-- The first `size` of the rows; an empty page keeps the cursor it was asked with. -/
def ofRows (rows : List α) (size : UInt32) (cursor : Uuid) (id : α → Uuid) : Page α :=
  let kept := rows.take size.toNat
  { rows := kept
    metadata :=
      { lastSeen := (kept.getLast?.map id).getD cursor
        next := size.toNat < rows.length
        length := .ofNat kept.length } }

def map (f : α → β) (page : Page α) : Page β := ⟨page.rows.map f, page.metadata⟩

def wire (row : Wire α) : Wire (Page α) where
  shape := .record <| .cons "data" (.list row.shape) .required <|
    .cons "metadata" (.record Metadata.fields) .required .nil
  toVal page := (page.rows.map row.toVal, page.metadata.toVal, ())
  ofVal := fun (rows, metadata, ()) => ⟨rows.map row.ofVal, .ofVal metadata⟩

theorem map_ofRows (f : α → β) (rows : List α) (size : UInt32) (cursor : Uuid) (id : β → Uuid) :
    (ofRows rows size cursor (id ∘ f)).map f = ofRows (rows.map f) size cursor id := by
  simp [ofRows, map, ← List.map_take, Function.comp_def]

theorem length_ofRows (rows : List α) (size : UInt32) (cursor : Uuid) (id : α → Uuid) :
    (ofRows rows size cursor id).metadata.length.toNat =
      (ofRows rows size cursor id).rows.length := by
  have hsize : size.toNat < 2 ^ 32 := size.toNat_lt
  have hle : (rows.take size.toNat).length ≤ size.toNat := List.length_take_le _ _
  simp only [ofRows, UInt64.toNat_ofNat']
  omega

end Page

end MessageBoard
