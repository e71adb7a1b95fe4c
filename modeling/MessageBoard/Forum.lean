import MessageBoard.Stamps
import MessageBoard.Validation

/-!
# Forums

A forum belongs to a user and may have a description.
-/

namespace MessageBoard

structure Forum where
  id : Uuid
  ownerId : Uuid
  name : String
  description : Option String
  stamps : Stamps
  deriving DecidableEq

structure ForumInput where
  ownerId : Uuid
  name : String
  description : Option String
  deriving DecidableEq

structure ForumPatch where
  id : Uuid := .zero
  ownerId : Option Uuid := none
  name : Option String := none
  description : Option String := none
  deriving DecidableEq

def Forum.schema : TableSchema where
  table := "forum.forums"
  row := "forums"
  resource := "forum"
  select := "id, owner_id, name, description, created_at, updated_at, deleted, deleted_at"
  filterable := [⟨"id", .uuid⟩, ⟨"owner_id", .uuid⟩, ⟨"name", .text⟩] ++ Stamps.columns
  sortable := ["id", "name", "created_at", "updated_at", "deleted_at"]

abbrev Forum.fields : Fields :=
  .cons "id" .uuid .required <| .cons "owner_id" .uuid .required <| .cons "name" .text .required <|
    .cons "description" (.option .text) .required Stamps.fields

def Forum.toVal (f : Forum) : Forum.fields.Val :=
  (f.id, f.ownerId, f.name, f.description, f.stamps.toVal)

def Forum.ofVal : Forum.fields.Val → Forum
  | (id, ownerId, name, description, stamps) => ⟨id, ownerId, name, description, .ofVal stamps⟩

def Forum.wire : Wire Forum := ⟨.record Forum.fields, Forum.toVal, Forum.ofVal⟩

namespace ForumInput

abbrev fields : Fields :=
  .cons "owner_id" .uuid .required <| .cons "name" .text .required <|
    .cons "description" (.option .text) .defaulted .nil

def wire : Wire ForumInput where
  shape := .record fields
  toVal f := (f.ownerId, f.name, f.description, ())
  ofVal := fun (ownerId, name, description, ()) => ⟨ownerId, name, description⟩

def check (f : ForumInput) : Checked := do
  requireText "name" f.name 256
  optionalText "description" f.description 4096

def values (f : ForumInput) : List (String × Value) :=
  [("owner_id", .uuid f.ownerId), ("name", .text f.name), ("description", .text f.description)]

end ForumInput

namespace ForumPatch

abbrev fields : Fields :=
  .cons "id" .uuid .defaulted <| .cons "owner_id" (.option .uuid) .required <|
    .cons "name" (.option .text) .required <| .cons "description" (.option .text) .required .nil

def wire : Wire ForumPatch where
  shape := .record fields
  toVal f := (f.id, f.ownerId, f.name, f.description, ())
  ofVal := fun (id, ownerId, name, description, ()) => ⟨id, ownerId, name, description⟩

def check (f : ForumPatch) : Checked := do
  optionalText "name" f.name 256
  optionalText "description" f.description 4096

def assignments (f : ForumPatch) : List (String × Value) :=
  supplied "owner_id" .uuid f.ownerId ++ supplied "name" .text f.name ++
    supplied "description" .text f.description

end ForumPatch

end MessageBoard
