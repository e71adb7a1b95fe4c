import MessageBoard.Stamps
import MessageBoard.Validation

/-!
# Users

The people who own forums and write in them. User names and addresses are unique in the store.
-/

namespace MessageBoard

structure User where
  id : Uuid
  name : String
  username : String
  email : String
  stamps : Stamps
  deriving DecidableEq

structure UserInput where
  name : String
  username : String
  email : String
  deriving DecidableEq

structure UserPatch where
  id : Uuid := .zero
  name : Option String := none
  username : Option String := none
  email : Option String := none
  deriving DecidableEq

def User.schema : TableSchema where
  table := "forum.users"
  row := "users"
  resource := "user"
  select := "id, name, username, email, created_at, updated_at, deleted, deleted_at"
  filterable :=
    [⟨"id", .uuid⟩, ⟨"name", .text⟩, ⟨"username", .text⟩, ⟨"email", .text⟩] ++ Stamps.columns
  sortable := ["id", "name", "username", "email", "created_at", "updated_at", "deleted_at"]

abbrev User.fields : Fields :=
  .cons "id" .uuid .required <| .cons "name" .text .required <| .cons "username" .text .required <|
    .cons "email" .text .required Stamps.fields

def User.toVal (u : User) : User.fields.Val :=
  (u.id, u.name, u.username, u.email, u.stamps.toVal)

def User.ofVal : User.fields.Val → User
  | (id, name, username, email, stamps) => ⟨id, name, username, email, .ofVal stamps⟩

def User.wire : Wire User := ⟨.record User.fields, User.toVal, User.ofVal⟩

namespace UserInput

abbrev fields : Fields :=
  .cons "name" .text .required <| .cons "username" .text .required <|
    .cons "email" .text .required .nil

def wire : Wire UserInput where
  shape := .record fields
  toVal u := (u.name, u.username, u.email, ())
  ofVal := fun (name, username, email, ()) => ⟨name, username, email⟩

def check (u : UserInput) : Checked := do
  requireText "name" u.name 256
  checkUsername u.username
  checkEmail u.email

def values (u : UserInput) : List (String × Value) :=
  [("name", .text u.name), ("username", .text u.username), ("email", .text u.email)]

end UserInput

namespace UserPatch

abbrev fields : Fields :=
  .cons "id" .uuid .defaulted <| .cons "name" (.option .text) .required <|
    .cons "username" (.option .text) .required <| .cons "email" (.option .text) .required .nil

def wire : Wire UserPatch where
  shape := .record fields
  toVal u := (u.id, u.name, u.username, u.email, ())
  ofVal := fun (id, name, username, email, ()) => ⟨id, name, username, email⟩

def check (u : UserPatch) : Checked := do
  optionalText "name" u.name 256
  u.username.forM checkUsername
  u.email.forM checkEmail

def assignments (u : UserPatch) : List (String × Value) :=
  supplied "name" .text u.name ++ supplied "username" .text u.username ++
    supplied "email" .text u.email

end UserPatch

end MessageBoard
