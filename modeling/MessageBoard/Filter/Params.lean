import MessageBoard.Filter.Basic
import MessageBoard.Shape.Basic
import MessageBoard.Text.Blank
import MessageBoard.Text.Split

/-!
# Filter parameters

A filter as a client asks for it: one optional parameter for each column and setting. The two ends
of a range are parameters of their own, and the sort fields are one text, parted by commas.
-/

namespace MessageBoard

open Text

structure FilterParams where
  id : Option Uuid := none
  ownerId : Option Uuid := none
  userId : Option Uuid := none
  postId : Option Uuid := none
  threadId : Option Uuid := none
  forumId : Option Uuid := none
  authorId : Option Uuid := none
  replyTo : Option Uuid := none
  name : Option String := none
  title : Option String := none
  username : Option String := none
  email : Option String := none
  createdFrom : Option Instant := none
  createdTo : Option Instant := none
  updatedFrom : Option Instant := none
  updatedTo : Option Instant := none
  deletedFrom : Option Instant := none
  deletedTo : Option Instant := none
  deleted : Option Bool := none
  isLocked : Option Bool := none
  orderBy : Option String := none
  lastSeen : Option Uuid := none
  pageSize : Option UInt32 := none
  withRelated : Option Bool := none
  deriving DecidableEq

namespace FilterParams

abbrev fields : Fields :=
  .cons "id" (.option .uuid) .defaulted <| .cons "owner_id" (.option .uuid) .defaulted <|
  .cons "user_id" (.option .uuid) .defaulted <| .cons "post_id" (.option .uuid) .defaulted <|
  .cons "thread_id" (.option .uuid) .defaulted <| .cons "forum_id" (.option .uuid) .defaulted <|
  .cons "author_id" (.option .uuid) .defaulted <| .cons "reply_to" (.option .uuid) .defaulted <|
  .cons "name" (.option .text) .defaulted <| .cons "title" (.option .text) .defaulted <|
  .cons "username" (.option .text) .defaulted <| .cons "email" (.option .text) .defaulted <|
  .cons "created_at_from" (.option .instant) .defaulted <|
  .cons "created_at_to" (.option .instant) .defaulted <|
  .cons "updated_at_from" (.option .instant) .defaulted <|
  .cons "updated_at_to" (.option .instant) .defaulted <|
  .cons "deleted_at_from" (.option .instant) .defaulted <|
  .cons "deleted_at_to" (.option .instant) .defaulted <|
  .cons "deleted" (.option .flag) .defaulted <| .cons "is_locked" (.option .flag) .defaulted <|
  .cons "order_by" (.option .text) .defaulted <| .cons "last_seen" (.option .uuid) .defaulted <|
  .cons "page_size" (.option (.number .uint32)) .defaulted <|
  .cons "include" (.option .flag) .defaulted .nil

def wire : Wire FilterParams where
  shape := .record fields
  toVal p :=
    (p.id, p.ownerId, p.userId, p.postId, p.threadId, p.forumId, p.authorId, p.replyTo, p.name,
      p.title, p.username, p.email, p.createdFrom, p.createdTo, p.updatedFrom, p.updatedTo,
      p.deletedFrom, p.deletedTo, p.deleted, p.isLocked, p.orderBy, p.lastSeen, p.pageSize,
      p.withRelated, ())
  ofVal := fun (id, ownerId, userId, postId, threadId, forumId, authorId, replyTo, name, title,
      username, email, createdFrom, createdTo, updatedFrom, updatedTo, deletedFrom, deletedTo,
      deleted, isLocked, orderBy, lastSeen, pageSize, withRelated, ()) =>
    ⟨id, ownerId, userId, postId, threadId, forumId, authorId, replyTo, name, title, username,
      email, createdFrom, createdTo, updatedFrom, updatedTo, deletedFrom, deletedTo, deleted,
      isLocked, orderBy, lastSeen, pageSize, withRelated⟩

def equal {α : Type} (column : String) (value : Option α → Value) :
    Option α → List Filter.Setting
  | none => []
  | some v => [.equals column (value (some v))]

def range (column : String) (lower upper : Option Instant) : List Filter.Setting :=
  if lower = none ∧ upper = none then []
  else [.between column (lower.map fun t => .instant t) (upper.map fun t => .instant t)]

/-- The fields of a list parted by commas, without blanks around them. -/
def sortFields (s : String) : List String :=
  ((pieces ',' s.toList).map trimChars).filterMap fun cs =>
    if cs = [] then none else some (.ofList cs)

def settings (p : FilterParams) : List Filter.Setting :=
  equal "id" .uuid p.id ++ equal "owner_id" .uuid p.ownerId ++ equal "user_id" .uuid p.userId ++
  equal "post_id" .uuid p.postId ++ equal "thread_id" .uuid p.threadId ++
  equal "forum_id" .uuid p.forumId ++ equal "author_id" .uuid p.authorId ++
  equal "reply_to" .uuid p.replyTo ++ equal "name" .text p.name ++ equal "title" .text p.title ++
  equal "username" .text p.username ++ equal "email" .text p.email ++
  equal "deleted" .flag p.deleted ++ equal "is_locked" .flag p.isLocked ++
  range "created_at" p.createdFrom p.createdTo ++ range "updated_at" p.updatedFrom p.updatedTo ++
  range "deleted_at" p.deletedFrom p.deletedTo ++
  [.orderBy ((p.orderBy.map sortFields).getD []), .after (p.lastSeen.getD .zero),
    .pageSize (p.pageSize.getD 1)]

def toFilter (p : FilterParams) : Filter := .ofSettings p.settings

end FilterParams

end MessageBoard
