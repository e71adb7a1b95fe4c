import MessageBoard.Stamps
import MessageBoard.Validation

/-!
# Posts

A post stands in a thread and may reply to another post.
-/

namespace MessageBoard

structure Post where
  id : Uuid
  threadId : Uuid
  replyTo : Option Uuid
  authorId : Uuid
  content : String
  stamps : Stamps
  deriving DecidableEq

structure PostInput where
  threadId : Uuid
  replyTo : Option Uuid
  authorId : Uuid
  content : String
  deriving DecidableEq

structure PostPatch where
  id : Uuid := .zero
  replyTo : Option Uuid := none
  content : Option String := none
  deriving DecidableEq

def Post.schema : TableSchema where
  table := "forum.posts"
  row := "posts"
  resource := "post"
  select :=
    "id, thread_id, reply_to, author_id, content, created_at, updated_at, deleted, deleted_at"
  filterable :=
    [⟨"id", .uuid⟩, ⟨"thread_id", .uuid⟩, ⟨"reply_to", .uuid⟩, ⟨"author_id", .uuid⟩] ++
      Stamps.columns
  sortable := ["id", "created_at", "updated_at", "deleted_at"]

abbrev Post.fields : Fields :=
  .cons "id" .uuid .required <| .cons "thread_id" .uuid .required <|
    .cons "reply_to" (.option .uuid) .required <| .cons "author_id" .uuid .required <|
    .cons "content" .text .required Stamps.fields

def Post.toVal (p : Post) : Post.fields.Val :=
  (p.id, p.threadId, p.replyTo, p.authorId, p.content, p.stamps.toVal)

def Post.ofVal : Post.fields.Val → Post
  | (id, threadId, replyTo, authorId, content, stamps) =>
    ⟨id, threadId, replyTo, authorId, content, .ofVal stamps⟩

def Post.wire : Wire Post := ⟨.record Post.fields, Post.toVal, Post.ofVal⟩

namespace PostInput

abbrev fields : Fields :=
  .cons "thread_id" .uuid .required <| .cons "reply_to" (.option .uuid) .defaulted <|
    .cons "author_id" .uuid .required <| .cons "content" .text .required .nil

def wire : Wire PostInput where
  shape := .record fields
  toVal p := (p.threadId, p.replyTo, p.authorId, p.content, ())
  ofVal := fun (threadId, replyTo, authorId, content, ()) => ⟨threadId, replyTo, authorId, content⟩

def check (p : PostInput) : Checked := requireText "content" p.content 65536

def values (p : PostInput) : List (String × Value) :=
  [("thread_id", .uuid p.threadId), ("reply_to", .uuid p.replyTo), ("author_id", .uuid p.authorId),
    ("content", .text p.content)]

end PostInput

namespace PostPatch

abbrev fields : Fields :=
  .cons "id" .uuid .defaulted <| .cons "reply_to" (.option .uuid) .required <|
    .cons "content" (.option .text) .required .nil

def wire : Wire PostPatch where
  shape := .record fields
  toVal p := (p.id, p.replyTo, p.content, ())
  ofVal := fun (id, replyTo, content, ()) => ⟨id, replyTo, content⟩

def check (p : PostPatch) : Checked := optionalText "content" p.content 65536

def assignments (p : PostPatch) : List (String × Value) :=
  supplied "reply_to" .uuid p.replyTo ++ supplied "content" .text p.content

end PostPatch

end MessageBoard
