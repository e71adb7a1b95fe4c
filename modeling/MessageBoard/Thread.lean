import MessageBoard.Stamps
import MessageBoard.Validation

/-!
# Threads

A thread stands in a forum and can be locked. Its likes are not stored: every statement that reads
a thread sums up its votes.
-/

namespace MessageBoard

structure Thread where
  id : Uuid
  forumId : Uuid
  authorId : Uuid
  title : String
  isLocked : Bool
  likes : Int64
  stamps : Stamps
  deriving DecidableEq

structure ThreadInput where
  forumId : Uuid
  authorId : Uuid
  title : String
  deriving DecidableEq

structure ThreadPatch where
  id : Uuid := .zero
  forumId : Option Uuid := none
  authorId : Option Uuid := none
  title : Option String := none
  isLocked : Option Bool := none
  deriving DecidableEq

def Thread.schema : TableSchema where
  table := "forum.threads"
  row := "threads"
  resource := "thread"
  select :=
    "id, forum_id, author_id, title, is_locked, " ++
      "(SELECT COALESCE(SUM(v.vote), 0) FROM forum.thread_votes AS v " ++
      "WHERE v.thread_id = threads.id)::BIGINT AS likes, " ++
      "created_at, updated_at, deleted, deleted_at"
  filterable :=
    [⟨"id", .uuid⟩, ⟨"forum_id", .uuid⟩, ⟨"author_id", .uuid⟩, ⟨"title", .text⟩,
      ⟨"is_locked", .flag⟩] ++ Stamps.columns
  sortable := ["id", "title", "created_at", "updated_at", "deleted_at"]

abbrev Thread.fields : Fields :=
  .cons "id" .uuid .required <| .cons "forum_id" .uuid .required <|
    .cons "author_id" .uuid .required <| .cons "title" .text .required <|
    .cons "is_locked" .flag .required <| .cons "likes" (.number .int64) .required Stamps.fields

def Thread.toVal (t : Thread) : Thread.fields.Val :=
  (t.id, t.forumId, t.authorId, t.title, t.isLocked, t.likes, t.stamps.toVal)

def Thread.ofVal : Thread.fields.Val → Thread
  | (id, forumId, authorId, title, isLocked, likes, stamps) =>
    ⟨id, forumId, authorId, title, isLocked, likes, .ofVal stamps⟩

def Thread.wire : Wire Thread := ⟨.record Thread.fields, Thread.toVal, Thread.ofVal⟩

namespace ThreadInput

abbrev fields : Fields :=
  .cons "forum_id" .uuid .required <| .cons "author_id" .uuid .required <|
    .cons "title" .text .required .nil

def wire : Wire ThreadInput where
  shape := .record fields
  toVal t := (t.forumId, t.authorId, t.title, ())
  ofVal := fun (forumId, authorId, title, ()) => ⟨forumId, authorId, title⟩

def check (t : ThreadInput) : Checked := requireText "title" t.title 256

def values (t : ThreadInput) : List (String × Value) :=
  [("forum_id", .uuid t.forumId), ("author_id", .uuid t.authorId), ("title", .text t.title)]

end ThreadInput

namespace ThreadPatch

abbrev fields : Fields :=
  .cons "id" .uuid .defaulted <| .cons "forum_id" (.option .uuid) .required <|
    .cons "author_id" (.option .uuid) .required <| .cons "title" (.option .text) .required <|
    .cons "is_locked" (.option .flag) .required .nil

def wire : Wire ThreadPatch where
  shape := .record fields
  toVal t := (t.id, t.forumId, t.authorId, t.title, t.isLocked, ())
  ofVal := fun (id, forumId, authorId, title, isLocked, ()) =>
    ⟨id, forumId, authorId, title, isLocked⟩

def lock (id : Uuid) (isLocked : Bool) : ThreadPatch := { id, isLocked := some isLocked }

def check (t : ThreadPatch) : Checked := optionalText "title" t.title 256

def assignments (t : ThreadPatch) : List (String × Value) :=
  supplied "forum_id" .uuid t.forumId ++ supplied "author_id" .uuid t.authorId ++
    supplied "title" .text t.title ++ supplied "is_locked" .flag t.isLocked

end ThreadPatch

end MessageBoard
