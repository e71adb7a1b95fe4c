import MessageBoard.Forum
import MessageBoard.Post
import MessageBoard.Thread
import MessageBoard.User

/-!
# Details

Records together with the rows they refer to and with counts of the rows that refer to them. A row
that is referred to but gone is left out. The fields of the record itself stand among the others.
-/

namespace MessageBoard

structure ForumDetails where
  forum : Forum
  owner : Option User
  threadCount : Int64
  deriving DecidableEq

structure ThreadDetails where
  thread : Thread
  author : Option User
  forum : Option Forum
  votes : Int64
  postCount : Int64
  deriving DecidableEq

structure PostDetails where
  post : Post
  author : Option User
  votes : Int64
  deriving DecidableEq

def ForumDetails.wire : Wire ForumDetails where
  shape := .flat Forum.fields <| .cons "owner" (.option (.record User.fields)) .required <|
    .cons "thread_count" (.number .int64) .required .nil
  toVal d := (d.forum.toVal, d.owner.map User.toVal, d.threadCount, ())
  ofVal := fun (forum, owner, threadCount, ()) => ⟨.ofVal forum, owner.map User.ofVal, threadCount⟩

def ThreadDetails.wire : Wire ThreadDetails where
  shape := .flat Thread.fields <| .cons "author" (.option (.record User.fields)) .required <|
    .cons "forum" (.option (.record Forum.fields)) .required <|
    .cons "votes" (.number .int64) .required <| .cons "post_count" (.number .int64) .required .nil
  toVal d :=
    (d.thread.toVal, d.author.map User.toVal, d.forum.map Forum.toVal, d.votes, d.postCount, ())
  ofVal := fun (thread, author, forum, votes, postCount, ()) =>
    ⟨.ofVal thread, author.map User.ofVal, forum.map Forum.ofVal, votes, postCount⟩

def PostDetails.wire : Wire PostDetails where
  shape := .flat Post.fields <| .cons "author" (.option (.record User.fields)) .required <|
    .cons "votes" (.number .int64) .required .nil
  toVal d := (d.post.toVal, d.author.map User.toVal, d.votes, ())
  ofVal := fun (post, author, votes, ()) => ⟨.ofVal post, author.map User.ofVal, votes⟩

end MessageBoard
