import MessageBoard.Schema
import MessageBoard.Shape.Basic
import MessageBoard.Validation

/-!
# Votes

A user has at most one vote on a thread or a post, up or down. A vote of zero is no vote: casting
it takes the user's vote back.
-/

namespace MessageBoard

inductive Votable where
  | thread
  | post
  deriving DecidableEq

def Votable.schema : Votable → VoteSchema
  | .thread => ⟨"forum.thread_votes", "thread_id", "thread vote"⟩
  | .post => ⟨"forum.post_votes", "post_id", "post vote"⟩

structure Vote where
  target : Uuid
  user : Uuid
  vote : Int16
  deriving DecidableEq

abbrev Vote.fields (target : String) : Fields :=
  .cons target .uuid .required <| .cons "user_id" .uuid .required <|
    .cons "vote" (.number .int16) .required .nil

/-- A vote in a table of the given kind, which names the column of the target. -/
def Vote.wire (votable : Votable) : Wire Vote where
  shape := .record (Vote.fields votable.schema.target)
  toVal v := (v.target, v.user, v.vote, ())
  ofVal := fun (target, user, vote, ()) => ⟨target, user, vote⟩

structure VoteInput where
  user : Uuid
  vote : Int16
  deriving DecidableEq

namespace VoteInput

abbrev fields : Fields :=
  .cons "user_id" .uuid .required <| .cons "vote" (.number .int16) .required .nil

def wire : Wire VoteInput where
  shape := .record fields
  toVal v := (v.user, v.vote, ())
  ofVal := fun (user, vote, ()) => ⟨user, vote⟩

def check (v : VoteInput) : Checked :=
  if -1 ≤ v.vote ∧ v.vote ≤ 1 then .ok () else .error (.outOfRange "vote" (-1) 1)

end VoteInput

structure VoteSummary where
  target : Uuid
  score : Int64
  votes : Int64
  deriving DecidableEq

abbrev VoteSummary.fields : Fields :=
  .cons "target_id" .uuid .required <| .cons "score" (.number .int64) .required <|
    .cons "votes" (.number .int64) .required .nil

def VoteSummary.wire : Wire VoteSummary where
  shape := .record VoteSummary.fields
  toVal v := (v.target, v.score, v.votes, ())
  ofVal := fun (target, score, votes, ()) => ⟨target, score, votes⟩

end MessageBoard
