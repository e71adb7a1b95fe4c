import MessageBoard.Details

/-!
# Resources

The four kinds of entities that the board keeps. Each has its table, its records, the input that
makes a new one, the patch that changes one, and what its listings can show beside it; all that is
done alike with every kind is said once, for any resource.
-/

namespace MessageBoard

inductive Resource where
  | user
  | forum
  | thread
  | post
  deriving DecidableEq

namespace Resource

def schema : Resource → TableSchema
  | user => User.schema
  | forum => Forum.schema
  | thread => Thread.schema
  | post => Post.schema

@[reducible] def Record : Resource → Type
  | user => User
  | forum => Forum
  | thread => Thread
  | post => Post

@[reducible] def Input : Resource → Type
  | user => UserInput
  | forum => ForumInput
  | thread => ThreadInput
  | post => PostInput

@[reducible] def Patch : Resource → Type
  | user => UserPatch
  | forum => ForumPatch
  | thread => ThreadPatch
  | post => PostPatch

/-- A record with the related rows; users have none. -/
@[reducible] def Details : Resource → Type
  | user => User
  | forum => ForumDetails
  | thread => ThreadDetails
  | post => PostDetails

def recordWire : (r : Resource) → Wire r.Record
  | user => User.wire
  | forum => Forum.wire
  | thread => Thread.wire
  | post => Post.wire

def inputWire : (r : Resource) → Wire r.Input
  | user => UserInput.wire
  | forum => ForumInput.wire
  | thread => ThreadInput.wire
  | post => PostInput.wire

def patchWire : (r : Resource) → Wire r.Patch
  | user => UserPatch.wire
  | forum => ForumPatch.wire
  | thread => ThreadPatch.wire
  | post => PostPatch.wire

def detailsWire : (r : Resource) → Wire r.Details
  | user => User.wire
  | forum => ForumDetails.wire
  | thread => ThreadDetails.wire
  | post => PostDetails.wire

def id : (r : Resource) → r.Record → Uuid
  | user => User.id
  | forum => Forum.id
  | thread => Thread.id
  | post => Post.id

def stamps : (r : Resource) → r.Record → Stamps
  | user => User.stamps
  | forum => Forum.stamps
  | thread => Thread.stamps
  | post => Post.stamps

def checkInput : (r : Resource) → r.Input → Checked
  | user => UserInput.check
  | forum => ForumInput.check
  | thread => ThreadInput.check
  | post => PostInput.check

def values : (r : Resource) → r.Input → List (String × Value)
  | user => UserInput.values
  | forum => ForumInput.values
  | thread => ThreadInput.values
  | post => PostInput.values

def checkPatch : (r : Resource) → r.Patch → Checked
  | user => UserPatch.check
  | forum => ForumPatch.check
  | thread => ThreadPatch.check
  | post => PostPatch.check

def assignments : (r : Resource) → r.Patch → List (String × Value)
  | user => UserPatch.assignments
  | forum => ForumPatch.assignments
  | thread => ThreadPatch.assignments
  | post => PostPatch.assignments

def patchId : (r : Resource) → r.Patch → Uuid
  | user => UserPatch.id
  | forum => ForumPatch.id
  | thread => ThreadPatch.id
  | post => PostPatch.id

/-- The patch aimed at another row. -/
def aim (target : Uuid) : (r : Resource) → r.Patch → r.Patch
  | user, p => { p with id := target }
  | forum, p => { p with id := target }
  | thread, p => { p with id := target }
  | post, p => { p with id := target }

end Resource

end MessageBoard
