import MessageBoard.Store.Program
import MessageBoard.Vote

/-!
# Operations on votes

Casting, counting and looking up the votes on threads and posts. A vote is cast in one statement,
which removes a vote of zero and replaces an earlier one.
-/

namespace MessageBoard.Ballot

variable (limit : Option Duration) (v : Votable)

def readVote : Row → Option Vote := (Vote.wire v).ofRow?

/-- Sets the vote of a user. Whether the vote is in range is up to the store. -/
def cast (target user : Uuid) (vote : Int16) : Operation (Option Vote) :=
  .within limit <| .transaction (.castVote v.schema target user vote) (Rows.first? (readVote v))

def get (target user : Uuid) : Operation (Option Vote) :=
  .within limit <| .transaction (.getVote v.schema target user) (Rows.first? (readVote v))

def sum (target : Uuid) : Operation Int64 :=
  .within limit <| .transaction (.sumVotes v.schema target) (Rows.first .noRow (·.number? 0))

def count (target : Uuid) : Operation Int64 :=
  .within limit <| .transaction (.countVotes v.schema target) (Rows.first .noRow (·.number? 0))

def readSummary (target : Uuid) (row : Row) : Option VoteSummary := do
  return ⟨target, ← row.number? 0, ← row.number? 1⟩

def summary (target : Uuid) : Operation VoteSummary :=
  .within limit <|
    .transaction (.summarizeVotes v.schema target) (Rows.first .noRow (readSummary target))

def voteName : Votable → String
  | .thread => "rosetta_server::models::vote::ThreadVote"
  | .post => "rosetta_server::models::vote::PostVote"

def debugText (limit : Duration) : String :=
  "VoteRepository \x7b vote: \"" ++ voteName v ++ "\", timeout: " ++ limit.toText ++ " \x7d"

end MessageBoard.Ballot
