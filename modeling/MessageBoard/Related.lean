import MessageBoard.Ballot
import MessageBoard.Repository

/-!
# Records with what they refer to

A record is read first; then what it refers to is looked up, one lookup after the other, and the
first failure ends it. Only a row that is not there is no failure: it is left out.
-/

namespace MessageBoard.Related

inductive Lookup where
  | user (id : Uuid)
  | forum (id : Uuid)
  | votes (v : Votable) (target : Uuid)
  | count (r : Resource) (column : String) (id : Uuid)
  deriving DecidableEq

variable (limit : Option Duration)

def optional {α : Type} (p : Operation α) : Operation (Option α) :=
  p.bind fun
    | .ok a => .done (.ok (some a))
    | .error e => if e.isNotFound then .done (.ok none) else Operation.fail e

/-- The rows of a resource whose column holds the identifier. -/
def countOf (r : Resource) (column : String) (id : Uuid) : Operation Int64 :=
  Repository.count limit r (.ofSettings [.equals column (.uuid (some id))])

namespace Lookup

@[reducible] def Found : Lookup → Type
  | user _ => Option User
  | forum _ => Option Forum
  | votes _ _ => Int64
  | count _ _ _ => Int64

def run : (l : Lookup) → Operation l.Found
  | user id => optional (Repository.get limit .user id)
  | forum id => optional (Repository.get limit .forum id)
  | votes v target => Ballot.sum limit v target
  | count r column id => countOf limit r column id

end Lookup

@[reducible] def Findings : List Lookup → Type
  | [] => Unit
  | l :: ls => l.Found × Findings ls

/-- Does the lookups one after the other. -/
def findAll : (ls : List Lookup) → Operation (Findings ls)
  | [] => .done (.ok ())
  | l :: ls => (l.run limit).andThen fun a => (findAll ls).andThen fun as => .done (.ok (a, as))

/-- What is looked up for a record; nothing is for a user. -/
def lookups : (r : Resource) → r.Record → List Lookup
  | .user, _ => []
  | .forum, f => [.user f.ownerId, .count .thread "forum_id" f.id]
  | .thread, t =>
    [.user t.authorId, .forum t.forumId, .votes .thread t.id, .count .post "thread_id" t.id]
  | .post, p => [.user p.authorId, .votes .post p.id]

def assemble : (r : Resource) → (a : r.Record) → Findings (lookups r a) → r.Details
  | .user, u, () => u
  | .forum, f, (owner, threadCount, ()) => ⟨f, owner, threadCount⟩
  | .thread, t, (author, forum, votes, postCount, ()) => ⟨t, author, forum, votes, postCount⟩
  | .post, p, (author, votes, ()) => ⟨p, author, votes⟩

/-- What a record is shown with. -/
def details (r : Resource) (a : r.Record) : Operation r.Details :=
  (findAll limit (lookups r a)).andThen fun found => .done (.ok (assemble r a found))

def collect {α β : Type} (f : α → Operation β) : List α → Operation (List β)
  | [] => .done (.ok [])
  | a :: as => (f a).andThen fun b => (collect f as).andThen fun bs => .done (.ok (b :: bs))

def get (r : Resource) (id : Uuid) : Operation r.Details :=
  (Repository.get limit r id).andThen (details limit r)

/-- A page of records, each with what it refers to. -/
def list (r : Resource) (f : Filter) : Operation (Page r.Details) :=
  (Repository.list limit r f).andThen fun page =>
    (collect (details limit r) page.rows).andThen fun rows => .done (.ok ⟨rows, page.metadata⟩)

end MessageBoard.Related
