import MessageBoard.Page
import MessageBoard.Resource
import MessageBoard.Store.Program

/-!
# Operations on resources

What can be done with the rows of a resource. What the caller gives is checked before the store is
asked. Then one transaction of one statement is run, under the time limit of a single operation; it
is committed when its rows could be read, and given up otherwise.
-/

namespace MessageBoard.Repository

variable (limit : Option Duration) (r : Resource)

def readRecord : Row → Option r.Record := r.recordWire.ofRow?

def notFound (id : Uuid) : Failure := .missing r.schema.resource id

def checked {ε α β : Type} (refuse : ε → Failure) (check : Except ε α) (go : Operation β) :
    Operation β :=
  match check with
  | .ok _ => go
  | .error e => .fail (refuse e)

/-- The row with this identifier, deleted or not. -/
def get (id : Uuid) : Operation r.Record :=
  .within limit <|
    (Operation.transaction (.get r.schema id) (Rows.first? (readRecord r))).andThen fun
      | some record => .done (.ok record)
      | none => .fail (notFound r id)

/-- One page of the rows that the filter lets through, after its cursor. The cursor is an
identifier whatever the order is, so only the order by identifiers shows every row sooner or later:
another one can leave rows behind the cursor. -/
def list (f : Filter) : Operation (Page r.Record) :=
  checked .invalidFilter (f.check r.schema) <|
    .within limit <|
      match Statement.ofFilter r.schema f with
      | .error e => .fail (.invalidFilter e)
      | .ok s =>
        (Operation.transaction s (Rows.all (readRecord r))).andThen fun rows =>
          .done (.ok (.ofRows rows f.pageSize f.lastSeen r.id))

/-- How many rows the filter lets through, whatever its cursor and page size are. -/
def count (f : Filter) : Operation Int64 :=
  checked .invalidFilter (f.check r.schema) <|
    .within limit <|
      .transaction (.countOf r.schema f) (Rows.first .noRow (·.number? 0))

def create (fresh : Uuid) (input : r.Input) : Operation r.Record :=
  checked .invalid (r.checkInput input) <|
    .within limit <|
      .transaction (.insert r.schema fresh (r.values input)) (Rows.first .noRow (readRecord r))

def change (s : Statement) (id : Uuid) : Operation r.Record :=
  .within limit <| .transaction s (Rows.first (notFound r id) (readRecord r))

/-- Changes the fields that the patch has; the time of change always moves. -/
def patch (p : r.Patch) : Operation r.Record :=
  checked .invalid (r.checkPatch p) <|
    change limit r (.patch r.schema (r.patchId p) (r.assignments p)) (r.patchId p)

/-- Marks a row deleted; it can still be read. -/
def softDelete (id : Uuid) : Operation r.Record := change limit r (.softDelete r.schema id) id

def restore (id : Uuid) : Operation r.Record := change limit r (.restore r.schema id) id

/-- Removes a row for good. -/
def purge (id : Uuid) : Operation r.Record := change limit r (.delete r.schema id) id

def setLocked (id : Uuid) (isLocked : Bool) : Operation Thread :=
  patch limit .thread (.lock id isLocked)

def recordName : Resource → String
  | .user => "rosetta_server::models::user::User"
  | .forum => "rosetta_server::models::forum::Forum"
  | .thread => "rosetta_server::models::thread::Thread"
  | .post => "rosetta_server::models::post::Post"

def debugText (limit : Duration) : String :=
  "Repository \x7b entity: \"" ++ recordName r ++ "\", timeout: " ++ limit.toText ++ " \x7d"

end MessageBoard.Repository
