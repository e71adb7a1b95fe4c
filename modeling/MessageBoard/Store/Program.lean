import MessageBoard.Statement
import MessageBoard.Store.Failure
import MessageBoard.Store.Row

/-!
# Programs that ask a store

An operation is a tree: at each node it asks the store something and goes on with the answer. What
it does against a real or an imagined store is a matter of who answers; nothing else of the store is
assumed. An operation to which the store never answers is stalled, and a time limit turns that into
a failure.
-/

namespace MessageBoard

inductive Request where
  | start
  | commit
  | rollback
  | execute (s : Statement)
  | define (text : String)
  deriving DecidableEq

inductive Reply where
  | rows (rows : List Row)
  /-- The store refused, and goes on listening. -/
  | refused (fault : Fault)
  | lost (fault : Fault)
  | silence
  deriving DecidableEq

inductive Program (α : Type) where
  | done (a : α)
  | ask (request : Request) (next : Reply → Program α)
  | stalled

namespace Program

variable {α β : Type}

def bind : Program α → (α → Program β) → Program β
  | done a, f => f a
  | ask request next, f => ask request fun reply => (next reply).bind f
  | stalled, _ => stalled

instance : Monad Program where
  pure := done
  bind := bind

/-- The program with something else done where it stalls. -/
def orElse : Program α → Program α → Program α
  | done a, _ => done a
  | ask request next, q => ask request fun reply => (next reply).orElse q
  | stalled, q => q

/-- A program under a time limit: what takes no time is not bounded by it, an answer that never
comes is; and when there is no time at all, nothing is asked. -/
def within (limit : Duration) (expired : α) : Program α → Program α
  | done a => done a
  | ask request next =>
    if limit.nanos = 0 then done expired else (ask request next).orElse (done expired)
  | stalled => done expired

end Program

abbrev Operation (α : Type) := Program (Except Failure α)

namespace Operation

variable {α β : Type}

def fail (e : Failure) : Operation α := .done (.error e)

def andThen (p : Operation α) (f : α → Operation β) : Operation β :=
  p.bind fun
    | .ok a => f a
    | .error e => fail e

def within (limit : Option Duration) (p : Operation α) : Operation α :=
  match limit with
  | some limit => Program.within limit (.error (.timeout limit)) p
  | none => p

def abandon (e : Failure) : Operation α := .ask .rollback fun _ => fail e

def commit (a : α) : Operation α :=
  .ask .commit fun
    | .rows _ => .done (.ok a)
    | .refused fault => abandon (.ofFault fault)
    | .lost fault => fail (.ofFault fault)
    | .silence => .stalled

/-- Runs `body` in a transaction. -/
def inTransaction (body : Operation α) : Operation α :=
  .ask .start fun
    | .rows _ => body
    | .refused fault => fail (.ofFault fault)
    | .lost fault => fail (.ofFault fault)
    | .silence => .stalled

/-- One request of a transaction: its rows are read, or the transaction is given up. -/
def step (request : Request) (read : List Row → Except Failure α) (next : α → Operation β) :
    Operation β :=
  .ask request fun
    | .rows rows =>
      match read rows with
      | .ok a => next a
      | .error e => abandon e
    | .refused fault => abandon (.ofFault fault)
    | .lost fault => fail (.ofFault fault)
    | .silence => .stalled

def transaction (s : Statement) (read : List Row → Except Failure α) : Operation α :=
  inTransaction (step (.execute s) read commit)

end Operation

def Failure.unreadable : Failure := .query (.other .decode "unreadable row")

def Failure.noRow : Failure := .query (.other .rowNotFound "no row")

namespace Rows

variable {α : Type}

def readOne (read : Row → Option α) (row : Row) : Except Failure α :=
  match read row with
  | some a => .ok a
  | none => .error .unreadable

def all (read : Row → Option α) (rows : List Row) : Except Failure (List α) :=
  rows.mapM (readOne read)

def first? (read : Row → Option α) : List Row → Except Failure (Option α)
  | [] => .ok none
  | row :: _ => (readOne read row).map some

def first (absent : Failure) (read : Row → Option α) : List Row → Except Failure α
  | [] => .error absent
  | row :: _ => readOne read row

end Rows

end MessageBoard
