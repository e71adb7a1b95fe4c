import MessageBoard.Store.Program

/-!
# Runs against a store

A store answers each request and goes over to its next state. `Program.run` follows a program along
the answers that it gets and keeps what was said. Nothing is assumed of the store, so a statement
about all stores is one about all sequences of replies.
-/

namespace MessageBoard

abbrev Store (σ : Type) := Request → σ → Reply × σ

structure Exchange where
  request : Request
  reply : Reply
  deriving DecidableEq

/-- What a run comes to. A run that stalls has no value. -/
structure Outcome (σ α : Type) where
  value? : Option α
  exchanges : List Exchange
  state : σ

namespace Outcome

variable {σ α : Type} (o : Outcome σ α)

def requests : List Request := o.exchanges.map (·.request)

end Outcome

def Program.run {σ α : Type} (store : Store σ) : Program α → σ → Outcome σ α
  | done a, s => ⟨some a, [], s⟩
  | ask request next, s =>
    let (reply, s) := store request s
    let o := (next reply).run store s
    { o with exchanges := ⟨request, reply⟩ :: o.exchanges }
  | stalled, s => ⟨none, [], s⟩

end MessageBoard
