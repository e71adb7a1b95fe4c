import MessageBoard.Store.Outcome

/-!
# Scripted stores

A store that answers from a list. Transactions begin and end of themselves unless the next answer
in line is meant for that; every other request takes the next answer, and is refused when there is
none. The store notes whatever reaches it.
-/

namespace MessageBoard.Script

inductive Moment where
  | start
  | commit
  deriving DecidableEq

inductive ScriptedCell where
  | cell (c : Cell)
  /-- The value bound to the placeholder of this number, counted from one. -/
  | bind (n : Nat)

inductive Answer where
  | rows (rows : List (List (String × ScriptedCell)))
  | refuse (fault : Fault)
  | drop
  | hang

structure Line where
  moment : Option Moment
  answer : Answer

inductive Entry where
  | start
  | commit
  | rollback
  | statement (sql : Sql)
  | definition (text : String)
  deriving DecidableEq

def Entry.ofRequest : Request → Entry
  | .start => start
  | .commit => commit
  | .rollback => rollback
  | .execute s => statement ⟨s.sql.text, s.sql.binds.map Bind.stored⟩
  | .define text => definition text

def noReply : Fault := .reported "XX000" "no reply scripted" none

def ScriptedCell.resolve (binds : List Bind) : ScriptedCell → Cell
  | cell c => c
  | bind n => ((binds[n - 1]?).map Cell.bound).getD .null

def Answer.reply (binds : List Bind) : Answer → Reply
  | rows rs => .rows (rs.map fun row => row.map fun (name, c) => (name, c.resolve binds))
  | refuse fault => .refused fault
  | drop => .lost (.other .io "connection lost")
  | hang => .silence

def momentReply (moment : Moment) : List Line → Reply × List Line
  | [] => (.rows [], [])
  | line :: lines =>
    if line.moment = some moment then (line.answer.reply [], lines) else (.rows [], line :: lines)

def statementReply (binds : List Bind) : List Line → Reply × List Line
  | [] => (.refused noReply, [])
  | line :: lines =>
    if line.moment = none then (line.answer.reply binds, lines)
    else (.refused noReply, line :: lines)

def reply : Request → List Line → Reply × List Line
  | .start, lines => momentReply .start lines
  | .commit, lines => momentReply .commit lines
  | .rollback, lines => (.rows [], lines)
  | .execute s, lines => statementReply s.sql.binds lines
  | .define _, lines => statementReply [] lines

/-- Runs a program against the list: what it comes to, unless it stalls, and the store's notes. -/
def run {α : Type} (p : Program α) (lines : List Line) : Option α × List Entry :=
  let o := p.run reply lines
  (o.value?, o.requests.map .ofRequest)

def closed : Store Unit := fun _ s => (.lost (.other .poolClosed "no store"), s)

/-- Runs a program when the store cannot be reached. -/
def runClosed {α : Type} (p : Program α) : Option α := (p.run closed ()).value?

end MessageBoard.Script
