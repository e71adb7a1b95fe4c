import MessageBoard.Value

/-!
# Statements as text

A statement goes to the store as a text with placeholders and the list of the values bound to them.
It is put together from pieces, and the placeholders are numbered as the values come, so the two
can never disagree.
-/

namespace MessageBoard

inductive Bind where
  | value (v : Value)
  | smallint (n : Int16)
  deriving DecidableEq

/-- The value as the store keeps it: instants in whole microseconds. -/
def Bind.stored : Bind → Bind
  | .value (.instant (some t)) => .value (.instant (some t.stored))
  | b => b

inductive Piece where
  | text (s : String)
  | bind (b : Bind)
  deriving DecidableEq

structure Sql where
  text : String
  binds : List Bind
  deriving DecidableEq

namespace Sql

/-- The text of the pieces, placeholders numbered from `k`. -/
def number : (k : Nat) → List Piece → String
  | _, [] => ""
  | k, .text s :: pieces => s ++ number k pieces
  | k, .bind _ :: pieces => "$" ++ toString k ++ number (k + 1) pieces

def bindsOf : List Piece → List Bind
  | [] => []
  | .text _ :: pieces => bindsOf pieces
  | .bind b :: pieces => b :: bindsOf pieces

def ofPieces (pieces : List Piece) : Sql := ⟨number 1 pieces, bindsOf pieces⟩

end Sql

def Piece.join (separator : String) : List (List Piece) → List Piece
  | [] => []
  | [part] => part
  | part :: parts => part ++ .text separator :: join separator parts

def Value.piece (v : Value) : Piece := .bind (.value v)

def Sql.ofValues (values : List Value) : Sql :=
  .ofPieces (.text "SELECT " :: Piece.join ", " (values.map fun v => [v.piece]))

end MessageBoard
