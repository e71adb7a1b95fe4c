import MessageBoard.Filter.Check
import MessageBoard.Sql

/-!
# Statements

The statements that the board sends to its store, as what they ask for, and the pieces of their
texts. Names in a text come from schemas and from filters that were checked against them; values
are always bound.
-/

namespace MessageBoard

inductive Comparison where
  | equal
  | atLeast
  | atMost
  deriving DecidableEq

/-- What a statement asks of a column of each row. -/
inductive Test where
  | isNull (column : String)
  | compare (column : String) (comparison : Comparison) (value : Value)
  deriving DecidableEq

/-- What a statement sets a column to. -/
inductive Term where
  | value (v : Value)
  | now
  | flag (b : Bool)
  | null
  deriving DecidableEq

inductive Statement where
  | get (schema : TableSchema) (id : Uuid)
  | page (schema : TableSchema) (after : Uuid) (tests : List Test) (order : List SortKey)
    (limit : Int64)
  | count (schema : TableSchema) (tests : List Test)
  | insert (schema : TableSchema) (id : Uuid) (values : List (String × Value))
  | update (schema : TableSchema) (id : Uuid) (changes : List (String × Term))
  | delete (schema : TableSchema) (id : Uuid)
  | castVote (schema : VoteSchema) (target user : Uuid) (vote : Int16)
  | sumVotes (schema : VoteSchema) (target : Uuid)
  | countVotes (schema : VoteSchema) (target : Uuid)
  | summarizeVotes (schema : VoteSchema) (target : Uuid)
  | getVote (schema : VoteSchema) (target user : Uuid)
  | ping
  deriving DecidableEq

def Constraint.tests (column : String) : Constraint → List Test
  | .equals v => if v.isNull then [.isNull column] else [.compare column .equal v]
  | .between lower upper =>
    lower.toList.map (.compare column .atLeast) ++ upper.toList.map (.compare column .atMost)

def Filter.tests (f : Filter) : List Test :=
  f.constraints.entries.flatMap fun (column, c) => c.tests column

namespace Statement

/-- The page that a filter asks for, and one row more. -/
def ofFilter (schema : TableSchema) (f : Filter) : Except FilterError Statement :=
  (f.sortKeys schema).map fun keys =>
    .page schema f.lastSeen f.tests keys (.ofNat (f.pageSize.toNat + 1))

def countOf (schema : TableSchema) (f : Filter) : Statement := .count schema f.tests

def patch (schema : TableSchema) (id : Uuid) (assignments : List (String × Value)) : Statement :=
  .update schema id
    (assignments.map (fun (column, v) => (column, .value v)) ++ [("updated_at", .now)])

def softDelete (schema : TableSchema) (id : Uuid) : Statement :=
  .update schema id [("deleted", .flag true), ("deleted_at", .now), ("updated_at", .now)]

def restore (schema : TableSchema) (id : Uuid) : Statement :=
  .update schema id [("deleted", .flag false), ("deleted_at", .null), ("updated_at", .now)]

end Statement

def Comparison.text : Comparison → String
  | .equal => " = "
  | .atLeast => " >= "
  | .atMost => " <= "

def Test.pieces (row : String) : Test → List Piece
  | .isNull column => [.text s!" AND {row}.{column} IS NULL"]
  | .compare column comparison v => [.text (s!" AND {row}.{column}" ++ comparison.text), v.piece]

def Term.piece : Term → Piece
  | .value v => v.piece
  | .now => .text "NOW()"
  | .flag true => .text "TRUE"
  | .flag false => .text "FALSE"
  | .null => .text "NULL"

namespace Statement

def idPiece (id : Uuid) : Piece := .bind (.value (.uuid (some id)))

def returningPieces (schema : TableSchema) (id : Uuid) : List Piece :=
  [.text s!" WHERE {schema.row}.id = ", idPiece id, .text s!" RETURNING {schema.select}"]

def selectText (schema : TableSchema) : String :=
  s!"SELECT {schema.select} FROM {schema.table} AS {schema.row} WHERE {schema.row}.id"

def castVotePieces (schema : VoteSchema) (target user : Uuid) (vote : Int16) : List Piece :=
  let table := schema.table
  let column := schema.target
  [.text "WITH input_data AS (SELECT ", idPiece target, .text "::UUID AS target_id, ",
    idPiece user, .text "::UUID AS user_id, ", .bind (.smallint vote),
    .text "::SMALLINT AS vote), ",
    .text (s!"delete_if_zero AS (DELETE FROM {table} " ++
      s!"WHERE {column} = (SELECT target_id FROM input_data) " ++
      "AND user_id = (SELECT user_id FROM input_data) " ++
      "AND (SELECT vote FROM input_data) = 0) " ++
      s!"INSERT INTO {table} ({column}, user_id, vote) " ++
      "SELECT target_id, user_id, vote FROM input_data WHERE vote <> 0 " ++
      s!"ON CONFLICT ({column}, user_id) DO UPDATE SET vote = EXCLUDED.vote " ++
      s!"RETURNING {column}, user_id, vote")]

/-- Expressions over the votes on one target. -/
def votesPieces (expressions : String) (schema : VoteSchema) (target : Uuid) : List Piece :=
  [.text s!"SELECT {expressions} FROM {schema.table} WHERE {schema.target} = ", idPiece target]

def pieces : Statement → List Piece
  | get schema id => [.text (selectText schema ++ " = "), idPiece id]
  | page schema after tests order limit =>
    .text (selectText schema ++ " > ") :: idPiece after :: tests.flatMap (·.pieces schema.row) ++
      [.text (" " ++ orderByText order ++ " LIMIT "), .bind (.value (.int (some limit)))]
  | count schema tests =>
    .text s!"SELECT COUNT(*) FROM {schema.table} AS {schema.row} WHERE TRUE" ::
      tests.flatMap (·.pieces schema.row)
  | insert schema id values =>
    .text s!"INSERT INTO {schema.table} AS {schema.row} (" ::
      .text (", ".intercalate ("id" :: values.map (·.1))) :: .text ") VALUES (" ::
      Piece.join ", " ([idPiece id] :: values.map fun (_, v) => [v.piece]) ++
      [.text s!") RETURNING {schema.select}"]
  | update schema id changes =>
    .text s!"UPDATE {schema.table} AS {schema.row} SET " ::
      Piece.join ", " (changes.map fun (column, t) => [.text s!"{column} = ", t.piece]) ++
      returningPieces schema id
  | delete schema id =>
    .text s!"DELETE FROM {schema.table} AS {schema.row}" :: returningPieces schema id
  | castVote schema target user vote => castVotePieces schema target user vote
  | sumVotes schema target => votesPieces "COALESCE(SUM(vote), 0)::BIGINT" schema target
  | countVotes schema target => votesPieces "COUNT(*)" schema target
  | summarizeVotes schema target =>
    votesPieces "COALESCE(SUM(vote), 0)::BIGINT, COUNT(*)" schema target
  | getVote schema target user =>
    [.text (s!"SELECT {schema.target}, user_id, vote FROM {schema.table} " ++
      s!"WHERE {schema.target} = "), idPiece target, .text " AND user_id = ", idPiece user]
  | ping => [.text "SELECT 1"]

def sql (s : Statement) : Sql := .ofPieces s.pieces

end Statement

end MessageBoard
