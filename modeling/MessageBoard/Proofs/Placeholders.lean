import MessageBoard.Proofs.Numerals
import MessageBoard.Proofs.Wording
import MessageBoard.Text.Split

/-!
# Placeholders and their values

A store reads a text from left to right, takes the digits behind each `$` for a number, and looks
the value of that number up in the list that comes with the text. `Sql.placeholders` and
`Sql.filled` do just that, knowing nothing of the pieces that the text was made of.

Pieces are legible when no text of theirs has a `$` in it and none goes on with a digit behind a
placeholder. Of legible pieces a store reads every value, once and in its place. All statements are
made of such pieces if the names in them have no `$`; texts that are bound may have any.
-/

namespace MessageBoard

/-! ## How a store reads a statement -/

namespace Sql

/-- Each `$` of the text with the digits behind it. -/
def placeholders (text : String) : List String :=
  ((Text.pieces '$' text.toList).drop 1).map fun cs => "$" ++ .ofList (cs.takeWhile Char.isDigit)

/-- Values are counted from one. -/
def valueAt? (binds : List Bind) (number : Nat) : Option Bind :=
  if number = 0 then none else binds[number - 1]?

/-- What follows a `$`, with a value in the place of its number; a number without a value stays. -/
def fill (write : Bind → String) (binds : List Bind) (cs : List Char) : String :=
  match valueAt? binds (Nat.ofDigitChars 10 (cs.takeWhile Char.isDigit) 0) with
  | some b => write b ++ .ofList (cs.dropWhile Char.isDigit)
  | none => "$" ++ .ofList cs

def filled (write : Bind → String) (s : Sql) : String :=
  match Text.pieces '$' s.text.toList with
  | [] => ""
  | cs :: rest => .ofList cs ++ String.join (rest.map (fill write s.binds))

/-- The statement asks for these values, each once and in this order, and with them in their places
it is the text `written`, however values are written. -/
structure Agrees (s : Sql) (values : List Bind) (written : (Bind → String) → String) : Prop where
  binds : s.binds = values
  placeholders : placeholders s.text =
    (List.range' 1 values.length).map fun k => "$" ++ toString k
  filled : ∀ write, s.filled write = written write

end Sql

/-! ## Legible pieces -/

def Unmarked (s : String) : Prop := '$' ∉ s.toList

instance (s : String) : Decidable (Unmarked s) := inferInstanceAs (Decidable (_ ∉ _))

theorem unmarked_append {a b : String} : Unmarked (a ++ b) ↔ Unmarked a ∧ Unmarked b := by
  simp [Unmarked, not_or]

theorem unmarked_intercalate {texts : List String} (h : ∀ t ∈ texts, Unmarked t) :
    Unmarked (", ".intercalate texts) := by
  induction texts with
  | nil => decide
  | cons t rest ih =>
    obtain ⟨ht, hrest⟩ := List.forall_mem_cons.1 h
    cases rest with
    | nil => rwa [String.intercalate_singleton]
    | cons u rest =>
      rw [String.intercalate_cons_cons, unmarked_append, unmarked_append]
      exact ⟨⟨ht, by decide⟩, ih hrest⟩

namespace Piece

/-- A number before these pieces ends there. -/
def Opens : List Piece → Prop
  | [] => True
  | .text s :: _ => ∃ c cs, s.toList = c :: cs ∧ c.isDigit = false
  | .bind _ :: _ => True

def Legible : List Piece → Prop
  | [] => True
  | .text s :: ps => Unmarked s ∧ Legible ps
  | .bind _ :: ps => Opens ps ∧ Legible ps

/-- The pieces can be read, also behind a placeholder. -/
structure Sound (ps : List Piece) : Prop where
  legible : Legible ps
  opens : Opens ps

def written (write : Bind → String) : Piece → String
  | .text s => s
  | .bind b => write b

theorem legible_append {ps qs : List Piece} (hp : Legible ps) (hq : Legible qs) (ho : Opens qs) :
    Legible (ps ++ qs) := by
  induction ps with
  | nil => exact hq
  | cons p ps ih =>
    cases p with
    | text s => exact ⟨hp.1, ih hp.2⟩
    | bind b =>
      refine ⟨?_, ih hp.2⟩
      cases ps with
      | nil => exact ho
      | cons p ps => cases p <;> exact hp.1

theorem opens_text {s : String} {ps : List Piece} (c : Char) (h : s.toList.head? = some c)
    (hc : c.isDigit = false) : Opens (.text s :: ps) := by
  obtain ⟨cs, hcs⟩ := List.head?_eq_some_iff.1 h
  exact ⟨c, cs, hcs, hc⟩

namespace Sound

theorem append {ps qs : List Piece} (hp : Sound ps) (hq : Sound qs) : Sound (ps ++ qs) where
  legible := legible_append hp.legible hq.legible hq.opens
  opens := by
    cases ps with
    | nil => exact hq.opens
    | cons p ps =>
      have ho := hp.opens
      cases p <;> exact ho

theorem flatMap {α : Type} {l : List α} {f : α → List Piece} (h : ∀ a ∈ l, Sound (f a)) :
    Sound (l.flatMap f) := by
  induction l with
  | nil => exact ⟨trivial, trivial⟩
  | cons a l ih =>
    obtain ⟨ha, hl⟩ := List.forall_mem_cons.1 h
    exact ha.append (ih hl)

end Sound

theorem legible_join {parts : List (List Piece)} (h : ∀ part ∈ parts, Legible part) :
    Legible (join ", " parts) := by
  induction parts with
  | nil => trivial
  | cons part parts ih =>
    obtain ⟨hpart, hparts⟩ := List.forall_mem_cons.1 h
    cases parts with
    | nil => exact hpart
    | cons next parts =>
      exact legible_append hpart ⟨by decide, ih hparts⟩ (opens_text ',' rfl rfl)

section Join

variable (write : Bind → String)

theorem written_append (ps qs : List Piece) : String.join ((ps ++ qs).map (written write)) =
    String.join (ps.map (written write)) ++ String.join (qs.map (written write)) := by
  rw [List.map_append, String.join_append]

theorem written_flatMap {α : Type} (l : List α) (f : α → List Piece) :
    String.join ((l.flatMap f).map (written write)) =
      String.join (l.map fun a => String.join ((f a).map (written write))) := by
  induction l with
  | nil => rfl
  | cons a l ih => rw [List.flatMap_cons, written_append, ih, List.map_cons, String.join_cons]

theorem written_join (parts : List (List Piece)) :
    String.join ((join ", " parts).map (written write)) =
      ", ".intercalate (parts.map fun part => String.join (part.map (written write))) := by
  induction parts with
  | nil => rfl
  | cons part parts ih =>
    cases parts with
    | nil => rw [join, List.map_singleton, String.intercalate_singleton]
    | cons next parts =>
      have hjoin : join ", " (part :: next :: parts) =
          part ++ .text ", " :: join ", " (next :: parts) := rfl
      rw [hjoin, written_append, List.map_cons, String.join_cons, ih, List.map_cons, List.map_cons,
        List.map_cons, String.intercalate_cons_cons, String.append_assoc]
      rfl

end Join

end Piece

namespace Sql

open Piece

theorem bindsOf_flatMap {α : Type} (l : List α) (f : α → List Piece) :
    bindsOf (l.flatMap f) = l.flatMap fun a => bindsOf (f a) := by
  induction l with
  | nil => rfl
  | cons a l ih => rw [List.flatMap_cons, bindsOf_append, ih, List.flatMap_cons]

theorem bindsOf_join (parts : List (List Piece)) :
    bindsOf (join ", " parts) = parts.flatMap bindsOf := by
  induction parts with
  | nil => rfl
  | cons part parts ih =>
    cases parts with
    | nil => rw [join, List.flatMap_singleton]
    | cons next parts =>
      have hjoin : join ", " (part :: next :: parts) =
          part ++ .text ", " :: join ", " (next :: parts) := rfl
      rw [hjoin, bindsOf_append, bindsOf, ih, ← List.flatMap_cons]

theorem isDigit_of_mem_number {k : Nat} {d : Char} (hd : d ∈ (toString k).toList) :
    d.isDigit = true := by
  rw [Nat.toString_eq_repr, Nat.toList_repr] at hd
  exact Text.isDigit_of_mem_decimal hd

theorem fill_number (write : Bind → String) {binds : List Bind} {k : Nat} {b : Bind}
    (hk : valueAt? binds k = some b) {cs : List Char} (hcs : cs.takeWhile Char.isDigit = []) :
    fill write binds ((toString k).toList ++ cs) = write b ++ .ofList cs := by
  have hdigits : ∀ d ∈ (toString k).toList, d.isDigit = true := fun d => isDigit_of_mem_number
  have hnumber : Nat.ofDigitChars 10 (toString k).toList 0 = k := by
    rw [Nat.toString_eq_repr, Nat.toList_repr]
    exact Text.ofDigitChars_decimal k
  rw [fill, Text.takeWhile_run hdigits hcs, Text.dropWhile_run hdigits hcs, hnumber, hk]

theorem pieces_number {ps : List Piece} (h : Legible ps) (k : Nat) :
    ∃ cs rest, Text.pieces '$' (number k ps).toList = cs :: rest ∧
      (Opens ps → cs.takeWhile Char.isDigit = []) ∧
      rest.map (·.takeWhile Char.isDigit) =
        (List.range' k (bindsOf ps).length).map (fun i => (toString i).toList) ∧
      ∀ write before, before.length + 1 = k →
        .ofList cs ++ String.join (rest.map (fill write (before ++ bindsOf ps))) =
          String.join (ps.map (written write)) := by
  induction ps generalizing k with
  | nil => exact ⟨[], [], rfl, fun _ => rfl, rfl, fun _ _ _ => rfl⟩
  | cons p ps ih =>
    cases p with
    | text s =>
      obtain ⟨cs, rest, hcut, -, hnumbers, hwritten⟩ := ih h.2 k
      refine ⟨s.toList ++ cs, rest, ?_, fun ho => ?_, hnumbers, fun write before hk => ?_⟩
      · rw [number, String.toList_append]
        exact Text.pieces_append h.1 hcut
      · obtain ⟨c, ds, hs, hc⟩ := ho
        rw [hs, List.cons_append, List.takeWhile_cons_of_neg (by simp [hc])]
      · rw [List.map_cons, String.join_cons, ← hwritten write before hk, String.ofList_append,
          String.ofList_toList, String.append_assoc]
        rfl
    | bind b =>
      obtain ⟨cs, rest, hcut, hopens, hnumbers, hwritten⟩ := ih h.2 (k + 1)
      have hcs := hopens h.1
      have hdigits : ∀ d ∈ (toString k).toList, d.isDigit = true := fun d => isDigit_of_mem_number
      have hmark : '$' ∉ (toString k).toList := fun hd => by
        have := hdigits _ hd
        revert this
        decide
      refine ⟨[], ((toString k).toList ++ cs) :: rest, ?_, fun _ => rfl, ?_,
        fun write before hk => ?_⟩
      · have htext : (number k (.bind b :: ps)).toList =
            '$' :: ((toString k).toList ++ (number (k + 1) ps).toList) := by
          simp [number]
        rw [htext, Text.pieces_cons_self, Text.pieces_append hmark hcut]
      · rw [List.map_cons, Text.takeWhile_run hdigits hcs, hnumbers]
        rfl
      · have hb : valueAt? (before ++ bindsOf (.bind b :: ps)) k = some b := by
          rw [valueAt?, if_neg (by omega), bindsOf, List.getElem?_append_right (by omega),
            show k - 1 - before.length = 0 by omega, List.getElem?_cons_zero]
        have hrest := hwritten write (before ++ [b]) (by simp; omega)
        rw [List.append_assoc, List.singleton_append] at hrest
        rw [List.map_cons, String.join_cons, fill_number write hb hcs, List.map_cons,
          String.join_cons, ← hrest, String.append_assoc]
        rfl

theorem agrees_of_legible {ps : List Piece} (h : Legible ps) :
    (ofPieces ps).Agrees (bindsOf ps) fun write => String.join (ps.map (written write)) := by
  obtain ⟨cs, rest, hcut, -, hnumbers, hwritten⟩ := pieces_number h 1
  refine ⟨rfl, ?_, fun write => ?_⟩
  · have hmap : (rest.map (·.takeWhile Char.isDigit)).map (fun ds => "$" ++ String.ofList ds) =
        (List.range' 1 (bindsOf ps).length).map fun k => "$" ++ toString k := by
      simp only [hnumbers, List.map_map, Function.comp_def, String.ofList_toList]
    rw [← hmap, placeholders, ofPieces, hcut, List.map_map]
    rfl
  · rw [filled, ofPieces, hcut]
    exact hwritten write [] rfl

end Sql

/-! ## What the statements read like -/

/-- The values that a constraint binds: none for a null, the ends that there are for a range. -/
def Constraint.values : Constraint → List Bind
  | .equals v => if v.isNull then [] else [.value v]
  | .between lower upper => (lower.toList ++ upper.toList).map .value

/-- What a constraint asks of a place, with its values in it. -/
def Constraint.written (write : Bind → String) (place : String) : Constraint → String
  | .equals v =>
    if v.isNull then " AND " ++ place ++ " IS NULL"
    else " AND " ++ place ++ " = " ++ write (.value v)
  | .between lower upper =>
    lower.elim "" (fun v => " AND " ++ place ++ " >= " ++ write (.value v)) ++
      upper.elim "" fun v => " AND " ++ place ++ " <= " ++ write (.value v)

def Filter.values (f : Filter) : List Bind := f.constraints.entries.flatMap fun e => e.2.values

def Filter.written (write : Bind → String) (row : String) (f : Filter) : String :=
  String.join (f.constraints.entries.map fun e => e.2.written write (row ++ "." ++ e.1))

def Bind.ofId (id : Uuid) : Bind := .value (.uuid (some id))

/-- The names that get into statements have no `$`. -/
structure TableSchema.Unmarked (schema : TableSchema) : Prop where
  table : MessageBoard.Unmarked schema.table
  row : MessageBoard.Unmarked schema.row
  select : MessageBoard.Unmarked schema.select
  sortable : ∀ name ∈ schema.sortable, MessageBoard.Unmarked name

structure VoteSchema.Unmarked (schema : VoteSchema) : Prop where
  table : MessageBoard.Unmarked schema.table
  target : MessageBoard.Unmarked schema.target

/-- What the statements about the rows of a table say to the store. -/
structure TableSchema.StatementsAgree (schema : TableSchema) : Prop where
  get (id : Uuid) : (Statement.get schema id).sql.Agrees [.ofId id] fun write =>
    s!"SELECT {schema.select} FROM {schema.table} AS {schema.row} WHERE {schema.row}.id = " ++
      write (.ofId id)
  page (f : Filter) : (∀ e ∈ f.constraints.entries, MessageBoard.Unmarked e.1) →
    match f.orderByClause schema with
    | .error e => Statement.ofFilter schema f = .error e
    | .ok clause => ∃ (statement : Statement) (limit : Int64),
      Statement.ofFilter schema f = .ok statement ∧ limit.toInt = f.pageSize.toNat + 1 ∧
      statement.sql.Agrees
        (.ofId f.lastSeen :: f.values ++ [.value (.int (some limit))]) fun write =>
        s!"SELECT {schema.select} FROM {schema.table} AS {schema.row} WHERE {schema.row}.id > " ++
          write (.ofId f.lastSeen) ++ f.written write schema.row ++ " " ++ clause ++ " LIMIT " ++
          write (.value (.int (some limit)))
  count (f : Filter) : (∀ e ∈ f.constraints.entries, MessageBoard.Unmarked e.1) →
    (Statement.countOf schema f).sql.Agrees f.values fun write =>
      s!"SELECT COUNT(*) FROM {schema.table} AS {schema.row} WHERE TRUE" ++
        f.written write schema.row
  insert (id : Uuid) (values : List (String × Value)) :
    (∀ e ∈ values, MessageBoard.Unmarked e.1) →
    (Statement.insert schema id values).sql.Agrees
      (.ofId id :: values.map fun e => .value e.2) fun write =>
      s!"INSERT INTO {schema.table} AS {schema.row} (" ++
        ", ".intercalate ("id" :: values.map fun e => e.1) ++ ") VALUES (" ++
        ", ".intercalate (write (.ofId id) :: values.map fun e => write (.value e.2)) ++
        s!") RETURNING {schema.select}"
  patch (id : Uuid) (assignments : List (String × Value)) :
    (∀ e ∈ assignments, MessageBoard.Unmarked e.1) →
    (Statement.patch schema id assignments).sql.Agrees
      (assignments.map (fun e => .value e.2) ++ [.ofId id]) fun write =>
      s!"UPDATE {schema.table} AS {schema.row} SET " ++
        ", ".intercalate (assignments.map (fun e => e.1 ++ " = " ++ write (.value e.2)) ++
          ["updated_at = NOW()"]) ++
        s!" WHERE {schema.row}.id = " ++ write (.ofId id) ++ s!" RETURNING {schema.select}"
  softDelete (id : Uuid) : (Statement.softDelete schema id).sql.Agrees [.ofId id] fun write =>
    s!"UPDATE {schema.table} AS {schema.row} SET " ++
      "deleted = TRUE, deleted_at = NOW(), updated_at = NOW()" ++
      s!" WHERE {schema.row}.id = " ++ write (.ofId id) ++ s!" RETURNING {schema.select}"
  restore (id : Uuid) : (Statement.restore schema id).sql.Agrees [.ofId id] fun write =>
    s!"UPDATE {schema.table} AS {schema.row} SET " ++
      "deleted = FALSE, deleted_at = NULL, updated_at = NOW()" ++
      s!" WHERE {schema.row}.id = " ++ write (.ofId id) ++ s!" RETURNING {schema.select}"
  delete (id : Uuid) : (Statement.delete schema id).sql.Agrees [.ofId id] fun write =>
    s!"DELETE FROM {schema.table} AS {schema.row} WHERE {schema.row}.id = " ++ write (.ofId id) ++
      s!" RETURNING {schema.select}"

/-- What the statements about votes say to the store. -/
structure VoteSchema.StatementsAgree (schema : VoteSchema) : Prop where
  cast (target user : Uuid) (vote : Int16) : (Statement.castVote schema target user vote).sql.Agrees
    [.ofId target, .ofId user, .smallint vote] fun write =>
    "WITH input_data AS (SELECT " ++ write (.ofId target) ++ "::UUID AS target_id, " ++
      write (.ofId user) ++ "::UUID AS user_id, " ++ write (.smallint vote) ++
      "::SMALLINT AS vote), " ++ s!"delete_if_zero AS (DELETE FROM {schema.table} " ++
      s!"WHERE {schema.target} = (SELECT target_id FROM input_data) " ++
      "AND user_id = (SELECT user_id FROM input_data) " ++
      "AND (SELECT vote FROM input_data) = 0) " ++
      s!"INSERT INTO {schema.table} ({schema.target}, user_id, vote) " ++
      "SELECT target_id, user_id, vote FROM input_data WHERE vote <> 0 " ++
      s!"ON CONFLICT ({schema.target}, user_id) DO UPDATE SET vote = EXCLUDED.vote " ++
      s!"RETURNING {schema.target}, user_id, vote"
  sum (target : Uuid) : (Statement.sumVotes schema target).sql.Agrees [.ofId target] fun write =>
    "SELECT " ++ "COALESCE(SUM(vote), 0)::BIGINT" ++
      s!" FROM {schema.table} WHERE {schema.target} = " ++ write (.ofId target)
  count (target : Uuid) : (Statement.countVotes schema target).sql.Agrees [.ofId target]
    fun write => "SELECT " ++ "COUNT(*)" ++
      s!" FROM {schema.table} WHERE {schema.target} = " ++ write (.ofId target)
  summarize (target : Uuid) : (Statement.summarizeVotes schema target).sql.Agrees [.ofId target]
    fun write => "SELECT " ++ "COALESCE(SUM(vote), 0)::BIGINT, COUNT(*)" ++
      s!" FROM {schema.table} WHERE {schema.target} = " ++ write (.ofId target)
  get (target user : Uuid) : (Statement.getVote schema target user).sql.Agrees
    [.ofId target, .ofId user] fun write =>
    s!"SELECT {schema.target}, user_id, vote FROM {schema.table} " ++
      s!"WHERE {schema.target} = " ++ write (.ofId target) ++ " AND user_id = " ++
      write (.ofId user)

namespace Sql.Agrees

variable {values : List Bind} {reading : (Bind → String) → String}

theorem congr {s : Sql} (h : s.Agrees values reading) {values' : List Bind}
    (hvalues : values = values') {reading' : (Bind → String) → String}
    (hreading : ∀ write, reading write = reading' write) : s.Agrees values' reading' := by
  obtain rfl := hvalues
  obtain rfl := funext hreading
  exact h

theorem of_pieces {statement : Statement} (h : Piece.Legible statement.pieces)
    (hvalues : bindsOf statement.pieces = values)
    (hreading : ∀ write, String.join (statement.pieces.map (Piece.written write)) = reading write) :
    statement.sql.Agrees values reading := (agrees_of_legible h).congr hvalues hreading

end Sql.Agrees

namespace VoteSchema

variable {schema : VoteSchema}

theorem agrees_votesPieces (h : schema.Unmarked) {expressions : String}
    (he : MessageBoard.Unmarked expressions) {statement : Statement} {target : Uuid}
    (hs : statement.pieces = Statement.votesPieces expressions schema target) :
    statement.sql.Agrees [.ofId target] fun write =>
      "SELECT " ++ expressions ++ s!" FROM {schema.table} WHERE {schema.target} = " ++
        write (.ofId target) := by
  refine .of_pieces ?_ (by rw [hs]; rfl) fun write => ?_
  · simp +decide [hs, Statement.votesPieces, Statement.idPiece, Piece.Legible, Piece.Opens,
      unmarked_append, toString, he, h.table, h.target]
  · simp [hs, Statement.votesPieces, Statement.idPiece, Piece.written, Bind.ofId,
      toString, String.append_assoc]

theorem statementsAgree (h : schema.Unmarked) : schema.StatementsAgree where
  cast target user vote := by
    refine .of_pieces ?_ rfl fun write => ?_
    · simp +decide [Statement.pieces, Statement.castVotePieces, Statement.idPiece, Piece.Legible,
        Piece.Opens, unmarked_append, toString, h.table, h.target]
    · simp [Statement.pieces, Statement.castVotePieces, Statement.idPiece, Piece.written, Bind.ofId,
        toString, String.append_assoc]
  sum target := agrees_votesPieces h (by decide) rfl
  count target := agrees_votesPieces h (by decide) rfl
  summarize target := agrees_votesPieces h (by decide) rfl
  get target user := by
    refine .of_pieces ?_ rfl fun write => ?_
    · simp +decide [Statement.pieces, Statement.idPiece, Piece.Legible, Piece.Opens,
        unmarked_append, toString, h.table, h.target]
    · simp [Statement.pieces, Statement.idPiece, Piece.written, Bind.ofId, toString,
        String.append_assoc]

end VoteSchema

/-! ## The statements about rows -/

namespace Constraint

variable {row column : String}

theorem sound_tests (hrow : Unmarked row) (hcolumn : Unmarked column) (c : Constraint) :
    Piece.Sound ((c.tests column).flatMap (·.pieces row)) := by
  refine .flatMap fun test ht => ?_
  have hname := column_of_mem_tests ht
  cases test with
  | isNull name =>
    obtain rfl : name = column := hname
    refine ⟨⟨?_, trivial⟩, Piece.opens_text ' ' ?_ rfl⟩
    · simp +decide [unmarked_append, toString, hrow, hcolumn]
    · simp [toString]
  | compare name comparison v =>
    obtain rfl : name = column := hname
    refine ⟨⟨?_, trivial, trivial⟩, Piece.opens_text ' ' ?_ rfl⟩
    · cases comparison <;>
        simp +decide [unmarked_append, toString, Comparison.text, hrow, hcolumn]
    · simp [toString]

theorem bindsOf_tests (c : Constraint) :
    Sql.bindsOf ((c.tests column).flatMap (·.pieces row)) = c.values := by
  cases c with
  | equals v =>
    rw [tests, values]
    by_cases hv : v.isNull = true
    · rw [if_pos hv, if_pos hv]
      rfl
    · rw [if_neg hv, if_neg hv]
      rfl
  | between lower upper => cases lower <;> cases upper <;> rfl

theorem written_tests (write : Bind → String) (c : Constraint) :
    String.join (((c.tests column).flatMap (·.pieces row)).map (Piece.written write)) =
      c.written write (row ++ "." ++ column) := by
  cases c with
  | equals v =>
    rw [tests, written]
    by_cases hv : v.isNull = true
    · rw [if_pos hv, if_pos hv]
      simp [Test.pieces, Piece.written, toString, String.append_assoc]
    · rw [if_neg hv, if_neg hv]
      simp [Test.pieces, Piece.written, Comparison.text, Value.piece, toString,
        String.append_assoc]
  | between lower upper =>
    cases lower <;> cases upper <;>
      simp [tests, written, Test.pieces, Piece.written, Comparison.text, Value.piece,
        toString, String.append_assoc]

end Constraint

namespace Filter

variable {f : Filter} {row : String}

theorem pieces_tests (f : Filter) (row : String) : f.tests.flatMap (·.pieces row) =
    f.constraints.entries.flatMap fun e => (e.2.tests e.1).flatMap (·.pieces row) := by
  rw [tests, List.flatMap_assoc]

theorem sound_tests (hrow : Unmarked row) (h : ∀ e ∈ f.constraints.entries, Unmarked e.1) :
    Piece.Sound (f.tests.flatMap (·.pieces row)) := by
  rw [pieces_tests]
  exact .flatMap fun e he => e.2.sound_tests hrow (h e he)

theorem bindsOf_tests (f : Filter) (row : String) :
    Sql.bindsOf (f.tests.flatMap (·.pieces row)) = f.values := by
  rw [pieces_tests, Sql.bindsOf_flatMap, values]
  simp only [Constraint.bindsOf_tests]

theorem written_tests (write : Bind → String) (f : Filter) (row : String) :
    String.join ((f.tests.flatMap (·.pieces row)).map (Piece.written write)) =
      f.written write row := by
  rw [pieces_tests, Piece.written_flatMap, written]
  simp only [Constraint.written_tests]

end Filter

theorem unmarked_orderByText {keys : List SortKey} (h : ∀ key ∈ keys, Unmarked key.column) :
    Unmarked (orderByText keys) := by
  have hkey : ∀ key ∈ keys ++ [SortKey.mk "id" false], Unmarked key.toText := by
    intro key hk
    have hcolumn : Unmarked key.column := by
      rcases List.mem_append.1 hk with hk | hk
      · exact h key hk
      · rw [List.mem_singleton.1 hk]
        decide
    rw [SortKey.toText, unmarked_append]
    refine ⟨hcolumn, ?_⟩
    cases key.descending <;> decide
  rw [orderByText]
  by_cases hk : keys = []
  · rw [if_pos hk]
    decide
  · rw [if_neg hk, unmarked_append]
    refine ⟨by decide, unmarked_intercalate fun t ht => ?_⟩
    obtain ⟨key, hkey', rfl⟩ := List.mem_map.1 ht
    exact hkey key hkey'

namespace TableSchema

variable {schema : TableSchema}

theorem Unmarked.sortKeys (h : schema.Unmarked) {f : Filter} {keys : List SortKey}
    (hk : f.sortKeys schema = .ok keys) : ∀ key ∈ keys, MessageBoard.Unmarked key.column := by
  intro key hkey
  have hmem := ((sortKeys_eq_ok_iff.1 hk).2 key hkey).2
  exact h.sortable _ (List.mem_filter.1 hmem).1

theorem agrees_page (h : schema.Unmarked) {f : Filter}
    (hf : ∀ e ∈ f.constraints.entries, MessageBoard.Unmarked e.1) {keys : List SortKey}
    (hkeys : ∀ key ∈ keys, MessageBoard.Unmarked key.column) (limit : Int64) :
    (Statement.page schema f.lastSeen f.tests keys limit).sql.Agrees
      (.ofId f.lastSeen :: f.values ++ [.value (.int (some limit))]) fun write =>
      s!"SELECT {schema.select} FROM {schema.table} AS {schema.row} WHERE {schema.row}.id > " ++
        write (.ofId f.lastSeen) ++ f.written write schema.row ++ " " ++ orderByText keys ++
        " LIMIT " ++ write (.value (.int (some limit))) := by
  have hend : Piece.Sound [.text (" " ++ orderByText keys ++ " LIMIT "),
      .bind (.value (.int (some limit)))] := by
    refine ⟨⟨?_, trivial, trivial⟩, Piece.opens_text ' ' ?_ rfl⟩
    · simp +decide [unmarked_append, unmarked_orderByText hkeys]
    · simp
  have hrest := (Filter.sound_tests h.row hf).append hend
  refine .of_pieces ⟨?_, hrest.opens, hrest.legible⟩ ?_ fun write => ?_
  · simp +decide [Statement.selectText, unmarked_append, toString, h.table, h.row, h.select]
  · simp only [Statement.pieces, Sql.bindsOf, Sql.bindsOf_append, Filter.bindsOf_tests,
      Statement.idPiece, List.cons_append]
    rfl
  · simp only [Statement.pieces, List.map_append, List.map_cons, String.join_append,
      String.join_cons, Filter.written_tests]
    simp [Piece.written, Statement.selectText, Statement.idPiece, Bind.ofId, toString,
      String.append_assoc]

theorem agrees_insert (h : schema.Unmarked) (id : Uuid) {values : List (String × Value)}
    (hvalues : ∀ e ∈ values, MessageBoard.Unmarked e.1) :
    (Statement.insert schema id values).sql.Agrees
      (.ofId id :: values.map fun e => .value e.2) fun write =>
      s!"INSERT INTO {schema.table} AS {schema.row} (" ++
        ", ".intercalate ("id" :: values.map fun e => e.1) ++ ") VALUES (" ++
        ", ".intercalate (write (.ofId id) :: values.map fun e => write (.value e.2)) ++
        s!") RETURNING {schema.select}" := by
  have hparts : ([Statement.idPiece id] :: values.map fun e => [e.2.piece]) =
      (Bind.ofId id :: values.map fun e => .value e.2).map fun b => [.bind b] := by
    rw [List.map_cons, List.map_map]
    rfl
  have hcolumns : MessageBoard.Unmarked (", ".intercalate ("id" :: values.map fun e => e.1)) := by
    refine unmarked_intercalate fun t ht => ?_
    rcases List.mem_cons.1 ht with rfl | ht
    · decide
    · obtain ⟨e, he, rfl⟩ := List.mem_map.1 ht
      exact hvalues e he
  have hjoin : Piece.Legible (Piece.join ", "
      ((Bind.ofId id :: values.map fun e => .value e.2).map fun b => [.bind b])) := by
    refine Piece.legible_join fun part hpart => ?_
    obtain ⟨b, -, rfl⟩ := List.mem_map.1 hpart
    exact ⟨trivial, trivial⟩
  have hend : Piece.Sound [.text s!") RETURNING {schema.select}"] := by
    refine ⟨⟨?_, trivial⟩, Piece.opens_text ')' ?_ rfl⟩
    · simp +decide [unmarked_append, toString, h.select]
    · simp [toString]
  refine .of_pieces ?_ ?_ fun write => ?_
  · rw [Statement.pieces, hparts]
    refine ⟨?_, hcolumns, by decide, Piece.legible_append hjoin hend.legible hend.opens⟩
    simp +decide [unmarked_append, toString, h.table, h.row]
  · rw [Statement.pieces, hparts]
    simp only [List.cons_append, Sql.bindsOf, Sql.bindsOf_append, Sql.bindsOf_join]
    simp only [List.flatMap_map, Sql.bindsOf, ← List.map_eq_flatMap, List.map_id', List.append_nil]
  · rw [Statement.pieces, hparts]
    simp only [List.cons_append, List.map_cons, List.map_append, String.join_cons,
      String.join_append, Piece.written_join]
    simp [Piece.written, toString, String.append_assoc, Function.comp_def]

theorem agrees_update (h : schema.Unmarked) (id : Uuid) {changes : List (String × Term)}
    (hchanges : ∀ e ∈ changes, MessageBoard.Unmarked e.1) :
    (Statement.update schema id changes).sql.Agrees
      (changes.flatMap (fun e => Sql.bindsOf [e.2.piece]) ++ [.ofId id]) fun write =>
      s!"UPDATE {schema.table} AS {schema.row} SET " ++
        ", ".intercalate (changes.map fun e => e.1 ++ " = " ++ e.2.piece.written write) ++
        s!" WHERE {schema.row}.id = " ++ write (.ofId id) ++ s!" RETURNING {schema.select}" := by
  have hjoin : Piece.Legible (Piece.join ", "
      (changes.map fun e => [.text s!"{e.1} = ", e.2.piece])) := by
    refine Piece.legible_join fun part hpart => ?_
    obtain ⟨⟨column, t⟩, he, rfl⟩ := List.mem_map.1 hpart
    refine ⟨?_, ?_⟩
    · simp +decide [unmarked_append, toString, hchanges _ he]
    · cases t with
      | value v => exact ⟨trivial, trivial⟩
      | now => exact ⟨by decide, trivial⟩
      | flag b => cases b <;> exact ⟨by decide, trivial⟩
      | null => exact ⟨by decide, trivial⟩
  have hend : Piece.Sound (Statement.returningPieces schema id) := by
    refine ⟨⟨?_, Piece.opens_text ' ' ?_ rfl, ?_, trivial⟩, Piece.opens_text ' ' ?_ rfl⟩
    · simp +decide [unmarked_append, toString, h.row]
    · simp [toString]
    · simp +decide [unmarked_append, toString, h.select]
    · simp [toString]
  refine .of_pieces ?_ ?_ fun write => ?_
  · refine ⟨?_, Piece.legible_append hjoin hend.legible hend.opens⟩
    simp +decide [unmarked_append, toString, h.table, h.row]
  · simp only [Statement.pieces, List.cons_append, Sql.bindsOf, Sql.bindsOf_append,
      Sql.bindsOf_join, List.flatMap_map]
    rfl
  · simp only [Statement.pieces, List.cons_append, List.map_cons, List.map_append, String.join_cons,
      String.join_append, Piece.written_join, List.map_map]
    simp [Piece.written, toString, String.append_assoc, Statement.returningPieces,
      Function.comp_def, Statement.idPiece, Bind.ofId]

theorem agrees_fixedUpdate (h : schema.Unmarked) (id : Uuid) {changes : List (String × Term)}
    (hchanges : ∀ e ∈ changes, MessageBoard.Unmarked e.1)
    (hbinds : changes.flatMap (fun e => Sql.bindsOf [e.2.piece]) = []) {setting : String}
    (hsetting : ∀ write, ", ".intercalate
      (changes.map fun e => e.1 ++ " = " ++ e.2.piece.written write) = setting) :
    (Statement.update schema id changes).sql.Agrees [.ofId id] fun write =>
      s!"UPDATE {schema.table} AS {schema.row} SET " ++ setting ++
        s!" WHERE {schema.row}.id = " ++ write (.ofId id) ++ s!" RETURNING {schema.select}" := by
  refine (agrees_update h id hchanges).congr (by rw [hbinds, List.nil_append]) fun write => ?_
  rw [hsetting]

theorem statementsAgree (h : schema.Unmarked) : schema.StatementsAgree where
  get id := by
    refine .of_pieces ?_ rfl fun write => ?_
    · simp +decide [Statement.pieces, Statement.selectText, Statement.idPiece, Piece.Legible,
        Piece.Opens, unmarked_append, toString, h.table, h.row, h.select]
    · simp [Statement.pieces, Statement.selectText, Statement.idPiece, Piece.written, Bind.ofId,
        toString, String.append_assoc]
  page f hf := by
    rw [Filter.orderByClause, Statement.ofFilter]
    cases hk : f.sortKeys schema with
    | error e => rfl
    | ok keys =>
      refine ⟨_, _, rfl, ?_, agrees_page h hf (h.sortKeys hk) _⟩
      have hlt := f.pageSize.toNat_lt
      rw [Int64.toInt_ofNat_of_lt (by omega)]
      omega
  count f hf := by
    refine .of_pieces ⟨?_, (Filter.sound_tests h.row hf).legible⟩ ?_ fun write => ?_
    · simp +decide [unmarked_append, toString, h.table, h.row]
    · exact Filter.bindsOf_tests f schema.row
    · rw [Statement.countOf, Statement.pieces, List.map_cons, String.join_cons,
        Filter.written_tests]
      rfl
  insert id values hvalues := agrees_insert h id hvalues
  patch id assignments hassignments := by
    refine (agrees_update h id fun e he => ?_).congr ?_ fun write => ?_
    · rcases List.mem_append.1 he with he | he
      · obtain ⟨a, ha, rfl⟩ := List.mem_map.1 he
        exact hassignments a ha
      · rw [List.mem_singleton.1 he]
        decide
    · rw [List.flatMap_append, List.flatMap_map]
      simp only [Term.piece, Value.piece, Sql.bindsOf, ← List.map_eq_flatMap, List.flatMap_cons,
        List.flatMap_nil, List.append_nil]
    · rw [List.map_append, List.map_map]
      rfl
  softDelete id := agrees_fixedUpdate h id (by decide) rfl fun write => by
    simp [Term.piece, Piece.written, String.intercalate_cons_cons]
  restore id := agrees_fixedUpdate h id (by decide) rfl fun write => by
    simp [Term.piece, Piece.written, String.intercalate_cons_cons]
  delete id := by
    refine .of_pieces ?_ rfl fun write => ?_
    · simp +decide [Statement.pieces, Statement.returningPieces, Statement.idPiece, Piece.Legible,
        Piece.Opens, unmarked_append, toString, h.table, h.row, h.select]
    · simp [Statement.pieces, Statement.returningPieces, Statement.idPiece, Piece.written,
        Bind.ofId, toString, String.append_assoc]

end TableSchema

/-- Every statement refers to its values by the placeholders `$1`, `$2` and so on, once each and in
their order, and every value stands where it belongs: the value of a constraint behind its column
and its sign, the value of a column in its place among the columns, the page size at the end. -/
theorem placeholders_agree :
    (∀ schema : TableSchema, schema.Unmarked → schema.StatementsAgree) ∧
      ∀ schema : VoteSchema, schema.Unmarked → schema.StatementsAgree :=
  ⟨fun _ h => TableSchema.statementsAgree h, fun _ h => VoteSchema.statementsAgree h⟩

/-- Texts that are bound may look like placeholders, and a page may be as large as its number
allows. -/
theorem hostile_values_agree :
    let schema : TableSchema := ⟨"t", "r", "thing", "id, a", [⟨"a", .text⟩], ["a"]⟩
    let f := Filter.ofSettings [.equals "a" (.text "$1"), .between "b" (some (.int (some 7))) none,
      .equals "c" (.uuid none), .orderBy ["-a"], .pageSize 4294967295]
    schema.Unmarked ∧ (∀ e ∈ f.constraints.entries, Unmarked e.1) ∧
      ∃ s : Statement, Statement.ofFilter schema f = .ok s ∧
        Sql.placeholders s.sql.text = ["$1", "$2", "$3", "$4"] ∧
        s.sql.binds = [.ofId .zero, .value (.text "$1"), .value (.int (some 7)),
          .value (.int (some 4294967296))] := by
  intro schema f
  have hschema : schema.Unmarked := ⟨by decide, by decide, by decide, by decide⟩
  have hcolumns : ∀ e ∈ f.constraints.entries, Unmarked e.1 := by decide
  have hclause : f.orderByClause schema = .ok "ORDER BY a DESC, id ASC" := rfl
  have hpage := (placeholders_agree.1 schema hschema).page f hcolumns
  rw [hclause] at hpage
  obtain ⟨s, limit, hs, hlimit, hagrees⟩ := hpage
  obtain rfl : limit = 4294967296 := Int64.toInt_inj.1 hlimit
  exact ⟨hschema, hcolumns, s, hs, hagrees.placeholders, hagrees.binds⟩

end MessageBoard
