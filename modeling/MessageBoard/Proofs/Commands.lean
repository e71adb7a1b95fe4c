import Mathlib
import MessageBoard.Proofs.Clause
import MessageBoard.Proofs.Edits
import MessageBoard.Proofs.Predicate

/-!
# Commands

The text of a statement is read as a command: which rows it is about, by its condition, and what it
does with them. A list behind `SET` or `VALUES` gives columns and expressions, a clause behind
`ORDER BY` gives keys, and whatever was bound is looked up by its number.

Insertions, changes and deletions do to a table what their statements are taken to do, provided that
rows are kept under their own identifiers, as they are whatever is called (`Keeper.table_of_text`).
The page of a listing is what its command sends (`Table.selects_iff_sends`).
-/

namespace MessageBoard

/-! ## Expressions -/

/-- What a column is set to, as it stands in a text. -/
inductive Expression where
  | bound (number : Nat)
  | now
  | flag (b : Bool)
  | null

def Term.binds : Term → List Bind
  | .value v => [.value v]
  | _ => []

def Term.expression (k : Nat) : Term → Expression
  | .value _ => .bound k
  | .now => .now
  | .flag b => .flag b
  | .null => .null

/-- Terms for columns, in a text with their values numbered from `k`. -/
def expressions : (k : Nat) → List (String × Term) → List (String × Expression)
  | _, [] => []
  | k, (column, term) :: changes =>
    (column, term.expression k) :: expressions (k + term.binds.length) changes

namespace Expression

def text : Expression → String
  | bound number => "$" ++ toString number
  | now => "NOW()"
  | flag true => "TRUE"
  | flag false => "FALSE"
  | null => "NULL"

/-- What it stands for in the column. -/
def content? (ambient : Ambient) (binds : List Bind) (c : ColumnDeclaration) :
    Expression → Option Value
  | bound number =>
    match Sql.valueAt? binds number with
    | some (.value v) => some v.stored
    | _ => none
  | now => some (.instant (some ambient.now))
  | flag b => some (.flag (some b))
  | null => some c.type.null

end Expression

theorem Term.number_piece (k : Nat) (t : Term) :
    Sql.number k [t.piece] = (t.expression k).text := by
  cases t with
  | value v => exact String.append_empty
  | now => rfl
  | flag b => cases b <;> rfl
  | null => rfl

theorem Term.bindsOf_piece (t : Term) : Sql.bindsOf [t.piece] = t.binds := by
  cases t with
  | flag b => cases b <;> rfl
  | _ => rfl

theorem content?_expressions (ambient : Ambient) (c : ColumnDeclaration) (name : String)
    (changes : List (String × Term)) {k : Nat} (before after : List Bind)
    (hk : before.length + 1 = k) :
    ((expressions k changes).lookup name).bind
        (·.content? ambient (before ++ changes.flatMap (·.2.binds) ++ after) c) =
      (changes.lookup name).map (·.content ambient c) := by
  induction changes generalizing k before with
  | nil => rfl
  | cons change changes ih =>
    obtain ⟨column, term⟩ := change
    have hbinds : before ++ ((column, term) :: changes).flatMap (·.2.binds) ++ after =
        (before ++ term.binds) ++ changes.flatMap (·.2.binds) ++ after := by
      simp [List.flatMap_cons]
    have hrest := ih (before ++ term.binds) (k := k + term.binds.length) (by
      rw [List.length_append]
      omega)
    rw [hbinds, expressions, List.lookup_cons, List.lookup_cons]
    cases name == column with
    | false => exact hrest
    | true =>
      cases term with
      | value v =>
        have hv : Sql.valueAt? ((before ++ (Term.value v).binds) ++
            changes.flatMap (·.2.binds) ++ after) k = some (.value v) := by
          rw [Sql.valueAt?, if_neg (by omega), ← hk, Term.binds]
          simp
        simp only [Term.expression, Option.bind_some, Option.map_some, Expression.content?, hv,
          Term.content]
      | now => rfl
      | flag b => rfl
      | null => rfl

/-! ## Commands -/

def Where.replaced (collate : Collation) (binds : List Bind) (condition : Where)
    (f : Tuple → Option Tuple) (rows : Contents) : Contents := fun id =>
  (rows id).bind fun row => if condition.Selects collate binds row then f row else some row

/-- A command about one table. -/
inductive Sql.Command where
  | select (condition : Where) (clause : String) (limit : Nat)
  | insert (values : List (String × Expression))
  | update (changes : List (String × Expression)) (condition : Where)
  | delete (condition : Where)

namespace Sql.Command

def text (schema : TableSchema) : Command → String
  | select condition clause limit => .join ["SELECT ", schema.select, " FROM ", schema.table,
      " AS ", schema.row, " WHERE ", condition.text schema.row, " ", clause, " LIMIT ", "$",
      toString limit]
  | insert values => .join ["INSERT INTO ", schema.table, " AS ", schema.row, " (",
      ", ".intercalate (values.map (·.1)), ") VALUES (", ", ".intercalate (values.map (·.2.text)),
      ") RETURNING ", schema.select]
  | update changes condition => .join ["UPDATE ", schema.table, " AS ", schema.row, " SET ",
      ", ".intercalate (changes.map fun e => e.1 ++ " = " ++ e.2.text), " WHERE ",
      condition.text schema.row, " RETURNING ", schema.select]
  | delete condition => .join ["DELETE FROM ", schema.table, " AS ", schema.row, " WHERE ",
      condition.text schema.row, " RETURNING ", schema.select]

section Effect

variable (ambient : Ambient) (collate : Collation) (t : TableDeclaration) (binds : List Bind)

/-- What a list of columns and expressions sets a column of the table to. -/
def set? (values : List (String × Expression)) (name : String) : Option Value :=
  (t.column? name).bind fun c => (values.lookup name).bind (·.content? ambient binds c)

def inserted (values : List (String × Expression)) : Tuple := fun name =>
  (set? ambient t binds values name).or ((t.column? name).map (·.initial ambient))

def updated (changes : List (String × Expression)) (row : Tuple) : Tuple := fun name =>
  (set? ambient t binds changes name).or (row name)

/-- What the command makes of the rows of the table. A new row is kept under what it has for an
identifier. -/
def effect : Command → Contents → Contents
  | select _ _ _, rows => rows
  | insert values, rows =>
    match inserted ambient t binds values "id" with
    | some (.uuid (some id)) => Function.update rows id (some (inserted ambient t binds values))
    | _ => rows
  | update changes condition, rows =>
    condition.replaced collate binds (some ∘ updated ambient t binds changes) rows
  | delete condition, rows => condition.replaced collate binds (fun _ => none) rows

end Effect

/-- The command sends these records of all rows: those that its condition selects, in an order that
its clause allows, as many as the bound limit lets through. -/
def Sends {α : Type} (collate : Collation) (binds : List Bind) (value? : α → Tuple)
    (rows records : List α) : Command → Prop
  | select condition clause limit => ∃ (keys : List SortKey) (n : Int64) (found : List α),
    clauseKeys? clause = some keys ∧ Sql.valueAt? binds limit = some (.value (.int (some n))) ∧
    found.Perm (rows.filter fun a => condition.Selects collate binds (value? a)) ∧
    found.Pairwise (fun a b => compareBy collate keys (value? a) (value? b) ≠ .gt) ∧
    records = found.take n.toInt.toNat
  | _ => False

end Sql.Command

/-! ## The commands of statements -/

def Where.row (number : Nat) : Where := [.compare "id" .equal number]

namespace Statement

def insertedTerms (id : Uuid) (values : List (String × Value)) : List (String × Term) :=
  (("id", .uuid (some id)) :: values).map fun e => (e.1, .value e.2)

/-- The command in the text of a statement about one of the tables of records. -/
def command? : Statement → Option (TableSchema × Sql.Command)
  | page schema _ tests order _ =>
    let condition := conjuncts 2 tests
    some (schema, .select (.above "id" 1 :: condition) (orderByText order)
      ((condition.filterMap Conjunct.number?).length + 2))
  | insert schema id values => some (schema, .insert (expressions 1 (insertedTerms id values)))
  | update schema _ changes =>
    some (schema, .update (expressions 1 changes)
      (.row (1 + (changes.flatMap (·.2.binds)).length)))
  | delete schema _ => some (schema, .delete (.row 1))
  | _ => none

end Statement

section Text

variable (k : Nat) (changes : List (String × Term))

/-- The texts of parts whose values are numbered on from one part to the next. -/
def Sql.numbered : (k : Nat) → List (List Piece) → List String
  | _, [] => []
  | k, part :: parts => Sql.number k part :: numbered (k + (Sql.bindsOf part).length) parts

theorem Sql.number_join (parts : List (List Piece)) :
    Sql.number k (Piece.join ", " parts) = ", ".intercalate (Sql.numbered k parts) := by
  induction parts generalizing k with
  | nil => rfl
  | cons part parts ih =>
    cases parts with
    | nil => rw [Piece.join, numbered, numbered, String.intercalate_singleton]
    | cons next parts =>
      have hjoin : Piece.join ", " (part :: next :: parts) =
          part ++ .text ", " :: Piece.join ", " (next :: parts) := rfl
      rw [hjoin, Sql.number_append, Sql.number, ih]
      simp only [numbered, String.intercalate_cons_cons, String.append_assoc]

theorem numbered_terms {f : String × Term → List Piece} {text : String × Expression → String}
    (hbinds : ∀ e, Sql.bindsOf (f e) = e.2.binds)
    (htext : ∀ k e, Sql.number k (f e) = text (e.1, e.2.expression k)) :
    Sql.numbered k (changes.map f) = (expressions k changes).map text := by
  induction changes generalizing k with
  | nil => rfl
  | cons change changes ih =>
    rw [List.map_cons, Sql.numbered, ih, hbinds, htext, expressions, List.map_cons]

theorem numbered_assignments :
    Sql.numbered k (changes.map fun (column, t) => [.text s!"{column} = ", t.piece]) =
      (expressions k changes).map fun e => e.1 ++ " = " ++ e.2.text := by
  refine numbered_terms k changes (fun e => e.2.bindsOf_piece) fun k e => ?_
  rw [Sql.number, e.2.number_piece]
  rfl

theorem numbered_values :
    Sql.numbered k (changes.map fun e => [e.2.piece]) = (expressions k changes).map (·.2.text) :=
  numbered_terms k changes (fun e => e.2.bindsOf_piece) fun k e => e.2.number_piece k

theorem columns_expressions : (expressions k changes).map (·.1) = changes.map (·.1) := by
  induction changes generalizing k with
  | nil => rfl
  | cons change changes ih => rw [expressions, List.map_cons, List.map_cons, ih]

theorem bindsOf_terms {f : String × Term → List Piece}
    (hbinds : ∀ e, Sql.bindsOf (f e) = e.2.binds) :
    Sql.bindsOf (Piece.join ", " (changes.map f)) = changes.flatMap (·.2.binds) := by
  rw [Sql.bindsOf_join, List.flatMap_map]
  exact List.flatMap_congr fun e _ => hbinds e

theorem bindsOf_assignments :
    Sql.bindsOf (Piece.join ", "
        (changes.map fun (column, t) => [.text s!"{column} = ", t.piece])) =
      changes.flatMap (·.2.binds) :=
  bindsOf_terms changes fun e => e.2.bindsOf_piece

theorem bindsOf_insertedValues : Sql.bindsOf (Piece.join ", " (changes.map fun e => [e.2.piece])) =
    changes.flatMap (·.2.binds) :=
  bindsOf_terms changes fun e => e.2.bindsOf_piece

end Text

namespace Statement

variable (schema : TableSchema) (id : Uuid)

theorem pieces_insert (values : List (String × Value)) : (insert schema id values).pieces =
    .text s!"INSERT INTO {schema.table} AS {schema.row} (" ::
      .text (", ".intercalate ((insertedTerms id values).map (·.1))) :: .text ") VALUES (" ::
      Piece.join ", " ((insertedTerms id values).map fun e => [e.2.piece]) ++
      [.text s!") RETURNING {schema.select}"] := by
  rw [insertedTerms, List.map_map, List.map_map]
  rfl

theorem sql_insert (values : List (String × Value)) : (insert schema id values).sql =
    ⟨(Sql.Command.insert (expressions 1 (insertedTerms id values))).text schema,
      (insertedTerms id values).flatMap (·.2.binds)⟩ := by
  rw [sql, pieces_insert, Sql.ofPieces, Sql.mk.injEq]
  constructor
  · simp only [List.cons_append, Sql.number, Sql.number_append, Sql.number_join, numbered_values,
      Sql.Command.text, columns_expressions, String.join_cons, String.join_nil, toString,
      String.append_assoc, String.append_empty]
  · simp only [List.cons_append, Sql.bindsOf, Sql.bindsOf_append, bindsOf_insertedValues,
      List.append_nil]

theorem number_returningPieces (k : Nat) : Sql.number k (returningPieces schema id) =
    " WHERE " ++ (Where.row k).text schema.row ++ " RETURNING " ++ schema.select := by
  have hid : ".id = " = "." ++ ("id" ++ " = ") := rfl
  simp only [returningPieces, Sql.number, idPiece, Where.row, Where.text, Conjunct.text,
    Comparison.text, List.map_cons, List.map_nil, String.intercalate_singleton, hid, toString,
    String.append_assoc, String.append_empty, -String.reduceAppend]

theorem sql_update (changes : List (String × Term)) : (update schema id changes).sql =
    ⟨(Sql.Command.update (expressions 1 changes)
        (.row (1 + (changes.flatMap (·.2.binds)).length))).text schema,
      changes.flatMap (·.2.binds) ++ [.ofId id]⟩ := by
  rw [sql, pieces, Sql.ofPieces, Sql.mk.injEq]
  constructor
  · rw [List.cons_append, Sql.number, Sql.number_append, Sql.number_join, numbered_assignments,
      bindsOf_assignments, number_returningPieces]
    simp only [Sql.Command.text, String.join_cons, String.join_nil, toString,
      String.append_assoc, String.append_empty]
  · rw [List.cons_append, Sql.bindsOf, Sql.bindsOf_append, bindsOf_assignments]
    rfl

theorem sql_delete : (delete schema id).sql =
    ⟨(Sql.Command.delete (.row 1)).text schema, [.ofId id]⟩ := by
  rw [sql, pieces, Sql.ofPieces, Sql.mk.injEq]
  constructor
  · rw [Sql.number, number_returningPieces]
    simp only [Sql.Command.text, String.join_cons, String.join_nil, toString,
      String.append_assoc, String.append_empty]
  · rfl

theorem text_of_command {s : Statement} {schema : TableSchema} {c : Sql.Command}
    (h : s.command? = some (schema, c)) : s.sql.text = c.text schema := by
  cases s with
  | page schema' after tests order limit =>
    obtain ⟨rfl, rfl⟩ := Prod.mk.inj (Option.some.inj h)
    have hnumber : (Sql.bindsOf (tests.flatMap (·.pieces schema'.row))).length =
        ((conjuncts 2 tests).filterMap Conjunct.number?).length := by
      rw [numbers_conjuncts tests 2 schema'.row, List.length_range']
    rw [sql_page, hnumber]
    simp only [Sql.Command.text, String.join_cons, String.join_nil, toString,
      String.append_assoc, String.append_empty]
  | insert schema' id values =>
    obtain ⟨rfl, rfl⟩ := Prod.mk.inj (Option.some.inj h)
    exact congrArg Sql.text (sql_insert schema' id values)
  | update schema' id changes =>
    obtain ⟨rfl, rfl⟩ := Prod.mk.inj (Option.some.inj h)
    exact congrArg Sql.text (sql_update schema' id changes)
  | delete schema' id =>
    obtain ⟨rfl, rfl⟩ := Prod.mk.inj (Option.some.inj h)
    exact congrArg Sql.text (sql_delete schema' id)
  | _ => cases h

end Statement

/-! ## What commands do -/

/-- Rows are kept under their own identifiers. -/
def Contents.Keyed (rows : Contents) : Prop :=
  ∀ id row, rows id = some row → row "id" = some (.uuid (some id))

section Effect

variable {ambient : Ambient} {collate : Collation} {t : TableDeclaration} {binds : List Bind}

theorem Where.selects_row_iff {number : Nat} {id : Uuid}
    (hnumber : Sql.valueAt? binds number = some (.ofId id)) {key : Uuid} {row : Tuple}
    (hrow : row "id" = some (.uuid (some key))) :
    (Where.row number).Selects collate binds row ↔ key = id := by
  have horder : Conjunct.order? collate binds row "id" number =
      some (compare key.rank id.rank) := by
    rw [Conjunct.order?, hnumber, hrow]
    rfl
  rw [selects_iff, Where.row, List.map_singleton, List.forall_mem_singleton, Conjunct.truth?,
    horder, Option.map_some, Option.some.injEq, ← Uuid.rank_inj, ← Nat.compare_eq_eq]
  exact Ordering.isEq_iff_eq_eq

theorem Where.replaced_row {number : Nat} {id : Uuid}
    (hnumber : Sql.valueAt? binds number = some (.ofId id)) {rows : Contents}
    (hrows : rows.Keyed) (f : Tuple → Option Tuple) :
    (Where.row number).replaced collate binds f rows =
      Function.update rows id ((rows id).bind f) := by
  funext key
  rw [replaced]
  by_cases hkey : key = id
  · subst hkey
    rw [Function.update_self]
    refine Option.bind_congr fun row hrow => ?_
    exact if_pos ((selects_row_iff hnumber (hrows _ row hrow)).2 rfl)
  · rw [Function.update_of_ne hkey]
    refine (Option.bind_congr fun row hrow => ?_).trans (Option.bind_fun_some (rows key))
    exact if_neg (mt (selects_row_iff hnumber (hrows _ row hrow)).1 hkey)

namespace Sql.Command

variable (changes : List (String × Term)) (after : List Bind)

theorem set?_expressions (name : String) :
    set? ambient t (changes.flatMap (·.2.binds) ++ after) (expressions 1 changes) name =
      (t.column? name).bind fun c => (changes.lookup name).map (·.content ambient c) := by
  rw [set?]
  congr 1
  funext c
  exact content?_expressions ambient c name changes [] after rfl

theorem updated_expressions (row : Tuple) :
    updated ambient t (changes.flatMap (·.2.binds) ++ after) (expressions 1 changes) row =
      t.updated ambient changes row := by
  funext name
  rw [updated, set?_expressions, TableDeclaration.updated]
  cases t.column? name with
  | none => rfl
  | some c => cases changes.lookup name <;> rfl

theorem inserted_expressions (id : Uuid) (values : List (String × Value)) :
    inserted ambient t ((Statement.insertedTerms id values).flatMap (·.2.binds))
        (expressions 1 (Statement.insertedTerms id values)) =
      t.inserted ambient (("id", .uuid (some id)) :: values) := by
  funext name
  have hset := @set?_expressions ambient t (Statement.insertedTerms id values) [] name
  rw [List.append_nil, Statement.insertedTerms, lookup_terms] at hset
  rw [inserted, Statement.insertedTerms, hset, TableDeclaration.inserted]
  cases t.column? name with
  | none => rfl
  | some c =>
    cases (("id", .uuid (some id)) :: values : List (String × Value)).lookup name <;> rfl

theorem effect_insert (id : Uuid) (values : List (String × Value)) (hid : (t.column? "id").isSome)
    (rows : Contents) :
    (insert (expressions 1 (Statement.insertedTerms id values))).effect ambient collate t
        ((Statement.insertedTerms id values).flatMap (·.2.binds)) rows =
      Function.update rows id (some (t.inserted ambient (("id", .uuid (some id)) :: values))) := by
  obtain ⟨c, hc⟩ := Option.isSome_iff_exists.1 hid
  have hkey : t.inserted ambient (("id", .uuid (some id)) :: values) "id" =
      some (.uuid (some id)) := by
    rw [TableDeclaration.inserted_of_lookup_some hc (List.lookup_cons_self ..)]
    rfl
  simp only [effect, inserted_expressions, hkey]

/-- Insertions, changes and deletions do what their commands say to a table of keyed rows. -/
theorem effect_of_command {s : Statement} {schema : TableSchema} {c : Sql.Command}
    (h : s.command? = some (schema, c)) (hid : (t.column? "id").isSome) {rows : Contents}
    (hrows : rows.Keyed) : s.effect ambient t rows =
      if schema.table = t.name then c.effect ambient collate t s.sql.binds rows else rows := by
  cases s with
  | page schema' after tests order limit =>
    obtain ⟨rfl, rfl⟩ := Prod.mk.inj (Option.some.inj h)
    exact (ite_self rows).symm
  | insert schema' id values =>
    obtain ⟨rfl, rfl⟩ := Prod.mk.inj (Option.some.inj h)
    rw [Statement.effect, Statement.sql_insert, effect_insert id values hid]
  | update schema' id changes =>
    obtain ⟨rfl, rfl⟩ := Prod.mk.inj (Option.some.inj h)
    have hnumber : Sql.valueAt? (changes.flatMap (·.2.binds) ++ [.ofId id])
        (1 + (changes.flatMap (·.2.binds)).length) = some (.ofId id) := by
      rw [Sql.valueAt?, if_neg (by omega)]
      simp
    rw [Statement.effect, Statement.sql_update, effect, Where.replaced_row hnumber hrows]
    simp only [Function.comp_def, updated_expressions, Option.map_eq_bind]
  | delete schema' id =>
    obtain ⟨rfl, rfl⟩ := Prod.mk.inj (Option.some.inj h)
    have hnumber : Sql.valueAt? [.ofId id] 1 = some (.ofId id) := rfl
    rw [Statement.effect, Statement.sql_delete, effect, Where.replaced_row hnumber hrows,
      Option.bind_fun_none]
  | _ => cases h

end Sql.Command

end Effect

/-- Whatever was called before, a call that succeeds does to the table what its text says. -/
theorem Keeper.table_of_text {σ : Type} {r : Resource} {store : Store σ}
    (k : Keeper r.declaration store) (limit : Option Duration) (collate : Collation)
    (before : List Call) {s : σ} (hs : k.Sound s) {c : Call} {p : Plan c.Result}
    (hp : c.plan = .ok p) {schema : TableSchema} {command : Sql.Command}
    (hcommand : p.statement.command? = some (schema, command)) :
    let s' := Call.after limit store before s
    p.statement.sql.text = command.text schema ∧
      (((c.run limit).run store s').succeeded = true → k.table ((c.run limit).run store s').state =
        if schema.table = r.declaration.name then
          command.effect (k.next s') collate r.declaration p.statement.sql.binds (k.table s')
        else k.table s') := by
  intro s'
  refine ⟨Statement.text_of_command hcommand, fun h => ?_⟩
  have hkeyed : (k.table s').Keyed := fun id row hrow =>
    (k.sound_after limit before hs id row hrow).id
  have hid : (r.declaration.column? "id").isSome := by
    rw [r.column?_reserved.1]
    rfl
  obtain ⟨q, hq, htable⟩ := k.table_of_succeeded limit h
  obtain rfl := Except.ok.inj (hp.symm.trans hq)
  rw [htable, Sql.Command.effect_of_command hcommand hid hkeyed]

/-- What is selected from a table as a page is what the command of the page sends. -/
theorem Table.selects_iff_sends {r : Resource} {t : Table r} {collate : Collation} {after : Uuid}
    {tests : List Test} {order : List SortKey} {limit : Int64} {records : List r.Record}
    (hcomma : ∀ key ∈ order, ',' ∉ key.column.toList) {schema : TableSchema} {c : Sql.Command}
    (h : (Statement.page r.schema after tests order limit).command? = some (schema, c)) :
    t.Selects collate after tests order limit records ↔
      c.Sends collate (Statement.page r.schema after tests order limit).sql.binds r.value? t.rows
        records := by
  obtain ⟨rfl, rfl⟩ := Prod.mk.inj (Option.some.inj h)
  obtain ⟨before, hkeys, hbefore⟩ := exists_clauseKeys? order
  obtain rfl := hbefore hcomma
  rw [Statement.sql_page]
  have hlimit : Sql.valueAt? (.ofId after :: Sql.bindsOf (tests.flatMap (·.pieces r.schema.row)) ++
      [.value (.int (some limit))]) (((conjuncts 2 tests).filterMap Conjunct.number?).length + 2) =
      some (.value (.int (some limit))) := by
    rw [numbers_conjuncts tests 2 r.schema.row, List.length_range', Sql.valueAt?, if_neg (by omega)]
    simp
  have hrows : (t.matching collate tests).filter (fun a => after < r.id a) =
      t.rows.filter fun a => Where.Selects collate
        (.ofId after :: Sql.bindsOf (tests.flatMap (·.pieces r.schema.row)) ++
          [.value (.int (some limit))]) (r.value? a) (.above "id" 1 :: conjuncts 2 tests) := by
    rw [Table.matching, List.filter_filter]
    refine List.filter_congr fun a _ => ?_
    rw [Bool.eq_iff_iff, Bool.and_eq_true, decide_eq_true_eq, decide_eq_true_eq,
      selects_above_iff (r.value?_id a), List.all_eq_true, and_comm]
    simp only [decide_eq_true_eq]
  rw [Table.Selects, Sql.Command.Sends, hrows]
  constructor
  · rintro ⟨found, hperm, hsorted, hrecords⟩
    exact ⟨_, limit, found, hkeys, hlimit, hperm, hsorted, hrecords⟩
  · rintro ⟨keys, n, found, hkeys', hlimit', hperm, hsorted, hrecords⟩
    obtain rfl := Option.some.inj (hkeys.symm.trans hkeys')
    obtain rfl : limit = n := by
      rw [hlimit, Option.some.injEq] at hlimit'
      cases hlimit'
      rfl
    exact ⟨found, hperm, hsorted, hrecords⟩

end MessageBoard
