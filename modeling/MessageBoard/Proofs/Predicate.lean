import Mathlib
import MessageBoard.Proofs.Comparison
import MessageBoard.Proofs.Faults
import MessageBoard.Proofs.Placeholders

/-!
# What listings and counts select

The condition of a statement is read as the store reads it: its parts are joined by `AND`, a value
is looked up by its number, and a row is selected if the condition is known to be true of it. The
condition of a listing is its cursor and then that of the count, with all numbers one higher, and
what it asks of a row is what the filter says.
-/

namespace MessageBoard

open Std

/-! ## Conditions of statements -/

/-- A part of a condition. A value is given by the number of its placeholder. -/
inductive Conjunct where
  | always
  | isNull (column : String)
  | compare (column : String) (comparison : Comparison) (number : Nat)
  | above (column : String) (number : Nat)
  deriving DecidableEq

namespace Conjunct

def text (row : String) : Conjunct → String
  | always => "TRUE"
  | isNull column => s!"{row}.{column} IS NULL"
  | compare column comparison number =>
    s!"{row}.{column}" ++ comparison.text ++ "$" ++ toString number
  | above column number => s!"{row}.{column} > " ++ "$" ++ toString number

def number? : Conjunct → Option Nat
  | always => none
  | isNull _ => none
  | compare _ _ number => some number
  | above _ number => some number

/-- The same with its value at the next number. -/
def raised : Conjunct → Conjunct
  | always => always
  | isNull column => isNull column
  | compare column comparison number => compare column comparison (number + 1)
  | above column number => above column (number + 1)

variable (collate : Collation) (binds : List Bind) (value? : String → Option Value)

/-- How a column compares with the value of this number, unless one of the two is null. -/
def order? (column : String) (number : Nat) : Option Ordering :=
  match Sql.valueAt? binds number with
  | some (.value w) => (value? column).bind (·.collated collate w.stored)
  | _ => none

def truth? : Conjunct → Option Bool
  | always => some true
  | isNull column => (value? column).map Value.isNull
  | compare column comparison number =>
    (order? collate binds value? column number).map comparison.accepts
  | above column number => (order? collate binds value? column number).map Ordering.isGT

end Conjunct

/-- What `AND` makes of two truths that need not be known. -/
def both : Option Bool → Option Bool → Option Bool
  | some false, _ => some false
  | _, some false => some false
  | some true, some true => some true
  | _, _ => none

theorem both_eq_true_iff {a b : Option Bool} :
    both a b = some true ↔ a = some true ∧ b = some true := by
  rcases a with _ | _ | _ <;> rcases b with _ | _ | _ <;> decide

/-- The condition of a statement, the parts of which are joined by `AND`. -/
abbrev Where := List Conjunct

namespace Where

def text (row : String) (condition : Where) : String :=
  " AND ".intercalate (condition.map (Conjunct.text row))

variable (collate : Collation) (binds : List Bind) (value? : String → Option Value)

def truth? (condition : Where) : Option Bool :=
  (condition.map (Conjunct.truth? collate binds value?)).foldr both (some true)

/-- The condition is known to be true of the row. -/
def Selects (condition : Where) : Prop := condition.truth? collate binds value? = some true

instance (condition : Where) : Decidable (condition.Selects collate binds value?) :=
  inferInstanceAs (Decidable (_ = _))

variable {collate binds value?}

theorem selects_iff {condition : Where} : condition.Selects collate binds value? ↔
    ∀ truth ∈ condition.map (Conjunct.truth? collate binds value?), truth = some true := by
  rw [Selects, truth?]
  induction condition with
  | nil => simp
  | cons c rest ih =>
    rw [List.map_cons, List.foldr_cons, both_eq_true_iff, List.forall_mem_cons, ih]

/-- Nothing is known of how a null compares. -/
example : ¬ Selects compare [.value (.int (some 1))] (fun _ => some (.int none))
    [.always, .compare "score" .atLeast 1] := by decide

theorem text_cons (row : String) (c : Conjunct) (rest : Where) :
    text row (c :: rest) = c.text row ++ String.join (rest.map fun c => " AND " ++ c.text row) := by
  rw [text, List.map_cons]
  induction rest generalizing c with
  | nil => simp
  | cons d rest ih =>
    rw [List.map_cons, String.intercalate_cons_cons, ih, List.map_cons, String.join_cons,
      String.append_assoc, String.append_assoc]

end Where

/-! ## The condition that a filter makes -/

/-- The parts of a condition that the tests make, with their values numbered from `k`. -/
def conjuncts : (k : Nat) → List Test → Where
  | _, [] => []
  | k, .isNull column :: tests => .isNull column :: conjuncts k tests
  | k, .compare column comparison _ :: tests =>
    .compare column comparison k :: conjuncts (k + 1) tests

def Filter.predicate (f : Filter) : Where := conjuncts 1 f.tests

section Conjuncts

variable (tests : List Test) (k : Nat) (row : String)

theorem number_tests : Sql.number k (tests.flatMap (·.pieces row)) =
    String.join ((conjuncts k tests).map fun c => " AND " ++ c.text row) := by
  induction tests generalizing k with
  | nil => rfl
  | cons test tests ih =>
    rw [List.flatMap_cons, Sql.number_append, ih]
    cases test with
    | isNull column =>
      have hfirst : Sql.number k ((Test.isNull column).pieces row) =
          " AND " ++ (Conjunct.isNull column).text row := by
        simp [Test.pieces, Sql.number, Conjunct.text, toString, String.append_assoc]
      rw [hfirst, conjuncts, List.map_cons, String.join_cons]
      rfl
    | compare column comparison v =>
      have hfirst : Sql.number k ((Test.compare column comparison v).pieces row) =
          " AND " ++ (Conjunct.compare column comparison k).text row := by
        simp [Test.pieces, Value.piece, Sql.number, Conjunct.text, toString,
          String.append_assoc]
      rw [hfirst, conjuncts, List.map_cons, String.join_cons]
      rfl

theorem conjuncts_succ : conjuncts (k + 1) tests = (conjuncts k tests).map Conjunct.raised := by
  induction tests generalizing k with
  | nil => rfl
  | cons test tests ih =>
    cases test with
    | isNull column => rw [conjuncts, conjuncts, ih, List.map_cons]; rfl
    | compare column comparison v => rw [conjuncts, conjuncts, ih, List.map_cons]; rfl

theorem numbers_conjuncts : (conjuncts k tests).filterMap Conjunct.number? =
    List.range' k (Sql.bindsOf (tests.flatMap (·.pieces row))).length := by
  induction tests generalizing k with
  | nil => rfl
  | cons test tests ih =>
    cases test with
    | isNull column => exact ih k
    | compare column comparison v => exact congrArg (k :: ·) (ih (k + 1))

variable {k}

/-- With their values in their places, the parts are true where the tests are. -/
theorem truths_conjuncts (collate : Collation) (value? : String → Option Value)
    (before after : List Bind) (hk : before.length + 1 = k) :
    (conjuncts k tests).map (Conjunct.truth? collate
        (before ++ Sql.bindsOf (tests.flatMap (·.pieces row)) ++ after) value?) =
      tests.map (Test.truth? collate value?) := by
  induction tests generalizing k before with
  | nil => rfl
  | cons test tests ih =>
    cases test with
    | isNull column => exact congrArg ((value? column).map Value.isNull :: ·) (ih before hk)
    | compare column comparison v =>
      -- its value joins those before it, which keeps the numbers of the others in step
      have hbinds : before ++ Sql.bindsOf ((Test.compare column comparison v :: tests).flatMap
          (·.pieces row)) ++ after =
          (before ++ [.value v]) ++ Sql.bindsOf (tests.flatMap (·.pieces row)) ++ after := by
        simp [Test.pieces, Value.piece, Sql.bindsOf]
      have hv : Sql.valueAt? ((before ++ [.value v]) ++
          Sql.bindsOf (tests.flatMap (·.pieces row)) ++ after) k = some (.value v) := by
        rw [Sql.valueAt?, if_neg (by omega), ← hk]
        simp
      rw [hbinds, conjuncts, List.map_cons, ih _ (by simpa using hk), List.map_cons]
      simp only [Conjunct.truth?, Conjunct.order?, hv, Test.truth?]

end Conjuncts

/-! ## What a filter says of a row -/

/-- What a constraint says of the value in its column. A null end of a range is not above or below
anything, so it lets nothing through. -/
def Constraint.Holds (collate : Collation) (v : Value) : Constraint → Prop
  | .equals w =>
    if w.isNull then v.isNull = true else v.collated collate w.stored = some .eq
  | .between lower upper => v.isNull = false ∧
    (∀ w ∈ lower, w.isNull = false ∧ v.collated collate w.stored ≠ some .lt) ∧
    (∀ w ∈ upper, w.isNull = false ∧ v.collated collate w.stored ≠ some .gt)

def Filter.Matches (collate : Collation) (f : Filter) (value? : String → Option Value) : Prop :=
  ∀ e ∈ f.constraints.entries, ∃ v ∈ value? e.1, e.2.Holds collate v

/-- Every column that can be filtered by has a value of its type. -/
def TableSchema.Types (schema : TableSchema) (value? : String → Option Value) : Prop :=
  ∀ column expected, schema.column? column = some expected →
    ∃ v, value? column = some v ∧ v.type = expected

variable {collate : Collation}

theorem Value.any_collated_iff {v w : Value} (ht : v.type = w.type) {accepts : Ordering → Bool}
    {bad : Ordering} (ha : ∀ o, accepts o = true ↔ o ≠ bad) :
    (v.collated collate w.stored).any accepts = true ↔
      v.isNull = false ∧ w.isNull = false ∧ v.collated collate w.stored ≠ some bad := by
  have hsome : (v.collated collate w.stored).isSome ↔
      v.type = w.type ∧ v.isNull = false ∧ w.isNull = false := by
    rw [isSome_collated_iff, type_stored, isNull_stored]
  cases ho : v.collated collate w.stored with
  | none =>
    rw [ho] at hsome
    refine iff_of_false Bool.false_ne_true fun h => ?_
    exact absurd (hsome.2 ⟨ht, h.1, h.2.1⟩) Bool.false_ne_true
  | some o =>
    rw [ho] at hsome
    obtain ⟨-, hv, hw⟩ := hsome.1 rfl
    rw [Option.any_some, ha, ne_eq, ne_eq, Option.some.injEq]
    exact ⟨fun h => ⟨hv, hw, h⟩, fun h => h.2.2⟩

theorem Constraint.admits_iff_holds {c : Constraint} {v : Value} (hb : c ≠ .between none none)
    (ht : ∀ w ∈ c.operands, v.type = w.type) :
    c.Admits collate (some v) ↔ c.Holds collate v := by
  cases c with
  | equals w =>
    rw [Admits, Holds, Option.map_some, Option.bind_some, Option.some.injEq]
  | between lower upper =>
    have hge (o : Ordering) : o.isGE = true ↔ o ≠ .lt := by cases o <;> decide
    have hle (o : Ordering) : o.isLE = true ↔ o ≠ .gt := by cases o <;> decide
    have hlower : ∀ w ∈ lower, v.type = w.type := fun w hw =>
      ht w (List.mem_append_left _ (Option.mem_toList.2 hw))
    have hupper : ∀ w ∈ upper, v.type = w.type := fun w hw =>
      ht w (List.mem_append_right _ (Option.mem_toList.2 hw))
    simp only [Admits, Holds, Option.bind_some]
    cases lower with
    | none =>
      cases upper with
      | none => exact absurd rfl hb
      | some b => simp [Value.any_collated_iff (hupper b rfl) hle]
    | some a =>
      cases upper with
      | none => simp [Value.any_collated_iff (hlower a rfl) hge]
      | some b =>
        simp only [Option.all_some, Option.mem_some_iff, forall_eq',
          Value.any_collated_iff (hlower a rfl) hge, Value.any_collated_iff (hupper b rfl) hle]
        constructor
        · rintro ⟨⟨hv, ha⟩, -, hb⟩
          exact ⟨hv, ha, hb⟩
        · rintro ⟨hv, ha, hb⟩
          exact ⟨⟨hv, ha⟩, hv, hb⟩

theorem Filter.IsWellFormed.admits_iff_matches {schema : TableSchema} {f : Filter}
    (hf : f.IsWellFormed schema) {value? : String → Option Value} (hrow : schema.Types value?) :
    f.Admits collate value? ↔ f.Matches collate value? := by
  refine forall₂_congr fun e he => ?_
  obtain ⟨expected, hcolumn, htypes⟩ := hf.typed e he
  obtain ⟨v, hv, hexpected⟩ := hrow e.1 expected hcolumn
  have hiff : e.2.Admits collate (some v) ↔ e.2.Holds collate v :=
    Constraint.admits_iff_holds (hf.bounded e he) fun w hw => hexpected.trans (htypes w hw).symm
  rw [hv, hiff]
  simp only [Option.mem_some_iff, exists_eq_left']

theorem Constraint.holds_equals_iff [LawfulEqCmp collate] {v w : Value} (hw : w.isNull = false) :
    (equals w).Holds collate v ↔ v = w.stored := by
  rw [Holds, if_neg (by simp [hw]), Value.collated_eq_some_eq_iff]
  refine and_iff_left_of_imp fun h => ?_
  rw [h, Value.isNull_stored, hw]

instance (v : Value) : (c : Constraint) → Decidable (c.Holds collate v)
  | .equals w => inferInstanceAs
    (Decidable (if w.isNull then v.isNull = true else v.collated collate w.stored = some .eq))
  | .between lower upper => inferInstanceAs (Decidable (v.isNull = false ∧
    (∀ w ∈ lower, w.isNull = false ∧ v.collated collate w.stored ≠ some .lt) ∧
    ∀ w ∈ upper, w.isNull = false ∧ v.collated collate w.stored ≠ some .gt))

instance (f : Filter) (value? : String → Option Value) : Decidable (f.Matches collate value?) :=
  inferInstanceAs (Decidable (∀ e ∈ f.constraints.entries, ∃ v ∈ value? e.1, e.2.Holds collate v))

theorem Resource.types_value? (r : Resource) (a : r.Record) : r.schema.Types (r.value? a) := by
  have hall : ∀ c ∈ r.schema.filterable, (r.value? a c.name).map Value.type = some c.type := by
    cases r <;> simp only [schema, User.schema, Forum.schema, Thread.schema, Post.schema,
      Stamps.columns, List.cons_append, List.nil_append, List.forall_mem_cons, List.not_mem_nil,
      false_implies, implies_true, and_true] <;> and_intros <;> rfl
  intro column expected hcolumn
  obtain ⟨c, hfind, rfl⟩ := Option.map_eq_some_iff.1 hcolumn
  obtain ⟨v, hv, htype⟩ := Option.map_eq_some_iff.1 (hall c (List.mem_of_find?_eq_some hfind))
  have hname : c.name = column := by simpa using List.find?_some hfind
  exact ⟨v, hname ▸ hv, htype⟩

/-! ## The statements of a listing and of its count -/

theorem Statement.sql_page (schema : TableSchema) (after : Uuid) (tests : List Test)
    (order : List SortKey) (limit : Int64) : (page schema after tests order limit).sql =
    ⟨s!"SELECT {schema.select} FROM {schema.table} AS {schema.row} WHERE " ++
      Where.text schema.row (.above "id" 1 :: conjuncts 2 tests) ++ " " ++ orderByText order ++
      " LIMIT " ++ "$" ++
      toString ((Sql.bindsOf (tests.flatMap (·.pieces schema.row))).length + 2),
      .ofId after :: Sql.bindsOf (tests.flatMap (·.pieces schema.row)) ++
        [.value (.int (some limit))]⟩ := by
  rw [sql, Sql.ofPieces, Sql.mk.injEq, pieces]
  constructor
  · have hid : ".id" = "." ++ "id" := rfl
    have hnumber : 1 + 1 + (Sql.bindsOf (tests.flatMap (·.pieces schema.row))).length =
        (Sql.bindsOf (tests.flatMap (·.pieces schema.row))).length + 2 := by omega
    rw [Where.text_cons, ← number_tests]
    simp [Sql.number, Sql.number_append, idPiece, selectText, Conjunct.text, hid, hnumber,
      toString, String.append_assoc, -String.reduceAppend]
  · simp [Sql.bindsOf, Sql.bindsOf_append, idPiece, Bind.ofId]

/-- The condition of a listing asks for what the tests ask for, and for a place after the cursor. -/
theorem selects_above_iff {tests : List Test} {row : String} {after id : Uuid} {limit : Bind}
    {value? : String → Option Value} (hid : value? "id" = some (.uuid (some id))) :
    Where.Selects collate
        (.ofId after :: Sql.bindsOf (tests.flatMap (·.pieces row)) ++ [limit]) value?
        (.above "id" 1 :: conjuncts 2 tests) ↔
      (∀ test ∈ tests, test.truth? collate value? = some true) ∧ after < id := by
  have htruths := truths_conjuncts tests row collate value? [.ofId after] [limit] (rfl : _ = 2)
  rw [List.singleton_append] at htruths
  have hcursor : Conjunct.truth? collate
      (.ofId after :: Sql.bindsOf (tests.flatMap (·.pieces row)) ++ [limit]) value?
      (.above "id" 1) = some true ↔ after < id := by
    have horder : Conjunct.order? collate
        (.ofId after :: Sql.bindsOf (tests.flatMap (·.pieces row)) ++ [limit]) value? "id" 1 =
        some (compare id.rank after.rank) := by
      rw [Conjunct.order?, hid]
      rfl
    rw [Conjunct.truth?, horder, Option.map_some, Option.some.injEq, Ordering.isGT_iff_eq_gt,
      Nat.compare_eq_gt, Uuid.lt_iff_rank]
  rw [Where.selects_iff, List.map_cons, List.forall_mem_cons, hcursor, htruths,
    List.forall_mem_map]
  exact and_comm

namespace Filter

variable (f : Filter) (schema : TableSchema)

theorem numbers_predicate : f.predicate.filterMap Conjunct.number? =
    List.range' 1 f.values.length := by
  rw [predicate, numbers_conjuncts _ _ "", bindsOf_tests]

theorem sql_count : (Statement.countOf schema f).sql =
    ⟨s!"SELECT COUNT(*) FROM {schema.table} AS {schema.row} WHERE " ++
      Where.text schema.row (.always :: f.predicate), f.values⟩ := by
  rw [Statement.sql, Sql.ofPieces, Sql.mk.injEq]
  refine ⟨?_, f.bindsOf_tests schema.row⟩
  have hstart : s!"SELECT COUNT(*) FROM {schema.table} AS {schema.row} WHERE TRUE" =
      s!"SELECT COUNT(*) FROM {schema.table} AS {schema.row} WHERE " ++ "TRUE" := by
    simp [toString, String.append_assoc]
  rw [Statement.countOf, Statement.pieces, Sql.number, number_tests, hstart, String.append_assoc,
    Where.text_cons]
  rfl

theorem sql_page : (f.pageStatement schema).sql =
    ⟨s!"SELECT {schema.select} FROM {schema.table} AS {schema.row} WHERE " ++
      Where.text schema.row (.above "id" 1 :: f.predicate.map Conjunct.raised) ++ " " ++
      orderByText (f.orderBy.map SortKey.ofText) ++ " LIMIT " ++ "$" ++
      toString (f.values.length + 2),
      .ofId f.lastSeen :: f.values ++
        [.value (.int (some (.ofNat (f.pageSize.toNat + 1))))]⟩ := by
  rw [pageStatement, Statement.sql_page, predicate, ← conjuncts_succ, bindsOf_tests]

variable {f} {value? : String → Option Value}

theorem selects_count_iff :
    Where.Selects collate f.values value? (.always :: f.predicate) ↔ f.Admits collate value? := by
  have htruths := truths_conjuncts f.tests "" collate value? [] [] (rfl : _ = 1)
  rw [bindsOf_tests, List.nil_append, List.append_nil] at htruths
  rw [Where.selects_iff, List.map_cons, List.forall_mem_cons, predicate, htruths,
    List.forall_mem_map, ← truth?_tests_iff]
  exact and_iff_right rfl

theorem selects_page_iff {id : Uuid} {limit : Bind} (hid : value? "id" = some (.uuid (some id))) :
    Where.Selects collate (.ofId f.lastSeen :: f.values ++ [limit]) value?
        (.above "id" 1 :: f.predicate.map Conjunct.raised) ↔
      f.Admits collate value? ∧ f.lastSeen < id := by
  rw [predicate, ← conjuncts_succ, ← f.bindsOf_tests "", selects_above_iff hid, truth?_tests_iff]

end Filter

/-- The statements of a listing and of its count have one predicate, and it says what the filter
says. -/
structure Filter.SelectsAlike (f : Filter) (schema : TableSchema) : Prop where
  count : (Statement.countOf schema f).sql =
    ⟨s!"SELECT COUNT(*) FROM {schema.table} AS {schema.row} WHERE " ++
      Where.text schema.row (.always :: f.predicate), f.values⟩
  page : ∃ (statement : Statement) (clause : String) (limit : Int64),
    Statement.ofFilter schema f = .ok statement ∧ f.orderByClause schema = .ok clause ∧
    statement.sql =
      ⟨s!"SELECT {schema.select} FROM {schema.table} AS {schema.row} WHERE " ++
        Where.text schema.row (.above "id" 1 :: f.predicate.map Conjunct.raised) ++ " " ++ clause ++
        " LIMIT " ++ "$" ++ toString (f.values.length + 2),
        .ofId f.lastSeen :: f.values ++ [.value (.int (some limit))]⟩
  numbers : f.predicate.filterMap Conjunct.number? = List.range' 1 f.values.length
  counted (collate : Collation) (value? : String → Option Value) : schema.Types value? →
    (Where.Selects collate f.values value? (.always :: f.predicate) ↔ f.Matches collate value?)
  listed (collate : Collation) (value? : String → Option Value) (id : Uuid) (limit : Bind) :
    schema.Types value? → value? "id" = some (.uuid (some id)) →
    (Where.Selects collate (.ofId f.lastSeen :: f.values ++ [limit]) value?
        (.above "id" 1 :: f.predicate.map Conjunct.raised) ↔
      f.Matches collate value? ∧ f.lastSeen < id)

theorem Filter.selectsAlike {f : Filter} {schema : TableSchema} (h : f.check schema = .ok ()) :
    f.SelectsAlike schema where
  count := f.sql_count schema
  page := by
    have hkeys := (check_eq_ok_iff.1 h).sortKeys_eq
    refine ⟨f.pageStatement schema, _, _, ?_, ?_, f.sql_page schema⟩
    · rw [Statement.ofFilter, hkeys]
      rfl
    · rw [orderByClause, hkeys]
      rfl
  numbers := f.numbers_predicate
  counted collate value? hrow := by
    rw [selects_count_iff, (check_eq_ok_iff_isWellFormed.1 h).admits_iff_matches hrow]
  listed collate value? id limit hrow hid := by
    rw [selects_page_iff hid, (check_eq_ok_iff_isWellFormed.1 h).admits_iff_matches hrow]

/-! ## What a listing and a count tell -/

section Told

variable {σ : Type} {r : Resource} {t : Table r} {store : Store σ} {f : Filter}

theorem Table.admitted_eq (h : f.check r.schema = .ok ()) :
    t.admitted collate f = t.rows.filter fun a => f.Matches collate (r.value? a) := by
  refine List.filter_congr fun a _ => decide_eq_decide.2 ?_
  exact (Filter.check_eq_ok_iff_isWellFormed.1 h).admits_iff_matches (r.types_value? a)

/-- The rows of a page are selected, and all of those that are selected if no page follows. -/
theorem Table.Selects.mem_page {records : List r.Record} {keys : List SortKey}
    (hselects : t.Selects collate f.lastSeen f.tests keys (.ofNat (f.pageSize.toNat + 1)) records)
    (hsize : f.pageSize ≤ Filter.maxPageSize) (a : r.Record) :
    let page := Page.ofRows records f.pageSize f.lastSeen r.id
    (a ∈ page.rows → a ∈ t.admitted collate f ∧ f.lastSeen < r.id a) ∧
      (page.metadata.next = false → a ∈ t.admitted collate f → f.lastSeen < r.id a →
        a ∈ page.rows) := by
  obtain ⟨found, hperm, -, rfl⟩ := hselects
  rw [t.matching_tests] at hperm
  have hmem : a ∈ found ↔ a ∈ t.admitted collate f ∧ f.lastSeen < r.id a := by
    rw [hperm.mem_iff, List.mem_filter, decide_eq_true_eq]
  have hlimit : (Int64.ofNat (f.pageSize.toNat + 1)).toInt.toNat = f.pageSize.toNat + 1 := by
    rw [limit_toInt f hsize]
    omega
  intro page
  have hrows : page.rows = found.take f.pageSize.toNat := by
    simp only [page, Page.ofRows, hlimit, List.take_take]
    rw [Nat.min_eq_left (Nat.le_succ _)]
  rw [hrows]
  refine ⟨fun ha => hmem.1 (List.mem_of_mem_take ha), fun hnext ha hlt => ?_⟩
  have hshort : found.length ≤ f.pageSize.toNat := by
    simp only [page, Page.ofRows, hlimit, decide_eq_false_iff_not, List.length_take] at hnext
    omega
  rw [List.take_of_length_le hshort]
  exact hmem.2 ⟨ha, hlt⟩

theorem Repository.count_congr {g : Filter} (hf : f.check r.schema = .ok ())
    (hg : g.check r.schema = .ok ()) (h : f.constraints = g.constraints)
    (limit : Option Duration) : count limit r f = count limit r g := by
  rw [count, count, hf, hg, Statement.countOf, Statement.countOf, Filter.tests, Filter.tests, h]

end Told

/-- The predicate of a listing is that of its count with all placeholder numbers one higher, over
the same values, and true of a row exactly if every constraint holds. A listing selects those rows
of the count that come after its cursor; a count depends on the constraints alone. Of a table, a
listing shows such rows only, and all of them where no page follows, and a count tells their
number before any cursor. -/
theorem listing_and_count_select_alike :
    (∀ (schema : TableSchema) (f : Filter), f.check schema = .ok () → f.SelectsAlike schema) ∧
    (∀ (collate : Collation), LawfulEqCmp collate → ∀ v w : Value, w.isNull = false →
      ((Constraint.equals w).Holds collate v ↔ v = w.stored)) ∧
    (∀ (schema : TableSchema) (f g : Filter), f.constraints = g.constraints →
      Statement.countOf schema f = Statement.countOf schema g) ∧
    ∀ (σ : Type) (collate : Collation) (r : Resource) (t : Table r) (store : Store σ),
      t.Serves collate store → ∀ (f : Filter) (limit : Option Duration) (s : σ),
      f.check r.schema = .ok () → HasTime limit →
      (t.rows.length < 2 ^ 63 → ∃ n, ((Repository.count limit r f).run store s).value? =
          some (.ok n) ∧
        n.toInt = (t.rows.filter fun a => f.Matches collate (r.value? a)).length) ∧
      (∃ page, ((Repository.list limit r f).run store s).value? = some (.ok page) ∧
        (∀ a ∈ page.rows, a ∈ t.rows ∧ f.Matches collate (r.value? a) ∧ f.lastSeen < r.id a) ∧
        (page.metadata.next = false → ∀ a ∈ t.rows, f.Matches collate (r.value? a) →
          f.lastSeen < r.id a → a ∈ page.rows)) ∧
      ∀ g : Filter, g.check r.schema = .ok () → f.constraints = g.constraints →
        Repository.count limit r f = Repository.count limit r g := by
  refine ⟨fun schema f h => Filter.selectsAlike h,
    fun collate hlawful v w hw => Constraint.holds_equals_iff hw, fun schema f g h => ?_,
    fun σ collate r t store hserves f limit s h htime =>
      ⟨fun hlength => ?_, ?_, fun g hg hc => Repository.count_congr h hg hc limit⟩⟩
  · rw [Statement.countOf, Statement.countOf, Filter.tests, Filter.tests, h]
  · have hadmitted : (t.admitted collate f).length < 2 ^ 63 :=
      (List.length_filter_le _ _).trans_lt hlength
    obtain ⟨hcounts, hall⟩ := Repository.count_served hserves (Filter.check_eq_ok_iff.1 h) limit s
      hadmitted
    obtain ⟨n, hn⟩ := hcounts htime
    exact ⟨n, hn, by rw [hall n hn, Table.admitted_eq h]⟩
  · have haccepted := Filter.check_eq_ok_iff.1 h
    obtain ⟨hlists, hall⟩ := Repository.list_served hserves haccepted limit s
    obtain ⟨page, hpage⟩ := hlists htime
    obtain ⟨records, hselects, rfl⟩ := hall page hpage
    have hmem := hselects.mem_page haccepted.pageSize_le
    simp only [Table.admitted_eq h, List.mem_filter, decide_eq_true_eq, and_imp, and_assoc] at hmem
    exact ⟨_, hpage, fun a => (hmem a).1, fun hnext a => (hmem a).2 hnext⟩

/-- Of three posts in a thread two reply to no other, and one of these comes after the first. -/
theorem opening_posts_selected :
    let post (id : Uuid) (replyTo : Option Uuid) : Post :=
      ⟨id, ⟨8⟩, replyTo, ⟨9⟩, "text", ⟨.epoch, .epoch, false, none⟩⟩
    let t : Table .post := ⟨[post ⟨1⟩ none, post ⟨2⟩ none, post ⟨3⟩ (some ⟨1⟩)], by decide⟩
    let f := Filter.ofSettings [.equals "reply_to" (.uuid none), .after ⟨1⟩,
      .between "created_at" (some (.instant Instant.epoch)) none]
    f.predicate = [.compare "created_at" .atLeast 1, .isNull "reply_to"] ∧
      f.SelectsAlike Post.schema ∧
      (Constraint.equals (.text "Ann")).Holds compare (.text "Ann") ∧
      (∃ n, ((Repository.count none .post f).run (t.store compare) ()).value? = some (.ok n) ∧
        n.toInt = 2) ∧
      ∃ page, ((Repository.list none .post f).run (t.store compare) ()).value? = some (.ok page) ∧
        ∀ a ∈ page.rows, a = post ⟨2⟩ none := by
  intro post t f
  have hf : f.check Resource.post.schema = .ok () := by decide
  have htime : HasTime none := fun d hd => by cases hd
  have hserves : t.Serves compare (t.store compare : Store Unit) := Table.serves_store (by decide)
  obtain ⟨halike, hequals, -, htold⟩ := listing_and_count_select_alike
  obtain ⟨hcount, ⟨page, hpage, hrows, -⟩, -⟩ :=
    htold Unit compare .post t _ hserves f none () hf htime
  obtain ⟨n, hn, hlength⟩ := hcount (by decide)
  refine ⟨by decide, halike _ f hf, (hequals compare inferInstance _ _ rfl).2 rfl,
    ⟨n, hn, hlength.trans (by decide)⟩, page, hpage, fun a ha => ?_⟩
  obtain ⟨hrow, hmatches, hlt⟩ := hrows a ha
  rcases List.mem_cons.1 hrow with rfl | hrow
  · exact absurd hlt (by decide)
  · rcases List.mem_cons.1 hrow with rfl | hrow
    · rfl
    · obtain rfl := List.mem_singleton.1 hrow
      exact absurd hmatches (by decide)

end MessageBoard
