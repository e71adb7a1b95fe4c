import Mathlib
import MessageBoard.Proofs.Accepted
import MessageBoard.Proofs.Discipline

/-!
# Tables and what is selected from them

A table holds records with distinct identifiers. What a statement selects from it is said as for any
relational store: the rows for which every test is true, where a test of a null is neither true nor
false, in an order that the keys allow, cut off at the limit. How texts are ordered is up to the
store.

A store that serves a table answers its requests in this way. A listing of such a table tells a page
of what the statement selects, and a count tells the number of rows that the filter admits.
-/

namespace MessageBoard

variable {σ α : Type}

/-! ## The values of a record -/

def Shape.toValue? : (s : Shape) → s.Val → Option Value
  | .uuid, u => some (.uuid (some u))
  | .text, t => some (.text (some t))
  | .flag, b => some (.flag (some b))
  | .instant, t => some (.instant (some t))
  | .number .int64, n => some (.int (some n))
  | .option .uuid, u => some (.uuid u)
  | .option .text, t => some (.text t)
  | .option .flag, b => some (.flag b)
  | .option .instant, t => some (.instant t)
  | .option (.number .int64), n => some (.int n)
  | _, _ => none

def Fields.value? : (fs : Fields) → fs.Val → String → Option Value
  | .nil, _, _ => none
  | .cons name s _ rest, (v, vs), column =>
    if column = name then s.toValue? v else rest.value? vs column

def Shape.fieldValue? : (s : Shape) → s.Val → String → Option Value
  | .record fs, v, column => fs.value? v column
  | _, _, _ => none

def Resource.value? (r : Resource) (a : r.Record) (column : String) : Option Value :=
  r.recordWire.shape.fieldValue? (r.recordWire.toVal a) column

theorem Resource.value?_id (r : Resource) (a : r.Record) :
    r.value? a "id" = some (.uuid (some (r.id a))) := by
  cases r <;> rfl

/-! ## What a statement asks of a row -/

abbrev Collation := String → String → Ordering

/-- The value as the store gets to see it. -/
def Value.stored : Value → Value
  | .instant (some t) => .instant (some t.stored)
  | v => v

variable (collate : Collation)

def Value.collated : Value → Value → Option Ordering
  | .text (some a), .text (some b) => some (collate a b)
  | v, w => v.compare? w

def Comparison.accepts : Comparison → Ordering → Bool
  | .equal, o => o.isEq
  | .atLeast, o => o.isGE
  | .atMost, o => o.isLE

/-- Whether a test is true of a row. A comparison with a null is neither true nor false. -/
def Test.truth? (value? : String → Option Value) : Test → Option Bool
  | .isNull column => (value? column).map Value.isNull
  | .compare column comparison v =>
    ((value? column).bind (·.collated collate v.stored)).map comparison.accepts

def Constraint.Admits (value? : Option Value) : Constraint → Prop
  | .equals v =>
    if v.isNull then value?.map Value.isNull = some true
    else value?.bind (·.collated collate v.stored) = some .eq
  | .between lower upper =>
    lower.all (fun v => (value?.bind (·.collated collate v.stored)).any Ordering.isGE) = true ∧
      upper.all (fun v => (value?.bind (·.collated collate v.stored)).any Ordering.isLE) = true

instance (value? : Option Value) (c : Constraint) : Decidable (c.Admits collate value?) := by
  cases c <;> unfold Constraint.Admits <;> infer_instance

/-- The row matches the filter: each constrained column holds what the constraint asks for. -/
def Filter.Admits (f : Filter) (value? : String → Option Value) : Prop :=
  ∀ e ∈ f.constraints.entries, e.2.Admits collate (value? e.1)

instance (f : Filter) (value? : String → Option Value) : Decidable (f.Admits collate value?) :=
  inferInstanceAs (Decidable (∀ e ∈ f.constraints.entries, e.2.Admits collate (value? e.1)))

section Truth

variable {collate} {value? : String → Option Value} {column : String}

theorem Test.truth?_compare_iff {comparison : Comparison} {v : Value} :
    (Test.compare column comparison v).truth? collate value? = some true ↔
      ((value? column).bind (·.collated collate v.stored)).any comparison.accepts = true := by
  rw [truth?, Option.map_eq_some_iff, Option.any_eq_true]

theorem Test.truth?_end_iff {comparison : Comparison} (bound : Option Value) :
    (∀ test ∈ bound.toList.map (Test.compare column comparison),
      test.truth? collate value? = some true) ↔
    bound.all (fun v =>
      ((value? column).bind (·.collated collate v.stored)).any comparison.accepts) = true := by
  cases bound with
  | none => simp
  | some v => simp [Test.truth?_compare_iff]

theorem Constraint.truth?_tests_iff (c : Constraint) :
    (∀ test ∈ c.tests column, test.truth? collate value? = some true) ↔
      c.Admits collate (value? column) := by
  cases c with
  | equals v =>
    rw [tests, Admits]
    by_cases hv : v.isNull = true
    · rw [if_pos hv, if_pos hv, List.forall_mem_singleton]
      rfl
    · rw [if_neg hv, if_neg hv, List.forall_mem_singleton, Test.truth?_compare_iff]
      cases (value? column).bind (·.collated collate v.stored) with
      | none => simp
      | some o => cases o <;> simp [Comparison.accepts]
  | between lower upper =>
    rw [tests, Admits, List.forall_mem_append, Test.truth?_end_iff, Test.truth?_end_iff]
    rfl

theorem Filter.truth?_tests_iff (f : Filter) :
    (∀ test ∈ f.tests, test.truth? collate value? = some true) ↔ f.Admits collate value? := by
  rw [tests, Admits, List.forall_mem_flatMap]
  exact forall₂_congr fun e _ => e.2.truth?_tests_iff

end Truth

/-! ## The order of a listing -/

/-- The order of two values in a column, nulls at the end. -/
def Value.sortCompare (v w : Value) : Ordering :=
  match v.isNull, w.isNull with
  | true, true => .eq
  | true, false => .gt
  | false, true => .lt
  | false, false => (v.collated collate w).getD .eq

def SortKey.compare (key : SortKey) (v w : String → Option Value) : Ordering :=
  let o := match v key.column, w key.column with
    | some a, some b => a.sortCompare collate b
    | _, _ => .eq
  if key.descending then o.swap else o

/-- The order by several keys, of which a later one counts where all earlier ones tie. -/
def compareBy : List SortKey → (v w : String → Option Value) → Ordering
  | [], _, _ => .eq
  | key :: keys, v, w => (key.compare collate v w).then (compareBy keys v w)

/-! ## Tables -/

structure Table (r : Resource) where
  rows : List r.Record
  distinct : (rows.map r.id).Nodup

namespace Table

variable {r : Resource} (t : Table r)

/-- The rows of which all tests are true. -/
def matching (tests : List Test) : List r.Record :=
  t.rows.filter fun a => tests.all fun test => test.truth? collate (r.value? a) = some true

/-- What a statement may select as a page: the matching rows after the cursor, in an order that the
keys allow, as many as the limit lets through. -/
def Selects (after : Uuid) (tests : List Test) (order : List SortKey) (limit : Int64)
    (records : List r.Record) : Prop :=
  ∃ found : List r.Record,
    found.Perm ((t.matching collate tests).filter fun a => after < r.id a) ∧
    found.Pairwise (fun a b => compareBy collate (order ++ [⟨"id", false⟩]) (r.value? a)
      (r.value? b) ≠ .gt) ∧
    records = found.take limit.toInt.toNat

def admitted (f : Filter) : List r.Record := t.rows.filter fun a => f.Admits collate (r.value? a)

theorem mem_admitted {f : Filter} {a : r.Record} :
    a ∈ t.admitted collate f ↔ a ∈ t.rows ∧ f.Admits collate (r.value? a) := by
  rw [admitted, List.mem_filter, decide_eq_true_eq]

theorem matching_tests (f : Filter) : t.matching collate f.tests = t.admitted collate f := by
  refine List.filter_congr fun a _ => ?_
  rw [Bool.eq_iff_iff, List.all_eq_true, decide_eq_true_eq, ← f.truth?_tests_iff]
  simp only [decide_eq_true_eq]

theorem nodup_admitted (f : Filter) : ((t.admitted collate f).map r.id).Nodup :=
  t.distinct.sublist (List.filter_sublist.map r.id)

theorem eq_of_id_eq {a b : r.Record} (ha : a ∈ t.rows) (hb : b ∈ t.rows) (h : r.id a = r.id b) :
    a = b := List.inj_on_of_nodup_map t.distinct ha hb h

end Table

/-! ## Serving a table -/

/-- The test names a column of the schema and compares it with a value of its type. -/
def Test.Fits (schema : TableSchema) : Test → Prop
  | .isNull column => (schema.column? column).isSome
  | .compare column _ v => schema.column? column = some v.type

/-- The store answers what is asked of the table; of tests, keys and limits that a statement cannot
have nothing is said. -/
structure Table.Serves {r : Resource} (t : Table r) (store : Store σ) : Prop where
  opens : ∀ s, ∃ rows, (store .start s).1 = .rows rows
  commits : ∀ s, ∃ rows, (store .commit s).1 = .rows rows
  selects : ∀ s after tests order limit, (∀ test ∈ tests, test.Fits r.schema) →
    (∀ key ∈ order, key.column ∈ r.schema.sortable) → 0 ≤ limit.toInt →
    ∃ rows records, (store (.execute (.page r.schema after tests order limit)) s).1 = .rows rows ∧
      Rows.all (Repository.readRecord r) rows = .ok records ∧
      t.Selects collate after tests order limit records
  counts : ∀ s tests, (∀ test ∈ tests, test.Fits r.schema) →
    ∃ name, (store (.execute (.count r.schema tests)) s).1 =
      .rows [[(name, .int (t.matching collate tests).length)]]

section Fits

variable {schema : TableSchema} {column : String} {expected : ColumnType}

theorem Filter.fits_of_checkType (hc : schema.column? column = some expected) {v : Value}
    (h : checkType column expected v = .ok ()) (comparison : Comparison) :
    (Test.compare column comparison v).Fits schema := by
  rw [checkType] at h
  by_cases ht : v.type = expected
  · rw [Test.Fits, ht, hc]
  · rw [if_neg ht] at h
    cases h

theorem Filter.types_of_checkConstraint {lower upper : Option Value}
    (h : checkConstraint column expected (.between lower upper) = .ok ()) :
    (∀ v, lower = some v → checkType column expected v = .ok ()) ∧
      ∀ v, upper = some v → checkType column expected v = .ok () := by
  cases lower with
  | none =>
    cases upper with
    | none => cases h
    | some b =>
      refine ⟨fun v hv => ?_, fun v hv => ?_⟩
      · cases hv
      · obtain rfl := Option.some.inj hv
        exact h
  | some a =>
    cases upper with
    | none =>
      refine ⟨fun v hv => ?_, fun v hv => ?_⟩
      · obtain rfl := Option.some.inj hv
        exact h
      · cases hv
    | some b =>
      cases ha : checkType column expected a with
      | error e => simp [checkConstraint, ha, bind, Except.bind] at h
      | ok _ =>
        cases hb : checkType column expected b with
        | error e => simp [checkConstraint, ha, hb, bind, Except.bind] at h
        | ok _ =>
          refine ⟨fun v hv => ?_, fun v hv => ?_⟩
          · obtain rfl := Option.some.inj hv
            exact ha
          · obtain rfl := Option.some.inj hv
            exact hb

theorem Filter.fits_of_checkConstraint (hc : schema.column? column = some expected)
    {c : Constraint} (h : checkConstraint column expected c = .ok ()) {test : Test}
    (ht : test ∈ c.tests column) : test.Fits schema := by
  cases c with
  | equals v =>
    rw [Constraint.tests] at ht
    by_cases hv : v.isNull = true
    · rw [if_pos hv] at ht
      rw [List.mem_singleton.1 ht, Test.Fits, hc, Option.isSome_some]
    · rw [if_neg hv] at ht
      rw [List.mem_singleton.1 ht]
      exact fits_of_checkType hc h .equal
  | between lower upper =>
    obtain ⟨hlower, hupper⟩ := types_of_checkConstraint h
    rcases List.mem_append.1 ht with ht | ht
    · obtain ⟨v, hv, rfl⟩ := List.mem_map.1 ht
      exact fits_of_checkType hc (hlower v (Option.mem_toList.1 hv)) .atLeast
    · obtain ⟨v, hv, rfl⟩ := List.mem_map.1 ht
      exact fits_of_checkType hc (hupper v (Option.mem_toList.1 hv)) .atMost

theorem Filter.Accepted.fits {f : Filter} (h : f.Accepted schema) {test : Test}
    (ht : test ∈ f.tests) : test.Fits schema := by
  obtain ⟨⟨column, c⟩, he, ht⟩ := List.mem_flatMap.1 ht
  have hok := h.entries _ he
  rw [checkEntry] at hok
  cases hc : schema.column? column with
  | none => simp [hc] at hok
  | some expected =>
    simp only [hc] at hok
    exact fits_of_checkConstraint hc hok ht

end Fits

/-! ## What is told of a table -/

/-- Where the store answers every request of a plan, and with rows that the plan can use, the plan
tells what it makes of them unless there is no time at all. -/
theorem Plan.value_of_answers {limit : Option Duration} {p : Plan α} {store : Store σ}
    {P : α → Prop} (hopen : ∀ s, ∃ rows, (store .start s).1 = .rows rows)
    (hexecute : ∀ s, ∃ rows a, (store (.execute p.statement) s).1 = .rows rows ∧
      p.read rows = .ok (.ok a) ∧ P a)
    (hcommit : ∀ s, ∃ rows, (store .commit s).1 = .rows rows) (s : σ) :
    (HasTime limit → ∃ a, ((p.run limit).run store s).value? = some (.ok a)) ∧
      ∀ a, ((p.run limit).run store s).value? = some (.ok a) → P a := by
  have hbody : ∃ a, (p.body.run store s).value? = some (.ok a) ∧ P a := by
    rw [body, Operation.transaction, Operation.inTransaction_andThen, Operation.step_andThen]
    obtain ⟨rows₁, h₁⟩ := hopen s
    obtain ⟨rows₂, a, h₂, hread, ha⟩ := hexecute (store .start s).2
    obtain ⟨rows₃, h₃⟩ := hcommit (store (.execute p.statement) (store .start s).2).2
    refine ⟨a, ?_, ha⟩
    simp only [Operation.inTransaction, Operation.step, Operation.commit, Operation.andThen,
      Program.run_ask, h₁, h₂, hread, h₃, Program.bind, Program.run_done]
  obtain ⟨a, ha, hP⟩ := hbody
  by_cases hl : HasTime limit
  · have hrun : ((p.run limit).run store s).value? = some (.ok a) := by
      rw [run, Operation.run_within store hl, ha, Option.some_or]
    refine ⟨fun _ => ⟨a, hrun⟩, fun b hb => ?_⟩
    rw [hrun] at hb
    obtain rfl := Except.ok.inj (Option.some.inj hb)
    exact hP
  · refine ⟨fun h => absurd h hl, fun b hb => ?_⟩
    simp only [HasTime, not_forall, ne_eq, not_not] at hl
    obtain ⟨d, rfl, hd⟩ := hl
    have hexpired : p.run (some d) = .fail (.timeout d) := if_pos hd
    rw [hexpired] at hb
    cases hb

variable {collate} {r : Resource} {t : Table r} {store : Store σ} {f : Filter}
  {limit : Option Duration}

theorem limit_toInt (f : Filter) (h : f.pageSize ≤ Filter.maxPageSize) :
    (Int64.ofNat (f.pageSize.toNat + 1)).toInt = f.pageSize.toNat + 1 := by
  have hle : f.pageSize.toNat ≤ 1000 := UInt32.le_iff_toNat_le.1 h
  rw [Int64.toInt_ofNat_of_lt (by omega)]
  omega

/-- A listing of a table that is served tells a page made of what its statement selects. -/
theorem Repository.list_served (hserves : t.Serves collate store) (hf : f.Accepted r.schema)
    (limit : Option Duration) (s : σ) :
    (HasTime limit → ∃ page, ((list limit r f).run store s).value? = some (.ok page)) ∧
      ∀ page, ((list limit r f).run store s).value? = some (.ok page) →
        ∃ records, t.Selects collate f.lastSeen f.tests (f.orderBy.map SortKey.ofText)
            (.ofNat (f.pageSize.toNat + 1)) records ∧
          page = .ofRows records f.pageSize f.lastSeen r.id := by
  have hplan := Call.plan_list_eq_ok_iff_accepted.2 ⟨hf, rfl⟩
  have hrun : list limit r f = (Call.listPlan r f (f.pageStatement r.schema)).run limit := by
    rw [Call.list_eq, hplan]
    rfl
  rw [hrun]
  refine Plan.value_of_answers hserves.opens (fun s => ?_) hserves.commits s
  have hlimit : 0 ≤ (Int64.ofNat (f.pageSize.toNat + 1)).toInt := by
    rw [limit_toInt f hf.pageSize_le]
    omega
  obtain ⟨rows, records, hrows, hread, hselects⟩ := hserves.selects s f.lastSeen f.tests
    (f.orderBy.map SortKey.ofText) _ (fun _ ht => hf.fits ht) (fun _ hk => hf.mem_sortable hk)
    hlimit
  refine ⟨rows, _, hrows, ?_, records, hselects, rfl⟩
  simp only [Call.listPlan, hread]
  rfl

/-- A count tells how many rows of the table the filter admits. -/
theorem Repository.count_served (hserves : t.Serves collate store) (hf : f.Accepted r.schema)
    (limit : Option Duration) (s : σ) (hn : (t.admitted collate f).length < 2 ^ 63) :
    (HasTime limit → ∃ n, ((count limit r f).run store s).value? = some (.ok n)) ∧
      ∀ n, ((count limit r f).run store s).value? = some (.ok n) →
        n.toInt = (t.admitted collate f).length := by
  have hplan := Call.plan_count_eq_ok_iff_accepted.2 ⟨hf, rfl⟩
  have hrun : count limit r f = Plan.run limit
      (.plain (.countOf r.schema f) (Rows.first .noRow (·.number? 0))) := by
    rw [show count limit r f = (Call.count r f).run limit from rfl, Call.run_eq, hplan]
    rfl
  rw [hrun]
  refine Plan.value_of_answers hserves.opens (fun s => ?_) hserves.commits s
  obtain ⟨name, hrows⟩ := hserves.counts s f.tests fun _ ht => hf.fits ht
  rw [t.matching_tests] at hrows
  have hint : (Int64.ofInt (t.admitted collate f).length).toInt = (t.admitted collate f).length :=
    Int64.toInt_ofInt_of_le (by omega) (by omega)
  have hread : Row.number? [(name, .int (t.admitted collate f).length)] 0 =
      some (.ofInt (t.admitted collate f).length) := if_pos hint
  refine ⟨_, .ofInt (t.admitted collate f).length, hrows, ?_, hint⟩
  simp only [Plan.plain, Rows.first, Rows.readOne, hread]
  rfl

end MessageBoard
