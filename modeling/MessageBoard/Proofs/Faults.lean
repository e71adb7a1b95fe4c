import Mathlib
import MessageBoard.Proofs.ByteOrder
import MessageBoard.Proofs.Clause

/-!
# Faults of filters

What is asked of a filter is a list of conditions in a fixed order, each with the fault that there
is when it is not met. A filter that meets all of them is well formed, and of any other one the
first fault is reported.
-/

namespace MessageBoard

/-! ## Conditions -/

structure Condition where
  met : Bool
  fault : FilterError

/-- Reports the fault of the first condition that is not met. -/
def report : List Condition → Except FilterError Unit
  | [] => .ok ()
  | c :: rest => if c.met then report rest else .error c.fault

theorem report_append (xs ys : List Condition) :
    report (xs ++ ys) = (do report xs; report ys) := by
  induction xs with
  | nil => rfl
  | cons c xs ih =>
    rw [List.cons_append, report, report]
    by_cases hc : c.met = true
    · rw [if_pos hc, if_pos hc, ih]
    · rw [if_neg hc, if_neg hc]
      rfl

theorem report_flatMap {α : Type} (l : List α) (conditions : α → List Condition) :
    report (l.flatMap conditions) = l.forM fun a => report (conditions a) := by
  induction l with
  | nil => rfl
  | cons a l ih =>
    rw [List.flatMap_cons, report_append, ih, List.forM_eq_forM, List.forM_cons]

theorem report_eq_ok_iff {conditions : List Condition} :
    report conditions = .ok () ↔ ∀ c ∈ conditions, c.met = true := by
  induction conditions with
  | nil => exact ⟨fun _ c hc => absurd hc List.not_mem_nil, fun _ => rfl⟩
  | cons c rest ih =>
    rw [report, List.forall_mem_cons]
    by_cases hc : c.met = true
    · rw [if_pos hc, ih]
      exact ⟨fun h => ⟨hc, h⟩, And.right⟩
    · rw [if_neg hc]
      exact iff_of_false (fun h => by cases h) fun h => hc h.1

theorem report_eq_error_iff {conditions : List Condition} {e : FilterError} :
    report conditions = .error e ↔
      ∃ before c after, conditions = before ++ c :: after ∧ (∀ b ∈ before, b.met = true) ∧
        c.met = false ∧ c.fault = e := by
  constructor
  · intro h
    induction conditions with
    | nil => cases h
    | cons c rest ih =>
      rw [report] at h
      by_cases hc : c.met = true
      · rw [if_pos hc] at h
        obtain ⟨before, d, after, rfl, hbefore, hd⟩ := ih h
        exact ⟨c :: before, d, after, rfl, List.forall_mem_cons.2 ⟨hc, hbefore⟩, hd⟩
      · rw [if_neg hc] at h
        exact ⟨[], c, rest, rfl, fun b hb => absurd hb List.not_mem_nil, by simpa using hc,
          Except.error.inj h⟩
  · rintro ⟨before, c, after, rfl, hbefore, hc, rfl⟩
    rw [report_append, report_eq_ok_iff.2 hbefore, report, hc]
    rfl

theorem report_ne_error {conditions : List Condition} {e : FilterError}
    (h : ∀ c ∈ conditions, c.fault ≠ e) : report conditions ≠ .error e := by
  intro hreport
  obtain ⟨before, c, after, rfl, -, -, hfault⟩ := report_eq_error_iff.1 hreport
  exact h c (List.mem_append_right before List.mem_cons_self) hfault

theorem report_append_eq_error_iff {xs ys : List Condition} {e : FilterError} :
    report (xs ++ ys) = .error e ↔
      report xs = .error e ∨ report xs = .ok () ∧ report ys = .error e := by
  rw [report_append]
  cases report xs with
  | error e' => exact ⟨.inl, fun h => h.elim id fun h => by cases h.1⟩
  | ok _ => exact ⟨fun h => .inr ⟨rfl, h⟩, fun h => h.elim (fun h => by cases h) And.right⟩

theorem sortKeys_eq_report (fields safelist : List String) :
    discard (sortKeys fields safelist) =
      report (fields.map fun raw => ⟨Sortable safelist raw, .unsortableField raw⟩) := by
  induction fields with
  | nil => rfl
  | cons raw fields ih =>
    rw [sortKeys_cons, List.map_cons, report, ← ih]
    by_cases h : Sortable safelist raw
    · rw [SortKey.read_of_sortable h, decide_eq_true h, if_pos rfl]
      cases sortKeys fields safelist <;> rfl
    · rw [SortKey.read_of_not_sortable h, decide_eq_false h]
      rfl

/-! ## The conditions of a filter -/

namespace Constraint

/-- The values that a column is compared with, the lower end of a range before the upper one. -/
def operands : Constraint → List Value
  | .equals v => [v]
  | .between lower upper => lower.toList ++ upper.toList

/-- The lower end of a range lies above the upper one. Ends without values are never compared. -/
def isInverted : Constraint → Bool
  | .between (some lower) (some upper) => lower.compare? upper = some .gt
  | _ => false

theorem operands_ne_nil_iff {c : Constraint} : c.operands ≠ [] ↔ c ≠ .between none none := by
  cases c with
  | equals v => simp [operands]
  | between lower upper => cases lower <;> cases upper <;> simp [operands]

theorem isInverted_eq_false_iff {c : Constraint} :
    c.isInverted = false ↔ ∀ lower upper, c = .between (some lower) (some upper) →
      lower.compare? upper ≠ some .gt := by
  cases c with
  | equals v => simp [isInverted]
  | between lower upper => cases lower <;> cases upper <;> simp [isInverted]

end Constraint

namespace Filter

variable (f : Filter) (schema : TableSchema)

def typeCondition (column : String) (expected : ColumnType) (v : Value) : Condition :=
  ⟨v.type = expected, .typeMismatch column expected.name v.type.name⟩

def entryConditions (entry : String × Constraint) : List Condition :=
  ⟨(schema.column? entry.1).isSome, .unknownColumn schema.resource entry.1⟩ ::
    ⟨entry.2.operands ≠ [], .emptyRange entry.1⟩ ::
    ((schema.column? entry.1).toList.flatMap fun expected =>
      entry.2.operands.map (typeCondition entry.1 expected)) ++
    [⟨!entry.2.isInverted, .invertedRange entry.1⟩]

/-- The filter may sort by the field: its table can, and its own safelist does not forbid it. -/
def MaySortBy (raw : String) : Prop :=
  fieldName raw ≠ "" ∧ fieldName raw ∈ schema.sortable ∧
    (f.safelist ≠ [] → fieldName raw ∈ f.safelist)

instance (raw : String) : Decidable (f.MaySortBy schema raw) :=
  inferInstanceAs (Decidable (_ ∧ _ ∧ (_ → _)))

/-- Everything that is asked of a filter of the table, in the order in which it is checked. -/
def conditions : List Condition :=
  ⟨1 ≤ f.pageSize.toNat ∧ f.pageSize.toNat ≤ 1000, .pageSize f.pageSize maxPageSize⟩ ::
    f.constraints.entries.flatMap (entryConditions schema) ++
    f.orderBy.map fun raw => ⟨f.MaySortBy schema raw, .unsortableField raw⟩

structure IsWellFormed : Prop where
  pageSize : 1 ≤ f.pageSize.toNat ∧ f.pageSize.toNat ≤ 1000
  typed : ∀ e ∈ f.constraints.entries, ∃ expected, schema.column? e.1 = some expected ∧
    ∀ v ∈ e.2.operands, v.type = expected
  bounded : ∀ e ∈ f.constraints.entries, e.2 ≠ .between none none
  upright : ∀ e ∈ f.constraints.entries, ∀ lower upper,
    e.2 = .between (some lower) (some upper) → lower.compare? upper ≠ some .gt
  sortable : ∀ raw ∈ f.orderBy, f.MaySortBy schema raw

variable {f schema}

theorem checkType_eq_report (column : String) (expected : ColumnType) (v : Value) :
    checkType column expected v = report [typeCondition column expected v] := by
  rw [checkType, typeCondition]
  by_cases h : v.type = expected <;> simp [report, h]

/-- The constraint is checked as far as it can be in a column of this type. -/
theorem checkConstraint_eq_report (column : String) (expected : ColumnType) (c : Constraint) :
    checkConstraint column expected c =
      report (⟨c.operands ≠ [], .emptyRange column⟩ ::
        c.operands.map (typeCondition column expected) ++
        [⟨!c.isInverted, .invertedRange column⟩]) := by
  cases c with
  | equals v =>
    rw [checkConstraint, checkType_eq_report]
    simp [report, Constraint.operands, Constraint.isInverted]
  | between lower upper =>
    cases lower with
    | none =>
      cases upper with
      | none => rfl
      | some b =>
        rw [checkConstraint, checkType_eq_report]
        simp [report, Constraint.operands, Constraint.isInverted]
    | some a =>
      cases upper with
      | none =>
        rw [checkConstraint, checkType_eq_report]
        simp [report, Constraint.operands, Constraint.isInverted]
      | some b =>
        have hrange : checkConstraint column expected (.between (some a) (some b)) = (do
            report [typeCondition column expected a]
            report [typeCondition column expected b]
            report [⟨!Constraint.isInverted (.between (some a) (some b)),
              .invertedRange column⟩]) := by
          rw [checkConstraint, checkType_eq_report, checkType_eq_report]
          by_cases h : a.compare? b = some .gt <;> simp [report, Constraint.isInverted, h]
        rw [hrange, ← report_append, ← report_append]
        rfl

theorem checkEntry_eq_report (schema : TableSchema) (entry : String × Constraint) :
    checkEntry schema entry = report (entryConditions schema entry) := by
  rw [checkEntry, entryConditions]
  cases hcolumn : schema.column? entry.1 with
  | none => rfl
  | some expected =>
    dsimp only
    rw [checkConstraint_eq_report, Option.toList_some, List.flatMap_singleton]
    rfl

theorem sortable_safelistFor_iff {raw : String} :
    Sortable (f.safelistFor schema) raw ↔ f.MaySortBy schema raw := by
  rw [Sortable, MaySortBy, safelistFor, List.mem_filter]
  refine and_congr_right fun _ => and_congr_right fun _ => ?_
  cases f.safelist <;> simp

theorem pageSize_iff :
    1 ≤ f.pageSize.toNat ∧ f.pageSize.toNat ≤ 1000 ↔
      ¬ (f.pageSize = 0 ∨ maxPageSize < f.pageSize) := by
  have hzero : f.pageSize = 0 ↔ f.pageSize.toNat = 0 := UInt32.toNat_inj.symm
  have hmax : maxPageSize < f.pageSize ↔ 1000 < f.pageSize.toNat := UInt32.lt_iff_toNat_lt
  rw [hzero, hmax]
  omega

theorem check_eq_report (f : Filter) (schema : TableSchema) :
    f.check schema = report (f.conditions schema) := by
  have hfields : discard (f.sortKeys schema) =
      report (f.orderBy.map fun raw => ⟨f.MaySortBy schema raw, .unsortableField raw⟩) := by
    simp only [Filter.sortKeys, sortKeys_eq_report, sortable_safelistFor_iff]
  have hentries : f.constraints.entries.forM (checkEntry schema) =
      report (f.constraints.entries.flatMap (entryConditions schema)) := by
    rw [report_flatMap, funext (checkEntry_eq_report schema)]
  rw [check, conditions, List.cons_append, report, report_append, hfields, hentries]
  by_cases hsize : f.pageSize = 0 ∨ maxPageSize < f.pageSize
  · rw [if_pos hsize, decide_eq_false (fun h => pageSize_iff.1 h hsize)]
    rfl
  · rw [if_neg hsize, decide_eq_true (pageSize_iff.2 hsize)]
    rfl

theorem entryConditions_met_iff {entry : String × Constraint} :
    (∀ c ∈ entryConditions schema entry, c.met = true) ↔
      (∃ expected, schema.column? entry.1 = some expected ∧
        ∀ v ∈ entry.2.operands, v.type = expected) ∧
      entry.2 ≠ .between none none ∧
      ∀ lower upper, entry.2 = .between (some lower) (some upper) →
        lower.compare? upper ≠ some .gt := by
  rw [← Constraint.operands_ne_nil_iff, ← Constraint.isInverted_eq_false_iff, entryConditions]
  cases hcolumn : schema.column? entry.1 with
  | none => simp
  | some expected =>
    simp only [Option.isSome_some, Option.toList_some, List.flatMap_singleton, List.cons_append,
      List.forall_mem_cons, List.forall_mem_append, List.forall_mem_map, List.not_mem_nil,
      false_implies, implies_true, typeCondition, decide_eq_true_eq, Bool.not_eq_true',
      Option.some.injEq, true_and, and_true, exists_eq_left']
    exact and_left_comm

theorem check_eq_ok_iff_isWellFormed : f.check schema = .ok () ↔ f.IsWellFormed schema := by
  rw [check_eq_report, report_eq_ok_iff, conditions, List.cons_append, List.forall_mem_cons,
    List.forall_mem_append, List.forall_mem_flatMap, List.forall_mem_map]
  simp only [entryConditions_met_iff, decide_eq_true_eq]
  constructor
  · rintro ⟨hsize, hentries, hfields⟩
    exact ⟨hsize, fun e he => (hentries e he).1, fun e he => (hentries e he).2.1,
      fun e he => (hentries e he).2.2, hfields⟩
  · rintro ⟨hsize, htyped, hbounded, hupright, hfields⟩
    exact ⟨hsize, fun e he => ⟨htyped e he, hbounded e he, hupright e he⟩, hfields⟩

end Filter

theorem Constraints.pairwise_encode_lt (cs : Constraints) :
    (cs.entries.map fun e => Text.Utf8.encode e.1.toList).Pairwise (· < ·) := by
  rw [List.pairwise_map]
  exact cs.sorted.imp fun h => Text.Utf8.encode_lt_iff.2 (String.lt_iff.1 h)

/-- A filter is accepted exactly if it is well formed. Otherwise the first condition that it does
not meet is reported, where columns come in the order of the bytes of their names. The page of an
accepted filter can be asked for. -/
theorem check_reports_first_fault (f : Filter) (schema : TableSchema) :
    (f.check schema = .ok () ↔ f.IsWellFormed schema) ∧
    (∀ e, f.check schema = .error e ↔
      ∃ before c after, f.conditions schema = before ++ c :: after ∧
        (∀ b ∈ before, b.met = true) ∧ c.met = false ∧ c.fault = e) ∧
    (f.constraints.entries.map fun e => Text.Utf8.encode e.1.toList).Pairwise (· < ·) ∧
    (f.check schema = .ok () → Statement.ofFilter schema f = .ok (f.pageStatement schema)) := by
  refine ⟨Filter.check_eq_ok_iff_isWellFormed, fun e => ?_, f.constraints.pairwise_encode_lt,
    fun h => ?_⟩
  · rw [Filter.check_eq_report, report_eq_error_iff]
  · rw [Statement.ofFilter, (Filter.check_eq_ok_iff.1 h).sortKeys_eq]
    rfl

/-- Of a filter with several faults the first one is reported: the range comes before the unknown
column, and both before the sort field. -/
theorem first_of_three_faults :
    let fine := Filter.ofSettings [.equals "name" (.text "Ann"), .orderBy ["-name"]]
    let faulty := Filter.ofSettings [.orderBy ["password"], .equals "zip" (.int (some 1)),
      .between "created_at" (some (.instant Instant.epoch)) (some (.instant (default : Instant)))]
    Statement.ofFilter Resource.user.schema fine = .ok (fine.pageStatement Resource.user.schema) ∧
      ∃ before c after, faulty.conditions Resource.user.schema = before ++ c :: after ∧
        (∀ b ∈ before, b.met = true) ∧ c.met = false ∧ c.fault = .invertedRange "created_at" := by
  intro fine faulty
  have hfine := check_reports_first_fault fine Resource.user.schema
  have hfaulty := check_reports_first_fault faulty Resource.user.schema
  exact ⟨hfine.2.2.2 (by decide), (hfaulty.2.1 _).1 (by decide)⟩

end MessageBoard
