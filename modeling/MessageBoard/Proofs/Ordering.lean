import Mathlib
import MessageBoard.Proofs.Absence
import MessageBoard.Proofs.Accepted

/-!
# The order of values

The values of one type that are not null are in a linear order, that of their contents, and nothing
else can be compared. A null is equal to itself, but it does not compare with itself: on everything
else, to compare equal is to be equal.

A range is turned down for its ends only if both of them are such values of the type of its column,
the upper one before the lower.
-/

namespace MessageBoard

open Std

namespace Value

variable {a b c v w : Value}

instance : LT Value := ⟨fun v w => v.compare? w = some .lt⟩

instance : LE Value := ⟨fun v w => (v.compare? w).any Ordering.isLE = true⟩

instance (v w : Value) : Decidable (v < w) := inferInstanceAs (Decidable (_ = _))

instance (v w : Value) : Decidable (v ≤ w) := inferInstanceAs (Decidable (_ = _))

theorem exists_content {t : ColumnType} (ht : v.type = t) (h : v.isNull = false) :
    ∃ x : t.Content, v = t.value (some x) := by
  obtain ⟨u, content, rfl⟩ := v.exists_eq_value
  rw [type_value] at ht
  subst ht
  rw [isNull_value] at h
  obtain ⟨x, rfl⟩ := Option.isSome_iff_exists.1 (Option.isNone_eq_false_iff.1 h)
  exact ⟨x, rfl⟩

theorem compare?_value (t : ColumnType) (x y : t.Content) :
    (t.value (some x)).compare? (t.value (some y)) = some (t.collated compare x y) := by
  rw [← collated_compare, collated_value]
  rfl

theorem exists_contents (h : (v.compare? w).isSome) :
    ∃ (t : ColumnType) (x y : t.Content), v = t.value (some x) ∧ w = t.value (some y) := by
  obtain ⟨ht, hv, hw⟩ := isSome_compare?_iff.1 h
  obtain ⟨x, hx⟩ := exists_content ht hv
  obtain ⟨y, hy⟩ := exists_content rfl hw
  exact ⟨w.type, x, y, hx, hy⟩

/-- Whatever compares with a value that compares with a third one is of the type of both. -/
theorem exists_three_contents (h : (a.compare? b).isSome) (h' : (b.compare? c).isSome) :
    ∃ (t : ColumnType) (x y z : t.Content),
      a = t.value (some x) ∧ b = t.value (some y) ∧ c = t.value (some z) := by
  obtain ⟨t, x, y, rfl, rfl⟩ := exists_contents h
  obtain ⟨ht, -, hc⟩ := isSome_compare?_iff.1 h'
  obtain ⟨z, rfl⟩ := exists_content (ht.symm.trans (type_value t _)) hc
  exact ⟨t, x, y, z, rfl, rfl, rfl⟩

theorem compare?_swap (v w : Value) : w.compare? v = (v.compare? w).map Ordering.swap := by
  by_cases h : (v.compare? w).isSome
  · obtain ⟨t, x, y, rfl, rfl⟩ := exists_contents h
    rw [compare?_value, compare?_value, Option.map_some]
    exact congrArg some OrientedCmp.eq_swap
  · have h' : ¬ (w.compare? v).isSome := fun hw => h <| by
      obtain ⟨ht, hw, hv⟩ := isSome_compare?_iff.1 hw
      exact isSome_compare?_iff.2 ⟨ht.symm, hv, hw⟩
    rw [Option.not_isSome_iff_eq_none.1 h, Option.not_isSome_iff_eq_none.1 h', Option.map_none]

theorem compare?_eq_gt_iff : v.compare? w = some .gt ↔ w < v := by
  change _ ↔ w.compare? v = some .lt
  rw [compare?_swap w v, Option.map_eq_some_iff]
  constructor
  · rintro ⟨o, ho, hswap⟩
    cases o <;> first | exact ho | cases hswap
  · intro h
    exact ⟨.lt, h, rfl⟩

theorem isSome_of_lt (h : v < w) : (v.compare? w).isSome := Option.isSome_of_mem h

theorem isSome_of_le (h : v ≤ w) : (v.compare? w).isSome := by
  obtain ⟨o, ho, -⟩ := (Option.any_eq_true _ _).1 h
  exact Option.isSome_of_mem ho

theorem lt_trans (h : a < b) (h' : b < c) : a < c := by
  obtain ⟨t, x, y, z, rfl, rfl, rfl⟩ := exists_three_contents (isSome_of_lt h) (isSome_of_lt h')
  change _ = _ at h h' ⊢
  rw [compare?_value] at h h' ⊢
  exact congrArg some (TransCmp.lt_trans (Option.some.inj h) (Option.some.inj h'))

theorem le_trans (h : a ≤ b) (h' : b ≤ c) : a ≤ c := by
  obtain ⟨t, x, y, z, rfl, rfl, rfl⟩ := exists_three_contents (isSome_of_le h) (isSome_of_le h')
  change _ = true at h h' ⊢
  rw [compare?_value, Option.any_some] at h h' ⊢
  exact TransCmp.isLE_trans h h'

theorem compare?_eq_eq_iff : v.compare? w = some .eq ↔ v = w ∧ v.isNull = false := by
  rw [← collated_compare, collated_eq_some_eq_iff]

theorem text_lt_iff {s t : String} : Value.text (some s) < .text (some t) ↔
    Text.Utf8.encode s.toList < Text.Utf8.encode t.toList := by
  have hlt : Value.text (some s) < .text (some t) ↔ compare s t = .lt := Option.some_inj
  rw [hlt, Text.Utf8.encode_lt_iff, ← String.lt_iff]
  exact compare_lt_iff_lt

end Value

/-! ## Ends of ranges in the wrong order -/

theorem Constraint.isInverted_iff {c : Constraint} : c.isInverted = true ↔
    ∃ lower upper, c = .between (some lower) (some upper) ∧ upper < lower := by
  simp only [← Value.compare?_eq_gt_iff]
  cases c with
  | equals v => simp [isInverted]
  | between lower upper => cases lower <;> cases upper <;> simp [isInverted]

namespace Filter

variable {f : Filter} {schema : TableSchema} {column : String}

/-- The order of the ends is the last thing that is asked of a range. -/
theorem checkEntry_eq_invertedRange_iff {entry : String × Constraint} :
    checkEntry schema entry = .error (.invertedRange column) ↔
      ∃ lower upper, entry = (column, .between (some lower) (some upper)) ∧
        schema.column? column = some lower.type ∧ lower.type = upper.type ∧ upper < lower := by
  obtain ⟨name, c⟩ := entry
  have hlast : report [⟨!c.isInverted, .invertedRange name⟩] = .error (.invertedRange column) ↔
      name = column ∧ c.isInverted = true := by
    cases c.isInverted <;> simp [report]
  have hother {c' : Condition} (hc : c' ∈ (⟨(schema.column? name).isSome,
        .unknownColumn schema.resource name⟩ :: ⟨c.operands ≠ [], .emptyRange name⟩ ::
        ((schema.column? name).toList.flatMap fun expected =>
          c.operands.map (typeCondition name expected)) : List Condition)) :
      c'.fault ≠ .invertedRange column := by
    simp only [List.mem_cons, List.mem_flatMap, List.mem_map] at hc
    rcases hc with rfl | rfl | ⟨expected, -, v, -, rfl⟩ <;> simp [typeCondition]
  rw [checkEntry_eq_report, entryConditions, report_append_eq_error_iff,
    or_iff_right (report_ne_error fun _ => hother), hlast, Constraint.isInverted_iff,
    report_eq_ok_iff]
  cases hcolumn : schema.column? name with
  | none =>
    refine iff_of_false (fun h => ?_) ?_
    · exact Bool.false_ne_true (h.1 _ List.mem_cons_self)
    · rintro ⟨lower, upper, ⟨⟩, h, -⟩
      rw [hcolumn] at h
      cases h
  | some expected =>
    simp only [Option.isSome_some, Option.toList_some, List.flatMap_singleton,
      List.forall_mem_cons, List.forall_mem_map, typeCondition, decide_eq_true_eq, true_and]
    constructor
    · rintro ⟨⟨-, htyped⟩, rfl, lower, upper, rfl, hlt⟩
      have hlower : lower.type = expected := htyped lower (by simp [Constraint.operands])
      have hupper : upper.type = expected := htyped upper (by simp [Constraint.operands])
      exact ⟨lower, upper, rfl, by rw [hcolumn, hlower], hlower.trans hupper.symm, hlt⟩
    · rintro ⟨lower, upper, ⟨⟩, h, htype, hlt⟩
      rw [hcolumn] at h
      obtain rfl := Option.some.inj h
      exact ⟨⟨by simp [Constraint.operands], by simp [Constraint.operands, htype]⟩,
        rfl, lower, upper, rfl, hlt⟩

theorem check_eq_invertedRange_iff : f.check schema = .error (.invertedRange column) ↔
    (1 ≤ f.pageSize.toNat ∧ f.pageSize.toNat ≤ 1000) ∧
      f.constraints.entries.forM (checkEntry schema) = .error (.invertedRange column) := by
  have hsize : ∀ c ∈ [(⟨1 ≤ f.pageSize.toNat ∧ f.pageSize.toNat ≤ 1000,
      .pageSize f.pageSize maxPageSize⟩ : Condition)], c.fault ≠ .invertedRange column := by
    simp
  have hsort : ∀ c ∈ f.orderBy.map fun raw =>
      (⟨f.MaySortBy schema raw, .unsortableField raw⟩ : Condition),
      c.fault ≠ .invertedRange column := by
    simp
  rw [check_eq_report, conditions, ← List.singleton_append, report_append_eq_error_iff,
    or_iff_left fun h => report_ne_error hsort h.2, report_append_eq_error_iff,
    or_iff_right (report_ne_error hsize), report_eq_ok_iff, report_flatMap,
    funext (checkEntry_eq_report schema)]
  simp

end Filter

/-- Every value is a content of one type or null. Contents of one type are in a linear order, texts
in that of their bytes, and nothing else compares. What compares as equal is what is equal and not
null. The check of a filter complains of the order of two ends exactly if the ends are contents of
the type of the column, the upper one less than the lower, and nothing is wrong before that. -/
theorem contents_of_one_type_ordered (a b c : Value) (s t : String) (f : Filter)
    (schema : TableSchema) (column : String) :
    b.compare? a = (a.compare? b).map Ordering.swap ∧
      (a < b → b < c → a < c) ∧ (a ≤ b → b ≤ c → a ≤ c) ∧
      (a.compare? b = some .eq ↔ a = b ∧ a.isNull = false) ∧
      ((a.compare? b).isSome ↔ a.type = b.type ∧ a.isNull = false ∧ b.isNull = false) ∧
      (Value.text (some s) < .text (some t) ↔
        Text.Utf8.encode s.toList < Text.Utf8.encode t.toList) ∧
      (f.check schema = .error (.invertedRange column) ↔
        (1 ≤ f.pageSize.toNat ∧ f.pageSize.toNat ≤ 1000) ∧
          ∃ before lower upper after, f.constraints.entries =
              before ++ (column, .between (some lower) (some upper)) :: after ∧
            (∀ e ∈ before, Filter.checkEntry schema e = .ok ()) ∧
            schema.column? column = some lower.type ∧ lower.type = upper.type ∧
            lower.isNull = false ∧ upper.isNull = false ∧ upper < lower) := by
  refine ⟨Value.compare?_swap a b, Value.lt_trans, Value.le_trans, Value.compare?_eq_eq_iff,
    Value.isSome_compare?_iff, Value.text_lt_iff, ?_⟩
  rw [Filter.check_eq_invertedRange_iff, forM_eq_error_iff]
  refine and_congr_right fun _ => ?_
  simp only [Filter.checkEntry_eq_invertedRange_iff]
  constructor
  · rintro ⟨before, e, after, hentries, hbefore, lower, upper, rfl, hcolumn, htype, hlt⟩
    obtain ⟨-, hupper, hlower⟩ := Value.isSome_compare?_iff.1 (Value.isSome_of_lt hlt)
    exact ⟨before, lower, upper, after, hentries, hbefore, hcolumn, htype, hlower, hupper, hlt⟩
  · rintro ⟨before, lower, upper, after, hentries, hbefore, hcolumn, htype, -, -, hlt⟩
    exact ⟨before, _, after, hentries, hbefore, lower, upper, rfl, hcolumn, htype, hlt⟩

theorem names_from_last_to_first :
    let first : Value := .text (some "Ann")
    let middle : Value := .text (some "Zoe")
    let last : Value := .text (some "Élise")
    let f := Filter.ofSettings [.between "name" (some last) (some first)]
    first < middle ∧ middle < last ∧ first < last ∧ first ≤ last ∧
      f.check Resource.user.schema = .error (.invertedRange "name") := by
  intro first middle last f
  obtain ⟨-, hlt, hle, -, -, -, hcheck⟩ :=
    contents_of_one_type_ordered first middle last "Ann" "Élise" f Resource.user.schema "name"
  have hmiddle : first < middle := by decide
  have hlast : middle < last := by decide
  have hends : first < last := hlt hmiddle hlast
  refine ⟨hmiddle, hlast, hends, hle (by decide) (by decide), hcheck.2 ⟨by decide, ?_⟩⟩
  exact ⟨[], last, first, [], rfl, List.forall_mem_nil _, rfl, rfl, rfl, rfl, hends⟩

theorem null_not_compared_with_itself :
    ¬ ((Value.text none).compare? (.text none) = some .eq ↔ Value.text none = .text none) := by
  decide

end MessageBoard
