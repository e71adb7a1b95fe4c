import MessageBoard.Proofs.Predicate
import MessageBoard.Proofs.Validity

/-!
# Nulls in filters

A filter can ask a column to be null, and an end of a range can be the null of its type. The first
is a test without a value. The second is an end like any other: the check of the filter takes it for
one, and the statement compares the column with it. Nothing compares with a null, so a range with
such an end lets no value through, whatever its other end is.

These ends are the only nulls that listings and counts send: `Filter.exists_isNull_values_iff`. A
range of an accepted filter that has none of them lets some value through, as `exists_within` says.
-/

namespace MessageBoard

open Std

variable {collate : Collation}

namespace Constraint

variable {c : Constraint}

def hasNullEnd : Constraint → Bool
  | equals _ => false
  | between lower upper => lower.any Value.isNull || upper.any Value.isNull

theorem exists_isNull_values_iff :
    (∃ b ∈ c.values, b.isNull = true) ↔ c.hasNullEnd = true := by
  cases c with
  | equals v =>
    refine iff_of_false ?_ Bool.false_ne_true
    rintro ⟨b, hb, hnull⟩
    rw [values] at hb
    by_cases hv : v.isNull = true
    · rw [if_pos hv] at hb
      cases hb
    · rw [if_neg hv] at hb
      obtain rfl := List.mem_singleton.1 hb
      exact hv hnull
  | between lower upper =>
    rw [values, hasNullEnd, Bool.or_eq_true]
    cases lower <;> cases upper <;> simp [Bind.isNull]

theorem not_admits_of_hasNullEnd (h : c.hasNullEnd = true) (value? : Option Value) :
    ¬ c.Admits collate value? := by
  have hnone {w : Value} (hw : w.isNull = true) :
      value?.bind (·.collated collate w.stored) = none := by
    refine Option.bind_eq_none_iff.2 fun v _ => Option.not_isSome_iff_eq_none.1 fun hsome => ?_
    have hpresent := (Value.isSome_collated_iff.1 hsome).2.2
    rw [Value.isNull_stored, hw] at hpresent
    cases hpresent
  cases c with
  | equals v => cases h
  | between lower upper =>
    rw [hasNullEnd, Bool.or_eq_true, Option.any_eq_true, Option.any_eq_true] at h
    rintro ⟨hlower, hupper⟩
    rcases h with ⟨w, rfl, hw⟩ | ⟨w, rfl, hw⟩
    · rw [Option.all_some, hnone hw] at hlower
      cases hlower
    · rw [Option.all_some, hnone hw] at hupper
      cases hupper

end Constraint

/-! ## Values within a range -/

namespace Value

variable {v w : Value}

theorem collated_compare : v.collated compare w = v.compare? w := by
  unfold collated
  split <;> rfl

theorem isSome_compare?_iff :
    (v.compare? w).isSome ↔ v.type = w.type ∧ v.isNull = false ∧ w.isNull = false := by
  rw [← collated_compare, isSome_collated_iff]

theorem compare?_self (h : v.isNull = false) : v.compare? v = some .eq := by
  rw [← collated_compare, collated_eq_some_eq_iff]
  exact ⟨rfl, h⟩

/-- The value lies between the ends, as far as they are given. -/
def Within (v : Value) (lower upper : Option Value) : Prop :=
  (∀ w ∈ lower, (v.compare? w).any Ordering.isGE = true) ∧
    ∀ w ∈ upper, (v.compare? w).any Ordering.isLE = true

theorem hasNullEnd_eq_false_of_within {lower upper : Option Value} (h : v.Within lower upper) :
    (Constraint.between lower upper).hasNullEnd = false := by
  have hpresent {w : Value} {accepts : Ordering → Bool}
      (h : (v.compare? w).any accepts = true) : w.isNull = false := by
    obtain ⟨o, ho, -⟩ := Option.any_eq_true _ _ |>.1 h
    exact (isSome_compare?_iff.1 (Option.isSome_of_mem ho)).2.2
  rw [Constraint.hasNullEnd, Bool.or_eq_false_iff, Option.any_eq_false, Option.any_eq_false]
  exact ⟨fun w hw => hpresent (h.1 w hw), fun w hw => hpresent (h.2 w hw)⟩

theorem exists_within {lower upper : Option Value} {expected : ColumnType}
    (hbounded : Constraint.between lower upper ≠ .between none none)
    (htyped : ∀ w ∈ (Constraint.between lower upper).operands, w.type = expected)
    (hupright : ∀ a b, Constraint.between lower upper = .between (some a) (some b) →
      a.compare? b ≠ some .gt)
    (h : (Constraint.between lower upper).hasNullEnd = false) :
    ∃ v ∈ (Constraint.between lower upper).operands, v.isNull = false ∧ v.Within lower upper := by
  have hself {w : Value} (hw : w.isNull = false) {accepts : Ordering → Bool}
      (haccepts : accepts .eq = true) : (w.compare? w).any accepts = true := by
    rw [compare?_self hw, Option.any_some, haccepts]
  rw [Constraint.hasNullEnd, Bool.or_eq_false_iff, Option.any_eq_false, Option.any_eq_false] at h
  obtain ⟨hlower, hupper⟩ := h
  cases lower with
  | none =>
    cases upper with
    | none => exact absurd rfl hbounded
    | some b =>
      refine ⟨b, List.mem_singleton_self b, hupper b rfl, (fun w hw => by cases hw), ?_⟩
      rintro w ⟨⟩
      exact hself (hupper b rfl) rfl
  | some a =>
    refine ⟨a, List.mem_cons_self, hlower a rfl, ?_, fun b hb => ?_⟩
    · rintro w ⟨⟩
      exact hself (hlower a rfl) rfl
    · obtain rfl := Option.mem_def.1 hb
      have htype : a.type = b.type := (htyped a (by simp [Constraint.operands])).trans
        (htyped b (by simp [Constraint.operands])).symm
      obtain ⟨o, ho⟩ := Option.isSome_iff_exists.1
        (isSome_compare?_iff.2 ⟨htype, hlower a rfl, hupper b rfl⟩)
      have hne : o ≠ .gt := fun h => hupright a b rfl (h ▸ ho)
      rw [ho, Option.any_some]
      cases o with
      | gt => exact absurd rfl hne
      | _ => rfl

end Value

/-! ## What filters send -/

namespace Filter

variable {f : Filter} {schema : TableSchema}

theorem exists_isNull_values_iff : (∃ b ∈ f.values, b.isNull = true) ↔
    ∃ e ∈ f.constraints.entries, e.2.hasNullEnd = true := by
  simp only [values, List.mem_flatMap, ← Constraint.exists_isNull_values_iff]
  constructor
  · rintro ⟨b, ⟨e, he, hb⟩, hnull⟩
    exact ⟨e, he, b, hb, hnull⟩
  · rintro ⟨e, he, b, hb, hnull⟩
    exact ⟨b, ⟨e, he, hb⟩, hnull⟩

theorem not_admits_of_hasNullEnd {e : String × Constraint} (he : e ∈ f.constraints.entries)
    (h : e.2.hasNullEnd = true) (value? : String → Option Value) : ¬ f.Admits collate value? :=
  fun hadmits => Constraint.not_admits_of_hasNullEnd h (value? e.1) (hadmits e he)

theorem isNull_mem_tests {column : String} {v : Value}
    (h : (column, .equals v) ∈ f.constraints.entries) (hv : v.isNull = true) :
    Test.isNull column ∈ f.tests := by
  have htests : (Constraint.equals v).tests column = [.isNull column] := if_pos hv
  exact List.mem_flatMap.2 ⟨_, h, by simp only [htests, List.mem_singleton]⟩

end Filter

/-- Of what an accepted filter has listings and counts send, the ends of its ranges are the only
nulls: a column that is asked to be null is tested without a value. A range without null ends has an
end that is not null and some value of the type of its column within it. A null end is compared with
nevertheless, as if it were given, and neither a listing nor a count then selects any row. -/
theorem nulls_sent_are_ends_of_ranges {f : Filter} {schema : TableSchema}
    (h : f.check schema = .ok ()) :
    (Statement.countOf schema f).sql.binds = f.values ∧
    (∃ statement limit, Statement.ofFilter schema f = .ok statement ∧
      statement.sql.binds = .ofId f.lastSeen :: f.values ++ [.value (.int (some limit))]) ∧
    ((∃ b ∈ f.values, b.isNull = true) ↔ ∃ e ∈ f.constraints.entries, e.2.hasNullEnd = true) ∧
    (∀ column v, (column, .equals v) ∈ f.constraints.entries → v.isNull = true →
      .isNull column ∈ f.tests ∧ (Constraint.equals v).values = []) ∧
    (∀ column lower upper, (column, .between lower upper) ∈ f.constraints.entries →
      ∃ expected, schema.column? column = some expected ∧
        if (Constraint.between lower upper).hasNullEnd then
          ∀ v : Value, ¬ v.Within lower upper
        else
          ∃ v ∈ (Constraint.between lower upper).operands,
            v.type = expected ∧ v.isNull = false ∧ v.Within lower upper) ∧
    ((∃ e ∈ f.constraints.entries, e.2.hasNullEnd = true) →
      ∀ (collate : Collation) (value? : String → Option Value),
        ¬ Where.Selects collate f.values value? (.always :: f.predicate) ∧
        ∀ (id : Uuid) (limit : Bind), value? "id" = some (.uuid (some id)) →
          ¬ Where.Selects collate (.ofId f.lastSeen :: f.values ++ [limit]) value?
            (.above "id" 1 :: f.predicate.map Conjunct.raised)) := by
  have hformed := Filter.check_eq_ok_iff_isWellFormed.1 h
  have halike := Filter.selectsAlike h
  refine ⟨by rw [halike.count], ?_, Filter.exists_isNull_values_iff, fun column v hv hnull => ?_,
    fun column lower upper hrange => ?_, ?_⟩
  · obtain ⟨statement, clause, limit, hstatement, -, hsql⟩ := halike.page
    exact ⟨statement, limit, hstatement, by rw [hsql]⟩
  · exact ⟨Filter.isNull_mem_tests hv hnull, if_pos hnull⟩
  · obtain ⟨expected, hcolumn, htyped⟩ := hformed.typed _ hrange
    refine ⟨expected, hcolumn, ?_⟩
    split
    · rename_i hnull
      intro v hv
      rw [v.hasNullEnd_eq_false_of_within hv] at hnull
      cases hnull
    · rename_i hnull
      obtain ⟨v, hv, hpresent, hwithin⟩ := Value.exists_within (hformed.bounded _ hrange) htyped
        (fun a b => hformed.upright _ hrange a b) (Bool.not_eq_true _ ▸ hnull)
      exact ⟨v, hv, htyped v hv, hpresent, hwithin⟩
  · rintro ⟨e, he, hnull⟩ collate value?
    refine ⟨?_, fun id limit hid => ?_⟩
    · rw [Filter.selects_count_iff]
      exact Filter.not_admits_of_hasNullEnd he hnull value?
    · rw [Filter.selects_page_iff hid]
      exact fun hselects => Filter.not_admits_of_hasNullEnd he hnull value? hselects.1

/-- Of the users who were never deleted a range of times is let through, and none if one end of the
range is a null. -/
theorem ends_of_user_filters :
    let never : Filter.Setting := .equals "deleted_at" (.instant none)
    let since : Value := .instant Instant.epoch
    let fine := Filter.ofSettings [never, .between "created_at" (some since) none]
    let faulty := Filter.ofSettings
      [never, .between "created_at" (some since) (some (.instant none))]
    fine.check User.schema = .ok () ∧ faulty.check User.schema = .ok () ∧
      (¬ ∃ b ∈ fine.values, b.isNull = true) ∧ (∃ b ∈ faulty.values, b.isNull = true) ∧
      ∀ (collate : Collation) (value? : String → Option Value),
        ¬ Where.Selects collate faulty.values value? (.always :: faulty.predicate) := by
  intro never since fine faulty
  have hfine : fine.check User.schema = .ok () := by decide
  have hfaulty : faulty.check User.schema = .ok () := by decide
  obtain ⟨-, -, hnulls, -⟩ := nulls_sent_are_ends_of_ranges hfine
  obtain ⟨-, -, hnulls', -, -, hnone⟩ := nulls_sent_are_ends_of_ranges hfaulty
  have hends : ∃ e ∈ faulty.constraints.entries, e.2.hasNullEnd = true := by decide
  refine ⟨hfine, hfaulty, mt hnulls.1 (by decide), hnulls'.2 hends, fun collate value? => ?_⟩
  exact (hnone hends collate value?).1

/-- A range whose only end is a null is accepted, and its null is sent. -/
theorem null_end_accepted_and_sent :
    let f := Filter.ofSettings [.between "created_at" (some (.instant none)) none]
    f.check User.schema = .ok () ∧
      (∃ b ∈ (Statement.countOf User.schema f).sql.binds, b.isNull = true) ∧
      ∀ v : Value, ¬ v.Within (some (.instant none)) none := by
  intro f
  refine ⟨by decide, ⟨.value (.instant none), by decide, rfl⟩, fun v hv => ?_⟩
  cases v.hasNullEnd_eq_false_of_within hv

end MessageBoard
