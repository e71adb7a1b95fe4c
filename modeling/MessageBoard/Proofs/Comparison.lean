import Mathlib
import MessageBoard.Proofs.Serving
import MessageBoard.Proofs.Walk

/-!
# Comparing values

Two values can be compared if they are of one type and neither is null. Where the store tells all
texts apart, they compare equal only if they are equal.
-/

namespace MessageBoard

open Std

/-! ## The order of instants -/

theorem Date.day_lt (d : Date) : d.day < 32 := by
  have hday := d.day_mem.2
  have hmonth : daysIn d.year d.month ≤ 31 := by
    unfold daysIn
    split
    · split <;> omega
    all_goals omega
  omega

theorem Instant.rank_inj {t u : Instant} : t.rank = u.rank ↔ t = u := by
  refine ⟨fun h => ?_, fun h => h ▸ rfl⟩
  have hmonth := t.date.month_mem.2
  have hmonth' := u.date.month_mem.2
  have hday := t.date.day_lt
  have hday' := u.date.day_lt
  have hsecond : nanosPerSecond = 1000000000 := rfl
  obtain ⟨⟨year, month, day, _, _, _⟩, ⟨hour, minute, second, nano, hh, hm, hs, hn, _⟩⟩ := t
  obtain ⟨⟨year', month', day', _, _, _⟩,
    ⟨hour', minute', second', nano', hh', hm', hs', hn', _⟩⟩ := u
  simp only [rank] at *
  obtain ⟨rfl, rfl, rfl, rfl, rfl, rfl, rfl⟩ : year = year' ∧ month = month' ∧ day = day' ∧
      hour = hour' ∧ minute = minute' ∧ second = second' ∧ nano = nano' := by
    omega
  rfl

/-! ## Comparing values of one type -/

instance : LawfulEqOrd Uuid where
  compare_self := compare_self (α := Nat)
  eq_of_compare h := Uuid.rank_inj.1 (LawfulEqOrd.eq_of_compare h)

instance : LawfulEqOrd Instant where
  compare_self := compare_self (α := Int)
  eq_of_compare h := Instant.rank_inj.1 (LawfulEqOrd.eq_of_compare h)

variable {collate : Collation}

instance ColumnType.lawfulEqCmp_collated [LawfulEqCmp collate] (t : ColumnType) :
    LawfulEqCmp (t.collated collate) := by
  cases t <;> simp only [collated] <;> infer_instance

namespace Value

variable {v w : Value}

theorem exists_eq_value (v : Value) : ∃ (t : ColumnType) (c : Option t.Content), v = t.value c := by
  cases v with
  | uuid c => exact ⟨.uuid, c, rfl⟩
  | text c => exact ⟨.text, c, rfl⟩
  | flag c => exact ⟨.flag, c, rfl⟩
  | instant c => exact ⟨.instant, c, rfl⟩
  | int c => exact ⟨.int, c, rfl⟩

theorem type_value (t : ColumnType) (c : Option t.Content) : (t.value c).type = t := by
  cases t <;> rfl

theorem isNull_value (t : ColumnType) (c : Option t.Content) :
    (t.value c).isNull = c.isNone := by
  cases t <;> rfl

theorem type_stored (v : Value) : v.stored.type = v.type := by
  cases v with
  | instant t => cases t <;> rfl
  | _ => rfl

theorem isNull_stored (v : Value) : v.stored.isNull = v.isNull := by
  cases v with
  | instant t => cases t <;> rfl
  | _ => rfl

theorem collated_value (t : ColumnType) (a b : Option t.Content) :
    (t.value a).collated collate (t.value b) =
      a.bind fun a => b.map (t.collated collate a) := by
  cases t <;> cases a <;> cases b <;> rfl

theorem collated_eq_none_of_type_ne (h : v.type ≠ w.type) : v.collated collate w = none := by
  cases v with
  | _ c => cases w <;> first | exact absurd rfl h | (cases c <;> rfl)

/-- What can be compared: present values of one type. -/
theorem isSome_collated_iff :
    (v.collated collate w).isSome ↔ v.type = w.type ∧ v.isNull = false ∧ w.isNull = false := by
  obtain ⟨t, a, rfl⟩ := v.exists_eq_value
  obtain ⟨u, b, rfl⟩ := w.exists_eq_value
  by_cases ht : t = u
  · subst ht
    rw [collated_value, isNull_value, isNull_value, type_value, type_value]
    cases a <;> cases b <;> simp
  · have hne : (t.value a).type ≠ (u.value b).type := by rwa [type_value, type_value]
    rw [collated_eq_none_of_type_ne hne]
    exact iff_of_false Bool.false_ne_true fun h => hne h.1

theorem collated_eq_some_eq_iff [LawfulEqCmp collate] :
    v.collated collate w = some .eq ↔ v = w ∧ v.isNull = false := by
  obtain ⟨t, a, rfl⟩ := v.exists_eq_value
  constructor
  · intro h
    obtain ⟨ht, hv, -⟩ := isSome_collated_iff.1 (Option.isSome_of_mem h)
    obtain ⟨u, b, rfl⟩ := w.exists_eq_value
    rw [type_value, type_value] at ht
    subst ht
    rw [collated_value] at h
    obtain ⟨x, rfl, hx⟩ := Option.bind_eq_some_iff.1 h
    obtain ⟨y, rfl, hxy⟩ := Option.map_eq_some_iff.1 hx
    obtain rfl := LawfulEqCmp.eq_of_compare hxy
    exact ⟨rfl, hv⟩
  · rintro ⟨rfl, hv⟩
    rw [isNull_value] at hv
    cases a with
    | none => cases hv
    | some x =>
      rw [collated_value]
      exact congrArg some ReflCmp.compare_self

end Value

end MessageBoard
