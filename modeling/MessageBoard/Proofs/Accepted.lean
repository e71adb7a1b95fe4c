import MessageBoard.Proofs.Call

/-!
# Accepted filters

`Filter.Accepted` says what the check of a filter establishes: a page of a size there is,
constraints of filterable columns by values of their types, and sort fields that schema and safelist
both allow. The keys of an accepted filter are read off its sort fields, whatever the safelist was.
-/

namespace MessageBoard

namespace SortKey

theorem read_eq_ok_iff {safelist : List String} {raw : String} {key : SortKey} :
    read safelist raw = .ok key ↔ ofText raw = key ∧ key.column ≠ "" ∧ key.column ∈ safelist := by
  rw [read]
  by_cases h : (ofText raw).column ≠ "" ∧ (ofText raw).column ∈ safelist
  · rw [if_pos h, Except.ok.injEq]
    exact ⟨fun he => ⟨he, he ▸ h⟩, And.left⟩
  · rw [if_neg h]
    exact iff_of_false (fun he => by cases he) fun ⟨he, hc⟩ => h (he ▸ hc)

end SortKey

theorem sortKeys_eq_ok_iff {fields safelist : List String} {keys : List SortKey} :
    sortKeys fields safelist = .ok keys ↔ fields.map SortKey.ofText = keys ∧
      ∀ key ∈ keys, key.column ≠ "" ∧ key.column ∈ safelist := by
  induction fields generalizing keys with
  | nil =>
    rw [sortKeys, List.mapM_nil, List.map_nil]
    refine ⟨fun h => ?_, fun h => congrArg Except.ok h.1⟩
    obtain rfl := Except.ok.inj h
    exact ⟨rfl, fun key hk => absurd hk List.not_mem_nil⟩
  | cons raw rest ih =>
    have hcons : sortKeys (raw :: rest) safelist = (do
        let key ← SortKey.read safelist raw
        let keys ← sortKeys rest safelist
        return key :: keys) := by rw [sortKeys, List.mapM_cons]; rfl
    rw [hcons, List.map_cons]
    constructor
    · intro h
      cases hk : SortKey.read safelist raw with
      | error e => rw [hk] at h; cases h
      | ok key =>
        cases hks : sortKeys rest safelist with
        | error e => rw [hk, hks] at h; cases h
        | ok tail =>
          rw [hk, hks] at h
          obtain rfl := Except.ok.inj h
          obtain ⟨hkey, hok⟩ := SortKey.read_eq_ok_iff.1 hk
          obtain ⟨htail, hoks⟩ := ih.1 hks
          exact ⟨by rw [hkey, htail], List.forall_mem_cons.2 ⟨hok, hoks⟩⟩
    · rintro ⟨rfl, hall⟩
      obtain ⟨hok, hoks⟩ := List.forall_mem_cons.1 hall
      rw [SortKey.read_eq_ok_iff.2 ⟨rfl, hok⟩, ih.2 ⟨rfl, hoks⟩]
      rfl

theorem forM_eq_ok_iff {ε α : Type} {f : α → Except ε Unit} {l : List α} :
    l.forM f = .ok () ↔ ∀ a ∈ l, f a = .ok () := by
  induction l with
  | nil => exact ⟨fun _ a ha => absurd ha List.not_mem_nil, fun _ => rfl⟩
  | cons a l ih =>
    rw [List.forall_mem_cons, ← ih]
    have hcons : (a :: l).forM f = (do f a; l.forM f) := by
      rw [List.forM_eq_forM, List.forM_cons]
    rw [hcons]
    cases hf : f a with
    | error e => exact iff_of_false (fun h => by cases h) fun h => by cases h.1
    | ok _ => exact ⟨fun h => ⟨rfl, h⟩, fun h => h.2⟩

theorem forM_eq_error_iff {ε α : Type} {f : α → Except ε Unit} {l : List α} {e : ε} :
    l.forM f = .error e ↔ ∃ before a after, l = before ++ a :: after ∧
      (∀ b ∈ before, f b = .ok ()) ∧ f a = .error e := by
  induction l with
  | nil => exact iff_of_false nofun fun ⟨before, a, after, h, _⟩ => by simp at h
  | cons a l ih =>
    have hcons : (a :: l).forM f = (do f a; l.forM f) := by
      rw [List.forM_eq_forM, List.forM_cons]
    rw [hcons]
    simp only [List.cons_eq_append_iff]
    cases ha : f a with
    | error e' =>
      constructor
      · rintro ⟨⟩
        exact ⟨[], a, l, .inl ⟨rfl, rfl⟩, List.forall_mem_nil _, ha⟩
      · rintro ⟨before, b, after, ⟨rfl, h⟩ | ⟨rest, rfl, -⟩, hbefore, hb⟩
        · obtain ⟨rfl, -⟩ := List.cons.inj h
          exact congrArg Except.error (Except.error.inj (ha.symm.trans hb))
        · cases ha.symm.trans (hbefore a List.mem_cons_self)
    | ok _ =>
      refine Iff.trans ih ⟨?_, ?_⟩
      · rintro ⟨before, b, after, rfl, hbefore, hb⟩
        exact ⟨a :: before, b, after, .inr ⟨before, rfl, rfl⟩,
          List.forall_mem_cons.2 ⟨ha, hbefore⟩, hb⟩
      · rintro ⟨before, b, after, ⟨rfl, h⟩ | ⟨rest, rfl, rfl⟩, hbefore, hb⟩
        · obtain ⟨rfl, -⟩ := List.cons.inj h
          cases ha.symm.trans hb
        · exact ⟨rest, b, after, rfl, fun b hb => hbefore b (List.mem_cons_of_mem _ hb), hb⟩

namespace Filter

variable {f : Filter} {schema : TableSchema}

structure Accepted (f : Filter) (schema : TableSchema) : Prop where
  pageSize_ne : f.pageSize ≠ 0
  pageSize_le : f.pageSize ≤ maxPageSize
  entries : ∀ e ∈ f.constraints.entries, checkEntry schema e = .ok ()
  keys : ∀ key ∈ f.orderBy.map SortKey.ofText,
    key.column ≠ "" ∧ key.column ∈ f.safelistFor schema

theorem sortKeys_of_keys (h : ∀ key ∈ f.orderBy.map SortKey.ofText,
    key.column ≠ "" ∧ key.column ∈ f.safelistFor schema) :
    f.sortKeys schema = .ok (f.orderBy.map SortKey.ofText) :=
  sortKeys_eq_ok_iff.2 ⟨rfl, h⟩

theorem check_eq_ok_iff : f.check schema = .ok () ↔ f.Accepted schema := by
  rw [check]
  by_cases hp : f.pageSize = 0 ∨ maxPageSize < f.pageSize
  · rw [if_pos hp]
    refine iff_of_false (fun h => by cases h) fun h => ?_
    rcases hp with hp | hp
    · exact absurd hp h.pageSize_ne
    · exact absurd hp (UInt32.not_lt.2 h.pageSize_le)
  · rw [if_neg hp]
    obtain ⟨hne, hle⟩ := not_or.1 hp
    cases he : f.constraints.entries.forM (checkEntry schema) with
    | error e =>
      refine iff_of_false (fun h => by cases h) fun h => ?_
      rw [forM_eq_ok_iff.2 h.entries] at he
      cases he
    | ok _ =>
      cases hk : f.sortKeys schema with
      | error e =>
        refine iff_of_false (fun h => by cases h) fun h => ?_
        rw [sortKeys_of_keys h.keys] at hk
        cases hk
      | ok keys =>
        obtain ⟨rfl, hkeys⟩ := sortKeys_eq_ok_iff.1 hk
        exact ⟨fun _ => ⟨hne, UInt32.not_lt.1 hle, forM_eq_ok_iff.1 he, hkeys⟩, fun _ => rfl⟩

theorem mem_filterable_of_checkEntry {e : String × Constraint}
    (h : checkEntry schema e = .ok ()) : ∃ column ∈ schema.filterable, column.name = e.1 := by
  rw [checkEntry, TableSchema.column?] at h
  cases hf : schema.filterable.find? (·.name == e.1) with
  | none => rw [hf] at h; cases h
  | some column =>
    exact ⟨column, List.mem_of_find?_eq_some hf, by simpa using List.find?_some hf⟩

namespace Accepted

theorem sortKeys_eq (h : f.Accepted schema) :
    f.sortKeys schema = .ok (f.orderBy.map SortKey.ofText) :=
  sortKeys_of_keys h.keys

theorem mem_sortable (h : f.Accepted schema) {key : SortKey}
    (hk : key ∈ f.orderBy.map SortKey.ofText) : key.column ∈ schema.sortable :=
  (List.mem_filter.1 (h.keys key hk).2).1

end Accepted

/-- The page that an accepted filter asks for. -/
def pageStatement (f : Filter) (schema : TableSchema) : Statement :=
  .page schema f.lastSeen f.tests (f.orderBy.map SortKey.ofText) (.ofNat (f.pageSize.toNat + 1))

end Filter

namespace Call

variable {r : Resource} {f : Filter}

theorem plan_list_eq_ok_iff_accepted {p : Plan (Page r.Record)} :
    plan (list r f) = .ok p ↔
      f.Accepted r.schema ∧ listPlan r f (f.pageStatement r.schema) = p := by
  rw [plan_list_eq_ok_iff, Filter.check_eq_ok_iff]
  refine and_congr_right fun h => ?_
  rw [Statement.ofFilter, h.sortKeys_eq]
  constructor
  · rintro ⟨s, hs, hp⟩
    obtain rfl := Except.ok.inj hs
    exact hp
  · exact fun hp => ⟨_, rfl, hp⟩

theorem plan_count_eq_ok_iff_accepted {p : Plan Int64} :
    plan (count r f) = .ok p ↔ f.Accepted r.schema ∧
      .plain (.countOf r.schema f) (Rows.first .noRow (·.number? 0)) = p := by
  rw [plan_count_eq_ok_iff, Filter.check_eq_ok_iff]

end Call

end MessageBoard
