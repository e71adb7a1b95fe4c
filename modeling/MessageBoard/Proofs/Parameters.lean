import Mathlib
import MessageBoard.Filter.Params
import MessageBoard.Proofs.Faults

/-!
# Filters asked for by parameters

The filter of the parameters constrains the columns that they supply and no other: fourteen columns
that must equal a value, and three that must lie in a range. What they supply is never absent and of
the type of its column in every table that has the column, so the only faults that such a filter can
have are those of what was supplied.
-/

namespace MessageBoard

/-! ## Sort fields in a text -/

/-- The sort fields of a text are its parts between commas without the blanks around them, except
where nothing is left. -/
def SortFields (s : String) (fields : List String) : Prop :=
  ∃ parts : List String, parts ≠ [] ∧ (∀ part ∈ parts, ',' ∉ part.toList) ∧
    ",".intercalate parts = s ∧ fields = (parts.map Text.trim).filter (· ≠ "")

theorem sortFields_spec (s : String) : SortFields s (FilterParams.sortFields s) := by
  refine ⟨(Text.pieces ',' s.toList).map .ofList, ?_, ?_, ?_, ?_⟩
  · exact fun h => Text.pieces_ne_nil ',' s.toList (List.map_eq_nil_iff.1 h)
  · rw [List.forall_mem_map]
    intro part hpart
    rw [String.toList_ofList]
    exact Text.notMem_of_mem_pieces hpart
  · apply String.toList_injective
    have hid : String.toList ∘ String.ofList = id := funext fun _ => String.toList_ofList
    rw [String.toList_intercalate, List.map_map, hid, List.map_id]
    exact Text.intercalate_pieces ',' s.toList
  · rw [FilterParams.sortFields]
    generalize Text.pieces ',' s.toList = parts
    induction parts with
    | nil => rfl
    | cons part parts ih =>
      have htrim : Text.trim (.ofList part) = .ofList (Text.trimChars part) := by
        rw [Text.trim, String.toList_ofList]
      simp only [List.map_cons, List.filterMap_cons, List.filter_cons, htrim, ih]
      by_cases hpart : Text.trimChars part = []
      · simp [hpart]
      · have hne : String.ofList (Text.trimChars part) ≠ "" := fun h =>
          hpart (String.ofList_injective h)
        simp [hpart, hne]

/-! ## Constraints put one after the other -/

namespace Constraints

theorem mem_insert_iff {column : String} {c : Constraint} {l : List (String × Constraint)}
    (h : l.Pairwise fun a b => a.1 < b.1) {e : String × Constraint} :
    e ∈ insert column c l ↔ e = (column, c) ∨ e.1 ≠ column ∧ e ∈ l := by
  induction h with
  | nil => simp [insert]
  | @cons d rest hd hrest ih =>
    have hlater {name : String} (hname : name ≤ d.1) {e : String × Constraint} (he : e ∈ rest) :
        e.1 ≠ name := fun heq =>
      String.not_le.2 (hd e he) (heq ▸ hname)
    rw [insert]
    split_ifs with hlt heq
    · have hall : ∀ e ∈ d :: rest, e.1 ≠ column := List.forall_mem_cons.2
        ⟨fun heq => String.lt_irrefl _ (heq ▸ hlt), fun e he => hlater (le_of_lt hlt) he⟩
      rw [List.mem_cons]
      exact or_congr_right ⟨fun he => ⟨hall e he, he⟩, And.right⟩
    · rw [List.mem_cons, List.mem_cons]
      refine or_congr_right ⟨fun he => ⟨hlater heq.le he, .inr he⟩, ?_⟩
      rintro ⟨hne, rfl | he⟩
      · exact absurd heq.symm hne
      · exact he
    · rw [List.mem_cons, ih, List.mem_cons]
      constructor
      · rintro (rfl | rfl | ⟨hne, he⟩)
        · exact .inr ⟨Ne.symm heq, .inl rfl⟩
        · exact .inl rfl
        · exact .inr ⟨hne, .inr he⟩
      · rintro (rfl | ⟨hne, rfl | he⟩)
        · exact .inr (.inl rfl)
        · exact .inl rfl
        · exact .inr (.inr ⟨hne, he⟩)

theorem mem_put_iff {column : String} {c : Constraint} {cs : Constraints}
    {e : String × Constraint} :
    e ∈ (cs.put column c).entries ↔ e = (column, c) ∨ e.1 ≠ column ∧ e ∈ cs.entries :=
  mem_insert_iff cs.sorted

theorem nodup_names (cs : Constraints) : (cs.entries.map Prod.fst).Nodup := by
  rw [List.Nodup, List.pairwise_map]
  exact cs.sorted.imp fun h => ne_of_lt h

end Constraints

namespace Filter

def Setting.entry? : Setting → Option (String × Constraint)
  | .equals column value => some (column, .equals value)
  | .between column lower upper => some (column, .between lower upper)
  | _ => none

theorem mem_entries_set {f : Filter} {s : Setting} {e : String × Constraint} :
    e ∈ (f.set s).constraints.entries ↔
      s.entry? = some e ∨ (∀ d ∈ s.entry?, e.1 ≠ d.1) ∧ e ∈ f.constraints.entries := by
  cases s with
  | equals column value =>
    simp [set, Setting.entry?, Constraints.mem_put_iff, eq_comm]
  | between column lower upper =>
    simp [set, Setting.entry?, Constraints.mem_put_iff, eq_comm]
  | _ => simp [set, Setting.entry?]

/-- Settings of different columns do not replace each other; they replace what was there. -/
theorem mem_entries_foldl {ss : List Setting}
    (hnodup : ((ss.filterMap Setting.entry?).map Prod.fst).Nodup) (f : Filter)
    {e : String × Constraint} :
    e ∈ (ss.foldl set f).constraints.entries ↔
      e ∈ ss.filterMap Setting.entry? ∨
        e.1 ∉ (ss.filterMap Setting.entry?).map Prod.fst ∧ e ∈ f.constraints.entries := by
  induction ss generalizing f with
  | nil => simp
  | cons s ss ih =>
    rw [List.foldl_cons]
    cases hs : s.entry? with
    | none =>
      rw [List.filterMap_cons_none hs] at hnodup ⊢
      rw [ih hnodup, mem_entries_set, hs]
      simp
    | some d =>
      rw [List.filterMap_cons_some hs] at hnodup ⊢
      obtain ⟨hd, hnodup⟩ := List.nodup_cons.1 hnodup
      rw [ih hnodup, mem_entries_set, hs, List.mem_cons, List.map_cons, List.mem_cons, not_or]
      constructor
      · rintro (h | ⟨hnew, h | ⟨hne, h⟩⟩)
        · exact .inl (.inr h)
        · exact .inl (.inl (Option.some.inj h).symm)
        · exact .inr ⟨⟨hne d rfl, hnew⟩, h⟩
      · rintro ((rfl | h) | ⟨⟨hne, hnew⟩, h⟩)
        · exact .inr ⟨hd, .inl rfl⟩
        · exact .inl h
        · exact .inr ⟨hnew, .inr ⟨fun d' hd' => Option.mem_some.1 hd' ▸ hne, h⟩⟩

theorem foldl_set_of_entries {ss : List Setting} (h : ∀ s ∈ ss, s.entry?.isSome = true)
    (f : Filter) : ss.foldl set f = { f with constraints := (ss.foldl set f).constraints } := by
  induction ss generalizing f with
  | nil => rfl
  | cons s ss ih =>
    obtain ⟨hs, hss⟩ := List.forall_mem_cons.1 h
    have hset : f.set s = { f with constraints := (f.set s).constraints } := by
      cases s with
      | equals | between => rfl
      | orderBy | safelist | after | pageSize => cases hs
    rw [List.foldl_cons, ih hss, hset]

end Filter

namespace FilterParams

variable (p : FilterParams)

/-! ## What the parameters supply -/

/-- The columns that must equal a value, if it is given. -/
def equalities : List (String × Option Value) :=
  [("id", p.id.map fun v => .uuid (some v)), ("owner_id", p.ownerId.map fun v => .uuid (some v)),
    ("user_id", p.userId.map fun v => .uuid (some v)),
    ("post_id", p.postId.map fun v => .uuid (some v)),
    ("thread_id", p.threadId.map fun v => .uuid (some v)),
    ("forum_id", p.forumId.map fun v => .uuid (some v)),
    ("author_id", p.authorId.map fun v => .uuid (some v)),
    ("reply_to", p.replyTo.map fun v => .uuid (some v)),
    ("name", p.name.map fun v => .text (some v)), ("title", p.title.map fun v => .text (some v)),
    ("username", p.username.map fun v => .text (some v)),
    ("email", p.email.map fun v => .text (some v)),
    ("deleted", p.deleted.map fun v => .flag (some v)),
    ("is_locked", p.isLocked.map fun v => .flag (some v))]

/-- The columns that must lie in a range, with its ends that are given. -/
def ranges : List (String × Option Instant × Option Instant) :=
  [("created_at", p.createdFrom, p.createdTo), ("updated_at", p.updatedFrom, p.updatedTo),
    ("deleted_at", p.deletedFrom, p.deletedTo)]

def columnTypes : List (String × ColumnType) :=
  [("id", .uuid), ("owner_id", .uuid), ("user_id", .uuid), ("post_id", .uuid),
    ("thread_id", .uuid), ("forum_id", .uuid), ("author_id", .uuid), ("reply_to", .uuid),
    ("name", .text), ("title", .text), ("username", .text), ("email", .text), ("deleted", .flag),
    ("is_locked", .flag), ("created_at", .instant), ("updated_at", .instant),
    ("deleted_at", .instant)]

/-- The parameters constrain the column so. -/
inductive Asks (column : String) : Constraint → Prop
  | equal {v : Value} (h : (column, some v) ∈ p.equalities) : Asks column (.equals v)
  | within {lower upper : Option Instant} (h : (column, lower, upper) ∈ p.ranges)
      (given : lower.isSome ∨ upper.isSome) :
      Asks column
        (.between (lower.map fun t => .instant (some t)) (upper.map fun t => .instant (some t)))

variable {p}

def equality (e : String × Option Value) : List (String × Constraint) :=
  (e.2.map fun v => (e.1, .equals v)).toList

def between (e : String × Option Instant × Option Instant) : List (String × Constraint) :=
  if e.2.1.isSome ∨ e.2.2.isSome then
    [(e.1, .between (e.2.1.map fun t => .instant (some t)) (e.2.2.map fun t => .instant (some t)))]
  else []

theorem filterMap_equal {α : Type} (column : String) (value : Option α → Value) (v : Option α) :
    (equal column value v).filterMap Filter.Setting.entry? =
      equality (column, v.map fun v => value (some v)) := by
  cases v <;> rfl

theorem filterMap_range (column : String) (lower upper : Option Instant) :
    (range column lower upper).filterMap Filter.Setting.entry? =
      between (column, lower, upper) := by
  cases lower <;> cases upper <;> rfl

theorem filterMap_settings :
    p.settings.filterMap Filter.Setting.entry? =
      p.equalities.flatMap equality ++ p.ranges.flatMap between := by
  delta settings
  simp only [List.filterMap_append, filterMap_equal, filterMap_range, equalities, ranges,
    List.flatMap_cons, List.flatMap_nil, List.append_assoc, List.nil_append]
  rfl

theorem sublist_names {β : Type} {f : String × β → List (String × Constraint)}
    (h : ∀ e, ((f e).map Prod.fst).Sublist [e.1]) (l : List (String × β)) :
    ((l.flatMap f).map Prod.fst).Sublist (l.map Prod.fst) := by
  induction l with
  | nil => exact .slnil
  | cons e l ih =>
    rw [List.flatMap_cons, List.map_append, List.map_cons]
    exact (h e).append ih

theorem nodup_settings :
    ((p.settings.filterMap Filter.Setting.entry?).map Prod.fst).Nodup := by
  have hequality (e : String × Option Value) : ((equality e).map Prod.fst).Sublist [e.1] := by
    obtain ⟨column, _ | v⟩ := e
    · exact List.nil_sublist _
    · exact .refl _
  have hbetween (e : String × Option Instant × Option Instant) :
      ((between e).map Prod.fst).Sublist [e.1] := by
    rw [between]
    split_ifs
    · exact .refl _
    · exact List.nil_sublist _
  rw [filterMap_settings, List.map_append]
  have hnames : p.equalities.map Prod.fst ++ p.ranges.map Prod.fst = columnTypes.map Prod.fst := rfl
  have hnodup : (columnTypes.map Prod.fst).Nodup := by decide
  exact ((sublist_names hequality _).append (sublist_names hbetween _)).nodup (hnames ▸ hnodup)

theorem asks_iff {column : String} {c : Constraint} :
    p.Asks column c ↔ (column, c) ∈ p.equalities.flatMap equality ++ p.ranges.flatMap between := by
  rw [List.mem_append, List.mem_flatMap, List.mem_flatMap]
  constructor
  · rintro (h | ⟨h, hgiven⟩)
    · exact .inl ⟨_, h, List.mem_singleton_self _⟩
    · refine .inr ⟨_, h, ?_⟩
      rw [between, if_pos hgiven]
      exact List.mem_singleton_self _
  · rintro (⟨⟨name, v⟩, h, hmem⟩ | ⟨⟨name, lower, upper⟩, h, hmem⟩)
    · cases v with
      | none => cases hmem
      | some v =>
        obtain ⟨rfl, rfl⟩ := Prod.mk.inj (List.mem_singleton.1 hmem)
        exact .equal h
    · rw [between] at hmem
      split_ifs at hmem with hgiven
      · obtain ⟨rfl, rfl⟩ := Prod.mk.inj (List.mem_singleton.1 hmem)
        exact .within h hgiven
      · cases hmem

theorem mem_entries_iff {column : String} {c : Constraint} :
    (column, c) ∈ p.toFilter.constraints.entries ↔ p.Asks column c := by
  rw [toFilter, Filter.ofSettings, Filter.mem_entries_foldl nodup_settings, filterMap_settings,
    asks_iff]
  exact or_iff_left fun h => absurd h.2 List.not_mem_nil

/-! ## What else the filter says -/

theorem isSome_entry?_of_mem_equal {α : Type} {column : String} {value : Option α → Value}
    {v : Option α} : ∀ s ∈ equal column value v, s.entry?.isSome = true := by
  cases v <;> simp [equal, Filter.Setting.entry?]

theorem isSome_entry?_of_mem_range {column : String} {lower upper : Option Instant} :
    ∀ s ∈ range column lower upper, s.entry?.isSome = true := by
  rw [range]
  split_ifs <;> simp [Filter.Setting.entry?]

theorem toFilter_eq : p.toFilter =
    { constraints := p.toFilter.constraints
      orderBy := (p.orderBy.map sortFields).getD []
      lastSeen := p.lastSeen.getD .zero
      pageSize := p.pageSize.getD 1 } := by
  obtain ⟨columns, hcolumns, hsettings⟩ : ∃ columns : List Filter.Setting,
      (∀ s ∈ columns, s.entry?.isSome = true) ∧ p.settings = columns ++
        [.orderBy ((p.orderBy.map sortFields).getD []), .after (p.lastSeen.getD .zero),
          .pageSize (p.pageSize.getD 1)] := by
    refine ⟨_, ?_, rfl⟩
    simp only [List.forall_mem_append]
    and_intros
    all_goals first | exact isSome_entry?_of_mem_equal | exact isSome_entry?_of_mem_range
  rw [toFilter, Filter.ofSettings, hsettings, List.foldl_append,
    Filter.foldl_set_of_entries hcolumns]
  rfl

/-! ## How the filter is checked -/

theorem type_of_mem_equalities :
    ∀ e ∈ p.equalities, ∀ v ∈ e.2, v.isNull = false ∧ (e.1, v.type) ∈ columnTypes := by
  have hmap {α : Type} (o : Option α) (f : α → Value) {column : String}
      (hf : ∀ a, (f a).isNull = false ∧ (column, (f a).type) ∈ columnTypes) :
      ∀ v ∈ o.map f, v.isNull = false ∧ (column, v.type) ∈ columnTypes := fun v hv => by
    obtain ⟨a, -, rfl⟩ := Option.map_eq_some_iff.1 hv
    exact hf a
  simp only [equalities, List.forall_mem_cons, List.not_mem_nil, false_implies, implies_true,
    and_true]
  and_intros
  all_goals exact hmap _ _ fun _ => ⟨rfl, List.mem_of_elem_eq_true rfl⟩

theorem Asks.operand {column : String} {c : Constraint} (h : p.Asks column c) :
    ∀ v ∈ c.operands, v.isNull = false ∧ (column, v.type) ∈ columnTypes := by
  cases h with
  | @equal v h =>
    intro w hw
    rw [List.mem_singleton.1 hw]
    exact type_of_mem_equalities _ h v rfl
  | @within lower upper h =>
    have hinstant : (column, ColumnType.instant) ∈ columnTypes := by
      simp only [ranges, List.mem_cons, List.not_mem_nil, or_false, Prod.mk.injEq] at h
      rcases h with ⟨rfl, -⟩ | ⟨rfl, -⟩ | ⟨rfl, -⟩
      all_goals exact List.mem_of_elem_eq_true rfl
    intro v hv
    rcases List.mem_append.1 hv with hv | hv
    · obtain ⟨t, -, rfl⟩ := Option.map_eq_some_iff.1 (Option.mem_toList.1 hv)
      exact ⟨rfl, hinstant⟩
    · obtain ⟨t, -, rfl⟩ := Option.map_eq_some_iff.1 (Option.mem_toList.1 hv)
      exact ⟨rfl, hinstant⟩

theorem type_of_column? (r : Resource) : ∀ e ∈ columnTypes, ∀ expected,
    r.schema.column? e.1 = some expected → e.2 = expected := by
  cases r <;> decide +kernel

end FilterParams

theorem TableSchema.column?_isSome_iff {schema : TableSchema} {name : String} :
    (∃ expected, schema.column? name = some expected) ↔
      name ∈ schema.filterable.map (·.name) := by
  rw [← Option.isSome_iff_exists, column?, Option.isSome_map, List.find?_isSome, List.mem_map]
  simp

namespace Filter

variable {f : Filter} {schema : TableSchema}

theorem exists_condition_of_check {e : FilterError} (h : f.check schema = .error e) :
    ∃ c ∈ f.conditions schema, c.met = false ∧ c.fault = e := by
  rw [check_eq_report] at h
  obtain ⟨before, c, after, hconditions, -, hc⟩ := report_eq_error_iff.1 h
  exact ⟨c, hconditions ▸ List.mem_append_right before List.mem_cons_self, hc⟩

theorem exists_entry_of_emptyRange {column : String}
    (h : f.check schema = .error (.emptyRange column)) :
    ∃ e ∈ f.constraints.entries, e.2.operands = [] := by
  obtain ⟨c, hc, hmet, hfault⟩ := exists_condition_of_check h
  simp only [conditions, List.cons_append, List.mem_cons, List.mem_append, List.mem_flatMap,
    List.mem_map] at hc
  rcases hc with rfl | ⟨e, he, hc⟩ | ⟨raw, -, rfl⟩
  · cases hfault
  · simp only [entryConditions, List.cons_append, List.mem_cons, List.mem_append, List.mem_flatMap,
      List.mem_map, List.not_mem_nil, or_false] at hc
    rcases hc with rfl | rfl | ⟨expected, -, v, -, rfl⟩ | rfl
    · cases hfault
    · exact ⟨e, he, by simpa using hmet⟩
    · cases hfault
    · cases hfault
  · cases hfault

theorem exists_entry_of_typeMismatch {column expected found : String}
    (h : f.check schema = .error (.typeMismatch column expected found)) :
    ∃ e ∈ f.constraints.entries, ∃ t, schema.column? e.1 = some t ∧
      ∃ v ∈ e.2.operands, v.type ≠ t := by
  obtain ⟨c, hc, hmet, hfault⟩ := exists_condition_of_check h
  simp only [conditions, List.cons_append, List.mem_cons, List.mem_append, List.mem_flatMap,
    List.mem_map] at hc
  rcases hc with rfl | ⟨e, he, hc⟩ | ⟨raw, -, rfl⟩
  · cases hfault
  · simp only [entryConditions, List.cons_append, List.mem_cons, List.mem_append, List.mem_flatMap,
      List.mem_map, List.not_mem_nil, or_false] at hc
    rcases hc with rfl | rfl | ⟨t, ht, v, hv, rfl⟩ | rfl
    · cases hfault
    · cases hfault
    · exact ⟨e, he, t, Option.mem_toList.1 ht, v, hv, of_decide_eq_false hmet⟩
    · cases hfault
  · cases hfault

end Filter

namespace FilterParams

variable {p : FilterParams}

theorem Asks.operands_ne_nil {column : String} {c : Constraint} (h : p.Asks column c) :
    c.operands ≠ [] := by
  cases h with
  | equal h => exact List.cons_ne_nil _ _
  | @within lower upper h hgiven =>
    cases lower <;> cases upper <;> simp [Constraint.operands] at hgiven ⊢

theorem upright_iff :
    (∀ e ∈ p.toFilter.constraints.entries, ∀ lower upper,
      e.2 = .between (some lower) (some upper) → lower.compare? upper ≠ some .gt) ↔
      ∀ column lower upper, (column, some lower, some upper) ∈ p.ranges → ¬ upper < lower := by
  have hcompare (lower upper : Instant) :
      (Value.instant (some lower)).compare? (.instant (some upper)) ≠ some .gt ↔
        ¬ upper < lower := by
    rw [Value.compare?, Ne, Option.some.injEq]
    exact not_congr (compare_gt_iff_gt (a := lower.rank) (b := upper.rank))
  constructor
  · intro h column lower upper hrange
    have hasks : p.Asks column (.between (some (.instant (some lower)))
        (some (.instant (some upper)))) := .within hrange (.inl rfl)
    exact (hcompare lower upper).1 (h _ (mem_entries_iff.2 hasks) _ _ rfl)
  · rintro h ⟨column, c⟩ he lower upper rfl
    generalize hc : Constraint.between (some lower) (some upper) = c at he
    cases mem_entries_iff.1 he with
    | equal => cases hc
    | @within start stop hrange =>
      obtain ⟨hlower, hupper⟩ := Constraint.between.inj hc
      obtain ⟨t, rfl, rfl⟩ := Option.map_eq_some_iff.1 hlower.symm
      obtain ⟨u, rfl, rfl⟩ := Option.map_eq_some_iff.1 hupper.symm
      exact (hcompare t u).2 (h column t u hrange)

theorem check_iff (p : FilterParams) (r : Resource) :
    p.toFilter.check r.schema = .ok () ↔
      (∀ column, (∃ c, p.Asks column c) → column ∈ r.schema.filterable.map (·.name)) ∧
        (∀ column lower upper, (column, some lower, some upper) ∈ p.ranges → ¬ upper < lower) ∧
        (1 ≤ (p.pageSize.getD 1).toNat ∧ (p.pageSize.getD 1).toNat ≤ 1000) ∧
        ∀ raw ∈ p.toFilter.orderBy, Sortable r.schema.sortable raw := by
  have hsafelist : p.toFilter.safelist = [] := by rw [toFilter_eq]
  have hsize : p.toFilter.pageSize = p.pageSize.getD 1 := by rw [toFilter_eq]
  have hsortable (raw : String) :
      p.toFilter.MaySortBy r.schema raw ↔ Sortable r.schema.sortable raw := by
    simp [Filter.MaySortBy, Sortable, hsafelist]
  rw [Filter.check_eq_ok_iff_isWellFormed, ← upright_iff, ← hsize]
  simp only [← hsortable]
  constructor
  · intro h
    refine ⟨fun column hasks => ?_, h.upright, h.pageSize, h.sortable⟩
    obtain ⟨c, hc⟩ := hasks
    obtain ⟨expected, hexpected, -⟩ := h.typed _ (mem_entries_iff.2 hc)
    exact TableSchema.column?_isSome_iff.1 ⟨expected, hexpected⟩
  · rintro ⟨hcolumns, hupright, hsize, hfields⟩
    refine ⟨hsize, fun e he => ?_, fun e he => ?_, hupright, hfields⟩
    · have hasks := mem_entries_iff.1 he
      obtain ⟨expected, hexpected⟩ :=
        TableSchema.column?_isSome_iff.2 (hcolumns e.1 ⟨e.2, hasks⟩)
      exact ⟨expected, hexpected, fun v hv =>
        type_of_column? r _ (hasks.operand v hv).2 expected hexpected⟩
    · exact Constraint.operands_ne_nil_iff.1 (mem_entries_iff.1 he).operands_ne_nil

end FilterParams

open FilterParams

/-- The filter of some parameters constrains each column that they supply, once and by just what
they say of it, and no other column; the rest of it is what they say, or what holds if they do not.
In a table it has no fault but those of what was supplied: a column that the table does not have, an
inverted range, a size of the page, or a sort field. -/
theorem parameters_ask_for_their_filter (p : FilterParams) :
    (∀ column c, (column, c) ∈ p.toFilter.constraints.entries ↔ p.Asks column c) ∧
      (p.toFilter.constraints.entries.map Prod.fst).Nodup ∧
      (∀ e ∈ p.toFilter.constraints.entries, ∀ v ∈ e.2.operands, v.isNull = false) ∧
      (p.orderBy = none → p.toFilter.orderBy = []) ∧
      (∀ s, p.orderBy = some s → SortFields s p.toFilter.orderBy) ∧
      p.toFilter.safelist = [] ∧
      p.toFilter.lastSeen = p.lastSeen.getD .zero ∧
      p.toFilter.pageSize = p.pageSize.getD 1 ∧
      (∀ withRelated, ({ p with withRelated } : FilterParams).toFilter = p.toFilter) ∧
      ∀ r : Resource,
        (∀ column, p.toFilter.check r.schema ≠ .error (.emptyRange column)) ∧
        (∀ column expected found,
          p.toFilter.check r.schema ≠ .error (.typeMismatch column expected found)) ∧
        (p.toFilter.check r.schema = .ok () ↔
          (∀ column, (∃ c, p.Asks column c) → column ∈ r.schema.filterable.map (·.name)) ∧
          (∀ column lower upper, (column, some lower, some upper) ∈ p.ranges → ¬ upper < lower) ∧
          (1 ≤ (p.pageSize.getD 1).toNat ∧ (p.pageSize.getD 1).toNat ≤ 1000) ∧
          ∀ raw ∈ p.toFilter.orderBy, Sortable r.schema.sortable raw) := by
  have horderBy : p.toFilter.orderBy = (p.orderBy.map sortFields).getD [] := by rw [toFilter_eq]
  refine ⟨fun _ _ => mem_entries_iff, p.toFilter.constraints.nodup_names, fun e he v hv => ?_,
    fun hnone => ?_, fun s hs => ?_, ?_, ?_, ?_, fun _ => rfl,
    fun r => ⟨fun column h => ?_, fun column expected found h => ?_, p.check_iff r⟩⟩
  · exact ((mem_entries_iff.1 he).operand v hv).1
  · rw [horderBy, hnone]
    rfl
  · rw [horderBy, hs]
    exact sortFields_spec s
  · rw [toFilter_eq]
  · rw [toFilter_eq]
  · rw [toFilter_eq]
  · obtain ⟨e, he, hnil⟩ := Filter.exists_entry_of_emptyRange h
    exact (mem_entries_iff.1 he).operands_ne_nil hnil
  · obtain ⟨e, he, t, ht, v, hv, hne⟩ := Filter.exists_entry_of_typeMismatch h
    exact hne (type_of_column? r _ ((mem_entries_iff.1 he).operand v hv).2 t ht)

/-- Locked threads of one title, up to some time: users have neither titles nor locks. -/
theorem locked_threads_asked_for :
    let p : FilterParams :=
      { title := some "Rules", isLocked := some true, createdTo := some Instant.epoch }
    ("title", .equals (.text (some "Rules"))) ∈ p.toFilter.constraints.entries ∧
      ("created_at", .between none (some (.instant (some Instant.epoch)))) ∈
        p.toFilter.constraints.entries ∧
      p.toFilter.check Resource.user.schema ≠ .ok () := by
  intro p
  obtain ⟨hentries, -, -, -, -, -, -, -, -, htables⟩ := parameters_ask_for_their_filter p
  have hrange : ("created_at", none, some Instant.epoch) ∈ p.ranges := by decide
  refine ⟨(hentries _ _).2 (.equal (by decide)), (hentries _ _).2 (.within hrange (.inr rfl)),
    fun h => ?_⟩
  have hlocked : "is_locked" ∈ Resource.user.schema.filterable.map (·.name) :=
    ((htables .user).2.2.1 h).1 "is_locked" ⟨_, .equal (v := .flag (some true)) (by decide)⟩
  exact absurd hlocked (by decide)

end MessageBoard
