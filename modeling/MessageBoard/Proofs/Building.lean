import MessageBoard.Proofs.Parameters

/-!
# Filters built from settings

A filter says one thing of each of its concerns at most: of every column, of the order, of the
safelist, of the cursor and of the page size. A setting replaces what is said of its own concern and
leaves the others as they were (`Filter.setting?_set`), and there is nothing to a filter but what it
says (`Filter.ext_of_setting?`).

So settings of distinct concerns commute, and after any settings a filter says of each concern what
the last of them said: `Filter.setting?_foldl`.
-/

namespace MessageBoard

/-! ## Constraints by their columns -/

namespace Constraints

variable {cs ds : Constraints} {column name : String} {c : Constraint}

theorem lookup_eq_some_iff :
    cs.entries.lookup column = some c ↔ (column, c) ∈ cs.entries := by
  constructor
  · intro h
    obtain ⟨before, after, hentries, -⟩ := List.lookup_eq_some_iff.1 h
    exact hentries ▸ List.mem_append_right _ List.mem_cons_self
  · intro h
    obtain ⟨before, after, hentries⟩ := List.append_of_mem h
    refine List.lookup_eq_some_iff.2 ⟨before, after, hentries, fun e he => bne_iff_ne.2 ?_⟩
    have hsorted := cs.sorted
    rw [hentries, List.pairwise_append] at hsorted
    exact (String.ne_of_lt (hsorted.2.2 e he _ List.mem_cons_self)).symm

theorem lookup_put : (cs.put column c).entries.lookup name =
    if column = name then some c else cs.entries.lookup name := by
  refine Option.ext fun d => ?_
  rw [lookup_eq_some_iff, mem_put_iff, Prod.mk.injEq]
  by_cases h : column = name
  · subst h
    simp [eq_comm]
  · rw [if_neg h, lookup_eq_some_iff]
    simp [Ne.symm h]

theorem ext_of_lookup (h : ∀ column, cs.entries.lookup column = ds.entries.lookup column) :
    cs = ds := by
  have hmem (e : String × Constraint) : e ∈ cs.entries ↔ e ∈ ds.entries := by
    rw [← lookup_eq_some_iff, h, lookup_eq_some_iff]
  have hperm : cs.entries.Perm ds.entries :=
    (List.perm_ext_iff_of_nodup (.of_map _ cs.nodup_names) (.of_map _ ds.nodup_names)).2 hmem
  have hentries : cs.entries = ds.entries :=
    hperm.eq_of_pairwise (fun _ _ _ _ hab hba => absurd hba (String.lt_asymm hab)) cs.sorted
      ds.sorted
  obtain ⟨entries, sorted⟩ := cs
  obtain rfl : entries = ds.entries := hentries
  rfl

end Constraints

/-! ## What a filter says -/

/-- What a setting is about. -/
inductive Concern where
  | column (name : String)
  | order
  | safelist
  | cursor
  | pageSize
  deriving DecidableEq

namespace Filter

namespace Setting

def concern : Setting → Concern
  | equals column _ => .column column
  | between column _ _ => .column column
  | orderBy _ => .order
  | safelist _ => .safelist
  | after _ => .cursor
  | pageSize _ => .pageSize

def ofConstraint (column : String) : Constraint → Setting
  | .equals v => equals column v
  | .between lower upper => between column lower upper

theorem ofConstraint_inj {column : String} {c d : Constraint} :
    ofConstraint column c = ofConstraint column d ↔ c = d := by
  cases c <;> cases d <;> simp [ofConstraint]

end Setting

/-- What the filter says of the concern, as the setting that would make it say so. -/
def setting? (f : Filter) : Concern → Option Setting
  | .column name => (f.constraints.entries.lookup name).map (.ofConstraint name)
  | .order => some (.orderBy f.orderBy)
  | .safelist => some (.safelist f.safelist)
  | .cursor => some (.after f.lastSeen)
  | .pageSize => some (.pageSize f.pageSize)

variable {f g : Filter}

theorem ext_of_setting? (h : ∀ k, f.setting? k = g.setting? k) : f = g := by
  obtain ⟨constraints, orderBy, safelist, lastSeen, pageSize⟩ := f
  obtain ⟨constraints', orderBy', safelist', lastSeen', pageSize'⟩ := g
  have hconstraints : constraints = constraints' := by
    refine Constraints.ext_of_lookup fun column => ?_
    exact Option.map_injective (fun _ _ => Setting.ofConstraint_inj.1) (h (.column column))
  obtain rfl := hconstraints
  obtain rfl := Setting.orderBy.inj (Option.some.inj (h .order))
  obtain rfl := Setting.safelist.inj (Option.some.inj (h .safelist))
  obtain rfl := Setting.after.inj (Option.some.inj (h .cursor))
  obtain rfl := Setting.pageSize.inj (Option.some.inj (h .pageSize))
  rfl

theorem setting?_set (f : Filter) (s : Setting) (k : Concern) :
    (f.set s).setting? k = if s.concern = k then some s else f.setting? k := by
  have hput (column : String) (c : Constraint) :
      (f.set (.ofConstraint column c)).setting? k =
        if .column column = k then some (.ofConstraint column c) else f.setting? k := by
    have hset : f.set (.ofConstraint column c) =
        { f with constraints := f.constraints.put column c } := by cases c <;> rfl
    rw [hset]
    cases k with
    | column name =>
      rw [setting?, Constraints.lookup_put, setting?]
      by_cases h : column = name
      · subst h
        rw [if_pos rfl, if_pos rfl]
        rfl
      · rw [if_neg h, if_neg (mt Concern.column.inj h)]
    | _ => rfl
  cases s with
  | equals column v => exact hput column (.equals v)
  | between column lower upper => exact hput column (.between lower upper)
  | _ => cases k <;> rfl

theorem set_comm {a b : Setting} (h : a.concern ≠ b.concern) (f : Filter) :
    (f.set a).set b = (f.set b).set a := by
  refine ext_of_setting? fun k => ?_
  simp only [setting?_set]
  by_cases hb : b.concern = k
  · rw [if_pos hb, if_neg fun ha => h (ha.trans hb.symm), if_pos hb]
  · rw [if_neg hb, if_neg hb]

theorem set_set {a b : Setting} (h : a.concern = b.concern) (f : Filter) :
    (f.set a).set b = f.set b := by
  refine ext_of_setting? fun k => ?_
  simp only [setting?_set, h]
  by_cases hb : b.concern = k
  · rw [if_pos hb, if_pos hb]
  · rw [if_neg hb, if_neg hb, if_neg hb]

/-! ## Many settings -/

/-- The last of the settings of the concern. -/
def latest? (ss : List Setting) (k : Concern) : Option Setting :=
  (ss.filter (·.concern = k)).getLast?

theorem latest?_cons (s : Setting) (ss : List Setting) (k : Concern) :
    latest? (s :: ss) k = (latest? ss k).or (if s.concern = k then some s else none) := by
  rw [latest?, List.filter_cons, latest?]
  by_cases h : s.concern = k
  · rw [if_pos (decide_eq_true h), if_pos h, List.getLast?_cons]
    cases (ss.filter (·.concern = k)).getLast? <;> rfl
  · rw [if_neg (by simpa using h), if_neg h, Option.or_none]

/-- Of each concern the last setting counts, and what was said before if there is none. -/
theorem setting?_foldl (ss : List Setting) (f : Filter) (k : Concern) :
    (ss.foldl set f).setting? k = (latest? ss k).or (f.setting? k) := by
  induction ss generalizing f with
  | nil => rfl
  | cons s ss ih =>
    rw [List.foldl_cons, ih, latest?_cons, setting?_set, Option.or_assoc]
    by_cases h : s.concern = k
    · rw [if_pos h, if_pos h, Option.some_or]
    · rw [if_neg h, if_neg h, Option.none_or]

theorem setting?_ofSettings (ss : List Setting) (k : Concern) :
    (ofSettings ss).setting? k = (latest? ss k).or (setting? {} k) := setting?_foldl ss {} k

theorem ofSettings_congr {ss ts : List Setting} (h : ∀ k, latest? ss k = latest? ts k) :
    ofSettings ss = ofSettings ts := by
  refine ext_of_setting? fun k => ?_
  rw [setting?_ofSettings, setting?_ofSettings, h]

/-- Settings of distinct concerns can be made in any order. -/
theorem foldl_set_perm {ss ts : List Setting} (hperm : ss.Perm ts)
    (hnodup : (ss.map Setting.concern).Nodup) (f : Filter) : ss.foldl set f = ts.foldl set f := by
  refine hperm.foldl_eq' (fun a ha b hb g => ?_) f
  by_cases h : a.concern = b.concern
  · rw [List.inj_on_of_nodup_map hnodup ha hb h]
  · exact set_comm h g

theorem mem_entries_ofSettings {ss : List Setting} {column : String} {c : Constraint} :
    (column, c) ∈ (ofSettings ss).constraints.entries ↔
      latest? ss (.column column) = some (.ofConstraint column c) := by
  have hnone : setting? {} (.column column) = none := rfl
  have hsaid := setting?_ofSettings ss (.column column)
  rw [hnone, Option.or_none, setting?] at hsaid
  rw [← Constraints.lookup_eq_some_iff, ← hsaid, Option.map_eq_some_iff]
  constructor
  · intro h
    exact ⟨c, h, rfl⟩
  · rintro ⟨d, hd, heq⟩
    rw [hd, Setting.ofConstraint_inj.1 heq]

/-- Of the settings that make a filter the last one of each concern counts, in whatever order they
come. The constraints are those of the last settings of their columns, in the order of the bytes of
the columns' names, and order, safelist, cursor and page size are those that were set last, if any
were. So nothing that depends on the filter depends on the order of the concerns: neither its check
nor the statements of its listing and its count. -/
theorem last_settings_make_the_filter :
    (∀ ss : List Setting, let f := ofSettings ss
      (∀ column c, (column, c) ∈ f.constraints.entries ↔
        latest? ss (.column column) = some (.ofConstraint column c)) ∧
      (f.constraints.entries.map fun e => Text.Utf8.encode e.1.toList).Pairwise (· < ·) ∧
      .orderBy f.orderBy = (latest? ss .order).getD (.orderBy []) ∧
      .safelist f.safelist = (latest? ss .safelist).getD (.safelist []) ∧
      .after f.lastSeen = (latest? ss .cursor).getD (.after .zero) ∧
      .pageSize f.pageSize = (latest? ss .pageSize).getD (.pageSize 1)) ∧
    (∀ (a b : Setting) (f : Filter),
      (a.concern ≠ b.concern → (f.set a).set b = (f.set b).set a) ∧
      (a.concern = b.concern → (f.set a).set b = f.set b)) ∧
    (∀ ss ts : List Setting, ss.Perm ts → (ss.map Setting.concern).Nodup →
      ∀ f : Filter, ss.foldl set f = ts.foldl set f) ∧
    (∀ ss ts : List Setting, (∀ k, latest? ss k = latest? ts k) →
      let f := ofSettings ss
      let g := ofSettings ts
      f = g ∧
      (∀ schema, f.check schema = g.check schema ∧
        Statement.ofFilter schema f = Statement.ofFilter schema g ∧
        Statement.countOf schema f = Statement.countOf schema g) ∧
      ∀ (limit : Option Duration) (r : Resource),
        Repository.list limit r f = Repository.list limit r g ∧
        Repository.count limit r f = Repository.count limit r g) := by
  refine ⟨fun ss => ?_, fun a b f => ⟨fun h => set_comm h f, fun h => set_set h f⟩,
    fun ss ts hperm hnodup f => foldl_set_perm hperm hnodup f, fun ss ts h => ?_⟩
  · have hsaid {k : Concern} {s d : Setting} (hs : (ofSettings ss).setting? k = some s)
        (hd : setting? {} k = some d) : s = (latest? ss k).getD d := by
      rw [setting?_ofSettings, hd, Option.or_some] at hs
      exact (Option.some.inj hs).symm
    exact ⟨fun column c => mem_entries_ofSettings, Constraints.pairwise_encode_lt _,
      hsaid (k := .order) rfl rfl, hsaid (k := .safelist) rfl rfl, hsaid (k := .cursor) rfl rfl,
      hsaid (k := .pageSize) rfl rfl⟩
  · rw [ofSettings_congr h]
    exact ⟨rfl, fun schema => ⟨rfl, rfl, rfl⟩, fun limit r => ⟨rfl, rfl⟩⟩

/-- A name that is asked for in place of another, before the page size or after it. -/
theorem second_name_counts :
    let ann : Setting := .equals "name" (.text (some "Ann"))
    let bob : Setting := .equals "name" (.text (some "Bob"))
    let ss := [ann, .orderBy ["-name"], bob, .pageSize 2]
    let ts := [.pageSize 2, .between "name" none none, bob, .orderBy ["-name"]]
    (∀ k, latest? ss k = latest? ts k) ∧ ofSettings ss = ofSettings ts ∧
      (ofSettings ss).check User.schema = .ok () ∧ (ofSettings ts).check User.schema = .ok () ∧
      ("name", .equals (.text (some "Bob"))) ∈ (ofSettings ss).constraints.entries := by
  intro ann bob ss ts
  obtain ⟨hmade, -, -, hsame⟩ := last_settings_make_the_filter
  have hlatest (k : Concern) : latest? ss k = latest? ts k := by
    cases k with
    | column name =>
      by_cases h : "name" = name
      · subst h
        rfl
      · simp [latest?, ss, ts, ann, bob, Setting.concern, h]
    | _ => rfl
  obtain ⟨hfilters, hchecks, -⟩ := hsame ss ts hlatest
  have hcheck : (ofSettings ss).check User.schema = .ok () := by decide
  refine ⟨hlatest, hfilters, hcheck, ?_, ((hmade ss).1 _ _).2 rfl⟩
  exact (hchecks User.schema).1.symm.trans hcheck

end Filter

end MessageBoard
