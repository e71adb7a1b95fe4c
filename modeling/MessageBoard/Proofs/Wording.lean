import MessageBoard.Proofs.Accepted
import MessageBoard.Proofs.Discipline

/-!
# The wording of listings

The texts of the two statements that take a filter are made of a closed vocabulary: names of the
schema, fixed keywords, and placeholders numbered as the values are bound. The texts depend on the
filter only through its form, which forgets every value.

Both are statements about the pieces. A piece of text is spelled by words, and the form determines
the pieces up to the values bound in them.
-/

namespace MessageBoard

/-! ## The vocabulary -/

inductive Keyword where
  | select
  | selectCount
  | fromTable
  | asRow
  | whereRow
  | whereTrue
  | ofId
  | after
  | andRow
  | dot
  | isNull
  | equal
  | atLeast
  | atMost
  | blank
  | orderById
  | orderBy
  | comma
  | id
  | ascending
  | descending
  | limit
  deriving DecidableEq

def Keyword.text : Keyword → String
  | select => "SELECT "
  | selectCount => "SELECT COUNT(*) FROM "
  | fromTable => " FROM "
  | asRow => " AS "
  | whereRow => " WHERE "
  | whereTrue => " WHERE TRUE"
  | ofId => ".id"
  | after => " > "
  | andRow => " AND "
  | dot => "."
  | isNull => " IS NULL"
  | equal => " = "
  | atLeast => " >= "
  | atMost => " <= "
  | blank => " "
  | orderById => "ORDER BY id"
  | orderBy => "ORDER BY "
  | comma => ", "
  | id => "id"
  | ascending => " ASC"
  | descending => " DESC"
  | limit => " LIMIT "

/-- What a listing of the schema's table may be made of. -/
inductive Word (schema : TableSchema) where
  | keyword (k : Keyword)
  | table
  | row
  | select
  | filterable (column : Column) (h : column ∈ schema.filterable)
  | sortable (name : String) (h : name ∈ schema.sortable)
  | placeholder (k : Nat)

namespace Word

variable {schema : TableSchema}

def text : Word schema → String
  | keyword k => k.text
  | table => schema.table
  | row => schema.row
  | select => schema.select
  | filterable column _ => column.name
  | sortable name _ => name
  | placeholder k => "$" ++ toString k

def placeholder? : Word schema → Option Nat
  | placeholder k => some k
  | _ => none

end Word

/-- The words spell a text that refers to `n` values, once each and in order, from the `k`th on. -/
structure Spells {schema : TableSchema} (words : List (Word schema)) (k n : Nat) (text : String) :
    Prop where
  text_eq : text = String.join (words.map Word.text)
  placeholders : words.filterMap Word.placeholder? = List.range' k n

namespace Spells

variable {schema : TableSchema}

theorem append {words words' : List (Word schema)} {k n m : Nat} {text text' : String}
    (h : Spells words k n text) (h' : Spells words' (k + n) m text') :
    Spells (words ++ words') k (n + m) (text ++ text') where
  text_eq := by rw [h.text_eq, h'.text_eq, List.map_append, String.join_append]
  placeholders := by
    rw [List.filterMap_append, h.placeholders, h'.placeholders, List.range'_append_1]

end Spells

/-- A text of words without placeholders. -/
def Plain (schema : TableSchema) (text : String) : Prop :=
  ∃ words : List (Word schema), ∀ k, Spells words k 0 text

namespace Plain

variable {schema : TableSchema}

theorem ofWord (word : Word schema) (h : word.placeholder? = none) : Plain schema word.text :=
  ⟨[word], fun _ => ⟨by simp, by simp [h]⟩⟩

theorem keyword (k : Keyword) : Plain schema k.text := ofWord (.keyword k) rfl

theorem append {a b : String} (ha : Plain schema a) (hb : Plain schema b) :
    Plain schema (a ++ b) := by
  obtain ⟨words, hw⟩ := ha
  obtain ⟨words', hw'⟩ := hb
  exact ⟨words ++ words', fun k => (hw k).append (hw' k)⟩

theorem table : Plain schema schema.table := ofWord .table rfl

theorem row : Plain schema schema.row := ofWord .row rfl

theorem select : Plain schema schema.select := ofWord .select rfl

theorem commas {texts : List String} (hne : texts ≠ []) (h : ∀ t ∈ texts, Plain schema t) :
    Plain schema (", ".intercalate texts) := by
  induction texts with
  | nil => exact absurd rfl hne
  | cons t rest ih =>
    obtain ⟨ht, hrest⟩ := List.forall_mem_cons.1 h
    cases rest with
    | nil => rwa [String.intercalate_singleton]
    | cons u rest =>
      rw [String.intercalate_cons_cons]
      exact (ht.append (keyword .comma)).append (ih (List.cons_ne_nil u rest) hrest)

theorem selectText : Plain schema (Statement.selectText schema) :=
  (((((((keyword .select).append select).append (keyword .fromTable)).append table).append
    (keyword .asRow)).append row).append (keyword .whereRow)).append row |>.append (keyword .ofId)

theorem sortKey {key : SortKey} (h : Plain schema key.column) : Plain schema key.toText := by
  rw [SortKey.toText]
  cases key.descending with
  | true => exact h.append (keyword .descending)
  | false => exact h.append (keyword .ascending)

theorem orderByText {keys : List SortKey} (h : ∀ key ∈ keys, key.column ∈ schema.sortable) :
    Plain schema (orderByText keys) := by
  rw [MessageBoard.orderByText]
  by_cases hk : keys = []
  · rw [if_pos hk]
    exact keyword .orderById
  · rw [if_neg hk]
    refine (keyword .orderBy).append (commas (by simp) fun t ht => ?_)
    obtain ⟨key, hkey, rfl⟩ := List.mem_map.1 ht
    rcases List.mem_append.1 hkey with hkey | hkey
    · exact sortKey (ofWord (.sortable key.column (h key hkey)) rfl)
    · obtain rfl := List.mem_singleton.1 hkey
      exact sortKey (keyword .id)

end Plain

/-! ## What the pieces of a listing spell -/

def Worded (schema : TableSchema) (pieces : List Piece) : Prop :=
  ∀ k, ∃ words : List (Word schema),
    Spells words k (Sql.bindsOf pieces).length (Sql.number k pieces)

theorem Sql.bindsOf_append (xs ys : List Piece) :
    bindsOf (xs ++ ys) = bindsOf xs ++ bindsOf ys := by
  induction xs with
  | nil => rfl
  | cons x xs ih => cases x <;> simp [bindsOf, ih]

theorem Sql.number_append (k : Nat) (xs ys : List Piece) :
    number k (xs ++ ys) = number k xs ++ number (k + (bindsOf xs).length) ys := by
  induction xs generalizing k with
  | nil => simp [number, bindsOf]
  | cons x xs ih =>
    cases x with
    | text s => simp [number, bindsOf, ih, String.append_assoc]
    | bind b =>
      have hk : k + 1 + (bindsOf xs).length = k + ((bindsOf xs).length + 1) := by omega
      simp [number, bindsOf, ih, String.append_assoc, hk]

namespace Worded

variable {schema : TableSchema}

theorem nil : Worded schema [] := fun _ => ⟨[], rfl, rfl⟩

theorem ofPlain {s : String} (h : Plain schema s) : Worded schema [.text s] := by
  intro k
  obtain ⟨words, hw⟩ := h
  refine ⟨words, ?_⟩
  have hs : Sql.number k [.text s] = s := String.append_empty
  rw [hs]
  exact hw k

theorem bind (b : Bind) : Worded schema [.bind b] := by
  intro k
  exact ⟨[.placeholder k], by simp [Sql.number, Word.text], rfl⟩

theorem append {xs ys : List Piece} (hx : Worded schema xs) (hy : Worded schema ys) :
    Worded schema (xs ++ ys) := by
  intro k
  obtain ⟨words, hw⟩ := hx k
  obtain ⟨words', hw'⟩ := hy (k + (Sql.bindsOf xs).length)
  rw [Sql.bindsOf_append, Sql.number_append, List.length_append]
  exact ⟨words ++ words', hw.append hw'⟩

theorem flatMap {α : Type} {l : List α} {f : α → List Piece} (h : ∀ a ∈ l, Worded schema (f a)) :
    Worded schema (l.flatMap f) := by
  induction l with
  | nil => exact nil
  | cons a l ih =>
    obtain ⟨ha, hl⟩ := List.forall_mem_cons.1 h
    exact ha.append (ih hl)

end Worded

def Test.column : Test → String
  | .isNull column => column
  | .compare column _ _ => column

theorem Constraint.column_of_mem_tests {column : String} {c : Constraint} {t : Test}
    (h : t ∈ c.tests column) : t.column = column := by
  cases c with
  | equals v =>
    rw [Constraint.tests] at h
    by_cases hv : v.isNull
    · rw [if_pos hv] at h
      rw [List.mem_singleton.1 h, Test.column]
    · rw [if_neg hv] at h
      rw [List.mem_singleton.1 h, Test.column]
  | between lower upper =>
    rcases List.mem_append.1 h with h | h
    · obtain ⟨v, -, rfl⟩ := List.mem_map.1 h
      rfl
    · obtain ⟨v, -, rfl⟩ := List.mem_map.1 h
      rfl

variable {schema : TableSchema} {f : Filter}

theorem Filter.Accepted.column_of_mem_tests (h : f.Accepted schema) {t : Test} (ht : t ∈ f.tests) :
    ∃ column ∈ schema.filterable, column.name = t.column := by
  obtain ⟨⟨name, c⟩, he, ht⟩ := List.mem_flatMap.1 ht
  rw [Constraint.column_of_mem_tests ht]
  exact mem_filterable_of_checkEntry (h.entries _ he)

theorem Test.worded {t : Test} (h : ∃ column ∈ schema.filterable, column.name = t.column) :
    Worded schema (t.pieces schema.row) := by
  have hname : Plain schema t.column := by
    obtain ⟨column, hc, hn⟩ := h
    exact hn ▸ Plain.ofWord (.filterable column hc) rfl
  have hstart : Plain schema s!" AND {schema.row}.{t.column}" :=
    (((Plain.keyword .andRow).append Plain.row).append (Plain.keyword .dot)).append hname
  cases t with
  | isNull column => exact .ofPlain (hstart.append (.keyword .isNull))
  | compare column comparison v =>
    have hsign : Plain schema comparison.text := by
      cases comparison with
      | equal => exact .keyword .equal
      | atLeast => exact .keyword .atLeast
      | atMost => exact .keyword .atMost
    exact Worded.append (.ofPlain (hstart.append hsign)) (.bind (.value v))

theorem Filter.Accepted.worded_tests (h : f.Accepted schema) :
    Worded schema (f.tests.flatMap (·.pieces schema.row)) :=
  .flatMap fun _ ht => Test.worded (h.column_of_mem_tests ht)

theorem Filter.Accepted.worded_page (h : f.Accepted schema) :
    Worded schema (f.pageStatement schema).pieces := by
  have hstart : Worded schema [.text (Statement.selectText schema ++ " > ")] :=
    .ofPlain (Plain.selectText.append (.keyword .after))
  have horder : Worded schema
      [.text (" " ++ orderByText (f.orderBy.map SortKey.ofText) ++ " LIMIT ")] :=
    .ofPlain (((Plain.keyword .blank).append (.orderByText fun _ hk => h.mem_sortable hk)).append
      (.keyword .limit))
  exact ((hstart.append (.bind _)).append h.worded_tests).append (horder.append (.bind _))

theorem Filter.Accepted.worded_count (h : f.Accepted schema) :
    Worded schema (Statement.countOf schema f).pieces := by
  have hstart : Plain schema
      s!"SELECT COUNT(*) FROM {schema.table} AS {schema.row} WHERE TRUE" :=
    ((((Plain.keyword .selectCount).append Plain.table).append (.keyword .asRow)).append
      Plain.row).append (.keyword .whereTrue)
  exact Worded.append (.ofPlain hstart) h.worded_tests

/-! ## The form of a filter -/

/-- What is left of a constraint without its values. -/
inductive Constraint.Form where
  | null
  | value
  | range (lower upper : Bool)
  deriving DecidableEq

def Constraint.form : Constraint → Form
  | .equals v => if v.isNull then .null else .value
  | .between lower upper => .range lower.isSome upper.isSome

/-- The columns that a filter constrains, and how, without the values. -/
def Filter.form (f : Filter) : List (String × Constraint.Form) :=
  f.constraints.entries.map fun (column, c) => (column, c.form)

def Piece.skeleton : Piece → Option String
  | .text s => some s
  | .bind _ => none

/-- Pieces that differ in bound values only have the same text. -/
theorem Sql.number_congr {xs ys : List Piece} (h : xs.map Piece.skeleton = ys.map Piece.skeleton)
    (k : Nat) :
    number k xs = number k ys ∧ (bindsOf xs).length = (bindsOf ys).length := by
  induction xs generalizing ys k with
  | nil =>
    obtain rfl := List.map_eq_nil_iff.1 h.symm
    exact ⟨rfl, rfl⟩
  | cons x xs ih =>
    cases ys with
    | nil => cases h
    | cons y ys =>
      obtain ⟨hxy, hrest⟩ := List.cons.inj h
      cases x with
      | text s =>
        cases y with
        | text t =>
          obtain rfl := Option.some.inj hxy
          obtain ⟨hn, hb⟩ := ih hrest k
          exact ⟨congrArg (s ++ ·) hn, hb⟩
        | bind b => cases hxy
      | bind b =>
        cases y with
        | text t => cases hxy
        | bind c =>
          obtain ⟨hn, hb⟩ := ih hrest (k + 1)
          exact ⟨congrArg ("$" ++ toString k ++ ·) hn, congrArg (· + 1) hb⟩

namespace Constraint.Form

def skeleton (row column : String) : Form → List (Option String)
  | null => [some s!" AND {row}.{column} IS NULL"]
  | value => [some (s!" AND {row}.{column}" ++ Comparison.equal.text), none]
  | range lower upper =>
    (if lower then [some (s!" AND {row}.{column}" ++ Comparison.atLeast.text), none] else []) ++
      if upper then [some (s!" AND {row}.{column}" ++ Comparison.atMost.text), none] else []

end Constraint.Form

theorem Constraint.skeleton_tests (row column : String) (c : Constraint) :
    ((c.tests column).flatMap (·.pieces row)).map Piece.skeleton = c.form.skeleton row column := by
  cases c with
  | equals v =>
    rw [tests, form]
    by_cases hv : v.isNull
    · rw [if_pos hv, if_pos hv]
      rfl
    · rw [if_neg hv, if_neg hv]
      rfl
  | between lower upper => cases lower <;> cases upper <;> rfl

theorem Filter.skeleton_tests (row : String) (f : Filter) :
    (f.tests.flatMap (·.pieces row)).map Piece.skeleton =
      f.form.flatMap fun (column, form) => form.skeleton row column := by
  rw [tests, form]
  induction f.constraints.entries with
  | nil => rfl
  | cons e rest ih =>
    rw [List.flatMap_cons, List.flatMap_append, List.map_append, ih, List.map_cons,
      List.flatMap_cons, Constraint.skeleton_tests]

theorem SortKey.ofText_congr {a b : String} (h : Text.trim a = Text.trim b) :
    ofText a = ofText b := by
  have hc : Text.trimChars a.toList = Text.trimChars b.toList := String.ofList_injective h
  rw [ofText, ofText, hc]

theorem SortKey.map_ofText_congr {xs ys : List String} (h : xs.map Text.trim = ys.map Text.trim) :
    xs.map ofText = ys.map ofText := by
  induction xs generalizing ys with
  | nil => rw [List.map_eq_nil_iff.1 h.symm]
  | cons x xs ih =>
    cases ys with
    | nil => cases h
    | cons y ys =>
      obtain ⟨hxy, h⟩ := List.cons.inj h
      rw [List.map_cons, List.map_cons, ofText_congr hxy, ih h]

namespace Filter

variable {g : Filter}

theorem skeleton_page_congr (hform : f.form = g.form)
    (horder : f.orderBy.map Text.trim = g.orderBy.map Text.trim) :
    (f.pageStatement schema).pieces.map Piece.skeleton =
      (g.pageStatement schema).pieces.map Piece.skeleton := by
  simp only [pageStatement, Statement.pieces, List.map_append, List.map_cons, skeleton_tests,
    hform, SortKey.map_ofText_congr horder]
  rfl

theorem skeleton_count_congr (hform : f.form = g.form) :
    (Statement.countOf schema f).pieces.map Piece.skeleton =
      (Statement.countOf schema g).pieces.map Piece.skeleton := by
  simp only [Statement.countOf, Statement.pieces, List.map_cons, skeleton_tests, hform]

end Filter

/-! ## What is sent -/

namespace Call

variable {r : Resource} {limit : Option Duration} {s : Statement}

theorem accepted_of_list_sends (h : (Repository.list limit r f).Sends s) :
    f.Accepted r.schema ∧ f.pageStatement r.schema = s := by
  obtain ⟨p, hp, hs⟩ := exists_plan_of_sends (show ((list r f).run limit).Sends s from h)
  obtain ⟨ha, rfl⟩ := plan_list_eq_ok_iff_accepted.1 hp
  exact ⟨ha, hs⟩

theorem accepted_of_count_sends (h : (Repository.count limit r f).Sends s) :
    f.Accepted r.schema ∧ Statement.countOf r.schema f = s := by
  obtain ⟨p, hp, hs⟩ := exists_plan_of_sends (show ((count r f).run limit).Sends s from h)
  obtain ⟨ha, rfl⟩ := plan_count_eq_ok_iff_accepted.1 hp
  exact ⟨ha, hs⟩

theorem list_sends (ha : f.Accepted r.schema) (hl : HasTime limit) :
    (Repository.list limit r f).Sends (f.pageStatement r.schema) :=
  sends_of_plan (plan_list_eq_ok_iff_accepted.2 ⟨ha, rfl⟩) hl

theorem count_sends (ha : f.Accepted r.schema) (hl : HasTime limit) :
    (Repository.count limit r f).Sends (Statement.countOf r.schema f) :=
  sends_of_plan (plan_count_eq_ok_iff_accepted.2 ⟨ha, rfl⟩) hl

end Call

/-- The statements of a listing and of its count are sent for accepted filters only, and each text
is made of the vocabulary of the schema, with one placeholder for each value. Filters of one form
and one order have the same texts. -/
theorem listing_texts_fixed (r : Resource) :
    (∀ (limit : Option Duration) (f : Filter) (s : Statement),
      (Repository.list limit r f).Sends s ∨ (Repository.count limit r f).Sends s →
        ∃ words : List (Word r.schema), Spells words 1 s.sql.binds.length s.sql.text) ∧
    (∀ (limit limit' : Option Duration) (f g : Filter) (s t : Statement),
      f.form = g.form → f.orderBy.map Text.trim = g.orderBy.map Text.trim →
        (Repository.list limit r f).Sends s ∧ (Repository.list limit' r g).Sends t ∨
          (Repository.count limit r f).Sends s ∧ (Repository.count limit' r g).Sends t →
        s.sql.text = t.sql.text ∧ s.sql.binds.length = t.sql.binds.length) ∧
    (∀ (limit : Option Duration) (f : Filter), HasTime limit →
      ((∃ s, (Repository.list limit r f).Sends s) ↔ f.check r.schema = .ok ()) ∧
      ((∃ s, (Repository.count limit r f).Sends s) ↔ f.check r.schema = .ok ())) := by
  refine ⟨fun limit f s h => ?_, fun limit limit' f g s t hform horder h => ?_,
    fun limit f hl => ?_⟩
  · rcases h with h | h
    · obtain ⟨ha, rfl⟩ := Call.accepted_of_list_sends h
      exact ha.worded_page 1
    · obtain ⟨ha, rfl⟩ := Call.accepted_of_count_sends h
      exact ha.worded_count 1
  · rcases h with ⟨hs, ht⟩ | ⟨hs, ht⟩
    · obtain ⟨-, rfl⟩ := Call.accepted_of_list_sends hs
      obtain ⟨-, rfl⟩ := Call.accepted_of_list_sends ht
      exact Sql.number_congr (Filter.skeleton_page_congr hform horder) 1
    · obtain ⟨-, rfl⟩ := Call.accepted_of_count_sends hs
      obtain ⟨-, rfl⟩ := Call.accepted_of_count_sends ht
      exact Sql.number_congr (Filter.skeleton_count_congr hform) 1
  · rw [Filter.check_eq_ok_iff]
    constructor
    · exact ⟨fun ⟨_, h⟩ => (Call.accepted_of_list_sends h).1, fun h => ⟨_, Call.list_sends h hl⟩⟩
    · exact ⟨fun ⟨_, h⟩ => (Call.accepted_of_count_sends h).1, fun h => ⟨_, Call.count_sends h hl⟩⟩

/-- A name that looks like a statement is sent in the text that any other name is sent in. -/
theorem listing_text_of_hostile_name :
    let f := Filter.ofSettings [.equals "name" (.text "Ann"), .orderBy ["-name"]]
    let g := Filter.ofSettings [.equals "name" (.text "'; DROP TABLE forum.users; --"),
      .orderBy [" -name "], .safelist ["name"], .pageSize 1000]
    ∃ s t, (Repository.list none .user f).Sends s ∧ (Repository.list none .user g).Sends t ∧
      s.sql.text = t.sql.text ∧ s.sql.binds ≠ t.sql.binds := by
  intro f g
  have htime : HasTime none := fun d hd => by cases hd
  have hf : f.Accepted Resource.user.schema := Filter.check_eq_ok_iff.1 rfl
  have hg : g.Accepted Resource.user.schema := Filter.check_eq_ok_iff.1 rfl
  have hs := Call.list_sends (r := .user) hf htime
  have ht := Call.list_sends (r := .user) hg htime
  refine ⟨_, _, hs, ht, ?_, by decide⟩
  exact ((listing_texts_fixed .user).2.1 none none f g _ _ (by decide) (by decide)
    (.inl ⟨hs, ht⟩)).1

end MessageBoard
