import Mathlib
import MessageBoard.Proofs.Addresses
import MessageBoard.Proofs.Overlap

/-!
# Sort clauses

The clause of a listing says neither more nor less than the sort fields that it was made of. It can
be read back, as `clauseKeys?` does it: the names in it with their directions, and the identifier at
the end. So no two orders share a clause, and no clause leaves the order of two rows open.
-/

namespace MessageBoard

open Std

/-! ## Sort fields -/

def fieldName (raw : String) : String :=
  let field := (Text.trim raw).toList
  .ofList (if field.head? = some '-' then field.tail else field)

def fieldDescends (raw : String) : Bool := (Text.trim raw).toList.head? = some '-'

def Sortable (safelist : List String) (raw : String) : Prop :=
  fieldName raw ≠ "" ∧ fieldName raw ∈ safelist

instance (safelist : List String) (raw : String) : Decidable (Sortable safelist raw) :=
  inferInstanceAs (Decidable (_ ∧ _))

theorem Sortable.mono {safelist safelist' : List String} (h : safelist ⊆ safelist') {raw : String}
    (hraw : Sortable safelist raw) : Sortable safelist' raw :=
  ⟨hraw.1, h hraw.2⟩

namespace SortKey

theorem ofText_eq (raw : String) : ofText raw = ⟨fieldName raw, fieldDescends raw⟩ := by
  rw [ofText, fieldName, fieldDescends, Text.trim, String.toList_ofList]
  generalize Text.trimChars raw.toList = cs
  split
  · rfl
  · rename_i hdash
    have hhead : cs.head? ≠ some '-' := by
      intro h
      obtain ⟨rest, rfl⟩ := List.head?_eq_some_iff.1 h
      exact hdash rest rfl
    rw [if_neg hhead, decide_eq_false hhead]

theorem read_of_sortable {safelist : List String} {raw : String} (h : Sortable safelist raw) :
    read safelist raw = .ok ⟨fieldName raw, fieldDescends raw⟩ :=
  read_eq_ok_iff.2 ⟨ofText_eq raw, h⟩

theorem read_of_not_sortable {safelist : List String} {raw : String}
    (h : ¬ Sortable safelist raw) : read safelist raw = .error (.unsortableField raw) := by
  rw [read, ofText_eq]
  exact if_neg h

end SortKey

section Fields

variable {fields safelist : List String}

theorem sortKeys_cons (raw : String) (fields safelist : List String) :
    sortKeys (raw :: fields) safelist = (do
      let key ← SortKey.read safelist raw
      let keys ← sortKeys fields safelist
      return key :: keys) := by
  rw [sortKeys, List.mapM_cons]
  rfl

theorem sortKeys_of_sortable (h : ∀ raw ∈ fields, Sortable safelist raw) :
    sortKeys fields safelist = .ok (fields.map SortKey.ofText) := by
  refine sortKeys_eq_ok_iff.2 ⟨rfl, fun key hkey => ?_⟩
  obtain ⟨raw, hraw, rfl⟩ := List.mem_map.1 hkey
  rw [SortKey.ofText_eq]
  exact h raw hraw

theorem sortKeys_eq_ok_iff_sortable {keys : List SortKey} :
    sortKeys fields safelist = .ok keys ↔
      (∀ raw ∈ fields, Sortable safelist raw) ∧ fields.map SortKey.ofText = keys := by
  constructor
  · intro h
    obtain ⟨rfl, hkeys⟩ := sortKeys_eq_ok_iff.1 h
    refine ⟨fun raw hraw => ?_, rfl⟩
    have hkey := hkeys _ (List.mem_map_of_mem hraw)
    rwa [SortKey.ofText_eq] at hkey
  · rintro ⟨h, rfl⟩
    exact sortKeys_of_sortable h

/-- The first field that is not allowed is reported, and nothing else is. -/
theorem sortKeys_eq_error_iff {e : FilterError} :
    sortKeys fields safelist = .error e ↔
      ∃ before raw after, fields = before ++ raw :: after ∧
        (∀ b ∈ before, Sortable safelist b) ∧ ¬ Sortable safelist raw ∧
        e = .unsortableField raw := by
  induction fields with
  | nil =>
    refine iff_of_false (fun h => by cases h) ?_
    rintro ⟨before, raw, after, h, -⟩
    cases before <;> cases h
  | cons first fields ih =>
    rw [sortKeys_cons]
    by_cases hfirst : Sortable safelist first
    · have hrest : (sortKeys (first :: fields) safelist = .error e) ↔
          sortKeys fields safelist = .error e := by
        rw [sortKeys_cons, SortKey.read_of_sortable hfirst]
        cases sortKeys fields safelist with
        | error e' => exact ⟨fun h => h, fun h => h⟩
        | ok keys => exact iff_of_false (fun h => by cases h) (fun h => by cases h)
      rw [← sortKeys_cons, hrest, ih]
      constructor
      · rintro ⟨before, raw, after, rfl, hbefore, hraw⟩
        exact ⟨first :: before, raw, after, rfl, List.forall_mem_cons.2 ⟨hfirst, hbefore⟩, hraw⟩
      · rintro ⟨before, raw, after, hfields, hbefore, hraw, he⟩
        cases before with
        | nil =>
          obtain ⟨rfl, -⟩ := List.cons.inj hfields
          exact absurd hfirst hraw
        | cons b before =>
          obtain ⟨-, rfl⟩ := List.cons.inj hfields
          exact ⟨before, raw, after, rfl, (List.forall_mem_cons.1 hbefore).2, hraw, he⟩
    · rw [SortKey.read_of_not_sortable hfirst]
      constructor
      · intro h
        obtain rfl := Except.error.inj h
        exact ⟨[], first, fields, rfl, fun _ h => absurd h List.not_mem_nil, hfirst, rfl⟩
      · rintro ⟨before, raw, after, hfields, hbefore, -, rfl⟩
        cases before with
        | nil =>
          obtain ⟨rfl, -⟩ := List.cons.inj hfields
          rfl
        | cons b before =>
          obtain ⟨rfl, -⟩ := List.cons.inj hfields
          exact absurd (hbefore _ List.mem_cons_self) hfirst

end Fields

/-! ## Clauses -/

def fieldText (raw : String) : String :=
  fieldName raw ++ if fieldDescends raw then " DESC" else " ASC"

def clauseText (fields : List String) : String :=
  if fields = [] then "ORDER BY id"
  else "ORDER BY " ++ ", ".intercalate (fields.map fieldText ++ ["id ASC"])

theorem orderByText_map_ofText (fields : List String) :
    orderByText (fields.map SortKey.ofText) = clauseText fields := by
  rw [orderByText, clauseText]
  by_cases h : fields = []
  · rw [if_pos h, if_pos (List.map_eq_nil_iff.2 h)]
  · rw [if_neg h, if_neg fun hmap => h (List.map_eq_nil_iff.1 hmap), List.map_append, List.map_map]
    have htext (raw : String) : (SortKey.ofText raw).toText = fieldText raw := by
      rw [SortKey.ofText_eq]
      rfl
    simp only [Function.comp_def, htext]
    rfl

theorem orderByClause_eq_ok_iff {fields safelist : List String} {clause : String} :
    orderByClause fields safelist = .ok clause ↔
      (∀ raw ∈ fields, Sortable safelist raw) ∧ clause = clauseText fields := by
  rw [orderByClause]
  constructor
  · intro h
    cases hkeys : sortKeys fields safelist with
    | error e => rw [hkeys] at h; cases h
    | ok keys =>
      obtain ⟨hall, rfl⟩ := sortKeys_eq_ok_iff_sortable.1 hkeys
      rw [hkeys] at h
      exact ⟨hall, (Except.ok.inj h).symm.trans (orderByText_map_ofText fields)⟩
  · rintro ⟨h, rfl⟩
    rw [sortKeys_of_sortable h, ← orderByText_map_ofText]
    rfl

theorem orderByClause_eq_error_iff {fields safelist : List String} {e : FilterError} :
    orderByClause fields safelist = .error e ↔ sortKeys fields safelist = .error e := by
  rw [orderByClause]
  cases sortKeys fields safelist with
  | error e' => rw [Except.map, Except.error.injEq, Except.error.injEq]
  | ok keys => exact iff_of_false (fun h => by cases h) (fun h => by cases h)

/-! ## Clauses read back -/

/-- A name with its direction behind it; without one the order is ascending. -/
def SortKey.ofItem (item : List Char) : SortKey :=
  match item.dropSuffix? " DESC".toList with
  | some name => ⟨.ofList name, true⟩
  | none => ⟨.ofList ((item.dropSuffix? " ASC".toList).getD item), false⟩

/-- What stands between the commas, each of which has a blank behind it. -/
def listItems (cs : List Char) : List (List Char) :=
  match Text.pieces ',' cs with
  | [] => []
  | first :: rest => first :: rest.map (List.drop 1)

/-- The keys that a clause sorts by, the first one above all. -/
def clauseKeys? (clause : String) : Option (List SortKey) :=
  (clause.toList.dropPrefix? "ORDER BY ".toList).map fun cs => (listItems cs).map SortKey.ofItem

theorem SortKey.ofItem_toText (key : SortKey) : ofItem key.toText.toList = key := by
  obtain ⟨column, descending⟩ := key
  rw [toText, ofItem, String.toList_append]
  cases descending with
  | true =>
    have hdown : (column.toList ++ " DESC".toList).dropSuffix? " DESC".toList =
        some column.toList := List.dropSuffix?_eq_some_iff.2 ⟨_, rfl, beq_self_eq_true _⟩
    simp only [if_true, hdown, String.ofList_toList]
  | false =>
    have hup : (column.toList ++ " ASC".toList).dropSuffix? " ASC".toList =
        some column.toList := List.dropSuffix?_eq_some_iff.2 ⟨_, rfl, beq_self_eq_true _⟩
    have hdown : (column.toList ++ " ASC".toList).dropSuffix? " DESC".toList = none := by
      by_contra hsome
      obtain ⟨name, hname⟩ := Option.ne_none_iff_exists'.1 hsome
      obtain ⟨ending, heq, hending⟩ := List.dropSuffix?_eq_some_iff.1 hname
      rw [eq_of_beq hending] at heq
      have hreverse := congrArg List.reverse heq
      simp at hreverse
    simp only [Bool.false_eq_true, if_false, hdown, hup, Option.getD_some, String.ofList_toList]

theorem Text.pieces_between (c : Char) (x y : List Char) :
    pieces c (x ++ c :: y) = pieces c x ++ pieces c y := by
  induction x with
  | nil => rw [List.nil_append, pieces_cons_self, pieces, List.cons_append, List.nil_append]
  | cons d x ih =>
    rw [List.cons_append, pieces, pieces]
    by_cases hd : d = c
    · rw [if_pos hd, if_pos hd, ih, List.cons_append]
    · rw [if_neg hd, if_neg hd, ih]
      cases hx : pieces c x with
      | nil => exact absurd hx (pieces_ne_nil c x)
      | cons p ps => rfl

theorem listItems_between (x y : List Char) :
    listItems (x ++ ',' :: ' ' :: y) = listItems x ++ listItems y := by
  rw [listItems, listItems, listItems, Text.pieces_between]
  cases hx : Text.pieces ',' x with
  | nil => exact absurd hx (Text.pieces_ne_nil ',' x)
  | cons p ps =>
    cases hy : Text.pieces ',' y with
    | nil => exact absurd hy (Text.pieces_ne_nil ',' y)
    | cons q qs =>
      have hblank : Text.pieces ',' (' ' :: y) = (' ' :: q) :: qs :=
        Text.pieces_append (a := [' ']) (by decide) hy
      simp [hblank]

theorem listItems_of_notMem {cs : List Char} (h : ',' ∉ cs) : listItems cs = [cs] := by
  rw [listItems, Text.pieces_of_notMem h]
  rfl

theorem listItems_intercalate {texts : List String} (hne : texts ≠ [])
    (h : ∀ t ∈ texts, ',' ∉ t.toList) :
    listItems (", ".intercalate texts).toList = texts.map String.toList := by
  induction texts with
  | nil => exact absurd rfl hne
  | cons t rest ih =>
    obtain ⟨ht, hrest⟩ := List.forall_mem_cons.1 h
    cases rest with
    | nil => rw [String.intercalate_singleton, listItems_of_notMem ht]; rfl
    | cons u rest =>
      have htext : (", ".intercalate (t :: u :: rest)).toList =
          t.toList ++ ',' :: ' ' :: (", ".intercalate (u :: rest)).toList := by
        rw [String.intercalate_cons_cons, String.toList_append, String.toList_append]
        simp
      rw [htext, listItems_between, ih (List.cons_ne_nil u rest) hrest, listItems_of_notMem ht]
      rfl

theorem clauseKeys?_of_items (cs : List Char) :
    clauseKeys? (.ofList ("ORDER BY ".toList ++ cs)) =
      some ((listItems cs).map SortKey.ofItem) := by
  rw [clauseKeys?, String.toList_ofList, List.dropPrefix?_append_of_beq _ (beq_self_eq_true _)]
  rfl

/-- The last key of every clause is the identifier. Before it stand the keys that the clause was
made of, unless a name in them looks like more than one. -/
theorem exists_clauseKeys? (keys : List SortKey) :
    ∃ before, clauseKeys? (orderByText keys) = some (before ++ [⟨"id", false⟩]) ∧
      ((∀ key ∈ keys, ',' ∉ key.column.toList) → before = keys) := by
  have hid : SortKey.ofItem "id ASC".toList = ⟨"id", false⟩ := SortKey.ofItem_toText ⟨"id", false⟩
  rw [orderByText]
  by_cases hkeys : keys = []
  · exact ⟨[], by rw [if_pos hkeys]; decide, fun _ => hkeys.symm⟩
  · have hne : keys.map SortKey.toText ≠ [] := fun h => hkeys (List.map_eq_nil_iff.1 h)
    have htext : "ORDER BY " ++
        ", ".intercalate ((keys ++ [SortKey.mk "id" false]).map SortKey.toText) =
        .ofList ("ORDER BY ".toList ++ ((", ".intercalate (keys.map SortKey.toText)).toList ++
          ',' :: ' ' :: "id ASC".toList)) := by
      rw [List.map_append, List.map_singleton,
        String.intercalate_append_of_ne_nil hne (List.cons_ne_nil _ _)]
      simp [← String.toList_inj, SortKey.toText]
    refine ⟨(listItems (", ".intercalate (keys.map SortKey.toText)).toList).map SortKey.ofItem,
      ?_, fun hcomma => ?_⟩
    · have hlast : listItems "id ASC".toList = ["id ASC".toList] :=
        listItems_of_notMem (by decide)
      rw [if_neg hkeys, htext, clauseKeys?_of_items, listItems_between, hlast, List.map_append,
        List.map_singleton, hid]
    · have htexts : ∀ t ∈ keys.map SortKey.toText, ',' ∉ t.toList := by
        intro t ht
        obtain ⟨key, hkey, rfl⟩ := List.mem_map.1 ht
        have hdirection : ',' ∉ (if key.descending then " DESC" else " ASC").toList := by
          cases key.descending <;> decide
        rw [SortKey.toText, String.toList_append, List.mem_append, not_or]
        exact ⟨hcomma key hkey, hdirection⟩
      rw [listItems_intercalate hne htexts, List.map_map, List.map_map]
      simp only [Function.comp_def, SortKey.ofItem_toText, List.map_id']

theorem eq_of_orderByText_eq {keys keys' : List SortKey}
    (h : ∀ key ∈ keys, ',' ∉ key.column.toList) (h' : ∀ key ∈ keys', ',' ∉ key.column.toList)
    (heq : orderByText keys = orderByText keys') : keys = keys' := by
  obtain ⟨before, hread, hbefore⟩ := exists_clauseKeys? keys
  obtain ⟨before', hread', hbefore'⟩ := exists_clauseKeys? keys'
  rw [heq, hread'] at hread
  obtain ⟨hkeys, -⟩ := List.append_inj' (Option.some.inj hread) rfl
  rw [← hbefore h, ← hbefore' h', hkeys]

/-! ## The order of rows -/

section Rows

variable {α : Type} (cmp : String → α → α → Ordering)

/-- How a key compares two rows, given how they compare by each column. -/
def SortKey.compareRows (key : SortKey) (a b : α) : Ordering :=
  if key.descending then (cmp key.column a b).swap else cmp key.column a b

/-- How several keys compare two rows: a later key counts where all earlier ones tie. -/
def compareRows : List SortKey → α → α → Ordering
  | [], _, _ => .eq
  | key :: keys, a, b => (key.compareRows cmp a b).then (compareRows keys a b)

/-- The rows in an order that the keys allow. -/
def IsArranged (keys : List SortKey) (rows arranged : List α) : Prop :=
  arranged.Perm rows ∧ arranged.Pairwise fun a b => compareRows cmp keys a b ≠ .gt

variable {cmp} {id : α → Uuid} {keys : List SortKey}

theorem id_eq_of_tie (hid : ∀ a b, cmp "id" a b = .eq → id a = id b) {a b : α}
    (h : compareRows cmp (keys ++ [⟨"id", false⟩]) a b = .eq) : id a = id b := by
  induction keys with
  | nil =>
    rw [List.nil_append, compareRows, Ordering.then_eq_eq] at h
    exact hid a b h.1
  | cons key keys ih =>
    rw [List.cons_append, compareRows, Ordering.then_eq_eq] at h
    exact ih h.2

variable (hcmp : ∀ column, TransCmp (cmp column))

include hcmp

theorem SortKey.transCmp_compareRows (key : SortKey) : TransCmp (key.compareRows cmp) := by
  have hkey := hcmp key.column
  unfold compareRows
  by_cases hd : key.descending = true
  · simp only [if_pos hd, ← hkey.eq_swap]
    exact TransCmp.opposite
  · simp only [if_neg hd]
    exact hkey

theorem transCmp_compareRows (keys : List SortKey) : TransCmp (compareRows cmp keys) := by
  induction keys with
  | nil => exact { eq_swap := rfl, isLE_trans := fun _ _ => rfl }
  | cons key keys ih =>
    have hkey := key.transCmp_compareRows hcmp
    exact inferInstanceAs (TransCmp (compareLex (key.compareRows cmp) (compareRows cmp keys)))

theorem exists_isArranged (keys : List SortKey) (rows : List α) :
    ∃ arranged, IsArranged cmp keys rows arranged := by
  have htrans := transCmp_compareRows hcmp keys
  refine ⟨rows.mergeSort fun a b => (compareRows cmp keys a b).isLE, List.mergeSort_perm _ _, ?_⟩
  refine (List.pairwise_mergeSort (fun a b c hab hbc => ?_) (fun a b => ?_) _).imp fun hle => ?_
  · exact htrans.isLE_trans hab hbc
  · rw [htrans.eq_swap (a := b), Ordering.isLE_swap]
    cases compareRows cmp keys a b <;> rfl
  · exact Ordering.isLE_iff_ne_gt.1 hle

/-- Where no two rows tie, there is one way to arrange them. -/
theorem IsArranged.unique {rows l m : List α}
    (htie : ∀ a ∈ rows, ∀ b ∈ rows, compareRows cmp keys a b = .eq → a = b)
    (hl : IsArranged cmp keys rows l) (hm : IsArranged cmp keys rows m) : l = m := by
  have htrans := transCmp_compareRows hcmp keys
  refine List.Perm.eq_of_pairwise (fun a b ha hb hab hba => ?_) hl.2 hm.2 (hl.1.trans hm.1.symm)
  apply htie a (hl.1.subset ha) b (hm.1.subset hb)
  have hswap := htrans.eq_swap (a := a) (b := b)
  cases hba' : compareRows cmp keys b a with
  | lt => rw [hba'] at hswap; exact absurd hswap hab
  | eq => rw [hba'] at hswap; exact hswap
  | gt => exact absurd hba' hba

end Rows

/-- However rows compare by each column, the keys never let rows with different identifiers tie, and
arrange them in exactly one way. -/
def Settles (keys : List SortKey) : Prop :=
  ∀ (α : Type) (cmp : String → α → α → Ordering) (id : α → Uuid),
    (∀ column, TransCmp (cmp column)) → (∀ a b, cmp "id" a b = .eq → id a = id b) →
      (∀ a b, id a ≠ id b → compareRows cmp keys a b ≠ .eq) ∧
      ∀ rows : List α, (rows.map id).Nodup → ∃! arranged, IsArranged cmp keys rows arranged

theorem settles_of_id_last (keys : List SortKey) : Settles (keys ++ [⟨"id", false⟩]) := by
  intro α cmp id hcmp hid
  refine ⟨fun a b hne htie => hne (id_eq_of_tie hid htie), fun rows hrows => ?_⟩
  obtain ⟨l, hl⟩ := exists_isArranged hcmp (keys ++ [⟨"id", false⟩]) rows
  refine ⟨l, hl, fun m hm => IsArranged.unique hcmp (fun a ha b hb htie => ?_) hm hl⟩
  exact List.inj_on_of_nodup_map hrows ha hb (id_eq_of_tie hid htie)

/-- What a statement selects from a table is one list of rows and no other. -/
theorem Table.Selects.unique {r : Resource} {collate : Collation} [TransCmp collate] {t : Table r}
    {f : Filter} {limit : Int64} {records records' : List r.Record}
    (h : t.Selects collate f.lastSeen f.tests (f.orderBy.map SortKey.ofText) limit records)
    (h' : t.Selects collate f.lastSeen f.tests (f.orderBy.map SortKey.ofText) limit records') :
    records = records' := by
  obtain ⟨found, hperm, hsorted, rfl⟩ := h
  obtain ⟨found', hperm', hsorted', rfl⟩ := h'
  have hrows : ∀ a ∈ found', a ∈ t.rows := by
    intro a ha
    have hmatching := (List.mem_filter.1 (hperm'.subset ha)).1
    exact (List.mem_filter.1 hmatching).1
  rw [t.eq_of_sorted f hrows (hperm.trans hperm'.symm) hsorted hsorted']

/-! ## What a clause tells -/

section Tells

variable {fields fields' safelist safelist' : List String} {clause : String}

theorem comma_notMem (hcomma : ∀ name ∈ safelist, ',' ∉ name.toList)
    (h : ∀ raw ∈ fields, Sortable safelist raw) :
    ∀ key ∈ fields.map SortKey.ofText, ',' ∉ key.column.toList := by
  intro key hkey
  obtain ⟨raw, hraw, rfl⟩ := List.mem_map.1 hkey
  rw [SortKey.ofText_eq]
  exact hcomma _ (h raw hraw).2

theorem ofText_eq_of_clause_eq (hcomma : ∀ name ∈ safelist, ',' ∉ name.toList)
    (h : orderByClause fields safelist = .ok clause)
    (h' : orderByClause fields' safelist = .ok clause) :
    fields.map SortKey.ofText = fields'.map SortKey.ofText := by
  obtain ⟨hall, hclause⟩ := orderByClause_eq_ok_iff.1 h
  obtain ⟨hall', hclause'⟩ := orderByClause_eq_ok_iff.1 h'
  apply eq_of_orderByText_eq (comma_notMem hcomma hall) (comma_notMem hcomma hall')
  rw [orderByText_map_ofText, orderByText_map_ofText, ← hclause, hclause']

theorem orderByClause_mono (hsub : safelist ⊆ safelist')
    (h : orderByClause fields safelist = .ok clause) :
    orderByClause fields safelist' = .ok clause := by
  obtain ⟨hall, hclause⟩ := orderByClause_eq_ok_iff.1 h
  exact orderByClause_eq_ok_iff.2 ⟨fun raw hraw => (hall raw hraw).mono hsub, hclause⟩

theorem clauseKeys?_of_ok (h : orderByClause fields safelist = .ok clause) :
    ∃ keys, clauseKeys? clause = some keys ∧ Settles keys ∧
      ((∀ name ∈ safelist, ',' ∉ name.toList) →
        keys = fields.map SortKey.ofText ++ [⟨"id", false⟩]) := by
  obtain ⟨hall, rfl⟩ := orderByClause_eq_ok_iff.1 h
  obtain ⟨before, hkeys, hbefore⟩ := exists_clauseKeys? (fields.map SortKey.ofText)
  rw [orderByText_map_ofText] at hkeys
  refine ⟨_, hkeys, settles_of_id_last before, fun hcomma => ?_⟩
  rw [hbefore (comma_notMem hcomma hall)]

end Tells

/-- A list of sort fields has a clause exactly if the safelist allows all of them; otherwise the
first one that it does not allow is reported. The clause tells the names with their directions and
the identifier after them, and can be read back. A longer safelist leaves it as it is, and that of a
filter allows no more than its table does. No clause leaves the order of two rows open. -/
theorem sort_clauses_settle_order :
    (∀ fields safelist : List String,
      (∀ clause, orderByClause fields safelist = .ok clause ↔
        (∀ raw ∈ fields, Sortable safelist raw) ∧ clause = clauseText fields) ∧
      ∀ e, orderByClause fields safelist = .error e ↔
        ∃ before raw after, fields = before ++ raw :: after ∧
          (∀ b ∈ before, Sortable safelist b) ∧ ¬ Sortable safelist raw ∧
          e = .unsortableField raw) ∧
    (∀ (fields fields' safelist : List String) (clause : String),
      (∀ name ∈ safelist, ',' ∉ name.toList) → orderByClause fields safelist = .ok clause →
      orderByClause fields' safelist = .ok clause →
        fields.map (fun raw => (fieldName raw, fieldDescends raw)) =
          fields'.map fun raw => (fieldName raw, fieldDescends raw)) ∧
    (∀ (fields safelist safelist' : List String) (clause : String), safelist ⊆ safelist' →
      orderByClause fields safelist = .ok clause → orderByClause fields safelist' = .ok clause) ∧
    (∀ (f : Filter) (schema : TableSchema) (clause : String), f.orderByClause schema = .ok clause →
      orderByClause f.orderBy schema.sortable = .ok clause) ∧
    (∀ (fields safelist : List String) (clause : String),
      orderByClause fields safelist = .ok clause →
      ∃ keys, clauseKeys? clause = some keys ∧ Settles keys ∧
        ((∀ name ∈ safelist, ',' ∉ name.toList) →
          keys = fields.map (fun raw => ⟨fieldName raw, fieldDescends raw⟩) ++ [⟨"id", false⟩])) ∧
    (∀ (r : Resource) (collate : Collation) (t : Table r) (f : Filter) (limit : Int64)
      (records records' : List r.Record), TransCmp collate →
      t.Selects collate f.lastSeen f.tests (f.orderBy.map SortKey.ofText) limit records →
      t.Selects collate f.lastSeen f.tests (f.orderBy.map SortKey.ofText) limit records' →
        records = records') := by
  refine ⟨fun fields safelist => ⟨fun clause => orderByClause_eq_ok_iff, fun e => ?_⟩,
    fun fields fields' safelist clause hcomma h h' => ?_,
    fun fields safelist safelist' clause hsub h => orderByClause_mono hsub h,
    fun f schema clause h => ?_, fun fields safelist clause h => ?_,
    fun r collate t f limit records records' _ h h' => h.unique h'⟩
  · rw [orderByClause_eq_error_iff, sortKeys_eq_error_iff]
  · have hkeys := congrArg (List.map fun key : SortKey => (key.column, key.descending))
      (ofText_eq_of_clause_eq hcomma h h')
    simpa only [List.map_map, Function.comp_def, SortKey.ofText_eq] using hkeys
  · have hsub : f.safelistFor schema ⊆ schema.sortable := fun name hname =>
      (List.mem_filter.1 hname).1
    exact orderByClause_mono hsub h
  · obtain ⟨keys, hkeys, hsettles, hnames⟩ := clauseKeys?_of_ok h
    refine ⟨keys, hkeys, hsettles, fun hcomma => ?_⟩
    rw [hnames hcomma, List.map_congr_left fun raw _ => SortKey.ofText_eq raw]

/-- Two spellings of one order have one clause, which sorts users of one name as well. -/
theorem spellings_of_one_order :
    let clause := "ORDER BY name DESC, id ASC"
    let users := [namedUser ⟨5⟩ "ann", namedUser ⟨9⟩ "cy", namedUser ⟨1⟩ "ann"]
    let columns : String → User → User → Ordering := fun column a b =>
      if column = "id" then compare a.id b.id else compare a.name b.name
    orderByClause ["-name"] ["name"] = .ok clause ∧
      orderByClause ["\t-name "] ["name"] = .ok clause ∧
      orderByClause ["-name"] ["name", "email"] = .ok clause ∧
      fieldName "\t-name " = fieldName "-name" ∧
      ∃ keys, clauseKeys? clause = some keys ∧ keys = [⟨"name", true⟩, ⟨"id", false⟩] ∧
        ∃! arranged, IsArranged columns keys users arranged := by
  intro clause users columns
  have h : orderByClause ["-name"] ["name"] = .ok clause := by decide
  have h' : orderByClause ["\t-name "] ["name"] = .ok clause := by decide
  have hcomma : ∀ name ∈ ["name"], ',' ∉ name.toList := by decide
  obtain ⟨-, hinjective, hlonger, -, hsettles, -⟩ := sort_clauses_settle_order
  have hname := (List.cons.inj (hinjective _ _ _ _ hcomma h' h)).1
  obtain ⟨keys, hkeys, harranged, hnames⟩ := hsettles _ _ _ h
  have hcolumns (column : String) : TransCmp (columns column) := by
    unfold columns
    by_cases hid : column = "id"
    · simp only [if_pos hid]
      exact inferInstanceAs (TransCmp (compareOn User.id))
    · simp only [if_neg hid]
      exact inferInstanceAs (TransCmp (compareOn User.name))
  have hid (a b : User) (htie : columns "id" a b = .eq) : a.id = b.id :=
    Uuid.rank_inj.1 (Nat.compare_eq_eq.1 htie)
  exact ⟨h, h', hlonger _ _ _ _ (by simp) h, congrArg Prod.fst hname, keys, hkeys, hnames hcomma,
    (harranged User columns User.id hcolumns hid).2 users (by decide)⟩

end MessageBoard
