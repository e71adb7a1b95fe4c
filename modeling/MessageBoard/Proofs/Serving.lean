import Mathlib
import MessageBoard.Proofs.Table

/-!
# A store that keeps a table

A column has values of one type in all rows, so the order by several keys is consistent if that of
texts is, and the rows can be sorted by it. A record is read back from a row of its values, if its
times are such that the store can keep them. So there is a store for every table of such records.
-/

namespace MessageBoard

open Std

variable {σ α β : Type}

/-! ## The cells of a column -/

instance : TransOrd Uuid := inferInstanceAs (TransCmp (compareOn fun u : Uuid => u.bits.toNat))

instance : TransOrd Instant := inferInstanceAs (TransCmp (compareOn Instant.rank))

namespace ColumnType

@[reducible] def Content : ColumnType → Type
  | uuid => Uuid
  | text => String
  | flag => Bool
  | instant => Instant
  | int => Int64

def value : (t : ColumnType) → Option t.Content → Value
  | uuid, c => .uuid c
  | text, c => .text c
  | flag, c => .flag c
  | instant, c => .instant c
  | int, c => .int c

variable (collate : Collation)

def collated : (t : ColumnType) → t.Content → t.Content → Ordering
  | uuid => compare
  | text => collate
  | flag => compare
  | instant => compare
  | int => compare

instance [TransCmp collate] (t : ColumnType) : TransCmp (t.collated collate) := by
  cases t <;> simp only [collated] <;> infer_instance

end ColumnType

/-- In all rows the column has a cell of one type, or none of them has the column. -/
def Uniform (value? : α → Option Value) : Prop :=
  (∀ a, value? a = none) ∨
    ∃ (t : ColumnType) (cell : α → Option t.Content), ∀ a, value? a = some (t.value (cell a))

theorem Uniform.comp {value? : α → Option Value} (h : Uniform value?) (f : β → α) :
    Uniform fun b => value? (f b) := by
  rcases h with h | ⟨t, cell, h⟩
  · exact .inl fun b => h (f b)
  · exact .inr ⟨t, fun b => cell (f b), fun b => h (f b)⟩

theorem Shape.uniform_toValue? (s : Shape) : Uniform s.toValue? := by
  cases s with
  | uuid => exact .inr ⟨.uuid, some, fun _ => rfl⟩
  | text => exact .inr ⟨.text, some, fun _ => rfl⟩
  | flag => exact .inr ⟨.flag, some, fun _ => rfl⟩
  | instant => exact .inr ⟨.instant, some, fun _ => rfl⟩
  | number w =>
    cases w with
    | int64 => exact .inr ⟨.int, some, fun _ => rfl⟩
    | _ => exact .inl fun _ => rfl
  | option s =>
    cases s with
    | uuid => exact .inr ⟨.uuid, fun u => u, fun _ => rfl⟩
    | text => exact .inr ⟨.text, fun t => t, fun _ => rfl⟩
    | flag => exact .inr ⟨.flag, fun b => b, fun _ => rfl⟩
    | instant => exact .inr ⟨.instant, fun t => t, fun _ => rfl⟩
    | number w =>
      cases w with
      | int64 => exact .inr ⟨.int, fun n => n, fun _ => rfl⟩
      | _ => exact .inl fun _ => rfl
    | _ => exact .inl fun _ => rfl
  | _ => exact .inl fun _ => rfl

theorem Fields.uniform_value? (column : String) :
    (fs : Fields) → Uniform fun v : fs.Val => fs.value? v column
  | .nil => .inl fun _ => rfl
  | .cons name s _ rest => by
    by_cases hc : column = name
    · simp only [value?, if_pos hc]
      exact s.uniform_toValue?.comp Prod.fst
    · simp only [value?, if_neg hc]
      exact (uniform_value? column rest).comp Prod.snd

theorem Resource.uniform_value? (r : Resource) (column : String) :
    Uniform fun a : r.Record => r.value? a column := by
  have hshape (s : Shape) : Uniform fun v : s.Val => s.fieldValue? v column := by
    cases s with
    | record fs => exact Fields.uniform_value? column fs
    | _ => exact .inl fun _ => rfl
  exact (hshape r.recordWire.shape).comp r.recordWire.toVal

/-! ## The order of the rows -/

/-- The order of cells of one type, nulls at the end. -/
def nullsLast (cmp : α → α → Ordering) : Option α → Option α → Ordering
  | none, none => .eq
  | none, some _ => .gt
  | some _, none => .lt
  | some a, some b => cmp a b

theorem transCmp_on {cmp : α → α → Ordering} (h : TransCmp cmp) (f : β → α) :
    TransCmp fun a b => cmp (f a) (f b) where
  eq_swap := h.eq_swap
  isLE_trans := h.isLE_trans

instance {cmp : α → α → Ordering} [h : TransCmp cmp] : TransCmp (nullsLast cmp) where
  eq_swap {a b} := by
    cases a with
    | none => cases b <;> rfl
    | some a =>
      cases b with
      | none => rfl
      | some b => exact h.eq_swap
  isLE_trans {a b c} hab hbc := by
    cases a with
    | none =>
      cases b with
      | none => exact hbc
      | some b => cases hab
    | some a =>
      cases c with
      | none => rfl
      | some c =>
        cases b with
        | none => cases hbc
        | some b => exact h.isLE_trans hab hbc

section Keys

variable {collate : Collation}

theorem Value.sortCompare_value (t : ColumnType) (a b : Option t.Content) :
    (t.value a).sortCompare collate (t.value b) = nullsLast (t.collated collate) a b := by
  cases t <;> cases a <;> cases b <;> rfl

variable [TransCmp collate] (value? : α → String → Option Value)
  (hcolumns : ∀ column, Uniform fun a => value? a column)

include hcolumns

theorem SortKey.transCmp_compare (key : SortKey) :
    TransCmp fun a b => key.compare collate (value? a) (value? b) := by
  obtain ⟨cmp, hcmp, heq⟩ : ∃ cmp : α → α → Ordering, TransCmp cmp ∧
      ∀ a b, key.compare collate (value? a) (value? b) =
        if key.descending then (cmp a b).swap else cmp a b := by
    rcases hcolumns key.column with h | ⟨t, cell, h⟩
    · refine ⟨fun _ _ => .eq, { eq_swap := rfl, isLE_trans := fun _ _ => rfl }, fun a b => ?_⟩
      simp only [compare, h]
    · refine ⟨fun a b => nullsLast (t.collated collate) (cell a) (cell b),
        transCmp_on inferInstance cell, fun a b => ?_⟩
      simp only [compare, h, Value.sortCompare_value]
  simp only [heq]
  by_cases hd : key.descending = true
  · simp only [if_pos hd, ← hcmp.eq_swap]
    exact TransCmp.opposite
  · simp only [if_neg hd]
    exact hcmp

theorem transCmp_compareBy (keys : List SortKey) :
    TransCmp fun a b => compareBy collate keys (value? a) (value? b) := by
  induction keys with
  | nil => exact { eq_swap := rfl, isLE_trans := fun _ _ => rfl }
  | cons key keys ih =>
    have hkey : TransCmp fun a b => key.compare collate (value? a) (value? b) :=
      key.transCmp_compare value? hcolumns
    exact inferInstanceAs (TransCmp (compareLex
      (fun a b => key.compare collate (value? a) (value? b))
      fun a b => compareBy collate keys (value? a) (value? b)))

end Keys

/-! ## Rows that are read back -/

def Shape.cell (s : Shape) (v : s.Val) : Cell :=
  (s.toValue? v).elim .null fun w => .bound (.value w)

def Shape.Keeps (s : Shape) (v : s.Val) : Prop := s.ofCell? (s.cell v) = some v

namespace Fields

def row : (fs : Fields) → fs.Val → Row
  | .nil, _ => []
  | .cons name s _ rest, (v, vs) => (name, s.cell v) :: rest.row vs

def Keeps : (fs : Fields) → fs.Val → Prop
  | .nil, _ => True
  | .cons _ s _ rest, (v, vs) => s.Keeps v ∧ rest.Keeps vs

theorem ofRow?_row : (fs : Fields) → fs.names.Nodup → (before : Row) →
    (∀ c ∈ before, c.1 ∉ fs.names) → (v : fs.Val) → fs.Keeps v →
    fs.ofRow? (before ++ fs.row v) = some v
  | .nil, _, _, _, _, _ => rfl
  | .cons name s p rest, hnames, before, hbefore, (v, vs), ⟨hv, hvs⟩ => by
    obtain ⟨hname, hnames⟩ := List.nodup_cons.1 hnames
    have hlookup : (before ++ (cons name s p rest).row (v, vs)).lookup name = some (s.cell v) := by
      have hnone : before.lookup name = none := by
        refine List.lookup_eq_none_iff.2 fun c hc => ?_
        have hne : c.1 ≠ name := fun h => hbefore c hc (h ▸ List.mem_cons_self)
        exact bne_iff_ne.2 hne.symm
      rw [List.lookup_append, hnone, Option.none_or, row, List.lookup_cons_self]
    have hrest := ofRow?_row rest hnames (before ++ [(name, s.cell v)]) (fun c hc => ?_) vs hvs
    · have heq : before ++ (cons name s p rest).row (v, vs) =
          before ++ [(name, s.cell v)] ++ rest.row vs := by
        rw [row, List.append_assoc]
        rfl
      have hv : s.ofCell? (s.cell v) = some v := hv
      rw [ofRow?, hlookup, heq, hrest]
      simp only [bind, Option.bind, hv, pure]
    · rcases List.mem_append.1 hc with hc | hc
      · exact fun h => hbefore c hc (List.mem_cons_of_mem _ h)
      · rw [List.mem_singleton.1 hc]
        exact hname

end Fields

/-- The times are such that the store can keep them. -/
def Stamps.Stored (s : Stamps) : Prop :=
  s.created.stored = s.created ∧ s.updated.stored = s.updated ∧ ∀ t ∈ s.deletedAt, t.stored = t

instance (s : Stamps) : Decidable s.Stored := inferInstanceAs (Decidable (_ ∧ _ ∧ _))

namespace Shape

theorem keeps_instant {t : Instant} (h : t.stored = t) : instant.Keeps t := congrArg some h

theorem keeps_option_instant {t : Option Instant} (h : ∀ u ∈ t, u.stored = u) :
    (option instant).Keeps t := by
  cases t with
  | none => rfl
  | some t => exact congrArg (fun u => some (some u)) (h t rfl)

theorem keeps_number (n : Int64) : (number .int64).Keeps n := by
  have h : (Int64.ofInt n.toInt).toInt = n.toInt := by rw [Int64.ofInt_toInt]
  have hread : Width.ofInt? .int64 n.toInt = some (Int64.ofInt n.toInt) := if_pos h
  exact hread.trans (congrArg some (Int64.ofInt_toInt n))

theorem keeps_option_uuid (u : Option Uuid) : (option uuid).Keeps u := by
  cases u <;> rfl

theorem keeps_option_text (t : Option String) : (option text).Keeps t := by
  cases t <;> rfl

end Shape

theorem Stamps.keeps {s : Stamps} (h : s.Stored) : Stamps.fields.Keeps s.toVal :=
  ⟨Shape.keeps_instant h.1, Shape.keeps_instant h.2.1, rfl, Shape.keeps_option_instant h.2.2,
    trivial⟩

theorem Wire.ofRow?_row {α : Type} {fs : Fields} {toVal : α → fs.Val} {ofVal : fs.Val → α} {a : α}
    (hnames : fs.names.Nodup) (hkeeps : fs.Keeps (toVal a)) (hback : ofVal (toVal a) = a) :
    (⟨.record fs, toVal, ofVal⟩ : Wire α).ofRow? (fs.row (toVal a)) = some a := by
  have hread : fs.ofRow? (fs.row (toVal a)) = some (toVal a) :=
    fs.ofRow?_row hnames [] (fun _ hc => absurd hc List.not_mem_nil) (toVal a) hkeeps
  rw [ofRow?, Shape.ofRow?, hread]
  exact congrArg some hback

def Shape.row : (s : Shape) → s.Val → Row
  | .record fs, v => fs.row v
  | _, _ => []

def Resource.row (r : Resource) (a : r.Record) : Row :=
  r.recordWire.shape.row (r.recordWire.toVal a)

/-- A record is read back from its row, if the store can keep its times. -/
theorem Resource.readRecord_row (r : Resource) {a : r.Record} (h : (r.stamps a).Stored) :
    Repository.readRecord r (r.row a) = some a := by
  have hstamps := Stamps.keeps h
  cases r with
  | user =>
    have hkeeps : User.fields.Keeps (User.toVal a) := ⟨rfl, rfl, rfl, rfl, hstamps⟩
    exact Wire.ofRow?_row (by decide) hkeeps rfl
  | forum =>
    have hkeeps : Forum.fields.Keeps (Forum.toVal a) :=
      ⟨rfl, rfl, rfl, Shape.keeps_option_text _, hstamps⟩
    exact Wire.ofRow?_row (by decide) hkeeps rfl
  | thread =>
    have hkeeps : Thread.fields.Keeps (Thread.toVal a) :=
      ⟨rfl, rfl, rfl, rfl, rfl, Shape.keeps_number _, hstamps⟩
    exact Wire.ofRow?_row (by decide) hkeeps rfl
  | post =>
    have hkeeps : Post.fields.Keeps (Post.toVal a) :=
      ⟨rfl, rfl, Shape.keeps_option_uuid _, rfl, rfl, hstamps⟩
    exact Wire.ofRow?_row (by decide) hkeeps rfl

/-! ## The store -/

namespace Table

variable {r : Resource} (collate : Collation) (t : Table r)

def sorted (after : Uuid) (tests : List Test) (order : List SortKey) : List r.Record :=
  ((t.matching collate tests).filter fun a => after < r.id a).mergeSort fun a b =>
    (compareBy collate (order ++ [⟨"id", false⟩]) (r.value? a) (r.value? b)).isLE

/-- A store that keeps the table as it is. -/
def store : Store σ
  | .execute (.page _ after tests order limit), s =>
    (.rows (((t.sorted collate after tests order).take limit.toInt.toNat).map r.row), s)
  | .execute (.count _ tests), s =>
    (.rows [[("count", .int (t.matching collate tests).length)]], s)
  | _, s => (.rows [], s)

theorem sorted_perm (after : Uuid) (tests : List Test) (order : List SortKey) :
    (t.sorted collate after tests order).Perm
      ((t.matching collate tests).filter fun a => after < r.id a) :=
  List.mergeSort_perm _ _

variable {collate} [TransCmp collate]

theorem pairwise_sorted (after : Uuid) (tests : List Test) (order : List SortKey) :
    (t.sorted collate after tests order).Pairwise fun a b =>
      compareBy collate (order ++ [⟨"id", false⟩]) (r.value? a) (r.value? b) ≠ .gt := by
  have htrans : TransCmp fun a b : r.Record =>
      compareBy collate (order ++ [⟨"id", false⟩]) (r.value? a) (r.value? b) :=
    transCmp_compareBy r.value? r.uniform_value? _
  refine (List.pairwise_mergeSort (fun a b c hab hbc => ?_) (fun a b => ?_) _).imp fun hle => ?_
  · exact htrans.isLE_trans hab hbc
  · rw [htrans.eq_swap (a := b), Ordering.isLE_swap]
    cases compareBy collate (order ++ [⟨"id", false⟩]) (r.value? a) (r.value? b) <;> rfl
  · exact Ordering.isLE_iff_ne_gt.1 hle

/-- There is a store for every table with times that a store can keep. -/
theorem serves_store {t : Table r} (hstored : ∀ a ∈ t.rows, (r.stamps a).Stored) :
    t.Serves collate (t.store collate : Store σ) where
  opens s := ⟨[], rfl⟩
  commits s := ⟨[], rfl⟩
  selects s after tests order limit _ _ _ := by
    have hperm := t.sorted_perm collate after tests order
    have hread : ∀ a ∈ (t.sorted collate after tests order).take limit.toInt.toNat,
        Repository.readRecord r (r.row a) = some a := by
      intro a ha
      have hmatching := (List.mem_filter.1 (hperm.subset (List.mem_of_mem_take ha))).1
      exact r.readRecord_row (hstored a (List.mem_filter.1 hmatching).1)
    exact ⟨_, _, rfl, Rows.all_map hread, t.sorted collate after tests order, hperm,
      t.pairwise_sorted after tests order, rfl⟩
  counts s tests _ := ⟨"count", rfl⟩

end Table

end MessageBoard
