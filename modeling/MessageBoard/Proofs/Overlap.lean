import Mathlib
import MessageBoard.Proofs.Walk

/-!
# Walks in any order

The cursor is the identifier of the row that a page ends with, whatever the rows are sorted by. So
fewer rows lie behind the cursor with every page that is not empty, which ends a walk in any order.
But what a page shows may still lie behind the next cursor: then it is shown again, and again until
a cursor has passed it.
-/

namespace MessageBoard

open Std

variable {r : Resource} {collate : Collation}

/-! ## What lies behind a cursor -/

namespace Table

variable (collate) (t : Table r) (f : Filter)

/-- The rows that the filter admits behind a cursor. -/
def behind (after : Uuid) : List r.Record :=
  (t.admitted collate f).filter fun a => after < r.id a

theorem mem_behind {after : Uuid} {a : r.Record} :
    a ∈ t.behind collate f after ↔ a ∈ t.admitted collate f ∧ after < r.id a := by
  rw [behind, List.mem_filter, decide_eq_true_eq]

theorem nodup_behind (after : Uuid) : ((t.behind collate f after).map r.id).Nodup :=
  (t.nodup_admitted collate f).sublist (List.filter_sublist.map r.id)

theorem behind_zero :
    t.behind collate f .zero = (t.admitted collate f).filter fun a => r.id a ≠ .zero := by
  refine List.filter_congr fun a _ => decide_eq_decide.2 ?_
  rw [Uuid.lt_iff_rank]
  constructor
  · intro hlt heq
    rw [heq] at hlt
    omega
  · intro hne
    exact Uuid.rank_pos hne

theorem behind_of_le {c d : Uuid} (h : c.rank ≤ d.rank) :
    (t.behind collate f c).filter (fun a => d < r.id a) = t.behind collate f d := by
  rw [behind, behind, List.filter_filter]
  refine List.filter_congr fun a _ => ?_
  rw [← Bool.decide_and, decide_eq_decide, Uuid.lt_iff_rank, Uuid.lt_iff_rank]
  omega

theorem length_behind_lt {c : Uuid} {a : r.Record} (ha : a ∈ t.behind collate f c) :
    (t.behind collate f (r.id a)).length < (t.behind collate f c).length := by
  have hlt := Uuid.lt_iff_rank.1 ((t.mem_behind collate f).1 ha).2
  rw [← t.behind_of_le collate f (Nat.le_of_lt hlt)]
  refine List.length_filter_lt_length_iff_exists.2 ⟨a, ha, ?_⟩
  rw [decide_eq_true_eq, Uuid.lt_iff_rank]
  omega

end Table

/-! ## One page -/

def Filter.order (f : Filter) : List SortKey := f.orderBy.map SortKey.ofText ++ [⟨"id", false⟩]

/-- A page cut off the rows behind a cursor, which are sorted by the keys of the filter. -/
structure IsCut (collate : Collation) (t : Table r) (f : Filter) (cursor : Uuid)
    (found : List r.Record) (page : Page r.Record) : Prop where
  perm : found.Perm (t.behind collate f cursor)
  sorted : found.Pairwise fun a b => compareBy collate f.order (r.value? a) (r.value? b) ≠ .gt
  rows_eq : page.rows = found.take f.pageSize.toNat
  next_iff : page.metadata.next = true ↔ f.pageSize.toNat < found.length
  lastSeen_eq : page.metadata.lastSeen = (page.rows.getLast?.map r.id).getD cursor

theorem Filter.Accepted.isCut {t : Table r} {f : Filter} (hf : f.Accepted r.schema)
    {records : List r.Record}
    (h : t.Selects collate f.lastSeen f.tests (f.orderBy.map SortKey.ofText)
      (.ofNat (f.pageSize.toNat + 1)) records) :
    ∃ found, IsCut collate t f f.lastSeen found (.ofRows records f.pageSize f.lastSeen r.id) := by
  obtain ⟨found, hperm, hsorted, rfl⟩ := h
  have hlimit : (Int64.ofNat (f.pageSize.toNat + 1)).toInt.toNat = f.pageSize.toNat + 1 := by
    rw [limit_toInt f hf.pageSize_le]
    omega
  have hkept : (found.take (f.pageSize.toNat + 1)).take f.pageSize.toNat =
      found.take f.pageSize.toNat := by
    rw [List.take_take, Nat.min_eq_left (Nat.le_succ _)]
  rw [t.matching_tests] at hperm
  rw [hlimit]
  refine ⟨found, hperm, hsorted, hkept, ?_, rfl⟩
  simp only [Page.ofRows, decide_eq_true_eq, List.length_take]
  omega

namespace IsCut

variable {t : Table r} {f : Filter} {cursor : Uuid} {found : List r.Record} {page : Page r.Record}

theorem mem_behind (h : IsCut collate t f cursor found page) {a : r.Record}
    (ha : a ∈ page.rows) : a ∈ t.behind collate f cursor := by
  rw [h.rows_eq] at ha
  exact h.perm.subset (List.mem_of_mem_take ha)

theorem nodup (h : IsCut collate t f cursor found page) : (page.rows.map r.id).Nodup := by
  have hfound : (found.map r.id).Nodup :=
    (h.perm.map r.id).nodup_iff.2 (t.nodup_behind collate f cursor)
  rw [h.rows_eq]
  exact hfound.sublist ((List.take_sublist _ _).map r.id)

theorem lastSeen_cases (h : IsCut collate t f cursor found page) :
    (page.rows = [] ∧ page.metadata.lastSeen = cursor) ∨
      ∃ a ∈ page.rows, page.metadata.lastSeen = r.id a := by
  rw [h.lastSeen_eq]
  rcases List.eq_nil_or_concat page.rows with hnil | ⟨init, a, hlast⟩
  · left
    rw [hnil]
    exact ⟨rfl, rfl⟩
  · right
    refine ⟨a, ?_, ?_⟩
    · rw [hlast, List.concat_eq_append]
      exact List.mem_append_right _ (List.mem_singleton_self a)
    · rw [hlast, List.concat_eq_append, List.getLast?_concat]
      rfl

theorem cursor_lt (h : IsCut collate t f cursor found page) (hne : page.rows ≠ []) :
    cursor < page.metadata.lastSeen := by
  rcases h.lastSeen_cases with ⟨hnil, -⟩ | ⟨a, ha, hlast⟩
  · exact absurd hnil hne
  · rw [hlast]
    exact ((t.mem_behind collate f).1 (h.mem_behind ha)).2

theorem cursor_le (h : IsCut collate t f cursor found page) :
    cursor.rank ≤ page.metadata.lastSeen.rank := by
  rcases h.lastSeen_cases with ⟨-, hlast⟩ | ⟨a, ha, -⟩
  · rw [hlast]
  · exact Nat.le_of_lt (Uuid.lt_iff_rank.1 (h.cursor_lt (List.ne_nil_of_mem ha)))

/-- A page that another one follows is not empty, and the last row on it is not behind the cursor
any more. -/
theorem length_behind_lt (h : IsCut collate t f cursor found page) (hsize : 0 < f.pageSize.toNat)
    (hnext : page.metadata.next = true) :
    f.pageSize.toNat < (t.behind collate f cursor).length ∧
      (t.behind collate f page.metadata.lastSeen).length <
        (t.behind collate f cursor).length := by
  have hlength : f.pageSize.toNat < found.length := h.next_iff.1 hnext
  refine ⟨h.perm.length_eq ▸ hlength, ?_⟩
  rcases h.lastSeen_cases with ⟨hnil, -⟩ | ⟨a, ha, hlast⟩
  · have hrows : page.rows.length = min f.pageSize.toNat found.length := by
      rw [h.rows_eq, List.length_take]
    rw [hnil, List.length_nil] at hrows
    omega
  · rw [hlast]
    exact t.length_behind_lt collate f (h.mem_behind ha)

end IsCut

/-! ## The order of the rows of a table -/

theorem compareBy_append (keys : List SortKey) (key : SortKey) (v w : String → Option Value) :
    compareBy collate (keys ++ [key]) v w =
      (compareBy collate keys v w).then (key.compare collate v w) := by
  induction keys with
  | nil =>
    simp only [List.nil_append, compareBy]
    cases key.compare collate v w <;> rfl
  | cons k keys ih =>
    simp only [List.cons_append, compareBy, ih]
    cases k.compare collate v w <;> rfl

theorem id_eq_of_compareBy_eq {f : Filter} {a b : r.Record}
    (h : compareBy collate f.order (r.value? a) (r.value? b) = .eq) : r.id a = r.id b := by
  rw [Filter.order, compareBy_append, Ordering.then_eq_eq] at h
  have hkey := h.2
  simp only [SortKey.compare, r.value?_id] at hkey
  exact Uuid.rank_inj.1 (Nat.compare_eq_eq.1 hkey)

namespace Table

variable [TransCmp collate] (t : Table r) (f : Filter)

theorem eq_of_sorted {l m : List r.Record} (hrows : ∀ a ∈ m, a ∈ t.rows) (hperm : l.Perm m)
    (hl : l.Pairwise fun a b => compareBy collate f.order (r.value? a) (r.value? b) ≠ .gt)
    (hm : m.Pairwise fun a b => compareBy collate f.order (r.value? a) (r.value? b) ≠ .gt) :
    l = m := by
  refine List.Perm.eq_of_pairwise (fun a b ha hb hab hba => ?_) hl hm hperm
  have hcmp : TransCmp fun a b : r.Record =>
      compareBy collate f.order (r.value? a) (r.value? b) :=
    transCmp_compareBy r.value? r.uniform_value? _
  have hswap : compareBy collate f.order (r.value? a) (r.value? b) =
      (compareBy collate f.order (r.value? b) (r.value? a)).swap := hcmp.eq_swap
  have heq : compareBy collate f.order (r.value? a) (r.value? b) = .eq := by
    cases hc : compareBy collate f.order (r.value? b) (r.value? a) with
    | lt => rw [hc] at hswap; exact absurd hswap hab
    | eq => rw [hc] at hswap; exact hswap
    | gt => exact absurd hc hba
  exact t.eq_of_id_eq (hrows a (hperm.subset ha)) (hrows b hb) (id_eq_of_compareBy_eq heq)

/-- What is found behind a later cursor is what is found behind an earlier one and lies behind the
later one, in the same order. -/
theorem found_eq_filter {c d : Uuid} {found later : List r.Record} {page next : Page r.Record}
    (h : IsCut collate t f c found page) (h' : IsCut collate t f d later next)
    (hle : c.rank ≤ d.rank) : later = found.filter fun a => d < r.id a := by
  have hperm : later.Perm (found.filter fun a => d < r.id a) := by
    refine h'.perm.trans ?_
    rw [← t.behind_of_le collate f hle]
    exact (h.perm.filter _).symm
  refine t.eq_of_sorted f (fun a ha => ?_) hperm h'.sorted (h.sorted.sublist List.filter_sublist)
  have hbehind := h.perm.subset (List.mem_filter.1 ha).1
  exact ((t.mem_admitted collate).1 ((t.mem_behind collate f).1 hbehind).1).1

/-- A row of a page is on a later page as well exactly if the cursor has not passed it. -/
theorem mem_later_iff {c d : Uuid} {found later : List r.Record} {page next : Page r.Record}
    (h : IsCut collate t f c found page) (h' : IsCut collate t f d later next)
    (hle : c.rank ≤ d.rank) {a : r.Record} (ha : a ∈ page.rows) :
    a ∈ next.rows ↔ d < r.id a := by
  refine ⟨fun hmem => ((t.mem_behind collate f).1 (h'.mem_behind hmem)).2, fun hlt => ?_⟩
  rw [h.rows_eq] at ha
  -- the rows before `a` that the cursor has passed only make room for more
  have hprefix : (found.take f.pageSize.toNat).filter (fun a => d < r.id a) <+:
      (found.filter fun a => d < r.id a).take f.pageSize.toNat := by
    refine List.prefix_take_iff.2 ⟨(List.take_prefix _ _).filter _, ?_⟩
    exact (List.length_filter_le _ _).trans (List.length_take_le _ _)
  rw [h'.rows_eq, t.found_eq_filter f h h' hle]
  exact hprefix.subset (List.mem_filter.2 ⟨ha, decide_eq_true hlt⟩)

end Table

/-! ## Walks over one table -/

section Client

variable {σ : Type} {limit : Option Duration} {f : Filter} {t : Table r} {stores : Nat → Store σ}
  {states : Nat → σ} {pages : Nat → Page r.Record}

theorem IsWalk.exists_isCut (hf : f.Accepted r.schema)
    (hserves : ∀ i, t.Serves collate (stores i)) (hwalk : IsWalk limit f stores states pages)
    (i : Nat) : ∃ found, IsCut collate t f (cursor pages i) found (pages i) := by
  obtain ⟨records, hselects, hpage⟩ :=
    (Repository.list_served (hserves i) (hf.after _) limit (states i)).2 _ (hwalk i)
  obtain ⟨found, hcut⟩ := (hf.after _).isCut hselects
  rw [hpage]
  exact ⟨found, hcut.perm, hcut.sorted, hcut.rows_eq, hcut.next_iff, hcut.lastSeen_eq⟩

variable (hcuts : ∀ i, ∃ found, IsCut collate t f (cursor pages i) found (pages i))

include hcuts

theorem rank_cursor_mono {i j : Nat} (h : i ≤ j) :
    (cursor pages i).rank ≤ (cursor pages j).rank := by
  induction h with
  | refl => exact Nat.le_refl _
  | @step j _ ih =>
    obtain ⟨found, hcut⟩ := hcuts j
    exact ih.trans hcut.cursor_le

/-- Each page that another one follows leaves fewer rows behind the cursor. -/
theorem length_behind_add_le (hsize : 0 < f.pageSize.toNat) {n : Nat}
    (hnext : ∀ i < n, (pages i).metadata.next = true) :
    (t.behind collate f (cursor pages n)).length + n ≤ (t.behind collate f .zero).length := by
  induction n with
  | zero => exact Nat.le_refl _
  | succ n ih =>
    obtain ⟨found, hcut⟩ := hcuts n
    have hbefore := ih fun i hi => hnext i (Nat.lt_succ_of_lt hi)
    have hfewer := (hcut.length_behind_lt hsize (hnext n (Nat.lt_succ_self n))).2
    have hcursor : cursor pages (n + 1) = (pages n).metadata.lastSeen := rfl
    rw [hcursor]
    omega

theorem exists_stopsAt_le (hsize : 0 < f.pageSize.toNat) :
    ∃ k, StopsAt pages k ∧ k + 1 ≤ max 1 (t.behind collate f .zero).length := by
  have hsome : ∃ k, (pages k).metadata.next = false := by
    by_contra hall
    have hnext : ∀ i < (t.behind collate f .zero).length + 1, (pages i).metadata.next = true := by
      intro i _
      by_contra hi
      exact hall ⟨i, by simpa using hi⟩
    have hle := length_behind_add_le hcuts hsize hnext
    omega
  classical
  have hbefore : ∀ i < Nat.find hsome, (pages i).metadata.next = true := by
    intro i hi
    simpa using Nat.find_min hsome hi
  refine ⟨Nat.find hsome, ⟨hbefore, Nat.find_spec hsome⟩, ?_⟩
  cases hk : Nat.find hsome with
  | zero => exact Nat.le_max_left _ _
  | succ j =>
    rw [hk] at hbefore
    obtain ⟨found, hcut⟩ := hcuts j
    have hmany := (hcut.length_behind_lt hsize (hbefore j (Nat.lt_succ_self j))).1
    have hle := length_behind_add_le hcuts hsize fun i hi => hbefore i (Nat.lt_succ_of_lt hi)
    omega

theorem mem_again_iff [TransCmp collate] {i j : Nat} (hij : i < j) {a : r.Record}
    (ha : a ∈ (pages i).rows) :
    r.id a ∈ (pages j).rows.map r.id ↔ cursor pages j < r.id a := by
  obtain ⟨found, hcut⟩ := hcuts i
  obtain ⟨later, hcut'⟩ := hcuts j
  have hle := rank_cursor_mono hcuts (Nat.le_of_lt hij)
  rw [← t.mem_later_iff f hcut hcut' hle ha]
  refine ⟨fun hmem => ?_, List.mem_map_of_mem⟩
  obtain ⟨b, hb, hid⟩ := List.mem_map.1 hmem
  have hrow {c : Uuid} {x : r.Record} (hx : x ∈ t.behind collate f c) : x ∈ t.rows :=
    ((t.mem_admitted collate).1 ((t.mem_behind collate f).1 hx).1).1
  rwa [← t.eq_of_id_eq (hrow (hcut'.mem_behind hb)) (hrow (hcut.mem_behind ha)) hid]

end Client

def namedUser (id : Uuid) (name : String) : User :=
  ⟨id, name, name, "someone@example.com", ⟨.epoch, .epoch, false, none⟩⟩

def threeUsers : Table .user :=
  ⟨[namedUser ⟨1⟩ "bob", namedUser ⟨5⟩ "ann", namedUser ⟨9⟩ "cy"], by decide⟩

def twoByName : Filter := { orderBy := ["name"], pageSize := 2 }

theorem serves_threeUsers : threeUsers.Serves compare (threeUsers.store compare : Store Unit) :=
  Table.serves_store (by decide)

theorem first_by_name :
    ((Repository.list none .user (twoByName.after .zero)).run
        (threeUsers.store compare) ()).value? =
      some (.ok ⟨[namedUser ⟨5⟩ "ann", namedUser ⟨1⟩ "bob"], ⟨⟨1⟩, true, 2⟩⟩) := by cbv

theorem second_by_name :
    ((Repository.list none .user (twoByName.after ⟨1⟩)).run (threeUsers.store compare) ()).value? =
      some (.ok ⟨[namedUser ⟨5⟩ "ann", namedUser ⟨9⟩ "cy"], ⟨⟨9⟩, false, 2⟩⟩) := by cbv

section ByName

variable {pages : Nat → Page User}
  (h : IsWalk (r := .user) none twoByName (fun _ => threeUsers.store compare) (fun _ => ()) pages)

include h

theorem pages_by_name :
    pages 0 = ⟨[namedUser ⟨5⟩ "ann", namedUser ⟨1⟩ "bob"], ⟨⟨1⟩, true, 2⟩⟩ ∧
      pages 1 = ⟨[namedUser ⟨5⟩ "ann", namedUser ⟨9⟩ "cy"], ⟨⟨9⟩, false, 2⟩⟩ := by
  have hfirst := Except.ok.inj (Option.some.inj ((h 0).symm.trans first_by_name))
  have hcursor : cursor (r := .user) pages 1 = ⟨1⟩ := by rw [cursor, hfirst]
  have hpage := h 1
  rw [hcursor] at hpage
  exact ⟨hfirst, Except.ok.inj (Option.some.inj (hpage.symm.trans second_by_name))⟩

theorem stopsAt_by_name : StopsAt (r := .user) pages 1 := by
  obtain ⟨hfirst, hsecond⟩ := pages_by_name h
  refine ⟨fun i hi => ?_, ?_⟩
  · rw [Nat.lt_one_iff.1 hi, hfirst]
  · rw [hsecond]

end ByName

/-- A walk in any accepted order over a table that stays as it is: each page holds rows that the
filter admits, behind its cursor, none of them twice and in the order asked for; the cursor moves on
with every page that is not empty; and the walk ends after as many pages as there are rows to show,
if not before. -/
theorem walk_in_any_order_ends {σ : Type} (collate : Collation) (r : Resource) (f : Filter)
    (hf : f.check r.schema = .ok ()) (limit : Option Duration) (t : Table r)
    (stores : Nat → Store σ) (states : Nat → σ) (hserves : ∀ i, t.Serves collate (stores i)) :
    (HasTime limit → ∃ pages : Nat → Page r.Record, IsWalk limit f stores states pages) ∧
    ∀ pages : Nat → Page r.Record, IsWalk limit f stores states pages →
      (∀ i, (∀ a ∈ (pages i).rows, a ∈ t.admitted collate f ∧ cursor pages i < r.id a) ∧
        ((pages i).rows ≠ [] → cursor pages i < (pages i).metadata.lastSeen) ∧
        ((pages i).rows.map r.id).Nodup ∧
        (pages i).rows.Pairwise fun a b =>
          compareBy collate f.order (r.value? a) (r.value? b) ≠ .gt) ∧
      ∃ k, StopsAt pages k ∧
        k + 1 ≤ max 1 ((t.admitted collate f).filter fun a => r.id a ≠ .zero).length := by
  have haccepted := Filter.check_eq_ok_iff.1 hf
  have hsize : 0 < f.pageSize.toNat :=
    Nat.pos_of_ne_zero fun h0 => haccepted.pageSize_ne (UInt32.toNat_inj.1 h0)
  refine ⟨fun hl => exists_isWalk haccepted hl hserves, fun pages hwalk => ?_⟩
  have hcuts := hwalk.exists_isCut haccepted hserves
  refine ⟨fun i => ?_, ?_⟩
  · obtain ⟨found, hcut⟩ := hcuts i
    refine ⟨fun a ha => (t.mem_behind collate f).1 (hcut.mem_behind ha), hcut.cursor_lt,
      hcut.nodup, ?_⟩
    rw [hcut.rows_eq]
    exact hcut.sorted.sublist (List.take_sublist _ _)
  · rw [← t.behind_zero collate f]
    exact exists_stopsAt_le hcuts hsize

/-- By name ann comes before bob, so that the first page ends with his identifier. It lies before
hers, and the second page shows her again. -/
theorem walk_by_name_ends :
    ∃ (pages : Nat → Page User) (k : Nat),
      IsWalk (r := .user) none twoByName (fun _ => threeUsers.store compare) (fun _ => ()) pages ∧
        StopsAt (r := .user) pages k ∧ k + 1 ≤ 3 ∧ k = 1 ∧
        pages 0 = ⟨[namedUser ⟨5⟩ "ann", namedUser ⟨1⟩ "bob"], ⟨⟨1⟩, true, 2⟩⟩ ∧
        pages 1 = ⟨[namedUser ⟨5⟩ "ann", namedUser ⟨9⟩ "cy"], ⟨⟨9⟩, false, 2⟩⟩ ∧
        ∀ i ≤ k, cursor (r := .user) pages i < (pages i).metadata.lastSeen ∧
          (pages i).rows.Pairwise fun a b =>
            compareBy compare twoByName.order (Resource.user.value? a) (Resource.user.value? b) ≠
              .gt := by
  obtain ⟨hwalks, hall⟩ := walk_in_any_order_ends compare .user twoByName (by decide) none
    threeUsers (fun _ => threeUsers.store compare) (fun _ => ()) fun _ => serves_threeUsers
  obtain ⟨pages, hpages⟩ := hwalks fun d hd => by cases hd
  obtain ⟨hfirst, hsecond⟩ := pages_by_name hpages
  obtain ⟨hsound, k, hk, hle⟩ := hall pages hpages
  have hk1 : k = 1 := hk.unique (stopsAt_by_name hpages)
  refine ⟨pages, k, hpages, hk, hle.trans (by decide), hk1, hfirst, hsecond, fun i hi => ?_⟩
  have hrows : (pages i).rows ≠ [] := by
    obtain rfl | rfl : i = 0 ∨ i = 1 := by omega
    · rw [hfirst]
      exact List.cons_ne_nil _ _
    · rw [hsecond]
      exact List.cons_ne_nil _ _
  exact ⟨(hsound i).2.1 hrows, (hsound i).2.2.2⟩

/-- A walk over a table that stays as it is shows a row again on each later page until the cursor
has passed it. So it shows no row on two pages exactly if each page that another one follows ends
with the greatest of its identifiers, as it does when rows are sorted by identifiers or a page
holds one row. -/
theorem walk_repeats_what_lies_ahead {σ : Type} (collate : Collation) [TransCmp collate]
    (r : Resource) (f : Filter) (hf : f.check r.schema = .ok ()) (limit : Option Duration)
    (t : Table r) (stores : Nat → Store σ) (states : Nat → σ)
    (hserves : ∀ i, t.Serves collate (stores i)) (pages : Nat → Page r.Record)
    (hwalk : IsWalk limit f stores states pages) :
    (∀ i j, i < j → ∀ a ∈ (pages i).rows,
      r.id a ∈ (pages j).rows.map r.id ↔ cursor pages j < r.id a) ∧
    (∀ k, (∀ i j, i < j → j ≤ k → ((pages i).rows.map r.id).Disjoint ((pages j).rows.map r.id)) ↔
      ∀ i < k, ∀ a ∈ (pages i).rows, ¬ (pages i).metadata.lastSeen < r.id a) ∧
    (f.SortedById ∨ f.pageSize = 1 → ∀ i j, i < j →
      ((pages i).rows.map r.id).Disjoint ((pages j).rows.map r.id)) := by
  have haccepted := Filter.check_eq_ok_iff.1 hf
  have hcuts := hwalk.exists_isCut haccepted hserves
  have hagain (i j : Nat) (hij : i < j) (a : r.Record) (ha : a ∈ (pages i).rows) :
      r.id a ∈ (pages j).rows.map r.id ↔ cursor pages j < r.id a := mem_again_iff hcuts hij ha
  -- what a page has left behind its own cursor stays behind all later ones
  have hpassed (i j : Nat) (hij : i < j)
      (h : ∀ a ∈ (pages i).rows, ¬ (pages i).metadata.lastSeen < r.id a) :
      ((pages i).rows.map r.id).Disjoint ((pages j).rows.map r.id) := by
    intro id hi hj
    obtain ⟨a, ha, rfl⟩ := List.mem_map.1 hi
    have hlt := Uuid.lt_iff_rank.1 ((hagain i j hij a ha).1 hj)
    have hle : (pages i).metadata.lastSeen.rank ≤ (cursor pages j).rank :=
      rank_cursor_mono hcuts hij
    refine h a ha (Uuid.lt_iff_rank.2 ?_)
    omega
  refine ⟨hagain, fun k => ⟨fun hdisjoint i hi a ha hlt => ?_, fun hlast i j hij hjk => ?_⟩,
    fun hf' i j hij => hpassed i j hij fun a ha hlt => ?_⟩
  · have hmem := (hagain i (i + 1) (Nat.lt_succ_self i) a ha).2 hlt
    exact hdisjoint i (i + 1) (Nat.lt_succ_self i) hi (List.mem_map_of_mem ha) hmem
  · exact hpassed i j hij (hlast i (Nat.lt_of_lt_of_le hij hjk))
  · rcases hf' with hid | hone
    · have hbelow := (hwalk.isPage haccepted hid hserves i).below a ha
      have hlt := Uuid.lt_iff_rank.1 hlt
      omega
    · obtain ⟨found, hcut⟩ := hcuts i
      have hrows := hcut.rows_eq
      have hlength : (pages i).rows.length ≤ 1 := by
        rw [hrows, hone]
        exact List.length_take_le _ _
      obtain ⟨b, hb⟩ := List.length_eq_one_iff.1
        (Nat.le_antisymm hlength (List.length_pos_of_mem ha))
      have hab : a = b := by
        rw [hb] at ha
        exact List.mem_singleton.1 ha
      rw [hcut.lastSeen_eq, hb, hab] at hlt
      exact absurd (Uuid.lt_iff_rank.1 hlt) (Nat.lt_irrefl _)

theorem walk_of_single_users_repeats_none :
    ∃ pages : Nat → Page User,
      IsWalk (r := .user) none { twoByName with pageSize := 1 }
        (fun _ => threeUsers.store compare) (fun _ => ()) pages ∧
      ∀ i j, i < j → ((pages i).rows.map User.id).Disjoint ((pages j).rows.map User.id) := by
  let f : Filter := { twoByName with pageSize := 1 }
  have hf : f.check Resource.user.schema = .ok () := by decide
  have hwalks : ∃ pages : Nat → Page User,
      IsWalk (r := .user) none f (fun _ => threeUsers.store compare) (fun _ => ()) pages :=
    exists_isWalk (Filter.check_eq_ok_iff.1 hf) (fun d hd => by cases hd) fun _ => serves_threeUsers
  obtain ⟨pages, hpages⟩ := hwalks
  obtain ⟨-, -, hnone⟩ := walk_repeats_what_lies_ahead compare .user f hf none threeUsers
    (fun _ => threeUsers.store compare) (fun _ => ()) (fun _ => serves_threeUsers) pages hpages
  exact ⟨pages, hpages, hnone (.inr rfl)⟩

/-- The second page by name shows the first user of the first page again: the first page ends with
the least identifier, which is all that the second one is asked with. -/
theorem walk_by_name_repeats_user :
    ∃ pages : Nat → Page User, twoByName.check User.schema = .ok () ∧
      IsWalk (r := .user) none twoByName (fun _ => threeUsers.store compare) (fun _ => ()) pages ∧
      StopsAt (r := .user) pages 1 ∧
      ⟨5⟩ ∈ (pages 0).rows.map User.id ∧ ⟨5⟩ ∈ (pages 1).rows.map User.id := by
  have hf : twoByName.check Resource.user.schema = .ok () := by decide
  have hwalks : ∃ pages : Nat → Page User,
      IsWalk (r := .user) none twoByName (fun _ => threeUsers.store compare) (fun _ => ()) pages :=
    exists_isWalk (Filter.check_eq_ok_iff.1 hf) (fun d hd => by cases hd) fun _ => serves_threeUsers
  obtain ⟨pages, hpages⟩ := hwalks
  obtain ⟨hfirst, hsecond⟩ := pages_by_name hpages
  refine ⟨pages, hf, hpages, stopsAt_by_name hpages, ?_, ?_⟩
  · rw [hfirst]
    decide
  · rw [hsecond]
    decide

end MessageBoard
