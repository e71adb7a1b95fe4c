import Mathlib
import MessageBoard.Proofs.Serving

/-!
# Walking through a listing

A walk reads page after page, each behind the cursor of the one before it, until a page says that
none follows. Other clients may change the table between two pages.

`IsPage` says what a page is when the listing is sorted by identifiers. The invariant of a walk is
that everything shown lies at or before the cursor, and that a row which was there all the time is
either shown or still behind the cursor.
-/

namespace MessageBoard

namespace Uuid

def rank (u : Uuid) : Nat := u.bits.toNat

variable {a b : Uuid}

theorem lt_iff_rank : a < b ↔ a.rank < b.rank := BitVec.lt_def

theorem rank_inj : a.rank = b.rank ↔ a = b := by
  rw [rank, rank, BitVec.toNat_inj]
  exact ⟨fun h => by cases a; cases b; exact congrArg mk h, fun h => congrArg bits h⟩

theorem rank_lt (u : Uuid) : u.rank < 2 ^ 128 := u.bits.isLt

theorem rank_pos (h : a ≠ zero) : 0 < a.rank := by
  refine Nat.pos_of_ne_zero fun h0 => h (rank_inj.1 ?_)
  rw [h0]
  rfl

end Uuid

def Filter.SortedById (f : Filter) : Prop :=
  f.orderBy = [] ∨ ∃ raw rest, f.orderBy = raw :: rest ∧ SortKey.ofText raw = ⟨"id", false⟩

/-! ## One page -/

variable {r : Resource} {collate : Collation}

/-- What a page of the table behind a cursor is, when rows are sorted by identifiers: it goes
upwards from the cursor to its own, and leaves nothing out in between that is admitted. -/
structure IsPage (t : Table r) (Admits : r.Record → Prop) (cursor : Uuid) (size : Nat)
    (page : Page r.Record) : Prop where
  increasing : page.rows.Pairwise fun a b => (r.id a).rank < (r.id b).rank
  above : ∀ a ∈ page.rows, cursor.rank < (r.id a).rank
  below : ∀ a ∈ page.rows, (r.id a).rank ≤ page.metadata.lastSeen.rank
  cursor_le : cursor.rank ≤ page.metadata.lastSeen.rank
  sound : ∀ a ∈ page.rows, a ∈ t.rows ∧ Admits a
  complete : ∀ a ∈ t.rows, Admits a → cursor.rank < (r.id a).rank →
    (page.metadata.next = true → (r.id a).rank ≤ page.metadata.lastSeen.rank) → a ∈ page.rows
  short : page.rows.length ≤ size
  full : page.metadata.next = true → page.rows.length = size
  more : page.metadata.next = true →
    ∃ a ∈ t.rows, Admits a ∧ page.metadata.lastSeen.rank < (r.id a).rank
  length_eq : page.metadata.length.toNat = page.rows.length

theorem compareBy_id_ne_gt {keys : List SortKey} {a b : r.Record}
    (h : compareBy collate (⟨"id", false⟩ :: keys) (r.value? a) (r.value? b) ≠ .gt) :
    (r.id a).rank ≤ (r.id b).rank := by
  by_contra hlt
  refine h ?_
  have hgt : compare (r.id a).rank (r.id b).rank = .gt := Nat.compare_eq_gt.2 (by omega)
  have hkey : SortKey.compare collate ⟨"id", false⟩ (r.value? a) (r.value? b) = .gt := by
    simp only [SortKey.compare, r.value?_id]
    exact hgt
  rw [compareBy, hkey]
  rfl

theorem pairwise_of_sortedById {f : Filter} (hf : f.SortedById) {found : List r.Record}
    (hsorted : found.Pairwise fun a b =>
      compareBy collate (f.orderBy.map SortKey.ofText ++ [⟨"id", false⟩]) (r.value? a)
        (r.value? b) ≠ .gt)
    (hnodup : (found.map r.id).Nodup) :
    found.Pairwise fun a b => (r.id a).rank < (r.id b).rank := by
  have hkeys : ∃ keys, f.orderBy.map SortKey.ofText ++ [⟨"id", false⟩] =
      (⟨"id", false⟩ : SortKey) :: keys := by
    rcases hf with hf | ⟨raw, rest, hf, hraw⟩
    · exact ⟨[], by rw [hf]; rfl⟩
    · refine ⟨rest.map SortKey.ofText ++ [⟨"id", false⟩], ?_⟩
      rw [hf, List.map_cons, hraw, List.cons_append]
  obtain ⟨keys, hkeys⟩ := hkeys
  rw [hkeys] at hsorted
  refine (hsorted.and (List.pairwise_map.1 hnodup)).imp fun ⟨hle, hne⟩ => ?_
  have hle := compareBy_id_ne_gt hle
  have hne : (r.id _).rank ≠ (r.id _).rank := fun h => hne (Uuid.rank_inj.1 h)
  omega

theorem lastSeen_cases {kept : List r.Record}
    (hup : kept.Pairwise fun a b => (r.id a).rank < (r.id b).rank) (cursor : Uuid) :
    (kept = [] ∧ (kept.getLast?.map r.id).getD cursor = cursor) ∨
      ∃ b ∈ kept, (kept.getLast?.map r.id).getD cursor = r.id b ∧
        ∀ a ∈ kept, (r.id a).rank ≤ (r.id b).rank := by
  rcases List.eq_nil_or_concat kept with rfl | ⟨init, b, rfl⟩
  · exact .inl ⟨rfl, rfl⟩
  · refine .inr ⟨b, by simp, by simp, fun a ha => ?_⟩
    rw [List.concat_eq_append] at ha hup
    rcases List.mem_append.1 ha with ha | ha
    · exact Nat.le_of_lt ((List.pairwise_append.1 hup).2.2 a ha b (List.mem_singleton_self b))
    · exact Nat.le_of_eq (by rw [List.mem_singleton.1 ha])

/-- The page made of the rows found behind the cursor, one of which only tells that more follow. -/
theorem isPage_of_found {t : Table r} {Admits : r.Record → Prop} {cursor : Uuid}
    {found : List r.Record} (hup : found.Pairwise fun a b => (r.id a).rank < (r.id b).rank)
    (hmem : ∀ a, a ∈ found ↔ (a ∈ t.rows ∧ Admits a) ∧ cursor.rank < (r.id a).rank)
    {size : UInt32} (hsize : 0 < size.toNat) :
    IsPage t Admits cursor size.toNat
      (.ofRows (found.take (size.toNat + 1)) size cursor r.id) := by
  have hkept : (found.take (size.toNat + 1)).take size.toNat = found.take size.toNat := by
    rw [List.take_take, Nat.min_eq_left (Nat.le_succ _)]
  have hnext : (Page.ofRows (found.take (size.toNat + 1)) size cursor r.id).metadata.next = true ↔
      size.toNat < found.length := by
    simp only [Page.ofRows, decide_eq_true_eq, List.length_take]
    omega
  have hsplit : found.take size.toNat ++ found.drop size.toNat = found :=
    List.take_append_drop _ _
  have hparts := hup
  rw [← hsplit, List.pairwise_append] at hparts
  obtain ⟨hupKept, -, hcross⟩ := hparts
  have hlast := lastSeen_cases hupKept cursor
  have hfound : ∀ a ∈ found.take size.toNat, a ∈ found := fun a ha => List.mem_of_mem_take ha
  have hlength : (found.take size.toNat).length ≤ size.toNat := List.length_take_le _ _
  -- a full page is not empty, so its cursor is that of a row before the look-ahead row
  have hbefore (hlt : size.toNat < found.length) : ∀ b ∈ found.drop size.toNat,
      (((found.take size.toNat).getLast?.map r.id).getD cursor).rank < (r.id b).rank := by
    intro b hb
    rcases hlast with ⟨hnil, -⟩ | ⟨c, hc, heq, -⟩
    · have hzero : (found.take size.toNat).length = 0 := by rw [hnil]; rfl
      rw [List.length_take] at hzero
      omega
    · rw [heq]
      exact hcross c hc b hb
  refine
    { increasing := ?_
      above := fun a ha => ?_
      below := fun a ha => ?_
      cursor_le := ?_
      sound := fun a ha => ?_
      complete := fun a hrow ha hc hle => ?_
      short := ?_
      full := fun hn => ?_
      more := fun hn => ?_
      length_eq := Page.length_ofRows _ _ _ _ }
  all_goals simp only [Page.ofRows, hkept] at *
  · exact hupKept
  · exact ((hmem a).1 (hfound a ha)).2
  · rcases hlast with ⟨hnil, -⟩ | ⟨b, -, heq, hmax⟩
    · rw [hnil] at ha
      exact absurd ha List.not_mem_nil
    · rw [heq]
      exact hmax a ha
  · rcases hlast with ⟨-, heq⟩ | ⟨b, hb, heq, -⟩
    · exact Nat.le_of_eq (by rw [heq])
    · rw [heq]
      exact Nat.le_of_lt ((hmem b).1 (hfound b hb)).2
  · exact ((hmem a).1 (hfound a ha)).1
  · have hin : a ∈ found.take size.toNat ++ found.drop size.toNat := by
      rw [hsplit]
      exact (hmem a).2 ⟨⟨hrow, ha⟩, hc⟩
    rcases List.mem_append.1 hin with hin | hin
    · exact hin
    · have hlt : size.toNat < found.length := by
        have hpos := List.length_pos_of_mem hin
        rw [List.length_drop] at hpos
        omega
      have hgt := hbefore hlt a hin
      have hle := hle (hnext.2 hlt)
      omega
  · exact hlength
  · rw [List.length_take]
    have hlt := hnext.1 hn
    omega
  · have hlt := hnext.1 hn
    obtain ⟨b, hb⟩ : ∃ b, b ∈ found.drop size.toNat := by
      refine List.exists_mem_of_length_pos ?_
      rw [List.length_drop]
      omega
    obtain ⟨hrow, -⟩ := (hmem b).1 (List.mem_of_mem_drop hb)
    exact ⟨b, hrow.1, hrow.2, hbefore hlt b hb⟩

theorem isPage_of_selects {t : Table r} {f : Filter} (hf : f.Accepted r.schema)
    (hid : f.SortedById) {records : List r.Record}
    (h : t.Selects collate f.lastSeen f.tests (f.orderBy.map SortKey.ofText)
      (.ofNat (f.pageSize.toNat + 1)) records) :
    IsPage t (fun a => f.Admits collate (r.value? a)) f.lastSeen f.pageSize.toNat
      (.ofRows records f.pageSize f.lastSeen r.id) := by
  obtain ⟨found, hperm, hsorted, rfl⟩ := h
  have hnodup : (found.map r.id).Nodup := by
    refine (hperm.map r.id).nodup_iff.2 ?_
    rw [t.matching_tests]
    exact (t.nodup_admitted collate f).sublist (List.filter_sublist.map r.id)
  have hmem : ∀ a, a ∈ found ↔ (a ∈ t.rows ∧ f.Admits collate (r.value? a)) ∧
      f.lastSeen.rank < (r.id a).rank := by
    intro a
    rw [hperm.mem_iff, List.mem_filter, t.matching_tests, t.mem_admitted, decide_eq_true_eq,
      Uuid.lt_iff_rank]
  have hlimit : (Int64.ofNat (f.pageSize.toNat + 1)).toInt.toNat = f.pageSize.toNat + 1 := by
    rw [limit_toInt f hf.pageSize_le]
    omega
  have hsize : 0 < f.pageSize.toNat :=
    Nat.pos_of_ne_zero fun h0 => hf.pageSize_ne (UInt32.toNat_inj.1 h0)
  rw [hlimit]
  exact isPage_of_found (pairwise_of_sortedById hid hsorted hnodup) hmem hsize

/-! ## Walks -/

section Walk

variable (pages : Nat → Page r.Record)

/-- The cursor that a page is asked with: at first the least identifier, then that of the page
before. -/
def cursor : Nat → Uuid
  | 0 => .zero
  | i + 1 => (pages i).metadata.lastSeen

/-- The page after which the walk stops. -/
def StopsAt (k : Nat) : Prop :=
  (∀ i < k, (pages i).metadata.next = true) ∧ (pages k).metadata.next = false

/-- The rows of the first `n` pages, in order. -/
def shown (n : Nat) : List r.Record := (List.range n).flatMap fun i => (pages i).rows

variable {pages} {tables : Nat → Table r} {Admits : r.Record → Prop} {size : Nat}

theorem StopsAt.unique {k l : Nat} (hk : StopsAt pages k) (hl : StopsAt pages l) : k = l := by
  have hle {i j : Nat} (hi : StopsAt pages i) (hj : StopsAt pages j) : i ≤ j := by
    refine Nat.le_of_not_lt fun hlt => ?_
    exact Bool.noConfusion ((hi.1 j hlt).symm.trans hj.2)
  exact Nat.le_antisymm (hle hk hl) (hle hl hk)

theorem shown_succ (n : Nat) : shown pages (n + 1) = shown pages n ++ (pages n).rows := by
  rw [shown, List.range_succ, List.flatMap_append, List.flatMap_singleton]
  rfl

variable (hpages : ∀ i, IsPage (tables i) Admits (cursor pages i) size (pages i))

include hpages

theorem shown_bounds (n : Nat) : ∀ a ∈ shown pages n,
    0 < (r.id a).rank ∧ (r.id a).rank ≤ (cursor pages n).rank := by
  induction n with
  | zero => exact fun a ha => absurd ha List.not_mem_nil
  | succ n ih =>
    intro a ha
    have hle : (cursor pages n).rank ≤ (cursor pages (n + 1)).rank := (hpages n).cursor_le
    rw [shown_succ] at ha
    rcases List.mem_append.1 ha with ha | ha
    · have h := ih a ha
      omega
    · have habove := (hpages n).above a ha
      exact ⟨by omega, (hpages n).below a ha⟩

theorem shown_increasing (n : Nat) :
    (shown pages n).Pairwise fun a b => (r.id a).rank < (r.id b).rank := by
  induction n with
  | zero => exact List.Pairwise.nil
  | succ n ih =>
    rw [shown_succ, List.pairwise_append]
    refine ⟨ih, (hpages n).increasing, fun a ha b hb => ?_⟩
    have ha := (shown_bounds hpages n a ha).2
    have hb := (hpages n).above b hb
    omega

/-- A row that is there for every page is shown, or is still behind the cursor. -/
theorem shown_or_ahead {id : Uuid} (hid : id ≠ .zero) {n : Nat}
    (hthere : ∀ i < n, ∃ a ∈ (tables i).rows, r.id a = id ∧ Admits a) :
    (∃ a ∈ shown pages n, r.id a = id) ∨ (cursor pages n).rank < id.rank := by
  induction n with
  | zero => exact .inr (Uuid.rank_pos hid)
  | succ n ih =>
    rw [shown_succ]
    rcases ih fun i hi => hthere i (Nat.lt_succ_of_lt hi) with ⟨a, ha, hida⟩ | hahead
    · exact .inl ⟨a, List.mem_append_left _ ha, hida⟩
    · obtain ⟨a, ha, rfl, hadmits⟩ := hthere n (Nat.lt_succ_self n)
      by_cases hle : (r.id a).rank ≤ (cursor pages (n + 1)).rank
      · have hin := (hpages n).complete a ha hadmits hahead fun _ => hle
        exact .inl ⟨a, List.mem_append_right _ hin, rfl⟩
      · exact .inr (by omega)

theorem exists_shown {id : Uuid} (hid : id ≠ .zero) {k : Nat} (hk : StopsAt pages k)
    (hthere : ∀ i ≤ k, ∃ a ∈ (tables i).rows, r.id a = id ∧ Admits a) :
    ∃ a ∈ shown pages (k + 1), r.id a = id := by
  rw [shown_succ]
  have hbefore : ∀ i < k, ∃ a ∈ (tables i).rows, r.id a = id ∧ Admits a :=
    fun i hi => hthere i (Nat.le_of_lt hi)
  rcases shown_or_ahead hpages hid hbefore with ⟨a, ha, hida⟩ | hahead
  · exact ⟨a, List.mem_append_left _ ha, hida⟩
  · obtain ⟨a, ha, rfl, hadmits⟩ := hthere k (Nat.le_refl k)
    have hin := (hpages k).complete a ha hadmits hahead fun hn => by simp [hk.2] at hn
    exact ⟨a, List.mem_append_right _ hin, rfl⟩

/-- The cursor moves on with every page that another one follows. -/
theorem le_rank_cursor (hsize : 0 < size) {n : Nat}
    (hnext : ∀ i < n, (pages i).metadata.next = true) : n ≤ (cursor pages n).rank := by
  induction n with
  | zero => exact Nat.zero_le _
  | succ n ih =>
    have hn := ih fun i hi => hnext i (Nat.lt_succ_of_lt hi)
    have hfull := (hpages n).full (hnext n (Nat.lt_succ_self n))
    obtain ⟨a, ha⟩ := List.exists_mem_of_length_pos (hfull ▸ hsize)
    have habove := (hpages n).above a ha
    have hbelow : (r.id a).rank ≤ (cursor pages (n + 1)).rank := (hpages n).below a ha
    omega

theorem exists_stopsAt (hsize : 0 < size) : ∃ k, StopsAt pages k := by
  have hsome : ∃ k, (pages k).metadata.next = false := by
    by_contra hall
    have hnext : ∀ i < 2 ^ 128, (pages i).metadata.next = true := fun i _ => by
      by_contra hi
      exact hall ⟨i, by simpa using hi⟩
    have hrank := le_rank_cursor hpages hsize hnext
    have hlt := (cursor pages (2 ^ 128)).rank_lt
    omega
  classical
  refine ⟨Nat.find hsome, fun i hi => ?_, Nat.find_spec hsome⟩
  simpa using Nat.find_min hsome hi

/-! ## Walks over a table that stays as it is -/

theorem mem_shown {a : r.Record} {n : Nat} (ha : a ∈ shown pages n) :
    ∃ i < n, a ∈ (tables i).rows ∧ Admits a := by
  obtain ⟨i, hi, ha⟩ := List.mem_flatMap.1 ha
  exact ⟨i, List.mem_range.1 hi, (hpages i).sound a ha⟩

theorem shown_perm {t : Table r} (ht : ∀ i, tables i = t) {k : Nat} (hk : StopsAt pages k)
    {rows : List r.Record} (hnodup : rows.Nodup)
    (hrows : ∀ a, a ∈ rows ↔ (a ∈ t.rows ∧ Admits a) ∧ r.id a ≠ .zero) :
    (shown pages (k + 1)).Perm rows := by
  have hincreasing := shown_increasing hpages (k + 1)
  have hshown : (shown pages (k + 1)).Nodup := by
    refine hincreasing.imp fun hlt heq => ?_
    rw [heq] at hlt
    omega
  rw [List.perm_ext_iff_of_nodup hshown hnodup]
  intro a
  rw [hrows]
  constructor
  · intro ha
    obtain ⟨i, -, hsound⟩ := mem_shown hpages ha
    rw [ht i] at hsound
    refine ⟨hsound, fun hzero => ?_⟩
    have hpos := (shown_bounds hpages (k + 1) a ha).1
    rw [hzero] at hpos
    exact absurd hpos (by decide)
  · rintro ⟨⟨ha, hadmits⟩, hid⟩
    obtain ⟨b, hb, hidb⟩ := exists_shown hpages hid hk fun i _ => ⟨a, ht i ▸ ha, rfl, hadmits⟩
    obtain ⟨i, -, hsound⟩ := mem_shown hpages hb
    rw [ht i] at hsound
    rwa [t.eq_of_id_eq ha hsound.1 hidb.symm]

theorem length_shown {n : Nat} (hnext : ∀ i < n, (pages i).metadata.next = true) :
    (shown pages n).length = n * size := by
  induction n with
  | zero => rw [Nat.zero_mul]; rfl
  | succ n ih =>
    have hfull := (hpages n).full (hnext n (Nat.lt_succ_self n))
    rw [shown_succ, List.length_append, ih fun i hi => hnext i (Nat.lt_succ_of_lt hi), hfull,
      Nat.succ_mul]

theorem sum_lengths (n : Nat) :
    ((List.range n).map fun i => (pages i).metadata.length.toNat).sum = (shown pages n).length := by
  rw [shown, List.length_flatMap]
  congr 1
  exact List.map_congr_left fun i _ => (hpages i).length_eq

theorem last_page_pos {t : Table r} (ht : ∀ i, tables i = t) {k : Nat} (hk : StopsAt pages k)
    (hpos : 0 < k) : 0 < (pages k).rows.length := by
  obtain ⟨j, rfl⟩ : ∃ j, k = j + 1 := ⟨k - 1, by omega⟩
  obtain ⟨a, ha, hadmits, hahead⟩ := (hpages j).more (hk.1 j (Nat.lt_succ_self j))
  refine List.length_pos_of_mem ((hpages (j + 1)).complete a ?_ hadmits hahead fun hn => ?_)
  · rw [ht] at ha
    rwa [ht]
  · simp [hk.2] at hn

theorem pages_count {t : Table r} (ht : ∀ i, tables i = t) (hsize : 0 < size) {k : Nat}
    (hk : StopsAt pages k) :
    k + 1 = max 1 (((shown pages (k + 1)).length + size - 1) / size) := by
  have hlength : (shown pages (k + 1)).length = k * size + (pages k).rows.length := by
    rw [shown_succ, List.length_append, length_shown hpages hk.1]
  have hshort := (hpages k).short
  rw [hlength]
  by_cases hempty : (pages k).rows.length = 0
  · have hk0 : k = 0 := by
      by_contra hne
      have hpos := last_page_pos hpages ht hk (Nat.pos_of_ne_zero hne)
      omega
    have hdiv : (size - 1) / size = 0 := Nat.div_eq_of_lt (by omega)
    rw [hempty, hk0, Nat.zero_mul, Nat.zero_add, Nat.zero_add, hdiv]
    rfl
  · have hsplit : k * size + (pages k).rows.length + size - 1 =
        ((pages k).rows.length - 1) + (k + 1) * size := by
      rw [Nat.succ_mul]
      omega
    have hdiv : ((pages k).rows.length - 1) / size = 0 := Nat.div_eq_of_lt (by omega)
    rw [hsplit, Nat.add_mul_div_right _ _ hsize, hdiv]
    omega

end Walk

/-! ## Walks through a board -/

/-- The pages that a client gets who walks through the listing, the store for each page being the
one of that moment. -/
def IsWalk {σ : Type} (limit : Option Duration) (f : Filter) (stores : Nat → Store σ)
    (states : Nat → σ) (pages : Nat → Page r.Record) : Prop :=
  ∀ i, ((Repository.list limit r (f.after (cursor pages i))).run (stores i) (states i)).value? =
    some (.ok (pages i))

namespace Filter

variable {f : Filter}

theorem Accepted.after {schema : TableSchema} (h : f.Accepted schema) (id : Uuid) :
    (f.after id).Accepted schema :=
  ⟨h.pageSize_ne, h.pageSize_le, h.entries, h.keys⟩

theorem SortedById.after (h : f.SortedById) (id : Uuid) : (f.after id).SortedById := h

end Filter

section Client

variable {σ : Type} {limit : Option Duration} {f : Filter} {tables : Nat → Table r}
  {stores : Nat → Store σ} {states : Nat → σ} {pages : Nat → Page r.Record}

/-- Stores that serve their tables let a client walk on, if there is time for a call. -/
theorem exists_isWalk (hf : f.Accepted r.schema) (hl : HasTime limit)
    (hserves : ∀ i, (tables i).Serves collate (stores i)) :
    ∃ pages : Nat → Page r.Record, IsWalk limit f stores states pages := by
  have hpage (i : Nat) (id : Uuid) : ∃ page : Page r.Record,
      ((Repository.list limit r (f.after id)).run (stores i) (states i)).value? =
        some (.ok page) :=
    (Repository.list_served (hserves i) (hf.after id) limit (states i)).1 hl
  choose page hpage using hpage
  let walk : Nat → Page r.Record := fun i =>
    i.rec (page 0 .zero) fun i previous => page (i + 1) previous.metadata.lastSeen
  refine ⟨walk, fun i => ?_⟩
  cases i with
  | zero => exact hpage 0 .zero
  | succ i => exact hpage (i + 1) (walk i).metadata.lastSeen

theorem IsWalk.isPage (hf : f.Accepted r.schema) (hid : f.SortedById)
    (hserves : ∀ i, (tables i).Serves collate (stores i))
    (hwalk : IsWalk limit f stores states pages) (i : Nat) :
    IsPage (tables i) (fun a => f.Admits collate (r.value? a)) (cursor pages i)
      f.pageSize.toNat (pages i) := by
  obtain ⟨records, hselects, hpage⟩ :=
    (Repository.list_served (hserves i) (hf.after _) limit (states i)).2 _ (hwalk i)
  rw [hpage]
  exact isPage_of_selects (hf.after _) (hid.after _) hselects

end Client

/-- A walk through a listing sorted by identifiers ends, shows identifiers in increasing order, and
shows every row that the filter admits for as long as the walk lasts exactly once, whatever happens
to the table between the pages. Over a table that stays as it is it takes no page too many, fills
all pages but the last, and tells of as many rows as there are, which is what a count tells. -/
theorem walk_loses_nothing {σ : Type} (collate : Collation) (r : Resource) (f : Filter)
    (hf : f.check r.schema = .ok ()) (hid : f.SortedById) (limit : Option Duration)
    (tables : Nat → Table r) (stores : Nat → Store σ) (states : Nat → σ)
    (hserves : ∀ i, (tables i).Serves collate (stores i)) :
    (HasTime limit → ∃ pages : Nat → Page r.Record, IsWalk limit f stores states pages) ∧
    ∀ pages : Nat → Page r.Record, IsWalk limit f stores states pages →
      ∃ k, StopsAt pages k ∧
        ((shown pages (k + 1)).map r.id).Pairwise (· < ·) ∧
        (∀ i ≤ k, ∀ a ∈ (pages i).rows, a ∈ (tables i).admitted collate f) ∧
        (∀ id, id ≠ .zero → (∀ i ≤ k, ∃ a ∈ (tables i).admitted collate f, r.id a = id) →
          ((shown pages (k + 1)).map r.id).count id = 1) ∧
        ∀ t, (∀ i, tables i = t) →
          let n := ((t.admitted collate f).filter fun a => r.id a ≠ .zero).length
          k + 1 = max 1 ((n + f.pageSize.toNat - 1) / f.pageSize.toNat) ∧
          (∀ i < k, (pages i).metadata.next = true ∧
            (pages i).rows.length = f.pageSize.toNat) ∧
          ((List.range (k + 1)).map fun i => (pages i).metadata.length.toNat).sum = n ∧
          ((∀ a ∈ t.admitted collate f, r.id a ≠ .zero) → n < 2 ^ 63 → ∀ i,
            let counted := ((Repository.count limit r f).run (stores i) (states i)).value?
            (HasTime limit → ∃ c, counted = some (.ok c) ∧ c.toInt = n) ∧
              ∀ c, counted = some (.ok c) → c.toInt = n) := by
  have haccepted := Filter.check_eq_ok_iff.1 hf
  have hsize : 0 < f.pageSize.toNat :=
    Nat.pos_of_ne_zero fun h0 => haccepted.pageSize_ne (UInt32.toNat_inj.1 h0)
  refine ⟨fun hl => exists_isWalk haccepted hl hserves, fun pages hwalk => ?_⟩
  have hpages := hwalk.isPage haccepted hid hserves
  obtain ⟨k, hk⟩ := exists_stopsAt hpages hsize
  have hincreasing : ((shown pages (k + 1)).map r.id).Pairwise (· < ·) := by
    rw [List.pairwise_map]
    exact (shown_increasing hpages (k + 1)).imp Uuid.lt_iff_rank.2
  refine ⟨k, hk, hincreasing, fun i _ a ha => ?_, fun id hidne hthere => ?_, fun t ht => ?_⟩
  · exact (Table.mem_admitted collate (tables i)).2 ((hpages i).sound a ha)
  · have hnodup : ((shown pages (k + 1)).map r.id).Nodup := by
      refine hincreasing.imp fun hlt heq => ?_
      rw [heq, Uuid.lt_iff_rank] at hlt
      omega
    refine List.count_eq_one_of_mem hnodup (List.mem_map.2 ?_)
    refine exists_shown hpages hidne hk fun i hi => ?_
    obtain ⟨a, ha, hida⟩ := hthere i hi
    obtain ⟨hrow, hadmits⟩ := (Table.mem_admitted collate (tables i)).1 ha
    exact ⟨a, hrow, hida, hadmits⟩
  · intro n
    have hperm : (shown pages (k + 1)).Perm
        ((t.admitted collate f).filter fun a => r.id a ≠ .zero) := by
      refine shown_perm hpages ht hk (((t.nodup_admitted collate f).of_map r.id).filter _) ?_
      intro a
      rw [List.mem_filter, t.mem_admitted, decide_eq_true_eq]
    have hn : (shown pages (k + 1)).length = n := hperm.length_eq
    refine ⟨?_, fun i hi => ⟨hk.1 i hi, (hpages i).full (hk.1 i hi)⟩, ?_, fun hzero hlt i => ?_⟩
    · rw [← hn]
      exact pages_count hpages ht hsize hk
    · rw [sum_lengths hpages, hn]
    · have hall : (t.admitted collate f).filter (fun a => r.id a ≠ .zero) = t.admitted collate f :=
        List.filter_eq_self.2 fun a ha => decide_eq_true (hzero a ha)
      have hadmitted : (t.admitted collate f).length = n := by rw [← hall]
      have hserve := ht i ▸ hserves i
      obtain ⟨hcounts, htold⟩ :=
        Repository.count_served hserve haccepted limit (states i) (hadmitted ▸ hlt)
      rw [hadmitted] at htold
      refine ⟨fun htime => ?_, htold⟩
      obtain ⟨c, hc⟩ := hcounts htime
      exact ⟨c, hc, htold c hc⟩

/-- Who stays in the table is shown once, although after the first page another user is added before
the cursor and one behind it is gone. -/
theorem walk_shows_staying_users :
    let user (id : Uuid) (name : String) : User :=
      ⟨id, name, name, "someone@example.com", ⟨.epoch, .epoch, false, none⟩⟩
    let before : Table .user := ⟨[user ⟨7⟩ "ann", user ⟨8⟩ "bob", user ⟨9⟩ "cy"], by decide⟩
    let after : Table .user := ⟨[user ⟨3⟩ "dee", user ⟨7⟩ "ann", user ⟨9⟩ "cy"], by decide⟩
    let stores (i : Nat) : Store Unit := (if i = 0 then before else after).store compare
    ∃ (pages : Nat → Page User) (k : Nat),
      IsWalk (r := .user) none {} stores (fun _ => ()) pages ∧ StopsAt (r := .user) pages k ∧
      ((shown (r := .user) pages (k + 1)).map User.id).count ⟨7⟩ = 1 ∧
      ((shown (r := .user) pages (k + 1)).map User.id).count ⟨9⟩ = 1 := by
  intro user before after stores
  have hserves (i : Nat) : (if i = 0 then before else after).Serves compare (stores i) := by
    refine Table.serves_store ?_
    by_cases hi : i = 0
    · rw [if_pos hi]
      decide
    · rw [if_neg hi]
      decide
  have hstays (i : Nat) : user ⟨7⟩ "ann" ∈ (if i = 0 then before else after).admitted compare {} ∧
      user ⟨9⟩ "cy" ∈ (if i = 0 then before else after).admitted compare {} := by
    by_cases hi : i = 0
    · rw [if_pos hi]
      decide
    · rw [if_neg hi]
      decide
  obtain ⟨hwalks, hall⟩ := walk_loses_nothing compare .user {} rfl (.inl rfl) none
    (fun i => if i = 0 then before else after) stores (fun _ => ()) hserves
  obtain ⟨pages, hpages⟩ := hwalks fun d hd => by cases hd
  obtain ⟨k, hk, -, -, honce, -⟩ := hall pages hpages
  refine ⟨pages, k, hpages, hk, honce ⟨7⟩ (by decide) fun i _ => ?_,
    honce ⟨9⟩ (by decide) fun i _ => ?_⟩
  · exact ⟨_, (hstays i).1, rfl⟩
  · exact ⟨_, (hstays i).2, rfl⟩

end MessageBoard
