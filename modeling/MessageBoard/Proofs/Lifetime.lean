import MessageBoard.Proofs.Keeper

/-!
# The lifetime of a row

A row comes to be under an identifier that no other row has had, is changed, marked deleted and
restored any number of times, and is gone for good once it is purged. Neither an input nor a patch
can set what the board itself says of a row: its identifier, its times, and whether it is deleted.

`Call.does_of_plan` says what each call can do to a table. `Keeper.obeys` is one call against a
store that keeps the table, `Keeper.sound_after` is any sequence of them.
-/

namespace MessageBoard

variable {σ α : Type}

def Resource.declaration : Resource → TableDeclaration
  | user => Tables.users
  | forum => Tables.forums
  | thread => Tables.threads
  | post => Tables.posts

theorem Resource.table_eq_name_iff {r r' : Resource} :
    r'.schema.table = r.declaration.name ↔ r' = r := by
  cases r <;> cases r' <;> decide

/-! ## What is reserved to the board -/

def reservedColumns : List String := ["id", "created_at", "updated_at", "deleted", "deleted_at"]

def Unreserved (entries : List (String × α)) : Prop := ∀ e ∈ entries, e.1 ∉ reservedColumns

namespace Unreserved

theorem nil : Unreserved ([] : List (String × α)) := List.forall_mem_nil _

theorem cons {column : String} (hc : column ∉ reservedColumns) {v : α}
    {entries : List (String × α)} (h : Unreserved entries) : Unreserved ((column, v) :: entries) :=
  List.forall_mem_cons.2 ⟨hc, h⟩

theorem append {l₁ l₂ : List (String × α)} (h₁ : Unreserved l₁) (h₂ : Unreserved l₂) :
    Unreserved (l₁ ++ l₂) := List.forall_mem_append.2 ⟨h₁, h₂⟩

theorem map {β : Type} {entries : List (String × α)} (h : Unreserved entries) (f : α → β) :
    Unreserved (entries.map fun (column, v) => (column, f v)) := by
  intro e he
  obtain ⟨e', he', rfl⟩ := List.mem_map.1 he
  exact h e' he'

theorem supplied {column : String} (hc : column ∉ reservedColumns) {value : Option α → Value}
    {content : Option α} : Unreserved (supplied column value content) := by
  cases content with
  | none => exact nil
  | some v => exact nil.cons hc

theorem lookup_eq_none {entries : List (String × α)} (h : Unreserved entries) {column : String}
    (hc : column ∈ reservedColumns) : entries.lookup column = none := by
  rw [List.lookup_eq_none_iff]
  intro e he
  rw [bne_iff_ne]
  rintro rfl
  exact h e he hc

end Unreserved

theorem Resource.values_unreserved (r : Resource) (input : r.Input) :
    Unreserved (r.values input) := by
  cases r with
  | user => exact .cons (by decide) (.cons (by decide) (.cons (by decide) .nil))
  | forum => exact .cons (by decide) (.cons (by decide) (.cons (by decide) .nil))
  | thread => exact .cons (by decide) (.cons (by decide) (.cons (by decide) .nil))
  | post =>
    exact .cons (by decide) (.cons (by decide) (.cons (by decide) (.cons (by decide) .nil)))

theorem Resource.assignments_unreserved (r : Resource) (p : r.Patch) :
    Unreserved (r.assignments p) := by
  cases r with
  | user =>
    exact .append (.append (.supplied (by decide)) (.supplied (by decide))) (.supplied (by decide))
  | forum =>
    exact .append (.append (.supplied (by decide)) (.supplied (by decide))) (.supplied (by decide))
  | thread =>
    refine .append (.append (.append ?_ ?_) ?_) ?_ <;> exact .supplied (by decide)
  | post => exact .append (.supplied (by decide)) (.supplied (by decide))

/-! ## Rows -/

namespace Tuple

/-- The row is marked deleted exactly if it has a time of deletion. -/
def Consistent (row : Tuple) : Prop :=
  ∃ deletedAt : Option Instant, row "deleted_at" = some (.instant deletedAt) ∧
    row "deleted" = some (.flag (some deletedAt.isSome))

/-- What the board says of a new row. -/
structure New (ambient : Ambient) (id : Uuid) (row : Tuple) : Prop where
  id : row "id" = some (.uuid (some id))
  created : row "created_at" = some (.instant (some ambient.now))
  updated : row "updated_at" = some (.instant (some ambient.now))
  deleted : row "deleted" = some (.flag (some false))
  deletedAt : row "deleted_at" = some (.instant none)

theorem New.consistent {ambient : Ambient} {id : Uuid} {row : Tuple} (h : New ambient id row) :
    row.Consistent := ⟨none, h.deletedAt, h.deleted⟩

end Tuple

theorem Resource.column?_reserved (r : Resource) :
    r.declaration.column? "id" = some Tables.idColumn ∧
      r.declaration.column? "created_at" =
        some { name := "created_at", type := .timestamp, notNull := true, initially := some .now } ∧
      r.declaration.column? "updated_at" =
        some { name := "updated_at", type := .timestamp, notNull := true, initially := some .now } ∧
      r.declaration.column? "deleted" =
        some { name := "deleted", type := .boolean, notNull := true, initially := some .no } ∧
      r.declaration.column? "deleted_at" = some { name := "deleted_at", type := .timestamp } := by
  cases r <;> decide

theorem Resource.inserted_new (r : Resource) (ambient : Ambient) (id : Uuid) (input : r.Input) :
    Tuple.New ambient id
      (r.declaration.inserted ambient (("id", .uuid (some id)) :: r.values input)) := by
  obtain ⟨hid, hcreated, hupdated, hdeleted, hdeletedAt⟩ := r.column?_reserved
  have hnone {column : String} (hne : (column == "id") = false) (hc : column ∈ reservedColumns) :
      (("id", .uuid (some id)) :: r.values input).lookup column = none := by
    rw [List.lookup_cons, hne]
    exact (r.values_unreserved input).lookup_eq_none hc
  constructor
  · rw [TableDeclaration.inserted_of_lookup_some hid rfl]
    rfl
  · rw [TableDeclaration.inserted_of_lookup_none hcreated (hnone (by decide) (by decide))]
    rfl
  · rw [TableDeclaration.inserted_of_lookup_none hupdated (hnone (by decide) (by decide))]
    rfl
  · rw [TableDeclaration.inserted_of_lookup_none hdeleted (hnone (by decide) (by decide))]
    rfl
  · rw [TableDeclaration.inserted_of_lookup_none hdeletedAt (hnone (by decide) (by decide))]
    rfl

/-- Changes that the board makes to a row: its time of change moves, its identifier and the time of
its creation stay, and it is marked deleted together with the time of its deletion or not at all. -/
structure Tidy (changes : List (String × Term)) : Prop where
  id : changes.lookup "id" = none
  created : changes.lookup "created_at" = none
  updated : changes.lookup "updated_at" = some .now
  deleted : (changes.lookup "deleted", changes.lookup "deleted_at") ∈
    [(none, none), (some (.flag true), some .now), (some (.flag false), some .null)]

open TableDeclaration

theorem Tidy.consistent (r : Resource) (ambient : Ambient) {changes : List (String × Term)}
    (h : Tidy changes) {row : Tuple} (hrow : row.Consistent) :
    Tuple.Consistent (r.declaration.updated ambient changes row) := by
  obtain ⟨-, -, -, hdeleted, hdeletedAt⟩ := r.column?_reserved
  obtain ⟨deletedAt, hat, hflag⟩ := hrow
  have hcases := h.deleted
  simp only [List.mem_cons, List.not_mem_nil, or_false, Prod.mk.injEq] at hcases
  rcases hcases with ⟨h₁, h₂⟩ | ⟨h₁, h₂⟩ | ⟨h₁, h₂⟩
  · refine ⟨deletedAt, ?_, ?_⟩
    · rw [updated_of_lookup_none h₂, hat]
    · rw [updated_of_lookup_none h₁, hflag]
  · refine ⟨some ambient.now, ?_, ?_⟩
    · rw [updated_of_lookup_some hdeletedAt h₂]
      rfl
    · rw [updated_of_lookup_some hdeleted h₁]
      rfl
  · refine ⟨none, ?_, ?_⟩
    · rw [updated_of_lookup_some hdeletedAt h₂]
      rfl
    · rw [updated_of_lookup_some hdeleted h₁]
      rfl

theorem tidy_patch (r : Resource) (p : r.Patch) : Tidy
    ((r.assignments p).map (fun (column, v) => (column, .value v)) ++ [("updated_at", .now)]) := by
  have hnone {column : String} (hc : column ∈ reservedColumns) :=
    ((r.assignments_unreserved p).map Term.value).lookup_eq_none hc
  constructor
  · rw [List.lookup_append, hnone (by decide)]
    rfl
  · rw [List.lookup_append, hnone (by decide)]
    rfl
  · rw [List.lookup_append, hnone (by decide)]
    rfl
  · rw [List.lookup_append, List.lookup_append, hnone (by decide), hnone (by decide)]
    decide

/-! ## What a call does to its row -/

inductive Deed where
  | read
  | create
  | change
  | purge
  deriving DecidableEq

namespace Call

def deed : Call → Deed
  | create _ _ _ => .create
  | patch _ _ => .change
  | softDelete _ _ => .change
  | restore _ _ => .change
  | setLocked _ _ => .change
  | purge _ _ => .purge
  | _ => .read

/-- The row that the call is about. -/
def target? : Call → Option (Resource × Uuid)
  | get r id => some (r, id)
  | create r fresh _ => some (r, fresh)
  | patch r p => some (r, r.patchId p)
  | softDelete r id => some (r, id)
  | restore r id => some (r, id)
  | purge r id => some (r, id)
  | setLocked id _ => some (.thread, id)
  | _ => none

def created? (c : Call) : Option (Resource × Uuid) := if c.deed = .create then c.target? else none

end Call

/-- What becomes of what is kept under an identifier. -/
inductive Becomes (r : Resource) (ambient : Ambient) (id : Uuid) :
    Deed → Option Tuple → Option Tuple → Prop
  | read (row? : Option Tuple) : Becomes r ambient id .read row? row?
  | create (row? : Option Tuple) {row : Tuple} (h : row.New ambient id) :
    Becomes r ambient id .create row? (some row)
  | change {changes : List (String × Term)} (h : Tidy changes) (row? : Option Tuple) :
    Becomes r ambient id .change row? (row?.map (r.declaration.updated ambient changes))
  | purge (row? : Option Tuple) : Becomes r ambient id .purge row? none

/-- If there is a row now, there was one with the same identifier, of the same time. -/
def Inherits (old new : Option Tuple) : Prop :=
  ∀ row', new = some row' → ∃ row, old = some row ∧ row' "id" = row "id" ∧
    row' "created_at" = row "created_at"

theorem Inherits.refl (row? : Option Tuple) : Inherits row? row? := fun row h => ⟨row, h, rfl, rfl⟩

theorem Inherits.trans {a b c : Option Tuple} (hab : Inherits a b) (hbc : Inherits b c) :
    Inherits a c := by
  intro row'' h
  obtain ⟨row', hb, hid, hcreated⟩ := hbc row'' h
  obtain ⟨row, ha, hid', hcreated'⟩ := hab row' hb
  exact ⟨row, ha, hid.trans hid', hcreated.trans hcreated'⟩

structure Tuple.Sound (id : Uuid) (row : Tuple) : Prop where
  id : row "id" = some (.uuid (some id))
  consistent : row.Consistent

namespace Becomes

variable {r : Resource} {ambient : Ambient} {id : Uuid} {deed : Deed} {old new : Option Tuple}

theorem sound (h : Becomes r ambient id deed old new)
    (hold : ∀ row, old = some row → row.Sound id) :
    ∀ row, new = some row → row.Sound id := by
  intro row hrow
  cases h with
  | read _ => exact hold row hrow
  | create _ hnew =>
    obtain rfl := Option.some.inj hrow
    exact ⟨hnew.id, hnew.consistent⟩
  | change htidy _ =>
    obtain ⟨row, hrow', rfl⟩ := Option.map_eq_some_iff.1 hrow
    obtain ⟨hid, hconsistent⟩ := hold row hrow'
    refine ⟨?_, htidy.consistent r ambient hconsistent⟩
    rw [updated_of_lookup_none htidy.id, hid]
  | purge _ => cases hrow

theorem eq_of_read (h : Becomes r ambient id .read old new) : new = old := by
  cases h
  rfl

theorem eq_none_of_purge (h : Becomes r ambient id .purge old new) : new = none := by
  cases h
  rfl

theorem inherits (h : Becomes r ambient id deed old new) (hdeed : deed ≠ .create) :
    Inherits old new := by
  intro row' hrow'
  cases h with
  | read _ => exact Inherits.refl _ row' hrow'
  | create _ _ => exact absurd rfl hdeed
  | change htidy _ =>
    obtain ⟨row, hrow, rfl⟩ := Option.map_eq_some_iff.1 hrow'
    exact ⟨row, hrow, updated_of_lookup_none htidy.id, updated_of_lookup_none htidy.created⟩
  | purge _ => cases hrow'

theorem stamped (h : Becomes r ambient id deed old new) (hdeed : deed = .create ∨ deed = .change)
    (hold : deed = .change → old ≠ none) :
    ∃ row, new = some row ∧ row "updated_at" = some (.instant (some ambient.now)) := by
  cases h with
  | create _ hnew => exact ⟨_, rfl, hnew.updated⟩
  | change htidy _ =>
    obtain ⟨row, rfl⟩ := Option.ne_none_iff_exists'.1 (hold rfl)
    refine ⟨_, rfl, ?_⟩
    rw [updated_of_lookup_some r.column?_reserved.2.2.1 htidy.updated]
    rfl
  | read _ => simp at hdeed
  | purge _ => simp at hdeed

end Becomes

/-- The statement does to one row what the deed says, and nothing to any other. -/
structure Statement.Does (s : Statement) (deed : Deed) (r : Resource) (id : Uuid) : Prop where
  row : ∀ ambient rows,
    Becomes r ambient id deed (rows id) (s.effect ambient r.declaration rows id)
  others : ∀ ambient rows (r' : Resource) id', (r', id') ≠ (r, id) →
    s.effect ambient r'.declaration rows id' = rows id'

theorem Statement.does_of_update {s : Statement} {deed : Deed} {r : Resource} {id : Uuid}
    (content : Ambient → TableDeclaration → Contents → Option Tuple)
    (heffect : ∀ ambient t rows, s.effect ambient t rows =
      if r.schema.table = t.name then Function.update rows id (content ambient t rows) else rows)
    (hrow : ∀ ambient rows,
      Becomes r ambient id deed (rows id) (content ambient r.declaration rows)) :
    s.Does deed r id where
  row ambient rows := by
    rw [heffect, if_pos (Resource.table_eq_name_iff.2 rfl), Function.update_self]
    exact hrow ambient rows
  others ambient rows r' id' hne := by
    rw [heffect]
    by_cases hr : r = r'
    · subst hr
      have hid : id' ≠ id := fun h => hne (congrArg (Prod.mk r) h)
      rw [if_pos (Resource.table_eq_name_iff.2 rfl), Function.update_of_ne hid]
    · rw [if_neg fun h => hr (Resource.table_eq_name_iff.1 h)]

namespace Call

/-- A call whose arguments pass their checks does its deed to its target; one without a target, or
one that reads, does nothing to any row. -/
theorem does_of_plan {c : Call} {p : Plan c.Result} (hp : c.plan = .ok p) :
    (c.deed = .read ∧ ∀ ambient t rows, p.statement.effect ambient t rows = rows) ∨
      ∃ r id, c.target? = some (r, id) ∧ p.statement.Does c.deed r id := by
  have hchange (r : Resource) (id : Uuid) {changes : List (String × Term)} (h : Tidy changes) :
      (Statement.update r.schema id changes).Does .change r id :=
    Statement.does_of_update (fun ambient t rows => (rows id).map (t.updated ambient changes))
      (fun _ _ _ => rfl) fun ambient rows => .change h (rows id)
  cases c with
  | create r fresh input =>
    obtain rfl := eq_of_guarded hp
    refine .inr ⟨r, fresh, rfl, Statement.does_of_update (fun ambient t _ =>
      some (t.inserted ambient (("id", .uuid (some fresh)) :: r.values input)))
      (fun _ _ _ => rfl) fun ambient rows => ?_⟩
    exact .create _ (r.inserted_new ambient fresh input)
  | patch r p =>
    obtain rfl := eq_of_guarded hp
    exact .inr ⟨r, r.patchId p, rfl, hchange r _ (tidy_patch r p)⟩
  | softDelete r id =>
    obtain rfl := Except.ok.inj hp
    exact .inr ⟨r, id, rfl, hchange r id ⟨rfl, rfl, rfl, by decide⟩⟩
  | restore r id =>
    obtain rfl := Except.ok.inj hp
    exact .inr ⟨r, id, rfl, hchange r id ⟨rfl, rfl, rfl, by decide⟩⟩
  | purge r id =>
    obtain rfl := Except.ok.inj hp
    exact .inr ⟨r, id, rfl, Statement.does_of_update (fun _ _ _ => none)
      (fun _ _ _ => rfl) fun ambient rows => .purge (rows id)⟩
  | setLocked id isLocked =>
    obtain rfl := eq_of_guarded hp
    exact .inr ⟨.thread, id, rfl, hchange .thread id (tidy_patch .thread (.lock id isLocked))⟩
  | list r f =>
    obtain ⟨-, s, hs, rfl⟩ := plan_list_eq_ok_iff.1 hp
    rw [Statement.ofFilter] at hs
    cases hkeys : f.sortKeys r.schema with
    | error e => rw [hkeys] at hs; cases hs
    | ok keys =>
      rw [hkeys] at hs
      obtain rfl := Except.ok.inj hs
      exact .inl ⟨rfl, fun _ _ _ => rfl⟩
  | count r f =>
    obtain rfl := eq_of_guarded hp
    exact .inl ⟨rfl, fun _ _ _ => rfl⟩
  | _ =>
    obtain rfl := Except.ok.inj hp
    exact .inl ⟨rfl, fun _ _ _ => rfl⟩

theorem sought_of_plan {c : Call} {p : Plan c.Result} (hp : c.plan = .ok p) {r : Resource}
    {id : Uuid} (htarget : c.target? = some (r, id)) (hdeed : c.deed ≠ .create) :
    p.statement.sought? r.declaration = some id ∧
      (p.read [] = .error (Repository.notFound r id) ∨
        p.read [] = .ok (.error (Repository.notFound r id))) := by
  have hsame (r : Resource) (id : Uuid) :
      (if r.schema.table = r.declaration.name then some id else none) = some id :=
    if_pos (Resource.table_eq_name_iff.2 rfl)
  cases c with
  | get r id =>
    obtain rfl := Except.ok.inj hp
    cases htarget
    exact ⟨hsame r id, .inr rfl⟩
  | patch r p =>
    obtain rfl := eq_of_guarded hp
    cases htarget
    exact ⟨hsame r _, .inl rfl⟩
  | softDelete r id =>
    obtain rfl := Except.ok.inj hp
    cases htarget
    exact ⟨hsame r id, .inl rfl⟩
  | restore r id =>
    obtain rfl := Except.ok.inj hp
    cases htarget
    exact ⟨hsame r id, .inl rfl⟩
  | purge r id =>
    obtain rfl := Except.ok.inj hp
    cases htarget
    exact ⟨hsame r id, .inl rfl⟩
  | setLocked id isLocked =>
    obtain rfl := eq_of_guarded hp
    cases htarget
    exact ⟨hsame .thread id, .inl rfl⟩
  | create r fresh input => exact absurd rfl hdeed
  | _ => cases htarget

end Call

/-! ## One call against a keeper -/

namespace Keeper

variable {r : Resource} {store : Store σ} (k : Keeper r.declaration store)

/-- The time that the transaction begun next takes for its own. -/
def next (s : σ) : Ambient := k.ambient (store .start s).2

/-- What a call does to the table of a resource. -/
structure Obeys (c : Call) (s : σ) (o : Outcome σ (Except Failure c.Result)) : Prop where
  failed : (∀ a, o.value? ≠ some (.ok a)) → k.table o.state = k.table s
  others : ∀ id, c.target? ≠ some (r, id) → k.table o.state id = k.table s id
  row : ∀ id, c.target? = some (r, id) → (∃ a, o.value? = some (.ok a)) →
    Becomes r (k.next s) id c.deed (k.table s id) (k.table o.state id)
  found : ∀ id, c.target? = some (r, id) → c.deed ≠ .create → k.table s id = none →
    (∀ a, o.value? ≠ some (.ok a)) ∧
      (o.exchanges ≠ [] → ¬ o.Declined → o.value? = some (.error (Repository.notFound r id)))

theorem obeys_of_done {c : Call} {p : Plan c.Result} (hp : c.plan = .ok p) {s : σ}
    {o : Outcome σ (Except Failure c.Result)} {rows : List Row} {x : Except Failure c.Result}
    (hanswers : k.Answers s p.statement rows) (hread : p.read rows = .ok x)
    (hvalue : o.value? = some x)
    (htable : k.table o.state = p.statement.effect (k.next s) r.declaration (k.table s)) :
    k.Obeys c s o where
  failed hfailed := by
    cases x with
    | ok a => exact absurd hvalue (hfailed a)
    | error e =>
      -- only a reading fails after its transaction was committed
      obtain ⟨r', id, rfl, -, -⟩ := Call.eq_get_of_plan_read hp hread
      obtain rfl := Except.ok.inj hp
      exact htable
  others id hne := by
    rw [htable]
    rcases Call.does_of_plan hp with ⟨-, hsame⟩ | ⟨r', id', htarget, hdoes⟩
    · rw [hsame]
    · exact hdoes.others _ _ r id fun h => hne (h ▸ htarget)
  row id htarget _ := by
    rw [htable]
    rcases Call.does_of_plan hp with ⟨hread, hsame⟩ | ⟨r', id', htarget', hdoes⟩
    · rw [hsame, hread]
      exact .read _
    · obtain ⟨rfl, rfl⟩ := Prod.mk.inj (Option.some.inj (htarget.symm.trans htarget'))
      exact hdoes.row _ _
  found id htarget hdeed habsent := by
    obtain ⟨hsought, hnone⟩ := Call.sought_of_plan hp htarget hdeed
    obtain rfl : rows = [] := (hanswers id hsought).2 habsent
    rcases hnone with hnone | hnone
    · rw [hnone] at hread
      cases hread
    · obtain rfl := Except.ok.inj (hnone.symm.trans hread)
      exact ⟨fun a ha => (by rw [hvalue] at ha; cases ha), fun _ _ => hvalue⟩

theorem obeys (limit : Option Duration) (c : Call) (s : σ) :
    k.Obeys c s ((c.run limit).run store s) := by
  cases hp : c.plan with
  | error e =>
    rw [Call.run_of_plan_error hp]
    exact ⟨fun _ => rfl, fun _ _ => rfl, (fun _ _ h => h.elim fun a ha => by cases ha),
      fun _ _ _ _ => ⟨(fun a ha => by cases ha), fun h => absurd rfl h⟩⟩
  | ok p =>
    rw [Call.run_eq, hp, Call.runPlan]
    cases k.settled_run limit p s with
    | done rows x hanswers hread hvalue htable =>
      exact k.obeys_of_done hp hanswers hread hvalue htable
    | undone hvalue htable hcause =>
      refine ⟨fun _ => htable, fun id _ => congrFun htable id,
        fun _ _ h => h.elim fun a ha => absurd ha (hvalue a),
        fun id htarget hdeed habsent => ⟨hvalue, ?_⟩⟩
      intro hasked hdone
      obtain ⟨rows, e, hanswers, hread, he⟩ := (hcause.resolve_left hasked).resolve_left hdone
      obtain ⟨hsought, hnone⟩ := Call.sought_of_plan hp htarget hdeed
      obtain rfl : rows = [] := (hanswers id hsought).2 habsent
      rcases hnone with hnone | hnone
      · rw [he, Except.error.inj (hread.symm.trans hnone)]
      · rw [hnone] at hread
        cases hread

end Keeper

/-! ## Calls one after another -/

/-- The state of the store after the calls. -/
def Call.after (limit : Option Duration) (store : Store σ) : List Call → σ → σ
  | [], s => s
  | c :: calls, s => after limit store calls ((c.run limit).run store s).state

theorem Call.after_append (limit : Option Duration) (store : Store σ) (before rest : List Call)
    (s : σ) : after limit store (before ++ rest) s =
      after limit store rest (after limit store before s) := by
  induction before generalizing s with
  | nil => rfl
  | cons c before ih => exact ih _

namespace Keeper

variable {r : Resource} {store : Store σ} (k : Keeper r.declaration store)
  (limit : Option Duration)

theorem row_step (c : Call) (s : σ) (id : Uuid) :
    k.table ((c.run limit).run store s).state id = k.table s id ∨
      (c.target? = some (r, id) ∧ Becomes r (k.next s) id c.deed (k.table s id)
        (k.table ((c.run limit).run store s).state id)) := by
  have hobeys := k.obeys limit c s
  by_cases htarget : c.target? = some (r, id)
  · by_cases hok : ∃ a, ((c.run limit).run store s).value? = some (.ok a)
    · exact .inr ⟨htarget, hobeys.row id htarget hok⟩
    · exact .inl (congrFun (hobeys.failed (not_exists.1 hok)) id)
  · exact .inl (hobeys.others id htarget)

def Sound (s : σ) : Prop := ∀ id row, k.table s id = some row → row.Sound id

theorem sound_after (calls : List Call) {s : σ} (h : k.Sound s) :
    k.Sound (Call.after limit store calls s) := by
  induction calls generalizing s with
  | nil => exact h
  | cons c calls ih =>
    refine ih fun id => ?_
    rcases k.row_step limit c s id with hsame | ⟨-, hbecomes⟩
    · rw [hsame]
      exact h id
    · exact hbecomes.sound (h id)

/-- Only a creation puts a row where there was none. -/
theorem inherits_after (calls : List Call) (s : σ) {id : Uuid}
    (hid : (r, id) ∉ calls.filterMap Call.created?) :
    Inherits (k.table s id) (k.table (Call.after limit store calls s) id) := by
  induction calls generalizing s with
  | nil => exact .refl _
  | cons c calls ih =>
    have hrest : (r, id) ∉ calls.filterMap Call.created? := fun h =>
      hid (((List.sublist_cons_self c calls).filterMap _).subset h)
    refine .trans ?_ (ih _ hrest)
    rcases k.row_step limit c s id with hsame | ⟨htarget, hbecomes⟩
    · rw [hsame]
      exact .refl _
    · refine hbecomes.inherits fun hdeed => hid (List.mem_filterMap.2 ⟨c, List.mem_cons_self, ?_⟩)
      rw [Call.created?, if_pos hdeed, htarget]

theorem created_once {before rest : List Call} {s : σ} (hempty : k.table s = fun _ => none)
    (hfresh : ((before ++ rest).filterMap Call.created?).Nodup) {id : Uuid}
    (hrow : k.table (Call.after limit store before s) id ≠ none) :
    (r, id) ∉ rest.filterMap Call.created? := by
  rw [List.filterMap_append, List.nodup_append] at hfresh
  have hcreated : (r, id) ∈ before.filterMap Call.created? := by
    by_contra hnot
    obtain ⟨row, hrow⟩ := Option.ne_none_iff_exists'.1 hrow
    obtain ⟨_, habsent, -⟩ := k.inherits_after limit before s hnot row hrow
    rw [hempty] at habsent
    cases habsent
  intro hagain
  exact hfresh.2.2 _ hcreated _ hagain rfl

/-- There is no such row, and no call finds it. -/
structure Gone (s : σ) (id : Uuid) : Prop where
  absent : k.table s id = none
  unfound : ∀ d : Call, d.target? = some (r, id) → d.deed ≠ .create →
    let o := (d.run limit).run store s
    (∀ a, o.value? ≠ some (.ok a)) ∧
      (o.exchanges ≠ [] → ¬ o.Declined → o.value? = some (.error (Repository.notFound r id)))

theorem gone_of_absent {s : σ} {id : Uuid} (h : k.table s id = none) : k.Gone limit s id :=
  ⟨h, fun d htarget hdeed => (k.obeys limit d s).found id htarget hdeed h⟩

/-- What a call does to the table, told by what it comes to. -/
structure Conduct (c : Call) (s : σ) (o : Outcome σ (Except Failure c.Result)) : Prop where
  /-- A failure, or no value at all, leaves the table exactly as it was. -/
  failed : (∀ a, o.value? ≠ some (.ok a)) → k.table o.state = k.table s
  others : ∀ id, c.target? ≠ some (r, id) → k.table o.state id = k.table s id
  read : c.deed = .read → k.table o.state = k.table s
  stamped : c.deed = .create ∨ c.deed = .change → ∀ id, c.target? = some (r, id) →
    (∃ a, o.value? = some (.ok a)) → ∃ row, k.table o.state id = some row ∧
      row "updated_at" = some (.instant (some (k.next s).now))

theorem conduct (c : Call) (s : σ) : k.Conduct c s ((c.run limit).run store s) where
  failed := (k.obeys limit c s).failed
  others := (k.obeys limit c s).others
  read hread := by
    funext id
    rcases k.row_step limit c s id with hsame | ⟨-, hbecomes⟩
    · exact hsame
    · rw [hread] at hbecomes
      exact hbecomes.eq_of_read
  stamped hdeed id htarget hok := by
    have hobeys := k.obeys limit c s
    refine (hobeys.row id htarget hok).stamped hdeed fun hchange hnone => ?_
    obtain ⟨a, ha⟩ := hok
    exact (hobeys.found id htarget (by simp [hchange]) hnone).1 a ha

end Keeper

/-- From the empty table, whatever calls are made one after another, if no identifier is given out
twice: every row is marked deleted exactly if it has a time of deletion; its identifier and the time
of its creation never change; each call does what it says to its own row and nothing to any other; a
call that fails leaves the table as it was; and what was purged never comes back. -/
theorem reachable_tables_sound {r : Resource} {store : Store σ} (k : Keeper r.declaration store)
    (limit : Option Duration) (s : σ) (hempty : k.table s = fun _ => none) (calls : List Call)
    (hfresh : (calls.filterMap Call.created?).Nodup) :
    (∀ id row, k.table (Call.after limit store calls s) id = some row →
      row "id" = some (.uuid (some id)) ∧ row.Consistent) ∧
    (∀ before rest, calls = before ++ rest → ∀ id row row',
      k.table (Call.after limit store before s) id = some row →
      k.table (Call.after limit store calls s) id = some row' →
      row' "id" = row "id" ∧ row' "created_at" = row "created_at") ∧
    (∀ before c rest, calls = before ++ c :: rest →
      let now := Call.after limit store before s
      let o := (c.run limit).run store now
      k.Conduct c now o ∧
        ∀ id, c = .purge r id → (∃ a, o.value? = some (.ok a)) →
          ∀ mid tail, rest = mid ++ tail →
            k.Gone limit (Call.after limit store mid o.state) id) := by
  refine ⟨?_, ?_, ?_⟩
  · intro id row hrow
    have hsound : k.Sound s := fun id row h => by rw [hempty] at h; cases h
    have := k.sound_after limit calls hsound id row hrow
    exact ⟨this.id, this.consistent⟩
  · rintro before rest rfl id row row' hrow hrow'
    have honce := k.created_once limit hempty hfresh (by rw [hrow]; simp)
    rw [Call.after_append] at hrow'
    obtain ⟨_, hrow'', hkept⟩ := k.inherits_after limit rest _ honce row' hrow'
    rw [hrow] at hrow''
    obtain rfl := Option.some.inj hrow''
    exact hkept
  · rintro before c rest rfl
    refine ⟨k.conduct limit c _, ?_⟩
    rintro id rfl ⟨a, ha⟩ mid tail rfl
    have hobeys := k.obeys limit (.purge r id) (Call.after limit store before s)
    have hpresent : k.table (Call.after limit store before s) id ≠ none := fun habsent =>
      (hobeys.found id rfl Deed.noConfusion habsent).1 a ha
    have habsent := (hobeys.row id rfl ⟨a, ha⟩).eq_none_of_purge
    have honce := k.created_once limit hempty hfresh hpresent
    have hmid : (r, id) ∉ mid.filterMap Call.created? := fun h =>
      honce ((((List.sublist_append_left mid tail).cons _).filterMap _).subset h)
    have hinherits := k.inherits_after limit mid
      (((Call.purge r id).run limit).run store (Call.after limit store before s)).state hmid
    rw [habsent] at hinherits
    refine k.gone_of_absent limit (Option.eq_none_iff_forall_ne_some.2 fun row hrow => ?_)
    obtain ⟨_, h, -⟩ := hinherits row hrow
    cases h

/-- A thread is created, marked deleted, restored, locked and purged, and not found after that. -/
theorem purged_thread_stays_away :
    let times : Nat → Instant := fun n => if n % 2 = 0 then default else .epoch
    let store := Ledger.store times Tables.threads Thread.fields.names
    let k : Keeper Resource.thread.declaration store := Ledger.keeper times _ _
    let id : Uuid := ⟨7⟩
    let marked : List Call :=
      [.create .thread id ⟨⟨1⟩, ⟨2⟩, "trains"⟩, .softDelete .thread id]
    let calls := marked ++ [.restore .thread id, .setLocked id true, .purge .thread id,
      .get .thread id]
    (k.table Ledger.empty = fun _ => none) ∧ (calls.filterMap Call.created?).Nodup ∧
      (∃ row deletedAt, k.table (Call.after none store marked .empty) id = some row ∧
        row "deleted" = some (.flag (some true)) ∧
        row "deleted_at" = some (.instant (some deletedAt))) ∧
      k.Gone none (Call.after none store calls .empty) id := by
  intro times store k id marked calls
  have hfresh : (calls.filterMap Call.created?).Nodup := by decide
  refine ⟨rfl, hfresh, ?_, ?_⟩
  · have hrow : (k.table (Call.after none store marked .empty) id).bind (· "deleted") =
        some (.flag (some true)) := by decide +kernel
    obtain ⟨row, hrow, hdeleted⟩ := Option.bind_eq_some_iff.1 hrow
    obtain ⟨-, deletedAt, hat, hflag⟩ :=
      (reachable_tables_sound (r := .thread) k none .empty rfl marked (by decide)).1 id row hrow
    rw [hdeleted, Option.some.injEq, Value.flag.injEq, Option.some.injEq] at hflag
    obtain ⟨t, rfl⟩ := Option.isSome_iff_exists.1 hflag.symm
    exact ⟨row, t, hrow, hdeleted, hat⟩
  · obtain ⟨-, -, hconduct⟩ :=
      reachable_tables_sound (r := .thread) k none .empty rfl calls hfresh
    have hdone : ((((Call.purge .thread id).run none).run store
        (Call.after none store (calls.take 4) .empty)).value?.bind Except.toOption).isSome =
          true := by decide +kernel
    obtain ⟨a, ha⟩ := Option.isSome_iff_exists.1 hdone
    obtain ⟨x, hx, hxa⟩ := Option.bind_eq_some_iff.1 ha
    cases x with
    | error e => cases hxa
    | ok a =>
      have hpurged := hconduct (calls.take 4) (.purge .thread id) [.get .thread id] rfl
      exact hpurged.2 id rfl ⟨a, hx⟩ [.get .thread id] [] rfl

end MessageBoard
