import MessageBoard.Proofs.Answers
import MessageBoard.Proofs.Lifetime

/-!
# Edits of a row

A patch sets the columns of the fields that it supplies, each once and under its own name, and the
time of change; a deletion and a restoration set whether and when the row was deleted. So no edit
takes back what another one did to other columns: `Keeper.row_after` follows a row through any
calls, and `TableDeclaration.edited_of_column` reads every column off the edits that set it. A store
that does what it is asked makes every edit whose check passes, which is `Keeper.edits_of_obliges`.
-/

namespace MessageBoard

variable {σ : Type}

open TableDeclaration

/-! ## What a patch supplies -/

def UserPatch.supplied? (p : UserPatch) : String → Option Value
  | "name" => p.name.map (.text ∘ some)
  | "username" => p.username.map (.text ∘ some)
  | "email" => p.email.map (.text ∘ some)
  | _ => none

def ForumPatch.supplied? (p : ForumPatch) : String → Option Value
  | "owner_id" => p.ownerId.map (.uuid ∘ some)
  | "name" => p.name.map (.text ∘ some)
  | "description" => p.description.map (.text ∘ some)
  | _ => none

def ThreadPatch.supplied? (p : ThreadPatch) : String → Option Value
  | "forum_id" => p.forumId.map (.uuid ∘ some)
  | "author_id" => p.authorId.map (.uuid ∘ some)
  | "title" => p.title.map (.text ∘ some)
  | "is_locked" => p.isLocked.map (.flag ∘ some)
  | _ => none

def PostPatch.supplied? (p : PostPatch) : String → Option Value
  | "reply_to" => p.replyTo.map (.uuid ∘ some)
  | "content" => p.content.map (.text ∘ some)
  | _ => none

namespace Resource

/-- The columns that patches can change. -/
def patchable : Resource → List String
  | user => ["name", "username", "email"]
  | forum => ["owner_id", "name", "description"]
  | thread => ["forum_id", "author_id", "title", "is_locked"]
  | post => ["reply_to", "content"]

/-- The value that a patch supplies for a column. -/
def supplied? : (r : Resource) → r.Patch → String → Option Value
  | user => UserPatch.supplied?
  | forum => ForumPatch.supplied?
  | thread => ThreadPatch.supplied?
  | post => PostPatch.supplied?

end Resource

section

variable {α : Type} {column name : String} {value : Option α → Value} {content : Option α}

theorem lookup_supplied : (supplied column value content).lookup name =
    if name = column then content.map (value ∘ some) else none := by
  cases content with
  | none => simp [supplied]
  | some a =>
    by_cases h : name = column
    · simp [supplied, h]
    · simp [supplied, List.lookup_cons, h, beq_false_of_ne]

theorem names_supplied : List.Sublist ((supplied column value content).map (·.1)) [column] := by
  cases content with
  | none => exact List.nil_sublist _
  | some a => exact List.Sublist.refl _

end

namespace Resource

variable (r : Resource) (p : r.Patch)

theorem lookup_assignments (column : String) :
    (r.assignments p).lookup column = r.supplied? p column := by
  cases r with
  | user =>
    rw [supplied?]
    unfold UserPatch.supplied?
    split <;> simp_all [assignments, UserPatch.assignments, List.lookup_append, lookup_supplied]
  | forum =>
    rw [supplied?]
    unfold ForumPatch.supplied?
    split <;> simp_all [assignments, ForumPatch.assignments, List.lookup_append, lookup_supplied]
  | thread =>
    rw [supplied?]
    unfold ThreadPatch.supplied?
    split <;> simp_all [assignments, ThreadPatch.assignments, List.lookup_append, lookup_supplied]
  | post =>
    rw [supplied?]
    unfold PostPatch.supplied?
    split <;> simp_all [assignments, PostPatch.assignments, List.lookup_append, lookup_supplied]

theorem names_assignments : List.Sublist ((r.assignments p).map (·.1)) r.patchable := by
  cases r with
  | user =>
    simp only [assignments, UserPatch.assignments, List.map_append]
    exact (names_supplied.append names_supplied).append names_supplied
  | forum =>
    simp only [assignments, ForumPatch.assignments, List.map_append]
    exact (names_supplied.append names_supplied).append names_supplied
  | thread =>
    simp only [assignments, ThreadPatch.assignments, List.map_append]
    exact ((names_supplied.append names_supplied).append names_supplied).append names_supplied
  | post =>
    simp only [assignments, PostPatch.assignments, List.map_append]
    exact names_supplied.append names_supplied

theorem supplied?_of_not_patchable {column : String} (h : column ∉ r.patchable) :
    r.supplied? p column = none := by
  rw [← lookup_assignments, List.lookup_eq_none_iff]
  intro e he
  rw [bne_iff_ne]
  rintro rfl
  exact h ((r.names_assignments p).subset (List.mem_map_of_mem he))

theorem stored_of_supplied? {column : String} {v : Value} (h : r.supplied? p column = some v) :
    v.stored = v := by
  have of_map {α : Type} {value : Option α → Value} {content : Option α}
      (hvalue : ∀ a, (value (some a)).stored = value (some a))
      (h : content.map (value ∘ some) = some v) : v.stored = v := by
    obtain ⟨a, -, rfl⟩ := Option.map_eq_some_iff.1 h
    exact hvalue a
  cases r with
  | user =>
    rw [supplied?] at h
    unfold UserPatch.supplied? at h
    split at h <;> first | exact of_map (fun _ => rfl) h | cases h
  | forum =>
    rw [supplied?] at h
    unfold ForumPatch.supplied? at h
    split at h <;> first | exact of_map (fun _ => rfl) h | cases h
  | thread =>
    rw [supplied?] at h
    unfold ThreadPatch.supplied? at h
    split at h <;> first | exact of_map (fun _ => rfl) h | cases h
  | post =>
    rw [supplied?] at h
    unfold PostPatch.supplied? at h
    split at h <;> first | exact of_map (fun _ => rfl) h | cases h

end Resource

/-! ## What an edit changes -/

namespace Call

def changes : Call → List (String × Term)
  | patch r p =>
    (r.assignments p).map (fun (column, v) => (column, .value v)) ++ [("updated_at", .now)]
  | setLocked _ isLocked => [("is_locked", .value (.flag (some isLocked))), ("updated_at", .now)]
  | softDelete _ _ => [("deleted", .flag true), ("deleted_at", .now), ("updated_at", .now)]
  | restore _ _ => [("deleted", .flag false), ("deleted_at", .null), ("updated_at", .now)]
  | _ => []

def supplied? : Call → String → Option Value
  | patch r p, column => r.supplied? p column
  | setLocked id isLocked, column => Resource.supplied? .thread (.lock id isLocked) column
  | _, _ => none

/-- Whether the call marks its row deleted, if it does anything to that. -/
def mark? : Call → Option Bool
  | softDelete _ _ => some true
  | restore _ _ => some false
  | _ => none

theorem statement_of_plan {c : Call} {p : Plan c.Result} (hp : c.plan = .ok p) {r : Resource}
    {id : Uuid} (htarget : c.target? = some (r, id)) (hdeed : c.deed = .change) :
    p.statement = .update r.schema id c.changes := by
  cases c with
  | patch r p =>
    obtain rfl := eq_of_guarded hp
    cases htarget
    rfl
  | softDelete r id =>
    obtain rfl := Except.ok.inj hp
    cases htarget
    rfl
  | restore r id =>
    obtain rfl := Except.ok.inj hp
    cases htarget
    rfl
  | setLocked id isLocked =>
    obtain rfl := eq_of_guarded hp
    cases htarget
    rfl
  | _ => cases hdeed

theorem exists_read_of_plan {c : Call} {p : Plan c.Result} (hp : c.plan = .ok p) {r : Resource}
    {id : Uuid} (htarget : c.target? = some (r, id)) (hdeed : c.deed = .change) {rows : List Row}
    (hne : rows ≠ []) (hread : ∀ row ∈ rows, (Repository.readRecord r row).isSome) :
    ∃ a, p.read rows = .ok (.ok a) := by
  have hchange (s : Statement) : ∃ a, (changePlan r s id).read rows = .ok (.ok a) := by
    obtain ⟨a, ha⟩ := (Rows.first_ok_iff (Repository.readRecord r) (Repository.notFound r id)
      rows).2 ⟨fun row hrow => hread row (List.mem_of_mem_take hrow), hne⟩
    exact ⟨a, congrArg (Except.map Except.ok) ha⟩
  cases c with
  | patch r p =>
    obtain rfl := eq_of_guarded hp
    cases htarget
    exact hchange _
  | softDelete r id =>
    obtain rfl := Except.ok.inj hp
    cases htarget
    exact hchange _
  | restore r id =>
    obtain rfl := Except.ok.inj hp
    cases htarget
    exact hchange _
  | setLocked id isLocked =>
    obtain rfl := eq_of_guarded hp
    cases htarget
    exact hchange _
  | _ => cases hdeed

end Call

def markColumns : List String := ["deleted", "deleted_at", "updated_at"]

theorem Resource.not_mem_markColumns {r : Resource} {column : String} (h : column ∈ r.patchable) :
    column ∉ markColumns := by
  have hall : ∀ column ∈ r.patchable, column ∉ markColumns := by cases r <;> decide
  exact hall column h

namespace Call

variable {c : Call} {r : Resource} {id : Uuid} {column : String}

theorem lookup_changes_patch (r : Resource) (p : r.Patch) (h : column ≠ "updated_at") :
    (changes (patch r p)).lookup column = (r.supplied? p column).map .value := by
  rw [changes, List.lookup_append, lookup_terms, r.lookup_assignments]
  simp [List.lookup_cons, beq_false_of_ne h]

theorem lookup_marks (h : column ∉ markColumns) (deleted deletedAt updatedAt : Term) :
    [("deleted", deleted), ("deleted_at", deletedAt), ("updated_at", updatedAt)].lookup column =
      none := by
  rw [List.lookup_eq_none_iff]
  intro e he
  rw [bne_iff_ne]
  rintro rfl
  simp only [List.mem_cons, List.not_mem_nil, or_false] at he
  rcases he with rfl | rfl | rfl <;> exact h (by simp [markColumns])

/-- Of the columns that are not its own, an edit sets those that it supplies a value for. -/
theorem lookup_changes (hdeed : c.deed = .change) (h : column ∉ markColumns) :
    c.changes.lookup column = (c.supplied? column).map .value := by
  have hne : column ≠ "updated_at" := by
    rintro rfl
    exact h (by decide)
  cases c with
  | patch r p => exact lookup_changes_patch r p hne
  | setLocked id isLocked => exact lookup_changes_patch .thread (.lock id isLocked) hne
  | softDelete r id => exact lookup_marks h _ _ _
  | restore r id => exact lookup_marks h _ _ _
  | _ => cases hdeed

theorem lookup_changes_updated (hdeed : c.deed = .change) :
    c.changes.lookup "updated_at" = some .now := by
  cases c with
  | patch r p => exact (tidy_patch r p).updated
  | setLocked id isLocked => rfl
  | softDelete r id => rfl
  | restore r id => rfl
  | _ => cases hdeed

theorem supplied?_of_not_patchable (htarget : c.target? = some (r, id))
    (h : column ∉ r.patchable) : c.supplied? column = none := by
  cases c with
  | patch r p =>
    cases htarget
    exact r.supplied?_of_not_patchable p h
  | setLocked id isLocked =>
    cases htarget
    exact Resource.supplied?_of_not_patchable .thread _ h
  | _ => rfl

theorem lookup_changes_marks (hdeed : c.deed = .change) :
    c.changes.lookup "deleted" = c.mark?.map .flag ∧
      c.changes.lookup "deleted_at" =
        c.mark?.map fun deleted => if deleted then .now else .null := by
  have hpatch (r : Resource) (p : r.Patch) :
      (changes (patch r p)).lookup "deleted" = none ∧
        (changes (patch r p)).lookup "deleted_at" = none := by
    have hnone {column : String} (h : column ∈ markColumns) : r.supplied? p column = none :=
      r.supplied?_of_not_patchable p fun hmem => r.not_mem_markColumns hmem h
    rw [lookup_changes_patch r p (by decide), lookup_changes_patch r p (by decide),
      hnone (by decide), hnone (by decide)]
    exact ⟨rfl, rfl⟩
  cases c with
  | patch r p => exact hpatch r p
  | setLocked id isLocked => exact hpatch .thread (.lock id isLocked)
  | softDelete r id => exact ⟨rfl, rfl⟩
  | restore r id => exact ⟨rfl, rfl⟩
  | _ => cases hdeed

end Call

/-! ## Edits one after another -/

abbrev Edit := Call × Ambient

namespace Edit

def changes (e : Edit) : List (String × Term) := e.1.changes

/-- Whether the row is marked deleted, and when it was. -/
def mark? (e : Edit) : Option (Bool × Instant) := e.1.mark?.map (·, e.2.now)

end Edit

/-- The row after the edits. -/
def TableDeclaration.edited (t : TableDeclaration) (edits : List Edit) (row : Tuple) : Tuple :=
  edits.foldl (fun row e => t.updated e.2 e.changes row) row

theorem getLast?_filterMap_cons {α β : Type} (f : α → Option β) (a : α) (as : List α) :
    ((a :: as).filterMap f).getLast? = ((as.filterMap f).getLast?).or (f a) := by
  cases hf : f a with
  | none => rw [List.filterMap_cons_none hf, Option.or_none]
  | some b =>
    rw [List.filterMap_cons_some hf, List.getLast?_cons]
    cases (as.filterMap f).getLast? <;> rfl

namespace TableDeclaration

variable {t : TableDeclaration} {name : String} {c : ColumnDeclaration}

/-- A column holds what the last edit that set it set it to. -/
theorem edited_of_column (hc : t.column? name = some c) (edits : List Edit) (row : Tuple) :
    t.edited edits row name = ((edits.filterMap fun e =>
      (e.changes.lookup name).map (·.content e.2 c)).getLast?).or (row name) := by
  induction edits generalizing row with
  | nil => rfl
  | cons e edits ih =>
    have hstep : t.updated e.2 e.changes row name =
        ((e.changes.lookup name).map (·.content e.2 c)).or (row name) := by
      cases hlookup : e.changes.lookup name with
      | none => exact updated_of_lookup_none hlookup
      | some term => exact updated_of_lookup_some hc hlookup
    rw [edited, List.foldl_cons, ← edited, ih, hstep, getLast?_filterMap_cons, Option.or_assoc]

theorem edited_of_lookup_none {edits : List Edit}
    (h : ∀ e ∈ edits, e.changes.lookup name = none) (row : Tuple) :
    t.edited edits row name = row name := by
  induction edits generalizing row with
  | nil => rfl
  | cons e edits ih =>
    obtain ⟨he, hedits⟩ := List.forall_mem_cons.1 h
    rw [edited, List.foldl_cons, ← edited, ih hedits, updated_of_lookup_none he]

end TableDeclaration

/-- The edits were made to the row of this identifier. -/
def EditsOf (r : Resource) (id : Uuid) (edits : List Edit) : Prop :=
  ∀ e ∈ edits, e.1.target? = some (r, id) ∧ e.1.deed = .change

/-- What the edits made of a row. Each column that patches can change holds the last value that was
supplied for it, the row is marked as it was marked last, and what no edit can change is as it was.
-/
structure Tuple.EditedTo (r : Resource) (edits : List Edit) (row row' : Tuple) : Prop where
  patched : ∀ column ∈ r.patchable,
    row' column = ((edits.filterMap (·.1.supplied? column)).getLast?).or (row column)
  deleted : row' "deleted" =
    ((edits.filterMap Edit.mark?).getLast?.map fun m => .flag (some m.1)).or (row "deleted")
  deletedAt : row' "deleted_at" = ((edits.filterMap Edit.mark?).getLast?.map fun m =>
    .instant (if m.1 then some m.2 else none)).or (row "deleted_at")
  updated : row' "updated_at" =
    (edits.getLast?.map fun e => .instant (some e.2.now)).or (row "updated_at")
  others : ∀ column, column ∉ r.patchable → column ∉ markColumns → row' column = row column

theorem Resource.exists_patchable (r : Resource) {column : String} (h : column ∈ r.patchable) :
    ∃ c, r.declaration.column? column = some c := by
  have hall : ∀ column ∈ r.patchable, (r.declaration.column? column).isSome := by
    cases r <;> decide
  exact Option.isSome_iff_exists.1 (hall column h)

theorem Call.supplied?_stored {c : Call} {column : String} {v : Value}
    (h : c.supplied? column = some v) : v.stored = v := by
  cases c with
  | patch r p => exact r.stored_of_supplied? p h
  | setLocked id isLocked => exact Resource.stored_of_supplied? .thread _ h
  | _ => cases h

theorem Resource.editedTo (r : Resource) {id : Uuid} {edits : List Edit} (h : EditsOf r id edits)
    (row : Tuple) : row.EditedTo r edits (r.declaration.edited edits row) where
  patched column hcolumn := by
    obtain ⟨c, hc⟩ := r.exists_patchable hcolumn
    rw [edited_of_column hc]
    congr 2
    refine List.filterMap_congr fun e he => ?_
    rw [Edit.changes, Call.lookup_changes (h e he).2 (not_mem_markColumns hcolumn), Option.map_map]
    cases hv : e.1.supplied? column with
    | none => rfl
    | some v => exact congrArg some (Call.supplied?_stored hv)
  deleted := by
    obtain ⟨-, -, -, hdeleted, -⟩ := r.column?_reserved
    rw [edited_of_column hdeleted, ← List.getLast?_map, List.map_filterMap]
    congr 2
    refine List.filterMap_congr fun e he => ?_
    rw [Edit.changes, (Call.lookup_changes_marks (h e he).2).1, Edit.mark?]
    cases e.1.mark? <;> rfl
  deletedAt := by
    obtain ⟨-, -, -, -, hdeletedAt⟩ := r.column?_reserved
    rw [edited_of_column hdeletedAt, ← List.getLast?_map, List.map_filterMap]
    congr 2
    refine List.filterMap_congr fun e he => ?_
    rw [Edit.changes, (Call.lookup_changes_marks (h e he).2).2, Edit.mark?]
    rcases e.1.mark? with - | - | - <;> rfl
  updated := by
    obtain ⟨-, -, hupdated, -, -⟩ := r.column?_reserved
    rw [edited_of_column hupdated, ← List.getLast?_map, ← List.filterMap_eq_map]
    congr 2
    refine List.filterMap_congr fun e he => ?_
    rw [Edit.changes, Call.lookup_changes_updated (h e he).2]
    rfl
  others column hpatchable hmark := by
    refine edited_of_lookup_none (fun e he => ?_) row
    rw [Edit.changes, Call.lookup_changes (h e he).2 hmark,
      Call.supplied?_of_not_patchable (h e he).1 hpatchable, Option.map_none]

/-! ## Edits made by calls -/

def Outcome.succeeded {α : Type} (o : Outcome σ (Except Failure α)) : Bool :=
  match o.value? with
  | some (.ok _) => true
  | _ => false

theorem Outcome.succeeded_iff {α : Type} {o : Outcome σ (Except Failure α)} :
    o.succeeded = true ↔ ∃ a, o.value? = some (.ok a) := by
  rw [succeeded]
  rcases o.value? with - | (- | a)
  · simp
  · simp
  · simp

namespace Keeper

variable {r : Resource} {store : Store σ} (k : Keeper r.declaration store)
  (limit : Option Duration) (id : Uuid)

def edits : List Call → σ → List Edit
  | [], _ => []
  | c :: calls, s =>
    let o := (c.run limit).run store s
    if c.target? = some (r, id) ∧ c.deed = .change ∧ o.succeeded = true then
      (c, k.next s) :: edits calls o.state
    else edits calls o.state

theorem editsOf_edits (calls : List Call) (s : σ) : EditsOf r id (k.edits limit id calls s) := by
  induction calls generalizing s with
  | nil => exact List.forall_mem_nil _
  | cons c calls ih =>
    rw [edits]
    split
    · rename_i h
      exact List.forall_mem_cons.2 ⟨⟨h.1, h.2.1⟩, ih _⟩
    · exact ih _

/-- A call that comes to a value has executed its statement. -/
theorem table_of_succeeded {c : Call} {s : σ} (h : ((c.run limit).run store s).succeeded = true) :
    ∃ p, c.plan = .ok p ∧ k.table ((c.run limit).run store s).state =
      p.statement.effect (k.next s) r.declaration (k.table s) := by
  obtain ⟨a, ha⟩ := Outcome.succeeded_iff.1 h
  cases hp : c.plan with
  | error e =>
    rw [Call.run_of_plan_error hp] at ha
    cases ha
  | ok p =>
    rw [Call.run_eq, hp, Call.runPlan] at ha ⊢
    cases k.settled_run limit p s with
    | done rows x hanswers hread hvalue htable => exact ⟨p, rfl, htable⟩
    | undone hvalue htable hcause => exact absurd ha (hvalue a)

theorem row_of_edit {c : Call} {s : σ} (htarget : c.target? = some (r, id))
    (hdeed : c.deed = .change) (h : ((c.run limit).run store s).succeeded = true) {row : Tuple}
    (hrow : k.table s id = some row) : k.table ((c.run limit).run store s).state id =
      some (r.declaration.updated (k.next s) c.changes row) := by
  obtain ⟨p, hp, htable⟩ := k.table_of_succeeded limit h
  rw [htable, Call.statement_of_plan hp htarget hdeed, Statement.effect,
    if_pos (Resource.table_eq_name_iff.2 rfl), Function.update_self, hrow, Option.map_some]

theorem row_of_no_edit {c : Call} {s : σ}
    (hc : c.target? = some (r, id) → c.deed = .read ∨ c.deed = .change)
    (h : ¬ (c.target? = some (r, id) ∧ c.deed = .change ∧
      ((c.run limit).run store s).succeeded = true)) :
    k.table ((c.run limit).run store s).state id = k.table s id := by
  have hconduct := k.conduct limit c s
  by_cases htarget : c.target? = some (r, id)
  · rcases hc htarget with hdeed | hdeed
    · exact congrFun (hconduct.read hdeed) id
    · have hfailed : ∀ a, ((c.run limit).run store s).value? ≠ some (.ok a) := fun a ha =>
        h ⟨htarget, hdeed, Outcome.succeeded_iff.2 ⟨a, ha⟩⟩
      exact congrFun (hconduct.failed hfailed) id
  · exact hconduct.others id htarget

/-- A row that no call creates again or purges is what the edits among the calls make of it. -/
theorem row_after (calls : List Call)
    (hcalls : ∀ c ∈ calls, c.target? = some (r, id) → c.deed = .read ∨ c.deed = .change)
    {s : σ} {row : Tuple} (hrow : k.table s id = some row) :
    k.table (Call.after limit store calls s) id =
      some (r.declaration.edited (k.edits limit id calls s) row) := by
  induction calls generalizing s row with
  | nil => exact hrow
  | cons c calls ih =>
    obtain ⟨hc, hrest⟩ := List.forall_mem_cons.1 hcalls
    rw [Call.after, edits]
    split
    · rename_i h
      exact ih hrest (k.row_of_edit limit id h.1 h.2.1 h.2.2 hrow)
    · rename_i h
      exact ih hrest ((k.row_of_no_edit limit id hc h).trans hrow)

end Keeper

/-! ## Stores that oblige -/

/-- Each change of the row, when its turn comes, is carried out by the store, and what is sent for
it can be read. -/
def Store.Obliges (store : Store σ) (limit : Option Duration) (r : Resource) (id : Uuid) :
    List Call → σ → Prop
  | [], _ => True
  | c :: calls, s =>
    (c.target? = some (r, id) → c.deed = .change → ∀ p, c.plan = .ok p →
      ∃ opened rows closed, store.Answers s p.statement opened rows closed ∧
        ∀ row ∈ rows, (Repository.readRecord r row).isSome) ∧
    Obliges store limit r id calls ((c.run limit).run store s).state

theorem Plan.value_of_storeAnswers {α : Type} {limit : Option Duration} (ht : HasTime limit)
    {p : Plan α} {store : Store σ} {s : σ} {opened rows closed : List Row}
    (hanswers : store.Answers s p.statement opened rows closed) {a : α}
    (hread : p.read rows = .ok (.ok a)) : ((p.run limit).run store s).value? = some (.ok a) := by
  refine (p.goes_run store s limit).value_eq_ok_iff.2 ⟨opened, rows, closed, ?_, hread⟩
  rw [Plan.run, Operation.run_within store ht]
  exact p.exchanges_body store s hanswers hread

namespace Keeper

variable {r : Resource} {store : Store σ} (k : Keeper r.declaration store)
  {limit : Option Duration} (ht : HasTime limit) {id : Uuid}

include ht

theorem succeeded_of_answers {c : Call} {p : Plan c.Result} (hp : c.plan = .ok p)
    (htarget : c.target? = some (r, id)) (hdeed : c.deed = .change) {s : σ} {row : Tuple}
    (hrow : k.table s id = some row) {opened rows closed : List Row}
    (hanswers : store.Answers s p.statement opened rows closed)
    (hread : ∀ row ∈ rows, (Repository.readRecord r row).isSome) :
    ((c.run limit).run store s).succeeded = true := by
  have hne : rows ≠ [] := by
    obtain ⟨s₁, s₂, s₃, hstart, hexecute, -⟩ := hanswers
    have hsought : p.statement.sought? r.declaration = some id := by
      rw [Call.statement_of_plan hp htarget hdeed]
      exact if_pos (Resource.table_eq_name_iff.2 rfl)
    have hdraft : k.draft s₁ id = some row := by rw [(k.started hstart).2, hrow]
    intro hnil
    cases hdraft.symm.trans (((k.executed hexecute).2.2 id hsought).1 hnil)
  obtain ⟨a, ha⟩ := Call.exists_read_of_plan hp htarget hdeed hne hread
  rw [Call.run_eq, hp, Call.runPlan]
  exact Outcome.succeeded_iff.2 ⟨a, Plan.value_of_storeAnswers ht hanswers ha⟩

theorem succeeded_iff_of_obliges {c : Call} {calls : List Call} {s : σ} {row : Tuple}
    (hrow : k.table s id = some row) (hobliges : store.Obliges limit r id (c :: calls) s)
    (htarget : c.target? = some (r, id)) (hdeed : c.deed = .change) :
    ((c.run limit).run store s).succeeded = true ↔ c.plan.isOk = true := by
  constructor
  · intro h
    obtain ⟨p, hp, -⟩ := k.table_of_succeeded limit h
    rw [hp]
    rfl
  · intro hok
    cases hp : c.plan with
    | error e =>
      rw [hp] at hok
      cases hok
    | ok p =>
      obtain ⟨opened, rows, closed, hanswers, hread⟩ := hobliges.1 htarget hdeed p hp
      exact k.succeeded_of_answers ht hp htarget hdeed hrow hanswers hread

/-- The changes that pass their checks are the edits, in order. -/
theorem edits_of_obliges (calls : List Call)
    (hcalls : ∀ c ∈ calls, c.target? = some (r, id) → c.deed = .read ∨ c.deed = .change)
    {s : σ} {row : Tuple} (hrow : k.table s id = some row)
    (hobliges : store.Obliges limit r id calls s) :
    (k.edits limit id calls s).map (·.1) =
      calls.filter fun c => c.target? = some (r, id) ∧ c.deed = .change ∧ c.plan.isOk = true := by
  induction calls generalizing s row with
  | nil => rfl
  | cons c calls ih =>
    obtain ⟨hc, hrest⟩ := List.forall_mem_cons.1 hcalls
    have hiff := and_congr_right fun htarget : c.target? = some (r, id) =>
      and_congr_right (k.succeeded_iff_of_obliges ht hrow hobliges htarget)
    rw [edits, List.filter_cons]
    simp only [decide_eq_true_eq, ← hiff]
    by_cases h : c.target? = some (r, id) ∧ c.deed = .change ∧
        ((c.run limit).run store s).succeeded = true
    · rw [if_pos h, if_pos h, List.map_cons,
        ih hrest (k.row_of_edit limit id h.1 h.2.1 h.2.2 hrow) hobliges.2]
    · rw [if_neg h, if_neg h, ih hrest ((k.row_of_no_edit limit id hc h).trans hrow) hobliges.2]

end Keeper

/-! ## Edits in another order -/

def Contents.SameBut (column : String) (rows rows' : Contents) : Prop :=
  ∀ id, Option.Rel (fun row row' : Tuple => ∀ name, name ≠ column → row name = row' name)
    (rows id) (rows' id)

/-- It does not matter which of the statements is executed first, but for one column. Each has what
the store fills in for it, whenever it is executed. -/
def Statement.CommuteBut (column : String) (t : TableDeclaration)
    (first second : Statement) : Prop :=
  ∀ a b rows, Contents.SameBut column (second.effect b t (first.effect a t rows))
    (first.effect a t (second.effect b t rows))

namespace TableDeclaration

variable {t : TableDeclaration} {a b : Ambient} {changes changes' : List (String × Term)}
  {row row' : Tuple} {name : String}

theorem updated_congr (h : row name = row' name) :
    t.updated a changes row name = t.updated a changes row' name := by
  rw [updated, updated, h]

theorem updated_comm (h : changes.lookup name = none ∨ changes'.lookup name = none) :
    t.updated b changes' (t.updated a changes row) name =
      t.updated a changes (t.updated b changes' row) name := by
  rcases h with h | h
  · rw [updated_of_lookup_none h]
    exact updated_congr (updated_of_lookup_none h)
  · rw [updated_of_lookup_none h]
    exact (updated_congr (updated_of_lookup_none h)).symm

end TableDeclaration

namespace Resource

variable (r : Resource) (id : Uuid) {a b : Ambient} {changes changes' : List (String × Term)}
  {rows : Contents}

theorem effect_update : (Statement.update r.schema id changes).effect a r.declaration rows =
    Function.update rows id ((rows id).map (r.declaration.updated a changes)) :=
  if_pos (Resource.table_eq_name_iff.2 rfl)

theorem effect_update_twice : (Statement.update r.schema id changes').effect b r.declaration
      ((Statement.update r.schema id changes).effect a r.declaration rows) =
    Function.update rows id ((rows id).map fun row =>
      r.declaration.updated b changes' (r.declaration.updated a changes row)) := by
  rw [effect_update, effect_update, Function.update_self, Function.update_idem, Option.map_map]
  rfl

theorem sameBut_update {column : String} {f g : Tuple → Tuple}
    (h : ∀ row name, name ≠ column → f row name = g row name) :
    Contents.SameBut column (Function.update rows id ((rows id).map f))
      (Function.update rows id ((rows id).map g)) := by
  intro id'
  by_cases hid : id' = id
  · subst hid
    rw [Function.update_self, Function.update_self]
    cases rows id' with
    | none => exact .none
    | some row => exact .some (h row)
  · rw [Function.update_of_ne hid, Function.update_of_ne hid]
    cases rows id' with
    | none => exact .none
    | some row => exact .some fun _ _ => rfl

theorem commuteBut_update (h : ∀ name, name ≠ "updated_at" →
      changes.lookup name = none ∨ changes'.lookup name = none) :
    Statement.CommuteBut "updated_at" r.declaration (.update r.schema id changes)
      (.update r.schema id changes') := by
  intro a b rows
  rw [effect_update_twice, effect_update_twice]
  exact sameBut_update id fun row name hname => updated_comm (h name hname)

/-- A patch and a mark have no column in common but the time of change. -/
theorem commuteBut_marks (p : r.Patch) (deleted deletedAt : Term) :
    Statement.CommuteBut "updated_at" r.declaration (.patch r.schema id (r.assignments p))
      (.update r.schema id
        [("deleted", deleted), ("deleted_at", deletedAt), ("updated_at", .now)]) := by
  refine r.commuteBut_update id fun name hname => ?_
  by_cases hmark : name ∈ markColumns
  · refine .inl ((Call.lookup_changes_patch r p hname).trans ?_)
    rw [r.supplied?_of_not_patchable p fun h => not_mem_markColumns h hmark, Option.map_none]
  · exact .inr (Call.lookup_marks hmark _ _ _)

theorem commuteBut_patches {p q : r.Patch}
    (h : ∀ column, r.supplied? p column = none ∨ r.supplied? q column = none) :
    Statement.CommuteBut "updated_at" r.declaration (.patch r.schema id (r.assignments p))
      (.patch r.schema id (r.assignments q)) := by
  refine r.commuteBut_update id fun name hname => (h name).imp (fun hp => ?_) fun hq => ?_
  · exact (Call.lookup_changes_patch r p hname).trans (by rw [hp, Option.map_none])
  · exact (Call.lookup_changes_patch r q hname).trans (by rw [hq, Option.map_none])

theorem patch_eq_update (p : r.Patch) : Statement.patch r.schema id (r.assignments p) =
    .update r.schema id (Call.changes (.patch r p)) := rfl

theorem sameBut_emptyPatch {p : r.Patch} (h : ∀ column, r.supplied? p column = none) :
    Contents.SameBut "updated_at"
      ((Statement.patch r.schema id (r.assignments p)).effect a r.declaration rows) rows := by
  have hsame : Contents.SameBut "updated_at"
      (Function.update rows id
        ((rows id).map (r.declaration.updated a (Call.changes (.patch r p)))))
      (Function.update rows id ((rows id).map fun row => row)) := by
    refine sameBut_update id fun row name hname => updated_of_lookup_none ?_
    rw [Call.lookup_changes_patch r p hname, h, Option.map_none]
  rw [Option.map_id', Function.update_eq_self] at hsame
  rw [patch_eq_update, effect_update]
  exact hsame

theorem updated_patch_twice (p : r.Patch) {row : Tuple} {name : String}
    (hname : name ≠ "updated_at") :
    r.declaration.updated b (Call.changes (.patch r p))
        (r.declaration.updated a (Call.changes (.patch r p)) row) name =
      r.declaration.updated a (Call.changes (.patch r p)) row name := by
  have hlookup := Call.lookup_changes_patch r p hname
  cases hv : r.supplied? p name with
  | none => exact updated_of_lookup_none (hlookup.trans (by rw [hv, Option.map_none]))
  | some v =>
    have hpatchable : name ∈ r.patchable := by
      by_contra hnot
      rw [r.supplied?_of_not_patchable p hnot] at hv
      cases hv
    obtain ⟨c, hc⟩ := r.exists_patchable hpatchable
    rw [hv, Option.map_some] at hlookup
    rw [updated_of_lookup_some hc hlookup, updated_of_lookup_some hc hlookup]
    rfl

theorem sameBut_patchTwice (p : r.Patch) :
    let patch := Statement.patch r.schema id (r.assignments p)
    Contents.SameBut "updated_at"
      (patch.effect b r.declaration (patch.effect a r.declaration rows))
      (patch.effect a r.declaration rows) := by
  intro patch
  rw [show patch = _ from r.patch_eq_update id p, effect_update_twice, effect_update]
  exact sameBut_update id fun row name hname => r.updated_patch_twice p hname

end Resource

/-- Edits of a row never lose each other's updates; and a store that does what it is asked makes
every edit that passes its check. -/
theorem patches_lose_nothing {r : Resource} {store : Store σ} (k : Keeper r.declaration store)
    (limit : Option Duration) (id : Uuid) {s : σ} {row : Tuple} (hrow : k.table s id = some row)
    (calls : List Call)
    (hcalls : ∀ c ∈ calls, c.target? = some (r, id) → c.deed = .read ∨ c.deed = .change) :
    (∃ row', k.table (Call.after limit store calls s) id = some row' ∧
      row.EditedTo r (k.edits limit id calls s) row') ∧
    (HasTime limit → store.Obliges limit r id calls s → (k.edits limit id calls s).map (·.1) =
      calls.filter fun c => c.target? = some (r, id) ∧ c.deed = .change ∧ c.plan.isOk = true) ∧
    (∀ p : r.Patch, List.Sublist ((r.assignments p).map (·.1)) r.patchable ∧
      ∀ column, (r.assignments p).lookup column = r.supplied? p column) ∧
    (∀ p q : r.Patch, (∀ column, r.supplied? p column = none ∨ r.supplied? q column = none) →
      Statement.CommuteBut "updated_at" r.declaration (.patch r.schema id (r.assignments p))
        (.patch r.schema id (r.assignments q))) ∧
    (∀ p : r.Patch,
      Statement.CommuteBut "updated_at" r.declaration (.patch r.schema id (r.assignments p))
        (.softDelete r.schema id) ∧
      Statement.CommuteBut "updated_at" r.declaration (.patch r.schema id (r.assignments p))
        (.restore r.schema id)) ∧
    (∀ (p : r.Patch) a b rows,
      let patch := Statement.patch r.schema id (r.assignments p)
      ((∀ column, r.supplied? p column = none) →
        Contents.SameBut "updated_at" (patch.effect a r.declaration rows) rows) ∧
      Contents.SameBut "updated_at"
        (patch.effect b r.declaration (patch.effect a r.declaration rows))
        (patch.effect a r.declaration rows)) := by
  refine ⟨⟨_, k.row_after limit id calls hcalls hrow, ?_⟩,
    fun ht hobliges => k.edits_of_obliges ht calls hcalls hrow hobliges,
    fun p => ⟨r.names_assignments p, r.lookup_assignments p⟩, fun p q => r.commuteBut_patches id,
    fun p => ⟨r.commuteBut_marks id p _ _, r.commuteBut_marks id p _ _⟩,
    fun p a b rows => ⟨r.sameBut_emptyPatch id, r.sameBut_patchTwice id p⟩⟩
  exact r.editedTo (k.editsOf_edits limit id calls s) row

/-- Two patches, a deletion and a restoration of a forum: each of the patches keeps its field, and
the forum is there again. -/
theorem forum_keeps_both_fields :
    let store := Ledger.store (fun _ => .epoch) Tables.forums Forum.fields.names
    let k : Keeper Resource.forum.declaration store := Ledger.keeper _ _ _
    let id : Uuid := ⟨7⟩
    let s := Call.after none store [.create .forum id ⟨⟨1⟩, "trains", none⟩] .empty
    let calls : List Call :=
      [.patch .forum { id, name := some "ships" }, .softDelete .forum id, .get .forum id,
        .patch .forum { id, description := some "and boats" }, .restore .forum id]
    (∀ c ∈ calls, c.target? = some (.forum, id) → c.deed = .read ∨ c.deed = .change) ∧
      store.Obliges none .forum id calls s ∧
      (k.edits none id calls s).map (·.1) = calls.eraseIdx 2 ∧
      ∃ row', k.table (Call.after none store calls s) id = some row' ∧
        row' "name" = some (.text (some "ships")) ∧
        row' "description" = some (.text (some "and boats")) ∧
        row' "deleted" = some (.flag (some false)) ∧
        row' "deleted_at" = some (.instant none) := by
  intro store k id s calls
  have hcalls : ∀ c ∈ calls, c.target? = some (.forum, id) → c.deed = .read ∨ c.deed = .change := by
    simp [calls, Call.deed]
  have hcreated : (k.table s id).isSome = true := by decide +kernel
  have hobliges : store.Obliges none .forum id calls s := by
    refine ⟨fun _ _ p hp => ?_, fun _ _ p hp => ?_, fun _ hdeed => ?_, fun _ _ p hp => ?_,
      fun _ _ p hp => ?_, trivial⟩
    · obtain rfl := Call.eq_of_guarded hp
      exact ⟨[], _, [], ⟨_, _, _, rfl, rfl, rfl⟩, by decide +kernel⟩
    · obtain rfl := Except.ok.inj hp
      exact ⟨[], _, [], ⟨_, _, _, rfl, rfl, rfl⟩, by decide +kernel⟩
    · cases hdeed
    · obtain rfl := Call.eq_of_guarded hp
      exact ⟨[], _, [], ⟨_, _, _, rfl, rfl, rfl⟩, by decide +kernel⟩
    · obtain rfl := Except.ok.inj hp
      exact ⟨[], _, [], ⟨_, _, _, rfl, rfl, rfl⟩, by decide +kernel⟩
  obtain ⟨row, hrow⟩ := Option.isSome_iff_exists.1 hcreated
  obtain ⟨⟨row', hrow', hedited⟩, hmade, -⟩ := patches_lose_nothing k none id hrow calls hcalls
  have hedits : (k.edits none id calls s).map (·.1) = calls.eraseIdx 2 :=
    (hmade (fun d hd => by cases hd) hobliges).trans rfl
  have hname : ((k.edits none id calls s).filterMap (·.1.supplied? "name")).getLast? =
      some (.text (some "ships")) := by decide +kernel
  have hdescription : ((k.edits none id calls s).filterMap
      (·.1.supplied? "description")).getLast? = some (.text (some "and boats")) := by
    decide +kernel
  have hmark : ((k.edits none id calls s).filterMap Edit.mark?).getLast? =
      some (false, .epoch) := by decide +kernel
  refine ⟨hcalls, hobliges, hedits, row', hrow', ?_, ?_, ?_, ?_⟩
  · rw [hedited.patched "name" (by decide), hname, Option.some_or]
  · rw [hedited.patched "description" (by decide), hdescription, Option.some_or]
  · rw [hedited.deleted, hmark, Option.map_some, Option.some_or]
  · rw [hedited.deletedAt, hmark, Option.map_some, Option.some_or]
    rfl

end MessageBoard
