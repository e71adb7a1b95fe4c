import Mathlib
import MessageBoard.Proofs.Table

/-!
# Stores that keep a table

A table of a keeper is a map from identifiers to rows. A statement does to it what its text says: an
insertion fills what it does not set as the table declares it, a change sets its columns and no
others, a deletion takes the row out. While a transaction is open there is a draft of the table
beside the one that was committed. A keeper may decline any request; then the table is as it was.

A transaction against a keeper is all or nothing: `Keeper.settled_run` says which of the two it was,
and what the call that ran it comes to.
-/

namespace MessageBoard

variable {σ α : Type}

/-! ## What a statement does to a table -/

abbrev Tuple := String → Option Value

abbrev Contents := Uuid → Option Tuple

/-- What the store fills in by itself. -/
structure Ambient where
  now : Instant
  random : Uuid

def StorageType.null : StorageType → Value
  | .uuid => .uuid none
  | .varchar _ => .text none
  | .text => .text none
  | .timestamp => .instant none
  | .boolean => .flag none
  | .smallint => .int none

variable (ambient : Ambient)

def Default.content : Default → Value
  | .freshId => .uuid (some ambient.random)
  | .now => .instant (some ambient.now)
  | .no => .flag (some false)

def ColumnDeclaration.initial (c : ColumnDeclaration) : Value :=
  (c.initially.map (·.content ambient)).getD c.type.null

def Term.content (c : ColumnDeclaration) : Term → Value
  | .value v => v.stored
  | .now => .instant (some ambient.now)
  | .flag b => .flag (some b)
  | .null => c.type.null

theorem lookup_terms (entries : List (String × Value)) (name : String) :
    (entries.map fun (column, v) => (column, Term.value v)).lookup name =
      (entries.lookup name).map .value := by
  induction entries with
  | nil => rfl
  | cons e entries ih =>
    rw [List.map_cons, List.lookup_cons, List.lookup_cons, ih]
    cases name == e.1 <;> rfl

namespace TableDeclaration

variable (t : TableDeclaration)

def column? (name : String) : Option ColumnDeclaration := t.columns.find? (·.name == name)

def inserted (values : List (String × Value)) : Tuple := fun name =>
  (t.column? name).map fun c => ((values.lookup name).map Value.stored).getD (c.initial ambient)

def updated (changes : List (String × Term)) (row : Tuple) : Tuple := fun name =>
  match t.column? name, changes.lookup name with
  | some c, some term => some (term.content ambient c)
  | _, _ => row name

section

variable {t ambient} {name : String} {c : ColumnDeclaration}

theorem inserted_of_lookup_none {values : List (String × Value)} (hc : t.column? name = some c)
    (h : values.lookup name = none) :
    t.inserted ambient values name = some (c.initial ambient) := by
  rw [inserted, hc, h]
  rfl

theorem inserted_of_lookup_some {values : List (String × Value)} (hc : t.column? name = some c)
    {v : Value} (h : values.lookup name = some v) :
    t.inserted ambient values name = some v.stored := by
  rw [inserted, hc, h]
  rfl

variable {changes : List (String × Term)} {row : Tuple}

theorem updated_of_lookup_none (h : changes.lookup name = none) :
    t.updated ambient changes row name = row name := by
  rw [updated, h]
  cases t.column? name <;> rfl

theorem updated_of_lookup_some (hc : t.column? name = some c) {term : Term}
    (h : changes.lookup name = some term) :
    t.updated ambient changes row name = some (term.content ambient c) := by
  rw [updated, hc, h]

end

end TableDeclaration

namespace Statement

variable (t : TableDeclaration)

/-- What the statement makes of the rows of the table. -/
def effect : Statement → Contents → Contents
  | insert schema id values, rows =>
    if schema.table = t.name then
      Function.update rows id (some (t.inserted ambient (("id", .uuid (some id)) :: values)))
    else rows
  | update schema id changes, rows =>
    if schema.table = t.name then
      Function.update rows id ((rows id).map (t.updated ambient changes))
    else rows
  | delete schema id, rows =>
    if schema.table = t.name then Function.update rows id none else rows
  | _, rows => rows

/-- The row of the table that the statement finds by its identifier. -/
def sought? : Statement → Option Uuid
  | get schema id => if schema.table = t.name then some id else none
  | update schema id _ => if schema.table = t.name then some id else none
  | delete schema id => if schema.table = t.name then some id else none
  | _ => none

end Statement

/-! ## Keepers -/

/-- The request was not done. Nothing is said of whether the store goes on listening. -/
def Reply.Declines (reply : Reply) : Prop := ∀ rows, reply ≠ .rows rows

/-- How a store keeps the table: what is committed, what the open transaction has made of it, and
what the store fills in while that transaction lasts. -/
structure Keeper (t : TableDeclaration) (store : Store σ) where
  table : σ → Contents
  draft : σ → Contents
  ambient : σ → Ambient
  declined : ∀ {request s reply s'}, store request s = (reply, s') → reply.Declines →
    table s' = table s
  started : ∀ {s rows s'}, store .start s = (.rows rows, s') →
    table s' = table s ∧ draft s' = table s
  executed : ∀ {statement s rows s'}, store (.execute statement) s = (.rows rows, s') →
    table s' = table s ∧ draft s' = statement.effect (ambient s) t (draft s) ∧
      ∀ id, statement.sought? t = some id → (rows = [] ↔ draft s id = none)
  committed : ∀ {s rows s'}, store .commit s = (.rows rows, s') → table s' = draft s
  rolledBack : ∀ {s reply s'}, store .rollback s = (reply, s') → table s' = table s

theorem Reply.declines_refused (fault : Fault) : (refused fault).Declines := fun _ h => by cases h

theorem Reply.declines_lost (fault : Fault) : (lost fault).Declines := fun _ h => by cases h

theorem Reply.declines_silence : silence.Declines := fun _ h => by cases h

def Outcome.Declined (o : Outcome σ α) : Prop := ∃ x ∈ o.exchanges, x.reply.Declines

namespace Keeper

variable {t : TableDeclaration} {store : Store σ} (k : Keeper t store)

/-- The rows can be those that answer the statement: there is none exactly if the statement looks
for a row that is not there. -/
def Answers (s : σ) (statement : Statement) (rows : List Row) : Prop :=
  ∀ id, statement.sought? t = some id → (rows = [] ↔ k.table s id = none)

/-- A transaction took effect as a whole, or not at all. -/
inductive Settled (p : Plan α) (s : σ) (o : Outcome σ (Except Failure α)) : Prop
  | done (rows : List Row) (x : Except Failure α) (answers : k.Answers s p.statement rows)
    (read : p.read rows = .ok x) (value : o.value? = some x)
    (table : k.table o.state = p.statement.effect (k.ambient (store .start s).2) t (k.table s))
  | undone (value : ∀ a, o.value? ≠ some (.ok a)) (table : k.table o.state = k.table s)
    (cause : o.exchanges = [] ∨ o.Declined ∨
      ∃ rows e, k.Answers s p.statement rows ∧ p.read rows = .error e ∧
        o.value? = some (.error e))

/-- The program is at its end, without a value that the call could have. -/
inductive Quits : Operation α → Prop
  | abandon (e : Failure) : Quits (.abandon e)
  | fail (e : Failure) : Quits (.fail e)
  | stalled : Quits .stalled

def Unchanged (s : σ) (o : Outcome σ (Except Failure α)) : Prop :=
  (∀ a, o.value? ≠ some (.ok a)) ∧ k.table o.state = k.table s

theorem Quits.unchanged {p : Operation α} (hp : Quits p) (s : σ) :
    k.Unchanged s (p.run store s) := by
  cases hp with
  | abandon e => exact ⟨(fun a ha => by cases ha), k.rolledBack rfl⟩
  | fail e => exact ⟨(fun a ha => by cases ha), rfl⟩
  | stalled => exact ⟨(fun a ha => by cases ha), rfl⟩

variable {k} in
theorem unchanged_of_declined {w : Request} {next : Reply → Operation α} {s s' : σ} {reply : Reply}
    (h : store w s = (reply, s')) (hd : reply.Declines) (hq : Quits (next reply)) :
    k.Unchanged s ((Program.ask w next).run store s) ∧
      ((Program.ask w next).run store s).Declined := by
  rw [Program.run_ask, h]
  obtain ⟨hvalue, htable⟩ := hq.unchanged k s'
  exact ⟨⟨hvalue, htable.trans (k.declined h hd)⟩, _, List.mem_cons_self, hd⟩

/-- The draft becomes the table, or the table stays as it is. -/
theorem run_commit (x : Except Failure α) (s : σ) :
    let o := ((Operation.commit x).andThen .done).run store s
    (o.value? = some x ∧ k.table o.state = k.draft s) ∨ (k.Unchanged s o ∧ o.Declined) := by
  rcases h : store .commit s with ⟨rows | fault | fault | _, s'⟩
  · refine .inl ?_
    simp only [Operation.commit, Operation.andThen, Program.bind, Program.run_ask, h]
    exact ⟨rfl, k.committed h⟩
  · exact .inr (unchanged_of_declined h (Reply.declines_refused fault) (.abandon _))
  · exact .inr (unchanged_of_declined h (Reply.declines_lost fault) (.fail _))
  · exact .inr (unchanged_of_declined h Reply.declines_silence .stalled)

theorem run_execute (p : Plan α) (s : σ) (hs : k.draft s = k.table s) :
    let o := ((Operation.step (.execute p.statement) p.read fun x =>
      (Operation.commit x).andThen .done).run store s)
    (∃ rows x, k.Answers s p.statement rows ∧ p.read rows = .ok x ∧ o.value? = some x ∧
      k.table o.state = p.statement.effect (k.ambient s) t (k.table s)) ∨
    (k.Unchanged s o ∧ (o.Declined ∨
      ∃ rows e, k.Answers s p.statement rows ∧ p.read rows = .error e ∧
        o.value? = some (.error e))) := by
  rcases h : store (.execute p.statement) s with ⟨rows | fault | fault | _, s'⟩
  · obtain ⟨htable, hdraft, hfound⟩ := k.executed h
    have hanswers : k.Answers s p.statement rows := fun id hid => hs ▸ hfound id hid
    rw [Operation.step, Program.run_ask, h]
    cases hr : p.read rows with
    | error e =>
      have hquits : Quits (.abandon e : Operation α) := .abandon e
      obtain ⟨hvalue, hrolled⟩ := hquits.unchanged k s'
      refine .inr ⟨⟨?_, ?_⟩, .inr ⟨rows, e, hanswers, hr, ?_⟩⟩
      · simpa only [hr] using hvalue
      · simpa only [hr] using hrolled.trans htable
      · simp only [hr]
        rfl
    | ok x =>
      simp only [hr]
      rcases k.run_commit x s' with ⟨hvalue, hcommitted⟩ | ⟨⟨hvalue, hkept⟩, y, hy, hd⟩
      · exact .inl ⟨rows, x, hanswers, hr, hvalue, by rw [hcommitted, hdraft, hs]⟩
      · exact .inr ⟨⟨hvalue, hkept.trans htable⟩, .inl ⟨y, List.mem_cons_of_mem _ hy, hd⟩⟩
  · exact .inr (And.imp_right .inl
      (unchanged_of_declined h (Reply.declines_refused fault) (.abandon _)))
  · exact .inr (And.imp_right .inl (unchanged_of_declined h (Reply.declines_lost fault) (.fail _)))
  · exact .inr (And.imp_right .inl (unchanged_of_declined h Reply.declines_silence .stalled))

theorem Settled.of_declined {p : Plan α} {s : σ} {o : Outcome σ (Except Failure α)}
    (h : k.Unchanged s o ∧ o.Declined) : k.Settled p s o :=
  .undone h.1.1 h.1.2 (.inr (.inl h.2))

theorem settled_body (p : Plan α) (s : σ) : k.Settled p s (p.body.run store s) := by
  rw [Plan.body, Operation.transaction, Operation.inTransaction_andThen, Operation.step_andThen]
  rcases h : store .start s with ⟨rows | fault | fault | _, s'⟩
  · obtain ⟨htable, hdraft⟩ := k.started h
    have hnow : (store .start s).2 = s' := congrArg Prod.snd h
    have hrun := k.run_execute p s' (hdraft.trans htable.symm)
    rw [Operation.inTransaction, Program.run_ask, h]
    rcases hrun with ⟨rows, x, hanswers, hr, hvalue, hdone⟩ | ⟨⟨hvalue, hkept⟩, hcause⟩
    · refine .done rows x (fun id hid => htable ▸ hanswers id hid) hr hvalue ?_
      rw [hnow, ← htable]
      exact hdone
    · refine .undone hvalue (hkept.trans htable) (.inr (hcause.imp ?_ ?_))
      · rintro ⟨y, hy, hd⟩
        exact ⟨y, List.mem_cons_of_mem _ hy, hd⟩
      · rintro ⟨rows, e, hanswers, hread⟩
        exact ⟨rows, e, fun id hid => htable ▸ hanswers id hid, hread⟩
  · exact .of_declined k (unchanged_of_declined h (Reply.declines_refused fault) (.fail _))
  · exact .of_declined k (unchanged_of_declined h (Reply.declines_lost fault) (.fail _))
  · exact .of_declined k (unchanged_of_declined h Reply.declines_silence .stalled)

/-- A time limit makes a failure of what stalls, and of what is not begun for want of time. -/
theorem settled_run (limit : Option Duration) (p : Plan α) (s : σ) :
    k.Settled p s ((p.run limit).run store s) := by
  by_cases hl : HasTime limit
  · rw [Plan.run, Operation.run_within store hl]
    cases k.settled_body p s with
    | done rows x hanswers hread hvalue htable =>
      exact .done rows x hanswers hread (by simp only [hvalue, Option.some_or]) htable
    | undone hvalue htable hcause =>
      refine .undone (fun a ha => ?_) htable (hcause.imp_right (Or.imp_right ?_))
      · cases hv : (p.body.run store s).value? with
        | some v =>
          simp only [hv, Option.some_or] at ha
          exact hvalue a (hv.trans ha)
        | none =>
          simp only [hv, Option.none_or] at ha
          cases limit <;> cases ha
      · rintro ⟨rows, e, hanswers, hread, he⟩
        exact ⟨rows, e, hanswers, hread, by simp only [he, Option.some_or]⟩
  · obtain ⟨d, rfl, hd⟩ := exists_of_not_hasTime hl
    have hrun : p.run (some d) = .done (.error (.timeout d)) :=
      Program.within_of_noTime d hd _ _ _
    rw [hrun]
    exact .undone (fun a ha => by cases ha) rfl (.inl rfl)

end Keeper

/-! ## A keeper in memory -/

structure Ledger where
  table : Contents
  draft : Contents
  begun : Nat

namespace Ledger

variable (times : Nat → Instant) (t : TableDeclaration) (names : List String)

def empty : Ledger := ⟨fun _ => none, fun _ => none, 0⟩

def moment (l : Ledger) : Ambient := ⟨times l.begun, .zero⟩

def cells (row : Tuple) : Row :=
  names.map fun name => (name, ((row name).map fun v => .bound (.value v)).getD (.int 0))

def key? : Statement → Option Uuid
  | .insert _ id _ => some id
  | .get _ id => some id
  | .update _ id _ => some id
  | .delete _ id => some id
  | _ => none

/-- The row that a statement returns: as it is after it, or else as it was before. -/
def returned? (s : Statement) (l : Ledger) : Option Tuple :=
  (key? s).bind fun id => (s.effect (l.moment times) t l.draft id).or (l.draft id)

def store : Store Ledger
  | .start, l => (.rows [], ⟨l.table, l.table, l.begun + 1⟩)
  | .commit, l => (.rows [], { l with table := l.draft })
  | .rollback, l => (.rows [], l)
  | .define _, l => (.rows [], l)
  | .execute s, l =>
    (.rows ((returned? times t s l).toList.map (cells names)),
      { l with draft := s.effect (l.moment times) t l.draft })

variable {t} in
/-- A statement that looks for a row by its identifier puts none where there was none. -/
theorem effect_of_sought {s : Statement} {id : Uuid} (h : s.sought? t = some id) :
    key? s = some id ∧ ∀ (ambient : Ambient) (rows : Contents), rows id = none →
      s.effect ambient t rows id = none := by
  have hid {schema : TableSchema} {id' : Uuid}
      (h : (if schema.table = t.name then some id' else none) = some id) :
      schema.table = t.name ∧ id' = id := by
    by_cases hs : schema.table = t.name
    · exact ⟨hs, Option.some.inj ((if_pos hs).symm.trans h)⟩
    · cases (if_neg hs).symm.trans h
  cases s with
  | get schema id' =>
    obtain ⟨-, rfl⟩ := hid h
    exact ⟨rfl, fun _ _ h => h⟩
  | update schema id' changes =>
    obtain ⟨hs, rfl⟩ := hid h
    refine ⟨rfl, fun ambient rows h => ?_⟩
    rw [Statement.effect, if_pos hs, Function.update_self, h, Option.map_none]
  | delete schema id' =>
    obtain ⟨hs, rfl⟩ := hid h
    refine ⟨rfl, fun ambient rows _ => ?_⟩
    rw [Statement.effect, if_pos hs, Function.update_self]
  | _ => cases h

variable {t} in
theorem returned?_eq_none_iff {s : Statement} {l : Ledger} {id : Uuid}
    (h : s.sought? t = some id) : returned? times t s l = none ↔ l.draft id = none := by
  obtain ⟨hkey, heffect⟩ := effect_of_sought h
  rw [returned?, hkey, Option.bind_some, Option.or_eq_none_iff]
  exact ⟨fun h => h.2, fun h => ⟨heffect _ _ h, h⟩⟩

def keeper : Keeper t (store times t names) where
  table := table
  draft := draft
  ambient := moment times
  declined {request s reply s'} h hd := by
    cases request <;> cases h <;> exact absurd rfl (hd _)
  started h := by cases h; exact ⟨rfl, rfl⟩
  executed {statement s rows s'} h := by
    cases h
    refine ⟨rfl, rfl, fun id hid => ?_⟩
    rw [List.map_eq_nil_iff, Option.toList_eq_nil_iff, returned?_eq_none_iff times hid]
  committed h := by cases h; rfl
  rolledBack h := by cases h; rfl

end Ledger

end MessageBoard
