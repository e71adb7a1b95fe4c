import MessageBoard.Ballot
import MessageBoard.Proofs.Execution
import MessageBoard.Repository

/-!
# Calls and their plans

A call is an operation of the board with its arguments. Once its arguments have passed their checks
it is a plan: one statement, and what the rows that come back amount to. A row that cannot be used
gives the transaction up; a failure told after the transaction leaves it committed.

`Call.run_eq` reduces every call to its plan, and `Call.plan_read_ok_iff` says which rows a call can
use. What holds of plans against any store then holds of all calls.
-/

namespace MessageBoard

/-- The outer failure of `read` gives the transaction up, the inner one comes after it. -/
structure Plan (α : Type) where
  statement : Statement
  read : List Row → Except Failure (Except Failure α)

namespace Plan

variable {α β : Type}

def body (p : Plan α) : Operation α := (Operation.transaction p.statement p.read).andThen .done

def run (limit : Option Duration) (p : Plan α) : Operation α := .within limit p.body

def plain (s : Statement) (read : List Row → Except Failure α) : Plan α :=
  ⟨s, fun rows => (read rows).map .ok⟩

end Plan

namespace Operation

variable {α β : Type}

theorem andThen_ok (p : Operation α) : p.andThen (fun a => .done (.ok a)) = p := by
  unfold andThen
  induction p with
  | done x => cases x <;> rfl
  | ask request next ih =>
    simp only [Program.bind]
    congr 1
    funext reply
    exact ih reply
  | stalled => rfl

theorem inTransaction_andThen (body : Operation α) (f : α → Operation β) :
    (inTransaction body).andThen f = inTransaction (body.andThen f) := by
  simp only [inTransaction, andThen, Program.bind]
  congr 1
  funext reply
  cases reply <;> rfl

theorem step_andThen {γ : Type} (request : Request) (read : List Row → Except Failure γ)
    (next : γ → Operation α) (f : α → Operation β) :
    (step request read next).andThen f = step request read fun a => (next a).andThen f := by
  simp only [step, andThen, Program.bind]
  congr 1
  funext reply
  cases reply with
  | rows rows =>
    dsimp only
    cases read rows <;> rfl
  | refused fault => rfl
  | lost fault => rfl
  | silence => rfl

theorem step_map {γ : Type} (request : Request) (read : List Row → Except Failure γ)
    (judge : γ → α) (next : α → Operation β) :
    step request (fun rows => (read rows).map judge) next =
      step request read fun a => next (judge a) := by
  simp only [step]
  congr 1
  funext reply
  cases reply with
  | rows rows => cases h : read rows <;> simp only [h, Except.map]
  | refused fault => rfl
  | lost fault => rfl
  | silence => rfl

theorem commit_andThen_done (a : α) (judge : α → Except Failure β) :
    (commit a).andThen (fun a => .done (judge a)) = (commit (judge a)).andThen .done := by
  simp only [commit, andThen, Program.bind]
  congr 1
  funext reply
  cases reply <;> rfl

/-- What is made of the rows after the transaction can as well be made of them within it. -/
theorem transaction_andThen (s : Statement) (read : List Row → Except Failure α)
    {f : α → Operation β} (judge : α → Except Failure β) (hf : ∀ a, f a = .done (judge a)) :
    (transaction s read).andThen f = Plan.body ⟨s, fun rows => (read rows).map judge⟩ := by
  obtain rfl : f = fun a => .done (judge a) := funext hf
  simp only [Plan.body, transaction, inTransaction_andThen, step_andThen, commit_andThen_done,
    step_map]

theorem within_transaction (limit : Option Duration) (s : Statement)
    (read : List Row → Except Failure α) :
    within limit (transaction s read) = (Plan.plain s read).run limit := by
  rw [Plan.run, Plan.plain, ← transaction_andThen s read _ (fun _ => rfl), andThen_ok]

end Operation

inductive Call where
  | get (r : Resource) (id : Uuid)
  | list (r : Resource) (f : Filter)
  | count (r : Resource) (f : Filter)
  | create (r : Resource) (fresh : Uuid) (input : r.Input)
  | patch (r : Resource) (p : r.Patch)
  | softDelete (r : Resource) (id : Uuid)
  | restore (r : Resource) (id : Uuid)
  | purge (r : Resource) (id : Uuid)
  | setLocked (id : Uuid) (isLocked : Bool)
  | castVote (v : Votable) (target user : Uuid) (vote : Int16)
  | getVote (v : Votable) (target user : Uuid)
  | sumVotes (v : Votable) (target : Uuid)
  | countVotes (v : Votable) (target : Uuid)
  | summarizeVotes (v : Votable) (target : Uuid)

namespace Call

open Repository Ballot

@[reducible] def Result : Call → Type
  | get r _ => r.Record
  | list r _ => Page r.Record
  | count _ _ => Int64
  | create r _ _ => r.Record
  | patch r _ => r.Record
  | softDelete r _ => r.Record
  | restore r _ => r.Record
  | purge r _ => r.Record
  | setLocked _ _ => Thread
  | castVote _ _ _ _ => Option Vote
  | getVote _ _ _ => Option Vote
  | sumVotes _ _ => Int64
  | countVotes _ _ => Int64
  | summarizeVotes _ _ => VoteSummary

def run (limit : Option Duration) : (c : Call) → Operation c.Result
  | get r id => Repository.get limit r id
  | list r f => Repository.list limit r f
  | count r f => Repository.count limit r f
  | create r fresh input => Repository.create limit r fresh input
  | patch r p => Repository.patch limit r p
  | softDelete r id => Repository.softDelete limit r id
  | restore r id => Repository.restore limit r id
  | purge r id => Repository.purge limit r id
  | setLocked id isLocked => Repository.setLocked limit id isLocked
  | castVote v target user vote => Ballot.cast limit v target user vote
  | getVote v target user => Ballot.get limit v target user
  | sumVotes v target => Ballot.sum limit v target
  | countVotes v target => Ballot.count limit v target
  | summarizeVotes v target => Ballot.summary limit v target

def changePlan (r : Resource) (s : Statement) (id : Uuid) : Plan r.Record :=
  .plain s (Rows.first (notFound r id) (readRecord r))

def patchPlan (r : Resource) (p : r.Patch) : Except Failure (Plan r.Record) := do
  (r.checkPatch p).mapError .invalid
  return changePlan r (.patch r.schema (r.patchId p) (r.assignments p)) (r.patchId p)

def listPlan (r : Resource) (f : Filter) (s : Statement) : Plan (Page r.Record) :=
  ⟨s, fun rows => (Rows.all (readRecord r) rows).map fun records =>
    .ok (.ofRows records f.pageSize f.lastSeen r.id)⟩

/-- The plan of a call whose arguments pass their checks. -/
def plan : (c : Call) → Except Failure (Plan c.Result)
  | get r id =>
    return ⟨.get r.schema id, fun rows => (Rows.first? (readRecord r) rows).map fun
      | some record => .ok record
      | none => .error (notFound r id)⟩
  | list r f => do
    (f.check r.schema).mapError .invalidFilter
    let s ← (Statement.ofFilter r.schema f).mapError .invalidFilter
    return listPlan r f s
  | count r f => do
    (f.check r.schema).mapError .invalidFilter
    return .plain (.countOf r.schema f) (Rows.first .noRow (·.number? 0))
  | create r fresh input => do
    (r.checkInput input).mapError .invalid
    return .plain (.insert r.schema fresh (r.values input)) (Rows.first .noRow (readRecord r))
  | patch r p => patchPlan r p
  | softDelete r id => return changePlan r (.softDelete r.schema id) id
  | restore r id => return changePlan r (.restore r.schema id) id
  | purge r id => return changePlan r (.delete r.schema id) id
  | setLocked id isLocked => patchPlan .thread (.lock id isLocked)
  | castVote v target user vote =>
    return .plain (.castVote v.schema target user vote) (Rows.first? (readVote v))
  | getVote v target user =>
    return .plain (.getVote v.schema target user) (Rows.first? (readVote v))
  | sumVotes v target =>
    return .plain (.sumVotes v.schema target) (Rows.first .noRow (·.number? 0))
  | countVotes v target =>
    return .plain (.countVotes v.schema target) (Rows.first .noRow (·.number? 0))
  | summarizeVotes v target =>
    return .plain (.summarizeVotes v.schema target) (Rows.first .noRow (readSummary target))

/-- What a call comes to, told by its plan. -/
def runPlan {α : Type} (limit : Option Duration) : Except Failure (Plan α) → Operation α
  | .ok p => p.run limit
  | .error e => .fail e

theorem checked_eq {ε α β : Type} (refuse : ε → Failure) (check : Except ε α)
    (limit : Option Duration) (p : Plan β) :
    checked refuse check (p.run limit) =
      runPlan limit (do let _ ← check.mapError refuse; return p) := by
  cases check <;> rfl

theorem change_eq (limit : Option Duration) (r : Resource) (s : Statement) (id : Uuid) :
    change limit r s id = (changePlan r s id).run limit := by
  rw [change, Operation.within_transaction]
  rfl

theorem patch_eq (limit : Option Duration) (r : Resource) (p : r.Patch) :
    Repository.patch limit r p = runPlan limit (patchPlan r p) := by
  rw [Repository.patch, change_eq, checked_eq]
  rfl

theorem get_eq (limit : Option Duration) (r : Resource) (id : Uuid) :
    Repository.get limit r id = runPlan limit (plan (get r id)) := by
  let judge : Option r.Record → Except Failure r.Record := fun
    | some record => .ok record
    | none => .error (notFound r id)
  rw [Repository.get, Operation.transaction_andThen _ _ judge (fun found => by cases found <;> rfl)]
  rfl

theorem list_eq (limit : Option Duration) (r : Resource) (f : Filter) :
    Repository.list limit r f = runPlan limit (plan (list r f)) := by
  rw [Repository.list, plan]
  cases f.check r.schema with
  | error e => rfl
  | ok _ =>
    cases Statement.ofFilter r.schema f with
    | error e => cases limit <;> rfl
    | ok s =>
      simp only [checked,
        Operation.transaction_andThen s (Rows.all (readRecord r)) _ (fun _ => rfl)]
      rfl

/-- A call whose arguments do not pass their checks fails at once; any other runs its plan. -/
theorem run_eq (limit : Option Duration) (c : Call) : c.run limit = runPlan limit c.plan := by
  cases c with
  | get r id => exact get_eq limit r id
  | list r f => exact list_eq limit r f
  | count r f => rw [run, Repository.count, Operation.within_transaction, checked_eq]; rfl
  | create r fresh input =>
    rw [run, Repository.create, Operation.within_transaction, checked_eq]; rfl
  | patch r p => exact patch_eq limit r p
  | softDelete r id => exact change_eq limit r _ id
  | restore r id => exact change_eq limit r _ id
  | purge r id => exact change_eq limit r _ id
  | setLocked id isLocked => exact patch_eq limit .thread (.lock id isLocked)
  | castVote v target user vote => exact Operation.within_transaction limit _ _
  | getVote v target user => exact Operation.within_transaction limit _ _
  | sumVotes v target => exact Operation.within_transaction limit _ _
  | countVotes v target => exact Operation.within_transaction limit _ _
  | summarizeVotes v target => exact Operation.within_transaction limit _ _

/-! ## The rows that a call can use -/

def readsAll : Call → Bool
  | list _ _ => true
  | _ => false

def needsRow : Call → Bool
  | get _ _ => false
  | list _ _ => false
  | castVote _ _ _ _ => false
  | getVote _ _ _ => false
  | _ => true

def canRead : Call → Row → Bool
  | get r _, row => (readRecord r row).isSome
  | list r _, row => (readRecord r row).isSome
  | count _ _, row => (row.number? 0).isSome
  | create r _ _, row => (readRecord r row).isSome
  | patch r _, row => (readRecord r row).isSome
  | softDelete r _, row => (readRecord r row).isSome
  | restore r _, row => (readRecord r row).isSome
  | purge r _, row => (readRecord r row).isSome
  | setLocked _ _, row => (readRecord .thread row).isSome
  | castVote v _ _ _, row => (readVote v row).isSome
  | getVote v _ _, row => (readVote v row).isSome
  | sumVotes _ _, row => (row.number? 0).isSome
  | countVotes _ _, row => (row.number? 0).isSome
  | summarizeVotes _ target, row => (readSummary target row).isSome

/-- The rows that the call looks at can be read, and there is one if it needs one. -/
structure Accepts (c : Call) (rows : List Row) : Prop where
  readable : ∀ row ∈ (if c.readsAll then rows else rows.take 1), c.canRead row = true
  row_of_needsRow : c.needsRow = true → rows ≠ []

end Call

namespace Rows

variable {α : Type} (read : Row → Option α)

theorem readOne_ok_iff (row : Row) : (∃ a, readOne read row = .ok a) ↔ (read row).isSome := by
  cases h : read row <;> simp [readOne, h]

theorem all_ok_iff (rows : List Row) :
    (∃ records, all read rows = .ok records) ↔ ∀ row ∈ rows, (read row).isSome := by
  induction rows with
  | nil => simp [all, pure, Except.pure]
  | cons row rows ih =>
    rw [List.forall_mem_cons, ← ih, ← readOne_ok_iff read row]
    simp only [all, List.mapM_cons]
    cases readOne read row with
    | error e => simp [bind, Except.bind]
    | ok a => cases rows.mapM (readOne read) <;> simp [bind, Except.bind, pure, Except.pure]

theorem all_map {read : Row → Option α} {write : α → Row} {records : List α}
    (h : ∀ a ∈ records, read (write a) = some a) : all read (records.map write) = .ok records := by
  induction records with
  | nil => rfl
  | cons a records ih =>
    obtain ⟨ha, hrest⟩ := List.forall_mem_cons.1 h
    have hone : readOne read (write a) = .ok a := by rw [readOne, ha]
    have hcons : all read ((a :: records).map write) = (do
        let first ← readOne read (write a)
        let rest ← all read (records.map write)
        return first :: rest) := by rw [List.map_cons, all, List.mapM_cons]; rfl
    rw [hcons, hone, ih hrest]
    rfl

theorem first?_ok_iff (rows : List Row) :
    (∃ found, first? read rows = .ok found) ↔ ∀ row ∈ rows.take 1, (read row).isSome := by
  cases rows with
  | nil => simp [first?]
  | cons row rows =>
    have h := readOne_ok_iff read row
    cases hr : readOne read row <;> simp_all [first?, Except.map]

theorem first_ok_iff (absent : Failure) (rows : List Row) :
    (∃ a, first absent read rows = .ok a) ↔
      (∀ row ∈ rows.take 1, (read row).isSome) ∧ rows ≠ [] := by
  cases rows with
  | nil => simp [first]
  | cons row rows => simp [first, readOne_ok_iff read row]

end Rows

namespace Call

open Repository Ballot

theorem accepts_iff (c : Call) (rows : List Row) :
    c.Accepts rows ↔ (∀ row ∈ (if c.readsAll then rows else rows.take 1), c.canRead row = true) ∧
      (c.needsRow = true → rows ≠ []) :=
  ⟨fun h => ⟨h.readable, h.row_of_needsRow⟩, fun h => ⟨h.1, h.2⟩⟩

theorem exists_map_eq_ok {α β : Type} (x : Except Failure α) (f : α → β) :
    (∃ b, x.map f = .ok b) ↔ ∃ a, x = .ok a := by
  cases x <;> simp [Except.map]

theorem eq_of_guarded {ε β : Type} {refuse : ε → Failure} {check : Except ε Unit} {p q : β}
    (h : (do let _ ← check.mapError refuse; return p) = Except.ok q) : p = q := by
  cases check with
  | ok _ => exact Except.ok.inj h
  | error e => cases h

theorem plan_list_eq_ok_iff {r : Resource} {f : Filter} {p : Plan (Page r.Record)} :
    plan (list r f) = .ok p ↔ f.check r.schema = .ok () ∧
      ∃ s, Statement.ofFilter r.schema f = .ok s ∧ listPlan r f s = p := by
  rw [plan]
  cases f.check r.schema with
  | error e => exact iff_of_false (fun h => by cases h) fun h => by cases h.1
  | ok _ =>
    cases Statement.ofFilter r.schema f with
    | error e =>
      refine iff_of_false (fun h => by cases h) fun ⟨_, s, hs, _⟩ => by cases hs
    | ok s =>
      constructor
      · intro h
        exact ⟨rfl, s, rfl, Except.ok.inj h⟩
      · rintro ⟨-, t, ht, rfl⟩
        rw [Except.ok.inj ht]
        rfl

theorem plan_count_eq_ok_iff {r : Resource} {f : Filter} {p : Plan Int64} :
    plan (count r f) = .ok p ↔ f.check r.schema = .ok () ∧
      .plain (.countOf r.schema f) (Rows.first .noRow (·.number? 0)) = p := by
  rw [plan]
  cases f.check r.schema with
  | error e => exact iff_of_false (fun h => by cases h) fun h => by cases h.1
  | ok _ => exact ⟨fun h => ⟨rfl, Except.ok.inj h⟩, fun h => congrArg Except.ok h.2⟩

theorem plan_create_of_ok {r : Resource} (fresh : Uuid) {input : r.Input}
    (h : r.checkInput input = .ok ()) : plan (create r fresh input) =
      .ok (.plain (.insert r.schema fresh (r.values input))
        (Rows.first .noRow (readRecord r))) := by
  rw [plan, h]
  rfl

theorem plan_patch_of_ok {r : Resource} {p : r.Patch} (h : r.checkPatch p = .ok ()) :
    plan (patch r p) =
      .ok (changePlan r (.patch r.schema (r.patchId p) (r.assignments p)) (r.patchId p)) := by
  rw [plan, patchPlan, h]
  rfl

theorem plain_first_ok_iff {α : Type} (s : Statement) (absent : Failure) (read : Row → Option α)
    (rows : List Row) :
    (∃ x, (Plan.plain s (Rows.first absent read)).read rows = .ok x) ↔
      (∀ row ∈ rows.take 1, (read row).isSome) ∧ rows ≠ [] := by
  rw [Plan.plain, exists_map_eq_ok, Rows.first_ok_iff]

theorem plain_first?_ok_iff {α : Type} (s : Statement) (read : Row → Option α)
    (rows : List Row) :
    (∃ x, (Plan.plain s (Rows.first? read)).read rows = .ok x) ↔
      ∀ row ∈ rows.take 1, (read row).isSome := by
  rw [Plan.plain, exists_map_eq_ok, Rows.first?_ok_iff]

/-- The plan of a call makes something of exactly the rows that the call accepts. -/
theorem plan_read_ok_iff {c : Call} {p : Plan c.Result} (h : c.plan = .ok p) (rows : List Row) :
    (∃ x, p.read rows = .ok x) ↔ c.Accepts rows := by
  rw [accepts_iff]
  cases c with
  | get r id =>
    obtain rfl := Except.ok.inj h
    rw [exists_map_eq_ok, Rows.first?_ok_iff]
    simp [readsAll, needsRow, canRead]
  | list r f =>
    obtain ⟨-, s, -, rfl⟩ := plan_list_eq_ok_iff.1 h
    rw [listPlan, exists_map_eq_ok, Rows.all_ok_iff]
    simp [readsAll, needsRow, canRead]
  | count r f =>
    obtain rfl := eq_of_guarded h
    simp [plain_first_ok_iff, readsAll, needsRow, canRead]
  | create r fresh input =>
    obtain rfl := eq_of_guarded h
    simp [plain_first_ok_iff, readsAll, needsRow, canRead]
  | patch r p =>
    obtain rfl := eq_of_guarded h
    simp [changePlan, plain_first_ok_iff, readsAll, needsRow, canRead]
  | softDelete r id =>
    obtain rfl := Except.ok.inj h
    simp [changePlan, plain_first_ok_iff, readsAll, needsRow, canRead]
  | restore r id =>
    obtain rfl := Except.ok.inj h
    simp [changePlan, plain_first_ok_iff, readsAll, needsRow, canRead]
  | purge r id =>
    obtain rfl := Except.ok.inj h
    simp [changePlan, plain_first_ok_iff, readsAll, needsRow, canRead]
  | setLocked id isLocked =>
    obtain rfl := eq_of_guarded h
    simp [changePlan, plain_first_ok_iff, readsAll, needsRow, canRead]
  | castVote v target user vote =>
    obtain rfl := Except.ok.inj h
    simp [plain_first?_ok_iff, readsAll, needsRow, canRead]
  | getVote v target user =>
    obtain rfl := Except.ok.inj h
    simp [plain_first?_ok_iff, readsAll, needsRow, canRead]
  | sumVotes v target =>
    obtain rfl := Except.ok.inj h
    simp [plain_first_ok_iff, readsAll, needsRow, canRead]
  | countVotes v target =>
    obtain rfl := Except.ok.inj h
    simp [plain_first_ok_iff, readsAll, needsRow, canRead]
  | summarizeVotes v target =>
    obtain rfl := Except.ok.inj h
    simp [plain_first_ok_iff, readsAll, needsRow, canRead]

theorem plain_read_ne_error {α : Type} (s : Statement) (read : List Row → Except Failure α)
    (rows : List Row) (e : Failure) : (Plan.plain s read).read rows ≠ .ok (.error e) := by
  cases h : read rows <;> simp [Plan.plain, h, Except.map]

theorem eq_get_of_plan_read {c : Call} {p : Plan c.Result} (h : c.plan = .ok p) {rows : List Row}
    {e : Failure} (he : p.read rows = .ok (.error e)) :
    ∃ r id, c = get r id ∧ e = notFound r id ∧ rows = [] := by
  cases c with
  | get r id =>
    obtain rfl := Except.ok.inj h
    cases rows with
    | nil => exact ⟨r, id, rfl, by simpa [Rows.first?, Except.map] using he.symm, rfl⟩
    | cons row rows =>
      cases hr : Rows.readOne (readRecord r) row <;> simp [Rows.first?, hr, Except.map] at he
  | list r f =>
    obtain ⟨-, s, -, rfl⟩ := plan_list_eq_ok_iff.1 h
    cases hr : Rows.all (readRecord r) rows <;> simp [listPlan, hr, Except.map] at he
  | count r f => exact absurd he (eq_of_guarded h ▸ plain_read_ne_error _ _ rows e)
  | create r fresh input => exact absurd he (eq_of_guarded h ▸ plain_read_ne_error _ _ rows e)
  | patch r p => exact absurd he (eq_of_guarded h ▸ plain_read_ne_error _ _ rows e)
  | softDelete r id => exact absurd he (Except.ok.inj h ▸ plain_read_ne_error _ _ rows e)
  | restore r id => exact absurd he (Except.ok.inj h ▸ plain_read_ne_error _ _ rows e)
  | purge r id => exact absurd he (Except.ok.inj h ▸ plain_read_ne_error _ _ rows e)
  | setLocked id isLocked => exact absurd he (eq_of_guarded h ▸ plain_read_ne_error _ _ rows e)
  | castVote v target user vote =>
    exact absurd he (Except.ok.inj h ▸ plain_read_ne_error _ _ rows e)
  | getVote v target user => exact absurd he (Except.ok.inj h ▸ plain_read_ne_error _ _ rows e)
  | sumVotes v target => exact absurd he (Except.ok.inj h ▸ plain_read_ne_error _ _ rows e)
  | countVotes v target => exact absurd he (Except.ok.inj h ▸ plain_read_ne_error _ _ rows e)
  | summarizeVotes v target =>
    exact absurd he (Except.ok.inj h ▸ plain_read_ne_error _ _ rows e)

end Call

end MessageBoard
