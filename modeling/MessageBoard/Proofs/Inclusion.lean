import MessageBoard.Proofs.Accepted
import MessageBoard.Proofs.Return
import MessageBoard.Proofs.Serving

/-!
# Listings with related rows

A listing with related rows is the plain listing, followed by the lookups for each row of its page.
What a row is shown with was found under the row's own identifiers. A related row is left out
exactly if no row came for it; any other failure of a lookup is one of the listing. Where none
fails, and the store is heard, there is a page with all the rows.

`Plan.ends` says how a call can end that was given a share of the exchanges. Everything else about
the lookups of a row follows from it and from `Related.run_together`.
-/

namespace MessageBoard

variable {σ α β : Type}

/-! ## How calls end -/

/-- A transaction of one statement was committed, and these rows came. -/
def Committed (xs : List Exchange) (s : Statement) (rows : List Row) : Prop :=
  ∃ began ended, xs = [⟨.start, .rows began⟩, ⟨.execute s, .rows rows⟩, ⟨.commit, .rows ended⟩]

namespace Program.Goes

theorem of_ask {request : Request} {next : Reply → Program α} {xs : List Exchange} {a : α}
    (h : (Program.ask request next).Goes xs (.done a)) :
    ∃ reply rest, xs = ⟨request, reply⟩ :: rest ∧ (next reply).Goes rest (.done a) := by
  cases h with
  | ask h => exact ⟨_, _, rfl, h⟩

theorem of_done {a b : α} {xs : List Exchange} (h : (Program.done a).Goes xs (.done b)) :
    xs = [] ∧ a = b := by
  cases h
  exact ⟨rfl, rfl⟩

theorem not_stalled {a : α} {xs : List Exchange} (h : Program.stalled.Goes xs (.done a)) :
    False := by
  cases h

theorem of_orElse {p : Program α} {expired a : α} {xs : List Exchange}
    (h : (p.orElse (.done expired)).Goes xs (.done a)) : p.Goes xs (.done a) ∨ a = expired := by
  induction p generalizing xs with
  | done b => exact .inl h
  | ask request next ih =>
    obtain ⟨reply, rest, rfl, hrest⟩ := of_ask h
    exact (ih reply hrest).imp_left .ask
  | stalled => exact .inr (of_done h).2.symm

theorem of_bind_done {p : Program α} {f : α → β} {b : β} {xs : List Exchange}
    (h : (p.bind fun a => .done (f a)).Goes xs (.done b)) :
    ∃ a, p.Goes xs (.done a) ∧ f a = b := by
  induction p generalizing xs with
  | done a =>
    obtain ⟨rfl, hb⟩ := of_done h
    exact ⟨a, .here _, hb⟩
  | ask request next ih =>
    obtain ⟨reply, rest, rfl, hrest⟩ := of_ask h
    obtain ⟨a, ha, hb⟩ := ih reply hrest
    exact ⟨a, .ask ha, hb⟩
  | stalled => cases h

theorem bind_done {p : Program α} {a : α} {xs : List Exchange} (h : p.Goes xs (.done a))
    (f : α → β) : (p.bind fun a => .done (f a)).Goes xs (.done (f a)) := by
  induction p generalizing xs with
  | done a' =>
    obtain ⟨rfl, rfl⟩ := of_done h
    exact .here _
  | ask request next ih =>
    obtain ⟨reply, rest, rfl, hrest⟩ := of_ask h
    exact .ask (ih reply hrest)
  | stalled => cases h

end Program.Goes

namespace Plan

open Program.Goes

/-- The failures of a plan that do not come from its rows after the transaction. -/
inductive Breaks (p : Plan α) : Failure → Prop
  | fault (fault : Fault) : Breaks p (.ofFault fault)
  | read {rows : List Row} {e : Failure} (h : p.read rows = .error e) : Breaks p e
  | expired (limit : Duration) : Breaks p (.timeout limit)

theorem ends_body (p : Plan α) {xs : List Exchange} {x : Except Failure α}
    (h : p.body.Goes xs (.done x)) :
    (∃ rows, Committed xs p.statement rows ∧ p.read rows = .ok x) ∨
      ∃ e, x = .error e ∧ p.Breaks e := by
  rw [body, Operation.transaction, Operation.inTransaction_andThen, Operation.step_andThen] at h
  have hfail {xs : List Exchange} {fault : Fault}
      (h : (Operation.fail (.ofFault fault) : Operation α).Goes xs (.done x)) :
      ∃ e, x = .error e ∧ p.Breaks e := ⟨_, (of_done h).2.symm, .fault fault⟩
  have habandon {xs : List Exchange} {e : Failure} (he : p.Breaks e)
      (h : (Operation.abandon e : Operation α).Goes xs (.done x)) :
      ∃ e, x = .error e ∧ p.Breaks e := by
    obtain ⟨_, _, -, h⟩ := of_ask h
    exact ⟨e, (of_done h).2.symm, he⟩
  obtain ⟨reply₁, xs, rfl, h₁⟩ := of_ask h
  cases reply₁ with
  | refused fault => exact .inr (hfail h₁)
  | lost fault => exact .inr (hfail h₁)
  | silence => exact (not_stalled h₁).elim
  | rows began =>
    obtain ⟨reply₂, xs, rfl, h₂⟩ := of_ask h₁
    cases reply₂ with
    | refused fault => exact .inr (habandon (.fault fault) h₂)
    | lost fault => exact .inr (hfail h₂)
    | silence => exact (not_stalled h₂).elim
    | rows rows =>
      cases hr : p.read rows with
      | error e =>
        simp only [hr] at h₂
        exact .inr (habandon (.read hr) h₂)
      | ok y =>
        simp only [hr] at h₂
        obtain ⟨reply₃, xs, rfl, h₃⟩ := of_ask h₂
        cases reply₃ with
        | refused fault => exact .inr (habandon (.fault fault) h₃)
        | lost fault => exact .inr (hfail h₃)
        | silence => exact (not_stalled h₃).elim
        | rows ended =>
          obtain ⟨rfl, rfl⟩ := of_done h₃
          exact .inl ⟨rows, ⟨began, ended, rfl⟩, hr⟩

theorem ends (p : Plan α) {limit : Option Duration} {xs : List Exchange} {x : Except Failure α}
    (h : (p.run limit).Goes xs (.done x)) :
    (∃ rows, Committed xs p.statement rows ∧ p.read rows = .ok x) ∨
      ∃ e, x = .error e ∧ p.Breaks e := by
  cases limit with
  | none => exact p.ends_body h
  | some d =>
    by_cases hd : d.nanos = 0
    · have hrun : p.run (some d) = .done (.error (.timeout d)) :=
        Program.within_of_noTime d hd _ _ _
      rw [hrun] at h
      exact .inr ⟨_, (of_done h).2.symm, .expired d⟩
    · have hrun : p.run (some d) = p.body.orElse (.done (.error (.timeout d))) := if_neg hd
      rw [hrun] at h
      rcases of_orElse h with h | rfl
      · exact p.ends_body h
      · exact .inr ⟨_, rfl, .expired d⟩

end Plan

/-- The failure tells neither of a row that is missing nor of a filter that is refused. -/
structure Failure.Ordinary (e : Failure) : Prop where
  found : e.isNotFound = false
  accepted : ∀ refusal, e ≠ .invalidFilter refusal

theorem Failure.ordinary_ofFault (fault : Fault) : (ofFault fault).Ordinary := by
  cases fault with
  | reported code message constraint =>
    rw [ofFault]
    cases code.bind ConstraintKind.ofCode? with
    | some kind => exact ⟨rfl, fun _ => Failure.noConfusion⟩
    | none => exact ⟨rfl, fun _ => Failure.noConfusion⟩
  | other kind message =>
    rw [ofFault]
    by_cases h : kind.isOutage = true
    · rw [if_pos h]
      exact ⟨rfl, fun _ => Failure.noConfusion⟩
    · rw [if_neg h]
      exact ⟨rfl, fun _ => Failure.noConfusion⟩

theorem Plan.Breaks.ordinary {p : Plan α} {e : Failure} (h : p.Breaks e)
    (hread : ∀ rows e, p.read rows = .error e → e.Ordinary) : e.Ordinary := by
  cases h with
  | fault fault => exact Failure.ordinary_ofFault fault
  | read he => exact hread _ _ he
  | expired limit => exact ⟨rfl, fun _ => Failure.noConfusion⟩

namespace Rows

variable {read : Row → Option α} {rows : List Row} {e : Failure}

theorem ordinary_of_first? (h : first? read rows = .error e) : e.Ordinary := by
  cases rows with
  | nil => cases h
  | cons row rows =>
    rw [first?, readOne] at h
    cases hr : read row with
    | some a => rw [hr] at h; cases h
    | none =>
      rw [hr] at h
      obtain rfl := Except.error.inj h
      exact ⟨rfl, fun _ => Failure.noConfusion⟩

theorem ordinary_of_first (h : first .noRow read rows = .error e) : e.Ordinary := by
  cases rows with
  | nil =>
    obtain rfl := Except.error.inj h
    exact ⟨rfl, fun _ => Failure.noConfusion⟩
  | cons row rows =>
    rw [first, readOne] at h
    cases hr : read row with
    | some a => rw [hr] at h; cases h
    | none =>
      rw [hr] at h
      obtain rfl := Except.error.inj h
      exact ⟨rfl, fun _ => Failure.noConfusion⟩

theorem first?_eq_none_iff {found : Option α} (h : first? read rows = .ok found) :
    found = none ↔ rows = [] := by
  cases rows with
  | nil =>
    obtain rfl := Except.ok.inj h
    exact iff_of_true rfl rfl
  | cons row rows =>
    rw [first?] at h
    cases hr : readOne read row with
    | error e => rw [hr] at h; cases h
    | ok a =>
      rw [hr] at h
      obtain rfl := Except.ok.inj h
      exact iff_of_false (Option.some_ne_none a) (List.cons_ne_nil row rows)

theorem exists_of_first {a : α} (h : first .noRow read rows = .ok a) :
    ∃ row rest, rows = row :: rest ∧ read row = some a := by
  cases rows with
  | nil => cases h
  | cons row rest =>
    rw [first, readOne] at h
    cases hr : read row with
    | none => rw [hr] at h; cases h
    | some a' =>
      rw [hr] at h
      obtain rfl := Except.ok.inj h
      exact ⟨row, rest, rfl, hr⟩

end Rows

namespace Related

open Repository Program.Goes

variable (limit : Option Duration)

/-! ## The calls of the lookups -/

def spare : Except Failure α → Except Failure (Option α)
  | .ok a => .ok (some a)
  | .error e => if e.isNotFound then .ok none else .error e

theorem optional_eq (p : Operation α) : optional p = p.bind fun x => .done (spare x) := by
  rw [optional]
  congr 1
  funext x
  cases x with
  | ok a => rfl
  | error e =>
    rw [spare]
    by_cases h : e.isNotFound = true
    · simp only [if_pos h]
    · simp only [if_neg h]
      rfl

namespace Lookup

def call : Lookup → Call
  | user id => .get .user id
  | forum id => .get .forum id
  | votes v target => .sumVotes v target
  | count r column id => .count r (.ofSettings [.equals column (.uuid (some id))])

def IsOptional : Lookup → Prop
  | user _ => True
  | forum _ => True
  | _ => False

/-- What the lookup makes of what its call came to. -/
def settle : (l : Lookup) → Except Failure l.call.Result → Except Failure l.Found
  | user _ => spare
  | forum _ => spare
  | votes _ _ => id
  | count _ _ _ => id

theorem run_eq (l : Lookup) :
    l.run limit = (l.call.run limit).bind fun x => .done (l.settle x) := by
  have hid (p : Operation Int64) : p = p.bind .done := by
    induction p with
    | done x => rfl
    | ask request next ih =>
      rw [Program.bind]
      congr 1
      funext reply
      exact ih reply
    | stalled => rfl
  cases l with
  | user id => exact optional_eq _
  | forum id => exact optional_eq _
  | votes v target => exact hid _
  | count r column id => exact hid _

theorem spare_eq_error_iff {x : Except Failure α} {e : Failure} :
    spare x = .error e ↔ x = .error e ∧ ¬ e.isNotFound = true := by
  cases x with
  | ok a => exact iff_of_false (fun h => by cases h) fun h => by cases h.1
  | error e' =>
    rw [spare]
    by_cases h : e'.isNotFound = true
    · rw [if_pos h]
      refine iff_of_false (fun h => by cases h) fun ⟨he, hn⟩ => hn ?_
      rw [← Except.error.inj he, h]
    · rw [if_neg h]
      constructor
      · intro he
        obtain rfl := Except.error.inj he
        exact ⟨rfl, h⟩
      · exact fun he => congrArg _ (Except.error.inj he.1)

theorem settle_eq_error_iff {l : Lookup} {x : Except Failure l.call.Result} {e : Failure} :
    l.settle x = .error e ↔ x = .error e ∧ ¬ (l.IsOptional ∧ e.isNotFound = true) := by
  cases l with
  | user id => exact spare_eq_error_iff.trans (by simp [IsOptional])
  | forum id => exact spare_eq_error_iff.trans (by simp [IsOptional])
  | votes v target => exact ⟨fun h => ⟨h, fun hn => hn.1.elim⟩, And.left⟩
  | count r column id => exact ⟨fun h => ⟨h, fun hn => hn.1.elim⟩, And.left⟩

end Lookup

theorem map_eq_ok_iff {x : Except Failure α} {f : α → β} {b : β} :
    x.map f = .ok b ↔ ∃ a, x = .ok a ∧ f a = b := by
  cases x <;> simp [Except.map]

theorem map_eq_error_iff {x : Except Failure α} {f : α → β} {e : Failure} :
    x.map f = .error e ↔ x = .error e := by
  cases x <;> simp [Except.map]

theorem ends_get {r : Resource} {id : Uuid} {xs : List Exchange} {x : Except Failure r.Record}
    (h : (Repository.get limit r id).Goes xs (.done x)) :
    (∃ rows found, Committed xs (.get r.schema id) rows ∧
      Rows.first? (readRecord r) rows = .ok found ∧ x = found.elim (.error (notFound r id)) .ok) ∨
      ∃ e, x = .error e ∧ e.Ordinary := by
  rw [Call.get_eq] at h
  rcases Plan.ends _ h with ⟨rows, hrows, hread⟩ | ⟨e, rfl, he⟩
  · obtain ⟨found, hfirst, hx⟩ := map_eq_ok_iff.1 hread
    exact .inl ⟨rows, found, hrows, hfirst, by cases found <;> exact hx.symm⟩
  · exact .inr ⟨e, rfl, he.ordinary fun _ _ he => Rows.ordinary_of_first? (map_eq_error_iff.1 he)⟩

/-- Reading a number ends with it, or with a failure. -/
theorem ends_number {s : Statement} {xs : List Exchange} {x : Except Failure Int64}
    (h : ((Plan.plain s (Rows.first .noRow (·.number? 0))).run limit).Goes xs (.done x)) :
    (∃ row rest n, Committed xs s (row :: rest) ∧ row.number? 0 = some n ∧ x = .ok n) ∨
      ∃ e, x = .error e ∧ e.Ordinary := by
  rcases Plan.ends _ h with ⟨rows, hrows, hread⟩ | ⟨e, rfl, he⟩
  · obtain ⟨n, hfirst, rfl⟩ := map_eq_ok_iff.1 hread
    obtain ⟨row, rest, rfl, hn⟩ := Rows.exists_of_first hfirst
    exact .inl ⟨row, rest, n, hrows, hn, rfl⟩
  · exact .inr ⟨e, rfl, he.ordinary fun _ _ he => Rows.ordinary_of_first (map_eq_error_iff.1 he)⟩

/-- The filter of a count passes its check. -/
def Lookup.Valid : Lookup → Prop
  | .count r column id =>
    (Filter.ofSettings [.equals column (.uuid (some id))]).check r.schema = .ok ()
  | _ => True

theorem valid_lookups (r : Resource) (a : r.Record) : ∀ l ∈ lookups r a, l.Valid := by
  cases r with
  | user => exact List.forall_mem_nil _
  | forum => exact List.forall_mem_cons.2 ⟨trivial, List.forall_mem_singleton.2 rfl⟩
  | thread =>
    refine List.forall_mem_cons.2 ⟨trivial, List.forall_mem_cons.2 ⟨trivial, ?_⟩⟩
    exact List.forall_mem_cons.2 ⟨trivial, List.forall_mem_singleton.2 rfl⟩
  | post => exact List.forall_mem_cons.2 ⟨trivial, List.forall_mem_singleton.2 trivial⟩

theorem count_eq {r : Resource} {f : Filter} (h : f.check r.schema = .ok ()) :
    Repository.count limit r f =
      (Plan.plain (.countOf r.schema f) (Rows.first .noRow (·.number? 0))).run limit := by
  have hrun := Call.run_eq limit (.count r f)
  rwa [Call.plan_count_eq_ok_iff.2 ⟨h, rfl⟩] at hrun

theorem sum_eq (v : Votable) (target : Uuid) :
    Ballot.sum limit v target =
      (Plan.plain (.sumVotes v.schema target) (Rows.first .noRow (·.number? 0))).run limit :=
  Operation.within_transaction limit _ _

namespace Lookup

variable {limit} {l : Lookup} {xs : List Exchange}

theorem Valid.not_invalidFilter (hl : l.Valid) (e : FilterError) :
    ¬ (l.call.run limit).Goes xs (.done (.error (.invalidFilter e))) := by
  have hget {r : Resource} {id : Uuid} :
      ¬ (Repository.get limit r id).Goes xs (.done (.error (.invalidFilter e))) := by
    intro h
    rcases ends_get limit h with ⟨rows, found, -, -, hx⟩ | ⟨_, hx, he⟩
    · cases found <;> cases hx
    · exact he.accepted e (Except.error.inj hx).symm
  have hnumber {s : Statement} : ¬ ((Plan.plain s (Rows.first .noRow (·.number? 0))).run limit).Goes
      xs (.done (.error (.invalidFilter e))) := by
    intro h
    rcases ends_number limit h with ⟨row, rest, n, -, -, hx⟩ | ⟨_, hx, he⟩
    · cases hx
    · exact he.accepted e (Except.error.inj hx).symm
  cases l with
  | user id => exact hget
  | forum id => exact hget
  | votes v target =>
    intro h
    have h : (Ballot.sum limit v target).Goes xs _ := h
    rw [sum_eq] at h
    exact hnumber h
  | count r column id =>
    intro h
    have h : (Repository.count limit r _).Goes xs _ := h
    rw [count_eq limit hl] at h
    exact hnumber h

theorem Valid.exists_plan (hl : l.Valid) : ∃ p, l.call.plan = .ok p := by
  cases l with
  | count r column id => exact ⟨_, Call.plan_count_eq_ok_iff.2 ⟨hl, rfl⟩⟩
  | _ => exact ⟨_, rfl⟩

theorem Valid.asks (hl : l.Valid) (ht : HasTime limit) : (l.run limit).Asks := by
  obtain ⟨p, hp⟩ := hl.exists_plan
  rw [run_eq]
  exact (Call.asks_of_plan hp ht).bind _

theorem Valid.run_of_noTime (hl : l.Valid) {d : Duration} (hd : d.nanos = 0) :
    l.run (some d) = .fail (.timeout d) := by
  obtain ⟨p, hp⟩ := hl.exists_plan
  have hrun : p.run (some d) = .done (.error (.timeout d)) := Program.within_of_noTime d hd _ _ _
  have hsettle : l.settle (.error (.timeout d)) = .error (.timeout d) :=
    settle_eq_error_iff.2 ⟨rfl, fun h => Bool.noConfusion h.2⟩
  rw [run_eq, Call.run_eq, hp, Call.runPlan, hrun, Program.bind, hsettle]
  rfl

end Lookup

/-! ## Listings without turns -/

theorem failure?_begin {ls : List Lookup} (h : ∀ l ∈ ls, (l.run limit).Asks) :
    failure? ls (begin limit ls) = none := by
  induction ls with
  | nil => rfl
  | cons l ls ih =>
    obtain ⟨hl, hls⟩ := List.forall_mem_cons.1 h
    obtain ⟨request, next, heq⟩ := hl
    rw [begin, heq]
    exact ih hls

theorem together_nil {ls : List Lookup} (h : ∀ l ∈ ls, l.Valid) :
    together [] ls (begin limit ls) = findAll limit ls := by
  rw [together, inOrder_begin]
  by_cases ht : HasTime limit
  · rw [failure?_begin limit fun l hl => (h l hl).asks ht]
  · obtain ⟨d, rfl, hd⟩ := exists_of_not_hasTime ht
    cases ls with
    | nil => rfl
    | cons l ls =>
      have hl := (h l List.mem_cons_self).run_of_noTime hd
      rw [begin, findAll, hl]
      rfl

/-- Without turns the lookups for each row are done one after the other. -/
theorem listTogether_nil (r : Resource) (f : Filter) :
    listTogether limit (fun _ => []) r f = list limit r f := by
  have hdetails : detailsTogether limit [] r = details limit r := by
    funext a
    rw [detailsTogether, details, together_nil limit (valid_lookups r a)]
  rw [listTogether, list]
  congr 1
  funext page
  rw [hdetails, collectFrom_eq]

/-! ## What is told of a row -/

/-- A row that may be missing: it is left out exactly if none came. -/
def ShowsRow (r : Resource) (id : Uuid) (xs : List Exchange) (found : Option r.Record) : Prop :=
  ∃ rows, Committed xs (.get r.schema id) rows ∧
    Rows.first? (readRecord r) rows = .ok found ∧ (found = none ↔ rows = [])

def ShowsNumber (s : Statement) (xs : List Exchange) (n : Int64) : Prop :=
  ∃ row rest, Committed xs s (row :: rest) ∧ row.number? 0 = some n

/-- The statement that counts the rows that refer to an identifier. -/
def countStatement (r : Resource) (column : String) (id : Uuid) : Statement :=
  .countOf r.schema (.ofSettings [.equals column (.uuid (some id))])

/-- The row is shown with what was found under its own identifiers. -/
def Carries : (r : Resource) → r.Record → Trace → r.Details → Prop
  | .user, u, _, d => d = u
  | .forum, f, trace, d =>
    d.forum = f ∧ ShowsRow .user f.ownerId (trace.share 0) d.owner ∧
      ShowsNumber (countStatement .thread "forum_id" f.id) (trace.share 1) d.threadCount
  | .thread, t, trace, d =>
    d.thread = t ∧ ShowsRow .user t.authorId (trace.share 0) d.author ∧
      ShowsRow .forum t.forumId (trace.share 1) d.forum ∧
      ShowsNumber (.sumVotes Votable.thread.schema t.id) (trace.share 2) d.votes ∧
      ShowsNumber (countStatement .post "thread_id" t.id) (trace.share 3) d.postCount
  | .post, p, trace, d =>
    d.post = p ∧ ShowsRow .user p.authorId (trace.share 0) d.author ∧
      ShowsNumber (.sumVotes Votable.post.schema p.id) (trace.share 1) d.votes

/-- A lookup for the row failed with `e`, and not for want of a row that may be missing. -/
def Fails (r : Resource) (a : r.Record) (trace : Trace) (e : Failure) : Prop :=
  ∃ (i : Nat) (l : Lookup), (lookups r a)[i]? = some l ∧
    (l.call.run limit).Goes (trace.share i) (.done (.error e)) ∧
    ¬ (l.IsOptional ∧ e.isNotFound = true)

section Row

variable {limit} {xs : List Exchange}

theorem showsRow_of_goes {r : Resource} {id : Uuid} {found : Option r.Record}
    (h : (optional (Repository.get limit r id)).Goes xs (.done (.ok found))) :
    ShowsRow r id xs found := by
  rw [optional_eq] at h
  obtain ⟨x, hx, hspare⟩ := of_bind_done h
  rcases ends_get limit hx with ⟨rows, found', hrows, hfirst, rfl⟩ | ⟨e, rfl, he⟩
  · have hfound : found' = found := by cases found' <;> exact Except.ok.inj hspare
    subst hfound
    exact ⟨rows, hrows, hfirst, Rows.first?_eq_none_iff hfirst⟩
  · rw [spare, he.found] at hspare
    cases hspare

theorem showsNumber_of_goes {s : Statement} {n : Int64}
    (h : ((Plan.plain s (Rows.first .noRow (·.number? 0))).run limit).Goes xs (.done (.ok n))) :
    ShowsNumber s xs n := by
  rcases ends_number limit h with ⟨row, rest, n', hrows, hn, hx⟩ | ⟨e, hx, -⟩
  · obtain rfl := Except.ok.inj hx
    exact ⟨row, rest, hrows, hn⟩
  · cases hx

theorem showsSum_of_goes {v : Votable} {target : Uuid} {n : Int64}
    (h : (Ballot.sum limit v target).Goes xs (.done (.ok n))) :
    ShowsNumber (.sumVotes v.schema target) xs n :=
  showsNumber_of_goes (sum_eq limit v target ▸ h)

theorem showsCount_of_goes {r : Resource} {column : String} {id : Uuid} {n : Int64}
    (h : (countOf limit r column id).Goes xs (.done (.ok n)))
    (hvalid : (Lookup.count r column id).Valid) :
    ShowsNumber (countStatement r column id) xs n := by
  rw [countOf, count_eq limit hvalid] at h
  exact showsNumber_of_goes h

theorem carries_of_finds {r : Resource} {a : r.Record} {trace : Trace}
    {found : Findings (lookups r a)} (h : Finds limit (lookups r a) trace.share found) :
    Carries r a trace (assemble r a found) := by
  cases r with
  | user => rfl
  | forum =>
    obtain ⟨owner, threadCount, ⟨⟩⟩ := found
    obtain ⟨h₀, h₁, -⟩ := h
    exact ⟨rfl, showsRow_of_goes h₀, showsCount_of_goes h₁ rfl⟩
  | thread =>
    obtain ⟨author, forum, votes, postCount, ⟨⟩⟩ := found
    obtain ⟨h₀, h₁, h₂, h₃, -⟩ := h
    exact ⟨rfl, showsRow_of_goes h₀, showsRow_of_goes h₁, showsSum_of_goes h₂,
      showsCount_of_goes h₃ rfl⟩
  | post =>
    obtain ⟨author, votes, ⟨⟩⟩ := found
    obtain ⟨h₀, h₁, -⟩ := h
    exact ⟨rfl, showsRow_of_goes h₀, showsSum_of_goes h₁⟩

/-- What is told of a row, and the lookups that it was told from. -/
structure Told (limit : Option Duration) (r : Resource) (a : r.Record) (trace : Trace)
    (v : Option (Except Failure r.Details)) : Prop where
  ok : ∀ d, v = some (.ok d) → Carries r a trace d
  error : ∀ e, v = some (.error e) → Fails limit r a trace e
  fails : ∀ e, Fails limit r a trace e → ∃ e', v = some (.error e')

end Row

theorem run_detailsTogether (store : Store σ) (turns : List Nat) (r : Resource) (a : r.Record)
    (s : σ) :
    ∃ trace : Trace,
      ((detailsTogether limit turns r a).run store s).exchanges = trace.exchanges ∧
        Told limit r a trace ((detailsTogether limit turns r a).run store s).value? := by
  obtain ⟨trace, qs, hexchanges, hwent, hvalue⟩ :=
    run_together store turns (lookups r a) (begin limit (lookups r a)) s
  rw [detailsTogether, Operation.run_andThen_ok]
  refine ⟨trace, hexchanges, ?_⟩
  simp only [hvalue, verdict]
  cases hfailed : failure? (lookups r a) qs with
  | some e =>
    refine ⟨(fun d hd => by cases hd), fun e' he' => ?_, fun _ _ => ⟨e, rfl⟩⟩
    obtain rfl : e = e' := Except.error.inj (Option.some.inj he')
    obtain ⟨i, l, hl, hgoes⟩ := exists_failed hwent hfailed
    rw [l.run_eq] at hgoes
    obtain ⟨x, hx, hsettle⟩ := of_bind_done hgoes
    obtain ⟨rfl, hn⟩ := Lookup.settle_eq_error_iff.1 hsettle
    exact ⟨i, l, hl, hx, hn⟩
  | none =>
    refine ⟨fun d hd => ?_, fun e he => ?_, fun e he => ?_⟩
    · obtain ⟨x, hx, hd⟩ := Option.map_eq_some_iff.1 hd
      obtain ⟨found, hfound, rfl⟩ := Option.map_eq_some_iff.1 hx
      obtain rfl := Except.ok.inj hd
      exact carries_of_finds (finds_of_found? hwent hfound)
    · obtain ⟨x, hx, he⟩ := Option.map_eq_some_iff.1 he
      obtain ⟨found, hfound, rfl⟩ := Option.map_eq_some_iff.1 hx
      cases he
    · obtain ⟨i, l, hl, hgoes, hn⟩ := he
      have hrun := bind_done hgoes l.settle
      rw [Lookup.settle_eq_error_iff.2 ⟨rfl, hn⟩, ← l.run_eq] at hrun
      exact absurd hfailed (failure?_ne_none hwent hl hrun)

/-! ## What is told of a page -/

theorem length_of_list (store : Store σ) {r : Resource} {f : Filter} {s : σ}
    {page : Page r.Record}
    (h : ((Repository.list limit r f).run store s).value? = some (.ok page)) :
    page.metadata.length.toNat = page.rows.length := by
  obtain ⟨q, hgoes, hends⟩ := (Repository.list limit r f).exists_goes_run store s
  rw [h] at hends
  cases hends
  rw [Call.list_eq] at hgoes
  cases hp : Call.plan (.list r f) with
  | error e =>
    rw [hp] at hgoes
    cases (of_done hgoes).2
  | ok p =>
    rw [hp] at hgoes
    obtain ⟨-, statement, -, rfl⟩ := Call.plan_list_eq_ok_iff.1 hp
    rcases Plan.ends _ hgoes with ⟨rows, -, hread⟩ | ⟨e, he, -⟩
    · obtain ⟨records, -, hpage⟩ := map_eq_ok_iff.1 hread
      obtain rfl := Except.ok.inj hpage
      exact Page.length_ofRows records f.pageSize f.lastSeen r.id
    · cases he

/-- One of the lookups that were begun for the rows failed with `e`. -/
def FailsFor (r : Resource) (rows : List r.Record) (traces : List Trace) (e : Failure) : Prop :=
  ∃ (k : Nat) (a : r.Record) (trace : Trace),
    rows[k]? = some a ∧ traces[k]? = some trace ∧ Fails limit r a trace e

/-- A listing with related rows, after its page was read. The traces are those of the rows whose
lookups were begun. -/
structure Shown (r : Resource) (page : Page r.Record) (traces : List Trace)
    (v : Option (Except Failure (Page r.Details))) : Prop where
  length : page.metadata.length.toNat = page.rows.length
  begun : traces.length ≤ page.rows.length
  ok : ∀ details, v = some (.ok details) → details.metadata = page.metadata ∧
    details.rows.length = page.metadata.length.toNat ∧ traces.length = page.rows.length ∧
    ∀ (k : Nat) (a : r.Record) (trace : Trace) (d : r.Details), page.rows[k]? = some a →
      traces[k]? = some trace → details.rows[k]? = some d → Carries r a trace d
  error : ∀ e, v = some (.error e) → FailsFor limit r page.rows traces e
  fails : ∀ e, FailsFor limit r page.rows traces e → ∃ e', v = some (.error e')

theorem Shown.ok_iff {r : Resource} {page : Page r.Record} {traces : List Trace}
    {v : Option (Except Failure (Page r.Details))} (h : Shown limit r page traces v)
    (hv : v ≠ none) :
    (∃ details, v = some (.ok details)) ↔ ∀ e, ¬ FailsFor limit r page.rows traces e := by
  obtain ⟨x, rfl⟩ := Option.ne_none_iff_exists'.1 hv
  constructor
  · rintro ⟨details, hdetails⟩ e he
    obtain ⟨e', he'⟩ := h.fails e he
    cases hdetails.symm.trans he'
  · intro hnone
    cases x with
    | ok details => exact ⟨details, rfl⟩
    | error e => exact absurd (h.error e rfl) (hnone e)

theorem shown_of_along {r : Resource} {page : Page r.Record} {traces : List Trace}
    {v : Option (Except Failure (List r.Details))}
    (hlength : page.metadata.length.toNat = page.rows.length)
    (h : Along (Told limit r) page.rows traces v) :
    Shown limit r page traces (v.map (Except.map fun rows => ⟨rows, page.metadata⟩)) where
  length := hlength
  begun := h.length_le
  ok details hv := by
    obtain ⟨x, rfl, hx⟩ := Option.map_eq_some_iff.1 hv
    obtain ⟨rows, rfl, rfl⟩ := map_eq_ok_iff.1 hx
    obtain ⟨hrows, htraces, hall⟩ := h.ok rfl
    exact ⟨rfl, hrows.trans hlength.symm, htraces,
      fun k a trace d ha ht hd => (hall k a trace d ha ht hd).ok d rfl⟩
  error e hv := by
    obtain ⟨x, rfl, hx⟩ := Option.map_eq_some_iff.1 hv
    obtain rfl := map_eq_error_iff.1 hx
    obtain ⟨k, a, trace, ha, ht, htold⟩ := h.error rfl
    exact ⟨k, a, trace, ha, ht, htold.error e rfl⟩
  fails e := by
    rintro ⟨k, a, trace, ha, ht, hfails⟩
    obtain ⟨w, htold, hw⟩ := h.fails ha ht
    obtain ⟨e', rfl⟩ := htold.fails e hfails
    rw [hw e' rfl]
    exact ⟨e', rfl⟩

/-- A listing with related rows first does what the plain listing does, and fails as that fails.
After the page, whatever the order in which the lookups for each row go on, every row of the page
is shown with what was found under its own identifiers, or the listing fails with the failure of a
lookup. It returns under every limit, and without one where the store is never silent; after a page
it then succeeds exactly if no lookup failed. No lookup is ever refused its filter. -/
theorem related_listing_refines (store : Store σ) (s : σ) (limit : Option Duration)
    (turns : Nat → List Nat) (r : Resource) (f : Filter) :
    (∃ traces : List Trace,
      let plain := (Repository.list limit r f).run store s
      let full := (listTogether limit turns r f).run store s
      full.exchanges = plain.exchanges ++ traces.flatMap Trace.exchanges ∧
        (Heard limit full.exchanges → full.value? ≠ none) ∧
        match plain.value? with
        | none => traces = [] ∧ full.value? = none
        | some (.error e) => traces = [] ∧ full.value? = some (.error e)
        | some (.ok page) => Shown limit r page traces full.value? ∧
            (Heard limit full.exchanges → ((∃ details, full.value? = some (.ok details)) ↔
              ∀ e, ¬ FailsFor limit r page.rows traces e))) ∧
    listTogether limit (fun _ => []) r f = list limit r f ∧
    ∀ (a : r.Record), ∀ l ∈ lookups r a, ∀ (xs : List Exchange) (e : FilterError),
      ¬ (l.call.run limit).Goes xs (.done (.error (.invalidFilter e))) := by
  refine ⟨?_, listTogether_nil limit r f,
    fun a l hl xs e => (valid_lookups r a l hl).not_invalidFilter e⟩
  have hlength : ∀ page, ((Repository.list limit r f).run store s).value? = some (.ok page) →
      page.metadata.length.toNat = page.rows.length := fun page => length_of_list limit store
  have hreturns (h : Heard limit ((listTogether limit turns r f).run store s).exchanges) :
      ((listTogether limit turns r f).run store s).value? ≠ none :=
    Option.ne_none_iff_exists'.2 ((returns_listTogether limit turns r f).exists_value? store s h)
  have hfull : (listTogether limit turns r f).run store s = _ :=
    Operation.run_andThen store (Repository.list limit r f) _ s
  rw [hfull] at hreturns
  simp only [hfull]
  generalize (Repository.list limit r f).run store s = plain at hlength hreturns
  obtain ⟨_ | x, xs, s'⟩ := plain
  · exact ⟨[], (List.append_nil xs).symm, hreturns, rfl, rfl⟩
  · cases x with
    | error e => exact ⟨[], (List.append_nil xs).symm, hreturns, rfl, rfl⟩
    | ok page =>
      obtain ⟨traces, hexchanges, halong⟩ := run_collectFrom store
        (fun k a s => run_detailsTogether limit store (turns k) r a s) 0 page.rows s'
      have hshown := shown_of_along limit (hlength page rfl) halong
      simp only [Operation.run_andThen_ok] at hreturns ⊢
      exact ⟨traces, congrArg (xs ++ ·) hexchanges, hreturns, hshown,
        fun h => hshown.ok_iff limit (hreturns h)⟩

/-! Three posts are sent for a page of two; the author of the second is gone. -/

def postOf (id author : Uuid) : Post :=
  ⟨id, ⟨20⟩, none, author, "text", ⟨.epoch, .epoch, false, none⟩⟩

def writer : User := ⟨⟨7⟩, "ann", "ann", "someone@example.com", ⟨.epoch, .epoch, false, none⟩⟩

def threePosts : Store Unit
  | .execute (.page ..), s =>
    (.rows (([postOf ⟨1⟩ ⟨7⟩, postOf ⟨2⟩ ⟨8⟩, postOf ⟨3⟩ ⟨7⟩] : List Post).map
      Resource.post.row), s)
  | .execute (.get _ id), s =>
    (.rows (if id = writer.id then [Resource.user.row writer] else []), s)
  | .execute (.sumVotes _ target), s => (.rows [[("sum", .int (target.bits.toNat + 10))]], s)
  | _, s => (.rows [], s)

theorem two_posts_listed :
    let plain := (Repository.list (some ⟨5000000000⟩) .post { pageSize := 2 }).run threePosts ()
    let full := (listTogether (some ⟨5000000000⟩) (fun _ => [1, 0]) .post { pageSize := 2 }).run
      threePosts ()
    let first : PostDetails := ⟨postOf ⟨1⟩ ⟨7⟩, some writer, 11⟩
    let second : PostDetails := ⟨postOf ⟨2⟩ ⟨8⟩, none, 12⟩
    full.value? = some (.ok ⟨[first, second], ⟨⟨2⟩, true, 2⟩⟩) ∧
      ∃ xs ys : Trace, full.exchanges = plain.exchanges ++ (xs.exchanges ++ ys.exchanges) ∧
        Carries .post first.post xs first ∧ Carries .post second.post ys second := by
  intro plain full first second
  have hfull : full.value? = some (.ok ⟨[first, second], ⟨⟨2⟩, true, 2⟩⟩) := by cbv
  have hplain : plain.value? = some (.ok ⟨[first.post, second.post], ⟨⟨2⟩, true, 2⟩⟩) := by cbv
  obtain ⟨⟨traces, hexchanges, -, hpage⟩, -⟩ := related_listing_refines threePosts ()
    (some ⟨5000000000⟩) (fun _ => [1, 0]) .post { pageSize := 2 }
  rw [hplain] at hpage
  obtain ⟨-, -, htraces, hcarries⟩ := hpage.1.ok _ hfull
  obtain ⟨xs, ys, rfl⟩ := List.length_eq_two.1 htraces
  refine ⟨hfull, xs, ys, ?_, hcarries 0 _ _ _ rfl rfl rfl, hcarries 1 _ _ _ rfl rfl rfl⟩
  rw [hexchanges, List.flatMap_cons, List.flatMap_singleton]

end Related

end MessageBoard
