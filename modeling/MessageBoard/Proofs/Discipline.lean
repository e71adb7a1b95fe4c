import MessageBoard.Proofs.Call
import MessageBoard.Tables

/-!
# The discipline of transactions

`Course` says how a transaction may go, from its start or from within: the requests come in their
order, `COMMIT` is sent only when all before it went well, a value is told only when `COMMIT` was
acknowledged, and a transaction that is not committed is given up unless the connection is gone.

It holds of ending a transaction and is kept by one more step before a course, hence by every
transaction. A time limit keeps it too: an answer that never comes is a failure then.
-/

namespace MessageBoard

/-- The failure that a reply is, if it is one. Without a limit silence never becomes a failure. -/
def Reply.failure? (limit : Option Duration) : Reply → Option Failure
  | .rows _ => none
  | .refused fault => some (.ofFault fault)
  | .lost fault => some (.ofFault fault)
  | .silence => limit.map .timeout

theorem Reply.failure?_of_none {reply : Reply} {e : Failure} (h : reply.failure? none = some e)
    {limit : Option Duration} : reply.failure? limit = some e := by
  cases reply with
  | silence => cases h
  | rows _ => cases h
  | refused _ => exact h
  | lost _ => exact h

def Reply.IsGone : Reply → Prop
  | .lost _ => True
  | .silence => True
  | _ => False

variable {σ α β : Type}

/-- How a transaction goes that is to ask for `todo` and then to commit. `Accepts` are the rows with
which it goes on, `Late` the failures that are told of a transaction that was committed. -/
structure Course (limit : Option Duration) (todo : List Request)
    (Accepts : Request → List Row → Prop) (Late : Failure → Prop)
    (o : Outcome σ (Except Failure α)) : Prop where
  /-- Every request is sent at most once, in this order; only giving up can cut it short. -/
  order : ∃ sent, sent <+: todo ++ [.commit] ∧
    (o.requests = sent ∨ o.requests = sent ++ [.rollback])
  /-- `COMMIT` is sent only when everything before it was done and its rows could be used. -/
  accepted : .commit ∈ o.requests →
    ∀ w ∈ todo, ∃ rows, ⟨w, .rows rows⟩ ∈ o.exchanges ∧ Accepts w rows
  /-- `COMMIT` is left out only when something before it was not done or could not be used. -/
  flawed : o.exchanges ≠ [] → .commit ∉ o.requests →
    ∃ x ∈ o.exchanges, x.request ∈ todo ∧ ∀ rows, x.reply = .rows rows → ¬ Accepts x.request rows
  committed : ∀ a, o.value? = some (.ok a) → o.Acknowledged .commit
  cause : ∀ e, o.value? = some (.error e) →
    (Late e ∧ o.Acknowledged .commit) ∨
      (∃ reply, ⟨.commit, reply⟩ ∈ o.exchanges ∧ reply.failure? limit = some e) ∨
      .commit ∉ o.requests
  /-- What was committed is not told as a failure, late ones apart. -/
  settled : o.Acknowledged .commit → ∃ v, o.value? = some v ∧ ∀ e, v = .error e → Late e
  /-- A transaction that was started is committed, given up, or lost with its connection. -/
  closed : o.exchanges ≠ [] → (∃ fault, ⟨.start, .refused fault⟩ ∈ o.exchanges) ∨
    o.Acknowledged .commit ∨ .rollback ∈ o.requests ∨ ∃ x ∈ o.exchanges, x.reply.IsGone
  stalled : o.value? = none → limit = none ∧
    ∃ x ∈ o.exchanges, x.reply = .silence ∧ (x.request = .commit ∨ .commit ∉ o.requests)

namespace Course

variable {limit : Option Duration} {todo : List Request} {Accepts : Request → List Row → Prop}
  {Late : Failure → Prop}

theorem of_fail (e : Failure) (s : σ) :
    Course limit todo Accepts Late (⟨some (.error e), [], s⟩ : Outcome σ (Except Failure α)) where
  order := ⟨[], List.nil_prefix, .inl rfl⟩
  accepted h := absurd h List.not_mem_nil
  flawed h := absurd rfl h
  committed a h := by cases h
  cause e h := .inr (.inr List.not_mem_nil)
  settled h := absurd h.choose_spec List.not_mem_nil
  closed h := absurd rfl h
  stalled h := by cases h

theorem cons {o : Outcome σ (Except Failure α)} (h : Course limit todo Accepts Late o)
    (ho : o.exchanges ≠ []) {w : Request} (hc : w ≠ .commit) {rows : List Row}
    (hw : Accepts w rows) :
    Course limit (w :: todo) Accepts Late
      { o with exchanges := ⟨w, .rows rows⟩ :: o.exchanges } where
  order := by
    obtain ⟨sent, hsent, hreq⟩ := h.order
    refine ⟨w :: sent, List.cons_prefix_cons.2 ⟨rfl, hsent⟩, ?_⟩
    rcases hreq with hreq | hreq
    · exact .inl (congrArg (w :: ·) hreq)
    · exact .inr (congrArg (w :: ·) hreq)
  accepted hm := by
    have hm : .commit ∈ o.requests := (List.mem_cons.1 hm).resolve_left (Ne.symm hc)
    intro v hv
    rcases List.mem_cons.1 hv with rfl | hv
    · exact ⟨rows, List.mem_cons_self, hw⟩
    · obtain ⟨rows', hx, ha⟩ := h.accepted hm v hv
      exact ⟨rows', List.mem_cons_of_mem _ hx, ha⟩
  flawed _ hm := by
    obtain ⟨x, hx, hd, hn⟩ := h.flawed ho fun hm' => hm (List.mem_cons_of_mem _ hm')
    exact ⟨x, List.mem_cons_of_mem _ hx, List.mem_cons_of_mem _ hd, hn⟩
  committed a ha := by
    obtain ⟨rows', hx⟩ := h.committed a ha
    exact ⟨rows', List.mem_cons_of_mem _ hx⟩
  cause e he := by
    rcases h.cause e he with ⟨hl, rows', hx⟩ | ⟨reply, hx, hr⟩ | hn
    · exact .inl ⟨hl, rows', List.mem_cons_of_mem _ hx⟩
    · exact .inr (.inl ⟨reply, List.mem_cons_of_mem _ hx, hr⟩)
    · exact .inr (.inr fun hm => hn ((List.mem_cons.1 hm).resolve_left (Ne.symm hc)))
  settled hk := by
    obtain ⟨rows', hx⟩ := hk
    refine h.settled ⟨rows', (List.mem_cons.1 hx).resolve_left fun heq => hc ?_⟩
    exact (congrArg Exchange.request heq).symm
  closed _ := by
    rcases h.closed ho with ⟨fault, hx⟩ | ⟨rows', hx⟩ | hm | ⟨x, hx, hg⟩
    · exact .inl ⟨fault, List.mem_cons_of_mem _ hx⟩
    · exact .inr (.inl ⟨rows', List.mem_cons_of_mem _ hx⟩)
    · exact .inr (.inr (.inl (List.mem_cons_of_mem _ hm)))
    · exact .inr (.inr (.inr ⟨x, List.mem_cons_of_mem _ hx, hg⟩))
  stalled hv := by
    obtain ⟨hl, x, hx, hs, hor⟩ := h.stalled hv
    refine ⟨hl, x, List.mem_cons_of_mem _ hx, hs, hor.imp_right fun hn hm => ?_⟩
    exact hn ((List.mem_cons.1 hm).resolve_left (Ne.symm hc))

theorem of_abandon {w : Request} (hc : w ≠ .commit) {reply : Reply}
    (hr : ∀ rows, reply = .rows rows → ¬ Accepts w rows) (answer : Reply) (e : Failure) (s : σ) :
    Course limit (w :: todo) Accepts Late
      (⟨some (.error e), [⟨w, reply⟩, ⟨.rollback, answer⟩], s⟩ :
        Outcome σ (Except Failure α)) where
  order := ⟨[w], List.cons_prefix_cons.2 ⟨rfl, List.nil_prefix⟩, .inr rfl⟩
  accepted hm := by simp [Outcome.requests, Ne.symm hc] at hm
  flawed _ _ := ⟨⟨w, reply⟩, List.mem_cons_self, List.mem_cons_self, hr⟩
  committed a ha := by cases ha
  cause e _ := .inr (.inr (by simp [Outcome.requests, Ne.symm hc]))
  settled hk := by
    obtain ⟨rows, hx⟩ := hk
    simp [Ne.symm hc] at hx
  closed _ := .inr (.inr (.inl (by simp [Outcome.requests])))
  stalled hv := by cases hv

theorem of_gone {w : Request} (hc : w ≠ .commit) (reply : Reply) (hg : reply.IsGone)
    {value? : Option (Except Failure α)} (ha : ∀ a, value? ≠ some (.ok a))
    (hv : value? = none → limit = none ∧ reply = .silence) (s : σ) :
    Course limit (w :: todo) Accepts Late ⟨value?, [⟨w, reply⟩], s⟩ where
  order := ⟨[w], List.cons_prefix_cons.2 ⟨rfl, List.nil_prefix⟩, .inl rfl⟩
  accepted hm := by simp [Outcome.requests, Ne.symm hc] at hm
  flawed _ _ := by
    refine ⟨⟨w, reply⟩, List.mem_cons_self, List.mem_cons_self, fun rows hrows => ?_⟩
    subst hrows
    exact hg.elim
  committed a h := absurd h (ha a)
  cause e _ := .inr (.inr (by simp [Outcome.requests, Ne.symm hc]))
  settled hk := by
    obtain ⟨rows, hx⟩ := hk
    simp [Ne.symm hc] at hx
  closed _ := .inr (.inr (.inr ⟨⟨w, reply⟩, List.mem_cons_self, hg⟩))
  stalled h := by
    obtain ⟨hl, hs⟩ := hv h
    exact ⟨hl, ⟨w, reply⟩, List.mem_cons_self, hs,
      .inr (by simp [Outcome.requests, Ne.symm hc])⟩

theorem of_committed {x : Except Failure α} (hx : ∀ e, x = .error e → Late e) (rows : List Row)
    (s : σ) : Course limit [] Accepts Late ⟨some x, [⟨.commit, .rows rows⟩], s⟩ where
  order := ⟨[.commit], List.prefix_rfl, .inl rfl⟩
  accepted _ w hw := absurd hw List.not_mem_nil
  flawed _ hm := absurd List.mem_cons_self hm
  committed _ _ := ⟨rows, List.mem_cons_self⟩
  cause e he := .inl ⟨hx e (Option.some.inj he), rows, List.mem_cons_self⟩
  settled _ := ⟨x, rfl, hx⟩
  closed _ := .inr (.inl ⟨rows, List.mem_cons_self⟩)
  stalled hv := by cases hv

theorem of_uncommitted (fault : Fault) (answer : Reply) (s : σ) :
    Course limit [] Accepts Late
      (⟨some (.error (.ofFault fault)), [⟨.commit, .refused fault⟩, ⟨.rollback, answer⟩], s⟩ :
        Outcome σ (Except Failure α)) where
  order := ⟨[.commit], List.prefix_rfl, .inr rfl⟩
  accepted _ w hw := absurd hw List.not_mem_nil
  flawed _ hm := absurd List.mem_cons_self hm
  committed a ha := by cases ha
  cause e he := .inr (.inl ⟨.refused fault, List.mem_cons_self,
    congrArg some (Except.error.inj (Option.some.inj he))⟩)
  settled hk := by
    obtain ⟨rows, hx⟩ := hk
    simp at hx
  closed _ := .inr (.inr (.inl (by simp [Outcome.requests])))
  stalled hv := by cases hv

theorem of_goneCommit (reply : Reply) (hg : reply.IsGone) {value? : Option (Except Failure α)}
    (ha : ∀ a, value? ≠ some (.ok a))
    (he : ∀ e, value? = some (.error e) → reply.failure? limit = some e)
    (hv : value? = none → limit = none ∧ reply = .silence) (s : σ) :
    Course limit [] Accepts Late ⟨value?, [⟨.commit, reply⟩], s⟩ where
  order := ⟨[.commit], List.prefix_rfl, .inl rfl⟩
  accepted _ w hw := absurd hw List.not_mem_nil
  flawed _ hm := absurd List.mem_cons_self hm
  committed a h := absurd h (ha a)
  cause e h := .inr (.inl ⟨reply, List.mem_cons_self, he e h⟩)
  settled hk := by
    obtain ⟨rows, hx⟩ := hk
    rw [List.mem_singleton, Exchange.mk.injEq] at hx
    exact (hx.2 ▸ hg : (Reply.rows rows).IsGone).elim
  closed _ := .inr (.inr (.inr ⟨_, List.mem_cons_self, hg⟩))
  stalled h := by
    obtain ⟨hl, hs⟩ := hv h
    exact ⟨hl, _, List.mem_cons_self, hs, .inl rfl⟩

theorem commit (store : Store σ) {x : Except Failure α} (hx : ∀ e, x = .error e → Late e) (s : σ) :
    Course none [] Accepts Late (((Operation.commit x).andThen .done).run store s) := by
  simp only [Operation.commit, Operation.andThen, Program.bind, Program.run_ask]
  rcases store .commit s with ⟨rows | fault | fault | _, s⟩
  · exact of_committed hx rows s
  · exact of_uncommitted fault _ _
  · refine of_goneCommit (.lost fault) trivial (fun _ h => by cases h) (fun e he => ?_)
      (fun h => by cases h) s
    exact congrArg some (Except.error.inj (Option.some.inj he))
  · exact of_goneCommit .silence trivial (fun _ h => by cases h) (fun _ h => by cases h)
      (fun _ => ⟨rfl, rfl⟩) s

theorem step (store : Store σ) {γ : Type} {w : Request} (hc : w ≠ .commit)
    {read : List Row → Except Failure γ} (hread : ∀ rows, (∃ a, read rows = .ok a) ↔ Accepts w rows)
    {next : γ → Operation α}
    (hnext : ∀ rows a s, read rows = .ok a →
      Course none todo Accepts Late ((next a).run store s) ∧ ((next a).run store s).exchanges ≠ [])
    (s : σ) : Course none (w :: todo) Accepts Late ((Operation.step w read next).run store s) := by
  rw [Operation.step, Program.run_ask]
  rcases store w s with ⟨rows | fault | fault | _, s⟩
  · cases hr : read rows with
    | ok a =>
      obtain ⟨hcourse, hne⟩ := hnext rows a s hr
      simp only [hr]
      exact hcourse.cons hne hc ((hread rows).1 ⟨a, hr⟩)
    | error e =>
      simp only [hr]
      refine of_abandon hc (fun rows' heq ha => ?_) _ e _
      obtain rfl := Reply.rows.inj heq
      obtain ⟨a, hok⟩ := (hread rows).2 ha
      rw [hr] at hok
      cases hok
  · exact of_abandon hc (fun _ h => by cases h) _ _ _
  · exact of_gone hc (.lost fault) trivial (fun _ h => by cases h) (fun h => by cases h) _
  · exact of_gone hc .silence trivial (fun _ h => by cases h) (fun _ => ⟨rfl, rfl⟩) _

theorem of_unstarted (fault : Fault) (s : σ) :
    Course limit (.start :: todo) Accepts Late
      (⟨some (.error (.ofFault fault)), [⟨.start, .refused fault⟩], s⟩ :
        Outcome σ (Except Failure α)) where
  order := ⟨[.start], List.cons_prefix_cons.2 ⟨rfl, List.nil_prefix⟩, .inl rfl⟩
  accepted hm := by simp [Outcome.requests] at hm
  flawed _ _ := ⟨_, List.mem_cons_self, List.mem_cons_self, fun rows h => by cases h⟩
  committed a ha := by cases ha
  cause e _ := .inr (.inr (by simp [Outcome.requests]))
  settled hk := by
    obtain ⟨rows, hx⟩ := hk
    simp at hx
  closed _ := .inl ⟨fault, List.mem_cons_self⟩
  stalled hv := by cases hv

theorem inTransaction (store : Store σ) {body : Operation α}
    (hstart : ∀ rows, Accepts .start rows)
    (hbody : ∀ s, Course none todo Accepts Late (body.run store s) ∧
      (body.run store s).exchanges ≠ []) (s : σ) :
    Course none (.start :: todo) Accepts Late ((Operation.inTransaction body).run store s) := by
  rw [Operation.inTransaction, Program.run_ask]
  rcases store .start s with ⟨rows | fault | fault | _, s⟩
  · exact (hbody s).1.cons (hbody s).2 (by simp) (hstart rows)
  · exact of_unstarted fault s
  · exact of_gone (by simp) (.lost fault) trivial (fun _ h => by cases h) (fun h => by cases h) _
  · exact of_gone (by simp) .silence trivial (fun _ h => by cases h) (fun _ => ⟨rfl, rfl⟩) _

/-- Under a time limit a run that stalls fails instead. -/
theorem expire {o : Outcome σ (Except Failure α)} (h : Course none todo Accepts Late o)
    (limit : Duration) :
    Course (some limit) todo Accepts Late
      { o with value? := some (o.value?.getD (.error (.timeout limit))) } where
  order := h.order
  accepted := h.accepted
  flawed := h.flawed
  committed a ha := by
    cases hv : o.value? with
    | none => simp [hv] at ha
    | some v => exact h.committed a (by simpa [hv] using ha)
  cause e he := by
    cases hv : o.value? with
    | none =>
      obtain rfl : e = .timeout limit := by simpa [hv] using he.symm
      obtain ⟨-, ⟨request, reply⟩, hx, rfl, hor⟩ := h.stalled hv
      rcases hor with rfl | hm
      · exact .inr (.inl ⟨.silence, hx, rfl⟩)
      · exact .inr (.inr hm)
    | some v =>
      rcases h.cause e (by simpa [hv] using he) with hl | ⟨reply, hx, hr⟩ | hm
      · exact .inl hl
      · exact .inr (.inl ⟨reply, hx, reply.failure?_of_none hr⟩)
      · exact .inr (.inr hm)
  settled hk := by
    obtain ⟨v, hv, hlate⟩ := h.settled hk
    exact ⟨v, by simp [hv], hlate⟩
  closed := h.closed
  stalled hv := by cases hv

/-- A course with or without a time limit; when there is no time, it is not even begun. -/
theorem within {store : Store σ} {p : Operation α} {s : σ}
    (h : Course none todo Accepts Late (p.run store s)) (limit : Option Duration) :
    Course limit todo Accepts Late ((Operation.within limit p).run store s) := by
  cases limit with
  | none => exact h
  | some limit =>
    rw [Operation.within]
    by_cases hl : limit.nanos = 0
    · cases p with
      | done a => exact h.expire limit
      | ask request next =>
        rw [Program.within_of_noTime limit hl]
        exact of_fail _ s
      | stalled => exact h.expire limit
    · rw [Program.run_within store limit hl]
      exact h.expire limit

theorem body (store : Store σ) (p : Plan α) {Usable : List Row → Prop}
    (hread : ∀ rows, (∃ x, p.read rows = .ok x) ↔ Usable rows)
    (hlate : ∀ rows e, p.read rows = .ok (.error e) → Late e) (s : σ) :
    Course none [.start, .execute p.statement]
      (fun w rows => w = .execute p.statement → Usable rows) Late (p.body.run store s) := by
  rw [Plan.body, Operation.transaction, Operation.inTransaction_andThen, Operation.step_andThen]
  refine inTransaction store (by simp) (fun s => ⟨?_, ?_⟩) s
  · refine step store (by simp) (fun rows => by simp [hread]) (fun rows x s hx => ⟨?_, ?_⟩) s
    · exact commit store (fun e he => hlate rows e (he ▸ hx)) s
    · exact List.cons_ne_nil _ _
  · exact List.cons_ne_nil _ _

end Course

namespace Call

/-- The failure that is told although the transaction was committed. -/
def IsLate (c : Call) (e : Failure) : Prop :=
  ∃ r id, c = get r id ∧ e = Repository.notFound r id

theorem course {c : Call} {p : Plan c.Result} (h : c.plan = .ok p) (limit : Option Duration)
    (store : Store σ) (s : σ) :
    Course limit [.start, .execute p.statement]
      (fun w rows => w = .execute p.statement → c.Accepts rows) c.IsLate
      ((c.run limit).run store s) := by
  rw [run_eq, h]
  refine (Course.body store p (plan_read_ok_iff h) (fun rows e he => ?_) s).within limit
  obtain ⟨r, id, hc, hl, -⟩ := eq_get_of_plan_read h he
  exact ⟨r, id, hc, hl⟩

theorem run_of_plan_error {c : Call} {e : Failure} (h : c.plan = .error e)
    (limit : Option Duration) : c.run limit = .fail e := by
  rw [run_eq, h]
  rfl

theorem exists_plan_of_sends {c : Call} {limit : Option Duration} {statement : Statement}
    (h : (c.run limit).Sends statement) : ∃ p, c.plan = .ok p ∧ p.statement = statement := by
  obtain ⟨σ, store, s, hm⟩ := h
  cases hp : c.plan with
  | error e =>
    rw [run_of_plan_error hp] at hm
    exact absurd hm List.not_mem_nil
  | ok p =>
    refine ⟨p, rfl, ?_⟩
    obtain ⟨sent, hsent, hreq⟩ := (course hp limit store s).order
    have hm : .execute statement ∈ sent := by
      rcases hreq with hreq | hreq <;> simpa [hreq] using hm
    have hm := hsent.subset hm
    simp only [List.cons_append, List.nil_append, List.mem_cons, Request.execute.injEq,
      reduceCtorEq, List.not_mem_nil, false_or, or_false] at hm
    exact hm.symm

theorem sends_of_plan {c : Call} {p : Plan c.Result} (h : c.plan = .ok p)
    {limit : Option Duration} (hl : HasTime limit) : (c.run limit).Sends p.statement := by
  refine ⟨Unit, fun _ _ => (.rows [], ()), (), ?_⟩
  rw [run_eq, h, runPlan, Plan.run, Operation.run_within _ hl, Outcome.requests, Plan.body,
    Operation.transaction, Operation.inTransaction_andThen, Operation.step_andThen]
  exact List.mem_cons_of_mem _ List.mem_cons_self

theorem asks_of_plan {c : Call} {p : Plan c.Result} (h : c.plan = .ok p)
    {limit : Option Duration} (hl : HasTime limit) : (c.run limit).Asks := by
  have hbody : p.body.Asks := ⟨_, _, rfl⟩
  rw [run_eq, h, runPlan, Plan.run]
  cases limit with
  | none => exact hbody
  | some d => exact hbody.within (hl d rfl) _

end Call

namespace Tables

theorem defineFrom_course (store : Store σ) (texts : List String) (s : σ) :
    Course none (texts.map .define) (fun _ _ => True) (fun _ => False)
      ((defineFrom texts).run store s) ∧ ((defineFrom texts).run store s).exchanges ≠ [] := by
  refine ⟨?_, ?_⟩
  · induction texts generalizing s with
    | nil =>
      have hcommit : Operation.commit () = (Operation.commit (.ok ())).andThen .done := by
        rw [← Operation.commit_andThen_done, Operation.andThen_ok]
      rw [defineFrom, hcommit]
      exact Course.commit store (fun e he => by cases he) s
    | cons text rest ih =>
      refine Course.step store (by simp) (fun rows => by simp) (fun rows a s ha => ⟨ih s, ?_⟩) s
      cases rest <;> exact List.cons_ne_nil _ _
  · cases texts <;> exact List.cons_ne_nil _ _

end Tables

/-- Every call and the definition of the tables keep to the discipline, whatever the store replies:
a call whose arguments do not pass their checks says nothing to the store, and any other sends
nothing but its one statement in its one transaction. -/
theorem transactions_disciplined {σ : Type} (store : Store σ) (s : σ) :
    (∀ (limit : Option Duration) (c : Call),
      match c.plan with
      | .error e => (c.run limit).run store s = ⟨some (.error e), [], s⟩
      | .ok p =>
        Course limit [.start, .execute p.statement]
          (fun w rows => w = .execute p.statement → c.Accepts rows) c.IsLate
          ((c.run limit).run store s)) ∧
    Course none (.start :: Tables.definitions.map .define) (fun _ _ => True) (fun _ => False)
      (Tables.define.run store s) := by
  refine ⟨fun limit c => ?_, ?_⟩
  · cases h : c.plan with
    | error e => simp only [Call.run_of_plan_error h, Operation.fail, Program.run_done]
    | ok p => exact c.course h limit store s
  · exact Course.inTransaction store (fun _ => trivial)
      (fun s => Tables.defineFrom_course store Tables.definitions s) s

end MessageBoard
