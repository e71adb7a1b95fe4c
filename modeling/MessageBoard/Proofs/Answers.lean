import Mathlib
import MessageBoard.Proofs.Rejection
import MessageBoard.Proofs.Together

/-!
# From a plan to its response

A request that is carried out by one plan sends the statement of the plan if its transaction could
be started, and no other statement. It succeeds exactly if the store does all that it is asked and
the rows can be used; the response then tells what the plan makes of them.
-/

namespace MessageBoard

variable {σ α : Type}

/-- The store starts a transaction, answers its only statement with these rows and commits it. -/
def Store.Answers (store : Store σ) (s : σ) (statement : Statement)
    (opened rows closed : List Row) : Prop :=
  ∃ s₁ s₂ s₃, store .start s = (.rows opened, s₁) ∧
    store (.execute statement) s₁ = (.rows rows, s₂) ∧ store .commit s₂ = (.rows closed, s₃)

def Statement.carriedOut (statement : Statement) (opened rows closed : List Row) : List Exchange :=
  [⟨.start, .rows opened⟩, ⟨.execute statement, .rows rows⟩, ⟨.commit, .rows closed⟩]

def Exchange.statement? (x : Exchange) : Option Statement :=
  match x.request with
  | .execute s => some s
  | _ => none

def Outcome.statements (o : Outcome σ α) : List Statement := o.exchanges.filterMap (·.statement?)

/-! ## Runs of a plan -/

namespace Plan

/-- How a plan may go: what is said to the store, and what comes of it. -/
inductive Goes (p : Plan α) : List Exchange → Option (Except Failure α) → Prop
  | unasked {value? : Option (Except Failure α)} (hvalue : ∀ a, value? ≠ some (.ok a)) :
    Goes p [] value?
  | unstarted {reply : Reply} {value? : Option (Except Failure α)}
      (hreply : ∀ rows, reply ≠ .rows rows) (hvalue : ∀ a, value? ≠ some (.ok a)) :
      Goes p [⟨.start, reply⟩] value?
  | unused {opened : List Row} {reply : Reply} {rest : List Exchange}
      {value? : Option (Except Failure α)} (hrest : ∀ x ∈ rest, x.request = .rollback)
      (hreply : ∀ rows, reply = .rows rows → ∀ x, p.read rows ≠ .ok x)
      (hvalue : ∀ a, value? ≠ some (.ok a)) :
      Goes p (⟨.start, .rows opened⟩ :: ⟨.execute p.statement, reply⟩ :: rest) value?
  | uncommitted {opened rows : List Row} {reply : Reply} {rest : List Exchange}
      {value? : Option (Except Failure α)} (hrest : ∀ x ∈ rest, x.request = .rollback)
      (hreply : ∀ rows, reply ≠ .rows rows) (hvalue : ∀ a, value? ≠ some (.ok a)) :
      Goes p (⟨.start, .rows opened⟩ :: ⟨.execute p.statement, .rows rows⟩ ::
        ⟨.commit, reply⟩ :: rest) value?
  | committed {opened rows closed : List Row} {x : Except Failure α} (hread : p.read rows = .ok x) :
      Goes p (p.statement.carriedOut opened rows closed) (some x)

variable (store : Store σ) (p : Plan α) (s : σ)

theorem goes_commit {opened rows : List Row} {x : Except Failure α} (hread : p.read rows = .ok x) :
    p.Goes (⟨.start, .rows opened⟩ :: ⟨.execute p.statement, .rows rows⟩ ::
        (((Operation.commit x).andThen .done).run store s).exchanges)
      (((Operation.commit x).andThen .done).run store s).value? := by
  rw [Operation.commit, Operation.andThen, Program.bind, Program.run_ask]
  rcases store .commit s with ⟨reply, s'⟩
  cases reply with
  | rows closed => exact .committed hread
  | refused fault =>
    exact .uncommitted (List.forall_mem_singleton.2 rfl) (fun _ h => by cases h)
      fun _ h => by cases h
  | lost fault =>
    exact .uncommitted (List.forall_mem_nil _) (fun _ h => by cases h) fun _ h => by cases h
  | silence =>
    exact .uncommitted (List.forall_mem_nil _) (fun _ h => by cases h) fun _ h => by cases h

theorem goes_body : p.Goes (p.body.run store s).exchanges (p.body.run store s).value? := by
  rw [body, Operation.transaction, Operation.inTransaction_andThen, Operation.step_andThen,
    Operation.inTransaction, Program.run_ask]
  rcases store .start s with ⟨opening, s'⟩
  cases opening with
  | rows opened =>
    dsimp only
    rw [Operation.step, Program.run_ask]
    rcases store (.execute p.statement) s' with ⟨reply, s''⟩
    cases reply with
    | rows rows =>
      dsimp only
      cases hread : p.read rows with
      | ok x => exact p.goes_commit store s'' hread
      | error e =>
        refine .unused (List.forall_mem_singleton.2 rfl) (fun rows' hrows x hx => ?_)
          fun _ h => by cases h
        rw [Reply.rows.inj hrows, hx] at hread
        cases hread
    | refused fault =>
      exact .unused (List.forall_mem_singleton.2 rfl) (fun _ h => by cases h) fun _ h => by cases h
    | lost fault =>
      exact .unused (List.forall_mem_nil _) (fun _ h => by cases h) fun _ h => by cases h
    | silence =>
      exact .unused (List.forall_mem_nil _) (fun _ h => by cases h) fun _ h => by cases h
  | refused fault => exact .unstarted (fun _ h => by cases h) fun _ h => by cases h
  | lost fault => exact .unstarted (fun _ h => by cases h) fun _ h => by cases h
  | silence => exact .unstarted (fun _ h => by cases h) fun _ h => by cases h

theorem exchanges_body {opened rows closed : List Row} {x : Except Failure α}
    (hanswers : Store.Answers store s p.statement opened rows closed)
    (hread : p.read rows = .ok x) :
    (p.body.run store s).exchanges = p.statement.carriedOut opened rows closed := by
  obtain ⟨s₁, s₂, s₃, hstart, hexecute, hcommit⟩ := hanswers
  rw [body, Operation.transaction, Operation.inTransaction_andThen, Operation.step_andThen,
    Operation.inTransaction, Program.run_ask, hstart]
  dsimp only
  rw [Operation.step, Program.run_ask, hexecute]
  dsimp only
  rw [hread]
  dsimp only
  rw [Operation.commit, Operation.andThen, Program.bind, Program.run_ask, hcommit]
  rfl

variable {p} {xs : List Exchange} {value? : Option (Except Failure α)}

theorem Goes.expired (h : p.Goes xs value?) (e? : Option Failure) :
    p.Goes xs (value?.or (e?.map .error)) := by
  cases value? with
  | some x => exact h
  | none =>
    have hvalue (a : α) : (none : Option (Except Failure α)).or (e?.map .error) ≠ some (.ok a) := by
      cases e? <;> nofun
    cases h with
    | unasked => exact .unasked hvalue
    | unstarted hreply => exact .unstarted hreply hvalue
    | unused hrest hreply => exact .unused hrest hreply hvalue
    | uncommitted hrest hreply => exact .uncommitted hrest hreply hvalue

variable (p) in
/-- However much time there is, a plan goes in one of these ways. -/
theorem goes_run (limit : Option Duration) :
    p.Goes ((p.run limit).run store s).exchanges ((p.run limit).run store s).value? := by
  by_cases ht : HasTime limit
  · rw [run, Operation.run_within store ht]
    have hexpired := (p.goes_body store s).expired (limit.map .timeout)
    rwa [Option.map_map] at hexpired
  · obtain ⟨d, rfl, hzero⟩ := exists_of_not_hasTime ht
    have hexpired : p.run (some d) = .done (.error (.timeout d)) :=
      Program.within_of_noTime d hzero _ _ _
    rw [hexpired]
    exact .unasked fun _ h => by cases h

theorem statements_rollbacks (h : ∀ x ∈ xs, x.request = .rollback) :
    xs.filterMap (·.statement?) = [] := by
  refine List.filterMap_eq_nil_iff.2 fun x hx => ?_
  rw [Exchange.statement?, h x hx]

/-- The statement is sent if the transaction was started, and nothing else is. -/
theorem Goes.statements (h : p.Goes xs value?) :
    ((∃ rows, ⟨.start, .rows rows⟩ ∈ xs) → xs.filterMap (·.statement?) = [p.statement]) ∧
      ((¬ ∃ rows, ⟨.start, .rows rows⟩ ∈ xs) → xs.filterMap (·.statement?) = []) := by
  have hstarted {opened : List Row} {rest : List Exchange}
      (hrest : rest.filterMap (·.statement?) = [p.statement]) :
      ((∃ rows, ⟨.start, .rows rows⟩ ∈ ⟨.start, .rows opened⟩ :: rest) →
          (⟨.start, .rows opened⟩ :: rest).filterMap (·.statement?) = [p.statement]) ∧
        ((¬ ∃ rows, ⟨.start, .rows rows⟩ ∈ ⟨.start, .rows opened⟩ :: rest) →
          (⟨.start, .rows opened⟩ :: rest).filterMap (·.statement?) = []) :=
    ⟨fun _ => hrest, fun hnone => absurd ⟨opened, List.mem_cons_self⟩ hnone⟩
  cases h with
  | unasked => exact ⟨fun ⟨_, hrows⟩ => absurd hrows List.not_mem_nil, fun _ => rfl⟩
  | unstarted hreply =>
    refine ⟨fun ⟨rows, hrows⟩ => absurd ?_ (hreply rows), fun _ => rfl⟩
    exact (Exchange.mk.inj (List.mem_singleton.1 hrows)).2.symm
  | unused hrest => exact hstarted (congrArg (p.statement :: ·) (statements_rollbacks hrest))
  | uncommitted hrest =>
    have hnone := statements_rollbacks hrest
    exact hstarted (congrArg (p.statement :: ·) hnone)
  | committed => exact hstarted rfl

/-- The plan succeeds exactly if the store does all it is asked and the rows can be used. -/
theorem Goes.value_eq_ok_iff (h : p.Goes xs value?) {a : α} :
    value? = some (.ok a) ↔ ∃ opened rows closed,
      xs = p.statement.carriedOut opened rows closed ∧ p.read rows = .ok (.ok a) := by
  cases h with
  | unasked hvalue => exact iff_of_false (hvalue a) fun ⟨_, _, _, hxs, _⟩ => by cases hxs
  | unstarted _ hvalue =>
    exact iff_of_false (hvalue a) fun ⟨_, _, _, hxs, _⟩ => by simp [Statement.carriedOut] at hxs
  | @unused _ reply rest _ _ hreply hvalue =>
    refine iff_of_false (hvalue a) fun ⟨_, rows, _, hxs, hread⟩ => ?_
    simp only [Statement.carriedOut, List.cons.injEq, Exchange.mk.injEq] at hxs
    exact hreply rows hxs.2.1.2 _ hread
  | uncommitted _ hreply hvalue =>
    refine iff_of_false (hvalue a) fun ⟨_, _, closed, hxs, _⟩ => ?_
    simp only [Statement.carriedOut, List.cons.injEq, Exchange.mk.injEq] at hxs
    exact hreply closed hxs.2.2.1.2
  | @committed opened rows closed x hread =>
    constructor
    · rintro ⟨⟩
      exact ⟨opened, rows, closed, rfl, hread⟩
    · rintro ⟨_, rows', _, hxs, hread'⟩
      simp only [Statement.carriedOut, List.cons.injEq, Exchange.mk.injEq, Reply.rows.injEq]
        at hxs
      rw [hxs.2.1.2, hread'] at hread
      rw [Except.ok.inj hread]

end Plan

namespace Http

/-! ## What is told of a run -/

namespace Endpoint

def tell (status : Nat) (wire : Wire α) : Except Failure α → Response
  | .ok a => .ofJson status (wire.toJson a)
  | .error e => (Problem.ofFailure e).response

theorem run_answer (store : Store σ) (status : Nat) (wire : Wire α) (p : Operation α) (s : σ) :
    (answer status wire p).run store s =
      { p.run store s with value? := (p.run store s).value?.map (tell status wire) } := by
  have hanswer : answer status wire p = p.bind fun x => .done (tell status wire x) := by
    rw [answer]
    congr 1
    funext x
    cases x <;> rfl
  rw [hanswer, Program.run_bind]
  cases hvalue : (p.run store s).value? with
  | none => simp [hvalue]
  | some x => simp [hvalue]

end Endpoint

namespace Server

variable (server : Server)

theorem respond_eq (fresh : Uuid) {req : Request} (hm : req.method ≠ "OPTIONS") {e : Endpoint}
    (he : req.endpoint? = some e) :
    server.respond fresh req =
      (((e.run server.operationLimit fresh req).bind fun r =>
        .done (if req.method = "HEAD" then r.withoutBody else r)).within server.requestLimit
          (.ofStatus 408)).bind fun r => .done (r.addHeaders (server.originHeaders req)) := by
  obtain ⟨route, hroute, hendpoint⟩ := Option.bind_eq_some_iff.1 he
  rw [Request.routedMethod] at hendpoint
  rw [respond, if_neg hm, handle, hroute]
  dsimp only
  rw [hendpoint]

theorem finish_expired (req : Request) :
    (Response.ofStatus 408).addHeaders (server.originHeaders req) =
      server.finish req (.ofStatus 408) := by
  rw [finish]
  split <;> rfl

theorem run_respond (store : Store σ) (fresh : Uuid) {req : Request} (hm : req.method ≠ "OPTIONS")
    {e : Endpoint} (he : req.endpoint? = some e) (hr : server.requestLimit.nanos ≠ 0) (s : σ) :
    (server.respond fresh req).run store s =
      { (e.run server.operationLimit fresh req).run store s with
        value? := some (server.finish req
          (((e.run server.operationLimit fresh req).run store s).value?.getD
            (.ofStatus 408))) } := by
  rw [server.respond_eq fresh hm he, Program.run_bind, Program.run_within store _ hr,
    Program.run_bind]
  cases hvalue : ((e.run server.operationLimit fresh req).run store s).value? with
  | none => simp [hvalue, finish_expired]
  | some r => simp [hvalue, finish]

theorem respond_of_noTime (fresh : Uuid) {req : Request} (hm : req.method ≠ "OPTIONS")
    {e : Endpoint} (he : req.endpoint? = some e) (hr : server.requestLimit.nanos = 0)
    (hasks : (e.run server.operationLimit fresh req).Asks) :
    server.respond fresh req = .done (server.finish req (.ofStatus 408)) := by
  obtain ⟨request, next, hrun⟩ := hasks.bind fun r =>
    Program.done (if req.method = "HEAD" then r.withoutBody else r)
  rw [server.respond_eq fresh hm he, hrun, Program.within_of_noTime _ hr, Program.bind,
    finish_expired]

theorem status_tell {wire : Wire α} {x : Except Failure α}
    (h : (Endpoint.tell 200 wire x).status = 200) : ∃ a, x = .ok a := by
  cases x with
  | ok a => exact ⟨a, rfl⟩
  | error e =>
    have hne (p : Problem) : p.status ≠ 200 := by
      cases p <;> simp [Problem.status]
    exact absurd h (hne _)

theorem status_finish (req : Request) (r : Response) : (server.finish req r).status = r.status := by
  rw [finish]
  split <;> rfl

variable {server}

/-- A request that is carried out by a plan. -/
structure Carries (server : Server) (fresh : Uuid) (req : Request) (wire : Wire α) (p : Plan α) :
    Prop where
  method : req.method ≠ "OPTIONS"
  run : ∃ e, req.endpoint? = some e ∧ e.run server.operationLimit fresh req =
    Endpoint.answer 200 wire (p.run server.operationLimit)

namespace Carries

variable {fresh : Uuid} {req : Request} {wire : Wire α} {p : Plan α}

/-- A value is told with the status 200 exactly if it is a success. -/
theorem told_iff (x? : Option (Except Failure α)) {response : Response} :
    some (server.finish req ((x?.map (Endpoint.tell 200 wire)).getD (.ofStatus 408))) =
        some response ∧ response.status = 200 ↔
      ∃ a, x? = some (.ok a) ∧ response = server.finish req (.ofJson 200 (wire.toJson a)) := by
  constructor
  · rintro ⟨hvalue, hstatus⟩
    obtain rfl := Option.some.inj hvalue
    rw [status_finish] at hstatus
    cases x? with
    | none => cases hstatus
    | some x =>
      obtain ⟨a, rfl⟩ := status_tell hstatus
      exact ⟨a, rfl, rfl⟩
  · rintro ⟨a, rfl, rfl⟩
    rw [status_finish]
    exact ⟨rfl, rfl⟩

/-- The request goes as its plan does, and succeeds exactly if the plan does. -/
theorem goes (h : server.Carries fresh req wire p) (store : Store σ) (s : σ) :
    ∃ value?, p.Goes ((server.respond fresh req).run store s).exchanges value? ∧ ∀ response,
      ((server.respond fresh req).run store s).value? = some response ∧ response.status = 200 ↔
        ∃ a, value? = some (.ok a) ∧
          response = server.finish req (.ofJson 200 (wire.toJson a)) := by
  obtain ⟨e, he, hrun⟩ := h.run
  by_cases hr : server.requestLimit.nanos = 0
  · have hlimit : server.operationLimit = none :=
      if_pos (hr ▸ Nat.zero_le server.callLimit.nanos)
    have hasks : (e.run server.operationLimit fresh req).Asks := by
      rw [hrun, hlimit]
      exact ⟨_, _, rfl⟩
    rw [server.respond_of_noTime fresh h.method he hr hasks]
    exact ⟨none, .unasked fun _ => nofun, fun _ => told_iff none⟩
  · rw [server.run_respond store fresh h.method he hr, hrun, Endpoint.run_answer]
    exact ⟨_, p.goes_run store s server.operationLimit, fun _ => told_iff _⟩

section InTime

variable (h : server.Carries fresh req wire p) {store : Store σ} {s : σ}
  (hr : server.requestLimit.nanos ≠ 0) (hc : server.callLimit.nanos ≠ 0)

include h hr hc

theorem exchanges_eq : ((server.respond fresh req).run store s).exchanges =
    (p.body.run store s).exchanges := by
  obtain ⟨e, he, hrun⟩ := h.run
  rw [server.run_respond store fresh h.method he hr, hrun, Endpoint.run_answer, Plan.run,
    Operation.run_within store (server.hasTime_operationLimit hc)]

theorem exchanges_of_answers {opened rows closed : List Row} {x : Except Failure α}
    (hanswers : Store.Answers store s p.statement opened rows closed)
    (hread : p.read rows = .ok x) :
    ((server.respond fresh req).run store s).exchanges =
      p.statement.carriedOut opened rows closed :=
  (h.exchanges_eq hr hc).trans (p.exchanges_body store s hanswers hread)

theorem acknowledged (hstart : ∃ rows, (store .start s).1 = .rows rows) :
    ((server.respond fresh req).run store s).Acknowledged .start := by
  obtain ⟨rows, hrows⟩ := hstart
  rw [Outcome.Acknowledged, h.exchanges_eq hr hc, Plan.body, Operation.transaction,
    Operation.inTransaction_andThen, Operation.inTransaction, Program.run_ask, hrows]
  exact ⟨rows, List.mem_cons_self⟩

end InTime

end Carries

end Server

end Http

end MessageBoard
