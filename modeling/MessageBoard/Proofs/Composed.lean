import MessageBoard.Http.Server
import MessageBoard.Proofs.Call

/-!
# How responses are put together

All that the server says to its store it says by calls of the board, one after another, but for the
probe of the health check. `Server.composed_respond` goes through the endpoints once; what is kept
by the few ways in which operations are put together then holds of every response.

A vote is cast only after it was found in range.
-/

namespace MessageBoard

variable {α β : Type}

/-- A vote, if one is cast, is up, down or none. -/
def Call.InRange : Call → Prop
  | castVote _ _ _ vote => -1 ≤ vote ∧ vote ≤ 1
  | _ => True

inductive Operation.Composed : {α : Type} → Operation α → Prop
  | done {α : Type} (x : Except Failure α) : Composed (.done x)
  | call (limit : Option Duration) (c : Call) (h : c.InRange) : Composed (c.run limit)
  | andThen {α β : Type} {p : Operation α} {f : α → Operation β} (hp : Composed p)
    (hf : ∀ a, Composed (f a)) : Composed (p.andThen f)
  | optional {α : Type} {p : Operation α} (hp : Composed p) : Composed (Related.optional p)

namespace Related

open Operation

variable (limit : Option Duration)

theorem composed_run (l : Lookup) : (l.run limit).Composed := by
  cases l with
  | user id => exact .optional (.call limit (.get .user id) trivial)
  | forum id => exact .optional (.call limit (.get .forum id) trivial)
  | votes v target => exact .call limit (.sumVotes v target) trivial
  | count r column id => exact .call limit (.count r _) trivial

theorem composed_findAll (ls : List Lookup) : (findAll limit ls).Composed := by
  induction ls with
  | nil => exact .done _
  | cons l ls ih => exact (composed_run limit l).andThen fun a => ih.andThen fun as => .done _

theorem composed_details (r : Resource) (a : r.Record) : (details limit r a).Composed :=
  (composed_findAll limit _).andThen fun _ => .done _

theorem composed_collect {f : α → Operation β} (hf : ∀ a, (f a).Composed) (as : List α) :
    (collect f as).Composed := by
  induction as with
  | nil => exact .done _
  | cons a as ih => exact (hf a).andThen fun b => ih.andThen fun bs => .done _

theorem composed_get (r : Resource) (id : Uuid) : (get limit r id).Composed :=
  (Composed.call limit (.get r id) trivial).andThen (composed_details limit r)

theorem composed_list (r : Resource) (f : Filter) : (list limit r f).Composed :=
  (Composed.call limit (.list r f) trivial).andThen fun page =>
    (composed_collect (composed_details limit r) page.rows).andThen fun _ => .done _

end Related

namespace Http

inductive Composed : Program Response → Prop
  | done (r : Response) : Composed (.done r)
  | probe : Composed Endpoint.checkHealth
  | answer {α : Type} (status : Nat) (wire : Wire α) {p : Operation α} (hp : p.Composed) :
    Composed (Endpoint.answer status wire p)
  | map (g : Response → Response) {p : Program Response} (hp : Composed p) :
    Composed (p.bind fun r => .done (g r))
  | within (limit : Duration) (expired : Response) {p : Program Response} (hp : Composed p) :
    Composed (p.within limit expired)

namespace Endpoint

open Operation

variable (limit : Option Duration)

theorem composed_orProblem (x : Except Problem α) {go : α → Program Response}
    (h : ∀ a, Http.Composed (go a)) : Http.Composed (orProblem x go) := by
  cases x with
  | ok a => exact h a
  | error p => exact .done _

theorem composed_orResponse (x : Except Response α) {go : α → Program Response}
    (h : ∀ a, Http.Composed (go a)) : Http.Composed (orResponse x go) := by
  cases x with
  | ok a => exact h a
  | error r => exact .done _

theorem composed_listPage (r : Resource) (params : FilterParams) :
    Http.Composed (listPage limit r params) := by
  rw [listPage]
  by_cases hrel : params.withRelated.getD false = true
  · rw [if_pos hrel]
    exact .answer _ _ (Related.composed_list limit r _)
  · rw [if_neg hrel]
    exact .answer _ _ (.call limit (.list r _) trivial)

theorem composed_cast (v : Votable) (target : Uuid) (input : VoteInput) :
    Http.Composed (cast limit v target input) := by
  rw [cast]
  by_cases hrange : -1 ≤ input.vote ∧ input.vote ≤ 1
  · rw [VoteInput.check, if_pos hrange]
    have hcast := Composed.call limit (.castVote v target input.user input.vote) hrange
    exact .answer _ _ (hcast.andThen fun _ => .call limit (.summarizeVotes v target) trivial)
  · rw [VoteInput.check, if_neg hrange]
    exact .done _

theorem composed_findVote (v : Votable) (target user : Uuid) :
    (findVote limit v target user).Composed := by
  refine (Composed.call limit (.getVote v target user) trivial).andThen fun found => ?_
  cases found with
  | some vote => exact .done _
  | none => exact .done _

theorem composed_run (fresh : Uuid) (req : Request) (e : Endpoint) :
    Http.Composed (e.run limit fresh req) := by
  have plain (status : Nat) (c : Call) (wire : Wire c.Result) (hc : c.InRange) :
      Http.Composed (answer status wire (c.run limit)) := .answer status wire (.call limit c hc)
  cases e with
  | health => exact .probe
  | create r => exact composed_orResponse _ fun input => plain 201 (.create r fresh input) _ trivial
  | list r => exact composed_orProblem _ (composed_listPage limit r)
  | get r id => exact composed_orProblem _ fun id => plain 200 (.get r id) _ trivial
  | patch r id =>
    refine composed_orProblem _ fun id => composed_orResponse _ fun p => ?_
    exact plain 200 (.patch r (r.aim id p)) _ trivial
  | softDelete r id => exact composed_orProblem _ fun id => plain 200 (.softDelete r id) _ trivial
  | restore r id => exact composed_orProblem _ fun id => plain 200 (.restore r id) _ trivial
  | purge r id => exact composed_orProblem _ fun id => plain 200 (.purge r id) _ trivial
  | details r id =>
    exact composed_orProblem _ fun id => .answer _ _ (Related.composed_get limit r id)
  | setLocked locked id =>
    exact composed_orProblem _ fun id => plain 200 (.setLocked id locked) _ trivial
  | castVote v id =>
    exact composed_orProblem _ fun id => composed_orResponse _ (composed_cast limit v id)
  | summary v id => exact composed_orProblem _ fun id => plain 200 (.summarizeVotes v id) _ trivial
  | userVote v id user =>
    exact composed_orProblem _ fun ids => .answer _ _ (composed_findVote limit v ids.1 ids.2)

end Endpoint

theorem composed_handle (limit : Option Duration) (fresh : Uuid) (req : Request) :
    Composed (handle limit fresh req) := by
  rw [handle]
  cases Route.ofPath req.target.path with
  | none => exact .done _
  | some route =>
    dsimp only
    cases route.endpoint? (if req.method = "HEAD" then "GET" else req.method) with
    | none => exact .done _
    | some e =>
      exact .map (fun r => if req.method = "HEAD" then r.withoutBody else r)
        (Endpoint.composed_run limit fresh req e)

theorem Server.composed_respond (server : Server) (fresh : Uuid) (req : Request) :
    Composed (server.respond fresh req) := by
  rw [respond]
  by_cases hmethod : req.method = "OPTIONS"
  · rw [if_pos hmethod]
    exact .done _
  · rw [if_neg hmethod]
    exact .map (fun r => r.addHeaders (server.originHeaders req))
      ((composed_handle server.operationLimit fresh req).within _ _)

end Http

end MessageBoard
