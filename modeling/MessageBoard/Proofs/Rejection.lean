import MessageBoard.Http.Server
import MessageBoard.Proofs.Accepted
import MessageBoard.Proofs.Discipline

/-!
# Requests that are refused

`Check` lists what a request has to pass before the store is asked, in the order in which it is
looked at. Each check refuses requests of its own, whatever the other checks say, and with a
response of its own. A request gets the response of the first check that refuses it, and nothing is
sent to the store; a request that passes all of them reaches the store.

Below the interface the operations check their arguments themselves.
-/

namespace MessageBoard

variable {σ α β ε : Type}

def refusalOf : Except ε α → Option ε
  | .ok _ => none
  | .error e => some e

@[simp] theorem refusalOf_ok (a : α) : refusalOf (.ok a : Except ε α) = none := rfl

@[simp] theorem refusalOf_error (e : ε) : refusalOf (.error e : Except ε α) = some e := rfl

theorem refusalOf_eq_some {x : Except ε α} {e : ε} : refusalOf x = some e ↔ x = .error e := by
  cases x <;> simp

/-! ## Refusals of an operation -/

namespace Repository

variable (limit : Option Duration) {r : Resource}

theorem create_of_invalid (fresh : Uuid) {input : r.Input} {e : ValidationError}
    (h : r.checkInput input = .error e) : create limit r fresh input = .fail (.invalid e) := by
  rw [create, h]
  rfl

theorem patch_of_invalid {p : r.Patch} {e : ValidationError} (h : r.checkPatch p = .error e) :
    patch limit r p = .fail (.invalid e) := by
  rw [patch, h]
  rfl

theorem list_of_invalid {f : Filter} {e : FilterError} (h : f.check r.schema = .error e) :
    list limit r f = .fail (.invalidFilter e) := by
  rw [list, h]
  rfl

theorem count_of_invalid {f : Filter} {e : FilterError} (h : f.check r.schema = .error e) :
    count limit r f = .fail (.invalidFilter e) := by
  rw [count, h]
  rfl

end Repository

theorem Related.list_of_invalid (limit : Option Duration) {r : Resource} {f : Filter}
    {e : FilterError} (h : f.check r.schema = .error e) :
    list limit r f = .fail (.invalidFilter e) := by
  rw [list, Repository.list_of_invalid limit h]
  rfl

namespace Http

/-! ## The checks -/

/-- The method that a request is routed by: a head is asked for like the whole. -/
def Request.routedMethod (req : Request) : String :=
  if req.method = "HEAD" then "GET" else req.method

def Request.endpoint? (req : Request) : Option Endpoint :=
  (Route.ofPath req.target.path).bind (·.endpoint? req.routedMethod)

namespace Endpoint

variable (req : Request)

/-- What is wrong with the identifiers in the path. -/
def wrongId : Endpoint → Option Problem
  | get _ id => refusalOf (Request.pathId id)
  | patch _ id => refusalOf (Request.pathId id)
  | softDelete _ id => refusalOf (Request.pathId id)
  | restore _ id => refusalOf (Request.pathId id)
  | purge _ id => refusalOf (Request.pathId id)
  | details _ id => refusalOf (Request.pathId id)
  | setLocked _ id => refusalOf (Request.pathId id)
  | castVote _ id => refusalOf (Request.pathId id)
  | summary _ id => refusalOf (Request.pathId id)
  | userVote _ id user => refusalOf (Request.pathIds id user)
  | _ => none

def wrongBody : Endpoint → Option Response
  | create r => refusalOf (req.readBody r.inputWire)
  | patch r _ => refusalOf (req.readBody r.patchWire)
  | castVote _ _ => refusalOf (req.readBody VoteInput.wire)
  | _ => none

def wrongQuery : Endpoint → Option Problem
  | list _ => refusalOf req.query
  | _ => none

def wrongPayload : Endpoint → Option ValidationError
  | create r => (req.readBody r.inputWire).toOption.bind fun input => refusalOf (r.checkInput input)
  | patch r _ => (req.readBody r.patchWire).toOption.bind fun p => refusalOf (r.checkPatch p)
  | castVote _ _ => (req.readBody VoteInput.wire).toOption.bind fun input => refusalOf input.check
  | _ => none

def wrongFilter : Endpoint → Option FilterError
  | list r => req.query.toOption.bind fun params => refusalOf (params.toFilter.check r.schema)
  | _ => none

end Endpoint

inductive Check where
  | route
  | method
  | identifiers
  | body
  | query
  | payload
  | filter
  deriving DecidableEq

namespace Check

def all : List Check := [route, method, identifiers, body, query, payload, filter]

/-- The response of the check to a request that does not pass it. -/
def refuse (req : Request) : Check → Option Response
  | route => if Route.ofPath req.target.path = none then some (.ofStatus 404) else none
  | method => (Route.ofPath req.target.path).bind fun route =>
    if route.endpoint? req.routedMethod = none then some ⟨405, [("allow", route.allow)], .empty⟩
    else none
  | identifiers => req.endpoint?.bind fun e => e.wrongId.map Problem.response
  | body => req.endpoint?.bind (·.wrongBody req)
  | query => req.endpoint?.bind fun e => (e.wrongQuery req).map Problem.response
  | payload => req.endpoint?.bind fun e =>
    (e.wrongPayload req).map fun v => (Problem.validation v).response
  | filter => req.endpoint?.bind fun e =>
    (e.wrongFilter req).map fun v => (Problem.invalidFilter v).response

end Check

/-- The response of the first check that the request does not pass. -/
def Request.refusal? (req : Request) : Option Response := Check.all.findSome? (Check.refuse req)

def Server.finish (server : Server) (req : Request) (r : Response) : Response :=
  (if req.method = "HEAD" then r.withoutBody else r).addHeaders (server.originHeaders req)

/-! ## Refusals of an endpoint -/

namespace Endpoint

/-- The checks that look at the request beyond its route, in their order. -/
def refusal? (req : Request) (e : Endpoint) : Option Response :=
  (e.wrongId.map Problem.response).or <|
    (e.wrongBody req).or <|
      ((e.wrongQuery req).map Problem.response).or <|
        ((e.wrongPayload req).map fun v => (Problem.validation v).response).or <|
          (e.wrongFilter req).map fun v => (Problem.invalidFilter v).response

end Endpoint

theorem Request.refusal?_of_noRoute {req : Request} (h : Route.ofPath req.target.path = none) :
    req.refusal? = some (.ofStatus 404) := by
  simp [refusal?, Check.all, Check.refuse, h]

theorem Request.refusal?_of_noMethod {req : Request} {route : Route}
    (hr : Route.ofPath req.target.path = some route)
    (he : route.endpoint? req.routedMethod = none) :
    req.refusal? = some ⟨405, [("allow", route.allow)], .empty⟩ := by
  simp [refusal?, Check.all, Check.refuse, hr, he]

theorem Request.refusal?_of_endpoint {req : Request} {route : Route} {e : Endpoint}
    (hr : Route.ofPath req.target.path = some route)
    (he : route.endpoint? req.routedMethod = some e) : req.refusal? = e.refusal? req := by
  have hreq : req.endpoint? = some e := by rw [endpoint?, hr, Option.bind_some, he]
  simp only [refusal?, Check.all, Check.refuse, hreq, hr, he, List.findSome?_cons, Option.bind_some,
    reduceCtorEq, if_false, List.findSome?_nil, Endpoint.refusal?]
  cases e.wrongId <;> cases e.wrongBody req <;> cases e.wrongQuery req <;>
    cases e.wrongPayload req <;> cases e.wrongFilter req <;> rfl

namespace Endpoint

variable (limit : Option Duration)

theorem answer_fail (status : Nat) (wire : Wire α) (e : Failure) :
    answer status wire (.fail e) = .done (Problem.ofFailure e).response := rfl

theorem orProblem_of_refusal {x : Except Problem α} {go : α → Program Response}
    {later : Option Response} {response : Response}
    (h : ((refusalOf x).map Problem.response).or later = some response)
    (hgo : ∀ a, x = .ok a → later = some response → go a = .done response) :
    orProblem x go = .done response := by
  cases x with
  | error p => exact congrArg Program.done (Option.some.inj h)
  | ok a => exact hgo a rfl h

theorem orResponse_of_refusal {x : Except Response α} {go : α → Program Response}
    {later : Option Response} {response : Response}
    (h : (refusalOf x).or later = some response)
    (hgo : ∀ a, x = .ok a → later = some response → go a = .done response) :
    orResponse x go = .done response := by
  cases x with
  | error r => exact congrArg Program.done (Option.some.inj h)
  | ok a => exact hgo a rfl h

theorem exists_wrong_of_payload {x : Except Response α} {a : α} (hx : x = .ok a)
    {check : α → Checked} {response : Response}
    (h : ((x.toOption.bind fun a => refusalOf (check a)).map fun v =>
      (Problem.validation v).response).or none = some response) :
    ∃ v, check a = .error v ∧ (Problem.validation v).response = response := by
  subst hx
  cases hv : check a with
  | ok _ => simp [Except.toOption, hv] at h
  | error v => exact ⟨v, rfl, by simpa [Except.toOption, hv] using h⟩

theorem listPage_of_invalid {r : Resource} {params : FilterParams} {e : FilterError}
    (h : params.toFilter.check r.schema = .error e) :
    listPage limit r params = .done (Problem.invalidFilter e).response := by
  rw [listPage]
  by_cases hrel : params.withRelated.getD false = true
  · rw [if_pos hrel, Related.list_of_invalid limit h, answer_fail]
    rfl
  · rw [if_neg hrel, Repository.list_of_invalid limit h, answer_fail]
    rfl

theorem checkPatch_aim (id : Uuid) (r : Resource) (p : r.Patch) :
    r.checkPatch (r.aim id p) = r.checkPatch p := by
  cases r <;> rfl

/-- An endpoint gives the response of the first check that refuses the request, and asks nothing. -/
theorem run_of_refusal (fresh : Uuid) {req : Request} {e : Endpoint} {response : Response}
    (h : e.refusal? req = some response) : e.run limit fresh req = .done response := by
  cases e with
  | health => cases h
  | create r =>
    refine orResponse_of_refusal h fun input hb hp => ?_
    obtain ⟨v, hv, rfl⟩ := exists_wrong_of_payload hb hp
    rw [Repository.create_of_invalid limit fresh hv, answer_fail]
    rfl
  | list r =>
    refine orProblem_of_refusal h fun params hq hf => ?_
    rw [wrongFilter, hq] at hf
    cases hv : params.toFilter.check r.schema with
    | ok _ => simp [Except.toOption, hv, wrongPayload] at hf
    | error v =>
      rw [listPage_of_invalid limit hv]
      simpa [Except.toOption, hv, wrongPayload] using hf
  | patch r id =>
    refine orProblem_of_refusal h fun id _ h => ?_
    refine orResponse_of_refusal h fun p hb hp => ?_
    obtain ⟨v, hv, rfl⟩ := exists_wrong_of_payload hb hp
    rw [Repository.patch_of_invalid limit ((checkPatch_aim id r p).trans hv), answer_fail]
    rfl
  | castVote v id =>
    refine orProblem_of_refusal h fun id _ h => ?_
    refine orResponse_of_refusal h fun input hb hp => ?_
    obtain ⟨e, hv, rfl⟩ := exists_wrong_of_payload hb hp
    rw [cast, hv]
  | get r id => exact orProblem_of_refusal h fun _ _ h => by cases h
  | softDelete r id => exact orProblem_of_refusal h fun _ _ h => by cases h
  | restore r id => exact orProblem_of_refusal h fun _ _ h => by cases h
  | purge r id => exact orProblem_of_refusal h fun _ _ h => by cases h
  | details r id => exact orProblem_of_refusal h fun _ _ h => by cases h
  | setLocked locked id => exact orProblem_of_refusal h fun _ _ h => by cases h
  | summary v id => exact orProblem_of_refusal h fun _ _ h => by cases h
  | userVote v id user => exact orProblem_of_refusal h fun _ _ h => by cases h

/-! ## Requests that pass -/

theorem asks_of_orProblem {x : Except Problem α} {go : α → Program Response}
    {later : Option Response} (h : ((refusalOf x).map Problem.response).or later = none)
    (hgo : ∀ a, x = .ok a → later = none → (go a).Asks) : (orProblem x go).Asks := by
  cases x with
  | error p => cases h
  | ok a => exact hgo a rfl h

theorem asks_of_orResponse {x : Except Response α} {go : α → Program Response}
    {later : Option Response} (h : (refusalOf x).or later = none)
    (hgo : ∀ a, x = .ok a → later = none → (go a).Asks) : (orResponse x go).Asks := by
  cases x with
  | error r => cases h
  | ok a => exact hgo a rfl h

theorem payload_ok {x : Except Response α} {a : α} (hx : x = .ok a) {check : α → Checked}
    (h : ((x.toOption.bind fun a => refusalOf (check a)).map fun v =>
      (Problem.validation v).response).or none = none) : check a = .ok () := by
  subst hx
  cases hv : check a with
  | ok _ => rfl
  | error v => simp [Except.toOption, hv] at h

variable {limit}

theorem asks_listPage (hl : HasTime limit) {r : Resource} {params : FilterParams}
    (h : params.toFilter.check r.schema = .ok ()) : (listPage limit r params).Asks := by
  have hlist : (Repository.list limit r params.toFilter).Asks :=
    Call.asks_of_plan (c := .list r params.toFilter)
      (Call.plan_list_eq_ok_iff_accepted.2 ⟨Filter.check_eq_ok_iff.1 h, rfl⟩) hl
  rw [listPage]
  by_cases hrel : params.withRelated.getD false = true
  · rw [if_pos hrel]
    exact Program.Asks.bind (hlist.andThen _) _
  · rw [if_neg hrel]
    exact hlist.bind _

/-- A request that passes every check reaches the store. -/
theorem asks_of_not_refused (hl : HasTime limit) (fresh : Uuid) {req : Request} {e : Endpoint}
    (h : e.refusal? req = none) : (e.run limit fresh req).Asks := by
  cases e with
  | health => exact ⟨_, _, rfl⟩
  | create r =>
    refine asks_of_orResponse h fun input hb hp => ?_
    have hv : r.checkInput input = .ok () := payload_ok hb hp
    refine Program.Asks.bind ?_ _
    exact Call.asks_of_plan (Call.plan_create_of_ok fresh hv) hl
  | list r =>
    refine asks_of_orProblem h fun params hq hf => asks_listPage hl ?_
    rw [wrongFilter, hq] at hf
    cases hv : params.toFilter.check r.schema with
    | ok _ => rfl
    | error v => simp [Except.toOption, hv, wrongPayload] at hf
  | patch r id =>
    refine asks_of_orProblem h fun id _ h => ?_
    refine asks_of_orResponse h fun p hb hp => ?_
    have hv : r.checkPatch (r.aim id p) = .ok () := (checkPatch_aim id r p).trans (payload_ok hb hp)
    exact Program.Asks.bind (Call.asks_of_plan (Call.plan_patch_of_ok hv) hl) _
  | castVote v id =>
    refine asks_of_orProblem h fun id _ h => ?_
    refine asks_of_orResponse h fun input hb hp => ?_
    rw [cast, payload_ok hb hp]
    have hcast : (Ballot.cast limit v id input.user input.vote).Asks :=
      Call.asks_of_plan (c := .castVote v id input.user input.vote) rfl hl
    exact Program.Asks.bind (hcast.andThen _) _
  | get r id =>
    refine asks_of_orProblem h fun id _ _ => Program.Asks.bind ?_ _
    exact Call.asks_of_plan (c := .get r id) rfl hl
  | softDelete r id =>
    refine asks_of_orProblem h fun id _ _ => Program.Asks.bind ?_ _
    exact Call.asks_of_plan (c := .softDelete r id) rfl hl
  | restore r id =>
    refine asks_of_orProblem h fun id _ _ => Program.Asks.bind ?_ _
    exact Call.asks_of_plan (c := .restore r id) rfl hl
  | purge r id =>
    refine asks_of_orProblem h fun id _ _ => Program.Asks.bind ?_ _
    exact Call.asks_of_plan (c := .purge r id) rfl hl
  | details r id =>
    refine asks_of_orProblem h fun id _ _ => Program.Asks.bind ?_ _
    have hget : (Repository.get limit r id).Asks := Call.asks_of_plan (c := .get r id) rfl hl
    exact hget.andThen _
  | setLocked locked id =>
    refine asks_of_orProblem h fun id _ _ => Program.Asks.bind ?_ _
    exact Call.asks_of_plan (c := .setLocked id locked) rfl hl
  | summary v id =>
    refine asks_of_orProblem h fun id _ _ => Program.Asks.bind ?_ _
    exact Call.asks_of_plan (c := .summarizeVotes v id) rfl hl
  | userVote v id user =>
    refine asks_of_orProblem h fun ids _ _ => Program.Asks.bind ?_ _
    have hget : (Ballot.get limit v ids.1 ids.2).Asks :=
      Call.asks_of_plan (c := .getVote v ids.1 ids.2) rfl hl
    exact hget.andThen _

end Endpoint

/-! ## The responses to refused requests -/

def Response.IsClientError (r : Response) : Prop := 400 ≤ r.status ∧ r.status < 500

theorem Problem.isClientError {p : Problem} (h : p.status = 400) : p.response.IsClientError := by
  have hs : p.response.status = 400 := h
  rw [Response.IsClientError, hs]
  decide

namespace Request

theorem status_of_readId {field raw : String} {p : Problem} (h : readId field raw = .error p) :
    p.status = 400 := by
  rw [readId] at h
  cases hu : Uuid.ofText raw with
  | some id => simp [hu] at h
  | none =>
    rw [hu] at h
    obtain rfl := Except.error.inj h
    rfl

theorem status_of_pathId {raw : List Char} {p : Problem} (h : pathId raw = .error p) :
    p.status = 400 := by
  rw [pathId] at h
  cases hs : segment? raw with
  | some text =>
    rw [hs] at h
    exact status_of_readId h
  | none =>
    rw [hs] at h
    obtain rfl := Except.error.inj h
    rfl

theorem status_of_pathIds {first second : List Char} {p : Problem}
    (h : pathIds first second = .error p) : p.status = 400 := by
  rw [pathIds] at h
  cases ha : segment? first with
  | none =>
    rw [ha] at h
    obtain rfl := Except.error.inj h
    rfl
  | some a =>
    cases hb : segment? second with
    | none =>
      rw [ha, hb] at h
      obtain rfl := Except.error.inj h
      rfl
    | some b =>
      rw [ha, hb] at h
      cases hi : readId "id" a with
      | error q =>
        simp only [hi] at h
        obtain rfl := Except.error.inj h
        exact status_of_readId hi
      | ok id =>
        cases hu : readId "user_id" b with
        | error q =>
          simp only [hi, hu] at h
          obtain rfl := Except.error.inj h
          exact status_of_readId hu
        | ok user =>
          simp only [hi, hu] at h
          cases h

theorem isClientError_of_readBody {wire : Wire α} {req : Request} {response : Response}
    (h : req.readBody wire = .error response) : response.IsClientError := by
  rw [readBody] at h
  by_cases ht : ¬ ((req.header? "content-type").map MediaType.isJson).getD false
  · rw [if_pos ht] at h
    obtain rfl := Except.error.inj h
    exact ⟨by decide, by decide⟩
  · rw [if_neg ht] at h
    by_cases hl : maxBodyLength < req.body.length
    · rw [if_pos hl] at h
      obtain rfl := Except.error.inj h
      exact ⟨by decide, by decide⟩
    · rw [if_neg hl] at h
      cases hw : wire.ofChars (Text.Utf8.decode req.body) with
      | ok a => simp [hw] at h
      | error wrong =>
        rw [hw] at h
        cases wrong with
        | malformed =>
          obtain rfl := Except.error.inj h
          exact ⟨by decide, by decide⟩
        | mismatch =>
          obtain rfl := Except.error.inj h
          exact ⟨by decide, by decide⟩

theorem status_of_query {req : Request} {p : Problem} (h : req.query = .error p) :
    p.status = 400 := by
  rw [query] at h
  cases hq : FilterParams.ofQuery (req.target.query.getD []) with
  | ok params => simp [hq] at h
  | error e =>
    rw [hq] at h
    obtain rfl := Except.error.inj h
    rfl

end Request

namespace Endpoint

theorem status_of_wrongId {e : Endpoint} {p : Problem} (h : e.wrongId = some p) :
    p.status = 400 := by
  have one (id : List Char) (h : refusalOf (Request.pathId id) = some p) : p.status = 400 :=
    Request.status_of_pathId (refusalOf_eq_some.1 h)
  cases e with
  | health => cases h
  | create r => cases h
  | list r => cases h
  | get r id => exact one id h
  | patch r id => exact one id h
  | softDelete r id => exact one id h
  | restore r id => exact one id h
  | purge r id => exact one id h
  | details r id => exact one id h
  | setLocked locked id => exact one id h
  | castVote v id => exact one id h
  | summary v id => exact one id h
  | userVote v id user => exact Request.status_of_pathIds (refusalOf_eq_some.1 h)

theorem isClientError_of_wrongBody {req : Request} {e : Endpoint} {response : Response}
    (h : e.wrongBody req = some response) : response.IsClientError := by
  cases e with
  | create r => exact Request.isClientError_of_readBody (refusalOf_eq_some.1 h)
  | patch r id => exact Request.isClientError_of_readBody (refusalOf_eq_some.1 h)
  | castVote v id => exact Request.isClientError_of_readBody (refusalOf_eq_some.1 h)
  | _ => cases h

theorem status_of_wrongQuery {req : Request} {e : Endpoint} {p : Problem}
    (h : e.wrongQuery req = some p) : p.status = 400 := by
  cases e with
  | list r => exact Request.status_of_query (refusalOf_eq_some.1 h)
  | _ => cases h

end Endpoint

theorem Check.isClientError_of_refuse {req : Request} {c : Check} {response : Response}
    (h : c.refuse req = some response) : response.IsClientError := by
  cases c with
  | route =>
    rw [refuse] at h
    by_cases hr : Route.ofPath req.target.path = none
    · rw [if_pos hr] at h
      obtain rfl := Option.some.inj h
      exact ⟨by decide, by decide⟩
    · rw [if_neg hr] at h
      cases h
  | method =>
    obtain ⟨route, -, h⟩ := Option.bind_eq_some_iff.1 h
    by_cases he : route.endpoint? req.routedMethod = none
    · rw [if_pos he] at h
      obtain rfl := Option.some.inj h
      exact (by decide : 400 ≤ 405 ∧ 405 < 500)
    · rw [if_neg he] at h
      cases h
  | identifiers =>
    obtain ⟨e, -, h⟩ := Option.bind_eq_some_iff.1 h
    obtain ⟨p, hp, rfl⟩ := Option.map_eq_some_iff.1 h
    exact Problem.isClientError (e.status_of_wrongId hp)
  | body =>
    obtain ⟨e, -, h⟩ := Option.bind_eq_some_iff.1 h
    exact e.isClientError_of_wrongBody h
  | query =>
    obtain ⟨e, -, h⟩ := Option.bind_eq_some_iff.1 h
    obtain ⟨p, hp, rfl⟩ := Option.map_eq_some_iff.1 h
    exact Problem.isClientError (e.status_of_wrongQuery hp)
  | payload =>
    obtain ⟨e, -, h⟩ := Option.bind_eq_some_iff.1 h
    obtain ⟨v, -, rfl⟩ := Option.map_eq_some_iff.1 h
    exact Problem.isClientError rfl
  | filter =>
    obtain ⟨e, -, h⟩ := Option.bind_eq_some_iff.1 h
    obtain ⟨v, -, rfl⟩ := Option.map_eq_some_iff.1 h
    exact Problem.isClientError rfl

theorem Request.isClientError_of_refusal {req : Request} {response : Response}
    (h : req.refusal? = some response) : response.IsClientError := by
  obtain ⟨c, -, hc⟩ := List.exists_of_findSome?_eq_some h
  exact Check.isClientError_of_refuse hc

/-! ## The server -/

theorem handle_of_refusal (limit : Option Duration) (fresh : Uuid) {req : Request}
    {response : Response} (h : req.refusal? = some response) :
    handle limit fresh req =
      .done (if req.method = "HEAD" then response.withoutBody else response) := by
  rw [handle]
  cases hr : Route.ofPath req.target.path with
  | none =>
    rw [Request.refusal?_of_noRoute hr] at h
    obtain rfl := Option.some.inj h
    by_cases hh : req.method = "HEAD" <;> simp [hh, Response.withoutBody, Response.ofStatus]
  | some route =>
    cases he : route.endpoint? req.routedMethod with
    | none =>
      rw [Request.refusal?_of_noMethod hr he] at h
      obtain rfl := Option.some.inj h
      rw [Request.routedMethod] at he
      simp only [he]
      by_cases hh : req.method = "HEAD" <;> simp [hh, Response.withoutBody]
    | some e =>
      rw [Request.refusal?_of_endpoint hr he] at h
      rw [Request.routedMethod] at he
      simp only [he, Endpoint.run_of_refusal limit fresh h, Program.bind]

theorem asks_handle {limit : Option Duration} (hl : HasTime limit) (fresh : Uuid) {req : Request}
    (h : req.refusal? = none) : (handle limit fresh req).Asks := by
  rw [handle]
  cases hr : Route.ofPath req.target.path with
  | none =>
    rw [Request.refusal?_of_noRoute hr] at h
    cases h
  | some route =>
    cases he : route.endpoint? req.routedMethod with
    | none =>
      rw [Request.refusal?_of_noMethod hr he] at h
      cases h
    | some e =>
      rw [Request.refusal?_of_endpoint hr he] at h
      rw [Request.routedMethod] at he
      simp only [he]
      exact (Endpoint.asks_of_not_refused hl fresh h).bind _

namespace Server

variable (server : Server)

theorem respond_of_refusal (fresh : Uuid) {req : Request} (hm : req.method ≠ "OPTIONS")
    {response : Response} (h : req.refusal? = some response) :
    server.respond fresh req = .done (server.finish req response) := by
  rw [respond, if_neg hm, handle_of_refusal _ fresh h]
  rfl

theorem hasTime_operationLimit (h : server.callLimit.nanos ≠ 0) :
    HasTime server.operationLimit := by
  intro d hd
  rw [operationLimit] at hd
  by_cases hle : server.requestLimit.nanos ≤ server.callLimit.nanos
  · rw [if_pos hle] at hd
    cases hd
  · rw [if_neg hle] at hd
    obtain rfl := Option.some.inj hd
    exact h

theorem asks_respond (hr : server.requestLimit.nanos ≠ 0) (hc : server.callLimit.nanos ≠ 0)
    (fresh : Uuid) {req : Request} (hm : req.method ≠ "OPTIONS") (h : req.refusal? = none) :
    (server.respond fresh req).Asks := by
  rw [respond, if_neg hm]
  have hhandle := asks_handle (server.hasTime_operationLimit hc) fresh h
  exact Program.Asks.bind (hhandle.within hr _) _

end Server

end Http

/-- What is refused never reaches the store. A request gets the response of the first check that it
does not pass, whatever the store is, and only such a request leaves the store unasked; an operation
tells what is wrong with its argument and is over. -/
theorem refused_unasked :
    (∀ (server : Http.Server) (fresh : Uuid) (req : Http.Request), req.method ≠ "OPTIONS" →
      (∀ response, req.refusal? = some response →
        (server.finish req response).IsClientError ∧
        ∀ (σ : Type) (store : Store σ) (s : σ),
          (server.respond fresh req).run store s = ⟨some (server.finish req response), [], s⟩) ∧
      (req.refusal? = none → server.requestLimit.nanos ≠ 0 → server.callLimit.nanos ≠ 0 →
        ∀ (σ : Type) (store : Store σ) (s : σ),
          ((server.respond fresh req).run store s).exchanges ≠ [])) ∧
    (∀ (limit : Option Duration) (r : Resource),
      (∀ f e, f.check r.schema = .error e →
        Repository.list limit r f = .fail (.invalidFilter e) ∧
        Repository.count limit r f = .fail (.invalidFilter e) ∧
        Related.list limit r f = .fail (.invalidFilter e)) ∧
      (∀ fresh input e, r.checkInput input = .error e →
        Repository.create limit r fresh input = .fail (.invalid e)) ∧
      (∀ p e, r.checkPatch p = .error e → Repository.patch limit r p = .fail (.invalid e))) := by
  refine ⟨fun server fresh req hm => ⟨fun response h => ⟨?_, fun σ store s => ?_⟩,
    fun h hr hc σ store s => ?_⟩, fun limit r => ⟨fun f e h => ⟨?_, ?_, ?_⟩,
    fun fresh input e h => ?_, fun p e h => ?_⟩⟩
  · have hs : (server.finish req response).status = response.status := by
      by_cases hh : req.method = "HEAD" <;>
        simp [Http.Server.finish, hh, Http.Response.addHeaders, Http.Response.withoutBody]
    rw [Http.Response.IsClientError, hs]
    exact Http.Request.isClientError_of_refusal h
  · rw [server.respond_of_refusal fresh hm h, Program.run_done]
  · exact (server.asks_respond hr hc fresh hm h).exchanges_ne_nil store s
  · exact Repository.list_of_invalid limit h
  · exact Repository.count_of_invalid limit h
  · exact Related.list_of_invalid limit h
  · exact Repository.create_of_invalid limit fresh h
  · exact Repository.patch_of_invalid limit h

/-- A request with a bad identifier and without a type of its body is refused for the identifier, by
any store, and an empty page never makes it into a statement. -/
theorem bad_patch_unasked :
    let server : Http.Server := ⟨8080, false, ⟨30000000000⟩, ⟨5000000000⟩⟩
    let req : Http.Request := ⟨"PATCH", ⟨"/api/v1/users/nobody".toList, none⟩, [], []⟩
    let problem := Http.Problem.validation (.invalidFormat "id" "invalid UUID format")
    (∀ (store : Store Nat) (s : Nat),
      (server.respond .zero req).run store s = ⟨some problem.response, [], s⟩) ∧
    Repository.list none .user (.ofSettings [.pageSize 0]) =
      .fail (.invalidFilter (.pageSize 0 1000)) := by
  intro server req problem
  have hrefused : req.refusal? = some problem.response := rfl
  refine ⟨fun store s => ?_, ?_⟩
  · exact ((refused_unasked.1 server .zero req (by decide)).1 _ hrefused).2 Nat store s
  · exact ((refused_unasked.2 none .user).1 _ _ rfl).1

end MessageBoard
