import Mathlib
import MessageBoard.Http.Server
import MessageBoard.Proofs.Gathering
import MessageBoard.Proofs.Return

/-!
# Pages that may read responses

No handler says which pages may read its response: `Server.yields_handle` goes through what every
program of an endpoint can come to. The server says so itself, of every response alike, after the
time limit has been looked at. What it says is made of the request's own origin and of the port of
the server, and of nothing else.
-/

namespace MessageBoard

variable {σ α β : Type}

/-! ## What programs come to -/

namespace Program

/-- Whatever the store replies, what the program comes to, if to anything, has the property. -/
inductive Yields (P : α → Prop) : Program α → Prop
  | done {a : α} (h : P a) : Yields P (.done a)
  | ask {request : Request} {next : Reply → Program α} (h : ∀ reply, Yields P (next reply)) :
    Yields P (.ask request next)
  | stalled : Yields P .stalled

namespace Yields

variable {P : α → Prop} {Q : β → Prop} {p q : Program α}

theorem of_forall (h : ∀ a, P a) (p : Program α) : p.Yields P := by
  induction p with
  | done a => exact .done (h a)
  | ask request next ih => exact .ask ih
  | stalled => exact .stalled

theorem bind (h : p.Yields P) {f : α → Program β} (hf : ∀ a, P a → (f a).Yields Q) :
    (p.bind f).Yields Q := by
  induction h with
  | @done a h => exact hf a h
  | ask _ ih => exact .ask ih
  | stalled => exact .stalled

theorem orElse (h : p.Yields P) (hq : q.Yields P) : (p.orElse q).Yields P := by
  induction h with
  | done h => exact .done h
  | ask _ ih => exact .ask ih
  | stalled => exact hq

theorem within (h : p.Yields P) (limit : Duration) {expired : α} (hexpired : P expired) :
    (p.within limit expired).Yields P := by
  cases h with
  | done h => exact .done h
  | ask h =>
    rw [Program.within]
    by_cases hl : limit.nanos = 0
    · rw [if_pos hl]
      exact .done hexpired
    · rw [if_neg hl]
      exact (Yields.ask h).orElse (.done hexpired)
  | stalled => exact .done hexpired

theorem of_run (h : p.Yields P) {store : Store σ} {s : σ} {a : α}
    (ha : (p.run store s).value? = some a) : P a := by
  induction h generalizing s with
  | done h => exact Option.some.inj ha ▸ h
  | ask _ ih => exact ih _ ha
  | stalled => cases ha

end Yields

end Program

namespace Http

/-! ## Responses of handlers -/

def Response.readers (r : Response) : List String := inputs r.headers "access-control-allow-origin"

def Response.IsSilent (r : Response) : Prop := r.readers = []

namespace Response

theorem isSilent_ofStatus (status : Nat) : (ofStatus status).IsSilent := rfl

theorem isSilent_of_header {r : Response} {name value : String} (hr : r.headers = [(name, value)])
    (hname : name ≠ "access-control-allow-origin") : r.IsSilent := by
  rw [IsSilent, readers, hr, inputs_cons_of_ne hname, inputs_nil]

theorem isSilent_ofJson (status : Nat) (j : Json) : (ofJson status j).IsSilent :=
  isSilent_of_header rfl (by decide)

theorem isSilent_ofText (status : Nat) (s : String) : (ofText status s).IsSilent :=
  isSilent_of_header rfl (by decide)

theorem readers_addHeaders {r : Response} (h : r.IsSilent) (headers : List (String × String)) :
    (r.addHeaders headers).readers = inputs headers "access-control-allow-origin" := by
  have hr : inputs r.headers "access-control-allow-origin" = [] := h
  rw [readers, addHeaders, inputs, List.filterMap_append]
  exact congrArg (· ++ _) hr

end Response

theorem Request.isSilent_of_readBody {wire : Wire α} {req : Request} {response : Response}
    (h : req.readBody wire = .error response) : response.IsSilent := by
  have hsilent {status : Nat} {text : String} {x : Except Response α} (hx : x = .error response)
      (h : x = .error (.ofText status text)) : response.IsSilent :=
    Except.error.inj (hx.symm.trans h) ▸ Response.isSilent_ofText status text
  rw [readBody] at h
  split at h
  · exact hsilent h rfl
  · split at h
    · exact hsilent h rfl
    · split at h
      · cases h
      · exact hsilent h rfl
      · exact hsilent h rfl

namespace Endpoint

open Program (Yields)

variable (limit : Option Duration)

theorem yields_answer (status : Nat) (wire : Wire α) (p : Operation α) :
    (answer status wire p).Yields Response.IsSilent := by
  refine (Yields.of_forall (fun _ => trivial) p).bind fun x _ => ?_
  cases x with
  | ok a => exact .done (Response.isSilent_ofJson _ _)
  | error e => exact .done (Response.isSilent_ofJson _ _)

theorem yields_checkHealth : checkHealth.Yields Response.IsSilent := .ask fun reply => by
  cases reply with
  | silence => exact .stalled
  | _ => exact .done (Response.isSilent_ofJson _ _)

theorem yields_orProblem (x : Except Problem α) {go : α → Program Response}
    (h : ∀ a, (go a).Yields Response.IsSilent) : (orProblem x go).Yields Response.IsSilent := by
  cases x with
  | ok a => exact h a
  | error p => exact .done (Response.isSilent_ofJson _ _)

theorem yields_orResponse (wire : Wire α) (req : Request) {go : α → Program Response}
    (h : ∀ a, (go a).Yields Response.IsSilent) :
    (orResponse (req.readBody wire) go).Yields Response.IsSilent := by
  cases hx : req.readBody wire with
  | ok a => exact h a
  | error r => exact .done (Request.isSilent_of_readBody hx)

theorem yields_listPage (r : Resource) (params : FilterParams) :
    (listPage limit r params).Yields Response.IsSilent := by
  rw [listPage]
  split
  · exact yields_answer _ _ _
  · exact yields_answer _ _ _

theorem yields_cast (v : Votable) (target : Uuid) (input : VoteInput) :
    (cast limit v target input).Yields Response.IsSilent := by
  rw [cast]
  split
  · exact .done (Response.isSilent_ofJson _ _)
  · exact yields_answer _ _ _

theorem yields_run (fresh : Uuid) (req : Request) (e : Endpoint) :
    (e.run limit fresh req).Yields Response.IsSilent := by
  cases e with
  | health => exact yields_checkHealth
  | create r => exact yields_orResponse _ req fun _ => yields_answer _ _ _
  | list r => exact yields_orProblem _ (yields_listPage limit r)
  | patch r id =>
    exact yields_orProblem _ fun _ => yields_orResponse _ req fun _ => yields_answer _ _ _
  | castVote v id =>
    exact yields_orProblem _ fun id => yields_orResponse _ req (yields_cast limit v id)
  | _ => exact yields_orProblem _ fun _ => yields_answer _ _ _

end Endpoint

theorem yields_handle (limit : Option Duration) (fresh : Uuid) (req : Request) :
    (handle limit fresh req).Yields Response.IsSilent := by
  rw [handle]
  cases Route.ofPath req.target.path with
  | none => exact .done (Response.isSilent_ofStatus 404)
  | some route =>
    dsimp only
    cases route.endpoint? (if req.method = "HEAD" then "GET" else req.method) with
    | none => exact .done (Response.isSilent_of_header rfl (by decide))
    | some e =>
      refine (Endpoint.yields_run limit fresh req e).bind fun r hr => .done ?_
      split
      · exact hr
      · exact hr

/-! ## Responses of the server -/

namespace Server

/-- The pages on this machine: those on the port of the server and those under development. -/
def localPages (port : UInt16) : List String :=
  ["http://localhost:3000", "http://127.0.0.1:3000", "http://localhost:" ++ toString port.toNat,
    "http://127.0.0.1:" ++ toString port.toNat]

theorem star_notMem_localPages (port : UInt16) : "*" ∉ localPages port := by
  have hscheme : ∀ page ∈ localPages port, page.toList.head? = some 'h' := by
    simp [localPages]
  exact fun h => absurd (hscheme "*" h) (by decide)

variable (server : Server)

/-- Who may read the response to a page of this origin. -/
def readersFor (origin? : Option String) : List String :=
  if server.permissive then ["*"]
  else (origin?.filter (· ∈ localPages server.port)).toList

theorem localOrigins_eq : server.localOrigins = localPages server.port := rfl

theorem inputs_originHeaders (req : Request) :
    inputs (server.originHeaders req) "access-control-allow-origin" =
      server.readersFor (req.header? "origin") := by
  rw [originHeaders, readersFor, localOrigins_eq]
  split
  · exact inputs_cons_self
  · cases req.header? "origin" with
    | none => rfl
    | some origin =>
      dsimp only
      by_cases h : origin ∈ localPages server.port
      · rw [if_pos (List.contains_iff_mem.2 h), Option.filter_some, if_pos (decide_eq_true h)]
        exact inputs_cons_self
      · rw [if_neg (mt List.contains_iff_mem.1 h), Option.filter_some, if_neg (by simpa using h)]
        rfl

theorem readers_preflight (req : Request) :
    (server.preflight req).readers = server.readersFor (req.header? "origin") := by
  have hothers : inputs
      ([("access-control-allow-methods", "*"), ("access-control-allow-headers", "*")] ++
        ((Route.ofPath req.target.path).map fun route => ("allow", route.allow)).toList)
      "access-control-allow-origin" = [] := by
    cases Route.ofPath req.target.path <;> rfl
  rw [← inputs_originHeaders, Response.readers, preflight, List.append_assoc, inputs,
    List.filterMap_append]
  exact (congrArg (_ ++ ·) hothers).trans (List.append_nil _)

/-- Every request is responded to, and the response says who may read it. -/
theorem exists_response (fresh : Uuid) (req : Request) (store : Store σ) (s : σ) :
    ∃ response, ((server.respond fresh req).run store s).value? = some response ∧
      response.readers = server.readersFor (req.header? "origin") := by
  rw [respond]
  by_cases hmethod : req.method = "OPTIONS"
  · rw [if_pos hmethod]
    exact ⟨_, rfl, server.readers_preflight req⟩
  · rw [if_neg hmethod, Program.run_bind]
    have hreturns : ((handle server.operationLimit fresh req).within server.requestLimit
        (.ofStatus 408)).Returns (some server.requestLimit) := .within _ _ _
    obtain ⟨r, hr⟩ := hreturns.exists_value? store s nofun
    have hsilent : r.IsSilent :=
      ((yields_handle server.operationLimit fresh req).within server.requestLimit
        (Response.isSilent_ofStatus 408)).of_run hr
    simp only [hr, Program.run_done]
    exact ⟨_, rfl, (Response.readers_addHeaders hsilent _).trans (server.inputs_originHeaders req)⟩

end Server

end Http

open Http

/-- Unless the server lets everyone in, a response says exactly if its request comes from a page on
this machine that this page may read it, and names no other page: on the port of the server or on
that of pages under development, letter by letter. This goes for every response, whatever the store
does and however long it takes, and so responses to requests from one page agree in it. Someone who
only asks what may be asked is told without a word to the store. -/
theorem only_local_origins_allowed :
    (∀ (server : Server) (fresh : Uuid) (req : Http.Request) (σ : Type) (store : Store σ) (s : σ),
      ∃ response, ((server.respond fresh req).run store s).value? = some response ∧
        (server.permissive = true → response.readers = ["*"]) ∧
        (server.permissive = false →
          (∀ origin, origin ∈ response.readers ↔
            req.header? "origin" = some origin ∧ origin ∈ Server.localPages server.port) ∧
          response.readers.length ≤ 1 ∧ "*" ∉ response.readers) ∧
        (req.method = "OPTIONS" →
          (server.respond fresh req).run store s = ⟨some response, [], s⟩)) ∧
    ∀ (server server' : Server) (fresh fresh' : Uuid) (req req' : Http.Request) (σ τ : Type)
        (store : Store σ) (store' : Store τ) (s : σ) (s' : τ) (response response' : Response),
      server.permissive = server'.permissive → server.port = server'.port →
        req.header? "origin" = req'.header? "origin" →
        ((server.respond fresh req).run store s).value? = some response →
        ((server'.respond fresh' req').run store' s').value? = some response' →
        response.readers = response'.readers := by
  constructor
  · intro server fresh req σ store s
    obtain ⟨response, hvalue, hreaders⟩ := server.exists_response fresh req store s
    refine ⟨response, hvalue, fun hpermissive => ?_, fun hlocal => ?_, fun hmethod => ?_⟩
    · rw [hreaders, Server.readersFor, if_pos hpermissive]
    · rw [Server.readersFor, if_neg (by simp [hlocal])] at hreaders
      have hmem (origin : String) : origin ∈ response.readers ↔
          req.header? "origin" = some origin ∧ origin ∈ Server.localPages server.port := by
        rw [hreaders, Option.mem_toList, Option.filter_eq_some_iff, decide_eq_true_eq]
      refine ⟨hmem, ?_, fun hstar => ?_⟩
      · rw [hreaders]
        exact Option.length_toList_le
      · exact Server.star_notMem_localPages server.port ((hmem "*").1 hstar).2
    · rw [Server.respond, if_pos hmethod, Program.run_done] at hvalue ⊢
      rw [Option.some.inj hvalue]
  · intro server server' fresh fresh' req req' σ τ store store' s s' response response' hpermissive
      hport horigin hvalue hvalue'
    obtain ⟨r, hr, hreaders⟩ := server.exists_response fresh req store s
    obtain ⟨r', hr', hreaders'⟩ := server'.exists_response fresh' req' store' s'
    rw [hvalue] at hr
    rw [hvalue'] at hr'
    rw [Option.some.inj hr, Option.some.inj hr', hreaders, hreaders', Server.readersFor,
      Server.readersFor, hpermissive, hport, horigin]

/-- A page of the server's own port may read that a request took too long; a page with another
scheme may not. -/
theorem own_page_reads_timeout :
    let server : Server := ⟨8080, false, ⟨1000000000⟩, ⟨5000000000⟩⟩
    let asked (origin : String) : Http.Request :=
      ⟨"GET", ⟨"/api/v1/users".toList, none⟩, [("origin", origin)], []⟩
    let silent : Store Unit := fun _ s => (.silence, s)
    (∃ response, ((server.respond .zero (asked "http://127.0.0.1:8080")).run silent ()).value? =
        some response ∧ response.status = 408 ∧ "http://127.0.0.1:8080" ∈ response.readers) ∧
      ∃ response, ((server.respond .zero (asked "https://127.0.0.1:8080")).run silent ()).value? =
        some response ∧ "https://127.0.0.1:8080" ∉ response.readers := by
  intro server asked silent
  obtain ⟨hanswered, -⟩ := only_local_origins_allowed
  obtain ⟨response, hvalue, -, hlocal, -⟩ :=
    hanswered server .zero (asked "http://127.0.0.1:8080") Unit silent ()
  obtain ⟨response', hvalue', -, hlocal', -⟩ :=
    hanswered server .zero (asked "https://127.0.0.1:8080") Unit silent ()
  refine ⟨⟨response, hvalue, ?_, ((hlocal rfl).1 _).2 ⟨rfl, by decide⟩⟩, response', hvalue',
    fun h => absurd (((hlocal' rfl).1 _).1 h).2 (by decide)⟩
  have hstatus : ((server.respond .zero (asked "http://127.0.0.1:8080")).run silent ()).value?.map
      (·.status) = some 408 := rfl
  rw [hvalue] at hstatus
  exact Option.some.inj hstatus

end MessageBoard
