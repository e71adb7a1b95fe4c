import MessageBoard.Proofs.Composed

/-!
# What is told of failures

The response to a failure tells clients whether a constraint is broken, whether the store is out of
reach, or that something else went wrong. Of the causes of the last two it tells nothing.

`Fault.status_eq_iff` says which faults get which status. Two replies are alike if they differ in
nothing but faults that are answered alike. No handler tells stores with alike replies apart:
`Program.Alike` holds of one transaction, is kept by the ways in which operations are put together,
and decides what a run says to the store and comes to.
-/

namespace MessageBoard

variable {σ τ α β : Type}

open Http

/-! ## The classes of faults -/

namespace ConstraintKind

/-- The state code that stands for the kind. -/
def stateCode : ConstraintKind → String
  | foreignKey => "23503"
  | unique => "23505"
  | notNull => "23502"
  | check => "23514"
  | restrict => "23001"

theorem ofCode?_eq_some_iff {code : String} {kind : ConstraintKind} :
    ofCode? code = some kind ↔ code = kind.stateCode := by
  constructor
  · intro h
    unfold ofCode? at h
    split at h <;> cases h <;> rfl
  · rintro rfl
    cases kind <;> rfl

theorem stateCode_mem (kind : ConstraintKind) :
    kind.stateCode ∈ ["23505"] ∨ kind.stateCode ∈ ["23503", "23502", "23514", "23001"] := by
  cases kind <;> decide

end ConstraintKind

theorem FaultKind.isOutage_iff {kind : FaultKind} :
    kind.isOutage = true ↔ kind ∈ [.io, .tls, .poolTimedOut, .poolClosed, .workerCrashed] := by
  cases kind <;> simp [isOutage]

def Failure.response (e : Failure) : Response := (Problem.ofFailure e).response

namespace Fault

def response (fault : Fault) : Response := (Failure.ofFault fault).response

def HasCode (codes : List String) : Fault → Prop
  | reported (some code) _ _ => code ∈ codes
  | _ => False

def IsOutage : Fault → Prop
  | other kind _ => kind ∈ [.io, .tls, .poolTimedOut, .poolClosed, .workerCrashed]
  | _ => False

/-- Neither a constraint that is broken nor a store that is out of reach. -/
def IsInternal (fault : Fault) : Prop :=
  ¬ fault.HasCode ["23505"] ∧ ¬ fault.HasCode ["23503", "23502", "23514", "23001"] ∧
    ¬ fault.IsOutage

variable {fault : Fault}

theorem exists_of_hasCode {codes : List String} (h : fault.HasCode codes) :
    ∃ code ∈ codes, ∃ message constraint, fault = .reported (some code) message constraint := by
  cases fault with
  | reported code message constraint =>
    cases code with
    | some code => exact ⟨code, h, message, constraint, rfl⟩
    | none => exact h.elim
  | other kind message => exact h.elim

theorem response_of_outage (h : fault.IsOutage) :
    fault.response = .ofJson 503 (.object [("error", .text "unavailable"),
      ("message", .text "the database is currently unavailable")]) := by
  cases fault with
  | reported code message constraint => cases code <;> exact h.elim
  | other kind message =>
    rw [response, Failure.ofFault, if_pos (FaultKind.isOutage_iff.2 h)]
    rfl

theorem response_of_internal (h : fault.IsInternal) :
    fault.response = .ofJson 500 (.object
      [("error", .text "internal_error"), ("message", .text "an internal error occurred")]) := by
  obtain ⟨hconflict, hviolation, houtage⟩ := h
  cases fault with
  | reported code message constraint =>
    have hnone : code.bind ConstraintKind.ofCode? = none := by
      refine Option.bind_eq_none_iff.2 fun code hsome => Option.eq_none_iff_forall_ne_some.2 ?_
      subst hsome
      rintro kind hkind
      obtain rfl := ConstraintKind.ofCode?_eq_some_iff.1 hkind
      exact kind.stateCode_mem.elim hconflict hviolation
    rw [response, Failure.ofFault, hnone]
    rfl
  | other kind message =>
    rw [response, Failure.ofFault, if_neg fun hkind => houtage (FaultKind.isOutage_iff.1 hkind)]
    rfl

theorem status_of_conflict (h : fault.HasCode ["23505"]) : fault.response.status = 409 := by
  obtain ⟨code, hcode, message, constraint, rfl⟩ := exists_of_hasCode h
  obtain rfl := List.mem_singleton.1 hcode
  rfl

theorem status_of_violation (h : fault.HasCode ["23503", "23502", "23514", "23001"]) :
    fault.response.status = 400 := by
  obtain ⟨code, hcode, message, constraint, rfl⟩ := exists_of_hasCode h
  simp only [List.mem_cons, List.not_mem_nil, or_false] at hcode
  rcases hcode with rfl | rfl | rfl | rfl <;> rfl

theorem status_of_outage (h : fault.IsOutage) : fault.response.status = 503 := by
  rw [response_of_outage h]
  rfl

theorem status_of_internal (h : fault.IsInternal) : fault.response.status = 500 := by
  rw [response_of_internal h]
  rfl

/-- Every fault is of one of four classes. -/
theorem class_cases (fault : Fault) : fault.HasCode ["23505"] ∨
    fault.HasCode ["23503", "23502", "23514", "23001"] ∨ fault.IsOutage ∨ fault.IsInternal := by
  by_cases hconflict : fault.HasCode ["23505"]
  · exact .inl hconflict
  by_cases hviolation : fault.HasCode ["23503", "23502", "23514", "23001"]
  · exact .inr (.inl hviolation)
  by_cases houtage : fault.IsOutage
  · exact .inr (.inr (.inl houtage))
  · exact .inr (.inr (.inr ⟨hconflict, hviolation, houtage⟩))

theorem status_eq_iff (fault : Fault) :
    (fault.response.status = 409 ↔ fault.HasCode ["23505"]) ∧
      (fault.response.status = 400 ↔ fault.HasCode ["23503", "23502", "23514", "23001"]) ∧
      (fault.response.status = 503 ↔ fault.IsOutage) ∧
      (fault.response.status = 500 ↔ fault.IsInternal) := by
  refine ⟨⟨fun h => ?_, status_of_conflict⟩, ⟨fun h => ?_, status_of_violation⟩,
    ⟨fun h => ?_, status_of_outage⟩, ⟨fun h => ?_, status_of_internal⟩⟩
  all_goals
    rcases fault.class_cases with hclass | hclass | hclass | hclass
    · simp_all [status_of_conflict hclass]
    · simp_all [status_of_violation hclass]
    · simp_all [status_of_outage hclass]
    · simp_all [status_of_internal hclass]

end Fault

/-! ## Stores that report faults of one class -/

/-- Clients are told the same of both failures, and the board itself sees no difference either. -/
structure Failure.Alike (e e' : Failure) : Prop where
  response : e.response = e'.response
  isNotFound : e.isNotFound = e'.isNotFound

theorem Failure.Alike.refl (e : Failure) : e.Alike e := ⟨rfl, rfl⟩

theorem Failure.isNotFound_ofFault (fault : Fault) : (ofFault fault).isNotFound = false := by
  cases fault with
  | reported code message constraint =>
    rw [ofFault]
    cases code.bind ConstraintKind.ofCode? <;> rfl
  | other kind message =>
    rw [ofFault]
    cases kind.isOutage <;> rfl

/-- Replies that differ in faults alone, and in those only by what clients are not told. -/
inductive Reply.Alike : Reply → Reply → Prop
  | rows (rows : List Row) : Alike (.rows rows) (.rows rows)
  | refused {fault fault' : Fault} (h : fault.response = fault'.response) :
    Alike (.refused fault) (.refused fault')
  | lost {fault fault' : Fault} (h : fault.response = fault'.response) :
    Alike (.lost fault) (.lost fault')
  | silence : Alike .silence .silence

/-- Results that differ in failures alone, and in those only by what clients are not told. -/
inductive ResultsAlike : Except Failure α → Except Failure α → Prop
  | ok (a : α) : ResultsAlike (.ok a) (.ok a)
  | error {e e' : Failure} (h : e.Alike e') : ResultsAlike (.error e) (.error e')

theorem ResultsAlike.refl (x : Except Failure α) : ResultsAlike x x := by
  cases x with
  | ok a => exact .ok a
  | error e => exact .error (.refl e)

theorem ResultsAlike.ofFault {fault fault' : Fault} (h : fault.response = fault'.response) :
    ResultsAlike (.error (.ofFault fault) : Except Failure α) (.error (.ofFault fault')) :=
  .error ⟨h, by rw [Failure.isNotFound_ofFault, Failure.isNotFound_ofFault]⟩

/-- The programs ask alike as long as the replies are alike, and come to related values. -/
inductive Program.Alike (R : α → α → Prop) : Program α → Program α → Prop
  | done {a a' : α} (h : R a a') : Alike R (.done a) (.done a')
  | ask {request : Request} {next next' : Reply → Program α}
    (h : ∀ {reply reply' : Reply}, reply.Alike reply' → Alike R (next reply) (next' reply')) :
    Alike R (.ask request next) (.ask request next')
  | stalled : Alike R .stalled .stalled

namespace Program.Alike

variable {R : α → α → Prop} {S : β → β → Prop} {p p' : Program α}

theorem bind (h : p.Alike R p') {f f' : α → Program β}
    (hf : ∀ {a a'}, R a a' → (f a).Alike S (f' a')) : (p.bind f).Alike S (p'.bind f') := by
  induction h with
  | done h => exact hf h
  | ask _ ih => exact .ask fun hreply => ih hreply
  | stalled => exact .stalled

theorem orElse (h : p.Alike R p') {q q' : Program α} (hq : q.Alike R q') :
    (p.orElse q).Alike R (p'.orElse q') := by
  induction h with
  | done h => exact .done h
  | ask _ ih => exact .ask fun hreply => ih hreply
  | stalled => exact hq

theorem within (h : p.Alike R p') (limit : Duration) {a a' : α} (ha : R a a') :
    (p.within limit a).Alike R (p'.within limit a') := by
  cases h with
  | done h => exact .done h
  | ask h =>
    by_cases hl : limit.nanos = 0
    · rw [within_of_noTime limit hl, within_of_noTime limit hl]
      exact .done ha
    · rw [Program.within, Program.within, if_neg hl, if_neg hl]
      exact (Program.Alike.ask h).orElse (.done ha)
  | stalled => exact .done ha

end Program.Alike

/-- Stores whose replies are alike, whatever they are asked one request after another. -/
structure StoresAlike (store : Store σ) (store' : Store τ) (Now : σ → τ → Prop) : Prop where
  reply : ∀ {s s'}, Now s s' → ∀ request, (store request s).1.Alike (store' request s').1
  next : ∀ {s s'}, Now s s' → ∀ request, Now (store request s).2 (store' request s').2

/-- Against stores that are alike, like programs say the same and come to related values. -/
theorem Program.Alike.run {R : α → α → Prop} {p p' : Program α} (h : p.Alike R p')
    {store : Store σ} {store' : Store τ} {Now : σ → τ → Prop}
    (hstores : StoresAlike store store' Now) {s : σ} {s' : τ} (hnow : Now s s') :
    (p.run store s).requests = (p'.run store' s').requests ∧
      Option.Rel R (p.run store s).value? (p'.run store' s').value? := by
  induction h generalizing s s' with
  | done h => exact ⟨rfl, .some h⟩
  | @ask request next next' _ ih =>
    obtain ⟨hrequests, hvalue⟩ := ih (hstores.reply hnow request) (hstores.next hnow request)
    exact ⟨congrArg (List.cons request) hrequests, hvalue⟩
  | stalled => exact ⟨rfl, .none⟩

/-! ## Operations -/

/-- The operation is told no difference by replies that are alike. -/
def Operation.Discreet (p : Operation α) : Prop := p.Alike ResultsAlike p

namespace Operation.Discreet

theorem done (x : Except Failure α) : Discreet (.done x) :=
  Program.Alike.done (ResultsAlike.refl x)

theorem andThen {p : Operation α} (h : p.Discreet) {f : α → Operation β}
    (hf : ∀ a, (f a).Discreet) : (p.andThen f).Discreet := by
  refine Program.Alike.bind h fun hresult => ?_
  cases hresult with
  | ok a => exact hf a
  | error h => exact .done (.error h)

theorem within (limit : Option Duration) {p : Operation α} (h : p.Discreet) :
    (Operation.within limit p).Discreet := by
  cases limit with
  | none => exact h
  | some d => exact Program.Alike.within h d (ResultsAlike.refl _)

theorem abandon_ofFault {fault fault' : Fault} (h : fault.response = fault'.response) :
    Program.Alike ResultsAlike (Operation.abandon (Failure.ofFault fault) : Operation α)
      (Operation.abandon (Failure.ofFault fault')) :=
  .ask fun _ => .done (.ofFault h)

theorem commit (a : α) : (Operation.commit a).Discreet := by
  refine .ask fun hreply => ?_
  cases hreply with
  | rows _ => exact .done (.ok a)
  | refused h => exact abandon_ofFault h
  | lost h => exact .done (.ofFault h)
  | silence => exact .stalled

theorem step (request : Request) (read : List Row → Except Failure α) {next : α → Operation β}
    (hnext : ∀ a, (next a).Discreet) : (Operation.step request read next).Discreet := by
  refine .ask fun hreply => ?_
  cases hreply with
  | rows rows =>
    cases hread : read rows with
    | ok a =>
      simp only [hread]
      exact hnext a
    | error e =>
      simp only [hread]
      exact .ask fun _ => .done (ResultsAlike.refl _)
  | refused h => exact abandon_ofFault h
  | lost h => exact .done (.ofFault h)
  | silence => exact .stalled

theorem inTransaction {body : Operation α} (h : body.Discreet) :
    (Operation.inTransaction body).Discreet := by
  refine .ask fun hreply => ?_
  cases hreply with
  | rows _ => exact h
  | refused h => exact .done (.ofFault h)
  | lost h => exact .done (.ofFault h)
  | silence => exact .stalled

theorem call (limit : Option Duration) (c : Call) : (c.run limit).Discreet := by
  rw [Call.run_eq]
  cases c.plan with
  | error e => exact .done (.error e)
  | ok p =>
    refine within limit (andThen (inTransaction (step _ _ commit)) done)

end Operation.Discreet

theorem Related.discreet_optional {p : Operation α} (h : p.Discreet) : (optional p).Discreet := by
  refine Program.Alike.bind h fun hresult => ?_
  cases hresult with
  | ok a => exact .done (.ok _)
  | @error e e' h =>
    simp only [h.isNotFound]
    cases e'.isNotFound with
    | true => exact .done (.ok _)
    | false => exact .done (.error h)

theorem Operation.Composed.discreet {p : Operation α} (h : p.Composed) : p.Discreet := by
  induction h with
  | done x => exact .done x
  | call limit c _ => exact .call limit c
  | andThen _ _ ihp ihf => exact ihp.andThen ihf
  | optional _ ih => exact Related.discreet_optional ih

namespace Http

def Discreet (p : Program Response) : Prop := p.Alike Eq p

theorem Endpoint.discreet_checkHealth : Discreet checkHealth := by
  refine .ask fun hreply => ?_
  cases hreply with
  | rows _ => exact .done rfl
  | refused _ => exact .done rfl
  | lost _ => exact .done rfl
  | silence => exact .stalled

theorem Endpoint.discreet_answer (status : Nat) (wire : Wire α) {p : Operation α}
    (h : p.Discreet) : Discreet (answer status wire p) := by
  refine Program.Alike.bind h fun hresult => ?_
  cases hresult with
  | ok a => exact .done rfl
  | error h => exact .done h.response

theorem Composed.discreet {p : Program Response} (h : Composed p) : Discreet p := by
  induction h with
  | done r => exact .done rfl
  | probe => exact Endpoint.discreet_checkHealth
  | answer status wire hp => exact Endpoint.discreet_answer status wire hp.discreet
  | map g _ ih => exact Program.Alike.bind ih fun h => .done (congrArg g h)
  | within limit expired _ ih => exact Program.Alike.within ih limit rfl

theorem Server.run_respond_alike (server : Server) (fresh : Uuid) (req : Request)
    {store : Store σ} {store' : Store τ} {Now : σ → τ → Prop}
    (hstores : StoresAlike store store' Now) {s : σ} {s' : τ} (hnow : Now s s') :
    ((server.respond fresh req).run store s).requests =
        ((server.respond fresh req).run store' s').requests ∧
      ((server.respond fresh req).run store s).value? =
        ((server.respond fresh req).run store' s').value? := by
  obtain ⟨hrequests, hvalue⟩ := (server.composed_respond fresh req).discreet.run hstores hnow
  refine ⟨hrequests, ?_⟩
  generalize ((server.respond fresh req).run store s).value? = value,
    ((server.respond fresh req).run store' s').value? = value' at hvalue
  cases hvalue with
  | some h => rw [h]
  | none => rfl

end Http

/-! ## What is told -/

theorem quoted_inj {name name' id id' : String} (h : '\'' ∉ name.toList) (h' : '\'' ∉ name'.toList)
    (heq : name ++ "'" ++ id = name' ++ "'" ++ id') : name = name' ∧ id = id' := by
  have hpieces := congrArg (fun s : String => Text.pieces '\'' s.toList) heq
  have hlists := congrArg String.toList heq
  simp only [String.toList_append, List.append_assoc, List.cons_append, List.nil_append,
    show "'".toList = ['\''] from rfl] at hpieces hlists
  rw [Text.pieces_append h (Text.pieces_cons_self _ _),
    Text.pieces_append h' (Text.pieces_cons_self _ _)] at hpieces
  have hname : name.toList = name'.toList := by simpa using (List.cons.inj hpieces).1
  rw [hname] at hlists
  have hid := (List.cons.inj (List.append_cancel_left hlists)).2
  exact ⟨String.toList_inj.1 hname, String.toList_inj.1 hid⟩

theorem Failure.response_notFound (resource id : String) :
    (notFound resource id).response = .ofJson 404 (.object
      [("error", .text "not_found"), ("message", .text s!"{resource} '{id}' not found")]) := rfl

theorem Failure.notFound_response_inj {resource resource' id id' : String}
    (h : '\'' ∉ resource.toList) (h' : '\'' ∉ resource'.toList)
    (heq : (notFound resource id).response = (notFound resource' id').response) :
    resource = resource' ∧ id = id' := by
  have hmessage : resource ++ " '" ++ id ++ "' not found" =
      resource' ++ " '" ++ id' ++ "' not found" := by
    simp only [response_notFound, Response.ofJson] at heq
    injection heq with _ _ hbody
    injection hbody with hjson
    simpa [toString] using hjson
  have hmark : " '" = " " ++ "'" := rfl
  have hquoted : (resource ++ " ") ++ "'" ++ (id ++ "' not found") =
      (resource' ++ " ") ++ "'" ++ (id' ++ "' not found") := by
    simpa only [hmark, String.append_assoc] using hmessage
  obtain ⟨hresource, hid⟩ := quoted_inj (by simpa using h) (by simpa using h') hquoted
  exact ⟨String.append_left_inj _ |>.1 hresource, String.append_left_inj _ |>.1 hid⟩

/-- Every fault is told as one of four, and what caused a fault of the last two is not told at all,
neither by one response nor by what the server does with stores that differ in it. The failures of
the board itself are told as what they are. -/
theorem causes_undisclosed :
    (∀ fault : Fault,
      (fault.response.status = 409 ↔ fault.HasCode ["23505"]) ∧
      (fault.response.status = 400 ↔ fault.HasCode ["23503", "23502", "23514", "23001"]) ∧
      (fault.response.status = 503 ↔ fault.IsOutage) ∧
      (fault.response.status = 500 ↔
        ¬ fault.HasCode ["23505"] ∧ ¬ fault.HasCode ["23503", "23502", "23514", "23001"] ∧
          ¬ fault.IsOutage)) ∧
    (∀ fault fault' : Fault, fault.response.status = fault'.response.status →
      fault.response.status = 503 ∨ fault.response.status = 500 →
        fault.response = fault'.response) ∧
    (∀ (server : Http.Server) (fresh : Uuid) (req : Http.Request) (σ τ : Type) (store : Store σ)
      (store' : Store τ) (Now : σ → τ → Prop), StoresAlike store store' Now → ∀ s s', Now s s' →
        ((server.respond fresh req).run store s).requests =
            ((server.respond fresh req).run store' s').requests ∧
          ((server.respond fresh req).run store s).value? =
            ((server.respond fresh req).run store' s').value?) ∧
    (∀ resource id, (Failure.notFound resource id).response = .ofJson 404 (.object
      [("error", .text "not_found"), ("message", .text s!"{resource} '{id}' not found")])) ∧
    (∀ resource resource' id id', '\'' ∉ resource.toList → '\'' ∉ resource'.toList →
      (Failure.notFound resource id).response = (Failure.notFound resource' id').response →
        resource = resource' ∧ id = id') ∧
    (∀ e, (Failure.invalidFilter e).response.status = 400) ∧
    (∀ e, (Failure.invalid e).response.status = 400) ∧
    (∀ limit, (Failure.timeout limit).response.status = 504) := by
  refine ⟨fun fault => ?_, fun fault fault' hsame hclass => ?_,
    fun server fresh req σ τ store store' Now hstores s s' hnow =>
      server.run_respond_alike fresh req hstores hnow,
    Failure.response_notFound, fun _ _ _ _ => Failure.notFound_response_inj, fun _ => rfl,
    fun _ => rfl, fun _ => rfl⟩
  · exact fault.status_eq_iff
  · obtain ⟨-, -, houtage, hinternal⟩ := fault.status_eq_iff
    obtain ⟨-, -, houtage', hinternal'⟩ := fault'.status_eq_iff
    rcases hclass with hstatus | hstatus
    · rw [Fault.response_of_outage (houtage.1 hstatus),
        Fault.response_of_outage (houtage'.1 (hsame ▸ hstatus))]
    · rw [Fault.response_of_internal (hinternal.1 hstatus),
        Fault.response_of_internal (hinternal'.1 (hsame ▸ hstatus))]

/-- A store that is full and one whose rows cannot be read look the same to those who list users. -/
theorem full_store_undisclosed :
    let server : Http.Server := ⟨8080, false, ⟨30000000000⟩, ⟨5000000000⟩⟩
    let req : Http.Request := ⟨"GET", ⟨"/api/v1/users".toList, none⟩, [], []⟩
    let refusing (fault : Fault) : Store Unit := fun _ s => (.refused fault, s)
    let full : Fault := .reported (some "53100") "could not extend file base/16384" none
    let unreadable : Fault := .other .decode "invalid utf-8 sequence"
    StoresAlike (refusing full) (refusing unreadable) (fun _ _ => True) ∧
      ((server.respond .zero req).run (refusing full) ()).value? =
        ((server.respond .zero req).run (refusing unreadable) ()).value? ∧
      ((server.respond .zero req).run (refusing full) ()).value?.map (·.status) = some 500 := by
  intro server req refusing full unreadable
  obtain ⟨-, hsame, hrun, -⟩ := causes_undisclosed
  have hfaults : full.response = unreadable.response := hsame full unreadable rfl (.inr rfl)
  have hstores : StoresAlike (refusing full) (refusing unreadable) (fun _ _ => True) :=
    ⟨fun _ _ => .refused hfaults, fun _ _ => trivial⟩
  exact ⟨hstores, (hrun server .zero req Unit Unit _ _ _ hstores () () trivial).2, rfl⟩

end MessageBoard
