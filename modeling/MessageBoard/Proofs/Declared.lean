import MessageBoard.Proofs.Composed
import MessageBoard.Proofs.Together
import MessageBoard.Proofs.Validity

/-!
# What is sent to the tables

Whatever a request makes the server say to its store is a probe or the statement of a call. Such a
statement sets nothing but valid values, and `Resource.takes_of_valid` says that the tables, as they
are declared, take those.
-/

namespace MessageBoard

variable {σ α β : Type}

/-! ## Statements that a table takes -/

def Votable.declaration : Votable → TableDeclaration
  | thread => Tables.votes "forum.thread_votes" "thread_id" "forum.threads"
  | post => Tables.votes "forum.post_votes" "post_id" "forum.posts"

/-- The columns that may not be null are all named, but for those that the store fills in. -/
def TableDeclaration.Completed (t : TableDeclaration) (names : List String) : Prop :=
  ∀ c ∈ t.columns, c.notNull = true ∨ c.isKey = true → c.initially = none → c.name ∈ names

instance (t : TableDeclaration) (names : List String) : Decidable (t.Completed names) :=
  inferInstanceAs (Decidable (∀ c ∈ t.columns, _))

/-- What the statement sets, its table takes. -/
def Statement.Fits : Statement → Prop
  | insert schema id values => ∃ r : Resource, schema = r.schema ∧
      (∀ e ∈ ("id", .uuid (some id)) :: values, r.Valid e.1 e.2) ∧
      r.declaration.Completed (values.map (·.1))
  | update schema _ changes => ∃ r : Resource, schema = r.schema ∧
      ∀ e ∈ changes, (∀ v, e.2 = .value v → r.Valid e.1 v) ∧
        ∃ c, r.declaration.column? e.1 = some c ∧
          ∀ ambient, c.Takes (.value (e.2.content ambient c))
  | castVote schema target user vote => ∃ v : Votable, schema = v.schema ∧
      ∀ e ∈ [(schema.target, .value (.uuid (some target))), ("user_id", .value (.uuid (some user))),
          ("vote", .smallint vote)],
        ∃ c, v.declaration.column? e.1 = some c ∧ c.Takes e.2
  | _ => True

theorem ColumnDeclaration.Takes.stored {c : ColumnDeclaration} {v : Value}
    (h : c.Takes (.value v)) : c.Takes (.value v.stored) := by
  obtain ⟨holds, present, met⟩ := h
  cases v with
  | instant t =>
    cases t with
    | none => exact ⟨holds, present, met⟩
    | some t =>
      refine ⟨?_, fun _ => rfl, fun d hd => ?_⟩
      · generalize c.type = type at holds
        cases type <;> exact holds
      · have hmet := met d hd
        cases d <;> exact hmet
  | _ => exact ⟨holds, present, met⟩

theorem Resource.takes_reserved (r : Resource) {e : String × Term} (he : e ∈
    [("deleted", .flag true), ("deleted", .flag false), ("deleted_at", .now), ("deleted_at", .null),
      ("updated_at", .now)]) :
    ∃ c, r.declaration.column? e.1 = some c ∧
      ∀ ambient, c.Takes (.value (e.2.content ambient c)) := by
  obtain ⟨-, -, hupdated, hdeleted, hdeletedAt⟩ := r.column?_reserved
  simp only [List.mem_cons, List.not_mem_nil, or_false] at he
  rcases he with rfl | rfl | rfl | rfl | rfl
  · exact ⟨_, hdeleted, fun _ => ⟨trivial, fun _ => rfl, nofun⟩⟩
  · exact ⟨_, hdeleted, fun _ => ⟨trivial, fun _ => rfl, nofun⟩⟩
  · exact ⟨_, hdeletedAt, fun _ => ⟨trivial, fun _ => rfl, nofun⟩⟩
  · exact ⟨_, hdeletedAt, fun _ => ⟨trivial, (by simp), nofun⟩⟩
  · exact ⟨_, hupdated, fun _ => ⟨trivial, fun _ => rfl, nofun⟩⟩

theorem Resource.values_completed (r : Resource) (input : r.Input) :
    r.declaration.Completed ((r.values input).map (·.1)) := by
  cases r with
  | user => exact (by decide : Tables.users.Completed ["name", "username", "email"])
  | forum => exact (by decide : Tables.forums.Completed ["owner_id", "name", "description"])
  | thread => exact (by decide : Tables.threads.Completed ["forum_id", "author_id", "title"])
  | post =>
    exact (by decide : Tables.posts.Completed ["thread_id", "reply_to", "author_id", "content"])

/-! ## The statements of calls -/

theorem Votable.column?_vote (v : Votable) : v.declaration.column? "vote" =
    some { name := "vote", type := .smallint, notNull := true, demand := some .sign } := by
  cases v <;> rfl

theorem Votable.takes_id (v : Votable) {column : String}
    (h : column = v.schema.target ∨ column = "user_id") (id : Uuid) :
    ∃ c, v.declaration.column? column = some c ∧ c.Takes (.value (.uuid (some id))) := by
  rcases h with rfl | rfl
  · cases v <;> exact ⟨_, rfl, trivial, fun _ => rfl, nofun⟩
  · cases v <;> exact ⟨_, rfl, trivial, fun _ => rfl, nofun⟩

theorem Votable.fits_castVote (v : Votable) (target user : Uuid) {vote : Int16}
    (h : -1 ≤ vote ∧ vote ≤ 1) : (Statement.castVote v.schema target user vote).Fits := by
  have hvote : ∃ c, v.declaration.column? "vote" = some c ∧ c.Takes (.smallint vote) := by
    refine ⟨_, v.column?_vote, trivial, fun _ => rfl, ?_⟩
    rintro d ⟨⟩
    exact h
  refine ⟨v, rfl, List.forall_mem_cons.2 ⟨v.takes_id (.inl rfl) target, ?_⟩⟩
  exact List.forall_mem_cons.2 ⟨v.takes_id (.inr rfl) user, List.forall_mem_singleton.2 hvote⟩

namespace Resource

variable (r : Resource)

theorem fits_reserved (id : Uuid) {changes : List (String × Term)}
    (h : changes ⊆ [("deleted", .flag true), ("deleted", .flag false), ("deleted_at", .now),
      ("deleted_at", .null), ("updated_at", .now)]) :
    (Statement.update r.schema id changes).Fits := by
  refine ⟨r, rfl, fun e he => ⟨fun v hv => ?_, r.takes_reserved (h he)⟩⟩
  have hbound : ∀ e' ∈ ([("deleted", .flag true), ("deleted", .flag false), ("deleted_at", .now),
      ("deleted_at", .null), ("updated_at", .now)] : List (String × Term)),
      ∀ v, e'.2 ≠ .value v := by
    simp
  exact absurd hv (hbound e (h he) v)

theorem fits_insert (fresh : Uuid) {input : r.Input} (h : r.checkInput input = .ok ()) :
    (Statement.insert r.schema fresh (r.values input)).Fits := by
  have hid : r.Valid "id" (.uuid (some fresh)) := ⟨{ topic := .identifier }, rfl, by simp⟩
  exact ⟨r, rfl, List.forall_mem_cons.2 ⟨hid, (r.checkInput_eq_ok_iff input).1 h⟩,
    r.values_completed input⟩

theorem fits_patch (id : Uuid) {p : r.Patch} (h : r.checkPatch p = .ok ()) :
    (Statement.patch r.schema id (r.assignments p)).Fits := by
  have hvalid := (r.checkPatch_eq_ok_iff p).1 h
  refine ⟨r, rfl, fun e he => ?_⟩
  rcases List.mem_append.1 he with he | he
  · obtain ⟨⟨column, v⟩, hmem, rfl⟩ := List.mem_map.1 he
    have hv := hvalid _ hmem
    obtain ⟨c, hc, htakes, -⟩ := takes_of_valid hv
    refine ⟨?_, c, hc, fun ambient => htakes.stored⟩
    rintro v' ⟨⟩
    exact hv
  · obtain rfl := List.mem_singleton.1 he
    exact ⟨by rintro v ⟨⟩, r.takes_reserved (by simp)⟩

end Resource

theorem Call.fits_of_plan {c : Call} (hc : c.InRange) {p : Plan c.Result} (hp : c.plan = .ok p) :
    p.statement.Fits := by
  have of_patch {r : Resource} {p : r.Patch} {q : Plan r.Record} (hq : patchPlan r p = .ok q) :
      q.statement.Fits := by
    cases h : r.checkPatch p with
    | error e =>
      rw [patchPlan, h] at hq
      cases hq
    | ok _ =>
      obtain rfl := eq_of_guarded hq
      exact r.fits_patch _ h
  cases c with
  | create r fresh input =>
    cases h : r.checkInput input with
    | error e =>
      rw [plan, h] at hp
      cases hp
    | ok _ =>
      obtain rfl := eq_of_guarded hp
      exact r.fits_insert fresh h
  | patch r p => exact of_patch hp
  | setLocked id isLocked => exact of_patch hp
  | softDelete r id =>
    obtain rfl := Except.ok.inj hp
    exact r.fits_reserved id (by simp)
  | restore r id =>
    obtain rfl := Except.ok.inj hp
    exact r.fits_reserved id (by simp)
  | castVote v target user vote =>
    obtain rfl := Except.ok.inj hp
    exact v.fits_castVote target user hc
  | list r f =>
    obtain ⟨-, s, hs, rfl⟩ := plan_list_eq_ok_iff.1 hp
    rw [Statement.ofFilter] at hs
    cases hkeys : f.sortKeys r.schema with
    | error e =>
      rw [hkeys] at hs
      cases hs
    | ok keys =>
      rw [hkeys] at hs
      obtain rfl := Except.ok.inj hs
      exact trivial
  | count r f =>
    obtain rfl := eq_of_guarded hp
    exact trivial
  | _ =>
    obtain rfl := Except.ok.inj hp
    exact trivial

/-! ## What programs say -/

namespace Program

variable {statement : Statement}

theorem not_sends_done (a : α) : ¬ (done a).Sends statement := by
  rintro ⟨σ, store, s, hmem⟩
  cases hmem

theorem Sends.of_bind {p : Program α} {f : α → Program β} (h : (p.bind f).Sends statement) :
    p.Sends statement ∨ ∃ a, (f a).Sends statement := by
  obtain ⟨σ, store, s, hmem⟩ := h
  rw [run_bind] at hmem
  cases hvalue : (p.run store s).value? with
  | none =>
    simp only [hvalue] at hmem
    exact .inl ⟨σ, store, s, hmem⟩
  | some a =>
    simp only [hvalue, Outcome.requests, List.map_append, List.mem_append] at hmem
    exact hmem.imp (fun h => ⟨σ, store, s, h⟩) fun h => ⟨a, σ, store, (p.run store s).state, h⟩

theorem Sends.of_within {p : Program α} {limit : Duration} {expired : α}
    (h : (p.within limit expired).Sends statement) : p.Sends statement := by
  cases p with
  | done a => exact h
  | ask request next =>
    by_cases hl : limit.nanos = 0
    · rw [within_of_noTime limit hl] at h
      exact absurd h (not_sends_done _)
    · obtain ⟨σ, store, s, hmem⟩ := h
      rw [run_within store limit hl] at hmem
      exact ⟨σ, store, s, hmem⟩
  | stalled => exact absurd h (not_sends_done _)

/-- All that the program says is a probe, or the statement of a call. -/
def ByCalls (p : Program α) : Prop := ∀ statement, p.Sends statement → statement = .ping ∨
  ∃ (c : Call) (q : Plan c.Result), c.InRange ∧ c.plan = .ok q ∧ q.statement = statement

namespace ByCalls

theorem done (a : α) : ByCalls (.done a) := fun _ h => absurd h (not_sends_done a)

theorem bind {p : Program α} (hp : p.ByCalls) {f : α → Program β} (hf : ∀ a, (f a).ByCalls) :
    (p.bind f).ByCalls := by
  intro statement h
  rcases h.of_bind with h | ⟨a, h⟩
  · exact hp statement h
  · exact hf a statement h

theorem andThen {p : Operation α} (hp : p.ByCalls) {f : α → Operation β}
    (hf : ∀ a, (f a).ByCalls) : (p.andThen f).ByCalls := by
  refine bind hp fun x => ?_
  cases x with
  | ok a => exact hf a
  | error e => exact done _

theorem within {p : Program α} (hp : p.ByCalls) (limit : Duration) (expired : α) :
    (p.within limit expired).ByCalls := fun statement h => hp statement h.of_within

theorem call (limit : Option Duration) (c : Call) (hc : c.InRange) : (c.run limit).ByCalls := by
  intro statement h
  obtain ⟨q, hq, rfl⟩ := Call.exists_plan_of_sends h
  exact .inr ⟨c, q, hc, hq, rfl⟩

end ByCalls

end Program

open Program

theorem Related.byCalls_optional {p : Operation α} (h : p.ByCalls) : (optional p).ByCalls := by
  refine h.bind fun x => ?_
  cases x with
  | ok a => exact .done _
  | error e =>
    dsimp only
    cases e.isNotFound with
    | true => exact .done _
    | false => exact .done _

theorem Operation.Composed.byCalls {p : Operation α} (h : p.Composed) : p.ByCalls := by
  induction h with
  | done x => exact .done x
  | call limit c hc => exact .call limit c hc
  | andThen _ _ ihp ihf => exact ihp.andThen ihf
  | optional _ ih => exact Related.byCalls_optional ih

namespace Http

theorem Endpoint.byCalls_checkHealth : checkHealth.ByCalls := by
  rintro statement ⟨σ, store, s, hmem⟩
  rw [checkHealth, run_ask, Outcome.requests, List.map_cons, List.mem_cons] at hmem
  rcases hmem with hping | hmem
  · exact .inl (Request.execute.inj hping)
  · cases hreply : (store (.execute .ping) s).1 <;> rw [hreply] at hmem <;> cases hmem

theorem Endpoint.byCalls_answer (status : Nat) (wire : Wire α) {p : Operation α} (h : p.ByCalls) :
    (answer status wire p).ByCalls := by
  refine h.bind fun x => ?_
  cases x with
  | ok a => exact .done _
  | error e => exact .done _

theorem Composed.byCalls {p : Program Response} (h : Composed p) : p.ByCalls := by
  induction h with
  | done r => exact .done r
  | probe => exact Endpoint.byCalls_checkHealth
  | answer status wire hp => exact Endpoint.byCalls_answer status wire hp.byCalls
  | map g _ ih => exact ih.bind fun r => .done (g r)
  | within limit expired _ ih => exact ih.within limit expired

end Http

/-! ## Runs -/

/-- Something that the board is asked for. -/
inductive Event where
  | request (server : Http.Server) (fresh : Uuid) (req : Http.Request)
  | call (limit : Option Duration) (c : Call) (h : c.InRange)

namespace Event

def program : Event → Program Unit
  | request server fresh req => (server.respond fresh req).bind fun _ => .done ()
  | call limit c _ => (c.run limit).bind fun _ => .done ()

/-- What is said to the store when one event happens after another. -/
def requests (store : Store σ) : List Event → σ → List Request
  | [], _ => []
  | e :: events, s =>
    (e.program.run store s).requests ++ requests store events (e.program.run store s).state

theorem byCalls_program (e : Event) : e.program.ByCalls := by
  cases e with
  | request server fresh req =>
    exact (server.composed_respond fresh req).byCalls.bind fun _ => .done ()
  | call limit c hc => exact (Program.ByCalls.call limit c hc).bind fun _ => .done ()

theorem fits_of_sends {e : Event} {statement : Statement} (h : e.program.Sends statement) :
    statement.Fits := by
  rcases e.byCalls_program statement h with rfl | ⟨c, q, hc, hq, rfl⟩
  · exact trivial
  · exact Call.fits_of_plan hc hq

theorem fits_of_mem_requests (store : Store σ) (events : List Event) (s : σ)
    {statement : Statement} (h : .execute statement ∈ requests store events s) :
    statement.Fits := by
  induction events generalizing s with
  | nil => cases h
  | cons e events ih =>
    rcases List.mem_append.1 h with h | h
    · exact fits_of_sends ⟨σ, store, s, h⟩
    · exact ih _ h

end Event

/-- No value that the declared tables would reject is ever sent. Each column that callers can set
has one predicate of valid values, which inputs and patches are checked against alike; the tables
take what is valid, and texts that they require are never blank. Whatever happens to the board, in
whatever order and against whatever store, each statement that it sends fits its table. -/
theorem sent_values_declared :
    (∀ r : Resource, r.declaration ∈ Tables.all ∧ r.declaration.name = r.schema.table) ∧
    (∀ v : Votable, v.declaration ∈ Tables.all ∧ v.declaration.name = v.schema.table) ∧
    (∀ (r : Resource) column v, r.Valid column v →
      ∃ c, r.declaration.column? column = some c ∧ c.Takes (.value v) ∧
        (c.notNull = true → ∀ s, v = .text (some s) → Text.allBlank s = false)) ∧
    (∀ (r : Resource) (input : r.Input),
      r.checkInput input = .ok () ↔ ∀ e ∈ r.values input, r.Valid e.1 e.2) ∧
    (∀ (r : Resource) (p : r.Patch),
      r.checkPatch p = .ok () ↔ ∀ e ∈ r.assignments p, r.Valid e.1 e.2) ∧
    (∀ (events : List Event) (σ : Type) (store : Store σ) (s : σ) statement,
      .execute statement ∈ Event.requests store events s → statement.Fits) := by
  refine ⟨fun r => ?_, fun v => ?_, fun r column v => Resource.takes_of_valid,
    Resource.checkInput_eq_ok_iff, Resource.checkPatch_eq_ok_iff,
    fun events σ store s statement => Event.fits_of_mem_requests store events s⟩
  · cases r <;> decide
  · cases v <;> decide

/-- The insertion of a user whose user name is all dashes is sent, and fits. -/
theorem dashed_username_fits :
    let input : UserInput := ⟨"\u00a0Zoë", "--", "z@b.c"⟩
    let events : List Event := [.call none (.create .user .zero input) trivial]
    let store : Store Unit := fun _ s => (.rows [], s)
    let statement := Statement.insert User.schema .zero input.values
    .execute statement ∈ Event.requests store events () ∧ statement.Fits := by
  intro input events store statement
  have hsent : .execute statement ∈ Event.requests store events () := by decide +kernel
  obtain ⟨-, -, -, -, -, hfits⟩ := sent_values_declared
  exact ⟨hsent, hfits events Unit store () statement hsent⟩

end MessageBoard
