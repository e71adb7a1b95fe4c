import MessageBoard.Proofs.Together

/-!
# Programs that return

A program waits for each reply that it asks for, and is stalled where none comes. A call asks for
its transaction to start, for its statement and for the commit; under a time limit it is not even
stalled by silence. Lookups that take turns wait where one of them does, so that a listing with
related rows returns where its calls do. `Returns.exists_value?` says this of runs.
-/

namespace MessageBoard

variable {σ α β : Type}

/-- The store was never silent, or there is a limit that ends the silence. -/
def Heard (limit : Option Duration) (xs : List Exchange) : Prop :=
  limit = none → ∀ x ∈ xs, x.reply ≠ .silence

namespace Program

/-- The program comes to something, whatever the replies; without a limit, silence is not one. -/
inductive Returns (limit : Option Duration) : Program α → Prop
  | done (a : α) : Returns limit (.done a)
  | ask {request : Request} {next : Reply → Program α}
    (h : ∀ reply, (limit = none → reply ≠ .silence) → Returns limit (next reply)) :
    Returns limit (.ask request next)

namespace Returns

variable {limit : Option Duration} {p : Program α}

theorem bind (h : p.Returns limit) {f : α → Program β} (hf : ∀ a, (f a).Returns limit) :
    (p.bind f).Returns limit := by
  induction h with
  | done a => exact hf a
  | ask _ ih => exact .ask ih

theorem andThen {p : Operation α} (h : p.Returns limit) {f : α → Operation β}
    (hf : ∀ a, (f a).Returns limit) : (p.andThen f).Returns limit := by
  refine h.bind fun x => ?_
  cases x with
  | ok a => exact hf a
  | error e => exact .done _

theorem orElse_done (p : Program α) (a : α) : (p.orElse (.done a)).Returns limit := by
  induction p with
  | done b => exact .done b
  | ask request next ih => exact .ask fun reply _ => ih reply
  | stalled => exact .done a

theorem within (d : Duration) (expired : α) (p : Program α) :
    (p.within d expired).Returns limit := by
  cases p with
  | done a => exact .done a
  | ask request next =>
    rw [Program.within]
    by_cases hd : d.nanos = 0
    · rw [if_pos hd]
      exact .done expired
    · rw [if_neg hd]
      exact orElse_done _ expired
  | stalled => exact .done expired

/-- Against a store that is heard, the run has a value. -/
theorem exists_value? (h : p.Returns limit) (store : Store σ) (s : σ)
    (hheard : Heard limit (p.run store s).exchanges) : ∃ a, (p.run store s).value? = some a := by
  induction h generalizing s with
  | done a => exact ⟨a, rfl⟩
  | @ask request next _ ih =>
    have hreply (hlimit : limit = none) : (store request s).1 ≠ .silence :=
      hheard hlimit ⟨request, (store request s).1⟩ List.mem_cons_self
    exact ih _ hreply _ fun hlimit x hx => hheard hlimit x (List.mem_cons_of_mem _ hx)

end Returns

end Program

open Program (Returns)

/-! ## Calls -/

namespace Operation

variable {request : Request}

theorem returns_ask {next : Reply → Operation α} (hrows : ∀ rows, (next (.rows rows)).Returns none)
    (hrefused : ∀ fault, (next (.refused fault)).Returns none)
    (hlost : ∀ fault, (next (.lost fault)).Returns none) :
    (Program.ask request next).Returns none :=
  .ask fun reply hreply => by
    cases reply with
    | rows rows => exact hrows rows
    | refused fault => exact hrefused fault
    | lost fault => exact hlost fault
    | silence => exact absurd rfl (hreply rfl)

theorem returns_abandon (e : Failure) : (abandon e : Operation α).Returns none :=
  .ask fun _ _ => .done _

theorem returns_commit (a : α) : (commit a).Returns none :=
  returns_ask (fun _ => .done _) (fun _ => returns_abandon _) fun _ => .done _

theorem returns_step {γ : Type} {read : List Row → Except Failure γ} {next : γ → Operation α}
    (h : ∀ a, (next a).Returns none) : (step request read next).Returns none := by
  refine returns_ask (fun rows => ?_) (fun _ => returns_abandon _) fun _ => .done _
  dsimp only
  cases read rows with
  | ok a => exact h a
  | error e => exact returns_abandon e

theorem returns_transaction (s : Statement) (read : List Row → Except Failure α) :
    (transaction s read).Returns none :=
  returns_ask (fun _ => returns_step returns_commit) (fun _ => .done _) fun _ => .done _

theorem returns_within {p : Operation α} (h : p.Returns none) (limit : Option Duration) :
    (within limit p).Returns limit := by
  cases limit with
  | none => exact h
  | some d => exact Returns.within d _ p

end Operation

theorem Plan.returns_run (p : Plan α) (limit : Option Duration) : (p.run limit).Returns limit :=
  Operation.returns_within
    ((Operation.returns_transaction p.statement p.read).andThen fun x => .done x) limit

theorem Call.returns_run (c : Call) (limit : Option Duration) : (c.run limit).Returns limit := by
  rw [Call.run_eq]
  cases c.plan with
  | error e => exact .done _
  | ok p => exact p.returns_run limit

/-! ## Listings with related rows -/

namespace Related

variable {limit : Option Duration}

theorem returns_optional {p : Operation α} (h : p.Returns limit) : (optional p).Returns limit := by
  refine h.bind fun x => ?_
  cases x with
  | ok a => exact .done _
  | error e =>
    dsimp only
    by_cases he : e.isNotFound = true
    · rw [if_pos he]
      exact .done _
    · rw [if_neg he]
      exact .done _

theorem Lookup.returns_run (l : Lookup) (limit : Option Duration) :
    (l.run limit).Returns limit := by
  cases l with
  | user id => exact returns_optional (Call.returns_run (.get .user id) limit)
  | forum id => exact returns_optional (Call.returns_run (.get .forum id) limit)
  | votes v target => exact Call.returns_run (.sumVotes v target) limit
  | count r column id => exact Call.returns_run (.count r _) limit

/-- Each lookup returns from where it stands. -/
def Returning (limit : Option Duration) : (ls : List Lookup) → Pending ls → Prop
  | [], _ => True
  | _ :: ls, (p, ps) => p.Returns limit ∧ Returning limit ls ps

namespace Returning

variable {ls : List Lookup} {ps : Pending ls}

theorem begin (limit : Option Duration) (ls : List Lookup) :
    Returning limit ls (Related.begin limit ls) := by
  induction ls with
  | nil => trivial
  | cons l ls ih => exact ⟨l.returns_run limit, ih⟩

theorem of_ask? (h : Returning limit ls ps) {i : Nat} {request : Request}
    {next : Reply → Pending ls} (hask : ask? ls ps i = some (request, next)) {reply : Reply}
    (hreply : limit = none → reply ≠ .silence) : Returning limit ls (next reply) := by
  induction ls generalizing i with
  | nil => cases hask
  | cons l ls ih =>
    obtain ⟨p, ps⟩ := ps
    obtain ⟨hp, hps⟩ := h
    cases i with
    | zero =>
      cases hp with
      | done a => cases hask
      | ask hp =>
        cases hask
        exact ⟨hp reply hreply, hps⟩
    | succ i =>
      rw [ask?_succ] at hask
      obtain ⟨⟨request', next'⟩, hask', heq⟩ := Option.map_eq_some_iff.1 hask
      cases heq
      exact ⟨hp, ih hps hask'⟩

theorem inOrder (h : Returning limit ls ps) : (Related.inOrder ls ps).Returns limit := by
  induction ls with
  | nil => exact .done _
  | cons l ls ih => exact h.1.andThen fun _ => (ih h.2).andThen fun _ => .done _

theorem together (h : Returning limit ls ps) (turns : List Nat) :
    (Related.together turns ls ps).Returns limit := by
  induction turns generalizing ps with
  | nil =>
    rw [Related.together]
    cases failure? ls ps with
    | some e => exact .done _
    | none => exact h.inOrder
  | cons i turns ih =>
    rw [Related.together]
    cases failure? ls ps with
    | some e => exact .done _
    | none =>
      dsimp only
      cases hask : ask? ls ps i with
      | none => exact ih h
      | some asked => exact .ask fun reply hreply => ih (h.of_ask? hask hreply)

end Returning

theorem returns_collectFrom {f : Nat → α → Operation β} (hf : ∀ k a, (f k a).Returns limit)
    (k : Nat) (as : List α) : (collectFrom f k as).Returns limit := by
  induction as generalizing k with
  | nil => exact .done _
  | cons a as ih => exact (hf k a).andThen fun _ => (ih (k + 1)).andThen fun _ => .done _

theorem returns_listTogether (limit : Option Duration) (turns : Nat → List Nat) (r : Resource)
    (f : Filter) : (listTogether limit turns r f).Returns limit := by
  refine (Call.returns_run (.list r f) limit).andThen fun page => ?_
  have hdetails (k : Nat) (a : r.Record) : (detailsTogether limit (turns k) r a).Returns limit :=
    ((Returning.begin limit (lookups r a)).together (turns k)).andThen fun _ => .done _
  exact (returns_collectFrom hdetails 0 page.rows).andThen fun _ => .done _

end Related

end MessageBoard
