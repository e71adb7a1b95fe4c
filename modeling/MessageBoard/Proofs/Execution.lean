import MessageBoard.Store.Outcome

/-!
# Executions against a store

A time limit changes what a stalled program comes to and nothing else, unless there is no time at
all.
-/

namespace MessageBoard

namespace Outcome

variable {σ α : Type} (o : Outcome σ α)

def Acknowledged (request : Request) : Prop := ∃ rows, ⟨request, .rows rows⟩ ∈ o.exchanges

end Outcome

/-- A limit that leaves a call some time, as no limit at all does. -/
def HasTime (limit : Option Duration) : Prop := ∀ d, limit = some d → d.nanos ≠ 0

theorem exists_of_not_hasTime {limit : Option Duration} (h : ¬ HasTime limit) :
    ∃ d, limit = some d ∧ d.nanos = 0 := by
  apply Classical.byContradiction
  intro hnone
  exact h fun d hd hzero => hnone ⟨d, hd, hzero⟩

namespace Program

variable {σ α : Type} (store : Store σ)

def Sends (p : Program α) (statement : Statement) : Prop :=
  ∃ (σ : Type) (store : Store σ) (s : σ), .execute statement ∈ (p.run store s).requests

@[simp] theorem run_done (a : α) (s : σ) : (done a).run store s = ⟨some a, [], s⟩ := rfl

theorem run_ask (request : Request) (next : Reply → Program α) (s : σ) :
    (ask request next).run store s =
      { (next (store request s).1).run store (store request s).2 with
        exchanges := ⟨request, (store request s).1⟩ ::
          ((next (store request s).1).run store (store request s).2).exchanges } := rfl

theorem run_orElse_done (p : Program α) (a : α) (s : σ) :
    (p.orElse (done a)).run store s =
      { p.run store s with value? := some ((p.run store s).value?.getD a) } := by
  induction p generalizing s with
  | done b => rfl
  | ask request next ih => simp only [orElse, run_ask, ih]
  | stalled => rfl

theorem run_within (limit : Duration) (hl : limit.nanos ≠ 0) (expired : α) (p : Program α) (s : σ) :
    (p.within limit expired).run store s =
      { p.run store s with value? := some ((p.run store s).value?.getD expired) } := by
  cases p with
  | done a => rfl
  | ask request next => rw [within, if_neg hl, run_orElse_done]
  | stalled => rfl

/-- Where there is no time, a program that would have to ask expires at once. -/
theorem within_of_noTime (limit : Duration) (hl : limit.nanos = 0) (expired : α)
    (request : Request) (next : Reply → Program α) :
    (ask request next).within limit expired = done expired := if_pos hl

def Asks (p : Program α) : Prop := ∃ request next, p = ask request next

namespace Asks

variable {p : Program α}

theorem bind {β : Type} (h : p.Asks) (f : α → Program β) : (p.bind f).Asks := by
  obtain ⟨request, next, rfl⟩ := h
  exact ⟨request, fun reply => (next reply).bind f, rfl⟩

theorem andThen {β : Type} {p : Operation α} (h : p.Asks) (f : α → Operation β) :
    (p.andThen f).Asks := h.bind _

theorem within (h : p.Asks) {limit : Duration} (hl : limit.nanos ≠ 0) (expired : α) :
    (p.within limit expired).Asks := by
  obtain ⟨request, next, rfl⟩ := h
  rw [Program.within, if_neg hl]
  exact ⟨request, fun reply => (next reply).orElse (done expired), rfl⟩

theorem exchanges_ne_nil (h : p.Asks) (s : σ) : (p.run store s).exchanges ≠ [] := by
  obtain ⟨request, next, rfl⟩ := h
  exact List.cons_ne_nil _ _

end Asks

end Program

/-- A limit that leaves some time does not change what is said to the store. -/
theorem Operation.run_within {σ α : Type} (store : Store σ) {limit : Option Duration}
    (hl : HasTime limit) (p : Operation α) (s : σ) :
    (Operation.within limit p).run store s =
      { p.run store s with
        value? := (p.run store s).value?.or (limit.map fun d => .error (.timeout d)) } := by
  cases limit with
  | none => simp [within]
  | some d =>
    rw [within, Program.run_within store d (hl d rfl)]
    cases (p.run store s).value? <;> rfl

end MessageBoard
