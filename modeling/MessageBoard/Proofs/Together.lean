import MessageBoard.Proofs.Discipline
import MessageBoard.Related

/-!
# Lookups that take turns

The lookups for a record can be done together: each goes on when its answer has come, and the first
failure ends them all. `Related.together` takes the order of the turns as given, and finishes the
lookups one after the other when there are no turns left; to do all of them one after the other is
the case without turns.

`Related.run_together` says whose each exchange was. A lookup that is alone with its own share of
the exchanges comes to where it stands in the end, and these ends decide what is told of the record.
-/

namespace MessageBoard

variable {σ α β : Type}

namespace Program

/-- The program stands at `q` when it has had these exchanges. -/
inductive Goes : Program α → List Exchange → Program α → Prop
  | here (p : Program α) : Goes p [] p
  | ask {request : Request} {next : Reply → Program α} {reply : Reply} {xs : List Exchange}
    {q : Program α} (h : Goes (next reply) xs q) :
    Goes (.ask request next) (⟨request, reply⟩ :: xs) q

namespace Goes

variable {p q q' : Program α} {xs ys : List Exchange}

theorem append (hp : p.Goes xs q) (hq : q.Goes ys q') : p.Goes (xs ++ ys) q' := by
  induction hp with
  | here p => exact hq
  | ask _ ih => exact .ask (ih hq)

theorem unique (h : p.Goes xs q) (h' : p.Goes xs q') : q = q' := by
  induction h with
  | here p => cases h'; rfl
  | ask _ ih => cases h' with | ask h' => exact ih h'

end Goes

/-- The program is at its end, with this value or without one. -/
inductive Ends : Program α → Option α → Prop
  | done (a : α) : Ends (.done a) (some a)
  | stalled : Ends .stalled none

variable (store : Store σ)

theorem exists_goes_run (p : Program α) (s : σ) :
    ∃ q, p.Goes (p.run store s).exchanges q ∧ q.Ends (p.run store s).value? := by
  induction p generalizing s with
  | done a => exact ⟨.done a, .here _, .done a⟩
  | ask request next ih =>
    obtain ⟨q, hgoes, hends⟩ := ih (store request s).1 (store request s).2
    exact ⟨q, .ask hgoes, hends⟩
  | stalled => exact ⟨.stalled, .here _, .stalled⟩

theorem run_bind (p : Program α) (f : α → Program β) (s : σ) :
    (p.bind f).run store s =
      let o := p.run store s
      match o.value? with
      | some a =>
        { (f a).run store o.state with
          exchanges := o.exchanges ++ ((f a).run store o.state).exchanges }
      | none => { o with value? := none } := by
  induction p generalizing s with
  | done a => rfl
  | ask request next ih =>
    simp only [bind, run_ask, ih]
    cases ((next (store request s).1).run store (store request s).2).value? <;> rfl
  | stalled => rfl

end Program

namespace Operation

variable (store : Store σ)

theorem run_andThen (p : Operation α) (f : α → Operation β) (s : σ) :
    (p.andThen f).run store s =
      let o := p.run store s
      match o.value? with
      | some (.ok a) =>
        { (f a).run store o.state with
          exchanges := o.exchanges ++ ((f a).run store o.state).exchanges }
      | some (.error e) => { o with value? := some (.error e) }
      | none => { o with value? := none } := by
  rw [andThen, Program.run_bind]
  generalize p.run store s = o
  obtain ⟨_ | x, xs, s'⟩ := o
  · rfl
  · cases x with
    | ok a => rfl
    | error e => simp [fail]

theorem run_andThen_ok (p : Operation α) (f : α → β) (s : σ) :
    (p.andThen fun a => .done (.ok (f a))).run store s =
      { p.run store s with value? := (p.run store s).value?.map (Except.map f) } := by
  rw [run_andThen]
  generalize p.run store s = o
  obtain ⟨_ | x, xs, s'⟩ := o
  · rfl
  · cases x with
    | ok a => simp [Except.map]
    | error e => rfl

end Operation

namespace Related

/-! ## Taking turns -/

@[reducible] def Pending : List Lookup → Type
  | [] => Unit
  | l :: ls => Operation l.Found × Pending ls

def begin (limit : Option Duration) : (ls : List Lookup) → Pending ls
  | [] => ()
  | l :: ls => (l.run limit, begin limit ls)

/-- The failure of the first lookup that has failed. -/
def failure? : (ls : List Lookup) → Pending ls → Option Failure
  | [], () => none
  | _ :: _, (.done (.error e), _) => some e
  | _ :: ls, (_, ps) => failure? ls ps

def found? : (ls : List Lookup) → Pending ls → Option (Findings ls)
  | [], () => some ()
  | _ :: ls, (.done (.ok a), ps) => (found? ls ps).map fun as => (a, as)
  | _ :: _, _ => none

/-- What the lookup at this place asks for, and what becomes of the lookups when it is answered. -/
def ask? : (ls : List Lookup) → Pending ls → Nat → Option (Request × (Reply → Pending ls))
  | [], _, _ => none
  | _ :: _, (.ask request next, ps), 0 => some (request, fun reply => (next reply, ps))
  | _ :: _, _, 0 => none
  | _ :: ls, (p, ps), i + 1 =>
    (ask? ls ps i).map fun (request, next) => (request, fun reply => (p, next reply))

/-- Finishes the lookups one after the other. -/
def inOrder : (ls : List Lookup) → Pending ls → Operation (Findings ls)
  | [], () => .done (.ok ())
  | _ :: ls, (p, ps) => p.andThen fun a => (inOrder ls ps).andThen fun as => .done (.ok (a, as))

/-- Lets the lookups ask in these turns, then finishes them. The first failure is that of all. -/
def together : (turns : List Nat) → (ls : List Lookup) → Pending ls → Operation (Findings ls)
  | [], ls, ps =>
    match failure? ls ps with
    | some e => .fail e
    | none => inOrder ls ps
  | i :: turns, ls, ps =>
    match failure? ls ps with
    | some e => .fail e
    | none =>
      match ask? ls ps i with
      | some (request, next) => .ask request fun reply => together turns ls (next reply)
      | none => together turns ls ps

/-! ## Whose exchange it was -/

/-- Exchanges, each with the place of the lookup that it belongs to. -/
abbrev Trace := List (Nat × Exchange)

namespace Trace

def exchanges (trace : Trace) : List Exchange := trace.map (·.2)

def share (trace : Trace) (i : Nat) : List Exchange :=
  trace.filterMap fun x => if x.1 = i then some x.2 else none

def cons (xs : List Exchange) (trace : Trace) : Trace :=
  xs.map (fun x => (0, x)) ++ trace.map fun x => (x.1 + 1, x.2)

theorem exchanges_cons (xs : List Exchange) (trace : Trace) :
    (cons xs trace).exchanges = xs ++ trace.exchanges := by
  simp [cons, exchanges, Function.comp_def]

theorem share_append (t₁ t₂ : Trace) (i : Nat) : share (t₁ ++ t₂) i = share t₁ i ++ share t₂ i :=
  List.filterMap_append

theorem share_cons_zero (xs : List Exchange) (trace : Trace) : (cons xs trace).share 0 = xs := by
  have hfirst : share (xs.map fun x => (0, x)) 0 = xs := by
    rw [share, List.filterMap_map]
    exact List.filterMap_some
  have hrest : share (trace.map fun x => (x.1 + 1, x.2)) 0 = [] := by
    rw [share, List.filterMap_map]
    exact List.filterMap_eq_nil_iff.2 fun _ _ => rfl
  rw [cons, share_append, hfirst, hrest, List.append_nil]

theorem share_cons_succ (xs : List Exchange) (trace : Trace) (i : Nat) :
    (cons xs trace).share (i + 1) = trace.share i := by
  have hfirst : share (xs.map fun x => (0, x)) (i + 1) = [] := by
    rw [share, List.filterMap_map]
    exact List.filterMap_eq_nil_iff.2 fun _ _ => rfl
  have hrest : share (trace.map fun x => (x.1 + 1, x.2)) (i + 1) = trace.share i := by
    simp only [share, List.filterMap_map, Function.comp_def, Nat.add_right_cancel_iff]
  rw [cons, share_append, hfirst, hrest, List.nil_append]

end Trace

/-- Each lookup goes along its share. -/
def Went : (ls : List Lookup) → Pending ls → (Nat → List Exchange) → Pending ls → Prop
  | [], _, _, _ => True
  | _ :: ls, (p, ps), share, (q, qs) => p.Goes (share 0) q ∧ Went ls ps (fun i => share (i + 1)) qs

namespace Went

variable {ls : List Lookup} {ps qs rs : Pending ls} {share share' : Nat → List Exchange}

theorem refl (ls : List Lookup) (ps : Pending ls) : Went ls ps (fun _ => []) ps := by
  induction ls with
  | nil => trivial
  | cons l ls ih => exact ⟨.here _, ih ps.2⟩

theorem trans (h : Went ls ps share qs) (h' : Went ls qs share' rs) :
    Went ls ps (fun i => share i ++ share' i) rs := by
  induction ls generalizing share share' with
  | nil => trivial
  | cons l ls ih => exact ⟨h.1.append h'.1, ih h.2 h'.2⟩

theorem congr (h : Went ls ps share qs) (hshare : ∀ i, share i = share' i) :
    Went ls ps share' qs := funext hshare ▸ h

end Went

theorem ask?_succ {l : Lookup} {ls : List Lookup} (p : Operation l.Found) (ps : Pending ls)
    (i : Nat) : ask? (l :: ls) (p, ps) (i + 1) =
      (ask? ls ps i).map fun (request, next) => (request, fun reply => (p, next reply)) := by
  cases p <;> rfl

theorem went_of_ask? {ls : List Lookup} {ps : Pending ls} {i : Nat} {request : Request}
    {next : Reply → Pending ls} (h : ask? ls ps i = some (request, next)) (reply : Reply) :
    Went ls ps (Trace.share [(i, ⟨request, reply⟩)]) (next reply) := by
  induction ls generalizing i with
  | nil => cases h
  | cons l ls ih =>
    obtain ⟨p, ps⟩ := ps
    cases i with
    | zero =>
      cases p with
      | ask request' next' =>
        cases h
        exact ⟨.ask (.here _), Went.refl ls ps⟩
      | done x => cases h
      | stalled => cases h
    | succ i =>
      rw [ask?_succ] at h
      obtain ⟨⟨request', next'⟩, hask, heq⟩ := Option.map_eq_some_iff.1 h
      cases heq
      exact ⟨.here _, (ih hask).congr fun j => (Trace.share_cons_succ [] [_] j).symm⟩

def verdict (ls : List Lookup) (qs : Pending ls) : Option (Except Failure (Findings ls)) :=
  match failure? ls qs with
  | some e => some (.error e)
  | none => (found? ls qs).map .ok

variable (store : Store σ)

/-- A run of lookups: what they come to is decided by where each of them stands. -/
def Traced (ls : List Lookup) (ps : Pending ls) (o : Outcome σ (Except Failure (Findings ls))) :
    Prop :=
  ∃ (trace : Trace) (qs : Pending ls), o.exchanges = trace.exchanges ∧
    Went ls ps trace.share qs ∧ o.value? = verdict ls qs

theorem run_inOrder (ls : List Lookup) (ps : Pending ls) (h : failure? ls ps = none) (s : σ) :
    Traced ls ps ((inOrder ls ps).run store s) := by
  induction ls generalizing s with
  | nil => exact ⟨[], (), rfl, trivial, rfl⟩
  | cons l ls ih =>
    obtain ⟨p, ps⟩ := ps
    have hrest : failure? ls ps = none := by
      cases p with
      | done x => cases x with
        | ok a => exact h
        | error e => cases h
      | ask _ _ => exact h
      | stalled => exact h
    obtain ⟨q, hgoes, hends⟩ := p.exists_goes_run store s
    rw [inOrder, Operation.run_andThen]
    generalize p.run store s = o at hgoes hends
    obtain ⟨value?, xs, s'⟩ := o
    have hwent {trace : Trace} {qs : Pending ls} (h : Went ls ps trace.share qs) :
        Went (l :: ls) (p, ps) (Trace.cons xs trace).share (q, qs) :=
      ⟨(Trace.share_cons_zero xs trace).symm ▸ hgoes,
        h.congr fun i => (Trace.share_cons_succ xs trace i).symm⟩
    have hxs : xs = (Trace.cons xs []).exchanges := by
      rw [Trace.exchanges_cons]
      exact (List.append_nil xs).symm
    cases hends with
    | stalled =>
      refine ⟨.cons xs [], (.stalled, ps), hxs, hwent (Went.refl ls ps), ?_⟩
      simp [verdict, failure?, found?, hrest]
    | done x =>
      cases x with
      | error e =>
        exact ⟨.cons xs [], (.done (.error e), ps), hxs, hwent (Went.refl ls ps), rfl⟩
      | ok a =>
        obtain ⟨trace, qs, hexchanges, hqs, hvalue⟩ := ih ps hrest s'
        simp only [Operation.run_andThen_ok]
        refine ⟨.cons xs trace, (.done (.ok a), qs), ?_, hwent hqs, ?_⟩
        · rw [Trace.exchanges_cons, hexchanges]
        · simp only [hvalue, verdict, failure?, found?]
          cases failure? ls qs with
          | some e => rfl
          | none => cases found? ls qs <;> rfl

theorem run_together (turns : List Nat) (ls : List Lookup) (ps : Pending ls) (s : σ) :
    Traced ls ps ((together turns ls ps).run store s) := by
  induction turns generalizing ps s with
  | nil =>
    rw [together]
    cases h : failure? ls ps with
    | some e => exact ⟨[], ps, rfl, Went.refl ls ps, by rw [verdict, h]; rfl⟩
    | none => exact run_inOrder store ls ps h s
  | cons i turns ih =>
    rw [together]
    cases h : failure? ls ps with
    | some e => exact ⟨[], ps, rfl, Went.refl ls ps, by rw [verdict, h]; rfl⟩
    | none =>
      cases hask : ask? ls ps i with
      | none => exact ih ps s
      | some asked =>
        obtain ⟨request, next⟩ := asked
        obtain ⟨trace, qs, hexchanges, hqs, hvalue⟩ :=
          ih (next (store request s).1) (store request s).2
        refine ⟨(i, ⟨request, (store request s).1⟩) :: trace, qs, ?_, ?_, hvalue⟩
        · exact congrArg (List.cons _) hexchanges
        · refine ((went_of_ask? hask _).trans hqs).congr fun j => ?_
          exact (Trace.share_append [_] trace j).symm

/-- Both transactions are open when the first row is read, and the one that gets no number fails. -/
example :
    ((together [1, 0] [.user .zero, .votes .post .zero] (begin none _)).run
      (fun _ s => (.rows [], s)) ()).requests =
      [.start, .start, .execute (.get User.schema .zero), .commit,
        .execute (.sumVotes Votable.post.schema .zero), .rollback] := rfl

/-! ## Where lookups end -/

section Ends

variable {limit : Option Duration} {ls : List Lookup} {share : Nat → List Exchange}
  {qs : Pending ls}

theorem exists_failed (h : Went ls (begin limit ls) share qs) {e : Failure}
    (he : failure? ls qs = some e) :
    ∃ (i : Nat) (l : Lookup), ls[i]? = some l ∧
      (l.run limit).Goes (share i) (.done (.error e)) := by
  induction ls generalizing share with
  | nil => cases he
  | cons l ls ih =>
    obtain ⟨q, qs⟩ := qs
    have hrest (hq : failure? ls qs = some e) : ∃ (i : Nat) (l' : Lookup),
        (l :: ls)[i]? = some l' ∧ (l'.run limit).Goes (share i) (.done (.error e)) := by
      obtain ⟨i, l', hl, hgoes⟩ := ih h.2 hq
      exact ⟨i + 1, l', hl, hgoes⟩
    cases q with
    | done x =>
      cases x with
      | error e' =>
        obtain rfl := Option.some.inj he
        exact ⟨0, l, rfl, h.1⟩
      | ok a => exact hrest he
    | ask _ _ => exact hrest he
    | stalled => exact hrest he

theorem failure?_ne_none (h : Went ls (begin limit ls) share qs) {i : Nat} {l : Lookup}
    (hl : ls[i]? = some l) {e : Failure} (he : (l.run limit).Goes (share i) (.done (.error e))) :
    failure? ls qs ≠ none := by
  induction ls generalizing i share with
  | nil => cases hl
  | cons l' ls ih =>
    obtain ⟨q, qs⟩ := qs
    cases i with
    | zero =>
      obtain rfl := Option.some.inj hl
      obtain rfl := h.1.unique he
      exact Option.some_ne_none e
    | succ i =>
      have hrest := ih h.2 hl he
      cases q with
      | done x =>
        cases x with
        | error e' => exact Option.some_ne_none e'
        | ok a => exact hrest
      | ask _ _ => exact hrest
      | stalled => exact hrest

variable (limit) in
/-- Each lookup, along its share, has found this. -/
def Finds : (ls : List Lookup) → (Nat → List Exchange) → Findings ls → Prop
  | [], _, _ => True
  | l :: ls, share, (a, as) =>
    (l.run limit).Goes (share 0) (.done (.ok a)) ∧ Finds ls (fun i => share (i + 1)) as

theorem finds_of_found? (h : Went ls (begin limit ls) share qs) {as : Findings ls}
    (ha : found? ls qs = some as) : Finds limit ls share as := by
  induction ls generalizing share with
  | nil => trivial
  | cons l ls ih =>
    obtain ⟨q, qs⟩ := qs
    cases q with
    | done x =>
      cases x with
      | error e => cases ha
      | ok a =>
        obtain ⟨as', has, rfl⟩ := Option.map_eq_some_iff.1 ha
        exact ⟨h.1, ih h.2 has⟩
    | ask _ _ => cases ha
    | stalled => cases ha

end Ends

/-! ## Listings -/

variable (limit : Option Duration)

/-- What a record is shown with, its lookups done in these turns. -/
def detailsTogether (turns : List Nat) (r : Resource) (a : r.Record) : Operation r.Details :=
  (together turns (lookups r a) (begin limit (lookups r a))).andThen fun found =>
    .done (.ok (assemble r a found))

def collectFrom (f : Nat → α → Operation β) : Nat → List α → Operation (List β)
  | _, [] => .done (.ok [])
  | k, a :: as => (f k a).andThen fun b => (collectFrom f (k + 1) as).andThen fun bs =>
    .done (.ok (b :: bs))

def listTogether (turns : Nat → List Nat) (r : Resource) (f : Filter) :
    Operation (Page r.Details) :=
  (Repository.list limit r f).andThen fun page =>
    (collectFrom (fun k => detailsTogether limit (turns k) r) 0 page.rows).andThen fun rows =>
      .done (.ok ⟨rows, page.metadata⟩)

theorem inOrder_begin (ls : List Lookup) : inOrder ls (begin limit ls) = findAll limit ls := by
  induction ls with
  | nil => rfl
  | cons l ls ih => rw [begin, inOrder, findAll, ih]

theorem collectFrom_eq (f : α → Operation β) (k : Nat) (as : List α) :
    collectFrom (fun _ => f) k as = collect f as := by
  induction as generalizing k with
  | nil => rfl
  | cons a as ih => rw [collectFrom, collect, ih]

/-- The operations done one after the other, each with its trace, up to the first one that has no
value. -/
inductive Along (P : α → Trace → Option (Except Failure β) → Prop) :
    List α → List Trace → Option (Except Failure (List β)) → Prop
  | nil : Along P [] [] (some (.ok []))
  | cons {a : α} {as : List α} {b : β} {trace : Trace} {traces : List Trace}
    {v : Option (Except Failure (List β))} (head : P a trace (some (.ok b)))
    (tail : Along P as traces v) :
    Along P (a :: as) (trace :: traces) (v.map (Except.map (b :: ·)))
  | failed {a : α} {as : List α} {e : Failure} {trace : Trace} (h : P a trace (some (.error e))) :
    Along P (a :: as) [trace] (some (.error e))
  | stalled {a : α} {as : List α} {trace : Trace} (h : P a trace none) :
    Along P (a :: as) [trace] none

namespace Along

variable {P : α → Trace → Option (Except Failure β) → Prop} {as : List α} {traces : List Trace}
  {v : Option (Except Failure (List β))}

theorem length_le (h : Along P as traces v) : traces.length ≤ as.length := by
  induction h with
  | nil => exact Nat.le_refl _
  | cons _ _ ih => exact Nat.succ_le_succ ih
  | failed _ => exact Nat.succ_le_succ (Nat.zero_le _)
  | stalled _ => exact Nat.succ_le_succ (Nat.zero_le _)

theorem ok (h : Along P as traces v) {bs : List β} (hv : v = some (.ok bs)) :
    bs.length = as.length ∧ traces.length = as.length ∧
      ∀ (k : Nat) (a : α) (trace : Trace) (b : β), as[k]? = some a → traces[k]? = some trace →
        bs[k]? = some b → P a trace (some (.ok b)) := by
  induction h generalizing bs with
  | nil =>
    obtain rfl := Except.ok.inj (Option.some.inj hv)
    exact ⟨rfl, rfl, fun k a trace b ha => by cases ha⟩
  | @cons a as b trace traces v head tail ih =>
    obtain ⟨x, rfl, hx⟩ := Option.map_eq_some_iff.1 hv
    cases x with
    | error e => cases hx
    | ok bs' =>
      obtain rfl := Except.ok.inj hx
      obtain ⟨hlength, htraces, hall⟩ := ih rfl
      refine ⟨congrArg (· + 1) hlength, congrArg (· + 1) htraces, fun k a' t b' ha ht hb => ?_⟩
      cases k with
      | zero =>
        obtain rfl := Option.some.inj ha
        obtain rfl := Option.some.inj ht
        obtain rfl := Option.some.inj hb
        exact head
      | succ k => exact hall k a' t b' ha ht hb
  | failed _ => cases hv
  | stalled _ => cases hv

theorem error (h : Along P as traces v) {e : Failure} (hv : v = some (.error e)) :
    ∃ (k : Nat) (a : α) (trace : Trace), as[k]? = some a ∧ traces[k]? = some trace ∧
      P a trace (some (.error e)) := by
  induction h with
  | nil => cases hv
  | cons head tail ih =>
    obtain ⟨x, rfl, hx⟩ := Option.map_eq_some_iff.1 hv
    cases x with
    | ok bs => cases hx
    | error e' =>
      obtain rfl := Except.error.inj hx
      obtain ⟨k, a, trace, ha, ht, hp⟩ := ih rfl
      exact ⟨k + 1, a, trace, ha, ht, hp⟩
  | failed h =>
    obtain rfl := Except.error.inj (Option.some.inj hv)
    exact ⟨0, _, _, rfl, rfl, h⟩
  | stalled _ => cases hv

theorem fails (h : Along P as traces v) {k : Nat} {a : α} {trace : Trace} (ha : as[k]? = some a)
    (ht : traces[k]? = some trace) :
    ∃ w, P a trace w ∧ ∀ e, w = some (.error e) → v = some (.error e) := by
  induction h generalizing k with
  | nil => cases ha
  | cons head tail ih =>
    cases k with
    | zero =>
      obtain rfl := Option.some.inj ha
      obtain rfl := Option.some.inj ht
      exact ⟨_, head, fun e he => by cases he⟩
    | succ k =>
      obtain ⟨w, hp, hw⟩ := ih ha ht
      refine ⟨w, hp, fun e he => ?_⟩
      rw [hw e he]
      rfl
  | failed h =>
    cases k with
    | zero =>
      obtain rfl := Option.some.inj ha
      obtain rfl := Option.some.inj ht
      refine ⟨_, h, fun e he => ?_⟩
      cases he
      rfl
    | succ k => cases ht
  | stalled h =>
    cases k with
    | zero =>
      obtain rfl := Option.some.inj ha
      obtain rfl := Option.some.inj ht
      exact ⟨_, h, fun e he => by cases he⟩
    | succ k => cases ht

end Along

theorem run_collectFrom {P : α → Trace → Option (Except Failure β) → Prop}
    {f : Nat → α → Operation β}
    (hf : ∀ k a s, ∃ trace : Trace, ((f k a).run store s).exchanges = trace.exchanges ∧
      P a trace ((f k a).run store s).value?) (k : Nat) (as : List α) (s : σ) :
    ∃ traces : List Trace,
      ((collectFrom f k as).run store s).exchanges = traces.flatMap Trace.exchanges ∧
        Along P as traces ((collectFrom f k as).run store s).value? := by
  induction as generalizing k s with
  | nil => exact ⟨[], rfl, .nil⟩
  | cons a as ih =>
    obtain ⟨trace, htrace, hp⟩ := hf k a s
    rw [collectFrom, Operation.run_andThen]
    generalize (f k a).run store s = o at htrace hp
    obtain ⟨_ | x, xs, s'⟩ := o
    · exact ⟨[trace], by simpa using htrace, .stalled hp⟩
    · cases x with
      | error e => exact ⟨[trace], by simpa using htrace, .failed hp⟩
      | ok b =>
        obtain ⟨traces, hexchanges, halong⟩ := ih (k + 1) s'
        simp only [Operation.run_andThen_ok]
        refine ⟨trace :: traces, ?_, .cons hp halong⟩
        rw [List.flatMap_cons, ← htrace, hexchanges]

end Related

end MessageBoard
