import MessageBoard.Proofs.Declared
import MessageBoard.Proofs.Edits
import MessageBoard.Proofs.Tally

/-!
# Stores that keep votes

`Teller` is a store that does what it is asked of its tables of votes. A row that fails the check of
its column makes the whole statement fail; targets and users are taken to be there.
`Teller.records_after` says what the tables hold after any calls; each answer is read off from that.
-/

namespace MessageBoard

variable {σ α : Type}

/-! ## Stores that keep votes -/

def Votable.Takes (v : Votable) (vote : Int16) : Prop :=
  ∃ c, v.declaration.column? "vote" = some c ∧ c.Takes (.smallint vote)

theorem Votable.takes_iff {v : Votable} {vote : Int16} : v.Takes vote ↔ -1 ≤ vote ∧ vote ≤ 1 := by
  constructor
  · rintro ⟨c, hc, htakes⟩
    obtain rfl := Option.some.inj (v.column?_vote.symm.trans hc)
    exact htakes.met .sign rfl
  · intro h
    refine ⟨_, v.column?_vote, trivial, fun _ => rfl, ?_⟩
    rintro d ⟨⟩
    exact h

abbrev Polls := Votable → List Vote

/-- A store that does what it is asked of its tables of votes, whatever statement asks it, unless a
row fails the check. While a transaction is open there is a draft beside what was committed. -/
structure Teller (store : Store σ) where
  votes : σ → Polls
  draft : σ → Polls
  opens : ∀ s, ∃ rows s', store .start s = (.rows rows, s') ∧ votes s' = votes s ∧
    draft s' = votes s
  answers : ∀ s (v : Votable) (q : VoteQuery) statement, statement.sql = q.sql v.schema →
    (∀ row ∈ q.inserts, v.Takes row.vote) →
    ∃ rows s', store (.execute statement) s = (.rows rows, s') ∧ q.Shows v (draft s v) rows ∧
      votes s' = votes s ∧ draft s' = Function.update (draft s) v (q.next (draft s v))
  refuses : ∀ s (v : Votable) (q : VoteQuery) statement, statement.sql = q.sql v.schema →
    (∃ row ∈ q.inserts, ¬ v.Takes row.vote) →
    ∃ message constraint s', store (.execute statement) s =
      (.refused (.reported (some "23514") message constraint), s') ∧ votes s' = votes s
  commits : ∀ s, ∃ rows s', store .commit s = (.rows rows, s') ∧ votes s' = draft s
  rollsBack : ∀ s, votes (store .rollback s).2 = votes s

/-! ## One call -/

namespace Plan

variable {store : Store σ} {p : Plan α} {s s₁ s₂ : σ} {opened : List Row}

theorem body_of_read {rows committed : List Row} {s₃ : σ} {x : Except Failure α}
    (hstart : store .start s = (.rows opened, s₁))
    (hexecute : store (.execute p.statement) s₁ = (.rows rows, s₂)) (hread : p.read rows = .ok x)
    (hcommit : store .commit s₂ = (.rows committed, s₃)) :
    ∃ exchanges, p.body.run store s = ⟨some x, exchanges, s₃⟩ := by
  rw [body, Operation.transaction, Operation.inTransaction_andThen, Operation.step_andThen]
  simp only [Operation.inTransaction, Operation.step, Operation.commit, Operation.andThen,
    Program.bind, Program.run_ask, hstart, hexecute, hread, hcommit, Program.run_done]
  exact ⟨_, rfl⟩

theorem body_of_unread {rows : List Row} {e : Failure}
    (hstart : store .start s = (.rows opened, s₁))
    (hexecute : store (.execute p.statement) s₁ = (.rows rows, s₂))
    (hread : p.read rows = .error e) : ∃ exchanges, p.body.run store s =
      ⟨some (.error e), exchanges, (store .rollback s₂).2⟩ := by
  rw [body, Operation.transaction, Operation.inTransaction_andThen, Operation.step_andThen]
  simp only [Operation.inTransaction, Operation.step, Operation.abandon, Operation.fail,
    Program.run_ask, hstart, hexecute, hread, Program.run_done]
  exact ⟨_, rfl⟩

theorem body_of_refused {fault : Fault} (hstart : store .start s = (.rows opened, s₁))
    (hexecute : store (.execute p.statement) s₁ = (.refused fault, s₂)) :
    ∃ exchanges, p.body.run store s =
      ⟨some (.error (.ofFault fault)), exchanges, (store .rollback s₂).2⟩ := by
  rw [body, Operation.transaction, Operation.inTransaction_andThen, Operation.step_andThen]
  simp only [Operation.inTransaction, Operation.step, Operation.abandon, Operation.fail,
    Program.run_ask, hstart, hexecute, Program.run_done]
  exact ⟨_, rfl⟩

end Plan

namespace Teller

variable {store : Store σ} (teller : Teller store) {limit : Option Duration}

theorem run_of_body (hl : HasTime limit) {c : Call} {p : Plan c.Result} (hplan : c.plan = .ok p)
    {s s' : σ} {x : Except Failure c.Result}
    (hbody : ∃ exchanges, p.body.run store s = ⟨some x, exchanges, s'⟩) :
    ((c.run limit).run store s).value? = some x ∧ ((c.run limit).run store s).state = s' := by
  obtain ⟨exchanges, hbody⟩ := hbody
  rw [Call.run_eq, hplan, Call.runPlan, Plan.run, Operation.run_within store hl, hbody]
  exact ⟨rfl, rfl⟩

/-- A call that asks something of the votes, and reads its rows just once. -/
theorem run_of_query (hl : HasTime limit) {c : Call} {v : Votable} {q : VoteQuery}
    {read : List Row → Except Failure c.Result}
    (hplan : c.plan = .ok (.plain (q.statement v) read))
    (htakes : ∀ row ∈ q.inserts, v.Takes row.vote) {s : σ} {a : c.Result}
    (hread : ∀ rows, q.Shows v (teller.votes s v) rows → read rows = .ok a) :
    let o := (c.run limit).run store s
    o.value? = some (.ok a) ∧
      teller.votes o.state = Function.update (teller.votes s) v (q.next (teller.votes s v)) := by
  intro o
  obtain ⟨_, s₁, hstart, -, hdraft⟩ := teller.opens s
  obtain ⟨rows, s₂, hexecute, hrows, -, hnext⟩ := teller.answers s₁ v q _ (q.sql_statement v) htakes
  obtain ⟨_, s₃, hcommit, hvotes⟩ := teller.commits s₂
  rw [hdraft] at hrows hnext
  have hplain : (Plan.plain (q.statement v) read).read rows = .ok (.ok a) := by
    simp only [Plan.plain, hread rows hrows]
    rfl
  obtain ⟨hvalue, hstate⟩ :=
    run_of_body hl hplan (Plan.body_of_read hstart hexecute hplain hcommit)
  exact ⟨hvalue, by rw [hstate, hvotes, hnext]⟩

theorem run_of_refused (hl : HasTime limit) {c : Call} {v : Votable} {q : VoteQuery}
    {read : List Row → Except Failure c.Result}
    (hplan : c.plan = .ok (.plain (q.statement v) read))
    (hfails : ∃ row ∈ q.inserts, ¬ v.Takes row.vote) (s : σ) :
    let o := (c.run limit).run store s
    (∃ constraint message,
        o.value? = some (.error (.constraintViolation .check constraint message))) ∧
      teller.votes o.state = teller.votes s := by
  intro o
  obtain ⟨_, s₁, hstart, hstarted, -⟩ := teller.opens s
  obtain ⟨message, constraint, s₂, hexecute, hkept⟩ :=
    teller.refuses s₁ v q _ (q.sql_statement v) hfails
  obtain ⟨hvalue, hstate⟩ := run_of_body hl hplan (Plan.body_of_refused hstart hexecute)
  exact ⟨⟨constraint, message, hvalue⟩, by rw [hstate, teller.rollsBack, hkept, hstarted]⟩

theorem votes_of_look (hl : HasTime limit) {c : Call} {v : Votable} {q : VoteQuery}
    {read : List Row → Except Failure c.Result}
    (hplan : c.plan = .ok (.plain (q.statement v) read)) (hinserts : q.inserts = [])
    (hnext : ∀ rows, q.next rows = rows) (s : σ) :
    teller.votes ((c.run limit).run store s).state = teller.votes s := by
  have htakes : ∀ row ∈ q.inserts, v.Takes row.vote := by simp [hinserts]
  obtain ⟨_, s₁, hstart, hstarted, hdraft⟩ := teller.opens s
  obtain ⟨rows, s₂, hexecute, -, hkept, hdrafted⟩ :=
    teller.answers s₁ v q _ (q.sql_statement v) htakes
  rw [hnext, Function.update_eq_self, hdraft] at hdrafted
  cases hread : (Plan.plain (q.statement v) read).read rows with
  | ok x =>
    obtain ⟨_, s₃, hcommit, hvotes⟩ := teller.commits s₂
    obtain ⟨-, hstate⟩ := run_of_body hl hplan (Plan.body_of_read hstart hexecute hread hcommit)
    rw [hstate, hvotes, hdrafted]
  | error e =>
    obtain ⟨-, hstate⟩ := run_of_body hl hplan (Plan.body_of_unread hstart hexecute hread)
    rw [hstate, teller.rollsBack, hkept, hstarted]

variable (s : σ) (v : Votable) (target user : Uuid)

theorem run_cast (hl : HasTime limit) {vote : Int16} (h : -1 ≤ vote ∧ vote ≤ 1) :
    let o := ((Call.castVote v target user vote).run limit).run store s
    o.value? = some (.ok (Vote.inserted target user vote).head?) ∧
      teller.votes o.state = Function.update (teller.votes s) v
        (Vote.castOn target user vote (teller.votes s v)) := by
  refine teller.run_of_query hl (q := .cast target user vote) rfl (fun row hrow => ?_)
    fun _ hrows => hrows.first?
  obtain ⟨-, rfl⟩ := Vote.mem_inserted.1 hrow
  exact Votable.takes_iff.2 h

theorem run_badCast (hl : HasTime limit) {vote : Int16} (h : ¬ (-1 ≤ vote ∧ vote ≤ 1)) :
    let o := ((Call.castVote v target user vote).run limit).run store s
    (∃ constraint message,
        o.value? = some (.error (.constraintViolation .check constraint message))) ∧
      teller.votes o.state = teller.votes s := by
  have hzero : vote ≠ 0 := by
    rintro rfl
    exact h (by decide)
  exact teller.run_of_refused hl (q := .cast target user vote) rfl
    ⟨_, Vote.mem_inserted.2 ⟨hzero, rfl⟩, mt Votable.takes_iff.1 h⟩ s

theorem value_get (hl : HasTime limit) :
    (((Call.getVote v target user).run limit).run store s).value? =
      some (.ok (Vote.at? target user (teller.votes s v)).head?) :=
  (teller.run_of_query hl (q := .get target user) rfl (by simp [VoteQuery.inserts])
    fun _ hrows => hrows.first?).1

theorem value_sum (hl : HasTime limit)
    (h : -2 ^ 63 ≤ Vote.score (Vote.on target (teller.votes s v)) ∧
      Vote.score (Vote.on target (teller.votes s v)) < 2 ^ 63) :
    (((Call.sumVotes v target).run limit).run store s).value? =
      some (.ok (.ofInt (Vote.score (Vote.on target (teller.votes s v))))) := by
  refine (teller.run_of_query hl (q := .sum target) rfl (by simp [VoteQuery.inserts]) ?_).1
  intro rows hrows
  obtain ⟨row, rfl, hnumber⟩ := ShowsNumbers.number? hrows
  rw [Rows.first, Rows.readOne, hnumber 0 _ rfl h]

theorem value_count (hl : HasTime limit)
    (h : (Vote.on target (teller.votes s v)).length < 2 ^ 63) :
    (((Call.countVotes v target).run limit).run store s).value? =
      some (.ok (.ofInt (Vote.on target (teller.votes s v)).length)) := by
  refine (teller.run_of_query hl (q := .count target) rfl (by simp [VoteQuery.inserts]) ?_).1
  intro rows hrows
  obtain ⟨row, rfl, hnumber⟩ := ShowsNumbers.number? hrows
  rw [Rows.first, Rows.readOne, hnumber 0 _ rfl (by omega)]

theorem value_summarize (hl : HasTime limit)
    (hscore : -2 ^ 63 ≤ Vote.score (Vote.on target (teller.votes s v)) ∧
      Vote.score (Vote.on target (teller.votes s v)) < 2 ^ 63)
    (hlength : (Vote.on target (teller.votes s v)).length < 2 ^ 63) :
    (((Call.summarizeVotes v target).run limit).run store s).value? =
      some (.ok ⟨target, .ofInt (Vote.score (Vote.on target (teller.votes s v))),
        .ofInt (Vote.on target (teller.votes s v)).length⟩) := by
  refine (teller.run_of_query hl (q := .summarize target) rfl (by simp [VoteQuery.inserts]) ?_).1
  intro rows hrows
  obtain ⟨row, rfl, hnumber⟩ := ShowsNumbers.number? hrows
  rw [Rows.first, Rows.readOne, Ballot.readSummary, hnumber 0 _ rfl hscore,
    hnumber 1 _ rfl (by omega)]
  rfl

end Teller

/-! ## Calls one after another -/

namespace Call

/-- The call asks something of the tables of votes. -/
def OnVotes : Call → Prop
  | castVote _ _ _ _ => True
  | getVote _ _ _ => True
  | sumVotes _ _ => True
  | countVotes _ _ => True
  | summarizeVotes _ _ => True
  | _ => False

/-- The vote that the call casts for the user on the target, if it is in range. -/
def accepted? (v : Votable) (target user : Uuid) : Call → Option Int16
  | castVote v' target' user' vote =>
    if v' = v ∧ (target', user') = (target, user) ∧ -1 ≤ vote ∧ vote ≤ 1 then some vote else none
  | _ => none

theorem accepted?_castVote (v v' : Votable) (target user target' user' : Uuid) (vote : Int16) :
    accepted? v target user (castVote v' target' user' vote) =
      if v' = v ∧ (target', user') = (target, user) ∧ -1 ≤ vote ∧ vote ≤ 1 then some vote
      else none := rfl

/-- The votes after the call. -/
def recorded (c : Call) (votes : Votable → Uuid → Uuid → Int16) (v : Votable)
    (target user : Uuid) : Int16 :=
  (c.accepted? v target user).getD (votes v target user)

/-- The last such vote of several calls, or that of `before` if there is none. -/
def lastVote (before : Int16) (calls : List Call) (v : Votable) (target user : Uuid) : Int16 :=
  ((calls.filterMap (accepted? v target user)).getLast?).getD before

theorem lastVote_cons (before : Int16) (c : Call) (calls : List Call) (v : Votable)
    (target user : Uuid) : lastVote before (c :: calls) v target user =
      lastVote ((c.accepted? v target user).getD before) calls v target user := by
  rw [lastVote, getLast?_filterMap_cons, lastVote]
  cases (calls.filterMap (accepted? v target user)).getLast? <;> rfl

theorem accepted?_range {v : Votable} {target user : Uuid} {c : Call} {vote : Int16}
    (h : c.accepted? v target user = some vote) : -1 ≤ vote ∧ vote ≤ 1 := by
  cases c with
  | castVote v' target' user' vote' =>
    rw [accepted?_castVote] at h
    obtain ⟨⟨-, -, hrange⟩, rfl⟩ := Option.ite_none_right_eq_some.1 h |>.imp id Option.some.inj
    exact hrange
  | _ => cases h

theorem lastVote_range (calls : List Call) (v : Votable) (target user : Uuid) :
    -1 ≤ lastVote 0 calls v target user ∧ lastVote 0 calls v target user ≤ 1 := by
  rw [lastVote]
  cases hlast : (calls.filterMap (accepted? v target user)).getLast? with
  | none => decide
  | some vote =>
    obtain ⟨c, -, hc⟩ := List.mem_filterMap.1 (List.mem_of_getLast? hlast)
    exact accepted?_range hc

end Call

/-- Each user has one row for the vote on each target, or none where the vote is zero. -/
def Polls.Records (polls : Polls) (vote : Votable → Uuid → Uuid → Int16) : Prop :=
  ∀ v target user,
    Vote.at? target user (polls v) = Vote.inserted target user (vote v target user)

theorem Polls.records_cast {polls : Polls} {votes : Votable → Uuid → Uuid → Int16}
    (h : polls.Records votes) {v : Votable} {target user : Uuid} {vote : Int16}
    (hvote : -1 ≤ vote ∧ vote ≤ 1) :
    Polls.Records (Function.update polls v (Vote.castOn target user vote (polls v)))
      ((Call.castVote v target user vote).recorded votes) := by
  intro v' target' user'
  rw [Call.recorded, Call.accepted?_castVote]
  by_cases hv : v = v'
  · subst hv
    rw [Function.update_self]
    by_cases hkey : (target, user) = (target', user')
    · obtain ⟨rfl, rfl⟩ := Prod.mk.inj hkey
      have hone : (Vote.at? target user (polls v)).length ≤ 1 :=
        h v target user ▸ Vote.length_inserted_le target user _
      rw [Vote.at?_castOn_self hone, if_pos ⟨rfl, rfl, hvote⟩, Option.getD_some]
    · rw [Vote.at?_castOn_of_ne hkey, h, if_neg fun h => hkey h.2.1, Option.getD_none]
  · rw [Function.update_of_ne (Ne.symm hv), h, if_neg fun h => hv h.1, Option.getD_none]

theorem Polls.Records.vote_eq {polls : Polls} {votes : Votable → Uuid → Uuid → Int16}
    (h : polls.Records votes) {v : Votable} {row : Vote} (hrow : row ∈ polls v) :
    row.vote ≠ 0 ∧ row.vote = votes v row.target row.user := by
  have hat : row ∈ Vote.at? row.target row.user (polls v) :=
    List.mem_filter.2 ⟨hrow, decide_eq_true rfl⟩
  rw [h] at hat
  obtain ⟨hne, heq⟩ := Vote.mem_inserted.1 hat
  have hvote : row.vote = votes v row.target row.user := congrArg Vote.vote heq
  exact ⟨hvote ▸ hne, hvote⟩

namespace Teller

variable {store : Store σ} (teller : Teller store) {limit : Option Duration}

/-- What the tables hold is kept up by every call: a cast in range makes its vote the one that is
held, and any other call leaves all votes as they are. -/
theorem records_step (hl : HasTime limit) {c : Call} (hc : c.OnVotes) {s : σ}
    {votes : Votable → Uuid → Uuid → Int16} (h : (teller.votes s).Records votes) :
    (teller.votes ((c.run limit).run store s).state).Records (c.recorded votes) := by
  cases c with
  | castVote v target user vote =>
    by_cases hvote : -1 ≤ vote ∧ vote ≤ 1
    · rw [(teller.run_cast s v target user hl hvote).2]
      exact Polls.records_cast h hvote
    · rw [(teller.run_badCast s v target user hl hvote).2]
      intro v' target' user'
      rw [h, Call.recorded, Call.accepted?_castVote, if_neg fun h => hvote h.2.2, Option.getD_none]
  | getVote v target user =>
    rw [teller.votes_of_look hl (q := .get target user) rfl rfl fun _ => rfl]
    exact h
  | sumVotes v target =>
    rw [teller.votes_of_look hl (q := .sum target) rfl rfl fun _ => rfl]
    exact h
  | countVotes v target =>
    rw [teller.votes_of_look hl (q := .count target) rfl rfl fun _ => rfl]
    exact h
  | summarizeVotes v target =>
    rw [teller.votes_of_look hl (q := .summarize target) rfl rfl fun _ => rfl]
    exact h
  | _ => exact hc.elim

theorem records_after (hl : HasTime limit) (calls : List Call) (hcalls : ∀ c ∈ calls, c.OnVotes)
    {s : σ} {votes : Votable → Uuid → Uuid → Int16} (h : (teller.votes s).Records votes) :
    (teller.votes (Call.after limit store calls s)).Records
      fun v target user => Call.lastVote (votes v target user) calls v target user := by
  induction calls generalizing s votes with
  | nil => exact h
  | cons c calls ih =>
    obtain ⟨hc, hrest⟩ := List.forall_mem_cons.1 hcalls
    have hstep := ih hrest (teller.records_step hl hc h)
    intro v target user
    rw [Call.after, hstep v target user]
    exact congrArg (Vote.inserted target user) (Call.lastVote_cons _ c calls v target user).symm

end Teller

/-- From empty tables, whatever is asked of them one after another: a user has a row on a target
exactly if the last vote in range that was cast for the two is not zero, and it has that vote. A
vote out of range fails the check and changes nothing. What is read are those rows, their sum and
their number. -/
theorem last_votes_kept {store : Store σ} (teller : Teller store) {limit : Option Duration}
    (hl : HasTime limit) {s : σ} (hempty : ∀ v, teller.votes s v = []) (calls : List Call)
    (hcalls : ∀ c ∈ calls, c.OnVotes) (v : Votable) (target user : Uuid) :
    let now := Call.after limit store calls s
    let o (c : Call) := (c.run limit).run store now
    let last := Call.lastVote 0 calls v target user
    let rows := Vote.on target (teller.votes now v)
    (Vote.at? target user (teller.votes now v) =
        if last ≠ 0 then [⟨target, user, last⟩] else []) ∧
      (∀ vote, -1 ≤ vote ∧ vote ≤ 1 →
        (o (.castVote v target user vote)).value? =
          some (.ok (if vote ≠ 0 then some ⟨target, user, vote⟩ else none)) ∧
        Vote.at? target user (teller.votes (o (.castVote v target user vote)).state v) =
          if vote ≠ 0 then [⟨target, user, vote⟩] else []) ∧
      (∀ vote, ¬ (-1 ≤ vote ∧ vote ≤ 1) →
        (∃ constraint message, (o (.castVote v target user vote)).value? =
          some (.error (.constraintViolation .check constraint message))) ∧
        teller.votes (o (.castVote v target user vote)).state = teller.votes now) ∧
      (o (.getVote v target user)).value? =
        some (.ok (if last ≠ 0 then some ⟨target, user, last⟩ else none)) ∧
      |Vote.score rows| ≤ rows.length ∧ Vote.score rows % 2 = (rows.length : Int) % 2 ∧
      (rows.length < 2 ^ 63 → ∃ score votes : Int64,
        score.toInt = Vote.score rows ∧ votes.toInt = rows.length ∧
        (o (.sumVotes v target)).value? = some (.ok score) ∧
        (o (.countVotes v target)).value? = some (.ok votes) ∧
        (o (.summarizeVotes v target)).value? = some (.ok ⟨target, score, votes⟩)) := by
  intro now o last rows
  have hstart : (teller.votes s).Records fun _ _ _ => 0 := fun v _ _ => by rw [hempty v]; rfl
  have hrecords := teller.records_after hl calls hcalls hstart
  have hat : Vote.at? target user (teller.votes now v) = Vote.inserted target user last :=
    hrecords v target user
  have hunits : ∀ row ∈ rows, row.vote = 1 ∨ row.vote = -1 := by
    intro row hrow
    obtain ⟨hne, heq⟩ := hrecords.vote_eq (List.mem_of_mem_filter hrow)
    exact Vote.up_or_down (heq ▸ Call.lastVote_range calls v row.target row.user) hne
  obtain ⟨hbound, hparity⟩ := Vote.score_bounds hunits
  refine ⟨hat, fun vote hvote => ?_,
    fun vote hvote => teller.run_badCast now v target user hl hvote, ?_, hbound, hparity,
    fun hlength => ?_⟩
  · obtain ⟨hvalue, hvotes⟩ := teller.run_cast now v target user hl hvote
    have hone : (Vote.at? target user (teller.votes now v)).length ≤ 1 :=
      hat ▸ Vote.length_inserted_le target user last
    refine ⟨Vote.head?_inserted target user vote ▸ hvalue, ?_⟩
    rw [hvotes, Function.update_self, Vote.at?_castOn_self hone]
    rfl
  · rw [← Vote.head?_inserted, ← hat]
    exact teller.value_get now v target user hl
  · have hscore : -2 ^ 63 ≤ Vote.score rows ∧ Vote.score rows < 2 ^ 63 := by
      rw [abs_le] at hbound
      omega
    refine ⟨.ofInt (Vote.score rows), .ofInt rows.length, ?_, ?_,
      teller.value_sum now v target hl hscore, teller.value_count now v target hl hlength,
      teller.value_summarize now v target hl hscore hlength⟩
    · exact Int64.toInt_ofInt_of_le (by omega) (by omega)
    · exact Int64.toInt_ofInt_of_le (by omega) (by omega)

/-! ## A store of votes alone -/

/-- Votes, and the draft of the transaction that is open. -/
structure Urn where
  votes : Polls
  draft : Polls

namespace Urn

def empty : Urn := ⟨fun _ => [], fun _ => []⟩

def store : Store Urn
  | .execute statement, s =>
    match VoteQuery.ofSql? statement.sql with
    | none => (.rows [], s)
    | some (v, q) =>
      if ∀ row ∈ q.inserts, -1 ≤ row.vote ∧ row.vote ≤ 1 then
        (.rows (q.answer v (s.draft v)),
          { s with draft := Function.update s.draft v (q.next (s.draft v)) })
      else (.refused (.reported (some "23514") "vote out of range" none), s)
  | .commit, s => (.rows [], { s with votes := s.draft })
  | .define _, s => (.rows [], s)
  | _, s => (.rows [], { s with draft := s.votes })

theorem store_execute {statement : Statement} {v : Votable} {q : VoteQuery}
    (h : statement.sql = q.sql v.schema) (s : Urn) : store (.execute statement) s =
      if ∀ row ∈ q.inserts, -1 ≤ row.vote ∧ row.vote ≤ 1 then
        (.rows (q.answer v (s.draft v)),
          { s with draft := Function.update s.draft v (q.next (s.draft v)) })
      else (.refused (.reported (some "23514") "vote out of range" none), s) := by
  rw [store, h, VoteQuery.ofSql?_sql]

def teller : Teller store where
  votes := Urn.votes
  draft := Urn.draft
  opens s := ⟨_, _, rfl, rfl, rfl⟩
  answers s v q statement h htakes := by
    rw [store_execute h, if_pos fun row hrow => Votable.takes_iff.1 (htakes row hrow)]
    exact ⟨_, _, rfl, q.shows_answer v (s.draft v), rfl, rfl⟩
  refuses s v q statement h hfails := by
    obtain ⟨row, hrow, hvote⟩ := hfails
    rw [store_execute h, if_neg fun htakes => hvote (Votable.takes_iff.2 (htakes row hrow))]
    exact ⟨_, _, _, rfl, rfl⟩
  commits s := ⟨_, _, rfl, rfl⟩
  rollsBack _ := rfl

end Urn

/-- Two users vote on a post. One of them takes it back, and votes a third time out of range. -/
theorem post_keeps_one_vote :
    let target : Uuid := ⟨7⟩
    let calls : List Call :=
      [.castVote .post target ⟨1⟩ 1, .castVote .post target ⟨2⟩ (-1), .getVote .post target ⟨2⟩,
        .castVote .thread target ⟨1⟩ 1, .castVote .post target ⟨1⟩ 0,
        .castVote .post target ⟨1⟩ 2]
    let now := Call.after none Urn.store calls .empty
    (∀ c ∈ calls, c.OnVotes) ∧ Vote.at? target ⟨1⟩ (Urn.teller.votes now .post) = [] ∧
      Vote.at? target ⟨2⟩ (Urn.teller.votes now .post) = [⟨target, ⟨2⟩, -1⟩] ∧
      ∃ score : Int64, score.toInt = -1 ∧
        (((Call.sumVotes .post target).run none).run Urn.store now).value? = some (.ok score) := by
  intro target calls
  have htime : HasTime none := by rintro d ⟨⟩
  have hcalls : ∀ c ∈ calls, c.OnVotes := by simp [calls, Call.OnVotes]
  have hkept :=
    last_votes_kept Urn.teller htime (s := .empty) (fun _ => rfl) calls hcalls .post target
  obtain ⟨hfirst, -⟩ := hkept ⟨1⟩
  obtain ⟨hsecond, -, -, -, -, -, hread⟩ := hkept ⟨2⟩
  have hgone : Call.lastVote 0 calls .post target ⟨1⟩ = 0 := by decide +kernel
  have hleft : Call.lastVote 0 calls .post target ⟨2⟩ = -1 := by decide +kernel
  have hrows : Vote.on target (Urn.teller.votes (Call.after none Urn.store calls .empty) .post) =
      [⟨target, ⟨2⟩, -1⟩] := by decide +kernel
  rw [hgone, if_neg (by decide)] at hfirst
  rw [hleft, if_pos (by decide)] at hsecond
  rw [hrows] at hread
  obtain ⟨score, _, hscore, -, hvalue, -, -⟩ := hread (by decide)
  exact ⟨hcalls, hfirst, hsecond, score, hscore, hvalue⟩

end MessageBoard
