import Mathlib
import MessageBoard.Ballot
import MessageBoard.Proofs.Placeholders

/-!
# Tables of votes

A vote is cast in one statement of two arms, a deletion of the user's row where the vote is zero and
an insertion where it is not. Both see the rows as they were; the insertion overwrites the vote of a
row with the same key.

`VoteQuery` says what is asked of such a table, in the words of the store and in what they mean; the
statements of the board about votes are in these words.
-/

namespace MessageBoard

/-! ## Rows of votes -/

namespace Vote

def key (row : Vote) : Uuid × Uuid := (row.target, row.user)

/-- The rows that the first arm of a cast deletes. -/
def deleted (target user : Uuid) (vote : Int16) (rows : List Vote) : List Vote :=
  rows.filter fun row => row.key = (target, user) ∧ vote = 0

/-- The rows that the second arm of a cast inserts. -/
def inserted (target user : Uuid) (vote : Int16) : List Vote :=
  if vote ≠ 0 then [⟨target, user, vote⟩] else []

/-- The rows with one more, or with the vote of a row that has its key overwritten. -/
def upsert (row : Vote) : List Vote → List Vote
  | [] => [row]
  | old :: rows =>
    if old.key = row.key then { old with vote := row.vote } :: rows else old :: upsert row rows

theorem mem_inserted {target user : Uuid} {vote : Int16} {row : Vote} :
    row ∈ inserted target user vote ↔ vote ≠ 0 ∧ row = ⟨target, user, vote⟩ := by
  rw [inserted]
  split <;> simp_all

theorem length_inserted_le (target user : Uuid) (vote : Int16) :
    (inserted target user vote).length ≤ 1 := by
  rw [inserted]
  split <;> simp

theorem head?_inserted (target user : Uuid) (vote : Int16) :
    (inserted target user vote).head? =
      if vote ≠ 0 then some ⟨target, user, vote⟩ else none := by
  rw [inserted]
  split <;> rfl

/-- What a cast makes of the rows. -/
def castOn (target user : Uuid) (vote : Int16) (rows : List Vote) : List Vote :=
  (inserted target user vote).foldl (fun rows row => upsert row rows)
    (rows.filter fun row => row ∉ deleted target user vote rows)

def score (rows : List Vote) : Int := (rows.map (·.vote.toInt)).sum

def at? (target user : Uuid) (rows : List Vote) : List Vote :=
  rows.filter fun row => row.key = (target, user)

def on (target : Uuid) (rows : List Vote) : List Vote := rows.filter fun row => row.target = target

variable {row : Vote} {rows : List Vote} {target user : Uuid}

theorem overwrite_eq {old : Vote} (h : old.key = row.key) :
    ({ old with vote := row.vote } : Vote) = row := by
  obtain ⟨htarget, huser⟩ := Prod.mk.inj h
  rw [htarget, huser]

theorem at?_cons_of_eq (h : row.key = (target, user)) :
    at? target user (row :: rows) = row :: at? target user rows :=
  List.filter_cons_of_pos (by simpa using h)

theorem at?_cons_of_ne (h : row.key ≠ (target, user)) :
    at? target user (row :: rows) = at? target user rows :=
  List.filter_cons_of_neg (by simpa using h)

theorem at?_upsert_of_ne (h : row.key ≠ (target, user)) :
    at? target user (upsert row rows) = at? target user rows := by
  induction rows with
  | nil => exact at?_cons_of_ne h
  | cons old rows ih =>
    rw [upsert]
    by_cases hold : old.key = row.key
    · rw [if_pos hold, overwrite_eq hold, at?_cons_of_ne h, at?_cons_of_ne (hold ▸ h)]
    · rw [if_neg hold]
      by_cases hat : old.key = (target, user)
      · rw [at?_cons_of_eq hat, at?_cons_of_eq hat, ih]
      · rw [at?_cons_of_ne hat, at?_cons_of_ne hat, ih]

theorem at?_upsert_self (h : row.key = (target, user)) :
    at? target user (upsert row rows) = row :: (at? target user rows).tail := by
  induction rows with
  | nil => exact at?_cons_of_eq h
  | cons old rows ih =>
    rw [upsert]
    by_cases hold : old.key = row.key
    · rw [if_pos hold, overwrite_eq hold, at?_cons_of_eq h, at?_cons_of_eq (hold.trans h),
        List.tail_cons]
    · have hat : old.key ≠ (target, user) := fun hat => hold (hat.trans h.symm)
      rw [if_neg hold, at?_cons_of_ne hat, at?_cons_of_ne hat, ih]

theorem castOn_zero (target user : Uuid) (rows : List Vote) :
    castOn target user 0 rows = rows.filter fun row => row.key ≠ (target, user) := by
  rw [castOn, inserted, if_neg (by decide), List.foldl_nil]
  refine List.filter_congr fun row hrow => ?_
  simp [deleted, hrow]

theorem castOn_of_ne_zero {vote : Int16} (h : vote ≠ 0) (target user : Uuid) (rows : List Vote) :
    castOn target user vote rows = upsert ⟨target, user, vote⟩ rows := by
  have hkept : rows.filter (fun row => row ∉ deleted target user vote rows) = rows := by
    rw [List.filter_eq_self]
    intro row hrow
    simp [deleted, h]
  rw [castOn, inserted, if_pos h, hkept]
  rfl

theorem at?_castOn_of_ne {vote : Int16} {target' user' : Uuid}
    (h : (target', user') ≠ (target, user)) :
    at? target user (castOn target' user' vote rows) = at? target user rows := by
  by_cases hzero : vote = 0
  · subst hzero
    rw [castOn_zero, at?, at?, List.filter_filter]
    refine List.filter_congr fun row _ => ?_
    by_cases hrow : row.key = (target, user)
    · simp [hrow, Ne.symm h]
    · simp [hrow]
  · have hkey : (⟨target', user', vote⟩ : Vote).key ≠ (target, user) := h
    rw [castOn_of_ne_zero hzero, at?_upsert_of_ne hkey]

/-- Where a user had at most one vote on a target, a cast makes it the one that was cast. -/
theorem at?_castOn_self {vote : Int16} (h : (at? target user rows).length ≤ 1) :
    at? target user (castOn target user vote rows) = inserted target user vote := by
  by_cases hzero : vote = 0
  · subst hzero
    rw [castOn_zero, at?, List.filter_filter, inserted, if_neg (by decide), List.filter_eq_nil_iff]
    intro row _
    simp
  · have htail : (at? target user rows).tail = [] :=
      List.eq_nil_of_length_eq_zero (by rw [List.length_tail]; omega)
    have hkey : (⟨target, user, vote⟩ : Vote).key = (target, user) := rfl
    rw [castOn_of_ne_zero hzero, at?_upsert_self hkey, htail, inserted, if_pos hzero]

/-! ## Sums of votes -/

theorem up_or_down {vote : Int16} (hrange : -1 ≤ vote ∧ vote ≤ 1) (hne : vote ≠ 0) :
    vote = 1 ∨ vote = -1 := by
  rw [Int16.le_iff_toInt_le, Int16.le_iff_toInt_le] at hrange
  rw [ne_eq, ← Int16.toInt_inj] at hne
  rw [← Int16.toInt_inj, ← Int16.toInt_inj]
  change -1 ≤ vote.toInt ∧ vote.toInt ≤ 1 at hrange
  change ¬ vote.toInt = 0 at hne
  change vote.toInt = 1 ∨ vote.toInt = -1
  omega

theorem score_bounds (h : ∀ row ∈ rows, row.vote = 1 ∨ row.vote = -1) :
    |score rows| ≤ rows.length ∧ score rows % 2 = (rows.length : Int) % 2 := by
  induction rows with
  | nil => simp [score]
  | cons row rows ih =>
    obtain ⟨hrow, hrows⟩ := List.forall_mem_cons.1 h
    obtain ⟨hbound, hparity⟩ := ih hrows
    have hcons : score (row :: rows) = row.vote.toInt + score rows := by simp [score]
    have hunit : row.vote.toInt = 1 ∨ row.vote.toInt = -1 := by
      rcases hrow with h | h
      · exact .inl (by rw [h]; rfl)
      · exact .inr (by rw [h]; rfl)
    rw [abs_le] at hbound ⊢
    rw [hcons, List.length_cons]
    push_cast
    omega

end Vote

/-! ## What comes back from the store -/

def ShowsVotes (v : Votable) (votes : List Vote) (rows : List Row) : Prop :=
  rows.map (Ballot.readVote v) = votes.map some

def ShowsNumbers (numbers : List Int) (rows : List Row) : Prop :=
  ∃ row : Row, rows = [row] ∧ row.map (·.2) = numbers.map .int

section Reading

variable {v : Votable} {votes : List Vote} {rows : List Row}

theorem ShowsVotes.first? (h : ShowsVotes v votes rows) :
    Rows.first? (Ballot.readVote v) rows = .ok votes.head? := by
  cases rows with
  | nil =>
    obtain rfl := List.map_eq_nil_iff.1 h.symm
    rfl
  | cons row rows =>
    cases votes with
    | nil => cases h
    | cons vote votes =>
      obtain ⟨hrow, -⟩ := List.cons.inj h
      rw [Rows.first?, Rows.readOne, hrow]
      rfl

def Vote.row (v : Votable) (vote : Vote) : Row :=
  [(v.schema.target, .bound (.ofId vote.target)), ("user_id", .bound (.ofId vote.user)),
    ("vote", .bound (.smallint vote.vote))]

theorem showsVotes_row (v : Votable) (votes : List Vote) :
    ShowsVotes v votes (votes.map (Vote.row v)) := by
  rw [ShowsVotes, List.map_map]
  refine List.map_congr_left fun vote _ => ?_
  have hvote : Width.ofInt? .int16 vote.vote.toInt = some vote.vote := by
    simp [Width.ofInt?, Width.wrap, Width.toInt]
  have hrow : (Vote.fields v.schema.target).ofRow? (vote.row v) =
      some (vote.target, vote.user, vote.vote, ()) := by
    cases v <;>
      simp [Vote.fields, Vote.row, Fields.ofRow?, Shape.ofCell?, Cell.uuid?, Cell.number?,
        Bind.ofId, Votable.schema, List.lookup, hvote]
  change ((Vote.fields v.schema.target).ofRow? (vote.row v)).map _ = _
  rw [hrow]
  rfl

theorem ofInt?_int64 {n : Int} (h : -2 ^ 63 ≤ n ∧ n < 2 ^ 63) :
    Width.ofInt? .int64 n = some (Int64.ofInt n) :=
  if_pos (Int64.toInt_ofInt_of_le (by omega) (by omega))

theorem ShowsNumbers.number? {numbers : List Int} (h : ShowsNumbers numbers rows) :
    ∃ row, rows = [row] ∧ ∀ i n, numbers[i]? = some n → -2 ^ 63 ≤ n ∧ n < 2 ^ 63 →
      row.number? i = some (Int64.ofInt n) := by
  obtain ⟨row, rfl, hcells⟩ := h
  refine ⟨row, rfl, fun i n hn hrange => ?_⟩
  have hcell : (row[i]?).map (·.2) = some (.int n) := by
    rw [← List.getElem?_map, hcells, List.getElem?_map, hn, Option.map_some]
  obtain ⟨cell, hcell, hint⟩ := Option.map_eq_some_iff.1 hcell
  rw [Row.number?, hcell, Option.bind_some, hint]
  exact ofInt?_int64 hrange

end Reading

/-! ## What is asked of the rows -/

inductive VoteQuery where
  | cast (target user : Uuid) (vote : Int16)
  | get (target user : Uuid)
  | sum (target : Uuid)
  | count (target : Uuid)
  | summarize (target : Uuid)
  deriving DecidableEq

namespace VoteQuery

section Text

variable (schema : VoteSchema)

def inputText : String :=
  "SELECT $1::UUID AS target_id, $2::UUID AS user_id, $3::SMALLINT AS vote"

def deletionText : String :=
  s!"DELETE FROM {schema.table} WHERE {schema.target} = (SELECT target_id FROM input_data) " ++
    "AND user_id = (SELECT user_id FROM input_data) AND (SELECT vote FROM input_data) = 0"

def insertionText : String :=
  s!"INSERT INTO {schema.table} ({schema.target}, user_id, vote) " ++
    "SELECT target_id, user_id, vote FROM input_data WHERE vote <> 0"

def overwritingText : String :=
  s!"ON CONFLICT ({schema.target}, user_id) DO UPDATE SET vote = EXCLUDED.vote"

def columnsText : String := s!"{schema.target}, user_id, vote"

def scoreText : String := "COALESCE(SUM(vote), 0)::BIGINT"

def onText : String := s!"FROM {schema.table} WHERE {schema.target} = $1"

def text : VoteQuery → String
  | cast _ _ _ =>
    s!"WITH input_data AS ({inputText}), delete_if_zero AS ({deletionText schema}) " ++
      s!"{insertionText schema} {overwritingText schema} RETURNING {columnsText schema}"
  | get _ _ => s!"SELECT {columnsText schema} {onText schema} AND user_id = $2"
  | sum _ => s!"SELECT {scoreText} {onText schema}"
  | count _ => s!"SELECT COUNT(*) {onText schema}"
  | summarize _ => s!"SELECT {scoreText}, COUNT(*) {onText schema}"

end Text

def binds : VoteQuery → List Bind
  | cast target user vote => [.ofId target, .ofId user, .smallint vote]
  | get target user => [.ofId target, .ofId user]
  | sum target => [.ofId target]
  | count target => [.ofId target]
  | summarize target => [.ofId target]

def sql (q : VoteQuery) (schema : VoteSchema) : Sql := ⟨q.text schema, q.binds⟩

def inserts : VoteQuery → List Vote
  | cast target user vote => Vote.inserted target user vote
  | _ => []

def next : VoteQuery → List Vote → List Vote
  | cast target user vote, rows => Vote.castOn target user vote rows
  | _, rows => rows

/-- What comes back. A cast returns the row as it has put it there. -/
def Shows (v : Votable) : VoteQuery → List Vote → List Row → Prop
  | cast target user vote, _ => ShowsVotes v (Vote.inserted target user vote)
  | get target user, votes => ShowsVotes v (Vote.at? target user votes)
  | sum target, votes => ShowsNumbers [Vote.score (Vote.on target votes)]
  | count target, votes => ShowsNumbers [(Vote.on target votes).length]
  | summarize target, votes =>
    ShowsNumbers [Vote.score (Vote.on target votes), (Vote.on target votes).length]

def answer (v : Votable) : VoteQuery → List Vote → List Row
  | cast target user vote, _ => (Vote.inserted target user vote).map (Vote.row v)
  | get target user, votes => (Vote.at? target user votes).map (Vote.row v)
  | sum target, votes => [[("sum", .int (Vote.score (Vote.on target votes)))]]
  | count target, votes => [[("count", .int (Vote.on target votes).length)]]
  | summarize target, votes =>
    [[("sum", .int (Vote.score (Vote.on target votes))),
      ("count", .int (Vote.on target votes).length)]]

theorem shows_answer (v : Votable) (q : VoteQuery) (votes : List Vote) :
    q.Shows v votes (q.answer v votes) := by
  cases q with
  | cast target user vote => exact showsVotes_row v _
  | get target user => exact showsVotes_row v _
  | sum target => exact ⟨_, rfl, rfl⟩
  | count target => exact ⟨_, rfl, rfl⟩
  | summarize target => exact ⟨_, rfl, rfl⟩

def statement (v : Votable) : VoteQuery → Statement
  | cast target user vote => .castVote v.schema target user vote
  | get target user => .getVote v.schema target user
  | sum target => .sumVotes v.schema target
  | count target => .countVotes v.schema target
  | summarize target => .summarizeVotes v.schema target

/-- The kind of the query: the same one, of values that are all zero. -/
def kind : VoteQuery → VoteQuery
  | cast _ _ _ => cast ⟨0⟩ ⟨0⟩ 0
  | get _ _ => get ⟨0⟩ ⟨0⟩
  | sum _ => sum ⟨0⟩
  | count _ => count ⟨0⟩
  | summarize _ => summarize ⟨0⟩

def kinds : List (Votable × VoteQuery) :=
  [.thread, .post].flatMap fun v =>
    [cast ⟨0⟩ ⟨0⟩ 0, get ⟨0⟩ ⟨0⟩, sum ⟨0⟩, count ⟨0⟩, summarize ⟨0⟩].map (v, ·)

theorem kind_mem_kinds (v : Votable) (q : VoteQuery) : (v, q.kind) ∈ kinds := by
  cases v <;> cases q <;> simp [kind, kinds]

/-- A text has nothing of the values in it. -/
theorem text_kind (schema : VoteSchema) (q : VoteQuery) : q.kind.text schema = q.text schema := by
  cases q <;> rfl

theorem text_statement (v : Votable) (q : VoteQuery) :
    (q.statement v).sql.text = q.text v.schema := by
  have hkinds : ∀ p ∈ kinds, (p.2.statement p.1).sql.text = p.2.text p.1.schema := by
    decide +kernel
  have hkind : (q.kind.statement v).sql.text = (q.statement v).sql.text := by cases q <;> rfl
  rw [← hkind, hkinds _ (kind_mem_kinds v q), text_kind]

theorem text_eq_iff {v v' : Votable} {q q' : VoteQuery} :
    q.text v.schema = q'.text v'.schema ↔ v = v' ∧ q.kind = q'.kind := by
  constructor
  · intro h
    have hkinds : ∀ p ∈ kinds, ∀ p' ∈ kinds, p.2.text p.1.schema = p'.2.text p'.1.schema →
        p = p' := by decide +kernel
    rw [← text_kind v.schema q, ← text_kind v'.schema q'] at h
    exact Prod.mk.inj (hkinds _ (kind_mem_kinds v q) _ (kind_mem_kinds v' q') h)
  · rintro ⟨rfl, hkind⟩
    rw [← text_kind, hkind, text_kind]

theorem sql_statement (v : Votable) (q : VoteQuery) : (q.statement v).sql = q.sql v.schema := by
  have hbinds : (q.statement v).sql.binds = q.binds := by cases q <;> rfl
  rw [sql, ← text_statement, ← hbinds]

/-- What can be asked with these values. -/
def ofBinds : List Bind → List VoteQuery
  | [.value (.uuid (some target)), .value (.uuid (some user)), .smallint vote] =>
    [cast target user vote]
  | [.value (.uuid (some target)), .value (.uuid (some user))] => [get target user]
  | [.value (.uuid (some target))] => [sum target, count target, summarize target]
  | _ => []

/-- What a statement asks, found by its words. -/
def ofSql? (sql : Sql) : Option (Votable × VoteQuery) :=
  [Votable.thread, .post].findSome? fun v =>
    ((ofBinds sql.binds).find? fun q => q.text v.schema = sql.text).map (v, ·)

theorem ofSql?_sql (v : Votable) (q : VoteQuery) : ofSql? (q.sql v.schema) = some (v, q) := by
  cases v <;> cases q <;> simp [ofSql?, sql, binds, ofBinds, Bind.ofId, text_eq_iff, kind]

end VoteQuery

end MessageBoard
