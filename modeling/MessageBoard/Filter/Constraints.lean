import MessageBoard.Value

/-!
# Constraints

What a filter asks of columns: at most one constraint of each, kept in the order of the column
names. A later constraint of a column replaces the earlier one.
-/

namespace MessageBoard

inductive Constraint where
  /-- The column holds the value; a null asks for a null. -/
  | equals (value : Value)
  /-- The column lies between the ends that are given, which belong to the range. -/
  | between (lower upper : Option Value)
  deriving DecidableEq

structure Constraints where
  entries : List (String × Constraint)
  sorted : entries.Pairwise fun a b => a.1 < b.1
  deriving DecidableEq

namespace Constraints

def empty : Constraints := ⟨[], .nil⟩

/-- Puts an entry into a list sorted by names, in place of one of the same name. -/
def insert (column : String) (c : Constraint) : List (String × Constraint) →
    List (String × Constraint)
  | [] => [(column, c)]
  | (name, d) :: rest =>
    if column < name then (column, c) :: (name, d) :: rest
    else if column = name then (column, c) :: rest
    else (name, d) :: insert column c rest

theorem mem_insert {column : String} {c : Constraint} {l : List (String × Constraint)}
    {e : String × Constraint} (h : e ∈ insert column c l) : e = (column, c) ∨ e ∈ l := by
  induction l with
  | nil => simpa [insert] using h
  | cons d rest ih =>
    simp only [insert] at h
    split at h
    · simpa using h
    · split at h
      · rcases List.mem_cons.1 h with h | h <;> simp [h]
      · rcases List.mem_cons.1 h with h | h
        · simp [h]
        · rcases ih h with h | h <;> simp [h]

theorem lt_of_not_lt_of_ne {a b : String} (h : ¬ a < b) (hn : a ≠ b) : b < a :=
  Decidable.not_not.1 fun h' => hn (String.le_antisymm (String.not_lt.1 h') (String.not_lt.1 h))

theorem sorted_insert (column : String) (c : Constraint) {l : List (String × Constraint)}
    (h : l.Pairwise fun a b => a.1 < b.1) :
    (insert column c l).Pairwise fun a b => a.1 < b.1 := by
  induction h with
  | nil => simp [insert]
  | @cons d rest hd hr ih =>
    simp only [insert]
    split
    · rename_i hlt
      exact .cons (fun e he => by
        rcases List.mem_cons.1 he with rfl | he
        · exact hlt
        · exact String.lt_trans hlt (hd e he)) (.cons hd hr)
    · split
      · rename_i heq
        exact .cons (fun e he => by rw [heq]; exact hd e he) hr
      · rename_i hlt hne
        exact .cons (fun e he => by
          rcases mem_insert he with rfl | he
          · exact lt_of_not_lt_of_ne hlt hne
          · exact hd e he) ih

def put (cs : Constraints) (column : String) (c : Constraint) : Constraints :=
  ⟨insert column c cs.entries, sorted_insert column c cs.sorted⟩

def isEmpty (cs : Constraints) : Bool := cs.entries.isEmpty

end Constraints

end MessageBoard
