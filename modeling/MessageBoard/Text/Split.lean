/-!
# Cutting texts

Texts cut at a character: into all pieces, or in two at its first or last occurrence.
Joining the pieces with the character gives the text back.
-/

namespace MessageBoard.Text

/-- The pieces between the occurrences of `c`; a text without `c` is its own piece. -/
def pieces (c : Char) : List Char → List (List Char)
  | [] => [[]]
  | x :: xs =>
    if x = c then [] :: pieces c xs
    else match pieces c xs with
      | [] => [[x]]
      | p :: ps => (x :: p) :: ps

/-- What stands before and after the first occurrence of `sep`. -/
def cutFirst? (sep : List Char) : List Char → Option (List Char × List Char)
  | [] => if sep = [] then some ([], []) else none
  | x :: xs =>
    if sep.isPrefixOf (x :: xs) then some ([], (x :: xs).drop sep.length)
    else (cutFirst? sep xs).map fun (a, b) => (x :: a, b)

/-- What stands before and after the last occurrence of `c`. -/
def cutLast? (c : Char) : List Char → Option (List Char × List Char)
  | [] => none
  | x :: xs =>
    match cutLast? c xs with
    | some (a, b) => some (x :: a, b)
    | none => if x = c then some ([], xs) else none

theorem pieces_ne_nil (c : Char) (cs : List Char) : pieces c cs ≠ [] := by
  cases cs with
  | nil => simp [pieces]
  | cons x xs =>
    rw [pieces]
    split
    · simp
    · split <;> simp

theorem pieces_append {c : Char} {a cs p : List Char} {ps : List (List Char)} (ha : c ∉ a)
    (h : pieces c cs = p :: ps) : pieces c (a ++ cs) = (a ++ p) :: ps := by
  induction a with
  | nil => exact h
  | cons d ds ih =>
    rw [List.mem_cons, not_or] at ha
    obtain ⟨hd, hds⟩ := ha
    rw [List.cons_append, pieces, if_neg (Ne.symm hd), ih hds]
    rfl

theorem pieces_cons_self (c : Char) (cs : List Char) : pieces c (c :: cs) = [] :: pieces c cs := by
  rw [pieces, if_pos rfl]

theorem pieces_of_notMem {c : Char} {a : List Char} (hc : c ∉ a) : pieces c a = [a] := by
  have hpieces : pieces c (a ++ []) = [a ++ []] := pieces_append hc rfl
  rwa [List.append_nil] at hpieces

theorem pieces_joined {c : Char} {a : List Char} (hc : c ∉ a) (b : List Char) :
    pieces c (a ++ c :: b) = a :: pieces c b := by
  have hpieces := pieces_append hc (pieces_cons_self c b)
  rwa [List.append_nil] at hpieces

theorem intercalate_pieces (c : Char) (cs : List Char) : [c].intercalate (pieces c cs) = cs := by
  induction cs with
  | nil => exact List.intercalate_singleton
  | cons x cs ih =>
    rw [pieces]
    cases hpieces : pieces c cs with
    | nil => exact absurd hpieces (pieces_ne_nil c cs)
    | cons p ps =>
      rw [hpieces] at ih
      by_cases hx : x = c
      · rw [if_pos hx, List.intercalate_cons_cons, ih, hx]
        rfl
      · rw [if_neg hx]
        cases ps with
        | nil =>
          rw [List.intercalate_singleton] at ih ⊢
          rw [ih]
        | cons q ps =>
          rw [List.intercalate_cons_cons] at ih ⊢
          rw [← ih]
          rfl

theorem notMem_of_mem_pieces {c : Char} {cs p : List Char} (h : p ∈ pieces c cs) : c ∉ p := by
  induction cs generalizing p with
  | nil => rw [List.mem_singleton.1 h]; exact List.not_mem_nil
  | cons x cs ih =>
    rw [pieces] at h
    by_cases hx : x = c
    · rw [if_pos hx] at h
      rcases List.mem_cons.1 h with rfl | h
      · exact List.not_mem_nil
      · exact ih h
    · rw [if_neg hx] at h
      cases hpieces : pieces c cs with
      | nil => exact absurd hpieces (pieces_ne_nil c cs)
      | cons q qs =>
        rw [hpieces] at h ih
        rcases List.mem_cons.1 h with rfl | h
        · rw [List.mem_cons, not_or]
          exact ⟨Ne.symm hx, ih List.mem_cons_self⟩
        · exact ih (List.mem_cons_of_mem q h)

theorem pieces_intercalate {c : Char} {parts : List (List Char)} (hne : parts ≠ [])
    (h : ∀ p ∈ parts, c ∉ p) : pieces c ([c].intercalate parts) = parts := by
  induction parts with
  | nil => exact absurd rfl hne
  | cons p parts ih =>
    obtain ⟨hp, hparts⟩ := List.forall_mem_cons.1 h
    cases parts with
    | nil => rw [List.intercalate_singleton, pieces_of_notMem hp]
    | cons q parts =>
      rw [List.intercalate_cons_cons, List.append_assoc, List.singleton_append, pieces_joined hp,
        ih (List.cons_ne_nil q parts) hparts]

theorem eq_of_cutFirst? {sep cs a b : List Char} (h : cutFirst? sep cs = some (a, b)) :
    cs = a ++ sep ++ b := by
  induction cs generalizing a b with
  | nil =>
    simp only [cutFirst?] at h
    split at h <;> simp_all
  | cons x xs ih =>
    simp only [cutFirst?] at h
    split at h
    · rename_i hp
      obtain ⟨t, ht⟩ := List.isPrefixOf_iff_prefix.1 hp
      simp only [Option.some.injEq, Prod.mk.injEq] at h
      obtain ⟨rfl, rfl⟩ := h
      simp [← ht]
    · obtain ⟨⟨a', b'⟩, h', e⟩ := Option.map_eq_some_iff.1 h
      simp only [Prod.mk.injEq] at e
      obtain ⟨rfl, rfl⟩ := e
      simp [ih h']

theorem cutLast?_eq_none {c : Char} {cs : List Char} : cutLast? c cs = none ↔ c ∉ cs := by
  induction cs with
  | nil => simp [cutLast?]
  | cons x xs ih =>
    simp only [cutLast?]
    split
    · rename_i h
      simp only [reduceCtorEq, List.mem_cons, not_or, false_iff, not_and, Decidable.not_not]
      intro _
      exact Decidable.not_not.1 fun hn => by simp [ih.2 hn] at h
    · rename_i h
      have hn := ih.1 h
      split
      · rename_i hx
        simp [hx]
      · rename_i hx
        simp [hn, Ne.symm hx]

theorem eq_of_cutLast? {c : Char} {cs a b : List Char} (h : cutLast? c cs = some (a, b)) :
    cs = a ++ c :: b ∧ c ∉ b := by
  induction cs generalizing a b with
  | nil => simp [cutLast?] at h
  | cons x xs ih =>
    simp only [cutLast?] at h
    split at h
    · rename_i a' b' h'
      simp only [Option.some.injEq, Prod.mk.injEq] at h
      obtain ⟨rfl, rfl⟩ := h
      simp [(ih h').1, (ih h').2]
    · rename_i h'
      split at h <;> simp_all [cutLast?_eq_none]

variable {sep a b : List Char} {c : Char}

theorem exists_cutFirst? (h : sep <:+: a) : ∃ x y, cutFirst? sep a = some (x, y) := by
  induction a with
  | nil => exact ⟨[], [], by simp [cutFirst?, List.infix_nil.1 h]⟩
  | cons d ds ih =>
    rw [cutFirst?]
    by_cases hp : sep.isPrefixOf (d :: ds) = true
    · rw [if_pos hp]
      exact ⟨_, _, rfl⟩
    · rw [if_neg hp]
      have hds : sep <:+: ds := (List.infix_cons_iff.1 h).resolve_left fun h' =>
        hp (List.isPrefixOf_iff_prefix.2 h')
      obtain ⟨x, y, hxy⟩ := ih hds
      exact ⟨d :: x, y, by rw [hxy, Option.map_some]⟩

theorem cutFirst?_append {x y : List Char} (h : cutFirst? sep a = some (x, y)) (b : List Char) :
    cutFirst? sep (a ++ b) = some (x, y ++ b) := by
  induction a generalizing x with
  | nil =>
    rw [cutFirst?] at h
    by_cases hs : sep = []
    · rw [if_pos hs, Option.some.injEq, Prod.mk.injEq] at h
      obtain ⟨rfl, rfl⟩ := h
      cases b <;> simp [cutFirst?, hs]
    · rw [if_neg hs] at h
      cases h
  | cons d ds ih =>
    rw [cutFirst?] at h
    rw [List.cons_append, cutFirst?]
    by_cases hp : sep.isPrefixOf (d :: ds) = true
    · rw [if_pos hp, Option.some.injEq, Prod.mk.injEq] at h
      obtain ⟨rfl, rfl⟩ := h
      have hle : sep.length ≤ (d :: ds).length := (List.isPrefixOf_iff_prefix.1 hp).length_le
      have hp' : sep.isPrefixOf (d :: (ds ++ b)) = true := List.isPrefixOf_iff_prefix.2
        ((List.isPrefixOf_iff_prefix.1 hp).trans (List.prefix_append (d :: ds) b))
      rw [if_pos hp', ← List.cons_append, List.drop_append_of_le_length hle]
    · rw [if_neg hp] at h
      obtain ⟨⟨x', y'⟩, h', he⟩ := Option.map_eq_some_iff.1 h
      rw [Prod.mk.injEq] at he
      obtain ⟨rfl, rfl⟩ := he
      have hlen : sep.length ≤ (d :: ds).length := by
        rw [eq_of_cutFirst? h']
        simp only [List.length_cons, List.length_append]
        omega
      have hp' : ¬ sep.isPrefixOf (d :: (ds ++ b)) = true := fun h' => hp <|
        List.isPrefixOf_iff_prefix.2 <| List.prefix_of_prefix_length_le
          (List.isPrefixOf_iff_prefix.1 h') (List.prefix_append (d :: ds) b) hlen
      rw [if_neg hp', ih h', Option.map_some]

theorem cutLast?_append {x y : List Char} (h : cutLast? c b = some (x, y)) (a : List Char) :
    cutLast? c (a ++ b) = some (a ++ x, y) := by
  induction a with
  | nil => exact h
  | cons d ds ih => rw [List.cons_append, cutLast?, ih]; rfl

theorem exists_cutLast? (h : c ∈ a) : ∃ x y, cutLast? c a = some (x, y) := by
  cases hc : cutLast? c a with
  | none => exact absurd h (cutLast?_eq_none.1 hc)
  | some cut => exact ⟨cut.1, cut.2, rfl⟩

end MessageBoard.Text
