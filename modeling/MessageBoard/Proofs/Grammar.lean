import MessageBoard.Validation

/-!
# Patterns and the texts they accept

A pattern accepts exactly the texts that match it. Taking a derivative takes one character off the
front of the texts; only in a sequence and in a repetition does it matter where the first part ends.

User names are read off their pattern from here on, never off its derivatives.
-/

namespace MessageBoard

namespace Text.Pattern

variable {a b : Pattern} {c : Char} {s t : List Char} {n : Nat} {p : Char → Bool}

/-! ## Texts of a pattern, constructor by constructor -/

theorem matches_never : ¬ never.Matches s := nofun

theorem matches_nothing : nothing.Matches s ↔ s = [] := by
  constructor
  · intro h
    cases h
    rfl
  · rintro rfl
    exact .nothing

theorem matches_one : (one p).Matches s ↔ ∃ c, p c = true ∧ s = [c] := by
  constructor
  · intro h
    cases h with
    | one hp => exact ⟨_, hp, rfl⟩
  · rintro ⟨c, hp, rfl⟩
    exact .one hp

theorem matches_seq : (seq a b).Matches s ↔ ∃ u v, s = u ++ v ∧ a.Matches u ∧ b.Matches v := by
  constructor
  · intro h
    cases h with
    | seq hu hv => exact ⟨_, _, rfl, hu, hv⟩
  · rintro ⟨u, v, rfl, hu, hv⟩
    exact .seq hu hv

theorem matches_either : (either a b).Matches s ↔ a.Matches s ∨ b.Matches s := by
  constructor
  · intro h
    cases h with
    | left h => exact .inl h
    | right h => exact .inr h
  · rintro (h | h)
    · exact .left h
    · exact .right h

theorem matches_upTo_zero : (upTo 0 a).Matches s ↔ s = [] := by
  constructor
  · intro h
    cases h
    rfl
  · rintro rfl
    exact .upTo_nil

theorem matches_upTo_succ :
    (upTo (n + 1) a).Matches s ↔
      s = [] ∨ ∃ u v, s = u ++ v ∧ a.Matches u ∧ (upTo n a).Matches v := by
  constructor
  · intro h
    cases h with
    | upTo_nil => exact .inl rfl
    | upTo_cons hu hv => exact .inr ⟨_, _, rfl, hu, hv⟩
  · rintro (rfl | ⟨u, v, rfl, hu, hv⟩)
    · exact .upTo_nil
    · exact .upTo_cons hu hv

theorem Matches.upTo_succ (h : (upTo n a).Matches s) : (upTo (n + 1) a).Matches s := by
  induction n generalizing s with
  | zero =>
    obtain rfl := matches_upTo_zero.1 h
    exact .upTo_nil
  | succ n ih =>
    rcases matches_upTo_succ.1 h with rfl | ⟨u, v, rfl, hu, hv⟩
    · exact .upTo_nil
    · exact .upTo_cons hu (ih hv)

/-! ## Texts that start with a character -/

theorem matches_seq_cons : (seq a b).Matches (c :: s) ↔
    (∃ u v, s = u ++ v ∧ a.Matches (c :: u) ∧ b.Matches v) ∨ a.Matches [] ∧ b.Matches (c :: s) := by
  rw [matches_seq]
  constructor
  · rintro ⟨u, v, huv, hu, hv⟩
    cases u with
    | nil => exact .inr ⟨hu, huv ▸ hv⟩
    | cons d u =>
      obtain ⟨rfl, rfl⟩ := List.cons.inj huv
      exact .inl ⟨u, v, rfl, hu, hv⟩
  · rintro (⟨u, v, rfl, hu, hv⟩ | ⟨hu, hv⟩)
    · exact ⟨c :: u, v, rfl, hu, hv⟩
    · exact ⟨[], c :: s, rfl, hu, hv⟩

/-- The first turn of a repetition that takes anything takes the first character. -/
theorem matches_many_cons : (many a).Matches (c :: s) ↔
    ∃ u v, s = u ++ v ∧ a.Matches (c :: u) ∧ (many a).Matches v := by
  constructor
  · generalize hp : many a = p, ht : c :: s = t
    intro h
    induction h with
    | many_nil => cases ht
    | @many_cons a' u v hu hv _ ih =>
      obtain rfl := Pattern.many.inj hp
      cases u with
      | nil => exact ih rfl ht
      | cons d u =>
        obtain ⟨rfl, rfl⟩ := List.cons.inj ht
        exact ⟨u, v, rfl, hu, hv⟩
    | _ => cases hp
  · rintro ⟨u, v, rfl, hu, hv⟩
    exact .many_cons (s := c :: u) hu hv

theorem matches_upTo_cons : (upTo (n + 1) a).Matches (c :: s) ↔
    ∃ u v, s = u ++ v ∧ a.Matches (c :: u) ∧ (upTo n a).Matches v := by
  constructor
  · intro h
    induction n with
    | zero =>
      obtain hs | ⟨u, v, huv, hu, hv⟩ := matches_upTo_succ.1 h
      · cases hs
      · obtain rfl := matches_upTo_zero.1 hv
        rw [List.append_nil] at huv
        exact ⟨s, [], (List.append_nil s).symm, huv ▸ hu, .upTo_nil⟩
    | succ n ih =>
      obtain hs | ⟨u, v, huv, hu, hv⟩ := matches_upTo_succ.1 h
      · cases hs
      cases u with
      | nil =>
        -- a turn that takes nothing can as well be left out
        obtain ⟨u', v', hs, hu', hv'⟩ := ih (huv ▸ hv)
        exact ⟨u', v', hs, hu', hv'.upTo_succ⟩
      | cons d u =>
        obtain ⟨rfl, rfl⟩ := List.cons.inj huv
        exact ⟨u, v, rfl, hu, hv⟩
  · rintro ⟨u, v, rfl, hu, hv⟩
    exact .upTo_cons (s := c :: u) hu hv

/-! ## Derivatives -/

theorem nullable_iff : a.nullable = true ↔ a.Matches [] := by
  induction a with
  | never => simp [nullable, matches_never]
  | nothing => simp [nullable, matches_nothing]
  | one p => simp [nullable, matches_one]
  | seq a b iha ihb =>
    rw [nullable, Bool.and_eq_true, iha, ihb, matches_seq]
    constructor
    · rintro ⟨ha, hb⟩
      exact ⟨[], [], rfl, ha, hb⟩
    · rintro ⟨u, v, huv, hu, hv⟩
      obtain ⟨rfl, rfl⟩ := List.append_eq_nil_iff.1 huv.symm
      exact ⟨hu, hv⟩
  | either a b iha ihb => rw [nullable, Bool.or_eq_true, iha, ihb, matches_either]
  | many a _ => exact iff_of_true rfl .many_nil
  | upTo n a _ => exact iff_of_true rfl .upTo_nil

theorem matches_join : (join a b).Matches s ↔ (seq a b).Matches s := by
  cases a with
  | never => simp [join, matches_seq, matches_never]
  | nothing =>
    simp only [join, matches_seq, matches_nothing]
    constructor
    · intro h
      exact ⟨[], s, rfl, rfl, h⟩
    · rintro ⟨u, v, rfl, rfl, h⟩
      exact h
  | _ => rfl

theorem matches_choose : (choose a b).Matches s ↔ (either a b).Matches s := by
  rw [matches_either]
  cases a with
  | never => simp [choose, matches_never]
  | _ => cases b <;> simp [choose, matches_either, matches_never]

/-- What is left to be matched after a character matches exactly if the whole does. -/
theorem matches_after : (a.after c).Matches s ↔ a.Matches (c :: s) := by
  induction a generalizing s with
  | never => exact iff_of_false matches_never matches_never
  | nothing => simp [after, matches_never, matches_nothing]
  | one p =>
    rw [after, matches_one]
    by_cases hp : p c = true
    · rw [if_pos hp, matches_nothing]
      constructor
      · rintro rfl
        exact ⟨c, hp, rfl⟩
      · rintro ⟨d, -, hs⟩
        exact (List.cons.inj hs).2
    · rw [if_neg hp]
      refine iff_of_false matches_never ?_
      rintro ⟨d, hd, hs⟩
      exact hp ((List.cons.inj hs).1 ▸ hd)
  | seq a b iha ihb =>
    have hjoin : (join (a.after c) b).Matches s ↔
        ∃ u v, s = u ++ v ∧ a.Matches (c :: u) ∧ b.Matches v := by
      simp only [matches_join, matches_seq, iha]
    rw [after, matches_seq_cons, ← nullable_iff, ← hjoin]
    by_cases hnull : a.nullable = true
    · rw [if_pos hnull, matches_choose, matches_either, ihb, and_iff_right hnull]
    · rw [if_neg hnull, or_iff_left fun h => hnull h.1]
  | either a b iha ihb => rw [after, matches_choose, matches_either, matches_either, iha, ihb]
  | many a iha => simp only [after, matches_join, matches_seq, matches_many_cons, iha]
  | upTo n a iha =>
    cases n with
    | zero => simp [after, matches_never, matches_upTo_zero]
    | succ n => simp only [after, matches_join, matches_seq, matches_upTo_cons, iha]

theorem accepts_iff_matches : a.accepts s = true ↔ a.Matches s := by
  rw [accepts]
  induction s generalizing a with
  | nil => exact nullable_iff
  | cons c s ih => rw [List.foldl_cons, ih, matches_after]

theorem matches_upTo_one : (upTo n (one p)).Matches s ↔ s.length ≤ n ∧ ∀ c ∈ s, p c = true := by
  induction n generalizing s with
  | zero =>
    rw [matches_upTo_zero, Nat.le_zero, List.length_eq_zero_iff]
    exact ⟨fun h => ⟨h, by simp [h]⟩, And.left⟩
  | succ n ih =>
    cases s with
    | nil => exact iff_of_true .upTo_nil (by simp)
    | cons c s =>
      simp only [matches_upTo_cons, matches_one, List.cons.injEq, ih, List.length_cons,
        Nat.add_le_add_iff_right, List.forall_mem_cons]
      constructor
      · rintro ⟨u, v, rfl, ⟨d, hd, rfl, rfl⟩, hlength, hv⟩
        exact ⟨hlength, hd, hv⟩
      · rintro ⟨hlength, hc, hs⟩
        exact ⟨[], s, rfl, ⟨c, hc, rfl, rfl⟩, hlength, hs⟩

end Text.Pattern

open Text Text.Pattern

theorem usernamePattern_accepts_iff {cs : List Char} : usernamePattern.accepts cs = true ↔
    cs ≠ [] ∧ cs.length ≤ 64 ∧ ∀ c ∈ cs, isUsernameChar c = true := by
  rw [accepts_iff_matches, usernamePattern, matches_seq]
  simp only [matches_one, matches_upTo_one]
  constructor
  · rintro ⟨u, v, rfl, ⟨c, hc, rfl⟩, hlength, hv⟩
    refine ⟨List.cons_ne_nil c v, ?_, List.forall_mem_cons.2 ⟨hc, hv⟩⟩
    rw [List.singleton_append, List.length_cons]
    omega
  · rintro ⟨hne, hlength, hall⟩
    cases cs with
    | nil => exact absurd rfl hne
    | cons c cs =>
      rw [List.length_cons] at hlength
      obtain ⟨hc, hcs⟩ := List.forall_mem_cons.1 hall
      exact ⟨[c], cs, rfl, ⟨c, hc, rfl⟩, by omega, hcs⟩

def IsUsername (name : String) : Prop :=
  name ≠ "" ∧ name.length ≤ 64 ∧ ∀ c ∈ name.toList, isUsernameChar c = true

theorem checkUsername_eq_ok_iff {name : String} :
    checkUsername name = .ok () ↔ IsUsername name := by
  have hnil : name = "" ↔ name.toList = [] := by rw [← String.toList_inj, String.toList_empty]
  rw [checkUsername]
  by_cases hempty : name = ""
  · rw [if_pos hempty]
    exact iff_of_false nofun fun h => h.1 hempty
  · by_cases haccepts : usernamePattern.accepts name.toList = true
    · rw [if_neg hempty, if_pos haccepts]
      have hname := usernamePattern_accepts_iff.1 haccepts
      exact iff_of_true rfl ⟨hempty, hname.2⟩
    · rw [if_neg hempty, if_neg haccepts]
      refine iff_of_false nofun fun h => haccepts (usernamePattern_accepts_iff.2 ?_)
      exact ⟨mt hnil.2 hempty, h.2⟩

end MessageBoard
