import Mathlib
import MessageBoard.Text.Digits
import MessageBoard.Text.Magnitude

/-!
# Numerals

Numbers are read back from their digits, by either of the two readings of digits, and wherever
another character follows them.
-/

namespace MessageBoard.Text

/-! ## Runs -/

section Runs

variable {α : Type} {p : α → Bool} {run rest : List α}

theorem takeWhile_run (hrun : ∀ a ∈ run, p a = true) (hrest : rest.takeWhile p = []) :
    (run ++ rest).takeWhile p = run := by
  rw [List.takeWhile_append_of_pos hrun, hrest, List.append_nil]

theorem dropWhile_run (hrun : ∀ a ∈ run, p a = true) (hrest : rest.takeWhile p = []) :
    (run ++ rest).dropWhile p = rest := by
  have hsplit := List.takeWhile_append_dropWhile (p := p) (l := rest)
  rw [hrest, List.nil_append] at hsplit
  rw [List.dropWhile_append_of_pos hrun, hsplit]

theorem takeWhile_cons_eq_nil {a : α} (ha : p a = false) : (a :: rest).takeWhile p = [] := by
  rw [List.takeWhile_cons, ha]
  rfl

end Runs

/-! ## Digits of any base -/

variable {base : Nat}

theorem ofDigits?_toDigits (hb : 1 < base) (hb' : base ≤ 16) (n : Nat) :
    ofDigits? base (Nat.toDigits base n) = some n := by
  induction n using Nat.strong_induction_on with
  | _ n ih =>
    by_cases hn : n < base
    · have hdigit : digit? base n.digitChar = some n := digit?_digitChar hb' hn
      rw [Nat.toDigits_of_lt_base hn, ofDigits?, List.foldlM_cons, hdigit]
      simp
    · have hdigit : digit? base (n % base).digitChar = some (n % base) :=
        digit?_digitChar hb' (Nat.mod_lt n (by omega))
      have hquotient := ih (n / base) (Nat.div_lt_self (by omega) hb)
      rw [Nat.toDigits_of_base_le hb (by omega), ofDigits?_append, hquotient, hdigit]
      simp [Nat.div_add_mod]

theorem isSome_digit? {cs : List Char} {n : Nat} (h : ofDigits? base cs = some n) :
    ∀ c ∈ cs, (digit? base c).isSome = true := by
  induction cs using List.reverseRecOn generalizing n with
  | nil => exact fun c hc => absurd hc List.not_mem_nil
  | append_singleton cs d ih =>
    rw [ofDigits?_append] at h
    obtain ⟨m, hm, h⟩ := Option.bind_eq_some_iff.1 h
    obtain ⟨v, hv, -⟩ := Option.map_eq_some_iff.1 h
    intro c hc
    rcases List.mem_append.1 hc with hc | hc
    · exact ih hm c hc
    · rw [List.mem_singleton.1 hc, hv, Option.isSome_some]

theorem isSome_digit?_of_mem_toDigits (hb : 1 < base) (hb' : base ≤ 16) {n : Nat} {c : Char}
    (hc : c ∈ Nat.toDigits base n) : (digit? base c).isSome = true :=
  isSome_digit? (ofDigits?_toDigits hb hb' n) c hc

/-! ## Decimal digits -/

theorem isDigit_digitChar {n : Nat} (h : n < 10) : n.digitChar.isDigit = true := by
  have hall : ∀ m < 10, (Nat.digitChar m).isDigit = true := by decide
  exact hall n h

theorem isDigit_of_mem_decimal {n : Nat} {c : Char} (hc : c ∈ decimal n) : c.isDigit = true :=
  Nat.isDigit_of_mem_toDigits (by decide) (by decide) hc

theorem decimal_ne_nil (n : Nat) : decimal n ≠ [] := Nat.toDigits_ne_nil

theorem ofDigitChars_decimal (n : Nat) : Nat.ofDigitChars 10 (decimal n) 0 = n :=
  Nat.ofDigitChars_toDigits (by decide) (by decide)

theorem head?_decimal {n : Nat} (hn : n ≠ 0) : (decimal n).head? ≠ some '0' := by
  induction n using Nat.strong_induction_on with
  | _ n ih =>
    rw [decimal]
    by_cases hlt : n < 10
    · rw [Nat.toDigits_of_lt_base hlt, List.head?_cons, Ne, Option.some.injEq,
        Nat.digitChar_eq_zero]
      exact hn
    · have hquotient := ih (n / 10) (by omega) (by omega)
      rw [Nat.toDigits_of_base_le (by decide) (by omega), List.head?_append_of_ne_nil _
        Nat.toDigits_ne_nil]
      exact hquotient

theorem exists_of_mem_fixed {base width n : Nat} (hb : 0 < base) {c : Char}
    (hc : c ∈ fixed base width n) : ∃ v < base, c = Nat.digitChar v := by
  induction width generalizing n with
  | zero => exact absurd hc List.not_mem_nil
  | succ width ih =>
    rw [fixed] at hc
    rcases List.mem_append.1 hc with hc | hc
    · exact ih hc
    · exact ⟨n % base, Nat.mod_lt n hb, List.mem_singleton.1 hc⟩

theorem isDigit_of_mem_fixed {width n : Nat} {c : Char} (hc : c ∈ fixed 10 width n) :
    c.isDigit = true := by
  obtain ⟨v, hv, rfl⟩ := exists_of_mem_fixed (by decide) hc
  exact isDigit_digitChar hv

theorem ofDigitChars_fixed {width n : Nat} (h : n < 10 ^ width) :
    Nat.ofDigitChars 10 (fixed 10 width n) 0 = n := by
  induction width generalizing n with
  | zero =>
    rw [pow_zero, Nat.lt_one_iff] at h
    rw [h]
    rfl
  | succ width ih =>
    have hquotient := ih (n := n / 10) (by rw [pow_succ] at h; omega)
    have hmod : n % 10 < 10 := Nat.mod_lt n (by decide)
    rw [fixed, Nat.ofDigitChars_append, hquotient,
      Nat.ofDigitChars_cons_digitChar_of_lt_ten hmod, Nat.ofDigitChars_nil, Nat.div_add_mod]

theorem ofDigitChars_leftpad (width : Nat) (cs : List Char) :
    Nat.ofDigitChars 10 (cs.leftpad width '0') 0 = Nat.ofDigitChars 10 cs 0 := by
  have hzeros (k : Nat) : Nat.ofDigitChars 10 (List.replicate k '0') 0 = 0 := by
    induction k with
    | zero => rfl
    | succ k ih =>
      rw [List.replicate_succ, Nat.ofDigitChars_cons]
      exact ih
  rw [List.leftpad, Nat.ofDigitChars_append, hzeros]

/-- A number of fewer than 300 digits is not beyond binary floating point. -/
theorem exceeds_eq_false {ds : List Char} (h : ds.length < 300) : exceeds ds 0 = false := by
  have hle : (ds.dropWhile (· = '0')).length ≤ ds.length := (List.dropWhile_suffix _).length_le
  rw [exceeds]
  refine if_pos (.inr ?_)
  omega

end MessageBoard.Text
