import Mathlib
import MessageBoard.Proofs.Numerals
import MessageBoard.Proofs.Quotation
import MessageBoard.Toml.Value

/-!
# Values of a configuration read back

Texts, integers and truth values are read as they were when the line ends behind them. An integer
is taken for nothing else: no moment begins with digits that are followed by the end of a line, and
neither a fraction nor an exponent follows them.
-/

namespace MessageBoard.Toml

open MessageBoard.Text

variable {c m : Char} {cs ds rest : List Char}

/-! ## Moments -/

theorem mark?_of_ne (h : c ≠ m) : mark? m (c :: cs) = none := by
  rw [mark?, if_neg h]

theorem exactly?_eq_some {width n : Nat} (h : exactly? width cs = some (n, rest)) :
    (cs.take width).length = width ∧ (∀ c ∈ cs.take width, c.isDigit = true) ∧
      rest = cs.drop width := by
  rw [exactly?] at h
  split_ifs at h with hdigits
  obtain ⟨hlength, hall⟩ := hdigits
  exact ⟨hlength, List.all_eq_true.1 hall, (Prod.mk.inj (Option.some.inj h)).2.symm⟩

theorem exactly?_of_not_isDigit (hc : c.isDigit = false) (width : Nat) :
    exactly? (width + 1) (c :: cs) = none := by
  rw [exactly?, if_neg]
  simp [hc]

theorem mark?_after_exactly? (hds : ∀ c ∈ ds, c.isDigit = true) (hm : m.isDigit = false)
    (hnewline : m ≠ '\n') {width n : Nat}
    (h : exactly? width (ds ++ '\n' :: rest) = some (n, cs)) : mark? m cs = none := by
  obtain ⟨hlength, hall, rfl⟩ := exactly?_eq_some h
  have hwidth : width ≤ ds.length := by
    by_contra hlong
    have hmem : '\n' ∈ (ds ++ '\n' :: rest).take width := by
      rw [List.take_append, List.mem_append]
      right
      obtain ⟨k, hk⟩ := Nat.exists_eq_add_of_lt (not_le.1 hlong)
      rw [show width - ds.length = k + 1 by omega, List.take_succ_cons]
      exact List.mem_cons_self
    exact absurd (hall _ hmem) (by decide)
  rw [List.drop_append_of_le_length hwidth]
  cases hdrop : ds.drop width with
  | nil => exact mark?_of_ne hnewline.symm
  | cons d ds' =>
    have hd : d.isDigit = true := hds d (List.mem_of_mem_drop (hdrop ▸ List.mem_cons_self))
    refine mark?_of_ne ?_
    rintro rfl
    exact absurd hd (by simp [hm])

theorem afterDay?_digits (hds : ∀ c ∈ ds, c.isDigit = true) :
    afterDay? (ds ++ '\n' :: rest) = none := by
  rw [afterDay?]
  cases h : exactly? 4 (ds ++ '\n' :: rest) with
  | none => rfl
  | some read =>
    have hmark := mark?_after_exactly? hds (by decide : ('-' : Char).isDigit = false) (by decide) h
    simp only [bind, Option.bind, hmark]

theorem afterTime?_digits (hds : ∀ c ∈ ds, c.isDigit = true) :
    afterTime? (ds ++ '\n' :: rest) = none := by
  rw [afterTime?, pair?]
  cases h : exactly? 2 (ds ++ '\n' :: rest) with
  | none => rfl
  | some read =>
    have hmark := mark?_after_exactly? hds (by decide : (':' : Char).isDigit = false) (by decide) h
    simp only [bind, Option.bind]
    split_ifs
    · simp only [hmark]
    · rfl

theorem afterMoment?_digits (hds : ∀ c ∈ ds, c.isDigit = true) :
    afterMoment? (ds ++ '\n' :: rest) = none := by
  rw [afterMoment?, afterDay?_digits hds, afterTime?_digits hds]

theorem afterMoment?_of_not_isDigit (hc : c.isDigit = false) : afterMoment? (c :: cs) = none := by
  rw [afterMoment?, afterDay?, afterTime?, pair?, exactly?_of_not_isDigit hc,
    exactly?_of_not_isDigit hc]
  rfl

/-! ## Numbers -/

theorem isSome_digit?_of_mem_decimal {n : Nat} (hc : c ∈ decimal n) :
    (digit? 10 c).isSome = true :=
  isSome_digit?_of_mem_toDigits (by decide) (by decide) hc

theorem moreDigits_run {base : Nat} (hds : ∀ c ∈ ds, (digit? base c).isSome = true)
    (hnewline : (digit? base '\n').isSome = false) :
    moreDigits base (ds ++ '\n' :: rest) = some (ds, '\n' :: rest) := by
  induction ds with
  | nil =>
    rw [List.nil_append, moreDigits, if_neg (by rw [hnewline]; decide)]
    · exact fun h => absurd h (by decide)
    · exact fun _ _ h => absurd h (by decide)
  | cons d ds ih =>
    obtain ⟨hd, hds⟩ := List.forall_mem_cons.1 hds
    have hmark : d ≠ '_' := by
      rintro rfl
      exact absurd hd (by simp [digit?, digitValue?])
    rw [List.cons_append, moreDigits, if_pos hd, ih hds]
    · rfl
    all_goals simp_all

theorem digits?_decimal (n : Nat) :
    digits? 10 (decimal n ++ '\n' :: rest) = some (decimal n, '\n' :: rest) := by
  have hdigits : ∀ c ∈ decimal n, (digit? 10 c).isSome = true := fun c =>
    isSome_digit?_of_mem_decimal
  obtain ⟨d, ds, hcons⟩ := List.exists_cons_of_ne_nil (decimal_ne_nil n)
  rw [hcons] at hdigits ⊢
  obtain ⟨hd, hds⟩ := List.forall_mem_cons.1 hdigits
  rw [List.cons_append, digits?, if_pos hd, moreDigits_run hds rfl]
  rfl

theorem whole?_decimal (n : Nat) :
    whole? (decimal n ++ '\n' :: rest) = some (decimal n, '\n' :: rest) := by
  by_cases hn : n = 0
  · subst hn
    rfl
  · have hread : digits? 10 (decimal n ++ '\n' :: rest) = some (decimal n, '\n' :: rest) :=
      digits?_decimal n
    have hhead := head?_decimal hn
    obtain ⟨d, ds, hcons⟩ := List.exists_cons_of_ne_nil (decimal_ne_nil n)
    rw [hcons, List.cons_append] at hread ⊢
    rw [whole?, hread]
    rintro _ h
    obtain ⟨rfl, -⟩ := List.cons.inj h
    rw [hcons] at hhead
    exact hhead rfl

theorem signed_decimalInt (n : Int) (rest : List Char) :
    signed (decimalInt n ++ '\n' :: rest) =
      (decide (n < 0), decimal n.natAbs ++ '\n' :: rest) := by
  cases n with
  | negSucc n =>
    rw [decide_eq_true (Int.negSucc_lt_zero n)]
    rfl
  | ofNat n =>
    obtain ⟨d, ds, hcons⟩ := List.exists_cons_of_ne_nil (decimal_ne_nil n)
    have hd : d.isDigit = true := isDigit_of_mem_decimal (hcons ▸ List.mem_cons_self)
    show signed (decimal n ++ '\n' :: rest) = (false, decimal n ++ '\n' :: rest)
    rw [hcons, List.cons_append, signed]
    · rintro _ h
      rw [(List.cons.inj h).1] at hd
      exact absurd hd (by decide)
    · rintro _ h
      rw [(List.cons.inj h).1] at hd
      exact absurd hd (by decide)

theorem afterReal?_decimalInt (n : Int) (rest : List Char) :
    afterReal? (decimalInt n ++ '\n' :: rest) = none := by
  have hdecimal : afterDecimal? (decimalInt n ++ '\n' :: rest) = none := by
    have hfraction : fraction? ('\n' :: rest) = some ([], '\n' :: rest) := rfl
    have hexponent : exponent? ('\n' :: rest) = some (0, '\n' :: rest) := rfl
    simp only [afterDecimal?, signed_decimalInt, whole?_decimal, hfraction, hexponent, bind,
      Option.bind, and_self, if_true]
  have hspecial : afterSpecial? (decimalInt n ++ '\n' :: rest) = none := by
    obtain ⟨d, ds, hcons⟩ := List.exists_cons_of_ne_nil (decimal_ne_nil n.natAbs)
    have hd : d.isDigit = true := isDigit_of_mem_decimal (hcons ▸ List.mem_cons_self)
    rw [afterSpecial?, signed_decimalInt, hcons]
    dsimp only
    split
    · rename_i h
      rw [(List.cons.inj h).1] at hd
      exact absurd hd (by decide)
    · rename_i h
      rw [(List.cons.inj h).1] at hd
      exact absurd hd (by decide)
    · rfl
  rw [afterReal?, hdecimal, hspecial]

theorem afterMoment?_decimalInt (n : Int) (rest : List Char) :
    afterMoment? (decimalInt n ++ '\n' :: rest) = none := by
  cases n with
  | ofNat n => exact afterMoment?_digits fun c hc => isDigit_of_mem_decimal hc
  | negSucc n => exact afterMoment?_of_not_isDigit (by decide)

theorem second_decimalInt (n : Int) (hm : m.isDigit = false) (hnewline : m ≠ '\n') :
    decimalInt n ++ '\n' :: rest ≠ c :: m :: cs := by
  intro h
  have hsecond : ∀ {ds : List Char}, (∀ d ∈ ds, d.isDigit = true) →
      ds ++ '\n' :: rest ≠ m :: cs := by
    rintro ds hds h
    cases ds with
    | nil => exact hnewline (List.cons.inj h).1.symm
    | cons d ds =>
      have hd := hds d List.mem_cons_self
      rw [(List.cons.inj h).1, hm] at hd
      exact Bool.false_ne_true hd
  cases n with
  | negSucc n => exact hsecond (fun d hd => isDigit_of_mem_decimal hd) (List.cons.inj h).2
  | ofNat n =>
    obtain ⟨d, ds, hcons⟩ := List.exists_cons_of_ne_nil (decimal_ne_nil n)
    rw [decimalInt, hcons] at h
    refine hsecond (fun d hd => ?_) (List.cons.inj h).2
    exact isDigit_of_mem_decimal (hcons ▸ List.mem_cons_of_mem _ hd)

theorem int?_decimalInt {n : Int} (hn : (Int64.ofInt n).toInt = n) :
    int? (decimalInt n ++ '\n' :: rest) = some (n, '\n' :: rest) := by
  have hread : ofDigits? 10 (decimal n.natAbs) = some n.natAbs :=
    ofDigits?_toDigits (by decide) (by decide) _
  have hvalue : (if decide (n < 0) = true then -(n.natAbs : Int) else n.natAbs) = n := by
    by_cases hneg : n < 0
    · rw [if_pos (decide_eq_true hneg)]
      omega
    · rw [if_neg (by simpa using hneg)]
      omega
  rw [int?]
  · simp only [signed_decimalInt, whole?_decimal, hread, bind, Option.bind, pure, hvalue, word?,
      if_pos hn]
  all_goals
    intro _
    exact second_decimalInt n (by decide) (by decide)

theorem numeric?_decimalInt {n : Int} (hn : (Int64.ofInt n).toInt = n) :
    numeric? (decimalInt n ++ '\n' :: rest) = some (.int n, '\n' :: rest) := by
  rw [numeric?, afterMoment?_decimalInt, afterReal?_decimalInt, int?_decimalInt hn]
  rfl

/-! ## Values -/

def Scalar.tree : Scalar → Tree
  | .text s => .text s
  | .int n => .int n
  | .flag b => .flag b

theorem value?_eq_scalar? (hc : c ≠ '[') (hc' : c ≠ '\x7b') (depth : Nat) :
    value? depth (c :: cs) = scalar? (c :: cs) := by
  cases depth <;> rw [value?] <;> simp_all

theorem exists_cons_textChars (cs : List Char) :
    ∃ d ds, textChars cs = d :: ds ∧ (d = '"' ∨ d = '\'') := by
  rw [textChars]
  cases Style.ofText cs with
  | basic => exact ⟨_, _, rfl, .inl rfl⟩
  | literal => exact ⟨_, _, rfl, .inr rfl⟩
  | basicBlock => exact ⟨_, _, rfl, .inl rfl⟩
  | literalBlock => exact ⟨_, _, rfl, .inr rfl⟩

theorem value?_text (s : String) (rest : List Char) (depth : Nat) :
    value? depth (textChars s.toList ++ '\n' :: rest) = some (.text s, '\n' :: rest) := by
  have hread := string?_textChars s.toList rest
  obtain ⟨d, ds, hcons, hmark⟩ := exists_cons_textChars s.toList
  have hd : d ≠ '[' ∧ d ≠ '\x7b' ∧ d ≠ 't' ∧ d ≠ 'f' := by
    rcases hmark with rfl | rfl <;> decide
  rw [hcons, List.cons_append] at hread ⊢
  rw [value?_eq_scalar? hd.1 hd.2.1, scalar?, if_pos hmark, hread]
  · simp only [Option.map_some, String.ofList_toList]
  · exact fun _ h => absurd h hd.2.2.1
  · exact fun _ h => absurd h hd.2.2.2

theorem exists_cons_decimalInt (n : Int) :
    ∃ d ds, decimalInt n = d :: ds ∧ (d = '-' ∨ d.isDigit = true) := by
  cases n with
  | negSucc n => exact ⟨'-', _, rfl, .inl rfl⟩
  | ofNat n =>
    obtain ⟨d, ds, hcons⟩ := List.exists_cons_of_ne_nil (decimal_ne_nil n)
    exact ⟨d, ds, hcons, .inr (isDigit_of_mem_decimal (hcons ▸ List.mem_cons_self))⟩

theorem value?_int {n : Int} (hn : (Int64.ofInt n).toInt = n) (depth : Nat) :
    value? depth (decimalInt n ++ '\n' :: rest) = some (.int n, '\n' :: rest) := by
  have hread : numeric? (decimalInt n ++ '\n' :: rest) = some (.int n, '\n' :: rest) :=
    numeric?_decimalInt hn
  obtain ⟨d, ds, hcons, hfirst⟩ := exists_cons_decimalInt n
  have hd : ∀ m ∈ ['[', '\x7b', 't', 'f', '"', '\''], d ≠ m := by
    rintro m hm rfl
    rcases hfirst with rfl | hdigit
    · exact absurd hm (by decide)
    · revert hdigit
      fin_cases hm <;> decide
  have hquote : ¬ (d = '"' ∨ d = '\'') := not_or.2 ⟨hd _ (by decide), hd _ (by decide)⟩
  rw [hcons, List.cons_append] at hread ⊢
  rw [value?_eq_scalar? (hd _ (by decide)) (hd _ (by decide)), scalar?, if_neg hquote, hread]
  · exact fun _ h => absurd h (hd _ (by decide))
  · exact fun _ h => absurd h (hd _ (by decide))

theorem value?_flag (b : Bool) (depth : Nat) :
    value? depth ((if b then "true" else "false").toList ++ '\n' :: rest) =
      some (.flag b, '\n' :: rest) := by
  cases b <;> exact value?_eq_scalar? (by decide) (by decide) depth

/-- Whatever can be written is read as it was. -/
theorem Scalar.value?_chars {v : Scalar} (h : v.chars? = some cs) (rest : List Char)
    (depth : Nat) : value? depth (cs ++ '\n' :: rest) = some (v.tree, '\n' :: rest) := by
  cases v with
  | text s =>
    rw [← Option.some.inj h]
    exact value?_text s rest depth
  | int n =>
    rw [Scalar.chars?] at h
    split_ifs at h with hn
    rw [← Option.some.inj h]
    exact value?_int hn depth
  | flag b =>
    rw [← Option.some.inj h]
    exact value?_flag b depth

end MessageBoard.Toml
