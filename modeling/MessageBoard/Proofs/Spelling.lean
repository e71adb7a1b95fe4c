import Mathlib
import MessageBoard.Instant.Text
import MessageBoard.Proofs.Numerals
import MessageBoard.Uuid

/-!
# Texts of identifiers and instants

An identifier and an instant are read back from the text that is written for them.
-/

namespace MessageBoard

open Text

/-! ## Identifiers -/

namespace Uuid

theorem length_digits (u : Uuid) : u.digits.length = 32 := length_fixed _ _ _

theorem ofDigits_digits (u : Uuid) : ofDigits u.digits = some u := by
  have hlt : u.bits.toNat < Nat.pow 16 32 := u.bits.isLt
  rw [ofDigits, if_pos u.length_digits, digits, ofDigits?_fixed (by decide) (by decide) hlt]
  simp

theorem length_hyphenate {ds : List Char} (h : ds.length = 32) : (hyphenate ds).length = 36 := by
  simp [hyphenate, h]

theorem unhyphenate {ds : List Char} (h : ds.length = 32) :
    (hyphenate ds).take 8 ++ ((hyphenate ds).drop 9).take 4 ++ ((hyphenate ds).drop 14).take 4 ++
      ((hyphenate ds).drop 19).take 4 ++ (hyphenate ds).drop 24 = ds := by
  obtain ⟨a, b, c, d, e, rfl, ha, hb, hc, hd⟩ : ∃ a b c d e : List Char,
      ds = a ++ (b ++ (c ++ (d ++ e))) ∧ a.length = 8 ∧ b.length = 4 ∧ c.length = 4 ∧
        d.length = 4 := by
    refine ⟨ds.take 8, (ds.drop 8).take 4, (ds.drop 12).take 4, (ds.drop 16).take 4, ds.drop 20,
      ?_, ?_, ?_, ?_, ?_⟩
    · have hgroup (k m : Nat) : (ds.drop k).take m ++ ds.drop (k + m) = ds.drop k := by
        rw [← List.drop_drop, List.take_append_drop]
      rw [hgroup 16 4, hgroup 12 4, hgroup 8 4, List.take_append_drop]
    all_goals simp [h]
  simp [hyphenate, List.drop_append, List.drop_eq_nil_of_le, ha, hb, hc, hd]

def alphabet : List Char := "-0123456789abcdef".toList

theorem mem_hyphenate {ds : List Char} {c : Char} (hc : c ∈ hyphenate ds) : c = '-' ∨ c ∈ ds := by
  have htake {cs : List Char} {k : Nat} : c ∈ cs.take k → c ∈ cs := List.mem_of_mem_take
  have hdrop {cs : List Char} {k : Nat} : c ∈ cs.drop k → c ∈ cs := List.mem_of_mem_drop
  grind [hyphenate]

theorem mem_alphabet {u : Uuid} {c : Char} (hc : c ∈ u.toText.toList) : c ∈ alphabet := by
  have hdigit : ∀ v : Fin 16, Nat.digitChar v ∈ alphabet := by decide
  rw [toText, String.toList_ofList] at hc
  obtain rfl | hc := mem_hyphenate hc
  · decide
  · obtain ⟨v, hv, rfl⟩ := exists_of_mem_fixed (by decide) hc
    exact hdigit ⟨v, hv⟩

theorem ofText_toText (u : Uuid) : ofText u.toText = some u := by
  have hlength := length_hyphenate u.length_digits
  have hread : ofHyphenated (hyphenate u.digits) = some u := by
    rw [ofHyphenated, unhyphenate u.length_digits, if_pos ⟨hlength, rfl⟩, ofDigits_digits]
  rw [ofText, toText, String.toList_ofList, ofChars, hlength]
  exact hread

end Uuid

/-! ## Instants -/

namespace Instant

theorem trimStart_of_ne_blank {c : Char} {cs : List Char} (hc : isBlank c = false) :
    trimStart (c :: cs) = c :: cs := by
  rw [trimStart, List.dropWhile_cons, hc]
  rfl

theorem isBlank_of_isDigit {c : Char} (h : c.isDigit = true) : isBlank c = false := by
  simp only [Char.isDigit, Bool.and_eq_true, decide_eq_true_eq] at h
  have hlow : 48 ≤ c.toNat := UInt32.le_iff_toNat_le.1 h.1
  have hhigh : c.toNat ≤ 57 := UInt32.le_iff_toNat_le.1 h.2
  simp only [isBlank]
  grind

theorem trimStart_digits {ds rest : List Char} (hne : ds ≠ []) (hds : ∀ c ∈ ds, c.isDigit = true) :
    trimStart (ds ++ rest) = ds ++ rest := by
  obtain ⟨c, cs, rfl⟩ := List.exists_cons_of_ne_nil hne
  exact trimStart_of_ne_blank (isBlank_of_isDigit (hds c List.mem_cons_self))

theorem number?_fixed {width n : Nat} (hw : 0 < width) (h : n < 10 ^ width) (rest : List Char) :
    number? width (trimStart (fixed 10 width n ++ rest)) = some (n, rest) := by
  have hlength := length_fixed 10 width n
  have hdigits : ∀ c ∈ fixed 10 width n, c.isDigit = true := fun c => isDigit_of_mem_fixed
  have hne : fixed 10 width n ≠ [] := by
    intro hnil
    rw [hnil, List.length_nil] at hlength
    omega
  have htake : (fixed 10 width n ++ rest).take width = fixed 10 width n := List.take_left' hlength
  have hrun : (fixed 10 width n).takeWhile Char.isDigit = fixed 10 width n :=
    List.takeWhile_eq_self_iff.2 hdigits
  rw [trimStart_digits hne hdigits, number?, htake, hrun, if_neg hne, ofDigitChars_fixed h,
    hlength, List.drop_left' hlength]

theorem number?_run {ds rest : List Char} (hne : ds ≠ []) (hds : ∀ c ∈ ds, c.isDigit = true)
    (hrest : rest.takeWhile Char.isDigit = []) :
    number? (ds ++ rest).length (ds ++ rest) = some (Nat.ofDigitChars 10 ds 0, rest) := by
  rw [number?, List.take_length, takeWhile_run hds hrest, if_neg hne, List.drop_left' rfl]

theorem year?_of_isDigit {c : Char} (hc : c.isDigit = true) (cs : List Char) :
    year? (c :: cs) = (number? 4 (c :: cs)).map fun (n, cs) => ((n : Int), cs) := by
  unfold year?
  split
  · rename_i hcons
    rw [(List.cons.inj hcons).1] at hc
    exact absurd hc (by decide)
  · rename_i hcons
    rw [(List.cons.inj hcons).1] at hc
    exact absurd hc (by decide)
  · rfl

theorem year?_yearText (year : Int) {rest : List Char} (hrest : rest.takeWhile Char.isDigit = []) :
    year? (trimStart (yearText year ++ rest)) = some (year, rest) := by
  rw [yearText]
  by_cases hyear : 0 ≤ year ∧ year ≤ 9999
  · have hnumber := number?_fixed (by decide) (show year.toNat < 10 ^ 4 by omega) rest
    have hdigits : ∀ c ∈ fixed 10 4 year.toNat, c.isDigit = true := fun c => isDigit_of_mem_fixed
    have hne : fixed 10 4 year.toNat ≠ [] := by simp [fixed]
    rw [trimStart_digits hne hdigits] at hnumber
    rw [if_pos hyear, trimStart_digits hne hdigits]
    obtain ⟨c, cs, hcs⟩ := List.exists_cons_of_ne_nil hne
    rw [hcs, List.cons_append] at hnumber ⊢
    rw [year?_of_isDigit (hdigits c (hcs ▸ List.mem_cons_self)), hnumber]
    exact congrArg some (Prod.ext (Int.toNat_of_nonneg hyear.1) rfl)
  · have hne : (decimal year.natAbs).leftpad 4 '0' ≠ [] := by simp [List.leftpad, decimal_ne_nil]
    have hnumber := number?_run hne (fun c hc => ?_) hrest
    · rw [ofDigitChars_leftpad, ofDigitChars_decimal] at hnumber
      rw [if_neg hyear]
      by_cases hneg : year < 0
      · have hvalue : -(year.natAbs : Int) = year := by omega
        rw [if_pos hneg, List.cons_append, trimStart_of_ne_blank (by decide), year?, hnumber]
        exact congrArg some (Prod.ext hvalue rfl)
      · have hvalue : (year.natAbs : Int) = year := by omega
        rw [if_neg hneg, List.cons_append, trimStart_of_ne_blank (by decide), year?, hnumber]
        exact congrArg some (Prod.ext hvalue rfl)
    · rcases List.mem_append.1 hc with hc | hc
      · rw [(List.mem_replicate.1 hc).2]
        rfl
      · exact isDigit_of_mem_decimal hc

theorem fraction?_fixed {width n : Nat} (hw : 0 < width) (hw' : width ≤ 9) (h : n < 10 ^ width) :
    fraction? ('.' :: fixed 10 width n ++ ['Z']) = some (n * 10 ^ (9 - width), ['Z']) := by
  have hlength := length_fixed 10 width n
  have hdigits : ∀ c ∈ fixed 10 width n, c.isDigit = true := fun c => isDigit_of_mem_fixed
  have hne : fixed 10 width n ≠ [] := by
    intro hnil
    rw [hnil, List.length_nil] at hlength
    omega
  have hrun : (fixed 10 width n ++ ['Z']).takeWhile Char.isDigit = fixed 10 width n :=
    takeWhile_run hdigits rfl
  have hnine : (fixed 10 width n).take 9 = fixed 10 width n :=
    List.take_of_length_le (by omega)
  rw [List.cons_append, fraction?, hrun, if_neg hne, hnine, ofDigitChars_fixed h, hlength,
    List.drop_left' hlength]
  rfl

theorem fraction?_fractionText {nano : Nat} (h : nano < nanosPerSecond) :
    fraction? (fractionText nano ++ ['Z']) = some (nano, ['Z']) := by
  rw [nanosPerSecond] at h
  rw [fractionText]
  by_cases h0 : nano = 0
  · rw [if_pos h0, h0]
    rfl
  · rw [if_neg h0]
    by_cases h6 : nano % 1000000 = 0
    · rw [if_pos h6, fraction?_fixed (by decide) (by decide) (by omega)]
      congr 2
      omega
    · rw [if_neg h6]
      by_cases h3 : nano % 1000 = 0
      · rw [if_pos h3, fraction?_fixed (by decide) (by decide) (by omega)]
        congr 2
        omega
      · rw [if_neg h3, fraction?_fixed (by decide) (by decide) (by omega)]
        congr 2
        omega

theorem of?_date (d : Date) : Date.of? d.year d.month d.day = some d :=
  dif_pos ⟨d.year_mem, d.month_mem, d.day_mem⟩

theorem of?_clock (c : Clock) : Clock.of? c.hour c.minute c.second c.nano = some c :=
  dif_pos ⟨⟨c.hour_lt, c.minute_lt, c.second_lt, c.nano_lt⟩, c.leap⟩

/-- The time of day comes back from its parts as they are written, a leap second as second 60. -/
theorem clock_of_written (c : Clock) {second nano : Nat}
    (hsecond : second = if nanosPerSecond ≤ c.nano then 60 else c.second)
    (hnano : nano = if nanosPerSecond ≤ c.nano then c.nano - nanosPerSecond else c.nano) :
    (second = 60 → Clock.of? c.hour c.minute 59 (nanosPerSecond + nano) = some c) ∧
      (second ≠ 60 → Clock.of? c.hour c.minute second nano = some c) := by
  have hlt := c.second_lt
  by_cases hleap : nanosPerSecond ≤ c.nano
  · rw [if_pos hleap] at hsecond hnano
    refine ⟨fun _ => ?_, fun hne => absurd hsecond hne⟩
    rw [hnano, Nat.add_sub_cancel' hleap, ← c.leap hleap]
    exact of?_clock c
  · rw [if_neg hleap] at hsecond hnano
    refine ⟨fun h => by omega, fun _ => ?_⟩
    rw [hsecond, hnano]
    exact of?_clock c

theorem ofLocal?_zero (date : Date) (clock : Clock) :
    ofLocal? date clock 0 = some ⟨date, clock⟩ := by
  have hhour := clock.hour_lt
  have hminute := clock.minute_lt
  have hparts : ((clock.hour * 60 + clock.minute - 0 : Int) % 1440).toNat / 60 = clock.hour ∧
      ((clock.hour * 60 + clock.minute - 0 : Int) % 1440).toNat % 60 = clock.minute := by
    omega
  rw [ofLocal?, if_neg (by omega), if_pos (by omega), Option.bind_some, hparts.1, hparts.2,
    of?_clock]
  rfl

theorem ofText?_toText (t : Instant) : ofText? t.toText = some t := by
  obtain ⟨second, hsecond⟩ : ∃ second, second = if nanosPerSecond ≤ t.clock.nano then 60
    else t.clock.second := ⟨_, rfl⟩
  obtain ⟨nano, hnano⟩ : ∃ nano, nano = if nanosPerSecond ≤ t.clock.nano
    then t.clock.nano - nanosPerSecond else t.clock.nano := ⟨_, rfl⟩
  have htext : t.toChars = yearText t.date.year ++ ('-' :: (fixed 10 2 t.date.month ++ ('-' ::
      (fixed 10 2 t.date.day ++ ('T' :: (fixed 10 2 t.clock.hour ++ (':' ::
        (fixed 10 2 t.clock.minute ++ (':' :: (fixed 10 2 second ++
          (fractionText nano ++ ['Z']))))))))))) := by
    rw [toChars, hsecond, hnano]
    simp only [List.append_assoc, List.cons_append]
  have hmonth := t.date.month_mem
  have hday : t.date.day ≤ 31 := by
    have hle := t.date.day_mem.2
    have hmost : daysIn t.date.year t.date.month ≤ 31 := by
      unfold daysIn
      grind
    omega
  have hhour := t.clock.hour_lt
  have hminute := t.clock.minute_lt
  have hsixty : second < 10 ^ 2 := by
    have hlt := t.clock.second_lt
    rw [hsecond]
    split <;> omega
  have hnanoLt : nano < nanosPerSecond := by
    have hlt := t.clock.nano_lt
    rw [hnano]
    split <;> omega
  have hdash (cs : List Char) : trimStart ('-' :: cs) = '-' :: cs :=
    trimStart_of_ne_blank (by decide)
  have hcolon (cs : List Char) : trimStart (':' :: cs) = ':' :: cs :=
    trimStart_of_ne_blank (by decide)
  have htwo {n : Nat} (h : n < 10 ^ 2) (rest : List Char) :
      number? 2 (trimStart (fixed 10 2 n ++ rest)) = some (n, rest) :=
    number?_fixed (by decide) h rest
  have hzone : zone? (trimStart ['Z']) = some (0, []) := by decide
  have hend : trimStart [] = [] := rfl
  rw [ofText?, toText, String.toList_ofList, htext, ofChars?,
    year?_yearText _ (takeWhile_cons_eq_nil (by decide))]
  simp only [bind, Option.bind, hdash, hcolon, literal?, Option.orElse_eq_orElse,
    Option.orElse_some, if_true, htwo (show t.date.month < 10 ^ 2 by omega),
    htwo (show t.date.day < 10 ^ 2 by omega), htwo (show t.clock.hour < 10 ^ 2 by omega),
    htwo (show t.clock.minute < 10 ^ 2 by omega), htwo hsixty, fraction?_fractionText hnanoLt,
    hzone, hend, of?_date]
  obtain ⟨hleap, hplain⟩ := clock_of_written t.clock hsecond hnano
  by_cases h60 : second = 60
  · rw [if_pos h60, hleap h60]
    exact ofLocal?_zero t.date t.clock
  · rw [if_neg h60, hplain h60]
    exact ofLocal?_zero t.date t.clock

end Instant
end MessageBoard
