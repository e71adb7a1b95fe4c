import Mathlib
import MessageBoard.Toml.Text
import MessageBoard.Toml.Writing

/-!
# Strings of a configuration read back

A text is written in one of four ways, and read as it was in each of them. Between quotation marks
every character that is not escaped stands for itself. In a text of several lines the marks make
the difference: up to two in a row are a part of it, so a run of them is read only once it is known
what follows.
-/

namespace MessageBoard.Toml

open MessageBoard.Text

-- The readers' equations are derived here once: the proofs below would wait for one another.
attribute [local grind =] basic basicBlock literal literalBlock string?

variable {c : Char} {cs rest : List Char}

/-! ## Escapes -/

theorem ofDigits?_upper {width n : Nat} (h : n < 16 ^ width) :
    ofDigits? 16 ((fixed 16 width n).map Char.toUpper) = some n := by
  induction width generalizing n with
  | zero =>
    have hzero : n = 0 := by simpa using h
    subst hzero
    rfl
  | succ width ih =>
    have hdigit : ∀ v : Fin 16, digit? 16 (Nat.digitChar v).toUpper = some v.val := by decide
    have hlast := hdigit ⟨n % 16, Nat.mod_lt n (by decide)⟩
    have hfirst : n / 16 < 16 ^ width := by omega
    rw [fixed, List.map_append, List.map_singleton, ofDigits?_append, ih hfirst]
    simp only [Option.bind_some, hlast, Option.map_some]
    rw [Nat.div_add_mod]

theorem code?_upper {n : Nat} (hn : n < 0xD800) :
    code? 4 ((fixed 16 4 n).map Char.toUpper ++ rest) = some (Char.ofNat n, rest) := by
  have hlength : ((fixed 16 4 n).map Char.toUpper).length = 4 := by
    rw [List.length_map, length_fixed]
  have hread : ofDigits? 16 ((fixed 16 4 n).map Char.toUpper) = some n :=
    ofDigits?_upper (by omega)
  have hvalid : n.isValidChar := .inl hn
  rw [code?, List.take_left' hlength, if_pos hlength, hread, Option.bind_some, if_pos hvalid,
    List.drop_left' hlength]

theorem isText_of_not_isHidden (hhidden : isHidden c = false) (hnewline : c ≠ '\n') :
    isText c = true := by
  by_cases htab : c = '\t'
  · subst htab
    rfl
  · simp [isHidden, isText, htab, hnewline] at hhidden ⊢
    omega

/-- What stands for a character between quotation marks: itself, if it may stand there, or an
escape, which no end of a line is mistaken for. -/
inductive Stands (c : Char) : List Char → Prop where
  | plain (htext : isText c = true) (hquote : c ≠ '"') (hslash : c ≠ '\\') : Stands c [c]
  | escape (e : List Char) (hread : ∀ rest, escape? (e ++ rest) = some (c, rest))
    (hline : ∀ rest, nextLine? (e ++ rest) = none) : Stands c ('\\' :: e)

theorem stands_escaped (c : Char) : Stands c (escaped c) := by
  unfold escaped
  split
  any_goals exact .escape _ (fun _ => rfl) (fun _ => rfl)
  by_cases hhidden : isHidden c = true
  · have hn : c.toNat < 0xD800 := by
      simp only [isHidden, Bool.or_eq_true, Bool.and_eq_true, decide_eq_true_eq, beq_iff_eq]
        at hhidden
      omega
    rw [if_pos hhidden]
    refine .escape _ (fun rest => ?_) (fun _ => rfl)
    rw [List.cons_append, escape?, code?_upper hn, Char.ofNat_toNat]
  · rw [if_neg hhidden]
    refine .plain (isText_of_not_isHidden (Bool.eq_false_iff.2 hhidden) ?_) ?_ ?_ <;> assumption

theorem Stands.exists_cons {e : List Char} (h : Stands c e) :
    ∃ d ds, e = d :: ds ∧ d ≠ '"' ∧ d ≠ '\n' ∧ d ≠ '\r' := by
  cases h with
  | plain htext hquote hslash =>
    refine ⟨c, [], rfl, hquote, ?_, ?_⟩ <;> rintro rfl <;> exact absurd htext (by decide)
  | escape e => exact ⟨'\\', e, rfl, by decide, by decide, by decide⟩

/-! ## Strings of one line -/

theorem basic_of_escape (h : escape? cs = some (c, rest)) :
    basic ('\\' :: cs) = after [c] (basic rest) := by
  rw [basic]
  split
  · rename_i h'
    rw [h] at h'
    obtain ⟨rfl, rfl⟩ := Prod.mk.inj (Option.some.inj h')
    rfl
  · simp_all

theorem basic_of_stands {e : List Char} (h : Stands c e) :
    basic (e ++ rest) = after [c] (basic rest) := by
  cases h with
  | plain htext hquote hslash =>
    rw [List.singleton_append, basic]
    · rw [if_pos htext]
    · exact hquote
    · exact hslash
  | escape e hread => exact basic_of_escape (hread rest)

theorem basic_escaped (cs rest : List Char) :
    basic (cs.flatMap escaped ++ '"' :: rest) = some (cs, rest) := by
  induction cs with
  | nil => rw [List.flatMap_nil, List.nil_append, basic]
  | cons c cs ih =>
    rw [List.flatMap_cons, List.append_assoc, basic_of_stands (stands_escaped c), ih]
    rfl

theorem literal_of_isText (htext : isText c = true) (hquote : c ≠ '\'') :
    literal (c :: cs) = after [c] (literal cs) := by
  rw [literal, if_pos htext]
  exact hquote

theorem literal_self (htext : ∀ c ∈ cs, isText c = true) (hquote : '\'' ∉ cs) :
    literal (cs ++ '\'' :: rest) = some (cs, rest) := by
  induction cs with
  | nil => rfl
  | cons c cs ih =>
    obtain ⟨hc, hcs⟩ := List.forall_mem_cons.1 htext
    rw [List.cons_append, literal_of_isText hc (List.ne_of_not_mem_cons hquote).symm,
      ih hcs (List.not_mem_of_not_mem_cons hquote)]
    rfl

/-! ## Strings of several lines -/

theorem after_after (s t : List Char) (read : Option (List Char × List Char)) :
    after s (after t read) = after (s ++ t) read := by
  simp [after, Function.comp_def]

theorem basicBlock_of_isText (htext : isText c = true) (hquote : c ≠ '"') (hslash : c ≠ '\\') :
    basicBlock (c :: cs) = after [c] (basicBlock cs) := by
  have hnewline : c ≠ '\n' := by
    rintro rfl
    exact absurd htext (by decide)
  have hreturn : c ≠ '\r' := by
    rintro rfl
    exact absurd htext (by decide)
  rw [basicBlock]
  · rw [if_pos htext]
  all_goals simp_all

theorem basicBlock_of_escape (hline : nextLine? cs = none) (h : escape? cs = some (c, rest)) :
    basicBlock ('\\' :: cs) = after [c] (basicBlock rest) := by
  rw [basicBlock]
  split
  · simp_all
  · split
    · rename_i h'
      rw [h] at h'
      obtain ⟨rfl, rfl⟩ := Prod.mk.inj (Option.some.inj h')
      rfl
    · simp_all

theorem basicBlock_of_stands {e : List Char} (h : Stands c e) :
    basicBlock (e ++ rest) = after [c] (basicBlock rest) := by
  cases h with
  | plain htext hquote hslash => exact basicBlock_of_isText htext hquote hslash
  | escape e hread hline => exact basicBlock_of_escape (hline rest) (hread rest)

theorem basicBlock_newline : basicBlock ('\n' :: cs) = after ['\n'] (basicBlock cs) := by
  rw [basicBlock]

theorem basicBlock_run {run : Nat} (hrun : run ≤ 2) (hc : c ≠ '"') :
    basicBlock (List.replicate run '"' ++ c :: cs) =
      after (List.replicate run '"') (basicBlock (c :: cs)) := by
  have hone : basicBlock ('"' :: c :: cs) = after ['"'] (basicBlock (c :: cs)) := by
    rw [basicBlock]
    · rfl
    all_goals simp_all
  have hcases : run = 0 ∨ run = 1 ∨ run = 2 := by omega
  rcases hcases with rfl | rfl | rfl
  · simp [after]
  · exact hone
  · have htwo : basicBlock ('"' :: '"' :: c :: cs) = after ['"'] (basicBlock ('"' :: c :: cs)) := by
      rw [basicBlock]
      · rfl
      all_goals simp_all
    show basicBlock ('"' :: '"' :: c :: cs) = _
    rw [htwo, hone, after_after]
    rfl

theorem basicBlock_end {run : Nat} (hrun : run ≤ 2) (hrest : rest.head? ≠ some '"') :
    basicBlock (List.replicate run '"' ++ '"' :: '"' :: '"' :: rest) =
      some (List.replicate run '"', rest) := by
  have hcases : run = 0 ∨ run = 1 ∨ run = 2 := by omega
  rcases hcases with rfl | rfl | rfl
  · show basicBlock ('"' :: '"' :: '"' :: rest) = _
    rw [basicBlock]
    · rfl
    all_goals
      rintro _ rfl
      exact hrest rfl
  · show basicBlock ('"' :: '"' :: '"' :: '"' :: rest) = _
    rw [basicBlock]
    · rfl
    · rintro _ rfl
      exact hrest rfl
  · show basicBlock ('"' :: '"' :: '"' :: '"' :: '"' :: rest) = _
    rw [basicBlock]
    rfl

/-- A run of marks that the text has so far is held back until what follows it is known. -/
theorem basicBlock_escaped {run : Nat} (hrun : run ≤ 2) (hrest : rest.head? ≠ some '"')
    (cs : List Char) :
    basicBlock (List.replicate run '"' ++ (escapedBlock run cs ++ '"' :: '"' :: '"' :: rest)) =
      some (List.replicate run '"' ++ cs, rest) := by
  induction cs generalizing run with
  | nil =>
    rw [escapedBlock, List.nil_append, List.append_nil]
    exact basicBlock_end hrun hrest
  | cons c cs ih =>
    have hzero := ih (Nat.zero_le 2)
    rw [List.replicate_zero, List.nil_append, List.nil_append] at hzero
    rw [escapedBlock]
    by_cases hquote : c = '"'
    · subst hquote
      rw [if_pos rfl]
      by_cases hfull : run = 2
      · subst hfull
        rw [if_pos rfl, List.cons_append, List.cons_append, basicBlock_run le_rfl (by decide),
          basicBlock_of_escape rfl rfl, hzero]
        rfl
      · have hnext := ih (show run + 1 ≤ 2 by omega)
        rw [List.replicate_succ', List.append_assoc, List.append_assoc] at hnext
        rw [if_neg hfull]
        exact hnext
    · rw [if_neg hquote]
      by_cases hnewline : c = '\n'
      · subst hnewline
        rw [if_pos rfl, List.cons_append, basicBlock_run hrun (by decide), basicBlock_newline,
          hzero]
        rfl
      · have hstands := stands_escaped c
        obtain ⟨d, ds, hcons, hd, -⟩ := hstands.exists_cons
        have hread : basicBlock (escaped c ++ (escapedBlock 0 cs ++ '"' :: '"' :: '"' :: rest)) =
            some (c :: cs, rest) := by
          rw [basicBlock_of_stands hstands, hzero]
          rfl
        rw [if_neg hnewline, List.append_assoc]
        rw [hcons, List.cons_append] at hread ⊢
        rw [basicBlock_run hrun hd, hread]
        rfl

theorem literalBlock_of_isText (htext : isText c = true) (hquote : c ≠ '\'') :
    literalBlock (c :: cs) = after [c] (literalBlock cs) := by
  have hnewline : c ≠ '\n' := by
    rintro rfl
    exact absurd htext (by decide)
  have hreturn : c ≠ '\r' := by
    rintro rfl
    exact absurd htext (by decide)
  rw [literalBlock]
  · rw [if_pos htext]
  all_goals simp_all

theorem literalBlock_newline : literalBlock ('\n' :: cs) = after ['\n'] (literalBlock cs) := by
  rw [literalBlock]

theorem literalBlock_run {run : Nat} (hrun : run ≤ 2) (hc : c ≠ '\'') :
    literalBlock (List.replicate run '\'' ++ c :: cs) =
      after (List.replicate run '\'') (literalBlock (c :: cs)) := by
  have hone : literalBlock ('\'' :: c :: cs) = after ['\''] (literalBlock (c :: cs)) := by
    rw [literalBlock]
    · rfl
    all_goals simp_all
  have hcases : run = 0 ∨ run = 1 ∨ run = 2 := by omega
  rcases hcases with rfl | rfl | rfl
  · simp [after]
  · exact hone
  · have htwo : literalBlock ('\'' :: '\'' :: c :: cs) =
        after ['\''] (literalBlock ('\'' :: c :: cs)) := by
      rw [literalBlock]
      · rfl
      all_goals simp_all
    show literalBlock ('\'' :: '\'' :: c :: cs) = _
    rw [htwo, hone, after_after]
    rfl

theorem literalBlock_end {run : Nat} (hrun : run ≤ 2) (hrest : rest.head? ≠ some '\'') :
    literalBlock (List.replicate run '\'' ++ '\'' :: '\'' :: '\'' :: rest) =
      some (List.replicate run '\'', rest) := by
  have hcases : run = 0 ∨ run = 1 ∨ run = 2 := by omega
  rcases hcases with rfl | rfl | rfl
  · show literalBlock ('\'' :: '\'' :: '\'' :: rest) = _
    rw [literalBlock]
    · rfl
    all_goals
      rintro _ rfl
      exact hrest rfl
  · show literalBlock ('\'' :: '\'' :: '\'' :: '\'' :: rest) = _
    rw [literalBlock]
    · rfl
    · rintro _ rfl
      exact hrest rfl
  · rfl

theorem tripled_append (before : List Char) (h : tripled c (before ++ cs) = false) :
    tripled c cs = false := by
  induction before with
  | nil => exact h
  | cons d before ih =>
    apply ih
    rw [List.cons_append] at h
    cases hcs : before ++ cs with
    | nil => rfl
    | cons x later =>
      cases later with
      | nil => rfl
      | cons y later =>
        rw [hcs, tripled, Bool.or_eq_false_iff] at h
        exact h.2

theorem literalBlock_self {run : Nat} (hrun : run ≤ 2) (hrest : rest.head? ≠ some '\'')
    (htext : ∀ c ∈ cs, c = '\n' ∨ isText c = true)
    (htripled : tripled '\'' (List.replicate run '\'' ++ cs) = false) :
    literalBlock (List.replicate run '\'' ++ (cs ++ '\'' :: '\'' :: '\'' :: rest)) =
      some (List.replicate run '\'' ++ cs, rest) := by
  induction cs generalizing run with
  | nil =>
    rw [List.nil_append, List.append_nil]
    exact literalBlock_end hrun hrest
  | cons c cs ih =>
    obtain ⟨hc, hcs⟩ := List.forall_mem_cons.1 htext
    by_cases hquote : c = '\''
    · subst hquote
      have hnot : run ≠ 2 := by
        rintro rfl
        simp [List.replicate, tripled] at htripled
      have hrun' : List.replicate run '\'' ++ '\'' :: cs =
          List.replicate (run + 1) '\'' ++ cs := by
        rw [List.replicate_succ', List.append_assoc, List.singleton_append]
      have hnext := ih (show run + 1 ≤ 2 by omega) hcs (hrun' ▸ htripled)
      rw [← hrun'] at hnext
      rw [← hnext, List.replicate_succ', List.append_assoc]
      rfl
    · have hrest' : tripled '\'' cs = false := tripled_append [c] (tripled_append _ htripled)
      have hzero := ih (Nat.zero_le 2) hcs hrest'
      rw [List.replicate_zero, List.nil_append, List.nil_append] at hzero
      rw [List.cons_append, literalBlock_run hrun hquote]
      rcases hc with rfl | hc
      · rw [literalBlock_newline, hzero]
        rfl
      · rw [literalBlock_of_isText hc hquote, hzero]
        rfl

/-! ## Strings of any kind -/

theorem isText_of_any_isHidden (h : cs.any isHidden = false) :
    ∀ c ∈ cs, c = '\n' ∨ isText c = true := by
  intro c hc
  have hhidden : isHidden c = false := by simpa using List.any_eq_false.1 h c hc
  by_cases hnewline : c = '\n'
  · exact .inl hnewline
  · exact .inr (isText_of_not_isHidden hhidden hnewline)

theorem of_style_literal (h : Style.ofText cs = .literal) :
    cs ≠ [] ∧ '\'' ∉ cs ∧ ∀ c ∈ cs, isText c = true := by
  simp only [Style.ofText] at h
  split_ifs at h with hhidden hlines hbasic hliteral
  obtain ⟨hquote, hnewline⟩ : '\'' ∉ cs ∧ '\n' ∉ cs := by simpa using hliteral
  refine ⟨?_, hquote, fun c hc => ?_⟩
  · rintro rfl
    exact hbasic rfl
  · have hone := isText_of_any_isHidden (Bool.eq_false_iff.2 hhidden) c hc
    exact hone.resolve_left (ne_of_mem_of_not_mem hc hnewline)

theorem of_style_literalBlock (h : Style.ofText cs = .literalBlock) :
    tripled '\'' cs = false ∧ ∀ c ∈ cs, c = '\n' ∨ isText c = true := by
  simp only [Style.ofText] at h
  split_ifs at h with hhidden hlines hbasic hliteral hslash htripled
  exact ⟨by simpa using htripled, isText_of_any_isHidden (Bool.eq_false_iff.2 hhidden)⟩

theorem dropNewline_of_ne (hnewline : c ≠ '\n') (hreturn : c ≠ '\r') :
    dropNewline (c :: cs) = c :: cs := by
  have hnone : afterNewline? (c :: cs) = none := by
    unfold afterNewline?
    split <;> simp_all
  rw [dropNewline, hnone]
  rfl

theorem dropNewline_opening {block : List Char}
    (hblock : '\n' ∉ cs → ∃ d ds, block = d :: ds ∧ d ≠ '\n' ∧ d ≠ '\r') :
    dropNewline (opening cs ++ block) = block := by
  rw [opening]
  by_cases hlines : cs.contains '\n' = true
  · rw [if_pos hlines]
    rfl
  · obtain ⟨d, ds, rfl, hnewline, hreturn⟩ := hblock (by simpa using hlines)
    rw [if_neg hlines, List.nil_append]
    exact dropNewline_of_ne hnewline hreturn

theorem exists_cons_escapedBlock (hlines : '\n' ∉ cs) :
    ∃ d ds, escapedBlock 0 cs ++ '"' :: rest = d :: ds ∧ d ≠ '\n' ∧ d ≠ '\r' := by
  cases cs with
  | nil => exact ⟨'"', rest, rfl, by decide, by decide⟩
  | cons c cs =>
    rw [escapedBlock]
    by_cases hquote : c = '"'
    · rw [if_pos hquote, if_neg (by decide)]
      exact ⟨'"', _, rfl, by decide, by decide⟩
    · obtain ⟨d, ds, hcons, -, hnewline, hreturn⟩ := (stands_escaped c).exists_cons
      rw [if_neg hquote, if_neg (List.ne_of_not_mem_cons hlines).symm, hcons]
      exact ⟨d, _, rfl, hnewline, hreturn⟩

theorem exists_cons_literalBlock (hlines : '\n' ∉ cs)
    (htext : ∀ c ∈ cs, c = '\n' ∨ isText c = true) :
    ∃ d ds, cs ++ '\'' :: rest = d :: ds ∧ d ≠ '\n' ∧ d ≠ '\r' := by
  cases cs with
  | nil => exact ⟨'\'', rest, rfl, by decide, by decide⟩
  | cons c cs =>
    have hnewline : c ≠ '\n' := (List.ne_of_not_mem_cons hlines).symm
    have hc : isText c = true := (htext c List.mem_cons_self).resolve_left hnewline
    refine ⟨c, _, rfl, hnewline, ?_⟩
    rintro rfl
    exact absurd hc (by decide)

theorem string?_basic (cs rest : List Char) :
    string? ('"' :: (cs.flatMap escaped ++ '"' :: '\n' :: rest)) = some (cs, '\n' :: rest) := by
  have hread := basic_escaped cs ('\n' :: rest)
  cases cs with
  | nil => exact hread
  | cons c cs =>
    obtain ⟨d, ds, hcons, hquote, -⟩ := (stands_escaped c).exists_cons
    rw [List.flatMap_cons, hcons, List.cons_append, List.cons_append] at hread ⊢
    rw [string?, hread]
    simp_all

theorem string?_literal (hne : cs ≠ []) (hquote : '\'' ∉ cs) (htext : ∀ c ∈ cs, isText c = true) :
    string? ('\'' :: (cs ++ '\'' :: rest)) = some (cs, rest) := by
  have hread : literal (cs ++ '\'' :: rest) = some (cs, rest) := literal_self htext hquote
  obtain ⟨c, cs, rfl⟩ := List.exists_cons_of_ne_nil hne
  have hc : c ≠ '\'' := (List.ne_of_not_mem_cons hquote).symm
  rw [List.cons_append] at hread ⊢
  rw [string?, hread]
  simp_all

theorem string?_basicBlock (cs rest : List Char) (hrest : rest.head? ≠ some '"') :
    string? ('"' :: '"' :: '"' ::
        (opening cs ++ (escapedBlock 0 cs ++ '"' :: '"' :: '"' :: rest))) =
      some (cs, rest) := by
  rw [string?, dropNewline_opening exists_cons_escapedBlock]
  exact basicBlock_escaped (Nat.zero_le 2) hrest cs

theorem string?_literalBlock (htripled : tripled '\'' cs = false)
    (htext : ∀ c ∈ cs, c = '\n' ∨ isText c = true) (rest : List Char)
    (hrest : rest.head? ≠ some '\'') :
    string? ('\'' :: '\'' :: '\'' :: (opening cs ++ (cs ++ '\'' :: '\'' :: '\'' :: rest))) =
      some (cs, rest) := by
  rw [string?, dropNewline_opening fun hlines => exists_cons_literalBlock hlines htext]
  exact literalBlock_self (Nat.zero_le 2) hrest htext htripled

/-- A text is read as it was, whichever way it is written. -/
theorem string?_textChars (cs rest : List Char) :
    string? (textChars cs ++ '\n' :: rest) = some (cs, '\n' :: rest) := by
  rw [textChars]
  cases hstyle : Style.ofText cs with
  | basic => simpa using string?_basic cs rest
  | literal =>
    obtain ⟨hne, hquote, htext⟩ := of_style_literal hstyle
    simpa using string?_literal hne hquote htext
  | basicBlock => simpa using string?_basicBlock cs ('\n' :: rest) (by simp)
  | literalBlock =>
    obtain ⟨htripled, htext⟩ := of_style_literalBlock hstyle
    simpa using string?_literalBlock htripled htext ('\n' :: rest) (by simp)

end MessageBoard.Toml
