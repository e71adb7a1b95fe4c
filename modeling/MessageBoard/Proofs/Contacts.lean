import MessageBoard.Proofs.Validity
import MessageBoard.Text.Split

/-!
# User names and email addresses

A user name is one to 64 listed characters. An address has one `@` and no blanks, something before
the `@`, and behind it at least two pieces parted by dots, none of which is empty. `emailPattern`
asks for the same: its repetitions overlap nowhere, since the parts of a host have no dots, so a
host that matches is made of its pieces.

What is found wrong with a text is said beside it: `TextFault` for any text field, `UsernameFault`
and `EmailFault` for the two that have a form.
-/

namespace MessageBoard

namespace Text

variable {c d : Char} {cs : List Char}

theorem mem_iff_mem_pieces (h : d ≠ c) : d ∈ cs ↔ ∃ part ∈ pieces c cs, d ∈ part := by
  induction cs with
  | nil => simp [pieces]
  | cons x cs ih =>
    rw [List.mem_cons, ih, pieces]
    by_cases hx : x = c
    · rw [if_pos hx, List.exists_mem_cons_iff]
      have hd : d ≠ x := hx ▸ h
      simp [hd]
    · rw [if_neg hx]
      cases hpieces : pieces c cs with
      | nil => exact absurd hpieces (pieces_ne_nil c cs)
      | cons part parts =>
        rw [List.exists_mem_cons_iff, List.exists_mem_cons_iff, List.mem_cons, or_assoc]

theorem intercalate_cons (part : List Char) (parts : List (List Char)) :
    [c].intercalate (part :: parts) = part ++ parts.flatMap (c :: ·) := by
  induction parts generalizing part with
  | nil => simp
  | cons next parts ih =>
    rw [List.intercalate_cons_cons, ih, List.flatMap_cons, List.append_assoc]
    rfl

namespace Pattern

variable {a : Pattern} {s : List Char} {p : Char → Bool}

theorem matches_char : (char c).Matches s ↔ s = [c] := by
  rw [char, matches_one]
  constructor
  · rintro ⟨d, hd, rfl⟩
    rw [eq_of_beq hd]
  · rintro rfl
    exact ⟨c, beq_self_eq_true c, rfl⟩

theorem matches_many_one : (many (one p)).Matches s ↔ ∀ c ∈ s, p c = true := by
  induction s with
  | nil => exact iff_of_true .many_nil (List.forall_mem_nil _)
  | cons c s ih =>
    rw [matches_many_cons, List.forall_mem_cons]
    constructor
    · rintro ⟨u, v, rfl, hu, hv⟩
      obtain ⟨d, hd, hcu⟩ := matches_one.1 hu
      obtain ⟨rfl, rfl⟩ := List.cons.inj hcu
      exact ⟨hd, ih.1 hv⟩
    · rintro ⟨hc, hs⟩
      exact ⟨[], s, rfl, .one hc, ih.2 hs⟩

theorem matches_some_one : (Pattern.some (one p)).Matches s ↔ s ≠ [] ∧ ∀ c ∈ s, p c = true := by
  rw [Pattern.some, matches_seq]
  simp only [matches_one, matches_many_one]
  constructor
  · rintro ⟨u, v, rfl, ⟨c, hc, rfl⟩, hv⟩
    exact ⟨List.cons_ne_nil c v, List.forall_mem_cons.2 ⟨hc, hv⟩⟩
  · rintro ⟨hne, hall⟩
    cases s with
    | nil => exact absurd rfl hne
    | cons c s =>
      obtain ⟨hc, hs⟩ := List.forall_mem_cons.1 hall
      exact ⟨[c], s, rfl, ⟨c, hc, rfl⟩, hs⟩

theorem matches_many_behind : (many (seq (char c) a)).Matches s ↔
    ∃ parts : List (List Char), (∀ part ∈ parts, a.Matches part) ∧
      s = parts.flatMap (c :: ·) := by
  constructor
  · generalize hq : many (seq (char c) a) = q
    intro h
    induction h with
    | many_nil => exact ⟨[], List.forall_mem_nil _, rfl⟩
    | many_cons hu _ _ ih =>
      obtain rfl := Pattern.many.inj hq
      obtain ⟨parts, hparts, rfl⟩ := ih rfl
      obtain ⟨sep, part, rfl, hsep, hpart⟩ := matches_seq.1 hu
      obtain rfl := matches_char.1 hsep
      exact ⟨part :: parts, List.forall_mem_cons.2 ⟨hpart, hparts⟩, rfl⟩
    | _ => cases hq
  · rintro ⟨parts, hparts, rfl⟩
    induction parts with
    | nil => exact .many_nil
    | cons part parts ih =>
      obtain ⟨hpart, hparts⟩ := List.forall_mem_cons.1 hparts
      exact .many_cons (.seq (matches_char.2 rfl) hpart) (ih hparts)

theorem matches_parted : (seq a (Pattern.some (seq (char c) a))).Matches s ↔
    ∃ parts, 2 ≤ parts.length ∧ (∀ part ∈ parts, a.Matches part) ∧ s = [c].intercalate parts := by
  rw [Pattern.some, matches_seq]
  simp only [matches_seq, matches_char, matches_many_behind]
  constructor
  · rintro ⟨first, -, rfl, hfirst, -, -, rfl, ⟨-, second, rfl, rfl, hsecond⟩, parts, hparts, rfl⟩
    refine ⟨first :: second :: parts, by simp, ?_, ?_⟩
    · exact List.forall_mem_cons.2 ⟨hfirst, List.forall_mem_cons.2 ⟨hsecond, hparts⟩⟩
    · rw [intercalate_cons, List.flatMap_cons]
      rfl
  · rintro ⟨parts, hlength, hall, rfl⟩
    match parts, hlength, hall with
    | first :: second :: parts, _, hall =>
      obtain ⟨hfirst, hrest⟩ := List.forall_mem_cons.1 hall
      obtain ⟨hsecond, hparts⟩ := List.forall_mem_cons.1 hrest
      refine ⟨first, _, intercalate_cons first _, hfirst, c :: second, _, List.flatMap_cons, ?_⟩
      exact ⟨⟨[c], second, rfl, rfl, hsecond⟩, parts, hparts, rfl⟩

/-- Where no part can have the separator in it, the parts are the pieces of the text. -/
theorem matches_parted_iff_pieces (hc : p c = false) :
    (seq (Pattern.some (one p)) (Pattern.some (seq (char c) (Pattern.some (one p))))).Matches s ↔
      2 ≤ (pieces c s).length ∧ ∀ part ∈ pieces c s, part ≠ [] ∧ ∀ x ∈ part, p x = true := by
  rw [matches_parted]
  simp only [matches_some_one]
  constructor
  · rintro ⟨parts, hlength, hall, rfl⟩
    have hne : parts ≠ [] := by
      rintro rfl
      exact absurd hlength (by decide)
    have hapart : ∀ part ∈ parts, c ∉ part := fun part hpart hmem => by
      rw [(hall part hpart).2 c hmem] at hc
      cases hc
    rw [pieces_intercalate hne hapart]
    exact ⟨hlength, hall⟩
  · rintro ⟨hlength, hall⟩
    exact ⟨pieces c s, hlength, hall, (intercalate_pieces c s).symm⟩

end Pattern

end Text

open Text Text.Pattern

/-! ## The form of an address -/

/-- A name, the only `@`, and a host of at least two parts, all without blanks. -/
structure HasAddressForm (cs : List Char) : Prop where
  at_once : cs.count '@' = 1
  unbroken : ∀ c ∈ cs, isBlank c = false
  parted : ∃ name host, cs = name ++ '@' :: host ∧ name ≠ [] ∧
    2 ≤ (pieces '.' host).length ∧ ∀ part ∈ pieces '.' host, part ≠ []

theorem emailPattern_matches_iff {cs : List Char} : emailPattern.Matches cs ↔
    ∃ name host, cs = name ++ '@' :: host ∧ name ≠ [] ∧
      (∀ c ∈ name, c ≠ '@' ∧ isBlank c = false) ∧ 2 ≤ (pieces '.' host).length ∧
      ∀ part ∈ pieces '.' host, part ≠ [] ∧
        ∀ c ∈ part, (c ≠ '@' ∧ isBlank c = false) ∧ c ≠ '.' := by
  rw [emailPattern, matches_seq]
  simp only [matches_seq (a := char '@'), matches_char, matches_some_one]
  simp only [matches_parted_iff_pieces (c := '.') (p := fun c => c != '@' && !isBlank c && c != '.')
    rfl, Bool.and_eq_true, bne_iff_ne, Bool.not_eq_true']
  constructor
  · rintro ⟨name, -, rfl, ⟨hne, hname⟩, -, host, rfl, rfl, hlength, hparts⟩
    exact ⟨name, host, rfl, hne, hname, hlength, hparts⟩
  · rintro ⟨name, host, rfl, hne, hname, hlength, hparts⟩
    exact ⟨name, '@' :: host, rfl, ⟨hne, hname⟩, ['@'], host, rfl, rfl, hlength, hparts⟩

/-- The pattern and the form of an address agree. -/
theorem emailPattern_matches_iff_hasAddressForm {cs : List Char} :
    emailPattern.Matches cs ↔ HasAddressForm cs := by
  rw [emailPattern_matches_iff]
  constructor
  · rintro ⟨name, host, rfl, hne, hname, hlength, hparts⟩
    have hhost : ∀ c ∈ host, c ≠ '@' ∧ isBlank c = false := fun c hc => by
      by_cases hdot : c = '.'
      · rw [hdot]
        decide
      · obtain ⟨part, hpart, hmem⟩ := (mem_iff_mem_pieces hdot).1 hc
        exact ((hparts part hpart).2 c hmem).1
    refine ⟨?_, ?_, name, host, rfl, hne, hlength, fun part hpart => (hparts part hpart).1⟩
    · have hname0 : name.count '@' = 0 := List.count_eq_zero.2 fun h => (hname _ h).1 rfl
      have hhost0 : host.count '@' = 0 := List.count_eq_zero.2 fun h => (hhost _ h).1 rfl
      rw [List.count_append, List.count_cons_self, hname0, hhost0]
    · intro c hc
      rcases List.mem_append.1 hc with hc | hc
      · exact (hname c hc).2
      · rcases List.mem_cons.1 hc with rfl | hc
        · decide
        · exact (hhost c hc).2
  · rintro ⟨honce, hunbroken, name, host, rfl, hne, hlength, hparts⟩
    rw [List.count_append, List.count_cons_self] at honce
    have hname : '@' ∉ name := List.count_eq_zero.1 (by omega)
    have hhost : '@' ∉ host := List.count_eq_zero.1 (by omega)
    refine ⟨name, host, rfl, hne, fun c hc => ?_, hlength,
      fun part hpart => ⟨hparts part hpart, ?_⟩⟩
    · exact ⟨ne_of_mem_of_not_mem hc hname, hunbroken c (List.mem_append_left _ hc)⟩
    · intro c hc
      have hdot : c ≠ '.' := ne_of_mem_of_not_mem hc (notMem_of_mem_pieces hpart)
      have hmem : c ∈ host := (mem_iff_mem_pieces hdot).2 ⟨part, hpart, hc⟩
      have hunbroken' := hunbroken c (List.mem_append_right _ (List.mem_cons_of_mem _ hmem))
      exact ⟨⟨ne_of_mem_of_not_mem hmem hhost, hunbroken'⟩, hdot⟩

theorem isEmail_iff {s : String} : IsEmail s ↔ s.length ≤ 256 ∧ HasAddressForm s.toList := by
  rw [IsEmail, IsShort, emailPattern_matches_iff_hasAddressForm, and_assoc]
  refine and_iff_right_of_imp fun h => ?_
  have hat : '@' ∈ s.toList := List.count_pos_iff.1 (by rw [h.2.at_once]; decide)
  rw [allBlank, List.all_eq_false]
  exact ⟨'@', hat, by decide⟩

theorem isUsernameChar_iff_isListed {c : Char} : isUsernameChar c = true ↔ IsListed c := by
  refine ⟨isListed_of_isUsernameChar, fun h => ?_⟩
  simp only [isUsernameChar, Char.isAlphanum, Char.isAlpha, Char.isUpper, Char.isLower,
    Char.isDigit, Bool.or_eq_true, Bool.and_eq_true, decide_eq_true_eq, beq_iff_eq]
  rcases h with h | h | h | h | h | h
  · exact .inl (.inl (.inl (.inl (.inr h))))
  · exact .inl (.inl (.inl (.inl (.inl h))))
  · exact .inl (.inl (.inl (.inr h)))
  · exact .inl (.inl (.inr h))
  · exact .inl (.inr h)
  · exact .inr h

theorem isUsername_iff {s : String} :
    IsUsername s ↔ 1 ≤ s.length ∧ s.length ≤ 64 ∧ ∀ c ∈ s.toList, IsListed c := by
  have hne : s ≠ "" ↔ 1 ≤ s.length := by
    rw [Nat.one_le_iff_ne_zero, ne_eq, ne_eq, String.length_eq_zero_iff]
  rw [IsUsername, hne]
  simp only [isUsernameChar_iff_isListed]

/-! ## What is found wrong -/

/-- What is wrong with the text of a field that must not be blank or longer than `max`. -/
inductive TextFault (field : String) (max : Nat) (s : String) : ValidationError → Prop
  | blank (h : ∀ c ∈ s.toList, isBlank c = true) : TextFault field max s (.empty field)
  | long (unblank : ∃ c ∈ s.toList, isBlank c = false) (h : max < s.length) :
    TextFault field max s (.tooLong field max)

inductive UsernameFault (s : String) : ValidationError → Prop
  | empty (h : s = "") : UsernameFault s (.empty "username")
  | form (nonempty : s ≠ "") (h : ¬ (s.length ≤ 64 ∧ ∀ c ∈ s.toList, IsListed c)) :
    UsernameFault s
      (.invalidFormat "username" "must be 1-64 letters, digits, '_', '.' or '-'")

inductive EmailFault (s : String) : ValidationError → Prop
  | text {e : ValidationError} (h : TextFault "email" 256 s e) : EmailFault s e
  | form (unblank : ∃ c ∈ s.toList, isBlank c = false) (short : s.length ≤ 256)
    (h : ¬ HasAddressForm s.toList) :
    EmailFault s (.invalidFormat "email" "must look like name@example.com")

section

variable {field s : String} {max : Nat} {e : ValidationError}

theorem allBlank_iff : allBlank s = true ↔ ∀ c ∈ s.toList, isBlank c = true := List.all_eq_true

theorem allBlank_eq_false_iff : allBlank s = false ↔ ∃ c ∈ s.toList, isBlank c = false := by
  simp only [allBlank, List.all_eq_false, Bool.not_eq_true]

theorem requireText_eq_error_iff :
    requireText field s max = .error e ↔ TextFault field max s e := by
  rw [requireText]
  by_cases hblank : allBlank s = true
  · rw [if_pos hblank]
    constructor
    · rintro ⟨⟩
      exact .blank (allBlank_iff.1 hblank)
    · rintro (h | ⟨h, -⟩)
      · rfl
      · rw [allBlank_eq_false_iff.2 h] at hblank
        cases hblank
  · rw [if_neg hblank]
    have hunblank := allBlank_eq_false_iff.1 (Bool.not_eq_true _ ▸ hblank)
    by_cases hlong : max < s.length
    · rw [if_pos hlong]
      constructor
      · rintro ⟨⟩
        exact .long hunblank hlong
      · rintro (h | -)
        · exact absurd (allBlank_iff.2 h) hblank
        · rfl
    · rw [if_neg hlong]
      refine iff_of_false (fun h => by cases h) ?_
      rintro (h | ⟨-, h⟩)
      · exact hblank (allBlank_iff.2 h)
      · exact hlong h

theorem checkUsername_eq_error_iff : checkUsername s = .error e ↔ UsernameFault s e := by
  rw [checkUsername]
  by_cases hempty : s = ""
  · rw [if_pos hempty]
    constructor
    · rintro ⟨⟩
      exact .empty hempty
    · rintro (h | ⟨h, -⟩)
      · rfl
      · exact absurd hempty h
  · rw [if_neg hempty]
    have haccepts : usernamePattern.accepts s.toList = true ↔
        s.length ≤ 64 ∧ ∀ c ∈ s.toList, IsListed c := by
      rw [usernamePattern_accepts_iff]
      simp only [isUsernameChar_iff_isListed]
      exact and_iff_right (mt String.toList_eq_nil_iff.1 hempty)
    by_cases h : usernamePattern.accepts s.toList = true
    · rw [if_pos h]
      refine iff_of_false (fun h => by cases h) ?_
      rintro (h' | ⟨-, h'⟩)
      · exact hempty h'
      · exact h' (haccepts.1 h)
    · rw [if_neg h]
      constructor
      · rintro ⟨⟩
        exact .form hempty (mt haccepts.2 h)
      · rintro (h' | -)
        · exact absurd h' hempty
        · rfl

theorem checkEmail_eq_error_iff : checkEmail s = .error e ↔ EmailFault s e := by
  rw [checkEmail]
  cases htext : requireText "email" s 256 with
  | error e' =>
    have hfault := requireText_eq_error_iff.1 htext
    constructor
    · rintro ⟨⟩
      exact .text hfault
    · rintro (h | ⟨hunblank, hshort, -⟩)
      · rw [← htext, requireText_eq_error_iff.2 h]
        rfl
      · rw [requireText_eq_ok_iff.2 ⟨allBlank_eq_false_iff.2 hunblank, hshort⟩] at htext
        cases htext
  | ok _ =>
    obtain ⟨hunblank, hshort⟩ := requireText_eq_ok_iff.1 htext
    have haccepts : emailPattern.accepts s.toList = true ↔ HasAddressForm s.toList :=
      accepts_iff_matches.trans emailPattern_matches_iff_hasAddressForm
    have hnot : ¬ TextFault "email" 256 s e := fun h => by
      rw [requireText_eq_error_iff.2 h] at htext
      cases htext
    by_cases h : emailPattern.accepts s.toList = true
    · refine iff_of_false (by simp [h, bind, Except.bind]) ?_
      rintro (h' | ⟨-, -, h'⟩)
      · exact hnot h'
      · exact h' (haccepts.1 h)
    · constructor
      · intro herror
        simp only [h, bind, Except.bind] at herror
        obtain rfl := Except.error.inj herror
        exact .form (allBlank_eq_false_iff.1 hunblank) hshort (mt haccepts.2 h)
      · rintro (h' | -)
        · exact absurd h' hnot
        · simp [h, bind, Except.bind]

end

/-- An address is accepted exactly if it is of the form of an address and at most 256 characters
long, a user name exactly if it is one to 64 listed characters, and of any other text what is found
wrong is told apart by whether it is blank or empty, too long, or neither. -/
theorem contacts_judged (s : String) :
    (checkEmail s = .ok () ↔ s.length ≤ 256 ∧ HasAddressForm s.toList) ∧
    (checkUsername s = .ok () ↔
      1 ≤ s.length ∧ s.length ≤ 64 ∧ ∀ c ∈ s.toList, IsListed c) ∧
    (∀ e, checkEmail s = .error e ↔ EmailFault s e) ∧
    (∀ e, checkUsername s = .error e ↔ UsernameFault s e) :=
  ⟨checkEmail_eq_ok_iff.trans isEmail_iff, checkUsername_eq_ok_iff.trans isUsername_iff,
    fun _ => checkEmail_eq_error_iff, fun _ => checkUsername_eq_error_iff⟩

end MessageBoard
