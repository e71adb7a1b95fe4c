import Mathlib
import MessageBoard.Json.Basic
import MessageBoard.Json.Token
import MessageBoard.Proofs.Numerals

/-!
# The tokens of a written value

`Json.words` says in which tokens a value is written. A text that starts with a written value is
read as its words, whatever was found before and whatever follows, as long as what follows cannot
extend a number. Numbers have to be within the range of 64 bits, with or without a sign: a longer
one might be too large to be read at all.
-/

namespace MessageBoard.Json

open Text

variable {cs rest : List (Option Char)} {ts : List Token}

/-! ## The words of a value -/

mutual

def words : Json → List Token
  | null => [.null]
  | flag b => [.flag b]
  | int n => [.number (.int n)]
  | text s => [.text (some s)]
  | array items => .openArray :: itemWords items
  | object entries => .openObject :: entryWords entries

def itemWords : List Json → List Token
  | [] => [.closeArray]
  | [j] => j.words ++ [.closeArray]
  | j :: items => j.words ++ .comma :: itemWords items

def entryWords : List (String × Json) → List Token
  | [] => [.closeObject]
  | [(key, j)] => .text (some key) :: .colon :: j.words ++ [.closeObject]
  | (key, j) :: entries => .text (some key) :: .colon :: j.words ++ .comma :: entryWords entries

end

/-- All numbers of the value are within the range of 64 bits. -/
inductive Modest : Json → Prop where
  | null : Modest null
  | flag (b : Bool) : Modest (flag b)
  | int (n : Int) (h : n.natAbs < 2 ^ 64) : Modest (int n)
  | text (s : String) : Modest (text s)
  | array (items : List Json) (h : ∀ j ∈ items, Modest j) : Modest (array items)
  | object (entries : List (String × Json)) (h : ∀ e ∈ entries, Modest e.2) :
    Modest (object entries)

/-! ## Strings -/

theorem string?_of_char {c : Option Char} {sofar : Option (List Char)}
    (h : piece cs = .char c rest) :
    string? sofar cs = string? (do return (← c) :: (← sofar)) rest := by
  rw [string?]
  split
  · simp_all
  · rename_i h'
    rw [h] at h'
    obtain ⟨rfl, rfl⟩ := Piece.char.inj h'
    rfl
  · simp_all

theorem string?_of_finish {sofar : Option (List Char)} (h : piece cs = .finish rest) :
    string? sofar cs = some (sofar.map fun s => .ofList s.reverse, rest) := by
  rw [string?]
  split
  · rename_i h'
    rw [h] at h'
    rw [Piece.finish.inj h']
  · simp_all
  · simp_all

theorem piece_code {n : Nat} (hn : n < 0x20) :
    piece (('\\' :: 'u' :: fixed 16 4 n).map some ++ rest) = .char (some (Char.ofNat n)) rest := by
  have hread : ofDigits? 16 (fixed 16 4 n) = some n :=
    ofDigits?_fixed (by decide) (by decide) (Nat.lt_trans hn (by decide))
  have hcode : code? ((fixed 16 4 n).map some ++ rest) = some (n, rest) := by
    have hfour : fixed 16 4 n = [(n / 16 / 16 / 16 % 16).digitChar, (n / 16 / 16 % 16).digitChar,
      (n / 16 % 16).digitChar, (n % 16).digitChar] := rfl
    rw [hfour] at hread ⊢
    simp only [List.map_cons, List.map_nil, List.cons_append, List.nil_append, code?, hread,
      Option.map_some]
  have hplain : ¬ (0xD800 ≤ n ∧ n < 0xE000) := by omega
  simp only [List.map_cons, List.cons_append, piece, unitEscape, hcode, if_neg hplain]

theorem piece_escape (c : Char) : piece ((escape c).map some ++ rest) = .char (some c) rest := by
  unfold escape
  split
  any_goals rfl
  · by_cases hc : c.toNat < 0x20
    · rw [if_pos hc, piece_code hc, Char.ofNat_toNat]
    · rw [if_neg hc]
      simp_all [piece]

theorem string?_escaped (s sofar : List Char) :
    string? (some sofar) ((s.flatMap escape).map some ++ some '"' :: rest) =
      some (some (.ofList (sofar.reverse ++ s)), rest) := by
  induction s generalizing sofar with
  | nil =>
    have hfinish : piece (some '"' :: rest) = .finish rest := rfl
    rw [List.append_nil]
    exact string?_of_finish hfinish
  | cons c s ih =>
    rw [List.flatMap_cons, List.map_append, List.append_assoc, string?_of_char (piece_escape c)]
    have hnext := ih (c :: sofar)
    rw [List.reverse_cons, List.append_assoc] at hnext
    exact hnext

theorem next_quote (s : String) :
    next (some '"') (((s.toList.flatMap escape) ++ ['"']).map some ++ rest) =
      (.text (some s), rest) := by
  have hstring : string? (some []) ((s.toList.flatMap escape).map some ++ some '"' :: rest) =
      some (some s, rest) := by
    rw [string?_escaped, List.reverse_nil, List.nil_append, String.ofList_toList]
  rw [List.map_append, List.append_assoc, next]
  simp [hstring]

/-! ## Numbers -/

/-- What follows cannot be taken for a part of a number: it is the end of an item, or of all. -/
def Delimited : List (Option Char) → Prop
  | [] => True
  | c :: _ => c = some ',' ∨ c = some ']' ∨ c = some '\x7d'

theorem Delimited.comma : Delimited (some ',' :: rest) := .inl rfl

theorem Delimited.closeArray : Delimited (some ']' :: rest) := .inr (.inl rfl)

theorem Delimited.closeObject : Delimited (some '\x7d' :: rest) := .inr (.inr rfl)

theorem Delimited.takeWhile_isDigitAt (h : Delimited rest) : rest.takeWhile isDigitAt = [] := by
  cases rest with
  | nil => rfl
  | cons c rest => rcases h with rfl | rfl | rfl <;> rfl

theorem Delimited.fraction?_eq (h : Delimited rest) : fraction? rest = some ([], rest) := by
  cases rest with
  | nil => rfl
  | cons c rest => rcases h with rfl | rfl | rfl <;> rfl

theorem Delimited.exponent?_eq (h : Delimited rest) : exponent? rest = some (none, rest) := by
  cases rest with
  | nil => rfl
  | cons c rest => rcases h with rfl | rfl | rfl <;> rfl

theorem unsigned?_decimal {n : Nat} (hn : n < 2 ^ 64) (h : Delimited rest) (negative : Bool) :
    unsigned? ((decimal n).map some ++ rest) negative =
      some (if negative then if n = 0 then .real else .int (-n) else .int n, rest) := by
  have hdigits : ∀ c ∈ (decimal n).map some, isDigitAt c = true := by
    intro c hc
    obtain ⟨d, hd, rfl⟩ := List.mem_map.1 hc
    exact isDigit_of_mem_decimal hd
  have hwhole : digits ((decimal n).map some ++ rest) = decimal n := by
    rw [digits, takeWhile_run hdigits h.takeWhile_isDigitAt, List.filterMap_map]
    exact List.filterMap_some
  have hafter : afterDigits ((decimal n).map some ++ rest) = rest :=
    dropWhile_run hdigits h.takeWhile_isDigitAt
  have hlead : ¬ (decimal n = [] ∨ (decimal n).head? = some '0' ∧ 1 < (decimal n).length) := by
    rintro (hnil | ⟨hzero, hlong⟩)
    · exact decimal_ne_nil n hnil
    · by_cases h0 : n = 0
      · rw [h0] at hlong
        exact absurd hlong (by decide)
      · exact head?_decimal h0 hzero
  have hshort : (decimal n).length ≤ 20 :=
    (Nat.length_toDigits_le_iff (by decide) (by decide)).2 (Nat.lt_trans hn (by decide))
  have hmodest : exceeds (decimal n) 0 = false := exceeds_eq_false (by omega)
  simp only [unsigned?, hwhole, hafter, if_neg hlead, h.fraction?_eq, h.exponent?_eq, bind,
    Option.bind, List.append_nil, List.length_nil, Option.getD_none, Int.natCast_zero,
    Int.sub_zero, hmodest, ofDigitChars_decimal]
  cases negative <;> simp

theorem number?_decimalInt {n : Int} (hn : n.natAbs < 2 ^ 64) (h : Delimited rest) :
    number? ((decimalInt n).map some ++ rest) = some (.int n, rest) := by
  cases n with
  | ofNat n =>
    obtain ⟨d, ds, hds⟩ := List.exists_cons_of_ne_nil (decimal_ne_nil n)
    have hd : d.isDigit = true := isDigit_of_mem_decimal (hds ▸ List.mem_cons_self)
    have hread := unsigned?_decimal (n := n) hn h false
    rw [hds, List.map_cons, List.cons_append] at hread
    rw [decimalInt, hds, List.map_cons, List.cons_append, number?]
    · exact hread
    · intro _ hcons
      rw [Option.some.inj (List.cons.inj hcons).1] at hd
      exact absurd hd (by decide)
  | negSucc n =>
    have hread := unsigned?_decimal (n := n + 1) hn h true
    rw [decimalInt, List.map_cons, List.cons_append, number?, hread]
    rfl

theorem next_of_number? {c : Char} {n : Number} (hc : c = '-' ∨ c.isDigit = true)
    (h : number? (some c :: cs) = some (n, rest)) : next (some c) cs = (.number n, rest) := by
  unfold next
  split
  any_goals
    rename_i hcons
    rw [Option.some.inj hcons] at hc
    exact absurd hc (by decide)
  rw [h]

/-! ## Texts -/

def Lexes (cs : List (Option Char)) (ts : List Token) : Prop :=
  ∀ found fuel, cs.length ≤ fuel → tokensFrom found fuel cs = found.reverse ++ ts

theorem Lexes.nil : Lexes [] [] := by
  intro found fuel _
  rw [List.append_nil]
  cases fuel <;> rfl

theorem Lexes.cons {c : Option Char} {token : Token} (hc : isSpace c = false)
    (hnext : next c cs = (token, rest)) (hlength : rest.length ≤ cs.length)
    (h : Lexes rest ts) : Lexes (c :: cs) (token :: ts) := by
  intro found fuel hfuel
  rw [List.length_cons] at hfuel
  obtain ⟨fuel, rfl⟩ : ∃ k, fuel = k + 1 := ⟨fuel - 1, by omega⟩
  have hrest := h (token :: found) fuel (by omega)
  rw [List.reverse_cons, List.append_assoc] at hrest
  rw [tokensFrom, List.dropWhile_cons_of_neg (by rw [hc]; decide)]
  simp only [hnext]
  exact hrest

theorem Lexes.tokens_eq (h : Lexes cs ts) : tokens cs = ts := by
  rw [tokens, h [] cs.length (Nat.le_refl _)]
  rfl

theorem Lexes.mark {c : Char} {token : Token} (hc : isSpace (some c) = false)
    (hnext : ∀ cs, next (some c) cs = (token, cs)) (h : Lexes rest ts) :
    Lexes (some c :: rest) (token :: ts) :=
  .cons hc (hnext rest) (Nat.le_refl _) h

theorem Lexes.quote (s : String) (h : Lexes rest ts) :
    Lexes ((quote s).map some ++ rest) (.text (some s) :: ts) := by
  rw [Json.quote, List.cons_append, List.map_cons, List.cons_append]
  refine .cons rfl (next_quote s) ?_ h
  rw [List.length_append]
  exact Nat.le_add_left _ _

theorem Lexes.number {n : Int} (hn : n.natAbs < 2 ^ 64) (hrest : Delimited rest)
    (h : Lexes rest ts) :
    Lexes ((decimalInt n).map some ++ rest) (.number (.int n) :: ts) := by
  have hread := number?_decimalInt hn hrest
  obtain ⟨c, cs, hcs, hc⟩ : ∃ c cs, decimalInt n = c :: cs ∧ (c = '-' ∨ c.isDigit = true) := by
    cases n with
    | ofNat n =>
      obtain ⟨d, ds, hds⟩ := List.exists_cons_of_ne_nil (decimal_ne_nil n)
      exact ⟨d, ds, hds, .inr (isDigit_of_mem_decimal (hds ▸ List.mem_cons_self))⟩
    | negSucc n => exact ⟨'-', _, rfl, .inl rfl⟩
  have hspace : isSpace (some c) = false := by
    rcases hc with rfl | hc
    · rfl
    · cases hs : isSpace (some c) with
      | false => rfl
      | true =>
        simp only [isSpace, Bool.or_eq_true, beq_iff_eq] at hs
        rcases hs with ((rfl | rfl) | rfl) | rfl <;> exact absurd hc (by decide)
  rw [hcs, List.map_cons, List.cons_append] at hread ⊢
  refine .cons hspace (next_of_number? hc hread) ?_ h
  rw [List.length_append]
  exact Nat.le_add_left _ _

/-- A text that starts with the value is read as its words, if what follows ends an item. -/
def ReadsAsWords (j : Json) : Prop :=
  ∀ {rest ts}, Delimited rest → Lexes rest ts → Lexes (j.write.map some ++ rest) (j.words ++ ts)

theorem lexes_items {items : List Json} (hitems : ∀ j ∈ items, j.ReadsAsWords)
    (h : Lexes rest ts) :
    Lexes ((writeItems items).map some ++ rest) (itemWords items ++ ts) := by
  have hend : Lexes (some ']' :: rest) (.closeArray :: ts) := .mark rfl (fun _ => rfl) h
  induction items with
  | nil => exact hend
  | cons j items ih =>
    obtain ⟨hj, hitems⟩ := List.forall_mem_cons.1 hitems
    cases items with
    | nil =>
      have hitem := hj .closeArray hend
      simpa [writeItems, itemWords] using hitem
    | cons next items =>
      have hcomma : Lexes (some ',' :: ((writeItems (next :: items)).map some ++ rest))
          (.comma :: (itemWords (next :: items) ++ ts)) :=
        .mark rfl (fun _ => rfl) (ih hitems)
      have hitem := hj .comma hcomma
      simpa [writeItems, itemWords] using hitem

theorem lexes_entries {entries : List (String × Json)}
    (hentries : ∀ e ∈ entries, e.2.ReadsAsWords) (h : Lexes rest ts) :
    Lexes ((writeEntries entries).map some ++ rest) (entryWords entries ++ ts) := by
  have hend : Lexes (some '\x7d' :: rest) (.closeObject :: ts) := .mark rfl (fun _ => rfl) h
  have hentry (key : String) {j : Json} {rest ts} (hj : Lexes (j.write.map some ++ rest) ts) :
      Lexes ((quote key).map some ++ some ':' :: (j.write.map some ++ rest))
        (.text (some key) :: .colon :: ts) :=
    .quote key (.mark rfl (fun _ => rfl) hj)
  induction entries with
  | nil => exact hend
  | cons e entries ih =>
    obtain ⟨key, j⟩ := e
    obtain ⟨hj, hentries⟩ := List.forall_mem_cons.1 hentries
    cases entries with
    | nil =>
      have hlast := hentry key (hj .closeObject hend)
      simpa [writeEntries, entryWords] using hlast
    | cons next entries =>
      have hcomma : Lexes (some ',' :: ((writeEntries (next :: entries)).map some ++ rest))
          (.comma :: (entryWords (next :: entries) ++ ts)) :=
        .mark rfl (fun _ => rfl) (ih hentries)
      have hfirst := hentry key (hj .comma hcomma)
      simpa [writeEntries, entryWords] using hfirst

theorem Modest.readsAsWords {j : Json} (hj : j.Modest) : j.ReadsAsWords := by
  induction hj with
  | null =>
    intro rest ts _ h
    exact .cons rfl rfl (Nat.le_add_right _ 3) h
  | flag b =>
    intro rest ts _ h
    cases b with
    | true => exact .cons rfl rfl (Nat.le_add_right _ 3) h
    | false => exact .cons rfl rfl (Nat.le_add_right _ 4) h
  | int n hn =>
    intro rest ts hrest h
    exact .number hn hrest h
  | text s =>
    intro rest ts _ h
    exact .quote s h
  | array items _ ih =>
    intro rest ts _ h
    exact .mark rfl (fun _ => rfl) (lexes_items ih h)
  | object entries _ ih =>
    intro rest ts _ h
    exact .mark rfl (fun _ => rfl) (lexes_entries ih h)

theorem Modest.tokens_write {j : Json} (hj : j.Modest) : tokens (j.write.map some) = j.words := by
  have hlexes : Lexes (j.write.map some ++ []) (j.words ++ []) :=
    hj.readsAsWords trivial Lexes.nil
  rw [List.append_nil, List.append_nil] at hlexes
  exact hlexes.tokens_eq

end MessageBoard.Json
