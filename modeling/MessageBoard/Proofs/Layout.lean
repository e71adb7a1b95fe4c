import Mathlib
import MessageBoard.Proofs.Scalars
import MessageBoard.Toml.Document

/-!
# Configuration texts read back

A written text is read line by line: its headers, the entries below each of them, and a blank line
between any two sections. Every line takes at least one character, so there are steps enough for
all of them. The table of the text has one table for each section, as long as no name is used
twice.
-/

namespace MessageBoard.Toml

open MessageBoard.Text

variable {c m : Char} {cs rest : List Char} {key name : String}

/-! ## What cannot be written -/

theorem mapM_eq_none_iff {α β : Type} {f : α → Option β} {l : List α} :
    l.mapM f = none ↔ ∃ a ∈ l, f a = none := by
  induction l with
  | nil => simp
  | cons a l ih =>
    rw [List.mapM_cons]
    cases ha : f a with
    | none => exact ⟨fun _ => ⟨a, List.mem_cons_self, ha⟩, fun _ => rfl⟩
    | some b =>
      have hrest : (l.mapM f).bind (fun bs => some (b :: bs)) = none ↔ l.mapM f = none := by
        cases l.mapM f <;> simp
      have hmem : (∃ x ∈ a :: l, f x = none) ↔ ∃ x ∈ l, f x = none := by simp [ha]
      exact hrest.trans (ih.trans hmem.symm)

theorem documentChars?_eq_none_iff {parts : List (String × List (String × Scalar))} :
    documentChars? parts = none ↔ ∃ part ∈ parts, ∃ e ∈ part.2, e.2.chars? = none := by
  have hline (e : String × Scalar) : lineChars? e.1 e.2 = none ↔ e.2.chars? = none :=
    Option.map_eq_none_iff
  have hsection (part : String × List (String × Scalar)) :
      sectionChars? part.1 part.2 = none ↔ ∃ e ∈ part.2, e.2.chars? = none := by
    simp only [sectionChars?, bind, pure, Option.bind_eq_none_iff, reduceCtorEq, imp_false,
      ← Option.eq_none_iff_forall_ne_some, mapM_eq_none_iff, hline]
  simp only [documentChars?, bind, pure, Option.bind_eq_none_iff, reduceCtorEq, imp_false,
    ← Option.eq_none_iff_forall_ne_some, mapM_eq_none_iff, hsection]

/-! ## Keys -/

def IsBareKey (key : String) : Prop := key.toList ≠ [] ∧ ∀ c ∈ key.toList, isBare c = true

instance (key : String) : Decidable (IsBareKey key) :=
  inferInstanceAs (Decidable (key.toList ≠ [] ∧ ∀ c ∈ key.toList, isBare c = true))

theorem ne_of_isBare (hc : isBare c = true) (hm : isBare m = false) : c ≠ m := by
  rintro rfl
  exact Bool.false_ne_true (hm.symm.trans hc)

theorem IsBareKey.exists_cons (hkey : IsBareKey key) :
    ∃ d ds, key.toList = d :: ds ∧ isBare d = true := by
  obtain ⟨d, ds, hcons⟩ := List.exists_cons_of_ne_nil hkey.1
  exact ⟨d, ds, hcons, hkey.2 d (hcons ▸ List.mem_cons_self)⟩

theorem isSpace_of_isBare (hc : isBare c = true) : isSpace c = false := by
  have hspace : c ≠ ' ' := ne_of_isBare hc (by decide)
  have htab : c ≠ '\t' := ne_of_isBare hc (by decide)
  simp [isSpace, hspace, htab]

theorem skipSpaces_of_not_isSpace (hc : isSpace c = false) : skipSpaces (c :: cs) = c :: cs := by
  rw [skipSpaces, List.dropWhile_cons, hc]
  rfl

theorem key?_bare (hkey : IsBareKey key) (hm : isBare m = false) :
    key? (key.toList ++ m :: rest) = some (key, m :: rest) := by
  obtain ⟨d, ds, hcons, hd⟩ := hkey.exists_cons
  have hrest : (m :: rest).takeWhile isBare = [] := takeWhile_cons_eq_nil hm
  have htake := takeWhile_run hkey.2 hrest
  have hdrop := dropWhile_run hkey.2 hrest
  rw [key?, htake, hdrop, if_neg hkey.1, String.ofList_toList]
  · rw [hcons]
    exact fun _ h => ne_of_isBare hd (by decide) (List.cons.inj h).1
  · rw [hcons]
    exact fun _ h => ne_of_isBare hd (by decide) (List.cons.inj h).1

theorem keyPath?_bare (hkey : IsBareKey key) (hm : isBare m = false)
    (hrest : (skipSpaces (m :: rest)).head? ≠ some '.') (limit : Nat) :
    keyPath? (limit + 1) (key.toList ++ m :: rest) = some (⟨[], key⟩, skipSpaces (m :: rest)) := by
  have hread : key? (key.toList ++ m :: rest) = some (key, m :: rest) := key?_bare hkey hm
  have hstart : skipSpaces (key.toList ++ m :: rest) = key.toList ++ m :: rest := by
    obtain ⟨d, ds, hcons, hd⟩ := hkey.exists_cons
    rw [hcons, List.cons_append, skipSpaces_of_not_isSpace (isSpace_of_isBare hd)]
  rw [keyPath?, hstart, hread]
  simp only [bind, Option.bind]
  split
  · rename_i h
    exact absurd (by rw [h]; rfl) hrest
  · rfl

/-! ## Lines -/

theorem Scalar.exists_cons_chars {v : Scalar} (h : v.chars? = some cs) :
    ∃ d ds, cs = d :: ds ∧ isSpace d = false := by
  cases v with
  | text s =>
    obtain ⟨d, ds, hcons, hd⟩ := exists_cons_textChars s.toList
    refine ⟨d, ds, (Option.some.inj h).symm.trans hcons, ?_⟩
    rcases hd with rfl | rfl <;> rfl
  | int n =>
    rw [Scalar.chars?] at h
    split_ifs at h
    obtain ⟨d, ds, hcons, hd⟩ := exists_cons_decimalInt n
    refine ⟨d, ds, (Option.some.inj h).symm.trans hcons, ?_⟩
    rcases hd with rfl | hd
    · rfl
    · exact isSpace_of_isBare (by simp [isBare, Char.isAlphanum, hd])
  | flag b =>
    rw [← Option.some.inj h]
    cases b <;> exact ⟨_, _, rfl, rfl⟩

theorem entry?_line (hkey : IsBareKey key) {v : Scalar} (h : v.chars? = some cs) :
    entry? (value? depthLimit) (key.toList ++ (" = ".toList ++ cs ++ '\n' :: rest)) =
      some (⟨⟨[], key⟩, v.tree⟩, '\n' :: rest) := by
  obtain ⟨d, ds, hcons, hd⟩ := v.exists_cons_chars h
  have hpath : keyPath? depthLimit (key.toList ++ (' ' :: '=' :: ' ' :: cs ++ '\n' :: rest)) =
      some (⟨[], key⟩, '=' :: ' ' :: cs ++ '\n' :: rest) := by
    apply keyPath?_bare hkey (by decide)
    show some '=' ≠ some '.'
    decide
  have hspaces : skipSpaces (' ' :: (cs ++ '\n' :: rest)) = cs ++ '\n' :: rest := by
    rw [hcons]
    exact skipSpaces_of_not_isSpace hd
  have hvalue := v.value?_chars h rest depthLimit
  show entry? (value? depthLimit) (key.toList ++ (' ' :: '=' :: ' ' :: cs ++ '\n' :: rest)) = _
  unfold entry?
  rw [hpath]
  simp only [List.cons_append, mark?, if_true, bind, Option.bind, hspaces, hvalue]
  rfl

theorem line?_entry (hkey : IsBareKey key) {v : Scalar} (h : v.chars? = some cs) :
    line? (key.toList ++ (" = ".toList ++ cs ++ '\n' :: rest)) =
      some (.entry ⟨⟨[], key⟩, v.tree⟩, rest) := by
  have hentry : entry? (value? depthLimit) (key.toList ++ (" = ".toList ++ cs ++ '\n' :: rest)) =
      some (⟨⟨[], key⟩, v.tree⟩, '\n' :: rest) := entry?_line hkey h
  obtain ⟨d, ds, hcons, hd⟩ := hkey.exists_cons
  have hbracket : d ≠ '[' := ne_of_isBare hd (by decide)
  rw [line?, hentry]
  · rfl
  all_goals
    rw [hcons]
    exact fun _ h => hbracket (List.cons.inj h).1

theorem line?_header (hname : IsBareKey name) :
    line? ('[' :: (name.toList ++ ']' :: '\n' :: rest)) =
      some (.header ⟨[], name⟩ false, rest) := by
  have hpath : keyPath? depthLimit (name.toList ++ ']' :: '\n' :: rest) =
      some (⟨[], name⟩, ']' :: '\n' :: rest) := by
    apply keyPath?_bare hname (by decide)
    show some ']' ≠ some '.'
    decide
  obtain ⟨d, ds, hcons, hd⟩ := hname.exists_cons
  have hbracket : d ≠ '[' := ne_of_isBare hd (by decide)
  rw [line?, hpath]
  · rfl
  · rw [hcons]
    exact fun _ h => hbracket (List.cons.inj h).1

/-! ## Texts -/

/-- The text is read as these lines, as soon as there is a step for each of its characters. -/
def IsLines (cs : List Char) (lines : List Line) : Prop :=
  ∀ most, cs.length < most → lines? most cs = some lines

variable {lines : List Line}

theorem IsLines.nil : IsLines [] [] := by
  intro most hmost
  obtain ⟨most, rfl⟩ := Nat.exists_eq_add_of_lt hmost
  rfl

theorem IsLines.blank (h : IsLines cs lines) : IsLines ('\n' :: cs) lines := by
  intro most hmost
  rw [List.length_cons] at hmost
  cases most with
  | zero => exact absurd hmost (Nat.not_lt_zero _)
  | succ most => exact h (most + 1) (by omega)

theorem IsLines.line {line : Line} (hblank : skipBlanks false cs = cs)
    (hline : line? cs = some (line, rest)) (hlength : rest.length < cs.length)
    (h : IsLines rest lines) : IsLines cs (line :: lines) := by
  intro most hmost
  cases most with
  | zero => exact absurd hmost (Nat.not_lt_zero _)
  | succ most =>
    have hrest := h most (by omega)
    have hne : cs ≠ [] := by
      rintro rfl
      exact absurd hlength (Nat.not_lt_zero _)
    obtain ⟨d, ds, rfl⟩ := List.exists_cons_of_ne_nil hne
    rw [lines?, hblank]
    simp only [hline, hrest, bind, Option.bind]
    rfl

theorem skipBlanks_of_isBare (hc : isBare c = true) : skipBlanks false (c :: cs) = c :: cs := by
  have hnewline : c ≠ '\n' := ne_of_isBare hc (by decide)
  have hreturn : c ≠ '\r' := ne_of_isBare hc (by decide)
  have hcomment : c ≠ '#' := ne_of_isBare hc (by decide)
  have hspace : ¬ isSpace c = true := by simp [isSpace_of_isBare hc]
  rw [skipBlanks, if_neg (by decide), if_neg hcomment, if_neg hspace]
  · exact hnewline
  · exact fun _ h => absurd h hreturn

def entryLine (e : String × Scalar) : Line := .entry ⟨⟨[], e.1⟩, e.2.tree⟩

theorem lineChars?_eq_some {v : Scalar} (h : lineChars? key v = some cs) :
    ∃ text, v.chars? = some text ∧ cs = key.toList ++ " = ".toList ++ text ++ ['\n'] := by
  obtain ⟨text, htext, rfl⟩ := Option.map_eq_some_iff.1 h
  exact ⟨text, htext, rfl⟩

theorem IsLines.entry {v : Scalar} (hkey : IsBareKey key) (hwritten : lineChars? key v = some cs)
    (h : IsLines rest lines) : IsLines (cs ++ rest) (entryLine (key, v) :: lines) := by
  obtain ⟨text, htext, rfl⟩ := lineChars?_eq_some hwritten
  have hshape : key.toList ++ " = ".toList ++ text ++ ['\n'] ++ rest =
      key.toList ++ (" = ".toList ++ text ++ '\n' :: rest) := by
    simp only [List.append_assoc, List.singleton_append]
  rw [hshape]
  refine IsLines.line ?_ (line?_entry hkey htext) ?_ h
  · obtain ⟨d, ds, hcons, hd⟩ := hkey.exists_cons
    rw [hcons]
    exact skipBlanks_of_isBare hd
  · simp only [List.length_append, List.length_cons]
    omega

theorem IsLines.entries {entries : List (String × Scalar)}
    (hkeys : ∀ e ∈ entries, IsBareKey e.1) {texts : List (List Char)}
    (hwritten : (entries.mapM fun (key, v) => lineChars? key v) = some texts)
    (h : IsLines rest lines) :
    IsLines (texts.flatten ++ rest) (entries.map entryLine ++ lines) := by
  induction entries generalizing texts with
  | nil =>
    rw [← Option.some.inj hwritten]
    exact h
  | cons e entries ih =>
    obtain ⟨he, hkeys⟩ := List.forall_mem_cons.1 hkeys
    rw [List.mapM_cons] at hwritten
    obtain ⟨text, htext, hwritten⟩ := Option.bind_eq_some_iff.1 hwritten
    obtain ⟨texts', htexts, hwritten⟩ := Option.bind_eq_some_iff.1 hwritten
    rw [← Option.some.inj hwritten, List.flatten_cons, List.append_assoc]
    exact IsLines.entry he htext (ih hkeys htexts)

def sectionLines (part : String × List (String × Scalar)) : List Line :=
  .header ⟨[], part.1⟩ false :: part.2.map entryLine

/-- A section that is written without quotation marks around its keys. -/
structure IsBareSection (part : String × List (String × Scalar)) : Prop where
  name : IsBareKey part.1
  keys : ∀ e ∈ part.2, IsBareKey e.1

theorem IsLines.section {part : String × List (String × Scalar)} (hpart : IsBareSection part)
    (hwritten : sectionChars? part.1 part.2 = some cs) (h : IsLines rest lines) :
    IsLines (cs ++ rest) (sectionLines part ++ lines) := by
  obtain ⟨texts, htexts, hwritten⟩ := Option.bind_eq_some_iff.1 hwritten
  have hshape : cs ++ rest =
      '[' :: (part.1.toList ++ ']' :: '\n' :: (texts.flatten ++ rest)) := by
    rw [← Option.some.inj hwritten]
    simp only [List.cons_append, List.nil_append, List.append_assoc]
  rw [hshape]
  refine IsLines.line rfl (line?_header hpart.name) ?_ (IsLines.entries hpart.keys htexts h)
  simp only [List.length_append, List.length_cons]
  omega

theorem IsLines.document {parts : List (String × List (String × Scalar))}
    (hparts : ∀ part ∈ parts, IsBareSection part) (hwritten : documentChars? parts = some cs) :
    IsLines cs (parts.flatMap sectionLines) := by
  obtain ⟨texts, htexts, hcs⟩ := Option.bind_eq_some_iff.1 hwritten
  rw [← Option.some.inj hcs]
  clear hcs hwritten
  induction parts generalizing texts with
  | nil =>
    rw [← Option.some.inj htexts]
    exact IsLines.nil
  | cons part parts ih =>
    obtain ⟨hpart, hparts⟩ := List.forall_mem_cons.1 hparts
    rw [List.mapM_cons] at htexts
    obtain ⟨text, htext, htexts⟩ := Option.bind_eq_some_iff.1 htexts
    obtain ⟨texts', htexts', htexts⟩ := Option.bind_eq_some_iff.1 htexts
    have hrest := ih hparts texts' htexts'
    rw [← Option.some.inj htexts, List.flatMap_cons]
    cases texts' with
    | nil =>
      have hsection := IsLines.section hpart htext hrest
      simpa using hsection
    | cons next texts' =>
      have hsection := IsLines.section hpart htext hrest.blank
      simpa using hsection

/-! ## Tables -/

namespace Table

def ofEntries (entries : List (String × Scalar)) : Table := entries.map fun e => (e.1, e.2.tree)

theorem lookup_eq_none {t : Table} {key : String} (h : key ∉ t.map Prod.fst) :
    t.lookup key = none := by
  rw [List.lookup_eq_none_iff]
  intro e he
  have hne : key ≠ e.1 := by
    rintro rfl
    exact h (List.mem_map_of_mem he)
  simpa using hne

theorem put_of_notMem {t : Table} (h : key ∉ t.map Prod.fst) (tree : Tree) :
    put t ⟨⟨[], key⟩, tree⟩ = some (t.add key tree) := by
  simp [put, within, lookup_eq_none h]

theorem foldlM_put {t : Table} {entries : List (String × Scalar)}
    (hkeys : (t.map Prod.fst ++ entries.map Prod.fst).Nodup) :
    (entries.map fun e => Entry.mk ⟨[], e.1⟩ e.2.tree).foldlM put t =
      some (t ++ ofEntries entries) := by
  induction entries generalizing t with
  | nil => exact congrArg some (List.append_nil t).symm
  | cons e entries ih =>
    have hnew : e.1 ∉ t.map Prod.fst := by
      intro hmem
      exact (List.nodup_append.1 hkeys).2.2 _ hmem _ (List.mem_map_of_mem List.mem_cons_self) rfl
    have hnext : ((t.add e.1 e.2.tree).map Prod.fst ++ entries.map Prod.fst).Nodup := by
      simpa [add] using hkeys
    rw [List.map_cons, List.foldlM_cons, put_of_notMem hnew]
    show List.foldlM put (t.add e.1 e.2.tree) _ = _
    rw [ih hnext, add, List.append_assoc]
    rfl

def sectionOf (part : String × List (String × Scalar)) : Section :=
  ⟨⟨[], part.1⟩, false, part.2.map fun e => ⟨⟨[], e.1⟩, e.2.tree⟩⟩

theorem putSection_of_notMem {t : Table} {part : String × List (String × Scalar)}
    (hname : part.1 ∉ t.map Prod.fst) (hkeys : (part.2.map Prod.fst).Nodup) :
    putSection t (sectionOf part) = some (t.add part.1 (.table .headed (ofEntries part.2))) := by
  have hentries : (part.2.map fun e => Entry.mk ⟨[], e.1⟩ e.2.tree).foldlM put [] =
      some ([] ++ ofEntries part.2) := foldlM_put hkeys
  simp only [putSection, sectionOf, within, lookup_eq_none hname, hentries]
  rfl

def ofParts (parts : List (String × List (String × Scalar))) : Table :=
  parts.map fun part => (part.1, .table .headed (ofEntries part.2))

theorem foldlM_putSection {t : Table} {parts : List (String × List (String × Scalar))}
    (hnames : (t.map Prod.fst ++ parts.map Prod.fst).Nodup)
    (hkeys : ∀ part ∈ parts, (part.2.map Prod.fst).Nodup) :
    (parts.map sectionOf).foldlM putSection t = some (t ++ ofParts parts) := by
  induction parts generalizing t with
  | nil => exact congrArg some (List.append_nil t).symm
  | cons part parts ih =>
    obtain ⟨hpart, hkeys⟩ := List.forall_mem_cons.1 hkeys
    have hnew : part.1 ∉ t.map Prod.fst := by
      intro hmem
      exact (List.nodup_append.1 hnames).2.2 _ hmem _ (List.mem_map_of_mem List.mem_cons_self) rfl
    have hnext : ((t.add part.1 (.table .headed (ofEntries part.2))).map Prod.fst ++
        parts.map Prod.fst).Nodup := by
      simpa [add] using hnames
    rw [List.map_cons, List.foldlM_cons, putSection_of_notMem hnew hpart]
    show List.foldlM putSection (t.add part.1 _) _ = _
    rw [ih hnext hkeys, add, List.append_assoc]
    rfl

end Table

theorem sections_entryLines (entries : List (String × Scalar)) (lines : List Line) :
    sections (entries.map entryLine ++ lines) =
      ((entries.map fun e => ⟨⟨[], e.1⟩, e.2.tree⟩) ++ (sections lines).1, (sections lines).2) := by
  induction entries with
  | nil => rfl
  | cons e entries ih =>
    rw [List.map_cons, List.cons_append, entryLine, sections, ih]
    rfl

theorem sections_sectionLines (parts : List (String × List (String × Scalar))) :
    sections (parts.flatMap sectionLines) = ([], parts.map Table.sectionOf) := by
  induction parts with
  | nil => rfl
  | cons part parts ih =>
    rw [List.flatMap_cons, sectionLines, List.cons_append, sections, sections_entryLines, ih,
      List.append_nil]
    rfl

theorem head?_document {parts : List (String × List (String × Scalar))}
    (hwritten : documentChars? parts = some cs) : cs = [] ∨ cs.head? = some '[' := by
  obtain ⟨texts, htexts, hcs⟩ := Option.bind_eq_some_iff.1 hwritten
  rw [← Option.some.inj hcs]
  cases parts with
  | nil =>
    rw [← Option.some.inj htexts]
    exact .inl rfl
  | cons part parts =>
    rw [List.mapM_cons] at htexts
    obtain ⟨text, htext, htexts⟩ := Option.bind_eq_some_iff.1 htexts
    obtain ⟨texts', -, htexts⟩ := Option.bind_eq_some_iff.1 htexts
    obtain ⟨entries, -, htext⟩ := Option.bind_eq_some_iff.1 htext
    rw [← Option.some.inj htexts, ← Option.some.inj htext]
    right
    cases texts' <;> rfl

/-- A written text is read as the table of its sections. -/
theorem ofChars?_document {parts : List (String × List (String × Scalar))}
    (hparts : ∀ part ∈ parts, IsBareSection part) (hnames : (parts.map Prod.fst).Nodup)
    (hkeys : ∀ part ∈ parts, (part.2.map Prod.fst).Nodup)
    (hwritten : documentChars? parts = some cs) : ofChars? cs = some (Table.ofParts parts) := by
  have hlines := IsLines.document hparts hwritten (cs.length + 1) (Nat.lt_succ_self _)
  have hmark : cs.head? ≠ some '\uFEFF' := by
    obtain hnil | hbracket := head?_document hwritten
    · rw [hnil]
      exact nofun
    · rw [hbracket]
      decide
  have htable : (parts.map Table.sectionOf).foldlM Table.putSection [] =
      some ([] ++ Table.ofParts parts) := Table.foldlM_putSection hnames hkeys
  rw [ofChars?, if_neg hmark]
  simp only [hlines, bind, Option.bind, sections_sectionLines, Table.ofSections?]
  exact htable

end MessageBoard.Toml
