import Mathlib
import MessageBoard.Json.Document
import MessageBoard.Proofs.Tokens

/-!
# The document of a written value

`Json.document` says what a reader finds where a value was written. Reading the words of a value
delivers its document to whatever container is open, so a written text is read as the document of
its value, to its end. The document is well formed in every part.
-/

namespace MessageBoard.Json

@[elab_as_elim]
theorem induct {P : Json → Prop} (null : P null) (flag : ∀ b, P (flag b)) (int : ∀ n, P (int n))
    (text : ∀ s, P (text s)) (array : ∀ items, (∀ j ∈ items, P j) → P (array items))
    (object : ∀ entries, (∀ e ∈ entries, P e.2) → P (object entries)) (j : Json) : P j :=
  @Json.rec P (fun items => ∀ j ∈ items, P j) (fun entries => ∀ e ∈ entries, P e.2)
    (fun e => P e.2) null flag int text array object (fun _ h => absurd h List.not_mem_nil)
    (fun _ _ hj hitems => List.forall_mem_cons.2 ⟨hj, hitems⟩)
    (fun _ h => absurd h List.not_mem_nil)
    (fun _ _ he hentries => List.forall_mem_cons.2 ⟨he, hentries⟩) (fun _ _ hj => hj) j

mutual

def document : Json → Document
  | null => .null
  | flag b => .flag b
  | int n => .number (.int n)
  | text s => .text (some s)
  | array items => .array (itemDocuments items) .closed
  | object entries => .object (entryDocuments entries) .closed

def itemDocuments : List Json → List Document
  | [] => []
  | j :: items => j.document :: itemDocuments items

def entryDocuments : List (String × Json) → List (Option String × Document)
  | [] => []
  | (key, j) :: entries => (some key, j.document) :: entryDocuments entries

end

theorem entryDocuments_eq (entries : List (String × Json)) :
    entryDocuments entries = entries.map fun e => (some e.1, e.2.document) := by
  induction entries with
  | nil => rfl
  | cons e entries ih => rw [entryDocuments, ih, List.map_cons]

/-! ## Reading -/

theorem Reader.run_cons (wanted : Wanted) (stack : List Open) (token : Token) (ts : List Token) :
    (Reader.reading wanted stack).run (token :: ts) =
      ((Reader.reading wanted stack).step token).run ts := by
  rw [Reader.run]
  rintro _ ⟨⟩

/-- Where an array may end, a value is read as it is anywhere. -/
theorem run_itemOrEnd (j : Json) (items : List Document) (stack : List Open) (ts : List Token) :
    (Reader.reading .itemOrEnd (.array items :: stack)).run (j.words ++ ts) =
      (Reader.reading .value (.array items :: stack)).run (j.words ++ ts) := by
  cases j <;> simp [words, Reader.run, Reader.step, startValue]

def Delivers (j : Json) : Prop :=
  ∀ stack ts, (Reader.reading .value stack).run (j.words ++ ts) = (deliver j.document stack).run ts

theorem run_items {items : List Json} (hitems : ∀ j ∈ items, j.Delivers) (hne : items ≠ [])
    (found : List Document) (stack : List Open) (ts : List Token) :
    (Reader.reading .value (.array found :: stack)).run (itemWords items ++ ts) =
      (deliver (.array (found.reverse ++ itemDocuments items) .closed) stack).run ts := by
  induction items generalizing found with
  | nil => exact absurd rfl hne
  | cons j items ih =>
    obtain ⟨hj, hitems⟩ := List.forall_mem_cons.1 hitems
    cases items with
    | nil =>
      rw [itemWords, List.append_assoc, hj]
      simp [deliver, Reader.run, Reader.step, itemDocuments]
    | cons next items =>
      have hnext := ih hitems (List.cons_ne_nil _ _) (j.document :: found)
      rw [itemWords, List.append_assoc, hj]
      · simpa [deliver, Reader.run, Reader.step, itemDocuments] using hnext
      · simp

theorem run_entries {entries : List (String × Json)} (hentries : ∀ e ∈ entries, e.2.Delivers)
    (hne : entries ≠ []) (found : List (Option String × Document)) (stack : List Open)
    (ts : List Token) :
    (Reader.reading .key (.object found :: stack)).run (entryWords entries ++ ts) =
      (deliver (.object (found.reverse ++ entryDocuments entries) .closed) stack).run ts := by
  induction entries generalizing found with
  | nil => exact absurd rfl hne
  | cons e entries ih =>
    obtain ⟨key, j⟩ := e
    obtain ⟨hj, hentries⟩ := List.forall_mem_cons.1 hentries
    have hvalue (ts : List Token) :
        (Reader.reading .key (.object found :: stack)).run
            (.text (some key) :: .colon :: (j.words ++ ts)) =
          (Reader.reading .separator (.object ((some key, j.document) :: found) :: stack)).run ts :=
      hj (.entry found (some key) :: stack) ts
    cases entries with
    | nil =>
      simp [entryWords, hvalue, Reader.run, Reader.step, entryDocuments]
    | cons next entries =>
      have hnext := ih hentries (List.cons_ne_nil _ _) ((some key, j.document) :: found)
      simpa [entryWords, hvalue, Reader.run, Reader.step, entryDocuments] using hnext

theorem delivers (j : Json) : j.Delivers := by
  induction j using induct with
  | null => exact fun _ _ => rfl
  | flag b => exact fun _ _ => rfl
  | int n => exact fun _ _ => rfl
  | text s => exact fun _ _ => rfl
  | array items ih =>
    intro stack ts
    cases items with
    | nil => rfl
    | cons j items =>
      have hitems := run_items ih (List.cons_ne_nil _ _) [] stack ts
      have hfirst : (Reader.reading .itemOrEnd (.array [] :: stack)).run
          (itemWords (j :: items) ++ ts) =
          (Reader.reading .value (.array [] :: stack)).run (itemWords (j :: items) ++ ts) := by
        cases items with
        | nil => simp only [itemWords, List.append_assoc, run_itemOrEnd]
        | cons next items => simp only [itemWords, List.append_assoc, run_itemOrEnd]
      rw [words, List.cons_append, Reader.run_cons]
      exact hfirst.trans hitems
  | object entries ih =>
    intro stack ts
    cases entries with
    | nil => rfl
    | cons e entries =>
      have hentries := run_entries ih (List.cons_ne_nil _ _) [] stack ts
      have hfirst : (Reader.reading .keyOrEnd (.object [] :: stack)).run
          (entryWords (e :: entries) ++ ts) =
          (Reader.reading .key (.object [] :: stack)).run (entryWords (e :: entries) ++ ts) := by
        cases entries with
        | nil => rfl
        | cons next entries => rfl
      rw [words, List.cons_append, Reader.run_cons]
      exact hfirst.trans hentries

/-- A written value is read as its document, and nothing is left of the text. -/
theorem Modest.ofChars_write {j : Json} (hj : j.Modest) :
    Document.ofChars (j.write.map some) = (j.document, false) := by
  have hread := j.delivers [] []
  rw [List.append_nil] at hread
  rw [Document.ofChars, hj.tokens_write, hread]
  rfl

theorem isSound_document (j : Json) : j.document.isSound = true := by
  induction j using induct with
  | null => rfl
  | flag b => rfl
  | int n => rfl
  | text s => rfl
  | array items ih =>
    have hitems : Document.soundItems (itemDocuments items) = true := by
      induction items with
      | nil => rfl
      | cons j items ih' =>
        obtain ⟨hj, hitems⟩ := List.forall_mem_cons.1 ih
        rw [itemDocuments, Document.soundItems, hj, ih' hitems]
        rfl
    rw [document, Document.isSound, hitems]
    rfl
  | object entries ih =>
    have hentries : Document.soundEntries (entryDocuments entries) = true := by
      induction entries with
      | nil => rfl
      | cons e entries ih' =>
        obtain ⟨he, hentries⟩ := List.forall_mem_cons.1 ih
        rw [entryDocuments, Document.soundEntries, he, ih' hentries]
        rfl
    rw [document, Document.isSound, hentries]
    rfl

end MessageBoard.Json
