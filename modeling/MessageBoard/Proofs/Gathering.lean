import Mathlib
import MessageBoard.Filter.Query
import MessageBoard.Proofs.Shapes

/-!
# Fields gathered from entries

Entries with names come in any order, and each is put into the slot of its field. What is gathered
in the end depends on nothing but what stands under each name: a field with one entry is read from
it, a field without one stays open, and of more than one entry nothing comes.
-/

namespace MessageBoard

open Json Json.Document

variable {ε α : Type}

/-! ## Steps that may fail -/

theorem bind_eq_ok_iff {β : Type} {x : Except ε α} {f : α → Except ε β} {b : β} :
    x >>= f = .ok b ↔ ∃ a, x = .ok a ∧ f a = .ok b := by
  cases x <;> simp [bind, Except.bind]

theorem foldlM_cons_eq_ok_iff {σ : Type} {f : σ → α → Except ε σ} {a : α} {l : List α} {s t : σ} :
    (a :: l).foldlM f s = .ok t ↔ ∃ s', f s a = .ok s' ∧ l.foldlM f s' = .ok t := by
  rw [List.foldlM_cons, bind_eq_ok_iff]

theorem foldlM_prod_eq_ok_iff {σ τ : Type} {f : σ → α → Except ε σ} {g : τ → α → Except ε τ}
    {h : σ × τ → α → Except ε (σ × τ)} {l : List α}
    (hstep : ∀ a ∈ l, ∀ x y, h x a = .ok y ↔ f x.1 a = .ok y.1 ∧ g x.2 a = .ok y.2)
    (x y : σ × τ) :
    l.foldlM h x = .ok y ↔ l.foldlM f x.1 = .ok y.1 ∧ l.foldlM g x.2 = .ok y.2 := by
  induction l generalizing x with
  | nil =>
    simp only [List.foldlM_nil, pure, Except.pure, Except.ok.injEq]
    exact Prod.ext_iff
  | cons a l ih =>
    obtain ⟨ha, hl⟩ := List.forall_mem_cons.1 hstep
    simp only [foldlM_cons_eq_ok_iff, ha, ih hl]
    constructor
    · rintro ⟨z, ⟨hf, hg⟩, hl₁, hl₂⟩
      exact ⟨⟨z.1, hf, hl₁⟩, z.2, hg, hl₂⟩
    · rintro ⟨⟨s, hf, hl₁⟩, t, hg, hl₂⟩
      exact ⟨(s, t), ⟨hf, hg⟩, hl₁, hl₂⟩

/-! ## What stands under a name -/

/-- What stands under a key, in the order of the entries. -/
def inputs {κ : Type} [DecidableEq κ] (entries : List (κ × α)) (key : κ) : List α :=
  entries.filterMap fun e => if e.1 = key then some e.2 else none

section Inputs

variable {κ : Type} [DecidableEq κ] {entries : List (κ × α)} {key : κ} {x : α}

@[simp] theorem inputs_nil : inputs ([] : List (κ × α)) key = [] := rfl

@[simp] theorem inputs_cons_self : inputs ((key, x) :: entries) key = x :: inputs entries key := by
  simp [inputs]

theorem inputs_cons_of_ne {e : κ × α} (h : e.1 ≠ key) :
    inputs (e :: entries) key = inputs entries key := by
  simp [inputs, h]

theorem inputs_filter {p : κ × α → Bool} (h : ∀ e, e.1 = key → p e = true) :
    inputs (entries.filter p) key = inputs entries key := by
  rw [inputs, List.filterMap_filter, inputs]
  congr 1
  funext e
  by_cases he : e.1 = key
  · rw [if_pos (h e he)]
  · rw [if_neg he, ite_self]

theorem head?_inputs [BEq κ] [LawfulBEq κ] : (inputs entries key).head? = entries.lookup key := by
  induction entries with
  | nil => rfl
  | cons e entries ih =>
    obtain ⟨k, x⟩ := e
    by_cases he : k = key
    · subst he
      rw [inputs_cons_self, List.lookup_cons_self, List.head?_cons]
    · rw [inputs_cons_of_ne he, ih, List.lookup_cons, beq_false_of_ne (Ne.symm he)]

end Inputs

/-! ## Slots -/

/-- What is read of what stands under the name of a field. -/
inductive Taken {β : Type} (read : α → Except ε β) : List α → Option β → Prop
  | missing : Taken read [] none
  | single {x : α} {v : β} (h : read x = .ok v) : Taken read [x] (some v)

namespace Fields

/-- The slots hold what is read of what is given under the names of the fields. -/
def Gathers : (fs : Fields) → fs.Readers ε α → (String → List α) → fs.Slots → Prop
  | nil, _, _, _ => True
  | cons name _ _ rest, readers, given, slots =>
    Taken readers.1 (given name) slots.1 ∧ rest.Gathers readers.2 given slots.2

def gather (fs : Fields) (repeated : String → ε) (readers : fs.Readers ε α) (slots : fs.Slots)
    (e : String × α) : Except ε fs.Slots :=
  (fs.put repeated e.1 e.2 readers slots).map (·.getD slots)

def gatherOne {β : Type} (repeated : String → ε) (name : String) (read : α → Except ε β)
    (slot : Option β) (e : String × α) : Except ε (Option β) :=
  if e.1 = name then
    match slot with
    | some _ => .error (repeated name)
    | none => (read e.2).map some
  else .ok slot

variable {repeated : String → ε}

section One

variable {β : Type} {name : String} {read : α → Except ε β} {entries : List (String × α)}

theorem foldlM_gatherOne_some {v : β} {slot : Option β} :
    entries.foldlM (gatherOne repeated name read) (some v) = .ok slot ↔
      inputs entries name = [] ∧ slot = some v := by
  induction entries with
  | nil =>
    rw [List.foldlM_nil]
    exact ⟨fun h => ⟨rfl, (Except.ok.inj h).symm⟩, fun h => congrArg Except.ok h.2.symm⟩
  | cons e entries ih =>
    rw [foldlM_cons_eq_ok_iff, gatherOne]
    by_cases he : e.1 = name
    · rw [if_pos he]
      obtain ⟨key, x⟩ := e
      obtain rfl : key = name := he
      rw [inputs_cons_self]
      exact iff_of_false (fun ⟨_, h, _⟩ => by cases h) fun h => by cases h.1
    · rw [if_neg he, inputs_cons_of_ne he, ← ih]
      exact ⟨fun ⟨_, h, hrun⟩ => Except.ok.inj h ▸ hrun, fun h => ⟨_, rfl, h⟩⟩

theorem foldlM_gatherOne_none {slot : Option β} :
    entries.foldlM (gatherOne repeated name read) none = .ok slot ↔
      Taken read (inputs entries name) slot := by
  induction entries with
  | nil =>
    rw [List.foldlM_nil, inputs_nil]
    constructor
    · rintro ⟨⟩
      exact .missing
    · rintro ⟨⟩
      rfl
  | cons e entries ih =>
    rw [foldlM_cons_eq_ok_iff, gatherOne]
    by_cases he : e.1 = name
    · obtain ⟨key, x⟩ := e
      obtain rfl : key = name := he
      rw [if_pos rfl, inputs_cons_self]
      constructor
      · rintro ⟨slot', hread, hrun⟩
        cases hv : read x with
        | error e =>
          rw [hv] at hread
          cases hread
        | ok v =>
          rw [hv] at hread
          obtain rfl := Except.ok.inj hread
          obtain ⟨hnil, rfl⟩ := foldlM_gatherOne_some.1 hrun
          rw [hnil]
          exact .single hv
      · intro h
        generalize hnil : inputs entries key = rest at h
        cases h with
        | single hv =>
          refine ⟨some _, by rw [hv]; rfl, foldlM_gatherOne_some.2 ⟨hnil, rfl⟩⟩
    · rw [if_neg he, inputs_cons_of_ne he, ← ih]
      exact ⟨fun ⟨_, h, hrun⟩ => Except.ok.inj h ▸ hrun, fun h => ⟨_, rfl, h⟩⟩

end One

variable {fs : Fields} {readers : fs.Readers ε α}

theorem gather_of_notMem {slots : fs.Slots} {e : String × α} (h : e.1 ∉ fs.names) :
    fs.gather repeated readers slots e = .ok slots := by
  rw [gather, put_of_notMem h]
  rfl

theorem gather_cons_eq_ok_iff {name : String} {s : Shape} {p : Presence} (hname : name ∉ fs.names)
    {readers : (cons name s p fs).Readers ε α} {e : String × α}
    (x y : (cons name s p fs).Slots) :
    (cons name s p fs).gather repeated readers x e = .ok y ↔
      gatherOne repeated name readers.1 x.1 e = .ok y.1 ∧
        fs.gather repeated readers.2 x.2 e = .ok y.2 := by
  obtain ⟨read, readers⟩ := readers
  obtain ⟨slot, slots⟩ := x
  obtain ⟨slot', slots'⟩ := y
  by_cases he : e.1 = name
  · have hrest : fs.gather repeated readers slots e = .ok slots :=
      gather_of_notMem (he ▸ hname)
    dsimp only
    rw [hrest]
    cases slot with
    | some v =>
      rw [gatherOne.eq_def, if_pos he, gather, put, if_pos he]
      exact iff_of_false (fun h => by cases h) fun h => by cases h.1
    | none =>
      rw [gatherOne.eq_def, if_pos he, gather, put, if_pos he]
      cases read e.2 with
      | error e => exact iff_of_false (fun h => by cases h) fun h => by cases h.1
      | ok v => simp [Except.map]
  · have hput : (cons name s p fs).put repeated e.1 e.2 (read, readers) (slot, slots) =
        (fs.put repeated e.1 e.2 readers slots).map (Option.map (slot, ·)) :=
      put_cons_of_ne he (read, readers) (slot, slots)
    rw [gatherOne.eq_def, if_neg he, gather, hput, gather]
    cases fs.put repeated e.1 e.2 readers slots with
    | error e => exact iff_of_false (fun h => by cases h) fun h => by cases h.2
    | ok found => cases found <;> simp [Except.map]

/-- What is gathered depends on nothing but what stands under each name. -/
theorem foldlM_gather_eq_ok_iff (hnames : fs.names.Nodup) {entries : List (String × α)}
    {slots : fs.Slots} :
    entries.foldlM (fs.gather repeated readers) fs.noSlots = .ok slots ↔
      fs.Gathers readers (inputs entries) slots := by
  induction fs using induct with
  | nil => exact iff_of_true (foldlM_id fun _ _ => rfl) trivial
  | cons name s p rest ih =>
    obtain ⟨hname, hnames⟩ := List.nodup_cons.1 hnames
    have hstep : ∀ e ∈ entries, ∀ x y : (cons name s p rest).Slots,
        (cons name s p rest).gather repeated readers x e = .ok y ↔
          gatherOne repeated name readers.1 x.1 e = .ok y.1 ∧
            rest.gather repeated readers.2 x.2 e = .ok y.2 :=
      fun _ _ => gather_cons_eq_ok_iff hname
    have hprod := foldlM_prod_eq_ok_iff hstep (none, rest.noSlots) slots
    rw [noSlots, hprod, foldlM_gatherOne_none, ih hnames]
    rfl

/-! ## Records that may lack any field -/

def Lenient : Fields → Prop
  | nil => True
  | cons _ s p rest => (s.IsOption ∨ p = .defaulted) ∧ rest.Lenient

/-- The record with what was found, and the initial values of what was not. -/
def completed : (fs : Fields) → fs.Slots → fs.Val
  | nil, _ => ()
  | cons _ s _ rest, slots => (slots.1.getD s.initial, rest.completed slots.2)

theorem fill_of_lenient (h : fs.Lenient) (slots : fs.Slots) :
    fs.fill slots = some (fs.completed slots) := by
  induction fs using induct with
  | nil => rfl
  | cons name s p rest ih =>
    obtain ⟨hfield, hrest⟩ := h
    obtain ⟨slot, slots⟩ := slots
    have hslot : (slot <|> s.absent? <|> (if p = .defaulted then some s.initial else none)) =
        some (slot.getD s.initial) := by
      cases slot with
      | some v => rfl
      | none =>
        rcases hfield with hoption | rfl
        · cases s with
          | option s => rfl
          | _ => exact hoption.elim
        · cases s <;> rfl
    rw [fill, hslot, ih hrest]
    rfl

/-! ## Records told by their fields -/

/-- What is made of a field: what is read of it, or its initial value if it is left out. -/
inductive Told {β : Type} (read : α → Except ε β) (initial : β) : Option α → β → Prop
  | missing : Told read initial none initial
  | present {x : α} {v : β} (h : read x = .ok v) : Told read initial (some x) v

def Tells : (fs : Fields) → fs.Readers ε α → (String → Option α) → fs.Val → Prop
  | nil, _, _, _ => True
  | cons name s _ rest, readers, given, v =>
    Told readers.1 s.initial (given name) v.1 ∧ rest.Tells readers.2 given v.2

theorem Tells.congr {given given' : String → Option α} {v : fs.Val}
    (h : ∀ name ∈ fs.names, given' name = given name) (ht : fs.Tells readers given v) :
    fs.Tells readers given' v := by
  induction fs using Fields.induct with
  | nil => trivial
  | cons name s p rest ih =>
    obtain ⟨hname, hrest⟩ := List.forall_mem_cons.1 h
    exact ⟨hname ▸ ht.1, ih hrest ht.2⟩

theorem Gathers.tells {given : String → List α} {slots : fs.Slots}
    (h : fs.Gathers readers given slots) :
    fs.Tells readers (fun name => (given name).head?) (fs.completed slots) := by
  induction fs using Fields.induct with
  | nil => trivial
  | cons name s p rest ih =>
    obtain ⟨hslot, hrest⟩ := h
    refine ⟨?_, ih hrest⟩
    obtain ⟨slot, slots⟩ := slots
    dsimp only at hslot ⊢
    generalize given name = list at hslot ⊢
    cases hslot with
    | missing => exact .missing
    | single hx => exact .present hx

end Fields

/-! ## Records in documents -/

namespace Json.Document

variable {fs : Fields} {readers : fs.Readers JsonError Document}
  {entries : List (Option String × Document)} {slots : fs.Slots}

/-- The key of the entry can be read, and what is skipped can be skipped. -/
def Admissible (fs : Fields) (e : Option String × Document) : Prop :=
  ∃ key, e.1 = some key ∧ (key ∉ fs.names → e.2.isSound = true)

theorem readEntry_eq_ok_iff {key : String} {d : Document} {slots' : fs.Slots} :
    readEntry fs readers slots (some key, d) = .ok slots' ↔
      (key ∉ fs.names → d.isSound = true) ∧
        fs.gather (fun _ => .mismatch) readers slots (key, d) = .ok slots' := by
  rw [readEntry, Fields.gather]
  by_cases hkey : key ∈ fs.names
  · have hput : fs.put (fun _ => JsonError.mismatch) key d readers slots ≠ .ok none :=
      Fields.put_ne_none hkey readers slots
    cases hfound : fs.put (fun _ => JsonError.mismatch) key d readers slots with
    | error e => exact iff_of_false (fun h => by cases h) fun h => by cases h.2
    | ok found =>
      cases found with
      | none => exact absurd hfound hput
      | some _ => exact ⟨fun h => ⟨fun h' => absurd hkey h', h⟩, And.right⟩
  · rw [Fields.put_of_notMem hkey]
    cases hsound : d.isSound with
    | true => exact ⟨fun h => ⟨fun _ => rfl, h⟩, And.right⟩
    | false => exact iff_of_false (fun h => by cases h) fun h => by cases h.1 hkey

theorem foldlM_readEntry_eq_ok_iff {slots' : fs.Slots} :
    entries.foldlM (readEntry fs readers) slots = .ok slots' ↔
      ∃ named : List (String × Document), entries = named.map (fun e => (some e.1, e.2)) ∧
        (∀ e ∈ named, e.1 ∉ fs.names → e.2.isSound = true) ∧
        named.foldlM (fs.gather (fun _ => .mismatch) readers) slots = .ok slots' := by
  induction entries generalizing slots with
  | nil =>
    constructor
    · exact fun h => ⟨[], rfl, fun _ he => absurd he List.not_mem_nil, h⟩
    · rintro ⟨named, hnamed, -, h⟩
      obtain rfl := List.map_eq_nil_iff.1 hnamed.symm
      exact h
  | cons e entries ih =>
    rw [foldlM_cons_eq_ok_iff]
    constructor
    · rintro ⟨t, hstep, hrun⟩
      obtain ⟨_ | key, d⟩ := e
      · cases hstep
      · obtain ⟨hsound, hgather⟩ := readEntry_eq_ok_iff.1 hstep
        obtain ⟨named, rfl, hall, hnamed⟩ := ih.1 hrun
        exact ⟨(key, d) :: named, rfl, List.forall_mem_cons.2 ⟨hsound, hall⟩,
          foldlM_cons_eq_ok_iff.2 ⟨t, hgather, hnamed⟩⟩
    · rintro ⟨named, hnamed, hall, hrun⟩
      cases named with
      | nil => cases hnamed
      | cons f named =>
        obtain ⟨rfl, rfl⟩ := List.cons.inj hnamed
        obtain ⟨hsound, hall⟩ := List.forall_mem_cons.1 hall
        obtain ⟨t, hgather, hrun⟩ := foldlM_cons_eq_ok_iff.1 hrun
        exact ⟨t, readEntry_eq_ok_iff.2 ⟨hsound, hgather⟩, ih.2 ⟨named, rfl, hall, hrun⟩⟩

theorem exists_named (h : ∀ e ∈ entries, Admissible fs e) :
    ∃ named : List (String × Document), entries = named.map (fun e => (some e.1, e.2)) ∧
      ∀ e ∈ named, e.1 ∉ fs.names → e.2.isSound = true := by
  induction entries with
  | nil => exact ⟨[], rfl, fun _ he => absurd he List.not_mem_nil⟩
  | cons e entries ih =>
    obtain ⟨⟨key, hkey, hsound⟩, hentries⟩ := List.forall_mem_cons.1 h
    obtain ⟨named, rfl, hall⟩ := ih hentries
    refine ⟨(key, e.2) :: named, ?_, List.forall_mem_cons.2 ⟨hsound, hall⟩⟩
    rw [List.map_cons, ← hkey]

theorem inputs_named (named : List (String × Document)) (key : String) :
    inputs (named.map fun e => (some e.1, e.2)) (some key) = inputs named key := by
  simp [inputs, List.filterMap_map]

/-- The entries of an object are read exactly if each of them is admissible and what stands under
the names of the fields is gathered. -/
theorem readEntries_eq_ok_iff (hnames : fs.names.Nodup) :
    readEntries fs readers entries = .ok slots ↔ (∀ e ∈ entries, Admissible fs e) ∧
      fs.Gathers readers (fun name => inputs entries (some name)) slots := by
  rw [readEntries, foldlM_readEntry_eq_ok_iff]
  constructor
  · rintro ⟨named, rfl, hall, hrun⟩
    refine ⟨fun e he => ?_, ?_⟩
    · obtain ⟨f, hf, rfl⟩ := List.mem_map.1 he
      exact ⟨f.1, rfl, hall f hf⟩
    · simp only [inputs_named]
      exact (Fields.foldlM_gather_eq_ok_iff hnames).1 hrun
  · rintro ⟨hall, hgathers⟩
    obtain ⟨named, rfl, hsound⟩ := exists_named hall
    simp only [inputs_named] at hgathers
    exact ⟨named, rfl, hsound, (Fields.foldlM_gather_eq_ok_iff hnames).2 hgathers⟩

/-- What a document gives under a name: an object by its keys, an array by the order of the
fields. -/
def field? (names : List String) (d : Document) (name : String) : Option Document :=
  match d with
  | object entries _ => entries.lookup (some name)
  | array items _ => (names.zip items).lookup name
  | _ => none

theorem field?_object {names : List String} {name : String} {ending : Ending} :
    (object entries ending).field? names name = (inputs entries (some name)).head? :=
  head?_inputs.symm

theorem readItems_tells (hnames : fs.names.Nodup) {items : List Document} {ending : Ending}
    {v : fs.Val} (h : readItems fs readers items ending = .ok v) :
    fs.Tells readers (fun name => (fs.names.zip items).lookup name) v := by
  induction fs using Fields.induct generalizing items with
  | nil => trivial
  | cons name s p rest ih =>
    obtain ⟨hname, hrest⟩ := List.nodup_cons.1 hnames
    cases items with
    | nil =>
      rw [readItems] at h
      by_cases hend : ending = .closed ∧ p = .defaulted
      · rw [if_pos hend] at h
        obtain ⟨vs, hread, hv⟩ := bind_eq_ok_iff.1 h
        obtain rfl := Except.ok.inj hv
        refine ⟨.missing, (ih hrest hread).congr fun key _ => ?_⟩
        rw [List.zip_nil_right, List.zip_nil_right]
      · rw [if_neg hend] at h
        cases h
    | cons d items =>
      rw [readItems] at h
      obtain ⟨first, hfirst, hothers⟩ := bind_eq_ok_iff.1 h
      obtain ⟨vs, hread, hv⟩ := bind_eq_ok_iff.1 hothers
      obtain rfl := Except.ok.inj hv
      refine ⟨?_, (ih hrest hread).congr fun key hkey => ?_⟩
      · rw [Fields.names, List.zip_cons_cons]
        dsimp only
        rw [List.lookup_cons_self]
        exact .present hfirst
      · have hne : key ≠ name := ne_of_mem_of_not_mem hkey hname
        rw [Fields.names, List.zip_cons_cons, List.lookup_cons, beq_false_of_ne hne]

theorem readRecord_object_eq_ok_iff (hfs : fs.Lenient) {ending : Ending} {v : fs.Val} :
    readRecord fs readers (object entries ending) = .ok v ↔ ending = .closed ∧
      ∃ slots, readEntries fs readers entries = .ok slots ∧ fs.completed slots = v := by
  have hfill (slots : fs.Slots) : fillSlots fs slots = .ok (fs.completed slots) := by
    rw [fillSlots, Fields.fill_of_lenient hfs]
  rw [readRecord, bind_eq_ok_iff]
  cases ending with
  | broken =>
    refine iff_of_false ?_ fun h => by cases h.1
    rintro ⟨_, -, h⟩
    cases h
  | closed => simp [hfill]

/-- A record that could be read is told by what the document gives under the names of its fields. -/
theorem readRecord_tells (hfs : fs.Lenient) (hnames : fs.names.Nodup) {d : Document} {v : fs.Val}
    (h : readRecord fs readers d = .ok v) :
    fs.Tells readers (d.field? fs.names) v := by
  cases d with
  | object entries ending =>
    obtain ⟨-, slots, hread, rfl⟩ := (readRecord_object_eq_ok_iff hfs).1 h
    have hgathers := ((readEntries_eq_ok_iff hnames).1 hread).2
    exact hgathers.tells.congr fun _ _ => field?_object
  | array items ending => exact readItems_tells hnames h
  | malformed => cases h
  | null => cases h
  | flag b => cases h
  | number n => cases n <;> cases h
  | text content => cases content <;> cases h

end Json.Document

end MessageBoard
