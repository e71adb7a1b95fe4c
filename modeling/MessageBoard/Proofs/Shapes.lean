import Mathlib
import MessageBoard.Proofs.Documents
import MessageBoard.Proofs.Spelling
import MessageBoard.Shape.Json

/-!
# Values of a shape read back

The document of a written value is read as that value. This takes three things of a shape: an
option within an option would lose what is null, fields of one record must not share a name, and
what the inner record of a flat one holds must be read without going into containers. Fields are
read into slots one after the other, and every entry finds its own slot still empty.
-/

namespace MessageBoard

open Json Json.Document

/-! ## Integers -/

namespace Width

theorem wrap_toInt (w : Width) (n : w.Val) : w.wrap (w.toInt n) = n := by
  cases w with
  | int16 => exact Int16.ofInt_toInt n
  | int64 => exact Int64.ofInt_toInt n
  | uint32 =>
    have hlt : UInt32.toNat n < 2 ^ 32 := UInt32.toNat_lt n
    have hmod : ((UInt32.toNat n : Int) % 2 ^ 32).toNat = UInt32.toNat n := by omega
    rw [toInt, wrap, UInt32.ofInt, hmod, UInt32.ofNat_toNat]
  | uint64 =>
    have hlt : UInt64.toNat n < 2 ^ 64 := UInt64.toNat_lt n
    have hmod : ((UInt64.toNat n : Int) % 2 ^ 64).toNat = UInt64.toNat n := by omega
    rw [toInt, wrap, UInt64.ofInt, hmod, UInt64.ofNat_toNat]

theorem ofInt?_toInt (w : Width) (n : w.Val) : w.ofInt? (w.toInt n) = some n := by
  rw [ofInt?, wrap_toInt, if_pos rfl]

theorem natAbs_toInt_lt (w : Width) (n : w.Val) : (w.toInt n).natAbs < 2 ^ 64 := by
  cases w with
  | int16 =>
    have hlow : -2 ^ 15 ≤ Int16.toInt n := Int16.le_toInt n
    have hhigh : Int16.toInt n < 2 ^ 15 := Int16.toInt_lt n
    show (Int16.toInt n).natAbs < 2 ^ 64
    omega
  | int64 =>
    have hlow : -2 ^ 63 ≤ Int64.toInt n := Int64.le_toInt n
    have hhigh : Int64.toInt n < 2 ^ 63 := Int64.toInt_lt n
    show (Int64.toInt n).natAbs < 2 ^ 64
    omega
  | uint32 =>
    have hlt : UInt32.toNat n < 2 ^ 32 := UInt32.toNat_lt n
    show ((UInt32.toNat n : Int)).natAbs < 2 ^ 64
    omega
  | uint64 =>
    have hlt : UInt64.toNat n < 2 ^ 64 := UInt64.toNat_lt n
    show ((UInt64.toNat n : Int)).natAbs < 2 ^ 64
    omega

end Width

mutual

theorem Shape.modest_toJson : (s : Shape) → (v : s.Val) → (s.toJson v).Modest
  | .uuid, _ => .text _
  | .text, _ => .text _
  | .flag, _ => .flag _
  | .instant, _ => .text _
  | .number w, n => .int _ (w.natAbs_toInt_lt n)
  | .option _, none => .null
  | .option s, some v => s.modest_toJson v
  | .list s, vs => by
    refine .array _ fun j hj => ?_
    obtain ⟨v, -, rfl⟩ := List.mem_map.1 hj
    exact s.modest_toJson v
  | .record fs, v => .object _ (fs.modest_toEntries v)
  | .flat inner own, v => by
    refine .object _ fun e he => ?_
    rcases List.mem_append.1 he with he | he
    · exact inner.modest_toEntries v.1 e he
    · exact own.modest_toEntries v.2 e he

theorem Fields.modest_toEntries : (fs : Fields) → (v : fs.Val) → ∀ e ∈ fs.toEntries v, e.2.Modest
  | .nil, _ => fun _ he => absurd he List.not_mem_nil
  | .cons _ s _ rest, v =>
    List.forall_mem_cons.2 ⟨s.modest_toJson v.1, rest.modest_toEntries v.2⟩

end

/-! ## Faithful shapes -/

/-- Values that hold no other values, or that may be absent altogether. -/
@[simp]
def Shape.IsPlain : Shape → Prop
  | .option s => s.IsPlain
  | .list _ => False
  | .record _ => False
  | .flat _ _ => False
  | _ => True

@[simp]
def Shape.IsOption : Shape → Prop
  | .option _ => True
  | _ => False

@[simp]
def Fields.ArePlain : Fields → Prop
  | .nil => True
  | .cons _ s _ rest => s.IsPlain ∧ rest.ArePlain

mutual

/-- Different values of the shape are written differently. -/
@[simp]
def Shape.Faithful : Shape → Prop
  | .option s => ¬ s.IsOption ∧ s.Faithful
  | .list s => s.Faithful
  | .record fs => fs.names.Nodup ∧ fs.Faithful
  | .flat inner own =>
    (inner.names ++ own.names).Nodup ∧ inner.ArePlain ∧ inner.Faithful ∧ own.Faithful
  | _ => True

@[simp]
def Fields.Faithful : Fields → Prop
  | .nil => True
  | .cons _ s _ rest => s.Faithful ∧ rest.Faithful

end

/-- Written values of the shape are read as they were. -/
def Shape.ReadsBack (s : Shape) : Prop := ∀ v, s.read (s.toJson v).document = .ok v

def Fields.ReadBack : Fields → Prop
  | .nil => True
  | .cons _ s _ rest => s.ReadsBack ∧ rest.ReadBack

theorem Shape.document_ne_null {s : Shape} (hs : ¬ s.IsOption) (v : s.Val) :
    (s.toJson v).document ≠ .null := by
  cases s with
  | option s => exact absurd trivial hs
  | _ => simp [Shape.toJson, document]

theorem Shape.isStrict_document {s : Shape} (hs : s.IsPlain) (v : s.Val) (depth : Nat) :
    isStrict depth (s.toJson v).document = true := by
  induction s using Shape.IsPlain.induct with
  | case1 s ih =>
    cases v with
    | none => rfl
    | some v => exact ih hs v
  | case2 s => exact hs.elim
  | case3 fs => exact hs.elim
  | case4 inner own => exact hs.elim
  | case5 s hoption hlist hrecord hflat =>
    cases s with
    | option s => exact absurd rfl (hoption s)
    | list s => exact absurd rfl (hlist s)
    | record fs => exact absurd rfl (hrecord fs)
    | flat inner own => exact absurd rfl (hflat inner own)
    | _ => rfl

/-! ## Slots -/

section

variable {ε α β σ τ : Type}

/-- Steps that agree with other steps by way of a map agree with them in the long run. -/
theorem foldlM_lift {f : σ → α → Except ε σ} {f' : τ → α → Except ε τ} (g : σ → τ) {l : List α}
    (h : ∀ a ∈ l, ∀ s, f' (g s) a = (f s a).map g) (s : σ) :
    l.foldlM f' (g s) = (l.foldlM f s).map g := by
  induction l generalizing s with
  | nil => rfl
  | cons a l ih =>
    obtain ⟨ha, hl⟩ := List.forall_mem_cons.1 h
    rw [List.foldlM_cons, List.foldlM_cons, ha]
    cases f s a with
    | error e => rfl
    | ok t => exact ih hl t

theorem foldlM_id {f : σ → α → Except ε σ} {l : List α} {s : σ} (h : ∀ a ∈ l, f s a = .ok s) :
    l.foldlM f s = .ok s := by
  induction l with
  | nil => rfl
  | cons a l ih =>
    obtain ⟨ha, hl⟩ := List.forall_mem_cons.1 h
    rw [List.foldlM_cons, ha]
    exact ih hl

end

namespace Fields

variable {ε α : Type}

theorem induct {P : Fields → Prop} (nil : P nil)
    (cons : ∀ name s p rest, P rest → P (cons name s p rest)) : (fs : Fields) → P fs
  | .nil => nil
  | .cons name s p rest => cons name s p rest (induct nil cons rest)

def fullSlots : (fs : Fields) → fs.Val → fs.Slots
  | nil, _ => ()
  | cons _ _ _ rest, v => (some v.1, rest.fullSlots v.2)

theorem fill_fullSlots (fs : Fields) (v : fs.Val) : fs.fill (fs.fullSlots v) = some v := by
  induction fs using induct with
  | nil => rfl
  | cons name s p rest ih => simp [fill, fullSlots, ih v.2]

theorem mem_names_of_mem_toEntries {fs : Fields} {v : fs.Val} {e : String × Json}
    (he : e ∈ fs.toEntries v) : e.1 ∈ fs.names := by
  induction fs using induct with
  | nil => exact absurd he List.not_mem_nil
  | cons name s p rest ih =>
    rcases List.mem_cons.1 he with rfl | he
    · exact List.mem_cons_self
    · exact List.mem_cons_of_mem _ (ih he)

variable {fs : Fields} {repeated : String → ε} {key : String} {input : α}

theorem put_cons_of_ne {name : String} (hne : key ≠ name) {s : Shape} {p : Presence}
    (readers : (cons name s p fs).Readers ε α) (slots : (cons name s p fs).Slots) :
    (cons name s p fs).put repeated key input readers slots =
      (fs.put repeated key input readers.2 slots.2).map (Option.map (slots.1, ·)) := by
  obtain ⟨read, readers⟩ := readers
  obtain ⟨slot, slots⟩ := slots
  cases slot <;> rw [put, if_neg hne]

theorem put_of_notMem (hkey : key ∉ fs.names) (readers : fs.Readers ε α) (slots : fs.Slots) :
    fs.put repeated key input readers slots = .ok none := by
  induction fs using induct with
  | nil => rfl
  | cons name s p rest ih =>
    rw [put_cons_of_ne (List.ne_of_not_mem_cons hkey), ih (List.not_mem_of_not_mem_cons hkey)]
    rfl

theorem put_ne_none (hkey : key ∈ fs.names) (readers : fs.Readers ε α) (slots : fs.Slots) :
    fs.put repeated key input readers slots ≠ .ok none := by
  induction fs using induct with
  | nil => exact absurd hkey List.not_mem_nil
  | cons name s p rest ih =>
    by_cases hname : key = name
    · obtain ⟨read, readers⟩ := readers
      obtain ⟨slot, slots⟩ := slots
      cases slot with
      | some v =>
        rw [put, if_pos hname]
        exact nofun
      | none =>
        rw [put, if_pos hname]
        cases read input <;> exact nofun
    · have hrest := ih (List.mem_of_ne_of_mem hname hkey) readers.2 slots.2
      rw [put_cons_of_ne hname]
      cases hput : rest.put repeated key input readers.2 slots.2 with
      | error e => exact nofun
      | ok found =>
        cases found with
        | none => exact absurd hput hrest
        | some slots => exact nofun

end Fields

namespace Json.Document

variable {fs inner own : Fields}

theorem readEntry_of_ne {name key : String} (hne : key ≠ name) {s : Shape} {p : Presence}
    (readers : (Fields.cons name s p fs).Readers JsonError Document) (slot : Option s.Val)
    (slots : fs.Slots) (d : Document) :
    readEntry (.cons name s p fs) readers (slot, slots) (some key, d) =
      (readEntry fs readers.2 slots (some key, d)).map (slot, ·) := by
  rw [readEntry, readEntry, Fields.put_cons_of_ne hne]
  cases fs.put (fun _ => JsonError.mismatch) key d readers.2 slots with
  | error e => rfl
  | ok found =>
    cases found with
    | none => cases d.isSound <;> rfl
    | some slots => rfl

theorem readEntry_first {name : String} {s : Shape} {p : Presence} {v : s.Val} {d : Document}
    (hread : s.read d = .ok v) (slots : fs.Slots) :
    readEntry (.cons name s p fs) (Fields.jsonReaders _) (none, slots) (some name, d) =
      .ok (some v, slots) := by
  simp only [readEntry, Fields.jsonReaders, Fields.put, if_pos, hread]
  rfl

theorem readEntry_of_notMem {key : String} (hkey : key ∉ fs.names) {d : Document}
    (hd : d.isSound = true) (readers : fs.Readers JsonError Document) (slots : fs.Slots) :
    readEntry fs readers slots (some key, d) = .ok slots := by
  simp only [readEntry, Fields.put_of_notMem hkey, bind, Except.bind, if_pos hd]
  rfl

theorem forall_entryDocuments {v : fs.Val} {Q : Option String × Document → Prop}
    (h : ∀ key ∈ fs.names, ∀ j : Json, Q (some key, j.document)) :
    ∀ e ∈ entryDocuments (fs.toEntries v), Q e := by
  intro e he
  rw [entryDocuments_eq] at he
  obtain ⟨e, hmem, rfl⟩ := List.mem_map.1 he
  exact h e.1 (Fields.mem_names_of_mem_toEntries hmem) e.2

theorem foldlM_readEntry (hnames : fs.names.Nodup) (hfs : fs.ReadBack) (v : fs.Val) :
    (entryDocuments (fs.toEntries v)).foldlM (readEntry fs fs.jsonReaders) fs.noSlots =
      .ok (fs.fullSlots v) := by
  induction fs using Fields.induct with
  | nil => rfl
  | cons name s p rest ih =>
    obtain ⟨hname, hnames⟩ := List.nodup_cons.1 hnames
    obtain ⟨hs, hrest⟩ := hfs
    have hlater : ∀ e ∈ entryDocuments (rest.toEntries v.2), ∀ slots : rest.Slots,
        readEntry (.cons name s p rest) (Fields.jsonReaders _) (some v.1, slots) e =
          (readEntry rest rest.jsonReaders slots e).map (some v.1, ·) :=
      forall_entryDocuments fun key hkey j slots =>
        readEntry_of_ne (ne_of_mem_of_not_mem hkey hname) _ _ _ _
    rw [Fields.toEntries, entryDocuments, List.foldlM_cons, Fields.noSlots,
      readEntry_first (hs v.1)]
    show List.foldlM _ (some v.1, rest.noSlots) _ = _
    rw [foldlM_lift _ hlater, ih hnames hrest]
    rfl

theorem readEntries_toEntries (hnames : fs.names.Nodup) (hfs : fs.ReadBack) (v : fs.Val)
    {others : List (Option String × Document)}
    (hothers : ∀ e ∈ others, ∀ slots, readEntry fs fs.jsonReaders slots e = .ok slots) :
    readEntries fs fs.jsonReaders (entryDocuments (fs.toEntries v) ++ others) =
      .ok (fs.fullSlots v) := by
  rw [readEntries, List.foldlM_append, foldlM_readEntry hnames hfs]
  exact foldlM_id fun e he => hothers e he _

theorem fillSlots_fullSlots (v : fs.Val) : fillSlots fs (fs.fullSlots v) = .ok v := by
  rw [fillSlots, Fields.fill_fullSlots]

theorem readFlatEntry_of_mem {key : String} (hkey : key ∈ own.names)
    (readers : own.Readers JsonError Document) (kept : List (Option String × Document))
    (d : Document) (slots : own.Slots) :
    readFlatEntry own readers (slots, kept) (some key, d) =
      (readEntry own readers slots (some key, d)).map (·, kept) := by
  have hput : own.put (fun _ => JsonError.mismatch) key d readers slots ≠ .ok none :=
    Fields.put_ne_none hkey readers slots
  rw [readFlatEntry, readEntry]
  cases h : own.put (fun _ => JsonError.mismatch) key d readers slots with
  | error e => rfl
  | ok found =>
    cases found with
    | none => exact absurd h hput
    | some slots => rfl

theorem readFlatEntry_of_notMem {key : String} (hkey : key ∉ own.names)
    (readers : own.Readers JsonError Document) {d : Document}
    (hd : isStrict (maxDepth - 1) d = true) (kept : List (Option String × Document))
    (slots : own.Slots) :
    readFlatEntry own readers (slots, kept) (some key, d) = .ok (slots, (some key, d) :: kept) := by
  simp only [readFlatEntry, Fields.put_of_notMem hkey, bind, Except.bind, if_pos hd]
  rfl

theorem foldlM_readFlatEntry_inner (hplain : inner.ArePlain)
    (hapart : ∀ key ∈ inner.names, key ∉ own.names) (v : inner.Val)
    (readers : own.Readers JsonError Document) (slots : own.Slots)
    (kept : List (Option String × Document)) :
    (entryDocuments (inner.toEntries v)).foldlM (readFlatEntry own readers) (slots, kept) =
      .ok (slots, (entryDocuments (inner.toEntries v)).reverse ++ kept) := by
  induction inner using Fields.induct generalizing kept with
  | nil => rfl
  | cons name s p rest ih =>
    obtain ⟨hs, hrest⟩ := hplain
    obtain ⟨hname, hapart⟩ := List.forall_mem_cons.1 hapart
    have hfirst := readFlatEntry_of_notMem hname readers
      (Shape.isStrict_document hs v.1 (maxDepth - 1)) kept slots
    have hlater := ih hrest hapart v.2 ((some name, (s.toJson v.1).document) :: kept)
    rw [Fields.toEntries, entryDocuments, List.foldlM_cons, hfirst, List.reverse_cons,
      List.append_assoc]
    exact hlater

theorem foldlM_readFlatEntry_own (hnames : own.names.Nodup) (hown : own.ReadBack) (v : own.Val)
    (kept : List (Option String × Document)) :
    (entryDocuments (own.toEntries v)).foldlM (readFlatEntry own own.jsonReaders)
      (own.noSlots, kept) = .ok (own.fullSlots v, kept) := by
  have hstep : ∀ e ∈ entryDocuments (own.toEntries v), ∀ slots : own.Slots,
      readFlatEntry own own.jsonReaders (slots, kept) e =
        (readEntry own own.jsonReaders slots e).map (·, kept) :=
    forall_entryDocuments fun key hkey j slots => readFlatEntry_of_mem hkey _ _ _ _
  rw [foldlM_lift (·, kept) hstep, foldlM_readEntry hnames hown]
  rfl

theorem readOption_of_ne_null {α : Type} {read : Document → Except JsonError α} {d : Document}
    (hd : d ≠ .null) : readOption read d = (read d).map some := by
  unfold readOption
  split
  · exact absurd rfl hd
  · rfl

theorem mapM_read {s : Shape} (hs : s.ReadsBack) (vs : List s.Val) :
    (itemDocuments (vs.map s.toJson)).mapM s.read = .ok vs := by
  induction vs with
  | nil => rfl
  | cons v vs ih =>
    rw [List.map_cons, itemDocuments, List.mapM_cons, hs v, ih]
    rfl

end Json.Document

/-! ## Shapes -/

theorem entryDocuments_append (left right : List (String × Json)) :
    entryDocuments (left ++ right) = entryDocuments left ++ entryDocuments right := by
  simp only [entryDocuments_eq, List.map_append]

/-- The record that a text begins with is read from it, also if more entries follow. -/
theorem read_record_append {fs : Fields} (hnames : fs.names.Nodup) (hfs : fs.ReadBack) (v : fs.Val)
    {others : List (String × Json)} (hothers : ∀ e ∈ others, e.1 ∉ fs.names) :
    (Shape.record fs).read (Json.object (fs.toEntries v ++ others)).document = .ok v := by
  have hskip : ∀ e ∈ entryDocuments others, ∀ slots,
      readEntry fs fs.jsonReaders slots e = .ok slots := by
    intro e he slots
    rw [entryDocuments_eq] at he
    obtain ⟨e, hmem, rfl⟩ := List.mem_map.1 he
    exact readEntry_of_notMem (hothers e hmem) e.2.isSound_document _ slots
  rw [Shape.read, document, readRecord, entryDocuments_append,
    readEntries_toEntries hnames hfs v hskip]
  exact fillSlots_fullSlots v

theorem readsBack_flat {inner own : Fields} (hnames : (inner.names ++ own.names).Nodup)
    (hplain : inner.ArePlain) (hinner : inner.ReadBack) (hown : own.ReadBack) :
    (Shape.flat inner own).ReadsBack := by
  intro v
  obtain ⟨hinnerNames, hownNames, hdisjoint⟩ := List.nodup_append'.1 hnames
  have hapart : ∀ key ∈ inner.names, key ∉ own.names := fun _ h => hdisjoint h
  have hentries : (entryDocuments (inner.toEntries v.1 ++ own.toEntries v.2)).foldlM
      (readFlatEntry own own.jsonReaders) (own.noSlots, []) =
      .ok (own.fullSlots v.2, (entryDocuments (inner.toEntries v.1)).reverse) := by
    rw [entryDocuments_append, List.foldlM_append, foldlM_readFlatEntry_inner hplain hapart,
      List.append_nil]
    exact foldlM_readFlatEntry_own hownNames hown v.2 _
  have hkept : readEntries inner inner.jsonReaders (entryDocuments (inner.toEntries v.1)) =
      .ok (inner.fullSlots v.1) := foldlM_readEntry hinnerNames hinner v.1
  rw [Shape.read, Shape.toJson, document, readFlat, hentries]
  simp only [bind, Except.bind, List.reverse_reverse, hkept, fillSlots_fullSlots, if_pos]
  rfl

mutual

theorem Shape.readsBack : (s : Shape) → s.Faithful → s.ReadsBack
  | .uuid, _ => fun u => by
    rw [Shape.read, Shape.toJson, document, readText, Uuid.ofText_toText]
  | .text, _ => fun _ => rfl
  | .flag, _ => fun _ => rfl
  | .instant, _ => fun t => by
    rw [Shape.read, Shape.toJson, document, readText, Instant.ofText?_toText]
  | .number w, _ => fun n => by
    rw [Shape.read, Shape.toJson, document, readNumber, w.ofInt?_toInt]
  | .option s, ⟨hnull, hs⟩ => fun v => by
    cases v with
    | none => rfl
    | some v =>
      rw [Shape.read, Shape.toJson, readOption_of_ne_null (Shape.document_ne_null hnull v),
        s.readsBack hs v]
      rfl
  | .list s, hs => fun vs => by
    rw [Shape.read, Shape.toJson, document, readList, mapM_read (s.readsBack hs) vs]
    rfl
  | .record fs, ⟨hnames, hfs⟩ => fun v => by
    have hread : (Shape.record fs).read (Json.object (fs.toEntries v ++ [])).document = .ok v :=
      read_record_append hnames (fs.readBack hfs) v nofun
    rwa [List.append_nil] at hread
  | .flat inner own, ⟨hnames, hplain, hinner, hown⟩ =>
    readsBack_flat hnames hplain (inner.readBack hinner) (own.readBack hown)

theorem Fields.readBack : (fs : Fields) → fs.Faithful → fs.ReadBack
  | .nil, _ => trivial
  | .cons _ s _ rest, ⟨hs, hrest⟩ => ⟨s.readsBack hs, rest.readBack hrest⟩

end

end MessageBoard
