import Mathlib
import MessageBoard.Proofs.Answers
import MessageBoard.Proofs.Encoding
import MessageBoard.Proofs.Gathering
import MessageBoard.Proofs.Placeholders

/-!
# What a request changes

A request that changes a row sends one statement, which sets the columns that the body gives a value
for and the time of change, in the row that the path names. Nothing else in the body matters: not
the identifier in it, nor unknown keys, nor the order of the keys, nor whether a field that is not
to change is left out or null.
-/

namespace MessageBoard

open Json Json.Document

/-! ## Documents that are read -/

namespace Json.Document

variable {α : Type} {d : Document} {v : α}

theorem eq_text_of_read {read : String → Option α} (h : readText read d = .ok v) :
    ∃ s, d = .text (some s) ∧ read s = some v := by
  cases d with
  | text content =>
    cases content with
    | none => cases h
    | some s =>
      rw [readText] at h
      cases hs : read s with
      | none =>
        rw [hs] at h
        cases h
      | some w =>
        rw [hs] at h
        exact ⟨s, rfl, hs.trans (congrArg some (Except.ok.inj h))⟩
  | number n => cases n <;> cases h
  | _ => cases h

theorem eq_flag_of_read {b : Bool} (h : readFlag d = .ok b) : d = .flag b := by
  cases d with
  | flag c => exact congrArg flag (Except.ok.inj h)
  | text content => cases content <;> cases h
  | number n => cases n <;> cases h
  | _ => cases h

theorem eq_number_of_read {w : Width} {m : w.Val} (h : readNumber w d = .ok m) :
    ∃ n, d = .number (.int n) ∧ w.ofInt? n = some m := by
  cases d with
  | number n =>
    cases n with
    | int n =>
      rw [readNumber] at h
      cases hn : w.ofInt? n with
      | none =>
        rw [hn] at h
        cases h
      | some k =>
        rw [hn] at h
        exact ⟨n, rfl, hn.trans (congrArg some (Except.ok.inj h))⟩
    | _ => cases h
  | text content => cases content <;> cases h
  | _ => cases h

end Json.Document

/-! ## Optional fields -/

namespace ColumnType

@[reducible] def shape : ColumnType → Shape
  | uuid => .uuid
  | text => .text
  | flag => .flag
  | instant => .instant
  | int => .number .int64

def present : (t : ColumnType) → t.shape.Val → Value
  | uuid, c => .uuid (some c)
  | text, c => .text (some c)
  | flag, c => .flag (some c)
  | instant, c => .instant (some c)
  | int, c => .int (some c)

def given? : ColumnType → Document → Option Value
  | uuid, .text (some s) => (Uuid.ofText s).map fun u => .uuid (some u)
  | text, .text (some s) => some (.text (some s))
  | flag, .flag b => some (.flag (some b))
  | instant, .text (some s) => (Instant.ofText? s).map fun t => .instant (some t)
  | int, .number (.int n) => (Width.int64.ofInt? n).map fun n => .int (some n)
  | _, _ => none

theorem given?_of_read {t : ColumnType} {d : Document} {c : t.shape.Val}
    (h : t.shape.read d = .ok c) : t.given? d = some (t.present c) := by
  cases t with
  | uuid =>
    obtain ⟨s, rfl, hs⟩ := eq_text_of_read h
    rw [given?, hs, Option.map_some, present]
  | text =>
    obtain ⟨s, rfl, hs⟩ := eq_text_of_read h
    rw [given?, present, Option.some.inj hs]
  | flag =>
    obtain rfl := eq_flag_of_read h
    rfl
  | instant =>
    obtain ⟨s, rfl, hs⟩ := eq_text_of_read h
    rw [given?, hs, Option.map_some, present]
  | int =>
    obtain ⟨n, rfl, hn⟩ := eq_number_of_read h
    rw [given?, hn, Option.map_some, present]

theorem given?_null (t : ColumnType) : t.given? .null = none := by
  cases t <;> rfl

theorem type_present (t : ColumnType) (c : t.shape.Val) : (t.present c).type = t := by
  cases t <;> rfl

theorem isNull_of_given? {t : ColumnType} {d : Document} {v : Value} (h : t.given? d = some v) :
    v.isNull = false := by
  unfold given? at h
  split at h
  · obtain ⟨u, -, rfl⟩ := Option.map_eq_some_iff.1 h
    rfl
  · obtain rfl := Option.some.inj h
    rfl
  · obtain rfl := Option.some.inj h
    rfl
  · obtain ⟨t, -, rfl⟩ := Option.map_eq_some_iff.1 h
    rfl
  · obtain ⟨n, -, rfl⟩ := Option.map_eq_some_iff.1 h
    rfl
  · cases h

theorem isNull_present (t : ColumnType) (c : t.shape.Val) : (t.present c).isNull = false := by
  cases t <;> rfl

end ColumnType

@[reducible] def optionalFields : List (String × ColumnType) → Fields
  | [] => .nil
  | (name, t) :: columns => .cons name (.option t.shape) .required (optionalFields columns)

def optionalValues : (columns : List (String × ColumnType)) → (optionalFields columns).Val →
    List (String × Value)
  | [], _ => []
  | (name, t) :: columns, v =>
    (v.1.map fun c => (name, t.present c)).toList ++ optionalValues columns v.2

def givenValues (columns : List (String × ColumnType)) (given : String → Option Document) :
    List (String × Value) :=
  columns.filterMap fun (name, t) => ((given name).bind t.given?).map fun v => (name, v)

def AreTyped (columns : List (String × ColumnType)) (given : String → Option Document) : Prop :=
  ∀ column ∈ columns, ∀ d, given column.1 = some d → d ≠ .null →
    ∃ v, column.2.given? d = some v ∧ v.type = column.2 ∧ v.isNull = false

theorem exists_of_mem_givenValues {columns : List (String × ColumnType)}
    {given : String → Option Document} {e : String × Value} (he : e ∈ givenValues columns given) :
    e.1 ∈ columns.map (·.1) ∧ e.2.isNull = false := by
  obtain ⟨⟨name, t⟩, hcolumn, hvalue⟩ := List.mem_filterMap.1 he
  obtain ⟨v, hv, rfl⟩ := Option.map_eq_some_iff.1 hvalue
  obtain ⟨d, -, hd⟩ := Option.bind_eq_some_iff.1 hv
  exact ⟨List.mem_map_of_mem hcolumn, ColumnType.isNull_of_given? hd⟩

section Optional

variable {columns : List (String × ColumnType)} {given given' : String → Option Document}

theorem lenient_optionalFields : (optionalFields columns).Lenient := by
  induction columns with
  | nil => trivial
  | cons column columns ih => exact ⟨.inl trivial, ih⟩

/-- An optional field is null or of its type, and only then it is there. -/
theorem told_option {t : ColumnType} {d? : Option Document} {v : Option t.shape.Val}
    (h : Fields.Told (readOption t.shape.read) none d? v) :
    (d?.bind t.given?) = v.map t.present ∧
      ∀ d, d? = some d → d ≠ .null → ∃ c, t.given? d = some (t.present c) := by
  cases h with
  | missing => exact ⟨rfl, fun _ => nofun⟩
  | @present d _ hread =>
    by_cases hnull : d = .null
    · subst hnull
      obtain rfl := Except.ok.inj hread
      exact ⟨t.given?_null, fun d hd hne => absurd (Option.some.inj hd).symm hne⟩
    · rw [readOption_of_ne_null hnull] at hread
      cases hc : t.shape.read d with
      | error e =>
        rw [hc] at hread
        cases hread
      | ok c =>
        rw [hc] at hread
        obtain rfl := Except.ok.inj hread
        have hgiven := ColumnType.given?_of_read hc
        exact ⟨hgiven, fun d' hd _ => ⟨c, Option.some.inj hd ▸ hgiven⟩⟩

theorem optionalValues_eq {v : (optionalFields columns).Val}
    (h : (optionalFields columns).Tells (optionalFields columns).jsonReaders given v) :
    optionalValues columns v = givenValues columns given ∧ AreTyped columns given := by
  induction columns with
  | nil => exact ⟨rfl, fun _ hmem => absurd hmem List.not_mem_nil⟩
  | cons column columns ih =>
    obtain ⟨name, t⟩ := column
    obtain ⟨htold, hrest⟩ := h
    obtain ⟨hbind, htyped⟩ := told_option htold
    obtain ⟨hvalues, hothers⟩ := ih hrest
    constructor
    · rw [optionalValues, hvalues, givenValues, givenValues, List.filterMap_cons]
      dsimp only
      rw [hbind]
      cases v.1 <;> rfl
    · refine List.forall_mem_cons.2 ⟨fun d hd hne => ?_, hothers⟩
      obtain ⟨c, hc⟩ := htyped d hd hne
      exact ⟨t.present c, hc, t.type_present c, t.isNull_present c⟩

end Optional

/-! ## Patches -/

namespace Resource

/-- The columns that a patch can change, with their types, in the order of its fields. -/
def patchColumns : Resource → List (String × ColumnType)
  | user => [("name", .text), ("username", .text), ("email", .text)]
  | forum => [("owner_id", .uuid), ("name", .text), ("description", .text)]
  | thread => [("forum_id", .uuid), ("author_id", .uuid), ("title", .text), ("is_locked", .flag)]
  | post => [("reply_to", .uuid), ("content", .text)]

@[reducible] def patchFields (r : Resource) : Fields :=
  .cons "id" .uuid .defaulted (optionalFields r.patchColumns)

def patchOf : (r : Resource) → r.patchFields.Val → r.Patch
  | user => UserPatch.wire.ofVal
  | forum => ForumPatch.wire.ofVal
  | thread => ThreadPatch.wire.ofVal
  | post => PostPatch.wire.ofVal

variable {r : Resource} {id : Uuid} {v : r.patchFields.Val}

theorem nodup_patchFields (r : Resource) : r.patchFields.names.Nodup := by cases r <;> decide

theorem lenient_patchFields (r : Resource) : r.patchFields.Lenient :=
  ⟨.inr rfl, lenient_optionalFields⟩

theorem supplied_eq {α : Type} (column : String) (value : Option α → Value) (content : Option α) :
    supplied column value content = (content.map fun a => (column, value (some a))).toList := by
  cases content <;> rfl

theorem assignments_patchOf : r.assignments (r.patchOf v) = optionalValues r.patchColumns v.2 := by
  refine (List.append_nil _).symm.trans ?_
  cases r with
  | user =>
    simp only [assignments, UserPatch.assignments, supplied_eq, List.append_assoc]
    rfl
  | forum =>
    simp only [assignments, ForumPatch.assignments, supplied_eq, List.append_assoc]
    rfl
  | thread =>
    simp only [assignments, ThreadPatch.assignments, supplied_eq, List.append_assoc]
    rfl
  | post =>
    simp only [assignments, PostPatch.assignments, supplied_eq, List.append_assoc]
    rfl

theorem aim_patchOf : r.aim id (r.patchOf v) = r.patchOf (id, v.2) := by
  cases r <;> rfl

theorem patchId_aim (p : r.Patch) : r.patchId (r.aim id p) = id := by
  cases r <;> rfl

theorem exists_patchWire_eq (r : Resource) :
    ∃ toVal, r.patchWire = ⟨.record r.patchFields, toVal, r.patchOf⟩ := by
  cases r <;> exact ⟨_, rfl⟩

theorem ofChars_eq_ok_iff {cs : List (Option Char)} {p : r.Patch} :
    r.patchWire.ofChars cs = .ok p ↔ (Document.ofChars cs).2 = false ∧
      ∃ v, readRecord r.patchFields r.patchFields.jsonReaders (Document.ofChars cs).1 = .ok v ∧
        r.patchOf v = p := by
  obtain ⟨toVal, hwire⟩ := r.exists_patchWire_eq
  rw [hwire, Wire.ofChars]
  obtain ⟨d, more⟩ := Document.ofChars cs
  dsimp only
  rw [Shape.read]
  cases readRecord r.patchFields r.patchFields.jsonReaders d with
  | error e => exact iff_of_false (fun h => by cases h) fun ⟨_, _, h, _⟩ => by cases h
  | ok v => cases more <;> simp

end Resource

/-! ## Bodies that say the same -/

/-- A field is left out or null. -/
def Silent (ds : List Document) : Prop := ds = [] ∨ ds = [.null]

/-- The same is given for each of the columns, or nothing is. -/
def SaysSame (columns : List String) (given given' : String → Option Document) : Prop :=
  ∀ column ∈ columns, given' column = given column ∨
    Silent (given column).toList ∧ Silent (given' column).toList

section Same

variable {columns : List (String × ColumnType)} {t : ColumnType}

theorem eq_none_of_silent {d? : Option Document} (hd : Silent d?.toList) {v : Option t.shape.Val}
    (h : Fields.Told (readOption t.shape.read) none d? v) : v = none := by
  cases h with
  | missing => rfl
  | @present d _ hread =>
    obtain rfl : d = .null := by simpa [Silent] using hd
    exact (Except.ok.inj hread).symm

theorem told_unique {d? : Option Document} {v v' : Option t.shape.Val}
    (h : Fields.Told (readOption t.shape.read) none d? v)
    (h' : Fields.Told (readOption t.shape.read) none d? v') : v' = v := by
  cases h with
  | missing =>
    cases h'
    rfl
  | present hread =>
    cases h' with
    | present hread' => exact Except.ok.inj (hread'.symm.trans hread)

theorem tells_unique {given given' : String → Option Document}
    {v v' : (optionalFields columns).Val} (hsame : SaysSame (columns.map (·.1)) given given')
    (h : (optionalFields columns).Tells (optionalFields columns).jsonReaders given v)
    (h' : (optionalFields columns).Tells (optionalFields columns).jsonReaders given' v') :
    v' = v := by
  induction columns with
  | nil => rfl
  | cons column columns ih =>
    obtain ⟨hcolumn, hrest⟩ := List.forall_mem_cons.1 hsame
    refine Prod.ext ?_ (ih hrest h.2 h'.2)
    rcases hcolumn with heq | ⟨hsilent, hsilent'⟩
    · exact told_unique h.1 (heq ▸ h'.1)
    · rw [eq_none_of_silent hsilent h.1]
      exact eq_none_of_silent hsilent' h'.1

/-- What is gathered once is gathered as well where fields that are not there are null, or the other
way round. -/
theorem exists_gathers {given given' : String → List Document}
    (hsame : ∀ column ∈ columns.map (·.1), given' column = given column ∨
      Silent (given column) ∧ Silent (given' column))
    {slots : (optionalFields columns).Slots}
    (h : (optionalFields columns).Gathers (optionalFields columns).jsonReaders given slots) :
    ∃ slots',
      (optionalFields columns).Gathers (optionalFields columns).jsonReaders given' slots' := by
  induction columns with
  | nil => exact ⟨(), trivial⟩
  | cons column columns ih =>
    obtain ⟨hcolumn, hrest⟩ := List.forall_mem_cons.1 hsame
    obtain ⟨slots', hslots'⟩ := ih hrest h.2
    rcases hcolumn with heq | ⟨-, hnil | hnull⟩
    · exact ⟨(slots.1, slots'), heq ▸ h.1, hslots'⟩
    · exact ⟨(none, slots'), hnil ▸ .missing, hslots'⟩
    · exact ⟨(some none, slots'), hnull ▸ .single rfl, hslots'⟩

end Same

/-- The entries of two objects give the same for every column. The second object has an identifier
that can be read, if any, and what is skipped of it is well formed. -/
structure Resource.Alike (r : Resource) (entries entries' : List (Option String × Document)) :
    Prop where
  columns : ∀ column ∈ r.patchColumns.map (·.1),
    inputs entries' (some column) = inputs entries (some column) ∨
      Silent (inputs entries (some column)) ∧ Silent (inputs entries' (some column))
  id : inputs entries' (some "id") = [] ∨ ∃ (s : String) (id : Uuid),
    inputs entries' (some "id") = [.text (some s)] ∧ Uuid.ofText s = some id
  others : ∀ e ∈ entries', Admissible r.patchFields e

namespace Resource.Alike

variable {r : Resource} {entries entries' : List (Option String × Document)}

theorem saysSame (h : r.Alike entries entries') {ending ending' : Ending} (names : List String) :
    SaysSame (r.patchColumns.map (·.1)) ((Document.object entries ending).field? names)
      ((Document.object entries' ending').field? names) := by
  intro column hcolumn
  rw [field?_object, field?_object]
  rcases h.columns column hcolumn with heq | ⟨hsilent, hsilent'⟩
  · exact .inl (congrArg List.head? heq)
  · have hhead {ds : List Document} (hds : Silent ds) : Silent ds.head?.toList := by
      rcases hds with rfl | rfl
      · exact .inl rfl
      · exact .inr rfl
    exact .inr ⟨hhead hsilent, hhead hsilent'⟩

theorem exists_read (h : r.Alike entries entries') {ending : Ending} {v : r.patchFields.Val}
    (hread : readRecord r.patchFields r.patchFields.jsonReaders (.object entries ending) = .ok v) :
    ∃ v', readRecord r.patchFields r.patchFields.jsonReaders (.object entries' .closed) =
      .ok v' := by
  obtain ⟨-, slots, hentries, -⟩ := (readRecord_object_eq_ok_iff r.lenient_patchFields).1 hread
  obtain ⟨-, -, hcolumns⟩ := (readEntries_eq_ok_iff r.nodup_patchFields).1 hentries
  obtain ⟨slots', hcolumns'⟩ := exists_gathers h.columns hcolumns
  obtain ⟨slot, hslot⟩ : ∃ slot, Taken (Shape.read .uuid) (inputs entries' (some "id")) slot := by
    rcases h.id with hnil | ⟨s, id, htext, hid⟩
    · exact ⟨none, hnil ▸ .missing⟩
    · refine ⟨some id, htext ▸ .single ?_⟩
      rw [Shape.read, readText, hid]
  exact ⟨_, (readRecord_object_eq_ok_iff r.lenient_patchFields).2 ⟨rfl, (slot, slots'),
    (readEntries_eq_ok_iff r.nodup_patchFields).2 ⟨h.others, hslot, hcolumns'⟩, rfl⟩⟩

end Resource.Alike

/-! ## Requests that change a row -/

namespace Http

namespace Request

variable {α : Type} {req : Request} {r : Resource}

theorem readBody_eq_ok_iff {wire : Wire α} {a : α} : req.readBody wire = .ok a ↔
    ((req.header? "content-type").map MediaType.isJson).getD false = true ∧
      req.body.length ≤ maxBodyLength ∧ wire.ofChars (Text.Utf8.decode req.body) = .ok a := by
  rw [readBody]
  by_cases htype : ((req.header? "content-type").map MediaType.isJson).getD false = true
  · rw [if_neg (not_not.2 htype)]
    by_cases hlength : maxBodyLength < req.body.length
    · rw [if_pos hlength]
      exact iff_of_false (fun h => by cases h) fun h => absurd h.2.1 (Nat.not_le.2 hlength)
    · rw [if_neg hlength]
      cases hread : wire.ofChars (Text.Utf8.decode req.body) with
      | error e => cases e <;> simp
      | ok b => simp [htype, Nat.not_lt.1 hlength]
  · rw [if_pos htype]
    exact iff_of_false (fun h => by cases h) fun h => htype h.1

def document (req : Request) : Document := (Document.ofChars (Text.Utf8.decode req.body)).1

/-- The values that the body gives for the columns of the resource. -/
def edits (req : Request) (r : Resource) : List (String × Value) :=
  givenValues r.patchColumns (req.document.field? r.patchFields.names)

def withBody (req : Request) (body : List UInt8) : Request := { req with body }

/-- The request asks for a change of the row with this identifier, and is accepted. -/
structure AsksEdit (req : Request) (r : Resource) (id : Uuid) (p : r.Patch) : Prop where
  method : req.method = "PATCH"
  endpoint : ∃ raw, req.endpoint? = some (.patch r raw) ∧ pathId raw = .ok id
  body : req.readBody r.patchWire = .ok p
  valid : r.checkPatch p = .ok ()

namespace AsksEdit

variable {id : Uuid} {p : r.Patch}

theorem method_ne (h : req.AsksEdit r id p) : req.method ≠ "OPTIONS" := by
  rw [h.method]
  decide

theorem run_eq (h : req.AsksEdit r id p) (limit : Option Duration) (fresh : Uuid) :
    ∃ e, req.endpoint? = some e ∧ e.run limit fresh req =
      Endpoint.answer 200 r.recordWire (Repository.patch limit r (r.aim id p)) := by
  obtain ⟨raw, hroute, hid⟩ := h.endpoint
  refine ⟨_, hroute, ?_⟩
  rw [Endpoint.run, hid, Endpoint.orProblem, h.body, Endpoint.orResponse]

theorem carries (h : req.AsksEdit r id p) (server : Server) (fresh : Uuid) :
    server.Carries fresh req r.recordWire
      (Call.changePlan r (.patch r.schema id (r.assignments (r.aim id p))) id) where
  method := h.method_ne
  run := by
    obtain ⟨e, he, hrun⟩ := h.run_eq server.operationLimit fresh
    have hvalid : r.checkPatch (r.aim id p) = .ok () :=
      (Endpoint.checkPatch_aim id r p).trans h.valid
    have hplan : Call.patchPlan r (r.aim id p) = _ := Call.plan_patch_of_ok hvalid
    refine ⟨e, he, ?_⟩
    rw [hrun, Call.patch_eq, hplan, Resource.patchId_aim, Call.runPlan]

theorem exists_read (h : req.AsksEdit r id p) :
    ∃ v, readRecord r.patchFields r.patchFields.jsonReaders req.document = .ok v ∧
      r.patchOf v = p :=
  (Resource.ofChars_eq_ok_iff.1 (readBody_eq_ok_iff.1 h.body).2.2).2

theorem assignments_eq (h : req.AsksEdit r id p) :
    r.assignments (r.aim id p) = req.edits r ∧
      AreTyped r.patchColumns (req.document.field? r.patchFields.names) := by
  obtain ⟨v, hread, rfl⟩ := h.exists_read
  obtain ⟨-, htells⟩ := readRecord_tells r.lenient_patchFields r.nodup_patchFields hread
  obtain ⟨hvalues, htyped⟩ := optionalValues_eq htells
  rw [Resource.aim_patchOf, Resource.assignments_patchOf]
  exact ⟨hvalues, htyped⟩

/-- A body that says the same asks for the same edit. -/
theorem withBody (h : req.AsksEdit r id p) {body : List UInt8} {p' : r.Patch}
    (hbody : (req.withBody body).readBody r.patchWire = .ok p')
    (hsame : SaysSame (r.patchColumns.map (·.1)) (req.document.field? r.patchFields.names)
      ((req.withBody body).document.field? r.patchFields.names)) :
    (req.withBody body).AsksEdit r id p' ∧ r.aim id p' = r.aim id p := by
  obtain ⟨v, hread, rfl⟩ := h.exists_read
  obtain ⟨-, v', hread', rfl⟩ := Resource.ofChars_eq_ok_iff.1 (readBody_eq_ok_iff.1 hbody).2.2
  have htells := readRecord_tells r.lenient_patchFields r.nodup_patchFields hread
  have htells' := readRecord_tells r.lenient_patchFields r.nodup_patchFields hread'
  have haim : r.aim id (r.patchOf v') = r.aim id (r.patchOf v) := by
    rw [Resource.aim_patchOf, Resource.aim_patchOf, tells_unique hsame htells.2 htells'.2]
  refine ⟨⟨h.method, h.endpoint, hbody, ?_⟩, haim⟩
  rw [← Endpoint.checkPatch_aim id, haim, Endpoint.checkPatch_aim]
  exact h.valid

theorem respond_withBody (h : req.AsksEdit r id p) {body : List UInt8} {p' : r.Patch}
    (hbody : (req.withBody body).readBody r.patchWire = .ok p')
    (hsame : SaysSame (r.patchColumns.map (·.1)) (req.document.field? r.patchFields.names)
      ((req.withBody body).document.field? r.patchFields.names)) (server : Server) (fresh : Uuid) :
    server.respond fresh (req.withBody body) = server.respond fresh req := by
  obtain ⟨h', haim⟩ := h.withBody hbody hsame
  obtain ⟨e, he, hrun⟩ := h.run_eq server.operationLimit fresh
  obtain ⟨e', he', hrun'⟩ := h'.run_eq server.operationLimit fresh
  rw [server.respond_eq fresh h.method_ne he, server.respond_eq fresh h'.method_ne he', hrun, hrun',
    haim]
  rfl

theorem exists_body_of_alike (h : req.AsksEdit r id p) {body : List UInt8}
    {entries entries' : List (Option String × Document)} {ending : Ending}
    (hdocument : req.document = .object entries ending) (hlength : body.length ≤ maxBodyLength)
    (hbody : Document.ofChars (Text.Utf8.decode body) = (.object entries' .closed, false))
    (halike : r.Alike entries entries') :
    ∃ p', (req.withBody body).readBody r.patchWire = .ok p' := by
  obtain ⟨v, hread, -⟩ := h.exists_read
  rw [hdocument] at hread
  obtain ⟨v', hread'⟩ := halike.exists_read hread
  refine ⟨r.patchOf v', readBody_eq_ok_iff.2
    ⟨(readBody_eq_ok_iff.1 h.body).1, hlength, Resource.ofChars_eq_ok_iff.2 ⟨?_, v', ?_, rfl⟩⟩⟩
  · exact congrArg Prod.snd hbody
  · exact (congrArg (fun parsed => readRecord r.patchFields r.patchFields.jsonReaders parsed.1)
      hbody).trans hread'

end AsksEdit

theorem asksEdit_or_done {raw : List Char} (hmethod : req.method = "PATCH")
    (hroute : req.endpoint? = some (.patch r raw)) (server : Server) (fresh : Uuid) :
    (∃ id p, pathId raw = .ok id ∧ req.AsksEdit r id p) ∨
      ∃ response, server.respond fresh req = .done response := by
  have hdone (response : Response) (h : (Endpoint.patch r raw).run server.operationLimit fresh req =
      .done response) : ∃ response, server.respond fresh req = .done response := by
    rw [server.respond_eq fresh (hmethod ▸ by decide) hroute, h]
    exact ⟨_, rfl⟩
  cases hid : pathId raw with
  | error problem =>
    refine .inr (hdone problem.response ?_)
    rw [Endpoint.run, hid, Endpoint.orProblem]
  | ok id =>
    cases hbody : req.readBody r.patchWire with
    | error response =>
      refine .inr (hdone response ?_)
      rw [Endpoint.run, hid, Endpoint.orProblem, hbody, Endpoint.orResponse]
    | ok p =>
      cases hvalid : r.checkPatch p with
      | error e =>
        refine .inr (hdone (Problem.ofFailure (.invalid e)).response ?_)
        rw [Endpoint.run, hid, Endpoint.orProblem, hbody, Endpoint.orResponse,
          Repository.patch_of_invalid _ ((Endpoint.checkPatch_aim id r p).trans hvalid)]
        rfl
      | ok _ => exact .inl ⟨id, p, rfl, hmethod, ⟨raw, hroute, hid⟩, hbody, hvalid⟩

end Request

end Http

/-! ## Edits and their rows -/

theorem Resource.unmarked_schema (r : Resource) : r.schema.Unmarked := by
  cases r <;> exact ⟨by decide, by decide, by decide +kernel, by decide⟩

theorem Resource.unmarked_patchColumns (r : Resource) :
    ∀ name ∈ r.patchColumns.map (·.1), Unmarked name := by
  cases r <;> decide

/-- A request for a change sends one statement. It sets the columns that the body gives a value for,
in the order of the fields, and the time of change, in the row of the path. Bodies that say the same
of the columns get the same treatment, whatever else they say; and no body has another row changed,
or a column set to null. -/
theorem edits_keep_to_their_row {req : Http.Request} {r : Resource} {raw : List Char}
    (hmethod : req.method = "PATCH") (hroute : req.endpoint? = some (.patch r raw)) :
    (∀ id p, req.AsksEdit r id p →
      let values := req.edits r
      let edit := Statement.update r.schema id
        (values.map (fun e => (e.1, .value e.2)) ++ [("updated_at", .now)])
      Http.Request.pathId raw = .ok id ∧
      AreTyped r.patchColumns (req.document.field? r.patchFields.names) ∧
      (edit.sql.Agrees (values.map (fun e => .value e.2) ++ [.ofId id]) fun write =>
        s!"UPDATE {r.schema.table} AS {r.schema.row} SET " ++
          ", ".intercalate (values.map (fun e => e.1 ++ " = " ++ write (.value e.2)) ++
            ["updated_at = NOW()"]) ++
          s!" WHERE {r.schema.row}.id = " ++ write (.ofId id) ++
          s!" RETURNING {r.schema.select}") ∧
      (∀ (server : Http.Server) (fresh : Uuid) (σ : Type) (store : Store σ) (s : σ),
        let o := (server.respond fresh req).run store s
        (o.Acknowledged .start → o.statements = [edit]) ∧
          (¬ o.Acknowledged .start → o.statements = []) ∧
          (server.requestLimit.nanos ≠ 0 → server.callLimit.nanos ≠ 0 →
            (∃ rows, (store .start s).1 = .rows rows) → o.Acknowledged .start)) ∧
      ∀ body,
        (∀ p', (req.withBody body).readBody r.patchWire = .ok p' →
          SaysSame (r.patchColumns.map (·.1)) (req.document.field? r.patchFields.names)
            ((req.withBody body).document.field? r.patchFields.names) →
          ∀ (server : Http.Server) (fresh : Uuid),
            server.respond fresh (req.withBody body) = server.respond fresh req) ∧
        ∀ entries entries' ending, req.document = .object entries ending →
          Document.ofChars (Text.Utf8.decode body) = (.object entries' .closed, false) →
          body.length ≤ Http.maxBodyLength → r.Alike entries entries' →
          (∃ p', (req.withBody body).readBody r.patchWire = .ok p') ∧
            ∀ (server : Http.Server) (fresh : Uuid),
              server.respond fresh (req.withBody body) = server.respond fresh req) ∧
    ∀ (server : Http.Server) (fresh : Uuid) (σ : Type) (store : Store σ) (s : σ),
      ∀ statement ∈ ((server.respond fresh req).run store s).statements, ∃ id changes,
        Http.Request.pathId raw = .ok id ∧ statement = .update r.schema id changes ∧
          ∀ e ∈ changes, e.2 ≠ .null ∧ ∀ v, e.2 = .value v → v.isNull = false := by
  have hstatements {id : Uuid} {p : r.Patch} (h : req.AsksEdit r id p) (server : Http.Server)
      (fresh : Uuid) {σ : Type} (store : Store σ) (s : σ) :
      let edit := Statement.update r.schema id
        ((req.edits r).map (fun e => (e.1, .value e.2)) ++ [("updated_at", .now)])
      let o := (server.respond fresh req).run store s
      (o.Acknowledged .start → o.statements = [edit]) ∧
        (¬ o.Acknowledged .start → o.statements = []) := by
    obtain ⟨value?, hgoes, -⟩ := (h.carries server fresh).goes store s
    rw [h.assignments_eq.1] at hgoes
    exact hgoes.statements
  refine ⟨fun id p h => ⟨?_, h.assignments_eq.2, ?_, fun server fresh σ store s => ⟨?_, ?_, ?_⟩,
    fun body => ⟨fun p' hbody hsame => h.respond_withBody hbody hsame,
      fun entries entries' ending hdocument hbody hlength halike => ?_⟩⟩,
    fun server fresh σ store s statement hmem => ?_⟩
  · obtain ⟨raw', hroute', hid⟩ := h.endpoint
    obtain ⟨-, rfl⟩ : r = r ∧ raw' = raw := by simpa [hroute] using hroute'.symm
    exact hid
  · refine (TableSchema.statementsAgree r.unmarked_schema).patch id (req.edits r) fun e he => ?_
    exact r.unmarked_patchColumns _ (exists_of_mem_givenValues he).1
  · exact (hstatements h server fresh store s).1
  · exact (hstatements h server fresh store s).2
  · exact fun hr hc hstart => (h.carries server fresh).acknowledged hr hc hstart
  · obtain ⟨p', hread⟩ := h.exists_body_of_alike hdocument hlength hbody halike
    refine ⟨⟨p', hread⟩, h.respond_withBody hread ?_⟩
    have hdocument' : (req.withBody body).document = .object entries' .closed :=
      congrArg Prod.fst hbody
    rw [hdocument, hdocument']
    exact halike.saysSame r.patchFields.names
  · rcases Http.Request.asksEdit_or_done hmethod hroute server fresh with
      ⟨id, p, hid, h⟩ | ⟨response, hdone⟩
    · obtain ⟨hsent, hunsent⟩ := hstatements h server fresh store s
      by_cases hstart : ((server.respond fresh req).run store s).Acknowledged .start
      · rw [hsent hstart, List.mem_singleton] at hmem
        refine ⟨id, _, hid, hmem, fun e he => ?_⟩
        rcases List.mem_append.1 he with he | he
        · obtain ⟨value, hvalue, rfl⟩ := List.mem_map.1 he
          refine ⟨nofun, fun v hv => ?_⟩
          rw [← Term.value.inj hv]
          exact (exists_of_mem_givenValues hvalue).2
        · rw [List.mem_singleton.1 he]
          exact ⟨nofun, fun _ => nofun⟩
      · rw [hunsent hstart] at hmem
        exact absurd hmem List.not_mem_nil
    · rw [hdone] at hmem
      exact absurd hmem List.not_mem_nil

/-- Someone is renamed, whoever the body says it is about. -/
theorem renamed_by_path :
    let server : Http.Server := ⟨8080, false, ⟨30000000000⟩, ⟨5000000000⟩⟩
    let body : Json := .object [("name", .text "Ann")]
    let body' : Json := .object [("email", .null), ("x", .array [.int 1]), ("name", .text "Ann"),
      ("id", .text "00000000-0000-0000-0000-000000000001")]
    let req : Http.Request :=
      ⟨"PATCH", ⟨"/api/v1/users/00000000-0000-0000-0000-000000000007".toList, none⟩,
        [("content-type", "application/json")], Text.Utf8.encode body.write⟩
    ((server.respond .zero req).run (fun _ n => (.rows [], n + 1)) 0).statements =
        [.update User.schema ⟨7⟩ [("name", .value (.text (some "Ann"))), ("updated_at", .now)]] ∧
      server.respond .zero (req.withBody (Text.Utf8.encode body'.write)) =
        server.respond .zero req := by
  intro server body body' req
  have hparsed {j : Json} (hj : j.Modest) :
      Document.ofChars (Text.Utf8.decode (Text.Utf8.encode j.write)) = (j.document, false) := by
    rw [Text.Utf8.decode_encode, hj.ofChars_write]
  have hbody : Document.ofChars (Text.Utf8.decode req.body) = (body.document, false) :=
    hparsed (.object _ (List.forall_mem_singleton.2 (.text _)))
  have hbody' : Document.ofChars (Text.Utf8.decode (Text.Utf8.encode body'.write)) =
      (body'.document, false) := by
    refine hparsed (.object _ ?_)
    simp only [List.forall_mem_cons]
    exact ⟨.null, .array _ (List.forall_mem_singleton.2 (.int _ (by decide))), .text _, .text _,
      List.forall_mem_nil _⟩
  have hread : req.readBody Resource.user.patchWire = .ok { name := some "Ann" } := by
    refine Http.Request.readBody_eq_ok_iff.2 ⟨by decide, by decide, ?_⟩
    refine Resource.ofChars_eq_ok_iff.2 ?_
    rw [hbody]
    exact ⟨rfl, _, rfl, rfl⟩
  have hasks : req.AsksEdit .user ⟨7⟩ { name := some "Ann" } :=
    ⟨rfl, ⟨_, rfl, rfl⟩, hread, rfl⟩
  obtain ⟨-, -, -, hsent, hbodies⟩ :=
    (@edits_keep_to_their_row req .user _ rfl rfl).1 ⟨7⟩ _ hasks
  constructor
  · obtain ⟨hstatements, -, hacknowledged⟩ :=
      hsent server .zero Nat (fun _ n => (.rows [], n + 1)) 0
    rw [hstatements (hacknowledged (by decide) (by decide) ⟨[], rfl⟩), Http.Request.edits,
      Http.Request.document, hbody]
    rfl
  · have halike : Resource.user.Alike [(some "name", .text (some "Ann"))]
        [(some "email", .null), (some "x", .array [.number (.int 1)] .closed),
          (some "name", .text (some "Ann")),
          (some "id", .text (some "00000000-0000-0000-0000-000000000001"))] := by
      refine ⟨?_, .inr ⟨_, ⟨1⟩, rfl, rfl⟩, ?_⟩
      · simp only [Resource.patchColumns, List.map_cons, List.map_nil, List.forall_mem_cons]
        exact ⟨.inl rfl, .inl rfl, .inr ⟨.inl rfl, .inr rfl⟩, List.forall_mem_nil _⟩
      · simp only [List.forall_mem_cons]
        exact ⟨⟨_, rfl, fun _ => rfl⟩, ⟨_, rfl, fun _ => rfl⟩, ⟨_, rfl, fun _ => rfl⟩,
          ⟨_, rfl, fun _ => rfl⟩, List.forall_mem_nil _⟩
    exact ((hbodies _).2 _ _ .closed (congrArg Prod.fst hbody) hbody' (by decide) halike).2
      server .zero

end MessageBoard
