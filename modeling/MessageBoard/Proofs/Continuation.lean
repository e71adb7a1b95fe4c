import Mathlib
import MessageBoard.Proofs.Answers
import MessageBoard.Proofs.Encoding
import MessageBoard.Proofs.Gathering
import MessageBoard.Proofs.Parameters
import MessageBoard.Proofs.Serving
import MessageBoard.Proofs.Spelling

/-!
# Listings page by page

Whatever rows the store gives for a page, the response shows as many of them as the page may hold,
says whether there were more, and names the last one it shows. The request with that name in place
of its own cursor asks for the same page behind it: the statement has the same text, and of its
values only the first one is another.
-/

namespace MessageBoard

/-! ## Forms -/

namespace Text

theorem unescape_of_notMem {bytes : List UInt8} (h : 0x25 ∉ bytes) : unescape bytes = bytes := by
  induction bytes with
  | nil => rfl
  | cons b bytes ih =>
    obtain ⟨hb, hbytes⟩ := not_or.1 (mt List.mem_cons.2 h)
    rw [unescape.eq_2, ih hbytes]
    rintro x y rest rfl
    exact absurd rfl hb

def isPlain (c : Char) : Bool := c.toNat < 128 && c != '+' && c != '%' && c != '&' && c != '='

section Plain

variable {c : Char} {cs : List Char}

theorem notMem_encodeChar_of_isPlain (h : isPlain c = true) : 0x25 ∉ String.utf8EncodeChar c := by
  simp only [isPlain, Bool.and_eq_true, decide_eq_true_eq, bne_iff_ne] at h
  have hle : c.val.toNat ≤ 127 := Nat.le_of_lt_succ h.1.1.1.1
  rw [String.utf8EncodeChar, if_pos hle, List.mem_singleton]
  intro hbyte
  have hpercent := congrArg UInt8.toNat hbyte
  rw [UInt8.toNat_ofNat_of_lt' (Nat.lt_of_le_of_lt hle (by decide))] at hpercent
  exact h.1.1.2 (Char.toNat_inj.1 hpercent.symm)

theorem formText_of_isPlain (h : cs.all isPlain = true) : formText cs = .ofList cs := by
  have hplain := List.all_eq_true.1 h
  have hblanks : cs.map (fun c => if c = '+' then ' ' else c) = cs := by
    refine (List.map_congr_left fun c hc => if_neg ?_).trans (List.map_id' cs)
    rintro rfl
    exact absurd (hplain _ hc) (by decide)
  have hescapes : 0x25 ∉ Utf8.encode cs := fun hmem => by
    obtain ⟨c, hc, hbyte⟩ := List.mem_flatMap.1 hmem
    exact notMem_encodeChar_of_isPlain (hplain c hc) hbyte
  rw [formText, hblanks, unescape_of_notMem hescapes, Utf8.lossy, Utf8.decode_encode,
    List.map_map]
  congr 1
  exact List.map_id cs

theorem notMem_of_isPlain (h : cs.all isPlain = true) (hc : isPlain c = false) : c ∉ cs :=
  fun hmem => by simp [List.all_eq_true.1 h c hmem] at hc

end Plain

theorem isPlain_toText (id : Uuid) : id.toText.toList.all isPlain = true := by
  have halphabet : Uuid.alphabet.all isPlain = true := by decide
  exact List.all_eq_true.2 fun c hc => List.all_eq_true.1 halphabet c (Uuid.mem_alphabet hc)

def formPiece (name value : List Char) : List Char := name ++ '=' :: value

section Piece

variable {name value : List Char}

theorem notMem_formPiece (hname : name.all isPlain = true) (hvalue : value.all isPlain = true) :
    '&' ∉ formPiece name value := by
  rw [formPiece, List.mem_append, List.mem_cons, not_or, not_or]
  exact ⟨notMem_of_isPlain hname rfl, by decide, notMem_of_isPlain hvalue rfl⟩

theorem formPair_formPiece (hname : name.all isPlain = true) (hvalue : value.all isPlain = true) :
    formPair (formPiece name value) = (.ofList name, .ofList value) := by
  rw [formPair, formPiece, cutFirst?_char (notMem_of_isPlain hname rfl) value]
  dsimp only
  rw [formText_of_isPlain hname, formText_of_isPlain hvalue]

end Piece

end Text

open Text

/-! ## Cursors in queries -/

/-- The second query says what the first one does, but for the cursor. -/
structure Continues (id : Uuid) (query query' : List Char) : Prop where
  cursor : (formPairs query').filter (·.1 = "last_seen") = [("last_seen", id.toText)]
  others : (formPairs query').filter (·.1 ≠ "last_seen") =
    (formPairs query).filter (·.1 ≠ "last_seen")

/-- What a query says of a cursor. -/
def cursorPiece (id : Uuid) : List Char := formPiece "last_seen".toList id.toText.toList

theorem formPair_cursorPiece (id : Uuid) :
    formPair (cursorPiece id) = ("last_seen", id.toText) := by
  rw [cursorPiece, formPair_formPiece (by decide) (isPlain_toText id), String.ofList_toList,
    String.ofList_toList]

/-- The query without its cursor, if it has one, and with this one. -/
def continued (id : Uuid) (query : List Char) : List Char :=
  ['&'].intercalate
    ((pieces '&' query).filter (fun p => (formPair p).1 ≠ "last_seen") ++ [cursorPiece id])

theorem continues_continued (id : Uuid) (query : List Char) :
    Continues id query (continued id query) := by
  have hparts : ∀ p ∈ (pieces '&' query).filter (fun p => (formPair p).1 ≠ "last_seen") ++
      [cursorPiece id], '&' ∉ p := fun p hp => by
    rcases List.mem_append.1 hp with hp | hp
    · exact notMem_of_mem_pieces (List.mem_filter.1 hp).1
    · rw [List.mem_singleton.1 hp]
      exact notMem_formPiece (by decide) (isPlain_toText id)
  have hpairs : formPairs (continued id query) =
      (formPairs query).filter (·.1 ≠ "last_seen") ++ [("last_seen", id.toText)] := by
    have hpiece : cursorPiece id ≠ [] := List.cons_ne_nil _ _
    rw [formPairs, continued, pieces_intercalate (by simp) hparts, formPairs, List.filter_append,
      List.map_append, List.filter_map, List.filter_filter, List.filter_filter]
    simp [hpiece, formPair_cursorPiece, Bool.and_comm]
  constructor
  · rw [hpairs]
    simp
  · rw [hpairs]
    simp

namespace Continues

variable {id : Uuid} {query query' : List Char}

theorem inputs_cursor (h : Continues id query query') :
    inputs (formPairs query') "last_seen" = [id.toText] := by
  rw [← inputs_filter (p := (·.1 = "last_seen")) fun e he => by simpa using he, h.cursor]
  rfl

theorem inputs_other (h : Continues id query query') {name : String} (hname : name ≠ "last_seen") :
    inputs (formPairs query') name = inputs (formPairs query) name := by
  have hkept : ∀ e : String × String, e.1 = name → (decide (e.1 ≠ "last_seen")) = true :=
    fun e he => by simpa [he] using hname
  rw [← inputs_filter hkept, h.others, inputs_filter hkept]

end Continues

/-! ## Parameters with another cursor -/

namespace FilterParams

variable {params : FilterParams} {id : Uuid}

theorem nodup_names : fields.names.Nodup := by decide

theorem lenient_fields : fields.Lenient := by
  simp [Fields.Lenient]

def repeated (name : String) : String := "duplicate field \x60" ++ name ++ "\x60"

theorem ofPairs_eq_ok_iff {pairs : List (String × String)} :
    ofPairs pairs = .ok params ↔ ∃ slots : fields.Slots,
      fields.Gathers fields.queryReaders (inputs pairs) slots ∧
        wire.ofVal (fields.completed slots) = params := by
  have hrun : ofPairs pairs =
      (pairs.foldlM (fields.gather repeated fields.queryReaders) fields.noSlots).map fun slots =>
        wire.ofVal ((fields.fill slots).getD fields.initial) := rfl
  have hgathers (slots : fields.Slots) := @Fields.foldlM_gather_eq_ok_iff _ _ repeated fields
    fields.queryReaders nodup_names pairs slots
  simp only [← hgathers]
  rw [hrun]
  cases pairs.foldlM (fields.gather repeated fields.queryReaders) fields.noSlots with
  | error e => exact iff_of_false (fun h => by cases h) (by rintro ⟨_, h, -⟩; cases h)
  | ok slots => simp [Except.map, Fields.fill_of_lenient lenient_fields]

def resume (id : Uuid) : fields.Slots → fields.Slots :=
  fun (own, owner, user, post, thread, forum, author, replyTo, name, title, username, email,
      createdFrom, createdTo, updatedFrom, updatedTo, deletedFrom, deletedTo, deleted, isLocked,
      orderBy, _, pageSize, withRelated, ()) =>
    (own, owner, user, post, thread, forum, author, replyTo, name, title, username, email,
      createdFrom, createdTo, updatedFrom, updatedTo, deletedFrom, deletedTo, deleted, isLocked,
      orderBy, some (some id), pageSize, withRelated, ())

theorem completed_resume (slots : fields.Slots) :
    wire.ofVal (fields.completed (resume id slots)) =
      { wire.ofVal (fields.completed slots) with lastSeen := some id } := rfl

theorem gathers_resume {given given' : String → List String} {slots : fields.Slots}
    (hcursor : given' "last_seen" = [id.toText])
    (hother : ∀ name, name ≠ "last_seen" → given' name = given name)
    (h : fields.Gathers fields.queryReaders given slots) :
    fields.Gathers fields.queryReaders given' (resume id slots) := by
  have hread : (Shape.option .uuid).ofQuery? id.toText = some (some id) := by
    rw [Shape.ofQuery?, Shape.ofQuery?, Uuid.ofText_toText, Option.map_some]
  simp only [Fields.Gathers, resume, hother, ne_eq, String.reduceEq, not_false_eq_true]
  obtain ⟨own, owner, user, post, thread, forum, author, replyTo, name, title, username, email,
    createdFrom, createdTo, updatedFrom, updatedTo, deletedFrom, deletedTo, deleted, isLocked,
    orderBy, -, rest⟩ := h
  refine ⟨own, owner, user, post, thread, forum, author, replyTo, name, title, username, email,
    createdFrom, createdTo, updatedFrom, updatedTo, deletedFrom, deletedTo, deleted, isLocked,
    orderBy, ?_, rest⟩
  rw [hcursor]
  refine .single ?_
  simp only [Fields.queryReaders, hread]

theorem ofQuery_eq_ok_iff {query : List Char} :
    ofQuery query = .ok params ↔ ofPairs (formPairs query) = .ok params := by
  rw [ofQuery]
  cases ofPairs (formPairs query) with
  | error reason => exact iff_of_false (fun h => by cases h) fun h => by cases h
  | ok found => exact ⟨fun h => congrArg Except.ok (Except.ok.inj h),
      fun h => congrArg Except.ok (Except.ok.inj h)⟩

/-- A query with another cursor is read as the same parameters with another cursor. -/
theorem ofQuery_of_continues {query query' : List Char} (hc : Continues id query query')
    (h : ofQuery query = .ok params) :
    ofQuery query' = .ok { params with lastSeen := some id } := by
  obtain ⟨slots, hgathers, rfl⟩ := ofPairs_eq_ok_iff.1 (ofQuery_eq_ok_iff.1 h)
  exact ofQuery_eq_ok_iff.2 <| ofPairs_eq_ok_iff.2 ⟨resume id slots,
    gathers_resume hc.inputs_cursor (fun _ => hc.inputs_other) hgathers, completed_resume slots⟩

theorem toFilter_continued (params : FilterParams) (id : Uuid) :
    ({ params with lastSeen := some id } : FilterParams).toFilter = params.toFilter.after id := by
  simp only [toFilter, Filter.ofSettings, settings, List.foldl_append]
  rfl

end FilterParams

/-! ## Pages -/

namespace Page

variable {α : Type}

/-- What a page shows of the rows that came for it. -/
structure Shows (page : Page α) (records : List α) (size : Nat) (cursor : Uuid) (id : α → Uuid) :
    Prop where
  rows : page.rows = records.take size
  length : page.metadata.length.toNat = page.rows.length
  fits : page.rows.length ≤ size
  next : page.metadata.next = true ↔ size < records.length
  full : page.metadata.next = true → page.rows.length = size
  last : ∀ a, page.rows.getLast? = some a → page.metadata.lastSeen = id a
  stays : page.rows = [] → page.metadata.lastSeen = cursor

theorem shows_ofRows (records : List α) (size : UInt32) (cursor : Uuid) (id : α → Uuid) :
    (ofRows records size cursor id).Shows records size.toNat cursor id where
  rows := rfl
  length := length_ofRows records size cursor id
  fits := List.length_take_le _ _
  next := decide_eq_true_iff
  full h := List.length_take_of_le (Nat.le_of_lt (of_decide_eq_true h))
  last a ha := by
    have hkept : (records.take size.toNat).getLast? = some a := ha
    simp only [ofRows, hkept, Option.map_some, Option.getD_some]
  stays hnil := by
    have hkept : records.take size.toNat = [] := hnil
    simp only [ofRows, hkept, List.getLast?_nil, Option.map_none, Option.getD_none]

theorem Shows.unique {page page' : Page α} {records : List α} {size : Nat} {cursor : Uuid}
    {id : α → Uuid} (h : page.Shows records size cursor id)
    (h' : page'.Shows records size cursor id) : page = page' := by
  obtain ⟨rows, lastSeen, next, length⟩ := page
  obtain ⟨rows', lastSeen', next', length'⟩ := page'
  obtain rfl : rows = records.take size := h.rows
  obtain rfl : rows' = records.take size := h'.rows
  have hnext : next = next' := Bool.eq_iff_iff.2 (h.next.trans h'.next.symm)
  have hlength : length = length' := UInt64.toNat_inj.1 (h.length.trans h'.length.symm)
  have hlast : lastSeen = lastSeen' := by
    cases hkept : (records.take size).getLast? with
    | none =>
      rw [List.getLast?_eq_none_iff] at hkept
      exact (h.stays hkept).trans (h'.stays hkept).symm
    | some a => exact (h.last a hkept).trans (h'.last a hkept).symm
  rw [hnext, hlength, hlast]

theorem shows_iff {page : Page α} {records : List α} {size : UInt32} {cursor : Uuid}
    {id : α → Uuid} :
    page.Shows records size.toNat cursor id ↔ page = .ofRows records size cursor id :=
  ⟨fun h => h.unique (shows_ofRows records size cursor id),
    fun h => h ▸ shows_ofRows records size cursor id⟩

def json (row : α → Json) (page : Page α) : Json :=
  .object [("data", .array (page.rows.map row)),
    ("metadata", .object [("last_seen", .text page.metadata.lastSeen.toText),
      ("next", .flag page.metadata.next),
      ("response_length", .int page.metadata.length.toNat)])]

theorem toJson_wire (row : Wire α) (page : Page α) :
    (wire row).toJson page = page.json row.toJson := by
  have hrows : (page.rows.map row.toVal).map row.shape.toJson = page.rows.map row.toJson :=
    List.map_map
  rw [json, ← hrows]
  rfl

end Page

theorem Rows.all_eq_ok_iff {α : Type} {read : Row → Option α} {rows : List Row}
    {records : List α} : all read rows = .ok records ↔ rows.map read = records.map some := by
  induction rows generalizing records with
  | nil =>
    cases records with
    | nil => exact iff_of_true rfl rfl
    | cons a records => exact iff_of_false (fun h => by cases h) fun h => by cases h
  | cons row rows ih =>
    have hcons : all read (row :: rows) = (do
        let first ← readOne read row
        let rest ← all read rows
        return first :: rest) := by rw [all, List.mapM_cons]; rfl
    have hfirst {a : α} : readOne read row = .ok a ↔ read row = some a := by
      rw [readOne]
      cases read row <;> simp
    rw [hcons, bind_eq_ok_iff, List.map_cons]
    constructor
    · rintro ⟨a, hrow, h⟩
      obtain ⟨rest, hrows, hrecords⟩ := bind_eq_ok_iff.1 h
      rw [← Except.ok.inj hrecords, hfirst.1 hrow, ih.1 hrows, List.map_cons]
    · intro h
      cases records with
      | nil => cases h
      | cons a rest =>
        obtain ⟨hrow, hrows⟩ := List.cons.inj h
        exact ⟨a, hfirst.2 hrow, bind_eq_ok_iff.2 ⟨rest, ih.2 hrows, rfl⟩⟩

theorem Call.listPlan_read_eq_ok_iff {r : Resource} {f : Filter} {statement : Statement}
    {rows : List Row} {page : Page r.Record} :
    (listPlan r f statement).read rows = .ok (.ok page) ↔
      ∃ records, rows.map (Repository.readRecord r) = records.map some ∧
        page.Shows records f.pageSize.toNat f.lastSeen r.id := by
  simp only [← Rows.all_eq_ok_iff, Page.shows_iff, listPlan]
  cases Rows.all (Repository.readRecord r) rows with
  | error e => exact iff_of_false (fun h => by cases h) (by rintro ⟨_, h, -⟩; cases h)
  | ok records => simp [Except.map, eq_comm]

namespace Http

/-- The request asks for a page of bare rows, and is accepted. -/
structure Request.AsksPage (req : Request) (r : Resource) (params : FilterParams) : Prop where
  method : req.method = "GET"
  endpoint : req.endpoint? = some (.list r)
  query : req.query = .ok params
  bare : params.withRelated ≠ some true
  accepted : params.toFilter.check r.schema = .ok ()

def Request.withQuery (req : Request) (query : List Char) : Request :=
  { req with target := { req.target with query := some query } }

theorem Request.query_eq_ok_iff {req : Request} {params : FilterParams} :
    req.query = .ok params ↔ FilterParams.ofQuery (req.target.query.getD []) = .ok params := by
  rw [query]
  cases FilterParams.ofQuery (req.target.query.getD []) with
  | error e => exact iff_of_false (fun h => by cases h) fun h => by cases h
  | ok found => exact ⟨fun h => congrArg Except.ok (Except.ok.inj h),
      fun h => congrArg Except.ok (Except.ok.inj h)⟩

namespace Request.AsksPage

variable {req : Request} {r : Resource} {params : FilterParams}

theorem carries (h : req.AsksPage r params) (server : Server) (fresh : Uuid) :
    server.Carries fresh req (Page.wire r.recordWire)
      (Call.listPlan r params.toFilter (params.toFilter.pageStatement r.schema)) where
  method := by rw [h.method]; decide
  run := by
    refine ⟨_, h.endpoint, ?_⟩
    have hplan := Call.plan_list_eq_ok_iff_accepted.2 ⟨Filter.check_eq_ok_iff.1 h.accepted, rfl⟩
    have hbare : params.withRelated.getD false ≠ true := by
      cases hw : params.withRelated with
      | none => decide
      | some b =>
        rintro rfl
        exact h.bare hw
    rw [Endpoint.run, h.query, Endpoint.orProblem, Endpoint.listPage, if_neg hbare, Call.list_eq,
      hplan, Call.runPlan]

theorem withQuery (h : req.AsksPage r params) {id : Uuid} {query : List Char}
    (hc : Continues id (req.target.query.getD []) query) :
    (req.withQuery query).AsksPage r { params with lastSeen := some id } where
  method := h.method
  endpoint := h.endpoint
  query := query_eq_ok_iff.2 <|
    FilterParams.ofQuery_of_continues hc (query_eq_ok_iff.1 h.query)
  bare := h.bare
  accepted := by
    rw [FilterParams.toFilter_continued, Filter.check_eq_ok_iff]
    exact (Filter.check_eq_ok_iff.1 h.accepted).after id

end Request.AsksPage

end Http

/-! ## Pages that continue one another -/

theorem Filter.sql_pageStatement_after (f : Filter) (schema : TableSchema) (id : Uuid) :
    ∃ text others,
      (f.pageStatement schema).sql = ⟨text, .value (.uuid (some f.lastSeen)) :: others⟩ ∧
        ((f.after id).pageStatement schema).sql = ⟨text, .value (.uuid (some id)) :: others⟩ :=
  ⟨_, _, rfl, rfl⟩

/-- Whatever the store gives for a page, a request for it succeeds exactly if all rows are records,
and the response shows them as far as they fit. The request with another cursor sends the same text
with the same values but the first, which is that cursor; so the cursor in the response continues
the listing. -/
theorem pages_continue {req : Http.Request} {r : Resource} {params : FilterParams}
    (h : req.AsksPage r params) :
    (∀ (server : Http.Server) (fresh : Uuid) (σ : Type) (store : Store σ) (s : σ),
      let o := (server.respond fresh req).run store s
      let asked := params.toFilter.pageStatement r.schema
      let size := (params.pageSize.getD 1).toNat
      (o.Acknowledged .start → o.statements = [asked]) ∧
        (¬ o.Acknowledged .start → o.statements = []) ∧ size ≤ 1000 ∧
        (server.requestLimit.nanos ≠ 0 → server.callLimit.nanos ≠ 0 →
          ∀ (opened rows closed : List Row) (records : List r.Record),
            Store.Answers store s asked opened rows closed →
            rows.map (Repository.readRecord r) = records.map some →
            o.exchanges = asked.carriedOut opened rows closed) ∧
        ∀ response, o.value? = some response ∧ response.status = 200 ↔
          ∃ (opened rows closed : List Row) (records : List r.Record) (page : Page r.Record),
            o.exchanges = asked.carriedOut opened rows closed ∧
            rows.map (Repository.readRecord r) = records.map some ∧
            page.Shows records size (params.lastSeen.getD .zero) r.id ∧
            response = server.finish req (.ofJson 200 (page.json r.recordWire.toJson))) ∧
    (∀ id query, Continues id (req.target.query.getD []) query →
      let asked := params.toFilter.pageStatement r.schema
      let next : FilterParams := { params with lastSeen := some id }
      let asked' := next.toFilter.pageStatement r.schema
      (req.withQuery query).AsksPage r next ∧
        (∀ (server : Http.Server) (fresh : Uuid) (σ : Type) (store : Store σ) (s : σ),
          let o := (server.respond fresh (req.withQuery query)).run store s
          o.Acknowledged .start → o.statements = [asked']) ∧
        ∃ text others,
          asked.sql = ⟨text, .value (.uuid (some (params.lastSeen.getD .zero))) :: others⟩ ∧
            asked'.sql = ⟨text, .value (.uuid (some id)) :: others⟩) ∧
    (∀ id, Continues id (req.target.query.getD []) (continued id (req.target.query.getD []))) ∧
    ∀ (α β : Type) (f : α → β),
      (∀ page : Page α, (page.map f).metadata = page.metadata ∧
        (page.map f).rows = page.rows.map f) ∧
      ∀ rows size cursor id, (Page.ofRows rows size cursor (id ∘ f)).map f =
        .ofRows (rows.map f) size cursor id := by
  have hcursor : params.toFilter.lastSeen = params.lastSeen.getD .zero := by
    rw [FilterParams.toFilter_eq]
  have hsize : params.toFilter.pageSize = params.pageSize.getD 1 := by
    rw [FilterParams.toFilter_eq]
  have haccepted := Filter.check_eq_ok_iff.1 h.accepted
  refine ⟨fun server fresh σ store s => ?_, fun id query hc => ?_,
    fun id => continues_continued id _, fun α β f => ⟨fun _ => ⟨rfl, rfl⟩, Page.map_ofRows f⟩⟩
  · obtain ⟨value?, hgoes, htold⟩ := (h.carries server fresh).goes store s
    refine ⟨hgoes.statements.1, hgoes.statements.2, ?_,
      fun hr hc opened rows closed records hanswers hrows => ?_, fun response => ?_⟩
    · rw [← hsize]
      exact UInt32.le_iff_toNat_le.1 haccepted.pageSize_le
    · exact (h.carries server fresh).exchanges_of_answers hr hc hanswers <|
        Call.listPlan_read_eq_ok_iff.2 ⟨records, hrows, Page.shows_ofRows records _ _ _⟩
    · simp only [htold, hgoes.value_eq_ok_iff, Page.toJson_wire]
      rw [← hsize, ← hcursor]
      constructor
      · rintro ⟨page, ⟨opened, rows, closed, hxs, hread⟩, rfl⟩
        obtain ⟨records, hrows, hshows⟩ := Call.listPlan_read_eq_ok_iff.1 hread
        exact ⟨opened, rows, closed, records, page, hxs, hrows, hshows, rfl⟩
      · rintro ⟨opened, rows, closed, records, page, hxs, hrows, hshows, rfl⟩
        exact ⟨page, ⟨opened, rows, closed, hxs,
          Call.listPlan_read_eq_ok_iff.2 ⟨records, hrows, hshows⟩⟩, rfl⟩
  · have hnext := h.withQuery hc
    refine ⟨hnext, fun server fresh σ store s => ?_, ?_⟩
    · obtain ⟨value?, hgoes, -⟩ := (hnext.carries server fresh).goes store s
      exact hgoes.statements.1
    · rw [FilterParams.toFilter_continued, ← hcursor]
      exact params.toFilter.sql_pageStatement_after r.schema id

/-- Of two users that are sent for a page of one the first is shown, and the next page is asked for
with the cursor that the response tells; an empty page keeps its cursor. -/
theorem users_continue :
    let server : Http.Server := ⟨8080, false, ⟨30000000000⟩, ⟨5000000000⟩⟩
    let req : Http.Request :=
      ⟨"GET", ⟨"/api/v1/users".toList, some "page_size=1".toList⟩, [], []⟩
    let user (id : Uuid) : User :=
      ⟨id, "ann", "ann", "someone@example.com", ⟨.epoch, .epoch, false, none⟩⟩
    let told (page : Page User) (rows : List Row) : Prop :=
      ((server.respond .zero req).run (fun _ n => (.rows rows, n + 1)) 0).value? =
        some (server.finish req (.ofJson 200 (page.json User.wire.toJson)))
    told ⟨[user ⟨7⟩], ⟨⟨7⟩, true, 1⟩⟩ [Resource.user.row (user ⟨7⟩), Resource.user.row (user ⟨9⟩)] ∧
      told ⟨[], ⟨.zero, false, 0⟩⟩ [] ∧
      (req.withQuery "page_size=1&last_seen=00000000-0000-0000-0000-000000000007".toList).AsksPage
        .user { pageSize := some 1, lastSeen := some ⟨7⟩ } := by
  intro server req user told
  have hasks : req.AsksPage .user { pageSize := some 1 } := ⟨rfl, rfl, rfl, by decide, rfl⟩
  obtain ⟨hpage, hnext, hcontinued, -⟩ := pages_continue hasks
  have hread (id : Uuid) : Repository.readRecord .user (Resource.user.row (user id)) =
      some (user id) := by
    have hstored : (⟨.epoch, .epoch, false, none⟩ : Stamps).Stored := by decide
    exact Resource.user.readRecord_row hstored
  have htold (rows : List Row) (users : List User)
      (h : rows.map (Repository.readRecord .user) = users.map some) :
      told (.ofRows users 1 .zero User.id) rows := by
    obtain ⟨-, -, -, hanswered, hsucceeds⟩ :=
      hpage server .zero Nat (fun _ n => (.rows rows, n + 1)) 0
    have hexchanges := hanswered (by decide) (by decide) rows rows rows users
      ⟨1, 2, 3, rfl, rfl, rfl⟩ h
    exact ((hsucceeds _).2 ⟨rows, rows, rows, users, _, hexchanges, h,
      Page.shows_ofRows users 1 .zero User.id, rfl⟩).1
  refine ⟨htold _ [user ⟨7⟩, user ⟨9⟩] ?_, htold _ [] rfl, (hnext ⟨7⟩ _ (hcontinued ⟨7⟩)).1⟩
  rw [List.map_cons, List.map_singleton, hread, hread]
  rfl

end MessageBoard
