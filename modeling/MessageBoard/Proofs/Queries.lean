import Mathlib
import MessageBoard.Proofs.Continuation

/-!
# Queries in any order

The pairs of a query are read one after another, up to the first bad one. Nevertheless only the text
of a refusal depends on their order: a query is accepted exactly if each parameter is given once at
most and as the text of a value of its type (`FilterParams.IsReadable`), and what is read of it is
what stands under the names of the parameters. Pairs with other names are not even looked at.
-/

namespace MessageBoard

open Text

/-! ## Entries in another order -/

section Entries

variable {α κ : Type} [DecidableEq κ] {entries entries' : List (κ × α)} {key : κ}

theorem inputs_perm (h : entries.Perm entries') (key : κ) :
    (inputs entries key).Perm (inputs entries' key) := h.filterMap _

theorem mem_inputs_iff {x : α} : x ∈ inputs entries key ↔ (key, x) ∈ entries := by
  rw [inputs, List.mem_filterMap]
  constructor
  · rintro ⟨⟨k, y⟩, he, hx⟩
    obtain ⟨rfl, hy⟩ := Option.ite_none_right_eq_some.1 hx
    exact Option.some.inj hy ▸ he
  · intro h
    exact ⟨(key, x), h, if_pos rfl⟩

theorem length_inputs : (inputs entries key).length = (entries.map Prod.fst).count key := by
  induction entries with
  | nil => rfl
  | cons e entries ih =>
    rw [List.map_cons, List.count_cons]
    by_cases he : e.1 = key
    · subst he
      rw [inputs_cons_self, List.length_cons, ih, beq_self_eq_true, if_pos rfl]
    · rw [inputs_cons_of_ne he, ih, beq_false_of_ne he, if_neg Bool.false_ne_true, Nat.add_zero]

end Entries

section Taken

variable {ε α β : Type} {read : α → Except ε β} {given given' : List α}

theorem Taken.of_perm {slot : Option β} (hperm : given.Perm given') (h : Taken read given slot) :
    Taken read given' slot := by
  cases h with
  | missing =>
    rw [← hperm.nil_eq]
    exact .missing
  | single hx =>
    obtain rfl := List.perm_singleton.1 hperm.symm
    exact .single hx

/-- A field can be filled if it is given once at most, and then as something that can be read. -/
theorem exists_taken_iff :
    (∃ slot, Taken read given slot) ↔ given.length ≤ 1 ∧ ∀ x ∈ given, ∃ v, read x = .ok v := by
  constructor
  · rintro ⟨slot, h⟩
    cases h with
    | missing => exact ⟨Nat.zero_le 1, List.forall_mem_nil _⟩
    | single hx => exact ⟨Nat.le_refl 1, List.forall_mem_singleton.2 ⟨_, hx⟩⟩
  · rintro ⟨hlength, hread⟩
    match given, hlength with
    | [], _ => exact ⟨none, .missing⟩
    | [x], _ =>
      obtain ⟨v, hv⟩ := List.forall_mem_singleton.1 hread
      exact ⟨some v, .single hv⟩

theorem Fields.Told.unique {initial v w : β} {x? : Option α} (h : Told read initial x? v)
    (h' : Told read initial x? w) : v = w := by
  cases h with
  | missing => cases h'; rfl
  | present hx =>
    cases h' with
    | present hx' => exact Except.ok.inj (hx.symm.trans hx')

end Taken

namespace Fields

variable {ε α : Type} {fs : Fields} {readers : fs.Readers ε α}

theorem Gathers.of_perm {given given' : String → List α} {slots : fs.Slots}
    (hperm : ∀ name, (given name).Perm (given' name)) (h : fs.Gathers readers given slots) :
    fs.Gathers readers given' slots := by
  induction fs using Fields.induct with
  | nil => trivial
  | cons name s p rest ih => exact ⟨h.1.of_perm (hperm name), ih h.2⟩

theorem Tells.unique {given : String → Option α} {v w : fs.Val} (h : fs.Tells readers given v)
    (h' : fs.Tells readers given w) : v = w := by
  induction fs using Fields.induct with
  | nil => rfl
  | cons name s p rest ih => exact Prod.ext (h.1.unique h'.1) (ih h.2 h'.2)

def shape? : Fields → String → Option Shape
  | nil, _ => none
  | cons field s _ rest, name => if name = field then some s else rest.shape? name

theorem exists_shape?_iff {name : String} : (∃ s, fs.shape? name = some s) ↔ name ∈ fs.names := by
  induction fs using induct with
  | nil => simp [shape?, names]
  | cons field s p rest ih =>
    rw [shape?, names, List.mem_cons, ← ih]
    by_cases h : name = field <;> simp [h]

theorem queryReaders_eq_ok_iff {name : String} {s : Shape} {p : Presence} {t : String} {v : s.Val} :
    (cons name s p fs).queryReaders.1 t = .ok v ↔ s.ofQuery? t = some v := by
  rw [queryReaders]
  dsimp only
  cases s.ofQuery? t <;> simp

theorem exists_gathers_iff (hnames : fs.names.Nodup) {given : String → List String} :
    (∃ slots, fs.Gathers fs.queryReaders given slots) ↔
      ∀ name s, fs.shape? name = some s →
        (given name).length ≤ 1 ∧ ∀ t ∈ given name, ∃ v, s.ofQuery? t = some v := by
  induction fs using induct with
  | nil => exact iff_of_true ⟨(), trivial⟩ fun _ _ h => by cases h
  | cons field s p rest ih =>
    obtain ⟨hfield, hrest⟩ := List.nodup_cons.1 hnames
    have hfilled : (∃ slot, Taken (cons field s p rest).queryReaders.1 (given field) slot) ↔
        (given field).length ≤ 1 ∧ ∀ t ∈ given field, ∃ v, s.ofQuery? t = some v := by
      simp only [exists_taken_iff, queryReaders_eq_ok_iff]
    constructor
    · rintro ⟨⟨slot, slots⟩, hslot, hslots⟩ name s' hs
      rw [shape?] at hs
      by_cases h : name = field
      · rw [if_pos h] at hs
        obtain rfl := Option.some.inj hs
        exact h ▸ hfilled.1 ⟨slot, hslot⟩
      · rw [if_neg h] at hs
        exact (ih hrest).1 ⟨slots, hslots⟩ name s' hs
    · intro h
      obtain ⟨slot, hslot⟩ := hfilled.2 (h field s (if_pos rfl))
      obtain ⟨slots, hslots⟩ := (ih hrest).2 fun name s' hs => h name s' <| by
        have hne : name ≠ field := fun heq => hfield (heq ▸ exists_shape?_iff.1 ⟨s', hs⟩)
        rw [shape?, if_neg hne, hs]
      exact ⟨(slot, slots), hslot, hslots⟩

end Fields

/-! ## Parameters in queries -/

namespace FilterParams

variable {pairs pairs' : List (String × String)} {params : FilterParams}

/-- Each parameter is given once at most, and as the text of a value of its type. -/
structure IsReadable (pairs : List (String × String)) : Prop where
  once : ∀ name ∈ fields.names, (pairs.map Prod.fst).count name ≤ 1
  typed : ∀ e ∈ pairs, ∀ s, fields.shape? e.1 = some s → ∃ v, s.ofQuery? e.2 = some v

theorem isReadable_iff : IsReadable pairs ↔ ∀ name s, fields.shape? name = some s →
    (inputs pairs name).length ≤ 1 ∧ ∀ t ∈ inputs pairs name, ∃ v, s.ofQuery? t = some v := by
  simp only [length_inputs, mem_inputs_iff]
  constructor
  · intro h name s hs
    exact ⟨h.once name (Fields.exists_shape?_iff.1 ⟨s, hs⟩), fun t ht => h.typed _ ht s hs⟩
  · intro h
    refine ⟨fun name hname => ?_, fun e he s hs => (h e.1 s hs).2 e.2 he⟩
    obtain ⟨s, hs⟩ := Fields.exists_shape?_iff.2 hname
    exact (h name s hs).1

theorem exists_ofPairs_iff : (∃ params, ofPairs pairs = .ok params) ↔ IsReadable pairs := by
  rw [isReadable_iff, ← Fields.exists_gathers_iff nodup_names]
  simp only [ofPairs_eq_ok_iff]
  constructor
  · rintro ⟨_, slots, hgathers, -⟩
    exact ⟨slots, hgathers⟩
  · rintro ⟨slots, hgathers⟩
    exact ⟨_, slots, hgathers, rfl⟩

theorem ofPairs_perm (hperm : pairs.Perm pairs') (h : ofPairs pairs = .ok params) :
    ofPairs pairs' = .ok params := by
  obtain ⟨slots, hgathers, hparams⟩ := ofPairs_eq_ok_iff.1 h
  exact ofPairs_eq_ok_iff.2 ⟨slots, hgathers.of_perm fun name => inputs_perm hperm name, hparams⟩

/-- The parameters say what stands under their names, and no more. -/
abbrev Says (pairs : List (String × String)) (params : FilterParams) : Prop :=
  fields.Tells fields.queryReaders (fun name => pairs.lookup name) (wire.toVal params)

theorem says_of_ofPairs (h : ofPairs pairs = .ok params) : Says pairs params := by
  obtain ⟨slots, hgathers, rfl⟩ := ofPairs_eq_ok_iff.1 h
  exact hgathers.tells.congr fun name _ => head?_inputs.symm

theorem ofPairs_eq_ok_iff_says :
    ofPairs pairs = .ok params ↔ IsReadable pairs ∧ Says pairs params := by
  constructor
  · intro h
    exact ⟨exists_ofPairs_iff.1 ⟨params, h⟩, says_of_ofPairs h⟩
  · rintro ⟨hreadable, hsays⟩
    obtain ⟨params', h⟩ := exists_ofPairs_iff.2 hreadable
    have hsame := congrArg wire.ofVal ((says_of_ofPairs h).unique hsays)
    exact h.trans (congrArg Except.ok hsame)

def known (pairs : List (String × String)) : List (String × String) :=
  pairs.filter fun e => e.1 ∈ fields.names

/-- A pair that names no parameter is skipped. -/
theorem ofPairs_known (pairs : List (String × String)) : ofPairs (known pairs) = ofPairs pairs := by
  have hrun (slots : fields.Slots) :
      (known pairs).foldlM readPair slots = pairs.foldlM readPair slots := by
    induction pairs generalizing slots with
    | nil => rfl
    | cons e pairs ih =>
      rw [known, List.filter_cons]
      by_cases he : e.1 ∈ fields.names
      · rw [if_pos (decide_eq_true he), List.foldlM_cons, List.foldlM_cons]
        exact congrArg _ (funext ih)
      · have hskip : readPair slots e = .ok slots := Fields.gather_of_notMem he
        rw [if_neg (by simpa using he), List.foldlM_cons, hskip]
        exact ih slots
  rw [ofPairs, hrun, ofPairs]

/-! ## Queries -/

variable {query query' : List Char}

theorem ofQuery_eq_error {e : FilterError} (h : ofQuery query = .error e) :
    ∃ reason, e = .malformed reason := by
  rw [ofQuery] at h
  split at h
  · cases h
  · exact ⟨_, (Except.error.inj h).symm⟩

theorem ofQuery_of_known (h : known (formPairs query) = known (formPairs query')) :
    ofQuery query = ofQuery query' := by
  rw [ofQuery, ofQuery, ← ofPairs_known, h, ofPairs_known]

theorem formPairs_joined {parts : List (List Char)} (h : ∀ part ∈ parts, '&' ∉ part) :
    formPairs (['&'].intercalate parts) = (parts.filter (· ≠ [])).map formPair := by
  cases parts with
  | nil => rfl
  | cons part parts => rw [formPairs, pieces_intercalate (List.cons_ne_nil part parts) h]

/-- What is put between the parts of a query does not matter if it is empty or names no
parameter. -/
theorem known_formPairs_insert {before after : List (List Char)} {part : List Char}
    (hparts : ∀ p ∈ before ++ part :: after, '&' ∉ p)
    (hpart : part = [] ∨ (formPair part).1 ∉ fields.names) :
    known (formPairs (['&'].intercalate (before ++ part :: after))) =
      known (formPairs (['&'].intercalate (before ++ after))) := by
  have hothers : ∀ p ∈ before ++ after, '&' ∉ p := fun p hp => hparts p <| by
    rw [List.mem_append] at hp ⊢
    exact hp.imp_right (List.mem_cons_of_mem part)
  rw [formPairs_joined hparts, formPairs_joined hothers]
  rcases hpart with rfl | hname
  · simp [known]
  · by_cases hnil : part = [] <;> simp [known, hnil, hname]

end FilterParams

/-! ## Requests -/

namespace Http

open FilterParams

variable {req : Request} {query query' : List Char}

theorem Request.query_withQuery : (req.withQuery query).query =
    match ofQuery query with
    | .ok params => .ok params
    | .error e => .error (.invalidFilter e) := rfl

theorem Server.respond_withQuery_congr (server : Server) (fresh : Uuid)
    (h : ofQuery query = ofQuery query') :
    server.respond fresh (req.withQuery query) = server.respond fresh (req.withQuery query') := by
  have hrun (limit : Option Duration) (e : Endpoint) :
      e.run limit fresh (req.withQuery query) = e.run limit fresh (req.withQuery query') := by
    cases e with
    | list r => rw [Endpoint.run, Endpoint.run, Request.query_withQuery, h, Request.query_withQuery]
    | _ => rfl
  have hhandle (limit : Option Duration) :
      handle limit fresh (req.withQuery query) = handle limit fresh (req.withQuery query') := by
    simp only [handle, hrun]
    rfl
  rw [respond, hhandle]
  rfl

theorem Request.method_ne_of_endpoint? {e : Endpoint} (h : req.endpoint? = some e) :
    req.method ≠ "OPTIONS" := by
  intro hmethod
  obtain ⟨route, -, hendpoint⟩ := Option.bind_eq_some_iff.1 h
  have hrouted : req.routedMethod = "OPTIONS" := by rw [routedMethod, hmethod]; rfl
  have hnone : route.endpoint? "OPTIONS" = none := by cases route <;> rfl
  rw [hrouted, hnone] at hendpoint
  cases hendpoint

theorem Request.refusal?_of_query {r : Resource} {p : Problem}
    (he : req.endpoint? = some (.list r)) (hquery : req.query = .error p) :
    req.refusal? = some p.response := by
  obtain ⟨route, hroute, hendpoint⟩ := Option.bind_eq_some_iff.1 he
  have hwrong : (Endpoint.list r).wrongQuery req = some p := by
    rw [Endpoint.wrongQuery, hquery, refusalOf_error]
  rw [refusal?_of_endpoint hroute hendpoint, Endpoint.refusal?, hwrong]
  rfl

end Http

open FilterParams

/-- A query is accepted exactly if it gives each parameter once at most, as the text of a value of
its type, and the parameters are what it says of them. So queries with the same pairs in another
order are both accepted, as the same parameters, or both refused, and pairs that are empty or name
no parameter change nothing, wherever they are put in. A request with a query that is refused gets
the response 400 without a word to the store, and requests with queries that say the same are
handled alike. -/
theorem queries_read_in_any_order :
    (∀ query params, ofQuery query = .ok params ↔
      IsReadable (formPairs query) ∧ Says (formPairs query) params) ∧
    (∀ query, (∃ params, ofQuery query = .ok params) ↔ IsReadable (formPairs query)) ∧
    (∀ query query', (formPairs query).Perm (formPairs query') →
      (∃ params, ofQuery query = .ok params ∧ ofQuery query' = .ok params) ∨
        ∃ reason reason', ofQuery query = .error (.malformed reason) ∧
          ofQuery query' = .error (.malformed reason')) ∧
    (∀ query query', known (formPairs query) = known (formPairs query') →
      ofQuery query = ofQuery query') ∧
    (∀ before part after, (∀ p ∈ before ++ part :: after, '&' ∉ p) →
      part = [] ∨ (formPair part).1 ∉ fields.names →
        ofQuery (['&'].intercalate (before ++ part :: after)) =
          ofQuery (['&'].intercalate (before ++ after))) ∧
    ∀ (server : Http.Server) (fresh : Uuid) (req : Http.Request),
      (∀ query query', ofQuery query = ofQuery query' →
        server.respond fresh (req.withQuery query) =
          server.respond fresh (req.withQuery query')) ∧
      ∀ r query reason, req.endpoint? = some (.list r) →
        ofQuery query = .error (.malformed reason) →
        let problem := Http.Problem.invalidFilter (.malformed reason)
        problem.status = 400 ∧ problem.code = "invalid_filter" ∧
          ∀ (σ : Type) (store : Store σ) (s : σ),
            (server.respond fresh (req.withQuery query)).run store s =
              ⟨some (server.finish (req.withQuery query) problem.response), [], s⟩ := by
  have haccepted (query : List Char) :
      (∃ params, ofQuery query = .ok params) ↔ IsReadable (formPairs query) := by
    simp only [ofQuery_eq_ok_iff, exists_ofPairs_iff]
  have hperm {query query' : List Char} {params : FilterParams}
      (h : (formPairs query).Perm (formPairs query')) (hq : ofQuery query = .ok params) :
      ofQuery query' = .ok params :=
    ofQuery_eq_ok_iff.2 (ofPairs_perm h (ofQuery_eq_ok_iff.1 hq))
  refine ⟨fun query params => ?_, haccepted, fun query query' h => ?_,
    fun query query' h => ofQuery_of_known h, fun before part after hparts hpart => ?_,
    fun server fresh req => ⟨fun query query' h => server.respond_withQuery_congr fresh h,
      fun r query reason he h => ⟨rfl, rfl, fun σ store s => ?_⟩⟩⟩
  · rw [ofQuery_eq_ok_iff, ofPairs_eq_ok_iff_says]
  · cases hq : ofQuery query with
    | ok params => exact .inl ⟨params, rfl, hperm h hq⟩
    | error e =>
      cases hq' : ofQuery query' with
      | ok params =>
        rw [hperm h.symm hq'] at hq
        cases hq
      | error e' =>
        obtain ⟨reason, rfl⟩ := ofQuery_eq_error hq
        obtain ⟨reason', rfl⟩ := ofQuery_eq_error hq'
        exact .inr ⟨reason, reason', rfl, rfl⟩
  · exact ofQuery_of_known (known_formPairs_insert hparts hpart)
  · have hquery : (req.withQuery query).query = .error (.invalidFilter (.malformed reason)) := by
      rw [Http.Request.query_withQuery, h]
    have hrefusal : (req.withQuery query).refusal? =
        some (Http.Problem.invalidFilter (.malformed reason)).response :=
      Http.Request.refusal?_of_query he hquery
    have hmethod : (req.withQuery query).method ≠ "OPTIONS" :=
      Http.Request.method_ne_of_endpoint? he
    rw [server.respond_of_refusal fresh hmethod hrefusal, Program.run_done]

/-- Threads of one title asked for in two orders, the second time with a part that means nothing.
A page size that is given twice is refused, even if it is the same. -/
theorem titled_threads_asked_for_in_two_orders :
    let server : Http.Server := ⟨8080, false, ⟨30000000000⟩, ⟨5000000000⟩⟩
    let req : Http.Request := ⟨"GET", ⟨"/api/v1/threads".toList, none⟩, [], []⟩
    let query := "page_size=5&title=Rules".toList
    let query' := "title=Rules&color=red&page_size=%35".toList
    let faulty := "page_size=5&title=Rules&page_size=5".toList
    let problem := Http.Problem.invalidFilter
      (.malformed "Failed to deserialize query string: duplicate field \x60page_size\x60")
    ofQuery query = .ok { title := some "Rules", pageSize := some 5 } ∧
      server.respond .zero (req.withQuery query) = server.respond .zero (req.withQuery query') ∧
      problem.status = 400 ∧
        ∀ (store : Store Nat) (s : Nat), (server.respond .zero (req.withQuery faulty)).run store s =
          ⟨some (server.finish (req.withQuery faulty) problem.response), [], s⟩ := by
  intro server req query query' faulty problem
  obtain ⟨-, -, hperm, -, hinsert, hrequests⟩ := queries_read_in_any_order
  have hquery : ofQuery query = .ok { title := some "Rules", pageSize := some 5 } := rfl
  have hsame : ofQuery query = ofQuery query' := by
    let other := "title=Rules&page_size=%35".toList
    have hother : ofQuery other = ofQuery query := by
      have hpairs : (formPairs query).Perm (formPairs other) := .swap _ _ _
      rcases hperm query other hpairs with ⟨params, h, h'⟩ | ⟨reason, -, h, -⟩
      · rw [h, h']
      · rw [hquery] at h
        cases h
    rw [← hother]
    exact (hinsert ["title=Rules".toList] "color=red".toList ["page_size=%35".toList] (by decide)
      (by decide)).symm
  obtain ⟨halike, hrefused⟩ := hrequests server .zero req
  obtain ⟨hstatus, -, hrun⟩ := hrefused .thread faulty _ rfl rfl
  exact ⟨hquery, halike query query' hsame, hstatus, hrun Nat⟩

end MessageBoard
