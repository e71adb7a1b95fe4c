import MessageBoard.Proofs.Judgement

/-!
# Rows that a creation could have made

A row is creatable if it shows an input and a creation accepts what it shows. It then has a valid
value in every column that inputs set: `Resource.creatable_iff`. Creations make such rows, and
changes, which set nothing but valid values, keep them so. `Keeper.creatable_step` is one call
against a store that keeps the table, `Keeper.creatable_after` is any sequence of them.
-/

namespace MessageBoard

variable {σ : Type}

open TableDeclaration

/-! ## What rules allow -/

namespace Rule

variable {topic : Topic} {v : Value}

theorem exists_uuid_of_allows (h : ({ topic := .identifier } : Rule).Allows v) :
    ∃ id, v = .uuid (some id) := by
  cases allows_required_iff.1 h with
  | identifier id => exact ⟨id, rfl⟩

theorem exists_uuid_of_allows_optional
    (h : ({ topic := .identifier, optional := true } : Rule).Allows v) : ∃ id?, v = .uuid id? := by
  rcases h with h | ⟨-, rfl⟩
  · cases h with
    | identifier id => exact ⟨some id, rfl⟩
  · exact ⟨none, rfl⟩

theorem exists_text_of_allows (htopic : topic.isTextual = true)
    (h : ({ topic } : Rule).Allows v) : ∃ s, v = .text (some s) := by
  cases allows_required_iff.1 h with
  | text _ => exact ⟨_, rfl⟩
  | username _ => exact ⟨_, rfl⟩
  | email _ => exact ⟨_, rfl⟩
  | _ => cases htopic

theorem exists_text_of_allows_optional {max : Nat}
    (h : ({ topic := .text max, optional := true } : Rule).Allows v) :
    ∃ content, v = .text content := by
  rcases h with h | ⟨-, rfl⟩
  · cases h with
    | text _ => exact ⟨_, rfl⟩
  · exact ⟨none, rfl⟩

theorem stored_of_allows {rule : Rule} (h : rule.Allows v) : v.stored = v := by
  rw [Allows] at h
  generalize rule.topic = topic at h
  rcases h with h | ⟨-, rfl⟩
  · cases h <;> rfl
  · cases topic <;> rfl

end Rule

/-! ## Creatable rows -/

namespace Resource

variable (r : Resource)

def inputColumns : Resource → List String
  | user => ["name", "username", "email"]
  | forum => ["owner_id", "name", "description"]
  | thread => ["forum_id", "author_id", "title"]
  | post => ["thread_id", "reply_to", "author_id", "content"]

theorem names_values (i : r.Input) : (r.values i).map (·.1) = r.inputColumns := by
  cases r <;> rfl

variable {r} in
theorem exists_mem_values {column : String} (h : column ∈ r.inputColumns) (i : r.Input) :
    ∃ v, (column, v) ∈ r.values i := by
  rw [← r.names_values i] at h
  obtain ⟨⟨_, v⟩, he, rfl⟩ := List.mem_map.1 h
  exact ⟨v, he⟩

/-- The row has the values of the input. -/
def Shows (row : Tuple) (i : r.Input) : Prop := ∀ e ∈ r.values i, row e.1 = some e.2

/-- A creation could have made the row: it shows an input, and none that a creation refuses. -/
structure Creatable (row : Tuple) : Prop where
  shown : ∃ i, r.Shows row i
  accepted : ∀ i, r.Shows row i → r.checkInput i = .ok ()

variable {r} {row : Tuple}

theorem exists_shows
    (h : ∀ column ∈ r.inputColumns, ∃ v, row column = some v ∧ r.Valid column v) :
    ∃ i, r.Shows row i := by
  have hallowed (column : String) {rule : Rule} (hrule : r.rules.lookup column = some rule)
      (hcolumn : column ∈ r.inputColumns) : ∃ v, row column = some v ∧ rule.Allows v := by
    obtain ⟨v, hv, rule', hrule', hallows⟩ := h column hcolumn
    obtain rfl := Option.some.inj (hrule.symm.trans hrule')
    exact ⟨v, hv, hallows⟩
  have hid (column : String) (hrule : r.rules.lookup column = some { topic := .identifier })
      (hcolumn : column ∈ r.inputColumns) : ∃ id, row column = some (.uuid (some id)) := by
    obtain ⟨v, hv, hallows⟩ := hallowed column hrule hcolumn
    obtain ⟨id, rfl⟩ := Rule.exists_uuid_of_allows hallows
    exact ⟨id, hv⟩
  have htext (column : String) {topic : Topic} (hrule : r.rules.lookup column = some { topic })
      (htopic : topic.isTextual = true) (hcolumn : column ∈ r.inputColumns) :
      ∃ s, row column = some (.text (some s)) := by
    obtain ⟨v, hv, hallows⟩ := hallowed column hrule hcolumn
    obtain ⟨s, rfl⟩ := Rule.exists_text_of_allows htopic hallows
    exact ⟨s, hv⟩
  cases r with
  | user =>
    obtain ⟨name, hname⟩ := htext "name" rfl rfl (by decide)
    obtain ⟨username, husername⟩ := htext "username" rfl rfl (by decide)
    obtain ⟨email, hemail⟩ := htext "email" rfl rfl (by decide)
    exact ⟨⟨name, username, email⟩, by simp [Shows, values, UserInput.values, *]⟩
  | forum =>
    obtain ⟨ownerId, hownerId⟩ := hid "owner_id" rfl (by decide)
    obtain ⟨name, hname⟩ := htext "name" rfl rfl (by decide)
    obtain ⟨v, hdescription, hallows⟩ := hallowed "description" rfl (by decide)
    obtain ⟨description, rfl⟩ := Rule.exists_text_of_allows_optional hallows
    exact ⟨⟨ownerId, name, description⟩, by simp [Shows, values, ForumInput.values, *]⟩
  | thread =>
    obtain ⟨forumId, hforumId⟩ := hid "forum_id" rfl (by decide)
    obtain ⟨authorId, hauthorId⟩ := hid "author_id" rfl (by decide)
    obtain ⟨title, htitle⟩ := htext "title" rfl rfl (by decide)
    exact ⟨⟨forumId, authorId, title⟩, by simp [Shows, values, ThreadInput.values, *]⟩
  | post =>
    obtain ⟨threadId, hthreadId⟩ := hid "thread_id" rfl (by decide)
    obtain ⟨v, hreplyTo, hallows⟩ := hallowed "reply_to" rfl (by decide)
    obtain ⟨replyTo, rfl⟩ := Rule.exists_uuid_of_allows_optional hallows
    obtain ⟨authorId, hauthorId⟩ := hid "author_id" rfl (by decide)
    obtain ⟨content, hcontent⟩ := htext "content" rfl rfl (by decide)
    exact ⟨⟨threadId, replyTo, authorId, content⟩, by simp [Shows, values, PostInput.values, *]⟩

/-- A row is creatable exactly if it has a valid value in every column that an input sets. -/
theorem creatable_iff : r.Creatable row ↔
    ∀ column ∈ r.inputColumns, ∃ v, row column = some v ∧ r.Valid column v := by
  constructor
  · rintro ⟨⟨i, hi⟩, haccepted⟩ column hcolumn
    obtain ⟨v, hv⟩ := exists_mem_values hcolumn i
    exact ⟨v, hi _ hv, (r.checkInput_eq_ok_iff i).1 (haccepted i hi) _ hv⟩
  · refine fun h => ⟨exists_shows h, fun i hi => (r.checkInput_eq_ok_iff i).2 fun e he => ?_⟩
    obtain ⟨v, hv, hvalid⟩ := h e.1 (r.names_values i ▸ List.mem_map_of_mem he)
    obtain rfl := Option.some.inj (hv.symm.trans (hi e he))
    exact hvalid

theorem not_mem_of_mem_inputColumns {column : String} (h : column ∈ r.inputColumns) :
    column ≠ "id" ∧ column ∉ markColumns := by
  have hall : ∀ column ∈ r.inputColumns, column ≠ "id" ∧ column ∉ markColumns := by
    cases r <;> decide
  exact hall column h

theorem stored_of_valid {column : String} {v : Value} (h : r.Valid column v) : v.stored = v := by
  obtain ⟨rule, -, hallows⟩ := h
  exact Rule.stored_of_allows hallows

theorem effect_insert (r : Resource) (id : Uuid) {values : List (String × Value)}
    {ambient : Ambient} {rows : Contents} :
    (Statement.insert r.schema id values).effect ambient r.declaration rows =
      Function.update rows id
        (some (r.declaration.inserted ambient (("id", .uuid (some id)) :: values))) :=
  if_pos (table_eq_name_iff.2 rfl)

/-- An accepted input makes a creatable row. -/
theorem creatable_inserted (ambient : Ambient) (id : Uuid) {i : r.Input}
    (h : r.checkInput i = .ok ()) :
    r.Creatable (r.declaration.inserted ambient (("id", .uuid (some id)) :: r.values i)) := by
  refine creatable_iff.2 fun column hcolumn => ?_
  have hid := (not_mem_of_mem_inputColumns hcolumn).1
  cases hlookup : (r.values i).lookup column with
  | none =>
    obtain ⟨v, hv⟩ := exists_mem_values hcolumn i
    exact absurd rfl (bne_iff_ne.1 (List.lookup_eq_none_iff.1 hlookup _ hv))
  | some v =>
    have hvalid := (r.checkInput_eq_ok_iff i).1 h (column, v) (mem_of_lookup hlookup)
    obtain ⟨c, hc, -⟩ := takes_of_valid hvalid
    refine ⟨v, ?_, hvalid⟩
    rw [inserted_of_lookup_some hc (by rw [List.lookup_cons, beq_false_of_ne hid, hlookup]),
      stored_of_valid hvalid]

end Resource

/-! ## Calls -/

namespace Call

variable {c : Call} {r : Resource} {id : Uuid}

theorem valid_of_supplied? {p : Plan c.Result} (hp : c.plan = .ok p)
    (htarget : c.target? = some (r, id)) {column : String} {v : Value}
    (h : c.supplied? column = some v) : r.Valid column v := by
  have of_patch {r : Resource} {p : r.Patch} {q : Plan r.Record} (hq : patchPlan r p = .ok q)
      (h : r.supplied? p column = some v) : r.Valid column v := by
    cases hcheck : r.checkPatch p with
    | error e =>
      rw [patchPlan, hcheck] at hq
      cases hq
    | ok _ =>
      rw [← r.lookup_assignments] at h
      exact (r.checkPatch_eq_ok_iff p).1 hcheck (column, v) (mem_of_lookup h)
  cases c with
  | patch r p =>
    cases htarget
    exact of_patch hp h
  | setLocked id isLocked =>
    cases htarget
    exact of_patch hp h
  | _ => cases h

theorem creatable_created {p : Plan c.Result} (hp : c.plan = .ok p)
    (htarget : c.target? = some (r, id)) (hdeed : c.deed = .create) (ambient : Ambient)
    (rows : Contents) :
    ∃ row, p.statement.effect ambient r.declaration rows id = some row ∧ r.Creatable row := by
  cases c with
  | create r' fresh input =>
    cases htarget
    cases hcheck : r.checkInput input with
    | error e =>
      rw [plan, hcheck] at hp
      cases hp
    | ok _ =>
      obtain rfl := eq_of_guarded hp
      refine ⟨_, ?_, Resource.creatable_inserted ambient id hcheck⟩
      exact (congrFun (r.effect_insert id) id).trans (Function.update_self ..)
  | _ => cases hdeed

theorem creatable_updated {p : Plan c.Result} (hp : c.plan = .ok p)
    (htarget : c.target? = some (r, id)) (hdeed : c.deed = .change) (ambient : Ambient)
    {row : Tuple} (hrow : r.Creatable row) :
    r.Creatable (r.declaration.updated ambient c.changes row) := by
  refine Resource.creatable_iff.2 fun column hcolumn => ?_
  have hlookup := lookup_changes hdeed (Resource.not_mem_of_mem_inputColumns hcolumn).2
  cases hv : c.supplied? column with
  | none =>
    rw [updated_of_lookup_none (hlookup.trans (by rw [hv, Option.map_none]))]
    exact Resource.creatable_iff.1 hrow column hcolumn
  | some v =>
    have hvalid := valid_of_supplied? hp htarget hv
    obtain ⟨d, hd, -⟩ := Resource.takes_of_valid hvalid
    refine ⟨v, ?_, hvalid⟩
    rw [updated_of_lookup_some hd (hlookup.trans (by rw [hv, Option.map_some])), Term.content,
      Resource.stored_of_valid hvalid]

end Call

namespace Keeper

variable {r : Resource} {store : Store σ} (k : Keeper r.declaration store)
  (limit : Option Duration)

def Creatable (s : σ) : Prop := ∀ id row, k.table s id = some row → r.Creatable row

theorem creatable_step (c : Call) {s : σ} (h : k.Creatable s) :
    k.Creatable ((c.run limit).run store s).state := by
  intro id row hrow
  have hconduct := k.conduct limit c s
  by_cases hok : ((c.run limit).run store s).succeeded = true
  · by_cases htarget : c.target? = some (r, id)
    · obtain ⟨p, hp, htable⟩ := k.table_of_succeeded limit hok
      cases hdeed : c.deed with
      | read =>
        rw [hconduct.read hdeed] at hrow
        exact h id row hrow
      | create =>
        obtain ⟨row', hrow', hcreatable⟩ :=
          Call.creatable_created hp htarget hdeed (k.next s) (k.table s)
        rw [htable, hrow'] at hrow
        obtain rfl := Option.some.inj hrow
        exact hcreatable
      | change =>
        rw [htable, Call.statement_of_plan hp htarget hdeed, r.effect_update,
          Function.update_self] at hrow
        obtain ⟨row, hbefore, rfl⟩ := Option.map_eq_some_iff.1 hrow
        exact Call.creatable_updated hp htarget hdeed _ (h id row hbefore)
      | purge =>
        have hbecomes := (k.obeys limit c s).row id htarget (Outcome.succeeded_iff.1 hok)
        rw [hdeed] at hbecomes
        rw [hbecomes.eq_none_of_purge] at hrow
        cases hrow
    · rw [hconduct.others id htarget] at hrow
      exact h id row hrow
  · rw [hconduct.failed fun a ha => hok (Outcome.succeeded_iff.2 ⟨a, ha⟩)] at hrow
    exact h id row hrow

theorem creatable_after (calls : List Call) {s : σ} (h : k.Creatable s) :
    k.Creatable (Call.after limit store calls s) := by
  induction calls generalizing s with
  | nil => exact h
  | cons c calls ih => exact ih (k.creatable_step limit c h)

end Keeper

/-- Inputs and patches are judged alike. A patch with the texts of an input is told the same as the
input, and both are told what is wrong with the first text that is wrong, in the order in which the
fields are declared. A patch is accepted exactly if each text that it supplies would be accepted in
an input with nothing else wrong. So no calls bring a row of a table into a state that a creation
would have refused. -/
theorem patches_judged_as_inputs :
    (∀ (r : Resource) (p : r.Patch) (i : r.Input), r.SuppliesTexts p i →
      r.checkPatch p = r.checkInput i) ∧
    (∀ (r : Resource) (i : r.Input), ∃ p : r.Patch, r.SuppliesTexts p i) ∧
    (∀ (r : Resource) (i : r.Input) e,
      r.checkInput i = .error e ↔ r.FirstFault (textOf? (r.values i)) e) ∧
    (∀ (r : Resource) (p : r.Patch) e,
      r.checkPatch p = .error e ↔ r.FirstFault (textOf? (r.assignments p)) e) ∧
    (∀ (r : Resource) (p : r.Patch), r.checkPatch p = .ok () ↔
      ∀ f ∈ r.textFields, ∀ s, textOf? (r.assignments p) f.1 = some s →
        (∃ i, r.Isolates f.1 s i) ∧ ∀ i, r.Isolates f.1 s i → r.checkInput i = .ok ()) ∧
    (∀ (σ : Type) (store : Store σ) (r : Resource) (k : Keeper r.declaration store)
      (limit : Option Duration) (calls : List Call) (s : σ), k.Creatable s →
      k.Creatable (Call.after limit store calls s)) := by
  refine ⟨fun r p i => Resource.checkPatch_eq_checkInput, Resource.exists_suppliesTexts,
    fun r i e => ?_, fun r p e => ?_, Resource.checkPatch_eq_ok_iff_isolates,
    fun σ store r k limit calls s => k.creatable_after limit calls⟩
  · rw [Resource.checkInput_eq_judge, Resource.judge_eq_error_iff]
  · rw [Resource.checkPatch_eq_judge, Resource.judge_eq_error_iff]

/-- A patch describes a forum after another one, with a blank name, was refused. -/
theorem patched_forum_creatable :
    let store := Ledger.store (fun _ => .epoch) Tables.forums Forum.fields.names
    let k : Keeper Resource.forum.declaration store := Ledger.keeper _ _ _
    let id : Uuid := ⟨7⟩
    let calls : List Call :=
      [.create .forum id ⟨⟨1⟩, "trains", none⟩, .patch .forum { id, name := some " " },
        .patch .forum { id, description := some "of all sorts" }]
    let blank : ForumPatch := { id, name := some " " }
    let input : ForumInput := ⟨⟨1⟩, " ", none⟩
    Resource.forum.SuppliesTexts blank input ∧ blank.check = input.check ∧
      k.Creatable Ledger.empty ∧
      ∃ row, k.table (Call.after none store calls .empty) id = some row ∧
        row "description" = some (.text (some "of all sorts")) ∧
        Resource.forum.Creatable row := by
  intro store k id calls blank input
  obtain ⟨hsame, -, -, -, -, hafter⟩ := patches_judged_as_inputs
  have hsupplies : Resource.forum.SuppliesTexts blank input := by
    simp [Resource.SuppliesTexts, blank, input, Resource.assignments, ForumPatch.assignments,
      supplied, Resource.values, ForumInput.values, Value.text?]
  have hempty : k.Creatable Ledger.empty := fun id row h => by cases h
  have hdescription : (k.table (Call.after none store calls .empty) id).bind (· "description") =
      some (.text (some "of all sorts")) := by decide +kernel
  obtain ⟨row, hrow, hdescribed⟩ := Option.bind_eq_some_iff.1 hdescription
  exact ⟨hsupplies, hsame .forum blank input hsupplies, hempty, row, hrow, hdescribed,
    hafter _ store .forum k none calls _ hempty id row hrow⟩

end MessageBoard
