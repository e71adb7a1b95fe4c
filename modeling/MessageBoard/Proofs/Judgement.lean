import MessageBoard.Proofs.Accepted
import MessageBoard.Proofs.Contacts
import MessageBoard.Proofs.Edits

/-!
# Inputs and patches are judged alike

The check of an input and the check of a patch are one judgement of the texts under their fields:
`Resource.judge` goes through the fields in the order in which they are declared, passes over those
without a text, and reports what is wrong with the first text that is wrong. So what is said of a
patch can be said of an input with the same texts, and of one field at a time.
-/

namespace MessageBoard

/-! ## Judgements of texts -/

def Value.text? : Value → Option String
  | text content => content
  | _ => none

def textOf? (entries : List (String × Value)) (field : String) : Option String :=
  (entries.lookup field).bind Value.text?

section

variable {entries : List (String × Value)} {column field : String} {v : Value}

@[simp] theorem textOf?_nil : textOf? [] field = none := rfl

@[simp] theorem textOf?_cons : textOf? ((column, v) :: entries) field =
    if field = column then v.text? else textOf? entries field := by
  rw [textOf?, List.lookup_cons]
  by_cases h : field = column
  · rw [if_pos h, beq_iff_eq.2 h]
    rfl
  · rw [if_neg h, beq_false_of_ne h]
    rfl

end

@[simp] theorem bind_text? (content : Option String) :
    (content.map (Value.text ∘ some)).bind Value.text? = content := by
  cases content <;> rfl

namespace Topic

def isTextual : Topic → Bool
  | identifier => false
  | flag => false
  | text _ => true
  | username => true
  | email => true

/-- The check of the text of a field. What has no text is not checked. -/
def check (field : String) : Topic → String → Checked
  | text max, s => requireText field s max
  | username, s => checkUsername s
  | email, s => checkEmail s
  | _, _ => .ok ()

@[simp] theorem check_text (field : String) (max : Nat) :
    (text max).check field = (requireText field · max) := rfl

@[simp] theorem check_username (field : String) : username.check field = checkUsername := rfl

@[simp] theorem check_email (field : String) : email.check field = checkEmail := rfl

/-- What is wrong with the text of a field. -/
inductive Fault (field s : String) : Topic → ValidationError → Prop
  | text {max e} (h : TextFault field max s e) : Fault field s (text max) e
  | username {e} (h : UsernameFault s e) : Fault field s username e
  | email {e} (h : EmailFault s e) : Fault field s email e

variable {topic : Topic} {field s : String} {e : ValidationError}

theorem check_eq_error_iff : topic.check field s = .error e ↔ topic.Fault field s e := by
  cases topic with
  | text max => exact requireText_eq_error_iff.trans ⟨.text, fun | .text h => h⟩
  | username => exact checkUsername_eq_error_iff.trans ⟨.username, fun | .username h => h⟩
  | email => exact checkEmail_eq_error_iff.trans ⟨.email, fun | .email h => h⟩
  | _ => exact iff_of_false nofun nofun

theorem check_eq_ok_iff (h : topic.isTextual = true) :
    topic.check field s = .ok () ↔ topic.Allows (.text (some s)) := by
  cases topic with
  | text max => exact requireText_eq_ok_iff.trans ⟨.text, fun | .text h => h⟩
  | username => exact checkUsername_eq_ok_iff.trans ⟨.username, fun | .username h => h⟩
  | email => exact checkEmail_eq_ok_iff.trans ⟨.email, fun | .email h => h⟩
  | _ => cases h

variable {content : Option String}

theorem forM_check_eq_ok_iff (h : topic.isTextual = true) :
    content.forM (topic.check field) = .ok () ↔
      ∀ t, content = some t → topic.Allows (.text (some t)) := by
  rw [forM_eq_ok_iff_of_some]
  simp only [check_eq_ok_iff h]

theorem forM_check_eq_error_iff : content.forM (topic.check field) = .error e ↔
    ∃ t, content = some t ∧ topic.Fault field t e := by
  cases content with
  | none => exact iff_of_false nofun nofun
  | some s =>
    refine check_eq_error_iff.trans ⟨fun h => ⟨s, rfl, h⟩, ?_⟩
    rintro ⟨t, ⟨⟩, h⟩
    exact h

end Topic

theorem forM_congr_of_mem {ε α : Type} {f g : α → Except ε Unit} {l : List α}
    (h : ∀ a ∈ l, f a = g a) : l.forM f = l.forM g := by
  induction l with
  | nil => rfl
  | cons a l ih =>
    obtain ⟨ha, hl⟩ := List.forall_mem_cons.1 h
    simp only [List.forM_eq_forM, List.forM_cons] at ih ⊢
    rw [ha, ih hl]

namespace Resource

/-- The fields with texts in the order in which they are declared, and what these are about. -/
def textFields (r : Resource) : List (String × Topic) :=
  (r.rules.map fun (field, rule) => (field, rule.topic)).filter (·.2.isTextual)

@[simp] theorem textFields_user :
    textFields user = [("name", .text 256), ("username", .username), ("email", .email)] := rfl

@[simp] theorem textFields_forum :
    textFields forum = [("name", .text 256), ("description", .text 4096)] := rfl

@[simp] theorem textFields_thread : textFields thread = [("title", .text 256)] := rfl

@[simp] theorem textFields_post : textFields post = [("content", .text 65536)] := rfl

def judge (r : Resource) (text? : String → Option String) : Checked :=
  r.textFields.forM fun f => (text? f.1).forM (f.2.check f.1)

/-- The first of the texts that are not allowed has this fault. -/
def FirstFault (r : Resource) (text? : String → Option String) (e : ValidationError) : Prop :=
  ∃ before field topic after s, r.textFields = before ++ (field, topic) :: after ∧
    (∀ f ∈ before, ∀ t, text? f.1 = some t → f.2.Allows (.text (some t))) ∧
    text? field = some s ∧ topic.Fault field s e

variable {r : Resource} {text? : String → Option String} {e : ValidationError}

theorem isTextual_of_mem {f : String × Topic} (h : f ∈ r.textFields) : f.2.isTextual = true :=
  (List.mem_filter.1 h).2

theorem judge_eq_ok_iff : r.judge text? = .ok () ↔
    ∀ f ∈ r.textFields, ∀ s, text? f.1 = some s → f.2.Allows (.text (some s)) := by
  rw [judge, forM_eq_ok_iff]
  exact forall₂_congr fun f hf => Topic.forM_check_eq_ok_iff (isTextual_of_mem hf)

theorem judge_eq_error_iff : r.judge text? = .error e ↔ r.FirstFault text? e := by
  have hpassed {before after : List (String × Topic)} {f : String × Topic}
      (hfields : r.textFields = before ++ f :: after) :
      (∀ f ∈ before, (text? f.1).forM (f.2.check f.1) = .ok ()) ↔
        ∀ f ∈ before, ∀ t, text? f.1 = some t → f.2.Allows (.text (some t)) :=
    forall₂_congr fun f hf => Topic.forM_check_eq_ok_iff
      (isTextual_of_mem (hfields ▸ List.mem_append_left _ hf))
  rw [judge, forM_eq_error_iff]
  constructor
  · rintro ⟨before, ⟨field, topic⟩, after, hfields, hok, herror⟩
    obtain ⟨s, hs, hfault⟩ := Topic.forM_check_eq_error_iff.1 herror
    exact ⟨before, field, topic, after, s, hfields, (hpassed hfields).1 hok, hs, hfault⟩
  · rintro ⟨before, field, topic, after, s, hfields, hok, hs, hfault⟩
    have herror := Topic.forM_check_eq_error_iff.2 ⟨s, hs, hfault⟩
    exact ⟨before, (field, topic), after, hfields, (hpassed hfields).2 hok, herror⟩

end Resource

theorem optionalText_eq_forM {field : String} {content : Option String} {max : Nat} :
    optionalText field content max = content.forM (requireText field · max) := by
  cases content <;> rfl

namespace Resource

variable (r : Resource)

theorem checkInput_eq_judge (i : r.Input) : r.checkInput i = r.judge (textOf? (r.values i)) := by
  cases r with
  | user =>
    simp [checkInput, UserInput.check, judge, Value.text?, values, UserInput.values]
  | forum =>
    simp [checkInput, ForumInput.check, optionalText_eq_forM, judge, Value.text?, values,
      ForumInput.values]
  | thread =>
    simp [checkInput, ThreadInput.check, judge, Value.text?, values, ThreadInput.values]
  | post =>
    simp [checkInput, PostInput.check, judge, Value.text?, values, PostInput.values]

theorem textOf?_assignments (p : r.Patch) (field : String) :
    textOf? (r.assignments p) field = (r.supplied? p field).bind Value.text? := by
  rw [textOf?, lookup_assignments]

theorem checkPatch_eq_judge (p : r.Patch) :
    r.checkPatch p = r.judge (textOf? (r.assignments p)) := by
  rw [funext (r.textOf?_assignments p)]
  cases r with
  | user =>
    simp [checkPatch, UserPatch.check, optionalText_eq_forM, judge, supplied?, UserPatch.supplied?]
  | forum =>
    simp [checkPatch, ForumPatch.check, optionalText_eq_forM, judge, supplied?,
      ForumPatch.supplied?]
  | thread =>
    simp [checkPatch, ThreadPatch.check, optionalText_eq_forM, judge, supplied?,
      ThreadPatch.supplied?]
  | post =>
    simp [checkPatch, PostPatch.check, optionalText_eq_forM, judge, supplied?, PostPatch.supplied?]

def SuppliesTexts (p : r.Patch) (i : r.Input) : Prop :=
  ∀ f ∈ r.textFields, textOf? (r.assignments p) f.1 = textOf? (r.values i) f.1

variable {r} in
theorem checkPatch_eq_checkInput {p : r.Patch} {i : r.Input} (h : r.SuppliesTexts p i) :
    r.checkPatch p = r.checkInput i := by
  rw [checkPatch_eq_judge, checkInput_eq_judge, judge, judge]
  exact forM_congr_of_mem fun f hf => by rw [h f hf]

theorem exists_suppliesTexts (i : r.Input) : ∃ p : r.Patch, r.SuppliesTexts p i := by
  simp only [SuppliesTexts, textOf?_assignments]
  cases r with
  | user =>
    refine ⟨⟨.zero, some i.name, some i.username, some i.email⟩, ?_⟩
    simp [supplied?, UserPatch.supplied?, Value.text?, values, UserInput.values]
  | forum =>
    refine ⟨⟨.zero, none, some i.name, i.description⟩, ?_⟩
    simp [supplied?, ForumPatch.supplied?, Value.text?, values, ForumInput.values]
  | thread =>
    refine ⟨⟨.zero, none, none, some i.title, none⟩, ?_⟩
    simp [supplied?, ThreadPatch.supplied?, Value.text?, values, ThreadInput.values]
  | post =>
    refine ⟨⟨.zero, none, some i.content⟩, ?_⟩
    simp [supplied?, PostPatch.supplied?, Value.text?, values, PostInput.values]

/-! ## One field at a time -/

/-- The input has this text under the field, and nothing is wrong with its other texts. -/
structure Isolates (field s : String) (i : r.Input) : Prop where
  text : textOf? (r.values i) field = some s
  others : ∀ f ∈ r.textFields, f.1 ≠ field → ∀ t, textOf? (r.values i) f.1 = some t →
    f.2.Allows (.text (some t))

theorem exists_isolates {f : String × Topic} (h : f ∈ r.textFields) (s : String) :
    ∃ i, r.Isolates f.1 s i := by
  have hname : Topic.Allows (.text 256) (.text (some "a")) :=
    .text (requireText_eq_ok_iff.1 (rfl : requireText "name" "a" 256 = .ok ()))
  have husername : Topic.Allows .username (.text (some "a")) :=
    .username (checkUsername_eq_ok_iff.1 (by decide +kernel))
  have hemail : Topic.Allows .email (.text (some "a@b.c")) :=
    .email (checkEmail_eq_ok_iff.1 (by decide +kernel))
  cases r with
  | user =>
    simp only [textFields_user, List.mem_cons, List.not_mem_nil, or_false] at h
    rcases h with rfl | rfl | rfl
    · refine ⟨⟨s, "a", "a@b.c"⟩, rfl, ?_⟩
      simp [Value.text?, values, UserInput.values, *]
    · refine ⟨⟨"a", s, "a@b.c"⟩, rfl, ?_⟩
      simp [Value.text?, values, UserInput.values, *]
    · refine ⟨⟨"a", "a", s⟩, rfl, ?_⟩
      simp [Value.text?, values, UserInput.values, *]
  | forum =>
    simp only [textFields_forum, List.mem_cons, List.not_mem_nil, or_false] at h
    rcases h with rfl | rfl
    · refine ⟨⟨.zero, s, none⟩, rfl, ?_⟩
      simp [Value.text?, values, ForumInput.values]
    · refine ⟨⟨.zero, "a", some s⟩, rfl, ?_⟩
      simp [Value.text?, values, ForumInput.values, *]
  | thread =>
    obtain rfl := List.mem_singleton.1 h
    exact ⟨⟨.zero, .zero, s⟩, rfl, by simp⟩
  | post =>
    obtain rfl := List.mem_singleton.1 h
    exact ⟨⟨.zero, none, .zero, s⟩, rfl, by simp⟩

/-- A patch is accepted exactly if each text that it supplies is, in any input with nothing else
wrong. -/
theorem checkPatch_eq_ok_iff_isolates (p : r.Patch) : r.checkPatch p = .ok () ↔
    ∀ f ∈ r.textFields, ∀ s, textOf? (r.assignments p) f.1 = some s →
      (∃ i, r.Isolates f.1 s i) ∧ ∀ i, r.Isolates f.1 s i → r.checkInput i = .ok () := by
  rw [checkPatch_eq_judge, judge_eq_ok_iff]
  constructor
  · intro h f hf s hs
    refine ⟨r.exists_isolates hf s, fun i hi => ?_⟩
    rw [checkInput_eq_judge, judge_eq_ok_iff]
    intro g hg t ht
    by_cases hfield : g.1 = f.1
    · rw [hfield, hi.text] at ht
      obtain rfl := Option.some.inj ht
      exact h g hg s (hfield ▸ hs)
    · exact hi.others g hg hfield t ht
  · intro h f hf s hs
    obtain ⟨⟨i, hi⟩, haccepted⟩ := h f hf s hs
    have hok := haccepted i hi
    rw [checkInput_eq_judge, judge_eq_ok_iff] at hok
    exact hok f hf s hi.text

end Resource

end MessageBoard
