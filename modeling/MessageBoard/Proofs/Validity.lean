import MessageBoard.Proofs.Grammar
import MessageBoard.Proofs.Lifetime

/-!
# Valid values

Each column that a caller can set has a rule, one for inputs and patches alike. An input passes its
check exactly if all its values are valid, and so does a patch: `Resource.checkInput_eq_ok_iff` and
`Resource.checkPatch_eq_ok_iff`.

What a table takes is read off its declaration, apart from the rules. `Resource.takes_of_valid` says
that it takes every valid value.
-/

namespace MessageBoard

open Text

/-! ## What a table takes -/

def Bind.isNull : Bind → Bool
  | .value v => v.isNull
  | .smallint _ => false

/-- The values of a type, its null among them. -/
def StorageType.Holds : StorageType → Bind → Prop
  | uuid, .value (.uuid _) => True
  | varchar n, .value (.text content) => ∀ s, content = some s → s.length ≤ n
  | text, .value (.text _) => True
  | timestamp, .value (.instant _) => True
  | boolean, .value (.flag _) => True
  | smallint, .smallint _ => True
  | _, _ => False

def IsListed (c : Char) : Prop :=
  ('a' ≤ c ∧ c ≤ 'z') ∨ ('A' ≤ c ∧ c ≤ 'Z') ∨ ('0' ≤ c ∧ c ≤ '9') ∨ c = '_' ∨ c = '.' ∨ c = '-'

/-- A null meets every demand: what is not known to be false is let through. -/
def Demand.MetBy : Demand → Bind → Prop
  | username, .value (.text (some s)) =>
    1 ≤ s.length ∧ s.length ≤ 64 ∧ ∀ c ∈ s.toList, IsListed c
  | sign, .smallint n => -1 ≤ n ∧ n ≤ 1
  | _, b => b.isNull = true

/-- The column, as it is declared, takes the value. -/
structure ColumnDeclaration.Takes (c : ColumnDeclaration) (b : Bind) : Prop where
  holds : c.type.Holds b
  present : c.notNull = true ∨ c.isKey = true → b.isNull = false
  met : ∀ d, c.demand = some d → d.MetBy b

/-! ## Rules -/

/-- What a column that callers can set is about. -/
inductive Topic where
  | identifier
  | flag
  | text (max : Nat)
  | username
  | email
  deriving DecidableEq

structure Rule where
  topic : Topic
  optional : Bool := false
  deriving DecidableEq

def Resource.rules (r : Resource) : List (String × Rule) :=
  ("id", { topic := .identifier }) :: match r with
    | user => [("name", { topic := .text 256 }), ("username", { topic := .username }),
        ("email", { topic := .email })]
    | forum => [("owner_id", { topic := .identifier }), ("name", { topic := .text 256 }),
        ("description", { topic := .text 4096, optional := true })]
    | thread => [("forum_id", { topic := .identifier }), ("author_id", { topic := .identifier }),
        ("title", { topic := .text 256 }), ("is_locked", { topic := .flag })]
    | post => [("thread_id", { topic := .identifier }),
        ("reply_to", { topic := .identifier, optional := true }),
        ("author_id", { topic := .identifier }), ("content", { topic := .text 65536 })]

def IsShort (max : Nat) (s : String) : Prop := allBlank s = false ∧ s.length ≤ max

def IsEmail (s : String) : Prop := IsShort 256 s ∧ emailPattern.Matches s.toList

namespace Topic

inductive Allows : Topic → Value → Prop
  | identifier (id : Uuid) : Allows identifier (.uuid (some id))
  | flag (b : Bool) : Allows flag (.flag (some b))
  | text {max : Nat} {s : String} (h : IsShort max s) : Allows (text max) (.text (some s))
  | username {s : String} (h : IsUsername s) : Allows username (.text (some s))
  | email {s : String} (h : IsEmail s) : Allows email (.text (some s))

def null : Topic → Value
  | identifier => .uuid none
  | flag => .flag none
  | text _ => .text none
  | username => .text none
  | email => .text none

end Topic

def Rule.Allows (rule : Rule) (v : Value) : Prop :=
  rule.topic.Allows v ∨ rule.optional = true ∧ v = rule.topic.null

namespace Rule

variable {max : Nat} {s : String}

@[simp] theorem allows_identifier (id : Uuid) :
    ({ topic := .identifier } : Rule).Allows (.uuid (some id)) := .inl (.identifier id)

@[simp] theorem allows_flag (b : Bool) :
    ({ topic := .flag } : Rule).Allows (.flag (some b)) := .inl (.flag b)

theorem allows_required_iff {topic : Topic} {v : Value} :
    ({ topic } : Rule).Allows v ↔ topic.Allows v := or_iff_left fun h => nomatch h.1

@[simp] theorem allows_text :
    ({ topic := .text max } : Rule).Allows (.text (some s)) ↔ IsShort max s := by
  rw [allows_required_iff]
  exact ⟨fun | .text h => h, .text⟩

@[simp] theorem allows_username :
    ({ topic := .username } : Rule).Allows (.text (some s)) ↔ IsUsername s := by
  rw [allows_required_iff]
  exact ⟨fun | .username h => h, .username⟩

@[simp] theorem allows_email :
    ({ topic := .email } : Rule).Allows (.text (some s)) ↔ IsEmail s := by
  rw [allows_required_iff]
  exact ⟨fun | .email h => h, .email⟩

@[simp] theorem allows_identifier_optional (id : Option Uuid) :
    ({ topic := .identifier, optional := true } : Rule).Allows (.uuid id) := by
  cases id with
  | none => exact .inr ⟨rfl, rfl⟩
  | some id => exact .inl (.identifier id)

@[simp] theorem allows_text_optional {content : Option String} :
    ({ topic := .text max, optional := true } : Rule).Allows (.text content) ↔
      ∀ s, content = some s → IsShort max s := by
  cases content with
  | none => exact iff_of_true (.inr ⟨rfl, rfl⟩) nofun
  | some s =>
    constructor
    · rintro (h | h) t ⟨⟩
      · cases h with
        | text h => exact h
      · cases h.2
    · intro h
      exact .inl (.text (h s rfl))

end Rule

/-- The value may stand in the column of the resource. -/
def Resource.Valid (r : Resource) (column : String) (v : Value) : Prop :=
  ∃ rule, r.rules.lookup column = some rule ∧ rule.Allows v

/-! ## Checks and rules -/

theorem checks_eq_ok_iff {x y : Checked} :
    (do x; y) = .ok () ↔ x = .ok () ∧ y = .ok () := by
  cases x with
  | error e => exact iff_of_false nofun fun h => nomatch h.1
  | ok _ => exact ⟨fun h => ⟨rfl, h⟩, And.right⟩

variable {field : String} {max : Nat} {content : Option String}

theorem requireText_eq_ok_iff {s : String} : requireText field s max = .ok () ↔ IsShort max s := by
  rw [requireText, IsShort]
  by_cases hblank : allBlank s = true
  · rw [if_pos hblank]
    exact iff_of_false nofun fun h => by simp [hblank] at h
  · by_cases hlong : max < s.length
    · rw [if_neg hblank, if_pos hlong]
      exact iff_of_false nofun fun h => absurd h.2 (Nat.not_le.2 hlong)
    · rw [if_neg hblank, if_neg hlong]
      exact iff_of_true rfl ⟨Bool.not_eq_true _ ▸ hblank, Nat.not_lt.1 hlong⟩

theorem checkEmail_eq_ok_iff {email : String} : checkEmail email = .ok () ↔ IsEmail email := by
  rw [checkEmail, checks_eq_ok_iff, requireText_eq_ok_iff, IsEmail, ← Pattern.accepts_iff_matches]
  by_cases h : emailPattern.accepts email.toList = true
  · simp only [h, if_true]
  · simp only [h, if_false, reduceCtorEq, Bool.false_eq_true]

theorem forM_eq_ok_iff_of_some {check : String → Checked} :
    content.forM check = .ok () ↔ ∀ s, content = some s → check s = .ok () := by
  cases content with
  | none => exact iff_of_true rfl nofun
  | some s =>
    constructor
    · rintro h t ⟨⟩
      exact h
    · intro h
      exact h s rfl

theorem optionalText_eq_ok_iff :
    optionalText field content max = .ok () ↔ ∀ s, content = some s → IsShort max s := by
  cases content with
  | none => exact iff_of_true rfl nofun
  | some s =>
    rw [optionalText, requireText_eq_ok_iff]
    constructor
    · rintro h t ⟨⟩
      exact h
    · intro h
      exact h s rfl

theorem forall_supplied {α : Type} {column : String} {value : Option α → Value} {content : Option α}
    {P : String × Value → Prop} :
    (∀ e ∈ supplied column value content, P e) ↔
      ∀ a, content = some a → P (column, value (some a)) := by
  cases content with
  | none => exact iff_of_true (List.forall_mem_nil _) nofun
  | some a =>
    rw [supplied, List.forall_mem_singleton]
    constructor
    · rintro h b ⟨⟩
      exact h
    · intro h
      exact h a rfl

namespace Resource

/-- An input passes its check exactly if all its values are valid. -/
theorem checkInput_eq_ok_iff (r : Resource) (input : r.Input) :
    r.checkInput input = .ok () ↔ ∀ e ∈ r.values input, r.Valid e.1 e.2 := by
  cases r with
  | user =>
    simp only [checkInput, UserInput.check, checks_eq_ok_iff, requireText_eq_ok_iff,
      checkUsername_eq_ok_iff, checkEmail_eq_ok_iff]
    simp [values, UserInput.values, Valid, rules, List.lookup_cons]
  | forum =>
    simp only [checkInput, ForumInput.check, checks_eq_ok_iff, requireText_eq_ok_iff,
      optionalText_eq_ok_iff]
    simp [values, ForumInput.values, Valid, rules, List.lookup_cons]
  | thread =>
    simp only [checkInput, ThreadInput.check, requireText_eq_ok_iff]
    simp [values, ThreadInput.values, Valid, rules, List.lookup_cons]
  | post =>
    simp only [checkInput, PostInput.check, requireText_eq_ok_iff]
    simp [values, PostInput.values, Valid, rules, List.lookup_cons]

/-- A patch passes its check exactly if all the values that it supplies are valid. -/
theorem checkPatch_eq_ok_iff (r : Resource) (p : r.Patch) :
    r.checkPatch p = .ok () ↔ ∀ e ∈ r.assignments p, r.Valid e.1 e.2 := by
  cases r with
  | user =>
    simp only [checkPatch, UserPatch.check, checks_eq_ok_iff, optionalText_eq_ok_iff,
      forM_eq_ok_iff_of_some, checkUsername_eq_ok_iff, checkEmail_eq_ok_iff, assignments,
      UserPatch.assignments, List.forall_mem_append, forall_supplied]
    simp [Valid, rules, List.lookup_cons, and_assoc]
  | forum =>
    simp only [checkPatch, ForumPatch.check, checks_eq_ok_iff, optionalText_eq_ok_iff, assignments,
      ForumPatch.assignments, List.forall_mem_append, forall_supplied]
    simp [Valid, rules, List.lookup_cons]
  | thread =>
    simp only [checkPatch, ThreadPatch.check, optionalText_eq_ok_iff, assignments,
      ThreadPatch.assignments, List.forall_mem_append, forall_supplied]
    simp [Valid, rules, List.lookup_cons]
  | post =>
    simp only [checkPatch, PostPatch.check, optionalText_eq_ok_iff, assignments,
      PostPatch.assignments, List.forall_mem_append, forall_supplied]
    simp [Valid, rules, List.lookup_cons]

end Resource

/-! ## Rules and declarations -/

namespace Topic

def fits : Topic → StorageType → Bool
  | identifier, .uuid => true
  | flag, .boolean => true
  | text max, .varchar n => max ≤ n
  | text _, .text => true
  | username, .varchar n => 64 ≤ n
  | email, .varchar n => 256 ≤ n
  | _, _ => false

variable {topic : Topic} {type : StorageType} {v : Value}

theorem holds_of_allows (hfits : topic.fits type = true) (h : topic.Allows v) :
    type.Holds (.value v) := by
  cases h with
  | identifier id => cases type <;> first | exact trivial | cases hfits
  | flag b => cases type <;> first | exact trivial | cases hfits
  | text h =>
    cases type with
    | varchar n =>
      rintro t ⟨⟩
      exact h.2.trans (of_decide_eq_true hfits)
    | text => exact trivial
    | _ => cases hfits
  | username h =>
    cases type with
    | varchar n =>
      rintro t ⟨⟩
      exact h.2.1.trans (of_decide_eq_true hfits)
    | _ => cases hfits
  | email h =>
    cases type with
    | varchar n =>
      rintro t ⟨⟩
      exact h.1.2.trans (of_decide_eq_true hfits)
    | _ => cases hfits

theorem holds_null (hfits : topic.fits type = true) : type.Holds (.value topic.null) := by
  have hnone (n : Nat) : StorageType.Holds (.varchar n) (.value (.text none)) :=
    fun s h => nomatch h
  cases topic <;> cases type <;> first | exact trivial | exact hnone _ | cases hfits

theorem isNull_of_allows (h : topic.Allows v) : v.isNull = false := by
  cases h <;> rfl

end Topic

theorem isListed_of_isUsernameChar {c : Char} (h : isUsernameChar c = true) : IsListed c := by
  simp only [isUsernameChar, Char.isAlphanum, Char.isAlpha, Char.isUpper, Char.isLower,
    Char.isDigit, Bool.or_eq_true, Bool.and_eq_true, decide_eq_true_eq, beq_iff_eq] at h
  rcases h with (((((h | h) | h) | h) | h) | h)
  · exact .inr (.inl h)
  · exact .inl h
  · exact .inr (.inr (.inl h))
  · exact .inr (.inr (.inr (.inl h)))
  · exact .inr (.inr (.inr (.inr (.inl h))))
  · exact .inr (.inr (.inr (.inr (.inr h))))

theorem toNat_of_isListed {c : Char} (h : IsListed c) : 45 ≤ c.toNat ∧ c.toNat ≤ 122 := by
  have range {a b : Char} (hl : a ≤ c) (hu : c ≤ b) : a.toNat ≤ c.toNat ∧ c.toNat ≤ b.toNat :=
    ⟨UInt32.le_iff_toNat_le.1 (Char.le_def.1 hl), UInt32.le_iff_toNat_le.1 (Char.le_def.1 hu)⟩
  rcases h with ⟨hl, hu⟩ | ⟨hl, hu⟩ | ⟨hl, hu⟩ | rfl | rfl | rfl
  · exact (range hl hu).imp (le_trans (by decide)) (le_trans · (by decide))
  · exact (range hl hu).imp (le_trans (by decide)) (le_trans · (by decide))
  · exact (range hl hu).imp (le_trans (by decide)) (le_trans · (by decide))
  · decide
  · decide
  · decide

theorem not_isBlank_of_isListed {c : Char} (h : IsListed c) : isBlank c = false := by
  obtain ⟨hl, hu⟩ := toNat_of_isListed h
  simp only [isBlank, Bool.or_eq_false_iff, Bool.and_eq_false_iff, decide_eq_false_iff_not,
    beq_eq_false_iff_ne]
  omega

namespace IsUsername

variable {s : String}

theorem metBy (h : IsUsername s) : Demand.MetBy .username (.value (.text (some s))) := by
  obtain ⟨hne, hlength, hall⟩ := h
  refine ⟨?_, hlength, fun c hc => isListed_of_isUsernameChar (hall c hc)⟩
  exact Nat.one_le_iff_ne_zero.2 (mt String.length_eq_zero_iff.1 hne)

theorem not_blank (h : IsUsername s) : allBlank s = false := by
  obtain ⟨hne, -, hall⟩ := h
  have hlist : s.toList ≠ [] := mt String.toList_eq_nil_iff.1 hne
  obtain ⟨c, hc⟩ := List.exists_mem_of_ne_nil _ hlist
  rw [allBlank, List.all_eq_false]
  exact ⟨c, hc, by simp [not_isBlank_of_isListed (isListed_of_isUsernameChar (hall c hc))]⟩

end IsUsername

def Rule.fits (rule : Rule) (c : ColumnDeclaration) : Bool :=
  rule.topic.fits c.type && !(rule.optional && (c.notNull || c.isKey)) &&
    match c.demand with
    | none => true
    | some .username => rule.topic == .username
    | some .sign => false

theorem Rule.takes_of_fits {rule : Rule} {c : ColumnDeclaration} {v : Value}
    (hfits : rule.fits c = true) (h : rule.Allows v) :
    c.Takes (.value v) ∧ (c.notNull = true → ∀ s, v = .text (some s) → allBlank s = false) := by
  rw [fits, Bool.and_eq_true, Bool.and_eq_true] at hfits
  obtain ⟨⟨htype, hpresent⟩, hdemand⟩ := hfits
  rw [Allows] at h
  generalize rule.topic = topic at h htype hdemand
  rcases h with h | ⟨hoptional, rfl⟩
  · refine ⟨⟨Topic.holds_of_allows htype h, fun _ => Topic.isNull_of_allows h, ?_⟩, ?_⟩
    · intro d hd
      rw [hd] at hdemand
      cases d with
      | username =>
        obtain rfl := eq_of_beq hdemand
        cases h with
        | username h => exact h.metBy
      | sign => cases hdemand
    · rintro - s rfl
      cases h with
      | text h => exact h.1
      | username h => exact h.not_blank
      | email h => exact h.1.1
  · have hnullable : c.notNull = false ∧ c.isKey = false := by
      simpa [hoptional] using hpresent
    refine ⟨⟨Topic.holds_null htype, ?_, ?_⟩, ?_⟩
    · rintro (h | h)
      · exact absurd h (by simp [hnullable.1])
      · exact absurd h (by simp [hnullable.2])
    · intro d hd
      rw [hd] at hdemand
      cases d with
      | username =>
        obtain rfl := eq_of_beq hdemand
        rfl
      | sign => cases hdemand
    · intro h
      exact absurd h (by simp [hnullable.1])

theorem Resource.rules_fit (r : Resource) : ∀ e ∈ r.rules,
    ∃ c, r.declaration.column? e.1 = some c ∧ e.2.fits c = true := by
  have hall : r.rules.all (fun e => (r.declaration.column? e.1).any e.2.fits) = true := by
    cases r <;> decide
  intro e he
  exact (Option.any_eq_true _ _).1 (List.all_eq_true.1 hall e he)

theorem mem_of_lookup {α : Type} {entries : List (String × α)} {column : String} {a : α}
    (h : entries.lookup column = some a) : (column, a) ∈ entries := by
  obtain ⟨before, rest, rfl, -⟩ := List.lookup_eq_some_iff.1 h
  exact List.mem_append_right _ List.mem_cons_self

/-- A table takes every valid value, and no valid value of a required text is blank. -/
theorem Resource.takes_of_valid {r : Resource} {column : String} {v : Value}
    (h : r.Valid column v) :
    ∃ c, r.declaration.column? column = some c ∧ c.Takes (.value v) ∧
      (c.notNull = true → ∀ s, v = .text (some s) → allBlank s = false) := by
  obtain ⟨rule, hrule, hallows⟩ := h
  obtain ⟨c, hc, hfits⟩ := r.rules_fit (column, rule) (mem_of_lookup hrule)
  exact ⟨c, hc, Rule.takes_of_fits hfits hallows⟩

end MessageBoard
