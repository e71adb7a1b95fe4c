import Mathlib
import MessageBoard.Proofs.Layers

/-!
# Overrides up to the first fault

The variables of the environment are looked at one after the other. The first one whose value its
setting cannot take ends this: the settings of those before it are changed, and no other is. So the
outcome depends on nothing but these variables, and nothing is changed by doing all of it again.
-/

namespace MessageBoard.Text

/-! ## Numerals with a sign -/

theorem digit?_ten (c : Char) :
    digit? 10 c = if c.isDigit then some (c.toNat - '0'.toNat) else none := by
  have hdecimal : c.isDigit = true ↔ '0' ≤ c ∧ c ≤ '9' := by
    simp [Char.isDigit, Char.le_def]
  rw [digit?, digitValue?]
  by_cases hc : c.isDigit = true
  · have hlt : c.toNat - '0'.toNat < 10 := by
      have hnine : c.toNat ≤ 57 := (hdecimal.1 hc).2
      have hzero : '0'.toNat = 48 := rfl
      omega
    rw [if_pos hc, if_pos (hdecimal.1 hc), Option.bind_some, if_pos hlt]
  · rw [if_neg hc, if_neg (mt hdecimal.2 hc)]
    split_ifs
    · simp
    · simp
    · rfl

theorem ofDigits?_ten (cs : List Char) :
    ofDigits? 10 cs =
      if ∀ c ∈ cs, c.isDigit = true then some (Nat.ofDigitChars 10 cs 0) else none := by
  rw [ofDigits?]
  generalize 0 = n
  induction cs generalizing n with
  | nil => simp
  | cons c cs ih =>
    rw [List.foldlM_cons, digit?_ten, Nat.ofDigitChars_cons]
    by_cases hc : c.isDigit = true
    · rw [if_pos hc]
      simp only [List.forall_mem_cons, hc, true_and]
      exact ih _
    · rw [if_neg hc, if_neg fun h => hc (h c List.mem_cons_self)]
      rfl

def Writes (digits : List Char) (n : Nat) : Prop :=
  digits ≠ [] ∧ (∀ d ∈ digits, d.isDigit = true) ∧ Nat.ofDigitChars 10 digits 0 = n

theorem Writes.head?_ne {digits : List Char} {n : Nat} (h : Writes digits n) :
    digits.head? ≠ some '+' := fun hplus =>
  absurd (h.2.1 '+' (List.mem_of_mem_head? hplus)) (by decide)

theorem unsigned?_eq_some_iff {bound n : Nat} {cs : List Char} :
    unsigned? bound cs = some n ↔
      (Writes cs n ∨ ∃ digits, cs = '+' :: digits ∧ Writes digits n) ∧ n < bound := by
  have hread (digits : List Char) :
      (if digits = [] then none
        else (ofDigits? 10 digits).bind fun m => if m < bound then some m else none) = some n ↔
        Writes digits n ∧ n < bound := by
    rw [ofDigits?_ten, Writes]
    split_ifs with hnil hdigits
    · simp [hnil]
    · simp only [Option.bind_some, Option.ite_none_right_eq_some, Option.some.injEq]
      constructor
      · rintro ⟨hlt, rfl⟩
        exact ⟨⟨hnil, hdigits, rfl⟩, hlt⟩
      · rintro ⟨⟨-, -, rfl⟩, hlt⟩
        exact ⟨hlt, rfl⟩
    · simp [hdigits]
  rw [unsigned?, hread]
  refine and_congr_left' ?_
  split_ifs with hplus
  · obtain ⟨digits, rfl⟩ := List.head?_eq_some_iff.1 hplus
    constructor
    · exact fun h => .inr ⟨digits, rfl, h⟩
    · rintro (h | ⟨_, heq, h⟩)
      · exact absurd hplus h.head?_ne
      · rw [(List.cons.inj heq).2]
        exact h
  · constructor
    · exact .inl
    · rintro (h | ⟨_, rfl, -⟩)
      · exact h
      · exact absurd rfl hplus

end MessageBoard.Text

namespace MessageBoard.Config

variable {lookup : String → Option String}

/-! ## What a variable is read as -/

/-- The variables with the settings they are for, in the order in which they are looked at. -/
def variableSettings : List (String × Key) :=
  [("DATABASE_URL", .url),
    ("ROSETTA_DATABASE_HOST", .host),
    ("ROSETTA_DATABASE_PORT", .port),
    ("ROSETTA_DATABASE_USERNAME", .username),
    ("ROSETTA_DATABASE_PASSWORD", .password),
    ("ROSETTA_DATABASE_NAME", .database),
    ("ROSETTA_DATABASE_MAX_CONNECTIONS", .maxConnections),
    ("ROSETTA_DATABASE_TIMEOUT_SECONDS", .timeoutSeconds),
    ("ROSETTA_SERVER_BIND", .bind)]

def Numeral (value : String) (n : Nat) : Prop :=
  Text.Writes value.toList n ∨ ∃ digits, value.toList = '+' :: digits ∧ Text.Writes digits n

theorem number?_eq_some_iff {bound : Nat} {value : String} {n : Nat} :
    number? bound value = some n ↔ Numeral value n ∧ n < bound :=
  Text.unsigned?_eq_some_iff

namespace Key

/-- The text is this content of the setting: itself, the numeral of the number, or the text of the
address. Three settings have no texts. -/
def Reads : (k : Key) → String → k.Content → Prop
  | bind, value, a => Net.SocketAddress.ofText? value = some a
  | url, value, s | host, value, s | username, value, s | password, value, s
  | database, value, s => s = value
  | port, value, n => Numeral value n.toNat
  | maxConnections, value, n => Numeral value n.toNat
  | timeoutSeconds, value, n => Numeral value n.toNat
  | corsPermissive, _, _ | requestTimeoutSeconds, _, _ | idleTimeoutMinutes, _, _ => False

def read? : (k : Key) → String → Option k.Content
  | bind => Net.SocketAddress.ofText?
  | url | host | username | password | database => some
  | port => fun value => (number? UInt16.size value).map .ofNat
  | maxConnections => fun value => (number? UInt32.size value).map .ofNat
  | timeoutSeconds => fun value => (number? UInt64.size value).map .ofNat
  | corsPermissive | requestTimeoutSeconds | idleTimeoutMinutes => fun _ => none

theorem map_ofNat_eq_some_iff {α : Type} {bound : Nat} {ofNat : Nat → α} {toNat : α → Nat}
    (hlt : ∀ x, toNat x < bound) (hof : ∀ x, ofNat (toNat x) = x)
    (hto : ∀ n, n < bound → toNat (ofNat n) = n) {value : String} {x : α} :
    (number? bound value).map ofNat = some x ↔ Numeral value (toNat x) := by
  rw [Option.map_eq_some_iff]
  constructor
  · rintro ⟨n, hn, rfl⟩
    obtain ⟨hnumeral, hbound⟩ := number?_eq_some_iff.1 hn
    rw [hto n hbound]
    exact hnumeral
  · exact fun h => ⟨toNat x, number?_eq_some_iff.2 ⟨h, hlt x⟩, hof x⟩

theorem read?_eq_some_iff {k : Key} {value : String} {x : k.Content} :
    k.read? value = some x ↔ k.Reads value x := by
  cases k with
  | bind => exact Iff.rfl
  | url | host | username | password | database =>
    exact ⟨fun h => (Option.some.inj h).symm, fun h => congrArg some h.symm⟩
  | port =>
    exact map_ofNat_eq_some_iff UInt16.toNat_lt_size (fun _ => UInt16.ofNat_toNat)
      fun _ => UInt16.toNat_ofNat_of_lt'
  | maxConnections =>
    exact map_ofNat_eq_some_iff UInt32.toNat_lt_size (fun _ => UInt32.ofNat_toNat)
      fun _ => UInt32.toNat_ofNat_of_lt'
  | timeoutSeconds =>
    exact map_ofNat_eq_some_iff UInt64.toNat_lt_size (fun _ => UInt64.ofNat_toNat)
      fun _ => UInt64.toNat_ofNat_of_lt'
  | corsPermissive | requestTimeoutSeconds | idleTimeoutMinutes =>
    exact iff_of_false (fun h => by cases h) id

end Key

theorem Key.Reads.unique {k : Key} {value : String} {x y : k.Content} (hx : k.Reads value x)
    (hy : k.Reads value y) : x = y :=
  Option.some.inj ((Key.read?_eq_some_iff.2 hx).symm.trans (Key.read?_eq_some_iff.2 hy))

theorem environmentSource_of_mem {v : String × Key} (hv : v ∈ variableSettings) :
    environmentSource lookup v.2 = (lookup v.1).mapM v.2.read? := by
  simp only [variableSettings, List.mem_cons, List.not_mem_nil, or_false] at hv
  rcases hv with rfl | rfl | rfl | rfl | rfl | rfl | rfl | rfl | rfl
  all_goals first | rfl | exact (mapM_some_eq _).symm

/-- The variable is not set, or it can be read. -/
def Passes (lookup : String → Option String) (v : String × Key) : Prop :=
  ∀ value, lookup v.1 = some value → ∃ x, v.2.Reads value x

theorem Passes.environmentSource_eq {v : String × Key} (h : Passes lookup v)
    (hv : v ∈ variableSettings) :
    environmentSource lookup v.2 = some ((lookup v.1).bind v.2.read?) := by
  rw [environmentSource_of_mem hv]
  cases hvalue : lookup v.1 with
  | none => rfl
  | some value =>
    obtain ⟨x, hx⟩ := h value hvalue
    rw [Option.mapM_some, Option.bind_some, Key.read?_eq_some_iff.2 hx]
    rfl

/-! ## Where the overrides end -/

/-- The variables that are taken, and the fault that ends this, if there is one. -/
inductive Ends (lookup : String → Option String) : List (String × Key) → Option Rejected → Prop
  | fault {taken : List (String × Key)} {name : String} {k : Key} {rest : List (String × Key)}
      {value : String} (split : variableSettings = taken ++ (name, k) :: rest)
      (passes : ∀ v ∈ taken, Passes lookup v) (set : lookup name = some value)
      (unread : ∀ x, ¬ k.Reads value x) : Ends lookup taken (some ⟨name, value⟩)
  | good (passes : ∀ v ∈ variableSettings, Passes lookup v) : Ends lookup variableSettings none

/-- The settings of the variables that are taken have their values if these are set, and no other
setting is changed. -/
structure Overridden (lookup : String → Option String) (taken : List (String × Key))
    (c c' : Config) : Prop where
  set : ∀ v ∈ taken, ∀ value, lookup v.1 = some value →
    ∃ x, v.2.Reads value x ∧ c'.layer v.2 = some x
  unset : ∀ v ∈ taken, lookup v.1 = none → c'.layer v.2 = c.layer v.2
  other : ∀ k, k ∉ taken.map Prod.snd → c'.layer k = c.layer k

theorem exists_ends (lookup : String → Option String) : ∃ taken e, Ends lookup taken e := by
  classical
  cases hfind : variableSettings.find? (¬ Passes lookup ·) with
  | none =>
    refine ⟨_, _, .good fun v hv => ?_⟩
    simpa using List.find?_eq_none.1 hfind v hv
  | some v =>
    obtain ⟨hfault, taken, rest, hsplit, htaken⟩ := List.find?_eq_some_iff_append.1 hfind
    obtain ⟨value, hset, hunread⟩ : ∃ value, lookup v.1 = some value ∧
        ¬ ∃ x, v.2.Reads value x := by
      simpa [Passes] using hfault
    refine ⟨_, _, .fault hsplit (fun w hw => ?_) hset (not_exists.1 hunread)⟩
    simpa using htaken w hw

/-! ## How far a run goes -/

theorem applyEach_append {os : List Override} {c c' : Config}
    (h : applyEach lookup os c = (c', none)) (os' : List Override) :
    applyEach lookup (os ++ os') c = applyEach lookup os' c' := by
  induction os generalizing c with
  | nil => rw [← (Prod.mk.inj h).1, List.nil_append]
  | cons o os ih =>
    rw [List.cons_append, applyEach]
    rw [applyEach] at h
    cases hvalue : lookup o.key with
    | none =>
      rw [hvalue] at h
      exact ih h
    | some value =>
      rw [hvalue] at h
      dsimp only at h ⊢
      cases happly : o.apply value c with
      | none =>
        rw [happly] at h
        cases h
      | some c₁ =>
        rw [happly] at h
        exact ih h

theorem forall₂_variableSettings (lookup : String → Option String) :
    List.Forall₂ (fun (o : Override) v =>
      o.key = v.1 ∧ (environmentSource lookup).Reads (o.step lookup) v.2)
      overrides variableSettings := by
  have hnames : List.Forall₂ (fun (o : Override) (v : String × Key) => o.key = v.1)
      overrides variableSettings := by
    simp [overrides, variableSettings]
  have hreads := forall₂_overrides lookup
  rw [show variableKeys = variableSettings.map Prod.snd from rfl, List.forall₂_map_left_iff,
    List.forall₂_map_right_iff] at hreads
  exact List.forall₂_iff_zip.2
    ⟨rfl, fun h => ⟨List.forall₂_zip hnames h, List.forall₂_zip hreads h⟩⟩

theorem Overridden.of_layer {taken : List (String × Key)} {c c' : Config}
    (hmem : ∀ v ∈ taken, v ∈ variableSettings) (hpasses : ∀ v ∈ taken, Passes lookup v)
    (hlayer : ∀ k, c'.layer k = if k ∈ taken.map Prod.snd
      then ((environmentSource lookup k).join).or (c.layer k) else c.layer k) :
    Overridden lookup taken c c' := by
  have htaken (v : String × Key) (hv : v ∈ taken) :
      c'.layer v.2 = ((lookup v.1).bind v.2.read?).or (c.layer v.2) := by
    rw [hlayer, if_pos (List.mem_map_of_mem hv),
      (hpasses v hv).environmentSource_eq (hmem v hv), Option.join_some]
  refine ⟨fun v hv value hvalue => ?_, fun v hv hunset => ?_, fun k hk => ?_⟩
  · obtain ⟨x, hx⟩ := hpasses v hv value hvalue
    rw [htaken v hv, hvalue, Option.bind_some, Key.read?_eq_some_iff.2 hx]
    exact ⟨x, hx, rfl⟩
  · rw [htaken v hv, hunset, Option.bind_none, Option.none_or]
  · rw [hlayer, if_neg hk]

/-- The run over the first variables, all of which pass, and what is left of it. -/
theorem exists_applyEach {taken rest : List (String × Key)}
    (hsplit : variableSettings = taken ++ rest) (hpasses : ∀ v ∈ taken, Passes lookup v)
    (c : Config) :
    ∃ c' os, c.applyOverrides lookup = applyEach lookup os c' ∧ Overridden lookup taken c c' ∧
      List.Forall₂ (fun (o : Override) v =>
        o.key = v.1 ∧ (environmentSource lookup).Reads (o.step lookup) v.2) os rest := by
  have hmem : ∀ v ∈ taken, v ∈ variableSettings := fun v hv =>
    hsplit ▸ List.mem_append_left rest hv
  have hnodup : (taken.map Prod.snd).Nodup := by
    have hall : (variableSettings.map Prod.snd).Nodup := by decide
    rw [hsplit, List.map_append] at hall
    exact hall.of_append_left
  have hall := forall₂_variableSettings lookup
  rw [hsplit] at hall
  have hfirst : List.Forall₂ (environmentSource lookup).Reads
      ((overrides.take taken.length).map (Override.step lookup)) (taken.map Prod.snd) :=
    List.forall₂_map_left_iff.2 (List.forall₂_map_right_iff.2
      ((List.forall₂_take_append _ _ _ hall).imp fun _ _ h => h.2))
  have hvalues : ∀ k ∈ taken.map Prod.snd,
      environmentSource lookup k = some (environmentSource lookup k).join := by
    intro k hk
    obtain ⟨v, hv, rfl⟩ := List.mem_map.1 hk
    rw [(hpasses v hv).environmentSource_eq (hmem v hv), Option.join_some]
  obtain ⟨c', hrun, hlayer⟩ := Source.exists_run hfirst hnodup hvalues c
  refine ⟨c', overrides.drop taken.length, ?_, .of_layer hmem hpasses hlayer,
    List.forall₂_drop_append _ _ _ hall⟩
  rw [← applyEach_append ((applyEach_eq_iff lookup _).2 hrun), List.take_append_drop]
  rfl

theorem Ends.applyOverrides {taken : List (String × Key)} {e : Option Rejected}
    (h : Ends lookup taken e) (c : Config) :
    (c.applyOverrides lookup).2 = e ∧ Overridden lookup taken c (c.applyOverrides lookup).1 := by
  cases h with
  | good hpasses =>
    obtain ⟨c', os, hrun, hover, hrest⟩ := exists_applyEach (List.append_nil _).symm hpasses c
    rw [List.forall₂_nil_right_iff.1 hrest] at hrun
    rw [hrun]
    exact ⟨rfl, hover⟩
  | @fault _ name k rest value hsplit hpasses hset hunread =>
    obtain ⟨c', _, hrun, hover, hrest⟩ := exists_applyEach hsplit hpasses c
    obtain ⟨o, os, ⟨hkey, hreads⟩, -, rfl⟩ := List.forall₂_cons_right_iff.1 hrest
    have hmem : (name, k) ∈ variableSettings :=
      hsplit ▸ List.mem_append_right taken List.mem_cons_self
    have hnone : o.apply value c' = none := by
      have hread : k.read? value = none :=
        Option.eq_none_iff_forall_ne_some.2 fun x hx => hunread x (Key.read?_eq_some_iff.1 hx)
      have hsource : environmentSource lookup k = none := by
        rw [environmentSource_of_mem hmem, hset, Option.mapM_some, hread]
        rfl
      have hstep := hreads c'
      rw [Override.step, hkey, hset, hsource] at hstep
      exact hstep
    rw [hrun, applyEach, hkey, hset]
    dsimp only
    rw [hnone]
    exact ⟨rfl, hover⟩

/-! ## Once more, and elsewhere -/

/-- What is taken is there once and for all. -/
theorem Overridden.again {taken : List (String × Key)} {c c' : Config}
    (h : Overridden lookup taken c c') : Overridden lookup taken c' c' where
  set := h.set
  unset _ _ _ := rfl
  other _ _ := rfl

theorem Overridden.unique {taken : List (String × Key)} {c c₁ c₂ : Config}
    (h₁ : Overridden lookup taken c c₁) (h₂ : Overridden lookup taken c c₂) : c₁ = c₂ := by
  refine layer_inj.1 (funext fun k => ?_)
  by_cases hk : k ∈ taken.map Prod.snd
  · obtain ⟨v, hv, rfl⟩ := List.mem_map.1 hk
    cases hvalue : lookup v.1 with
    | none => rw [h₁.unset v hv hvalue, h₂.unset v hv hvalue]
    | some value =>
      obtain ⟨x, hx, hlayer₁⟩ := h₁.set v hv value hvalue
      obtain ⟨y, hy, hlayer₂⟩ := h₂.set v hv value hvalue
      rw [hlayer₁, hlayer₂, hx.unique hy]
  · rw [h₁.other k hk, h₂.other k hk]

theorem applyOverrides_again (lookup : String → Option String) (c : Config) :
    (c.applyOverrides lookup).1.applyOverrides lookup = c.applyOverrides lookup := by
  obtain ⟨taken, e, hends⟩ := exists_ends lookup
  obtain ⟨he, hover⟩ := hends.applyOverrides c
  obtain ⟨he', hover'⟩ := hends.applyOverrides (c.applyOverrides lookup).1
  exact Prod.ext (hover'.unique hover.again) (he'.trans he.symm)

theorem applyEach_congr {lookup' : String → Option String} {os : List Override}
    (h : ∀ o ∈ os, lookup' o.key = lookup o.key) (c : Config) :
    applyEach lookup' os c = applyEach lookup os c := by
  induction os generalizing c with
  | nil => rfl
  | cons o os ih =>
    obtain ⟨ho, hos⟩ := List.forall_mem_cons.1 h
    rw [applyEach, applyEach, ho]
    cases lookup o.key with
    | none => exact ih hos c
    | some value =>
      dsimp only
      cases o.apply value c with
      | none => rfl
      | some c => exact ih hos c

theorem applyOverrides_congr {lookup' : String → Option String}
    (h : ∀ v ∈ variableSettings, lookup' v.1 = lookup v.1) (c : Config) :
    c.applyOverrides lookup' = c.applyOverrides lookup := by
  refine applyEach_congr (fun o ho => ?_) c
  have hkey : o.key ∈ variableSettings.map Prod.fst := List.mem_map_of_mem ho
  obtain ⟨v, hv, hname⟩ := List.mem_map.1 hkey
  rw [← hname]
  exact h v hv

theorem Ends.fault_mem {taken : List (String × Key)} {e : Rejected}
    (h : Ends lookup taken (some e)) :
    e.key ∈ ["ROSETTA_DATABASE_PORT", "ROSETTA_DATABASE_MAX_CONNECTIONS",
      "ROSETTA_DATABASE_TIMEOUT_SECONDS", "ROSETTA_SERVER_BIND"] := by
  cases h with
  | @fault _ name k rest value hsplit hpasses hset hunread =>
    have hmem : (name, k) ∈ variableSettings :=
      hsplit ▸ List.mem_append_right taken List.mem_cons_self
    simp only [variableSettings, List.mem_cons, List.not_mem_nil, or_false, Prod.mk.injEq] at hmem
    rcases hmem with ⟨rfl, rfl⟩ | ⟨rfl, rfl⟩ | ⟨rfl, rfl⟩ | ⟨rfl, rfl⟩ | ⟨rfl, rfl⟩ | ⟨rfl, rfl⟩ |
      ⟨rfl, rfl⟩ | ⟨rfl, rfl⟩ | ⟨rfl, rfl⟩
    all_goals first | exact absurd rfl (hunread value) | simp

/-- The variables are taken in their order up to the first one that is set to something its setting
cannot be; that one with its text is the result, and there is none if all can be taken. What is left
behind has the settings of the variables before it, and everything else as it was. It has these
after another run too, which has the same result, and no other variable plays a part. -/
theorem overrides_end_at_first_fault (lookup : String → Option String) (c : Config) :
    (∀ e, (c.applyOverrides lookup).2 = e ↔ ∃ taken, Ends lookup taken e) ∧
      (∀ taken e, Ends lookup taken e →
        Overridden lookup taken c (c.applyOverrides lookup).1) ∧
      (∀ e, (c.applyOverrides lookup).2 = some e →
        e.key ∈ ["ROSETTA_DATABASE_PORT", "ROSETTA_DATABASE_MAX_CONNECTIONS",
          "ROSETTA_DATABASE_TIMEOUT_SECONDS", "ROSETTA_SERVER_BIND"]) ∧
      ((c.applyOverrides lookup).1.server.corsPermissive = c.server.corsPermissive ∧
        (c.applyOverrides lookup).1.server.requestTimeoutSeconds =
          c.server.requestTimeoutSeconds ∧
        (c.applyOverrides lookup).1.database.idleTimeoutMinutes =
          c.database.idleTimeoutMinutes) ∧
      (c.applyOverrides lookup).1.applyOverrides lookup = c.applyOverrides lookup ∧
      ∀ lookup', (∀ v ∈ variableSettings, lookup' v.1 = lookup v.1) →
        c.applyOverrides lookup' = c.applyOverrides lookup := by
  obtain ⟨taken, e, hends⟩ := exists_ends lookup
  obtain ⟨he, hover⟩ := hends.applyOverrides c
  have hresult (e' : Option Rejected) :
      (c.applyOverrides lookup).2 = e' ↔ ∃ taken, Ends lookup taken e' :=
    ⟨fun h => ⟨taken, (he.symm.trans h) ▸ hends⟩, fun ⟨_, h⟩ => (h.applyOverrides c).1⟩
  have huntouched (k : Key) (hk : k ∉ variableSettings.map Prod.snd) :
      (c.applyOverrides lookup).1.layer k = c.layer k := by
    refine hover.other k fun hmem => hk ?_
    cases hends with
    | good => exact hmem
    | fault hsplit =>
      rw [hsplit, List.map_append]
      exact List.mem_append_left _ hmem
  refine ⟨hresult, fun taken e h => (h.applyOverrides c).2, fun e h => ?_, ⟨?_, ?_, ?_⟩,
    applyOverrides_again lookup c, fun _ h => applyOverrides_congr h c⟩
  · obtain ⟨_, hfault⟩ := (hresult (some e)).1 h
    exact hfault.fault_mem
  · exact Option.some.inj (huntouched .corsPermissive (by decide))
  · exact Option.some.inj (huntouched .requestTimeoutSeconds (by decide))
  · exact Option.some.inj (huntouched .idleTimeoutMinutes (by decide))

def halfGoodLookup (name : String) : Option String :=
  [("ROSETTA_SERVER_BIND", "0.0.0.0:8080"),
    ("ROSETTA_DATABASE_MAX_CONNECTIONS", "many"),
    ("ROSETTA_DATABASE_PORT", "+6543"),
    ("ROSETTA_DATABASE_HOST", "pg")].lookup name

/-- The number of connections is looked at before the address, which is good but not taken. -/
theorem overrides_end_at_connections :
    ({} : Config).applyOverrides halfGoodLookup =
      ({ database := { host := "pg", port := 6543 } },
        some ⟨"ROSETTA_DATABASE_MAX_CONNECTIONS", "many"⟩) := by
  obtain ⟨hresult, hover, -⟩ := overrides_end_at_first_fault halfGoodLookup {}
  have hport : Key.port.Reads "+6543" 6543 := Key.read?_eq_some_iff.1 (by decide +kernel)
  have htaken : Overridden halfGoodLookup (variableSettings.take 6) {}
      { database := { host := "pg", port := 6543 } } := by
    refine ⟨fun v hv value hvalue => ?_, fun v hv hunset => ?_, fun k hk => ?_⟩
    · simp only [variableSettings, List.take_succ_cons, List.take_zero, List.mem_cons,
        List.not_mem_nil, or_false] at hv
      rcases hv with rfl | rfl | rfl | rfl | rfl | rfl
      case inr.inl => exact ⟨"pg", Option.some.inj hvalue, rfl⟩
      case inr.inr.inl => exact ⟨6543, Option.some.inj hvalue ▸ hport, rfl⟩
      all_goals cases hvalue
    · simp only [variableSettings, List.take_succ_cons, List.take_zero, List.mem_cons,
        List.not_mem_nil, or_false] at hv
      rcases hv with rfl | rfl | rfl | rfl | rfl | rfl
      all_goals first | rfl | cases hunset
    · cases k <;> first | rfl | exact absurd (by decide) hk
  have hends : Ends halfGoodLookup (variableSettings.take 6)
      (some ⟨"ROSETTA_DATABASE_MAX_CONNECTIONS", "many"⟩) := by
    refine .fault rfl (fun v hv value hvalue => ?_) rfl fun n hn => ?_
    · obtain ⟨x, hx, -⟩ := htaken.set v hv value hvalue
      exact ⟨x, hx⟩
    · have hnone : Key.maxConnections.read? "many" = none := by decide +kernel
      rw [← Key.read?_eq_some_iff, hnone] at hn
      cases hn
  exact Prod.ext ((hover _ _ hends).unique htaken) ((hresult _).2 ⟨_, hends⟩)

end MessageBoard.Config
