import MessageBoard.Command.Basic

/-!
# Switches that were given

Whatever the arguments are, the switches that a command is run with are switches of its level, and
their values are of the kind that they accept.
-/

namespace MessageBoard.Command

def Switch.accepts (s : Switch) (value : String) : Bool :=
  match s.effect with
  | .value _ accepts => accepts value
  | _ => true

/-- All switches are of this level and have values that they accept. -/
def Level.Allows (l : Level) (given : Given) : Prop :=
  ∀ e ∈ given, ∃ s ∈ l.switches, s.long = e.1 ∧ s.accepts e.2 = true

/-- What is still to be read keeps to what the level allows. -/
def Outlook.Allowed (l : Level) : Outlook → Prop
  | .given g => l.Allows g
  | .waiting g s => l.Allows g ∧ s ∈ l.switches
  | .settled r => ∀ l g, r ≠ .run l g

namespace Level.Allows

variable {l : Level} {given given' : Given} {s : Switch}

theorem nil : l.Allows [] := fun _ he => absurd he List.not_mem_nil

theorem take? {value : String} (h : l.Allows given) (hs : s ∈ l.switches)
    (ht : Command.take? given s value = some given') : l.Allows given' := by
  have heq : Command.take? given s value =
      if (given.lookup s.long).isSome || !s.accepts value then none
      else some (given ++ [(s.long, value)]) := rfl
  rw [heq] at ht
  by_cases hrefused : (given.lookup s.long).isSome || !s.accepts value
  · rw [if_pos hrefused] at ht
    cases ht
  · rw [if_neg hrefused] at ht
    obtain rfl := Option.some.inj ht
    rw [Bool.or_eq_true, Bool.not_eq_true', not_or, Bool.not_eq_false] at hrefused
    exact List.forall_mem_append.2 ⟨h, List.forall_mem_singleton.2 ⟨s, hs, rfl, hrefused.2⟩⟩

theorem of_lookup (h : l.Allows given) {name value : String}
    (hv : given.lookup name = some value) :
    ∃ s ∈ l.switches, s.long = name ∧ s.accepts value = true := by
  obtain ⟨before, rest, rfl, -⟩ := List.lookup_eq_some_iff.1 hv
  exact h _ (List.mem_append_right before List.mem_cons_self)

theorem lookup_eq_none (h : l.Allows given) {name : String}
    (hname : ∀ s ∈ l.switches, s.long ≠ name) : given.lookup name = none := by
  cases hv : given.lookup name with
  | none => rfl
  | some value =>
    obtain ⟨s, hs, hlong, -⟩ := h.of_lookup hv
    exact absurd hlong (hname s hs)

theorem use (h : l.Allows given) (hs : s ∈ l.switches) (attached : Option String) :
    (s.use l given attached).Allowed l := by
  have htake (value : String) :
      (((Command.take? given s value).map .given).getD (.settled .wrong) : Outlook).Allowed l := by
    cases ht : Command.take? given s value with
    | none => exact fun l given he => by cases he
    | some given' => exact h.take? hs ht
  unfold Switch.use
  cases s.effect with
  | flag =>
    cases attached with
    | none => exact htake ""
    | some value => exact fun l given he => by cases he
  | value shown accepts =>
    cases attached with
    | none => exact ⟨h, hs⟩
    | some value => exact htake value
  | help => cases attached <;> exact fun l given he => by cases he
  | version => cases attached <;> exact fun l given he => by cases he

theorem useLong (h : l.Allows given) (cs : List Char) : (Command.useLong l given cs).Allowed l := by
  rw [Command.useLong]
  cases hs : l.switches.find? (·.long = String.ofList (cs.takeWhile (· ≠ '='))) with
  | none => exact fun l given he => by cases he
  | some s => exact h.use (List.mem_of_find?_eq_some hs) _

/-- By induction on the names in the cluster: each one adds a switch, or ends the reading. -/
theorem useShort (h : l.Allows given) (cs : List Char) :
    (Command.useShort l given cs).Allowed l := by
  induction cs generalizing given with
  | nil => exact h
  | cons c cs ih =>
    rw [Command.useShort]
    cases hs : l.switches.find? (·.short = some c) with
    | none => exact fun l given he => by cases he
    | some s =>
      have hmem := List.mem_of_find?_eq_some hs
      have huse := h.use hmem none
      cases he : s.effect with
      | value shown accepts =>
        by_cases hcs : cs = []
        · simp only [he, if_pos hcs]
          exact ⟨h, hmem⟩
        · simp only [he, if_neg hcs]
          exact h.use hmem _
      | _ =>
        simp only [he]
        cases hu : s.use l given none with
        | given given' =>
          rw [hu] at huse
          exact ih huse
        | _ =>
          rw [hu] at huse
          exact huse

theorem useSwitch (h : l.Allows given) (arg : String) :
    (Command.useSwitch l given arg).Allowed l := by
  unfold Command.useSwitch
  split
  · exact h.useLong _
  · exact h.useShort _
  · exact fun l given he => by cases he

end Level.Allows

theorem helpOn_ne_run (l : Level) (words : List String) (l' : Level) (given : Given) :
    helpOn l words ≠ .run l' given := by
  induction words generalizing l with
  | nil => exact fun h => by cases h
  | cons word words ih =>
    rw [helpOn]
    cases l.words.lookup word with
    | some l => exact ih l
    | none =>
      by_cases hhelp : word = "help" ∧ l.words ≠ [] ∧ words = []
      · simp only [if_pos hhelp]
        exact fun h => by cases h
      · simp only [if_neg hhelp]
        exact fun h => by cases h

/-- A command is run with switches of its level, the values of which they accept. -/
theorem Level.Allows.read {l l' : Level} {given given' : Given} {args : List String}
    (h : l.Allows given) (hread : Command.read l given args = .run l' given') :
    l'.Allows given' := by
  fun_induction Command.read l given args with
  | case1 | case3 =>
    cases hread
    exact h
  | case5 l given arg _ _ given'' args huse ih =>
    have hallowed := h.useSwitch arg
    rw [huse] at hallowed
    exact ih hallowed hread
  | case6 l given arg _ _ _ r huse =>
    have hallowed := h.useSwitch arg
    rw [huse] at hallowed
    exact absurd hread (hallowed l' given')
  | case8 l given arg _ _ given'' s value args huse _ given''' htake ih =>
    have hallowed := h.useSwitch arg
    rw [huse] at hallowed
    exact ih (hallowed.1.take? hallowed.2 htake) hread
  | case11 _ _ _ _ _ _ _ _ ih => exact ih .nil hread
  | case12 => exact absurd hread (helpOn_ne_run _ _ l' given')
  | case2 | case4 | case7 | case9 | case10 | case13 => cases hread

end MessageBoard.Command
