/-!
# Digits

Numbers written in a base of at most sixteen, read in either case and written in lower case,
with a fixed width where a format asks for one.
-/

namespace MessageBoard.Text

def digitValue? (c : Char) : Option Nat :=
  if '0' ≤ c ∧ c ≤ '9' then some (c.toNat - '0'.toNat)
  else if 'a' ≤ c ∧ c ≤ 'f' then some (c.toNat - 'a'.toNat + 10)
  else if 'A' ≤ c ∧ c ≤ 'F' then some (c.toNat - 'A'.toNat + 10)
  else none

def digit? (base : Nat) (c : Char) : Option Nat :=
  (digitValue? c).bind fun v => if v < base then some v else none

def ofDigits? (base : Nat) (cs : List Char) : Option Nat :=
  cs.foldlM (fun n c => (digit? base c).map (base * n + ·)) 0

/-- The last `width` digits of `n` in base `base`. -/
def fixed (base : Nat) : Nat → Nat → List Char
  | 0, _ => []
  | width + 1, n => fixed base width (n / base) ++ [Nat.digitChar (n % base)]

def decimal (n : Nat) : List Char := Nat.toDigits 10 n

def decimalInt : Int → List Char
  | .ofNat n => decimal n
  | .negSucc n => '-' :: decimal (n + 1)

/-- A number below `bound`: at least one digit, a `+` before them allowed. -/
def unsigned? (bound : Nat) (cs : List Char) : Option Nat :=
  let ds := if cs.head? = some '+' then cs.drop 1 else cs
  if ds = [] then none
  else (ofDigits? 10 ds).bind fun n => if n < bound then some n else none

theorem digit?_digitChar {base v : Nat} (hb : base ≤ 16) (h : v < base) :
    digit? base (Nat.digitChar v) = some v := by
  have : v < 16 := by omega
  have hv : ∀ w : Fin 16, digitValue? (Nat.digitChar w) = some w.val := by decide
  have hv := hv ⟨v, this⟩
  simp [digit?, hv, h]

theorem ofDigits?_append {base : Nat} (cs : List Char) (c : Char) :
    ofDigits? base (cs ++ [c]) =
      (ofDigits? base cs).bind fun n => (digit? base c).map (base * n + ·) := by
  simp only [ofDigits?, List.foldlM_append, List.foldlM_cons, List.foldlM_nil]
  cases List.foldlM (fun n c => (digit? base c).map (base * n + ·)) 0 cs <;> simp

theorem length_fixed (base width n : Nat) : (fixed base width n).length = width := by
  induction width generalizing n with
  | zero => rfl
  | succ w ih => simp [fixed, ih]

/-- A number that fits its width reads back. -/
theorem ofDigits?_fixed {base : Nat} (hb : 0 < base) (hb' : base ≤ 16) {width n : Nat}
    (h : n < base.pow width) : ofDigits? base (fixed base width n) = some n := by
  induction width generalizing n with
  | zero =>
    have : n = 0 := by simpa using h
    subst this
    rfl
  | succ w ih =>
    have hn : n / base < base.pow w := Nat.div_lt_of_lt_mul (by rw [Nat.mul_comm]; exact h)
    rw [fixed, ofDigits?_append, ih hn, digit?_digitChar hb' (Nat.mod_lt _ hb)]
    simp [Nat.div_add_mod]

end MessageBoard.Text
