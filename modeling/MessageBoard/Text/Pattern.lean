/-!
# Patterns of text

Regular expressions over characters, matched by taking derivatives: what a pattern leaves to be
matched after one character is again a pattern, and a text matches when what is left at its end
may be empty.
-/

namespace MessageBoard.Text

inductive Pattern where
  | never
  | nothing
  | one (p : Char → Bool)
  | seq (a b : Pattern)
  | either (a b : Pattern)
  | many (a : Pattern)
  /-- At most `n` times in a row. -/
  | upTo (n : Nat) (a : Pattern)

namespace Pattern

inductive Matches : Pattern → List Char → Prop where
  | nothing : Matches nothing []
  | one {p c} : p c → Matches (one p) [c]
  | seq {a b s t} : Matches a s → Matches b t → Matches (seq a b) (s ++ t)
  | left {a b s} : Matches a s → Matches (either a b) s
  | right {a b s} : Matches b s → Matches (either a b) s
  | many_nil {a} : Matches (many a) []
  | many_cons {a s t} : Matches a s → Matches (many a) t → Matches (many a) (s ++ t)
  | upTo_nil {n a} : Matches (upTo n a) []
  | upTo_cons {n a s t} : Matches a s → Matches (upTo n a) t → Matches (upTo (n + 1) a) (s ++ t)

def some (a : Pattern) : Pattern := seq a (many a)

def char (c : Char) : Pattern := one (· == c)

def nullable : Pattern → Bool
  | never => false
  | nothing => true
  | one _ => false
  | seq a b => a.nullable && b.nullable
  | either a b => a.nullable || b.nullable
  | many _ => true
  | upTo _ _ => true

def join : Pattern → Pattern → Pattern
  | never, _ => never
  | nothing, b => b
  | a, b => seq a b

def choose : Pattern → Pattern → Pattern
  | never, b => b
  | a, never => a
  | a, b => either a b

/-- What is left to be matched after `c`. -/
def after (c : Char) : Pattern → Pattern
  | never => never
  | nothing => never
  | one p => if p c then nothing else never
  | seq a b =>
    if a.nullable then choose (join (a.after c) b) (b.after c) else join (a.after c) b
  | either a b => choose (a.after c) (b.after c)
  | many a => join (a.after c) (many a)
  | upTo 0 _ => never
  | upTo (n + 1) a => join (a.after c) (upTo n a)

def accepts (p : Pattern) (cs : List Char) : Bool := (cs.foldl (fun p c => p.after c) p).nullable

end Pattern

end MessageBoard.Text
