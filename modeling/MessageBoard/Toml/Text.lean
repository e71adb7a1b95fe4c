import MessageBoard.Text.Digits
import MessageBoard.Toml.Blank

/-!
# Strings of a configuration text

Strings stand between quotation marks, in which a backslash starts an escape, or between
apostrophes, in which every character stands for itself. Three marks enclose a string of several
lines; a line of it that ends in a backslash goes on at the next character that is not blank.
-/

namespace MessageBoard.Toml

open MessageBoard.Text

def after (s : List Char) (read : Option (List Char × List Char)) :
    Option (List Char × List Char) :=
  read.map fun (t, rest) => (s ++ t, rest)

def code? (width : Nat) (cs : List Char) : Option (Char × List Char) :=
  if (cs.take width).length = width then
    (ofDigits? 16 (cs.take width)).bind fun n =>
      if n.isValidChar then some (Char.ofNat n, cs.drop width) else none
  else none

def escape? : List Char → Option (Char × List Char)
  | 'b' :: cs => some ('\x08', cs)
  | 't' :: cs => some ('\t', cs)
  | 'n' :: cs => some ('\n', cs)
  | 'f' :: cs => some ('\x0c', cs)
  | 'r' :: cs => some ('\r', cs)
  | '"' :: cs => some ('"', cs)
  | '\\' :: cs => some ('\\', cs)
  | 'u' :: cs => code? 4 cs
  | 'U' :: cs => code? 8 cs
  | _ => none

theorem length_code? {width : Nat} {cs rest : List Char} {c : Char}
    (h : code? width cs = some (c, rest)) : rest.length ≤ cs.length := by
  unfold code? at h
  split at h
  · obtain ⟨n, _, h⟩ := Option.bind_eq_some_iff.1 h
    split at h
    · simp only [Option.some.injEq, Prod.mk.injEq] at h
      simp [← h.2]
    · simp at h
  · simp at h

theorem length_escape? {cs rest : List Char} {c : Char} (h : escape? cs = some (c, rest)) :
    rest.length < cs.length := by
  unfold escape? at h
  split at h <;> try simp_all
  all_goals
    have := length_code? h
    omega

def basic (cs : List Char) : Option (List Char × List Char) :=
  match cs with
  | [] => none
  | '"' :: cs => some ([], cs)
  | '\\' :: cs =>
    match h : escape? cs with
    | some (c, rest) =>
      have : rest.length < cs.length := length_escape? h
      after [c] (basic rest)
    | none => none
  | c :: cs => if isText c then after [c] (basic cs) else none
termination_by cs.length

def skipLines : List Char → List Char
  | '\n' :: cs => skipLines cs
  | '\r' :: '\n' :: cs => skipLines cs
  | c :: cs => if isSpace c then skipLines cs else c :: cs
  | [] => []

/-- Where a string goes on that has ended its line with a backslash. -/
def nextLine? (cs : List Char) : Option (List Char) :=
  (afterNewline? (skipSpaces cs)).map skipLines

theorem length_skipLines (cs : List Char) : (skipLines cs).length ≤ cs.length := by
  fun_induction skipLines cs <;> grind

theorem length_nextLine? {cs rest : List Char} (h : nextLine? cs = some rest) :
    rest.length ≤ cs.length := by
  obtain ⟨a, ha, rfl⟩ := Option.map_eq_some_iff.1 h
  have h₁ := length_skipLines a
  have h₂ : a.length ≤ (skipSpaces cs).length := by
    unfold afterNewline? at ha
    split at ha <;> simp_all
    omega
  have h₃ : (skipSpaces cs).length ≤ cs.length := (List.dropWhile_suffix _).length_le
  omega

/-- A string of several lines after its three quotation marks. Up to two more of them may stand
before those that end it. -/
def basicBlock (cs : List Char) : Option (List Char × List Char) :=
  match cs with
  | [] => none
  | '"' :: '"' :: '"' :: '"' :: '"' :: cs => some (['"', '"'], cs)
  | '"' :: '"' :: '"' :: '"' :: cs => some (['"'], cs)
  | '"' :: '"' :: '"' :: cs => some ([], cs)
  | '\\' :: cs =>
    match h : nextLine? cs with
    | some rest =>
      have : rest.length ≤ cs.length := length_nextLine? h
      basicBlock rest
    | none =>
      match h : escape? cs with
      | some (c, rest) =>
        have : rest.length < cs.length := length_escape? h
        after [c] (basicBlock rest)
      | none => none
  | '\r' :: '\n' :: cs => after ['\n'] (basicBlock cs)
  | '\n' :: cs => after ['\n'] (basicBlock cs)
  | c :: cs => if isText c then after [c] (basicBlock cs) else none
termination_by cs.length

def literal : List Char → Option (List Char × List Char)
  | [] => none
  | '\'' :: cs => some ([], cs)
  | c :: cs => if isText c then after [c] (literal cs) else none

def literalBlock : List Char → Option (List Char × List Char)
  | [] => none
  | '\'' :: '\'' :: '\'' :: '\'' :: '\'' :: cs => some (['\'', '\''], cs)
  | '\'' :: '\'' :: '\'' :: '\'' :: cs => some (['\''], cs)
  | '\'' :: '\'' :: '\'' :: cs => some ([], cs)
  | '\r' :: '\n' :: cs => after ['\n'] (literalBlock cs)
  | '\n' :: cs => after ['\n'] (literalBlock cs)
  | c :: cs => if isText c then after [c] (literalBlock cs) else none

/-- A string of any kind, and what follows it. The end of the line after three marks is not a part
of the string. -/
def string? : List Char → Option (List Char × List Char)
  | '"' :: '"' :: '"' :: cs => basicBlock (dropNewline cs)
  | '"' :: cs => basic cs
  | '\'' :: '\'' :: '\'' :: cs => literalBlock (dropNewline cs)
  | '\'' :: cs => literal cs
  | _ => none

end MessageBoard.Toml
