import MessageBoard.Text.Blank

/-!
# Lines of words

A text laid out in lines of a width. As many words as fit stand on a line, but at least one, so a
word that is too long has a line of its own. A line does not end in blanks.
-/

namespace MessageBoard.Text

def words (cs : List Char) : List (List Char) := cs.splitBy fun a b => a ≠ ' ' || b = ' '

/-- The line with the words after it, and the lines that these go on to. -/
def fill (width : Nat) (line : List Char) : List (List Char) → List (List Char)
  | [] => [trimEnd line]
  | word :: words =>
    if line ≠ [] ∧ width < line.length + (trimEnd word).length then
      trimEnd line :: fill width word words
    else fill width (line ++ word) words

def inLines (width : Nat) (cs : List Char) : List (List Char) := fill width [] (words cs)

end MessageBoard.Text
