/-!
# Turns

A set of numbers as the list of where it starts and ends in turn, in ascending order.
-/

namespace MessageBoard.Text

/-- Whether a number is in the set: it comes after an odd number of turns. -/
def within (turns : List Nat) (n : Nat) : Bool := (turns.takeWhile (· ≤ n)).length % 2 == 1

end MessageBoard.Text
