/-!
# Magnitudes

Numbers written in decimal that are too large for binary floating point of 64 bits.
-/

namespace MessageBoard.Text

/-- Whether `m * 10 ^ e`, of digits `ds`, rounds to a number beyond the finite ones. -/
def exceeds (ds : List Char) (e : Int) : Bool :=
  let ds := ds.dropWhile (· = '0')
  let size := ds.length + e
  if ds = [] ∨ size < 300 then false
  else if 310 < size then true
  else
    let bound := Nat.pow 2 1024 - Nat.pow 2 970
    let m := Nat.ofDigitChars 10 ds 0
    if 0 ≤ e then bound ≤ m * Nat.pow 10 e.toNat else bound * Nat.pow 10 (-e).toNat ≤ m

end MessageBoard.Text
