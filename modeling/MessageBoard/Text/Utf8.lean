/-!
# UTF-8

Bytes read as characters. Every longest beginning of a character that no character follows up on
is one ill-formed place, given as `none`; so the reading loses no text, and each use says what an
ill-formed place means to it.
-/

namespace MessageBoard.Text.Utf8

/-- A character begun: the bits so far, the bytes still owed, and the range of the next one. -/
structure Begun where
  bits : Nat
  owed : Nat
  low : Nat
  high : Nat

def start (b : Nat) : List (Option Char) × Option Begun :=
  if b < 0x80 then ([some (Char.ofNat b)], none)
  else if 0xC2 ≤ b ∧ b ≤ 0xDF then ([], some ⟨b - 0xC0, 1, 0x80, 0xBF⟩)
  else if b = 0xE0 then ([], some ⟨0, 2, 0xA0, 0xBF⟩)
  else if b = 0xED then ([], some ⟨0xD, 2, 0x80, 0x9F⟩)
  else if 0xE1 ≤ b ∧ b ≤ 0xEF then ([], some ⟨b - 0xE0, 2, 0x80, 0xBF⟩)
  else if b = 0xF0 then ([], some ⟨0, 3, 0x90, 0xBF⟩)
  else if 0xF1 ≤ b ∧ b ≤ 0xF3 then ([], some ⟨b - 0xF0, 3, 0x80, 0xBF⟩)
  else if b = 0xF4 then ([], some ⟨4, 3, 0x80, 0x8F⟩)
  else ([none], none)

def step (b : Nat) : Option Begun → List (Option Char) × Option Begun
  | none => start b
  | some p =>
    if p.low ≤ b ∧ b ≤ p.high then
      let bits := 64 * p.bits + (b - 0x80)
      if p.owed = 1 then ([some (Char.ofNat bits)], none)
      else ([], some ⟨bits, p.owed - 1, 0x80, 0xBF⟩)
    else (none :: (start b).1, (start b).2)

/-- What a byte adds to the characters read so far, last first. -/
def push (sofar : List (Option Char) × Option Begun) (b : UInt8) :
    List (Option Char) × Option Begun :=
  let (out, next) := step b.toNat sofar.2
  (out.reverse ++ sofar.1, next)

/-- The characters of the bytes, `none` at each ill-formed place. -/
def decode (bytes : List UInt8) : List (Option Char) :=
  match bytes.foldl push ([], none) with
  | (done, none) => done.reverse
  | (done, some _) => (none :: done).reverse

def text? (bytes : List UInt8) : Option String :=
  ((decode bytes).mapM id).map String.ofList

def lossy (bytes : List UInt8) : List Char := (decode bytes).map (·.getD '\uFFFD')

def encode (cs : List Char) : List UInt8 := cs.flatMap String.utf8EncodeChar

end MessageBoard.Text.Utf8
