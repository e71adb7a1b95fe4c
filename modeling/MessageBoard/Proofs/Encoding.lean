import Mathlib
import MessageBoard.Text.Utf8

/-!
# Encoded characters decoded

The bytes of a character are read as that character and nothing more, whatever was read before. So
an encoded text is well formed and decoded as it was.
-/

namespace MessageBoard.Text.Utf8

variable {b bits owed low high : Nat} {done : List (Option Char)}

theorem start_two (hlow : 0xC2 ≤ b) (hhigh : b ≤ 0xDF) :
    start b = ([], some ⟨b - 0xC0, 1, 0x80, 0xBF⟩) := by
  rw [start, if_neg (by omega), if_pos ⟨hlow, hhigh⟩]

theorem start_three (hlow : 0xE0 ≤ b) (hhigh : b ≤ 0xEF) :
    start b = ([], some ⟨b - 0xE0, 2, if b = 0xE0 then 0xA0 else 0x80,
      if b = 0xED then 0x9F else 0xBF⟩) := by
  rw [start, if_neg (by omega), if_neg (by omega)]
  by_cases hfirst : b = 0xE0
  · subst hfirst
    rfl
  · rw [if_neg hfirst, if_neg hfirst]
    by_cases hsurrogate : b = 0xED
    · subst hsurrogate
      rfl
    · have hrange : 0xE1 ≤ b ∧ b ≤ 0xEF := by omega
      rw [if_neg hsurrogate, if_pos hrange, if_neg hsurrogate]

theorem start_four (hlow : 0xF0 ≤ b) (hhigh : b ≤ 0xF4) :
    start b = ([], some ⟨b - 0xF0, 3, if b = 0xF0 then 0x90 else 0x80,
      if b = 0xF4 then 0x8F else 0xBF⟩) := by
  have hcases : b = 0xF0 ∨ b = 0xF1 ∨ b = 0xF2 ∨ b = 0xF3 ∨ b = 0xF4 := by omega
  rcases hcases with rfl | rfl | rfl | rfl | rfl <;> rfl

theorem push_begin (hb : b < 256) {p : Begun} (hstart : start b = ([], some p)) :
    push (done, none) (.ofNat b) = (done, some p) := by
  rw [push, UInt8.toNat_ofNat_of_lt' hb, step, hstart]
  rfl

theorem push_follow (hb : b < 256) (hlow : low ≤ b) (hhigh : b ≤ high) :
    push (done, some ⟨bits, owed + 2, low, high⟩) (.ofNat b) =
      (done, some ⟨64 * bits + (b - 0x80), owed + 1, 0x80, 0xBF⟩) := by
  have howed : owed + 2 ≠ 1 := by omega
  rw [push, UInt8.toNat_ofNat_of_lt' hb, step, if_pos ⟨hlow, hhigh⟩, if_neg howed]
  rfl

theorem push_last {n : Nat} (hb : b < 256) (hlow : low ≤ b) (hhigh : b ≤ high)
    (hn : 64 * bits + (b - 0x80) = n) :
    push (done, some ⟨bits, 1, low, high⟩) (.ofNat b) = (some (Char.ofNat n) :: done, none) := by
  rw [push, UInt8.toNat_ofNat_of_lt' hb, step, if_pos ⟨hlow, hhigh⟩, if_pos rfl, hn]
  rfl

/-- Every character is read from its bytes, which are told apart by how large its number is. -/
theorem foldl_push_encodeChar (c : Char) (done : List (Option Char)) :
    (String.utf8EncodeChar c).foldl push (done, none) = (some c :: done, none) := by
  have hvalid : c.toNat < 0xD800 ∨ 0xDFFF < c.toNat ∧ c.toNat < 0x110000 := c.valid
  have hc : Char.ofNat c.toNat = c := c.ofNat_toNat
  have hbytes := String.utf8EncodeChar.eq_1 c
  change _ = if c.toNat ≤ 127 then [UInt8.ofNat c.toNat] else
    if c.toNat ≤ 2047 then [UInt8.ofNat (c.toNat / 64 % 32 + 192), UInt8.ofNat (c.toNat % 64 + 128)]
    else if c.toNat ≤ 65535 then [UInt8.ofNat (c.toNat / 4096 % 16 + 224),
      UInt8.ofNat (c.toNat / 64 % 64 + 128), UInt8.ofNat (c.toNat % 64 + 128)]
    else [UInt8.ofNat (c.toNat / 262144 % 8 + 240), UInt8.ofNat (c.toNat / 4096 % 64 + 128),
      UInt8.ofNat (c.toNat / 64 % 64 + 128), UInt8.ofNat (c.toNat % 64 + 128)] at hbytes
  rw [hbytes]
  generalize c.toNat = n at hvalid hc
  subst hc
  by_cases hone : n ≤ 127
  · have hstart : start n = ([some (Char.ofNat n)], none) := if_pos (by omega)
    rw [if_pos hone, List.foldl_cons, push, UInt8.toNat_ofNat_of_lt' (by omega : n < 256), step,
      hstart]
    rfl
  rw [if_neg hone]
  by_cases htwo : n ≤ 2047
  · rw [if_pos htwo, List.foldl_cons, List.foldl_cons, List.foldl_nil,
      push_begin (by omega) (start_two (by omega) (by omega))]
    apply push_last <;> omega
  rw [if_neg htwo]
  by_cases hthree : n ≤ 65535
  · rw [if_pos hthree, List.foldl_cons, List.foldl_cons, List.foldl_cons, List.foldl_nil,
      push_begin (by omega) (start_three (by omega) (by omega)), push_follow (by omega)]
    · apply push_last <;> omega
    · split <;> omega
    · split <;> omega
  · rw [if_neg hthree, List.foldl_cons, List.foldl_cons, List.foldl_cons, List.foldl_cons,
      List.foldl_nil, push_begin (by omega) (start_four (by omega) (by omega)),
      push_follow (by omega), push_follow (by omega) (by omega) (by omega)]
    · apply push_last <;> omega
    · split <;> omega
    · split <;> omega

theorem foldl_push_encode (cs : List Char) (done : List (Option Char)) :
    (encode cs).foldl push (done, none) = ((cs.map some).reverse ++ done, none) := by
  induction cs generalizing done with
  | nil => rfl
  | cons c cs ih =>
    have hrest := ih (some c :: done)
    rw [encode, List.flatMap_cons, List.foldl_append, foldl_push_encodeChar, ← encode, hrest]
    simp

theorem decode_encode (cs : List Char) : decode (encode cs) = cs.map some := by
  rw [decode, foldl_push_encode]
  simp

theorem text?_encode (cs : List Char) : text? (encode cs) = some (.ofList cs) := by
  have hall : (cs.map some).mapM id = some cs := by
    induction cs with
    | nil => rfl
    | cons c cs ih => rw [List.map_cons, List.mapM_cons, ih]; rfl
  rw [text?, decode_encode, hall]
  rfl

end MessageBoard.Text.Utf8
