import Mathlib.Tactic.SplitIfs
import MessageBoard.Text.Utf8

/-!
# The order of encoded texts

Bytes come in the order of the characters that they encode: a longer encoding starts with a greater
byte, and of two encodings of one length the first byte in which they differ decides. So texts are
in one order, whether they are compared by their characters or by their bytes.
-/

namespace MessageBoard.Text.Utf8

theorem ofNat_cons_lt {a b : Nat} (ha : a < 256) (hb : b < 256) {x y : List UInt8}
    (h : a < b ∨ a = b ∧ x < y) : UInt8.ofNat a :: x < UInt8.ofNat b :: y := by
  rw [List.cons_lt_cons_iff]
  rcases h with h | ⟨rfl, h⟩
  · left
    rw [UInt8.lt_iff_toNat_lt, UInt8.toNat_ofNat_of_lt' ha, UInt8.toNat_ofNat_of_lt' hb]
    exact h
  · exact .inr ⟨rfl, h⟩

section

variable {n m : Nat} (h : n < m) (x y : List UInt8)

include h

theorem lastByte_lt (heq : n / 64 = m / 64) :
    UInt8.ofNat (n % 64 + 128) :: x < UInt8.ofNat (m % 64 + 128) :: y := by
  apply ofNat_cons_lt <;> omega

theorem lastTwoBytes_lt (heq : n / 4096 = m / 4096) :
    UInt8.ofNat (n / 64 % 64 + 128) :: UInt8.ofNat (n % 64 + 128) :: x <
      UInt8.ofNat (m / 64 % 64 + 128) :: UInt8.ofNat (m % 64 + 128) :: y := by
  apply ofNat_cons_lt (by omega) (by omega)
  by_cases hbyte : n / 64 = m / 64
  · exact .inr ⟨by omega, lastByte_lt h x y hbyte⟩
  · omega

theorem lastThreeBytes_lt (heq : n / 262144 = m / 262144) :
    UInt8.ofNat (n / 4096 % 64 + 128) :: UInt8.ofNat (n / 64 % 64 + 128) ::
        UInt8.ofNat (n % 64 + 128) :: x <
      UInt8.ofNat (m / 4096 % 64 + 128) :: UInt8.ofNat (m / 64 % 64 + 128) ::
        UInt8.ofNat (m % 64 + 128) :: y := by
  apply ofNat_cons_lt (by omega) (by omega)
  by_cases hbyte : n / 4096 = m / 4096
  · exact .inr ⟨by omega, lastTwoBytes_lt h x y hbyte⟩
  · omega

end

/-- The encodings of two characters differ before either of them ends, so what follows them does not
matter. -/
theorem encodeChar_append_lt {c d : Char} (h : c < d) (x y : List UInt8) :
    String.utf8EncodeChar c ++ x < String.utf8EncodeChar d ++ y := by
  have hlt : c.val.toNat < d.val.toNat := h
  have hd : d.val.toNat < 0x110000 := by
    have hvalid : d.val.toNat < 0xD800 ∨ 0xDFFF < d.val.toNat ∧ d.val.toNat < 0x110000 := d.valid
    omega
  rw [String.utf8EncodeChar.eq_1, String.utf8EncodeChar.eq_1]
  generalize c.val.toNat = n at hlt
  generalize d.val.toNat = m at hlt hd
  split_ifs
  all_goals
    simp only [List.cons_append, List.nil_append]
    apply ofNat_cons_lt (by omega) (by omega)
  all_goals try omega
  · by_cases hfirst : n / 64 = m / 64
    · exact .inr ⟨by omega, lastByte_lt hlt x y hfirst⟩
    · omega
  · by_cases hfirst : n / 4096 = m / 4096
    · exact .inr ⟨by omega, lastTwoBytes_lt hlt x y hfirst⟩
    · omega
  · by_cases hfirst : n / 262144 = m / 262144
    · exact .inr ⟨by omega, lastThreeBytes_lt hlt x y hfirst⟩
    · omega

theorem encode_cons (c : Char) (cs : List Char) :
    encode (c :: cs) = String.utf8EncodeChar c ++ encode cs := List.flatMap_cons

theorem encode_lt_of_lt {a b : List Char} (h : a < b) : encode a < encode b := by
  induction h with
  | @nil c cs =>
    rw [encode_cons]
    cases hbytes : String.utf8EncodeChar c with
    | nil => exact absurd hbytes String.utf8EncodeChar_ne_nil
    | cons byte bytes => exact List.nil_lt_cons _ _
  | rel h =>
    rw [encode_cons, encode_cons]
    exact encodeChar_append_lt h _ _
  | cons _ ih =>
    rw [encode_cons, encode_cons]
    exact List.append_left_lt ih

theorem encode_lt_iff {a b : List Char} : encode a < encode b ↔ a < b := by
  refine ⟨fun h => Decidable.not_not.1 fun hn => ?_, encode_lt_of_lt⟩
  rcases List.le_iff_lt_or_eq.1 (List.not_lt.1 hn) with hlt | rfl
  · exact List.lt_asymm h (encode_lt_of_lt hlt)
  · exact List.lt_irrefl _ h

end MessageBoard.Text.Utf8
