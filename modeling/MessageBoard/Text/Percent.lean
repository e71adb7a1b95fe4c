import MessageBoard.Text.Digits
import MessageBoard.Text.Split
import MessageBoard.Text.Utf8

/-!
# Percent escapes and forms

A percent sign with two hexadecimal digits stands for a byte; any other percent sign stands for
itself. A form is a list of pairs of names and values, joined by `&` and `=`, in which a plus sign
stands for a blank.
-/

namespace MessageBoard.Text

def escapedByte? (a b : UInt8) : Option UInt8 :=
  (ofDigits? 16 [Char.ofNat a.toNat, Char.ofNat b.toNat]).map UInt8.ofNat

def unescape : List UInt8 → List UInt8
  | 0x25 :: a :: b :: rest =>
    match escapedByte? a b with
    | some byte => byte :: unescape rest
    | none => 0x25 :: unescape (a :: b :: rest)
  | byte :: rest => byte :: unescape rest
  | [] => []

/-- A name or value of a form, with U+FFFD for what is not well formed. -/
def formText (cs : List Char) : String :=
  .ofList (Utf8.lossy (unescape (Utf8.encode (cs.map fun c => if c = '+' then ' ' else c))))

/-- A name and a value; a name that stands alone has an empty value. -/
def formPair (cs : List Char) : String × String :=
  match cutFirst? ['='] cs with
  | some (name, value) => (formText name, formText value)
  | none => (formText cs, "")

def formPairs (cs : List Char) : List (String × String) :=
  ((pieces '&' cs).filter (· ≠ [])).map formPair

end MessageBoard.Text
