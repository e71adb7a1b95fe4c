import MessageBoard.Text.Digits

/-!
# Identifiers

A UUID is a number of 128 bits. It is written in lower case as groups of 8, 4, 4, 4 and 12
hexadecimal digits, and read in that form, without the hyphens, in braces or as a URN.
-/

namespace MessageBoard

open Text

structure Uuid where
  bits : BitVec 128
  deriving DecidableEq

namespace Uuid

def zero : Uuid := ⟨0⟩

instance : Inhabited Uuid := ⟨zero⟩

instance : LT Uuid := ⟨fun a b => a.bits < b.bits⟩

instance (a b : Uuid) : Decidable (a < b) := inferInstanceAs (Decidable (a.bits < b.bits))

/-- The order of the sixteen bytes, which is the order of the numbers. -/
instance : Ord Uuid := ⟨fun a b => compare a.bits.toNat b.bits.toNat⟩

def digits (u : Uuid) : List Char := fixed 16 32 u.bits.toNat

/-- A text of 32 characters with hyphens before the 8th, 12th, 16th and 20th of them. -/
def hyphenate (ds : List Char) : List Char :=
  ds.take 8 ++ '-' :: (ds.drop 8).take 4 ++ '-' :: (ds.drop 12).take 4 ++
    '-' :: (ds.drop 16).take 4 ++ '-' :: ds.drop 20

def toText (u : Uuid) : String := .ofList (hyphenate u.digits)

instance : ToString Uuid := ⟨toText⟩

def ofDigits (ds : List Char) : Option Uuid :=
  if ds.length = 32 then (ofDigits? 16 ds).map fun n => ⟨.ofNat 128 n⟩ else none

def ofHyphenated (cs : List Char) : Option Uuid :=
  let ds := cs.take 8 ++ (cs.drop 9).take 4 ++ (cs.drop 14).take 4 ++ (cs.drop 19).take 4 ++
    cs.drop 24
  if cs.length = 36 ∧ hyphenate ds = cs then ofDigits ds else none

def unbrace (cs : List Char) : Option (List Char) :=
  if cs.head? = some '\x7b' ∧ cs.getLast? = some '\x7d' then some (cs.drop 1).dropLast else none

def unurn (cs : List Char) : Option (List Char) :=
  if (cs.take 9).map Char.toLower = "urn:uuid:".toList then some (cs.drop 9) else none

/-- Reads one of the four forms: plain digits, hyphenated, in braces, or a URN. -/
def ofChars (cs : List Char) : Option Uuid :=
  match cs.length with
  | 32 => ofDigits cs
  | 36 => ofHyphenated cs
  | 38 => (unbrace cs).bind ofHyphenated
  | 45 => (unurn cs).bind ofHyphenated
  | _ => none

def ofText (s : String) : Option Uuid := ofChars s.toList

end MessageBoard.Uuid
