import MessageBoard.Text.Digits
import MessageBoard.Text.Split

/-!
# Network addresses

Addresses of four octets, written in decimal and joined by points, and addresses of eight groups of
sixteen bits, written in hexadecimal and joined by colons. One run of groups that are zero may be
left out where two colons meet, and the last two groups may be written as four octets.
-/

namespace MessageBoard.Net

open Text

structure Ip4 where
  a : UInt8
  b : UInt8
  c : UInt8
  d : UInt8
  deriving DecidableEq

structure Ip6 where
  groups : List UInt16
  size : groups.length = 8
  deriving DecidableEq

namespace Ip4

/-- A number below 256 in at most three digits, the first of them zero only when it is alone. -/
def octet? (cs : List Char) : Option UInt8 :=
  if cs = [] ∨ 3 < cs.length ∨ cs.head? = some '0' ∧ 1 < cs.length then none
  else (ofDigits? 10 cs).bind fun n => if n < 256 then some (.ofNat n) else none

def ofChars? (cs : List Char) : Option Ip4 :=
  match pieces '.' cs with
  | [a, b, c, d] => do return ⟨← octet? a, ← octet? b, ← octet? c, ← octet? d⟩
  | _ => none

def chars (ip : Ip4) : List Char :=
  decimal ip.a.toNat ++ '.' :: decimal ip.b.toNat ++ '.' :: decimal ip.c.toNat ++
    '.' :: decimal ip.d.toNat

def high (ip : Ip4) : UInt16 := .ofNat (256 * ip.a.toNat + ip.b.toNat)

def low (ip : Ip4) : UInt16 := .ofNat (256 * ip.c.toNat + ip.d.toNat)

def ofGroups (high low : UInt16) : Ip4 :=
  ⟨.ofNat (high.toNat / 256), .ofNat (high.toNat % 256), .ofNat (low.toNat / 256),
    .ofNat (low.toNat % 256)⟩

end Ip4

namespace Ip6

def group? (cs : List Char) : Option UInt16 :=
  if cs = [] ∨ 4 < cs.length then none else (ofDigits? 16 cs).map .ofNat

def ofPieces? : List (List Char) → Option (List UInt16)
  | [] => some []
  | [p] =>
    match group? p with
    | some g => some [g]
    | none => (Ip4.ofChars? p).map fun ip => [ip.high, ip.low]
  | p :: ps => do return (← group? p) :: (← ofPieces? ps)

def groupPieces (cs : List Char) : List (List Char) := if cs = [] then [] else pieces ':' cs

/-- The groups on both sides of two colons, with at least one zero between them. -/
def fill? (before after : List UInt16) : Option Ip6 :=
  if h : before.length + after.length < 8 then
    some ⟨before ++ List.replicate (8 - (before.length + after.length)) 0 ++ after, by simp; omega⟩
  else none

def ofChars? (cs : List Char) : Option Ip6 :=
  match cutFirst? [':', ':'] cs with
  | none =>
    (ofPieces? (groupPieces cs)).bind fun gs => if h : gs.length = 8 then some ⟨gs, h⟩ else none
  | some (a, b) => do fill? (← (groupPieces a).mapM group?) (← ofPieces? (groupPieces b))

def groupChars (g : UInt16) : List Char := Nat.toDigits 16 g.toNat

def joined (gs : List UInt16) : List Char := [':'].intercalate (gs.map groupChars)

def zeros (gs : List UInt16) : Nat := (gs.takeWhile (· = 0)).length

/-- Where the first of the longest runs of zeros starts, and how long it is. -/
def longestZeros : List UInt16 → Nat × Nat
  | [] => (0, 0)
  | g :: gs =>
    let here := zeros (g :: gs)
    let (start, size) := longestZeros gs
    if size ≤ here then (0, here) else (start + 1, size)

/-- The octets of an address of the range that stands for addresses of four octets. -/
def mapped? (ip : Ip6) : Option Ip4 :=
  match ip.groups with
  | [0, 0, 0, 0, 0, 0xFFFF, high, low] => some (.ofGroups high low)
  | _ => none

def chars (ip : Ip6) : List Char :=
  match ip.mapped? with
  | some ip => "::ffff:".toList ++ ip.chars
  | none =>
    let (start, size) := longestZeros ip.groups
    if 1 < size then
      joined (ip.groups.take start) ++ ':' :: ':' :: joined (ip.groups.drop (start + size))
    else joined ip.groups

end Ip6

end MessageBoard.Net
