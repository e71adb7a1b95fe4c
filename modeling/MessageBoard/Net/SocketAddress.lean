import MessageBoard.Net.Address

/-!
# Socket addresses

The address and the port that a server listens on. An address of eight groups stands in brackets,
with the number of its zone after a percent sign unless that is zero.
-/

namespace MessageBoard.Net

open Text

inductive Host where
  | v4 (ip : Ip4)
  | v6 (ip : Ip6) (zone : UInt32)
  deriving DecidableEq

structure SocketAddress where
  host : Host
  port : UInt16
  deriving DecidableEq

namespace SocketAddress

/-- A number below `bound` in any number of digits. -/
def number? (bound : Nat) (cs : List Char) : Option Nat :=
  if cs = [] then none else (ofDigits? 10 cs).bind fun n => if n < bound then some n else none

def port? (cs : List Char) : Option UInt16 := (number? UInt16.size cs).map .ofNat

def v6? (cs : List Char) : Option Host :=
  match cutFirst? ['%'] cs with
  | none => (Ip6.ofChars? cs).map (.v6 · 0)
  | some (ip, zone) => do return .v6 (← Ip6.ofChars? ip) (.ofNat (← number? UInt32.size zone))

def ofChars? : List Char → Option SocketAddress
  | '[' :: cs => do
    let (host, port) ← cutFirst? [']', ':'] cs
    return ⟨← v6? host, ← port? port⟩
  | cs => do
    let (host, port) ← cutFirst? [':'] cs
    return ⟨.v4 (← Ip4.ofChars? host), ← port? port⟩

def ofText? (s : String) : Option SocketAddress := ofChars? s.toList

def hostChars : Host → List Char
  | .v4 ip => ip.chars
  | .v6 ip zone => '[' :: ip.chars ++ (if zone = 0 then [] else '%' :: decimal zone.toNat) ++ [']']

def toText (a : SocketAddress) : String := .ofList (hostChars a.host ++ ':' :: decimal a.port.toNat)

end SocketAddress

end MessageBoard.Net
