import MessageBoard.Config.Basic

/-!
# Overrides by the environment

Variables of the environment override settings, one after the other in a fixed order. The first
value that its setting cannot take stops this: what came before it stays done, and nothing after it
is looked at.
-/

namespace MessageBoard

namespace Config

structure Override where
  key : String
  apply : String → Config → Option Config

structure Rejected where
  key : String
  value : String
  deriving DecidableEq

def Rejected.message (e : Rejected) : String := s!"invalid value for {e.key}: {e.value}"

def number? (bound : Nat) (value : String) : Option Nat := Text.unsigned? bound value.toList

def onDatabase (f : String → Database → Option Database) (value : String) (c : Config) :
    Option Config :=
  (f value c.database).map fun d => { c with database := d }

def overrides : List Override :=
  [⟨"DATABASE_URL", onDatabase fun v d => some { d with url := some v }⟩,
    ⟨"ROSETTA_DATABASE_HOST", onDatabase fun v d => some { d with host := v }⟩,
    ⟨"ROSETTA_DATABASE_PORT", onDatabase fun v d =>
      (number? UInt16.size v).map fun n => { d with port := .ofNat n }⟩,
    ⟨"ROSETTA_DATABASE_USERNAME", onDatabase fun v d => some { d with username := v }⟩,
    ⟨"ROSETTA_DATABASE_PASSWORD", onDatabase fun v d => some { d with password := v }⟩,
    ⟨"ROSETTA_DATABASE_NAME", onDatabase fun v d => some { d with database := v }⟩,
    ⟨"ROSETTA_DATABASE_MAX_CONNECTIONS", onDatabase fun v d =>
      (number? UInt32.size v).map fun n => { d with maxConnections := .ofNat n }⟩,
    ⟨"ROSETTA_DATABASE_TIMEOUT_SECONDS", onDatabase fun v d =>
      (number? UInt64.size v).map fun n => { d with timeoutSeconds := .ofNat n }⟩,
    ⟨"ROSETTA_SERVER_BIND", fun v c =>
      (Net.SocketAddress.ofText? v).map fun a => { c with server.bind := a }⟩]

/-- Applies overrides in turn; the configuration is what is left behind, also by a failure. -/
def applyEach (lookup : String → Option String) :
    List Override → Config → Config × Option Rejected
  | [], c => (c, none)
  | o :: rest, c =>
    match lookup o.key with
    | none => applyEach lookup rest c
    | some value =>
      match o.apply value c with
      | none => (c, some ⟨o.key, value⟩)
      | some c => applyEach lookup rest c

def applyOverrides (lookup : String → Option String) (c : Config) : Config × Option Rejected :=
  applyEach lookup overrides c

end Config

end MessageBoard
