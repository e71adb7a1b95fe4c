import MessageBoard.Config.Basic
import MessageBoard.Text.Utf8
import MessageBoard.Toml.Document
import MessageBoard.Toml.Writing

/-!
# Configuration files

A file sets any of the settings, by their names in two tables or by their order in two arrays; what
it leaves out keeps its value. A setting may have two names, but not be set by both.

A configuration is written with its secrets masked, one setting to a line.
-/

namespace MessageBoard

namespace Config

open Toml

structure Setting (σ : Type) where
  name : String
  otherName : Option String := none
  read : Tree → Option (σ → σ)
  write : σ → Option Scalar

variable {σ : Type}

namespace Setting

/-- What a table says about the setting, at most one value; `none` when it speaks twice. -/
def find? (s : Setting σ) (t : Table) : Option (Option Tree) :=
  match t.lookup s.name, s.otherName.bind (fun name => t.lookup name) with
  | some _, some _ => none
  | some v, none => some (some v)
  | none, v => some v

def setFrom (s : Setting σ) (t : Table) (x : σ) : Option σ := do
  match ← s.find? t with
  | none => return x
  | some v => return (← s.read v) x

end Setting

def ofTable? (settings : List (Setting σ)) (t : Table) (initially : σ) : Option σ :=
  settings.foldlM (fun x s => s.setFrom t x) initially

/-- The settings in their order, as many as there are items. -/
def ofItems? : List (Setting σ) → List Tree → σ → Option σ
  | s :: settings, v :: items, x => do ofItems? settings items ((← s.read v) x)
  | _, _, x => some x

/-- A section as a table or an array. A moment is a table that sets nothing. -/
def ofTree? (settings : List (Setting σ)) (initially : σ) : Tree → Option σ
  | .table _ t => ofTable? settings t initially
  | .array items => ofItems? settings items initially
  | .tables ts => ofItems? settings (ts.map (.table .headed ·)) initially
  | .moment => some initially
  | _ => none

def entries (settings : List (Setting σ)) (x : σ) : List (String × Scalar) :=
  settings.filterMap fun s => (s.write x).map (s.name, ·)

def text? : Tree → Option String
  | .text s => some s
  | _ => none

def flag? : Tree → Option Bool
  | .flag b => some b
  | _ => none

def natural? (bound : Nat) : Tree → Option Nat
  | .int n => if 0 ≤ n ∧ n < bound then some n.toNat else none
  | _ => none

def socketAddress? (t : Tree) : Option Net.SocketAddress := (text? t).bind Net.SocketAddress.ofText?

def number (n : Nat) : Option Scalar := some (.int n)

namespace Server

def settings : List (Setting Server) :=
  [{ name := "bind"
     read := fun t => (socketAddress? t).map fun v s => { s with bind := v }
     write := fun s => some (.text s.bind.toText) },
    { name := "cors_permissive"
      read := fun t => (flag? t).map fun v s => { s with corsPermissive := v }
      write := fun s => some (.flag s.corsPermissive) },
    { name := "request_timeout_seconds"
      read := fun t => (natural? UInt64.size t).map fun v s =>
        { s with requestTimeoutSeconds := .ofNat v }
      write := fun s => number s.requestTimeoutSeconds.toNat }]

end Server

namespace Database

def settings : List (Setting Database) :=
  [{ name := "url"
     read := fun t => (text? t).map fun v d => { d with url := some v }
     write := fun d => d.url.map .text },
    { name := "host"
      read := fun t => (text? t).map fun v d => { d with host := v }
      write := fun d => some (.text d.host) },
    { name := "port"
      read := fun t => (natural? UInt16.size t).map fun v d => { d with port := .ofNat v }
      write := fun d => number d.port.toNat },
    { name := "username"
      read := fun t => (text? t).map fun v d => { d with username := v }
      write := fun d => some (.text d.username) },
    { name := "password"
      read := fun t => (text? t).map fun v d => { d with password := v }
      write := fun d => some (.text d.password) },
    { name := "database"
      otherName := some "name"
      read := fun t => (text? t).map fun v d => { d with database := v }
      write := fun d => some (.text d.database) },
    { name := "max_connections"
      read := fun t => (natural? UInt32.size t).map fun v d => { d with maxConnections := .ofNat v }
      write := fun d => number d.maxConnections.toNat },
    { name := "idle_timeout_minutes"
      read := fun t => (natural? UInt64.size t).map fun v d =>
        { d with idleTimeoutMinutes := .ofNat v }
      write := fun d => number d.idleTimeoutMinutes.toNat },
    { name := "timeout_seconds"
      read := fun t => (natural? UInt64.size t).map fun v d => { d with timeoutSeconds := .ofNat v }
      write := fun d => number d.timeoutSeconds.toNat }]

end Database

def serverSection : String := "server"

def databaseSection : String := "database"

def section? (settings : List (Setting σ)) (initially : σ) (name : String) (t : Table) : Option σ :=
  match t.lookup name with
  | none => some initially
  | some v => ofTree? settings initially v

/-- The configuration of a file, with the initial value of each setting that it leaves out. -/
def ofToml? (t : Table) : Option Config := do
  let server ← section? Server.settings {} serverSection t
  let database ← section? Database.settings {} databaseSection t
  return ⟨server, database⟩

/-- The text of a configuration, if all of its numbers can be written. -/
def toToml? (c : Config) : Option String :=
  (documentChars?
    [(serverSection, entries Server.settings c.server),
      (databaseSection, entries Database.settings c.database)]).map .ofList

def toRedactedToml? (c : Config) : Option String := c.masked.toToml?

inductive LoadError where
  | missing
  | unreadable
  | malformed
  deriving DecidableEq

def ofText (text : String) : Except LoadError Config :=
  match (Toml.ofText? text).bind ofToml? with
  | some config => .ok config
  | none => .error .malformed

def load : Option (List UInt8) → Except LoadError Config
  | none => .error .missing
  | some bytes =>
    match Text.Utf8.text? bytes with
    | none => .error .unreadable
    | some text => ofText text

end Config

end MessageBoard
