import MessageBoard.Config.Url
import MessageBoard.Duration
import MessageBoard.Net.SocketAddress
import MessageBoard.Text.Quoted

/-!
# Configurations

The settings of the server and of its connection to the store, with the values that they have when
nothing else is said. The connection is given by a URL, or by the parts of one.
-/

namespace MessageBoard

namespace Config

structure Server where
  bind : Net.SocketAddress := ⟨.v4 ⟨127, 0, 0, 1⟩, 4000⟩
  /-- Whether pages of every origin may read the responses. -/
  corsPermissive : Bool := false
  requestTimeoutSeconds : UInt64 := 30
  deriving DecidableEq

structure Database where
  /-- The whole URL, in the place of the parts below it. -/
  url : Option String := none
  host : String := "localhost"
  port : UInt16 := 5432
  username : String := "postgres"
  password : String := ""
  database : String := "rosetta"
  maxConnections : UInt32 := 10
  idleTimeoutMinutes : UInt64 := 15
  timeoutSeconds : UInt64 := 5
  deriving DecidableEq

end Config

structure Config where
  server : Config.Server := {}
  database : Config.Database := {}
  deriving DecidableEq

namespace Config

namespace Server

def requestTimeout (s : Server) : Duration := .ofSeconds s.requestTimeoutSeconds.toNat

end Server

namespace Database

variable (d : Database)

def credentials : String :=
  if d.password = "" then d.username else d.username ++ ":" ++ d.password

def connectionUrl : String :=
  d.url.getD
    ("postgres://" ++ d.credentials ++ "@" ++ d.host ++ ":" ++
      .ofList (Text.decimal d.port.toNat) ++ "/" ++ d.database)

def redactedUrl : String := maskUrl d.connectionUrl

def timeout : Duration := .ofSeconds d.timeoutSeconds.toNat

def mostSeconds : Nat := UInt64.size - 1

def idleTimeout : Duration := .ofSeconds (min (60 * d.idleTimeoutMinutes.toNat) mostSeconds)

/-- The settings with every secret masked; an empty password is none. -/
def masked : Database :=
  { d with
    url := d.url.map maskUrl
    password := if d.password = "" then "" else mask }

def debugNumber (n : Nat) : String := .ofList (Text.decimal n)

/-- The settings for a diagnosis, which does not tell whether there is a password. -/
def debugText : String :=
  let url :=
    match d.url with
    | none => "None"
    | some url => "Some(" ++ Text.quoted (maskUrl url) ++ ")"
  let parts :=
    [("url", url), ("host", Text.quoted d.host), ("port", debugNumber d.port.toNat),
      ("username", Text.quoted d.username), ("password", Text.quoted mask),
      ("database", Text.quoted d.database),
      ("max_connections", debugNumber d.maxConnections.toNat),
      ("idle_timeout_minutes", debugNumber d.idleTimeoutMinutes.toNat),
      ("timeout_seconds", debugNumber d.timeoutSeconds.toNat)]
  "DatabaseConfig \x7b " ++ ", ".intercalate (parts.map fun (name, v) => name ++ ": " ++ v) ++
    " \x7d"

end Database

def masked (c : Config) : Config := { c with database := c.database.masked }

end Config

end MessageBoard
