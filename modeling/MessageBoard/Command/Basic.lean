import MessageBoard.Command.Arguments
import MessageBoard.Config.Basic

/-!
# Commands

What the program can be told to do, and what a command says about the configuration: its own
settings are put over those of the file and the environment.
-/

namespace MessageBoard

inductive Command where
  | serve (bind : Option Net.SocketAddress) (corsPermissive : Bool) (url : Option String)
    (migrate : Bool)
  | migrate (url : Option String)
  | configPath
  | configShow
  | configInit (force : Bool)
  deriving DecidableEq

namespace Command

/-- The command of a level with its switches; the levels that only lead to others have none. -/
def ofGiven? (l : Level) (given : Given) : Option Command :=
  let has (name : String) : Bool := (given.lookup name).isSome
  let url := given.lookup "database-url"
  match l with
  | .serve =>
    some (.serve ((given.lookup "bind").bind Net.SocketAddress.ofText?) (has "cors-permissive") url
      (has "migrate"))
  | .migrate => some (.migrate url)
  | .configPath => some .configPath
  | .configShow => some .configShow
  | .configInit => some (.configInit (has "force"))
  | .program | .config => none

def withUrl (url : Option String) (c : Config) : Config :=
  match url with
  | some url => { c with database.url := some url }
  | none => c

def withBind (bind : Option Net.SocketAddress) (c : Config) : Config :=
  match bind with
  | some bind => { c with server.bind := bind }
  | none => c

/-- The configuration with the settings of the command in it. Other origins can only be let in. -/
def configure : Command → Config → Config
  | .serve bind permissive url _, c =>
    withUrl url (withBind bind
      (if permissive then { c with server.corsPermissive := true } else c))
  | .migrate url, c => withUrl url c
  | _, c => c

end Command

end MessageBoard
