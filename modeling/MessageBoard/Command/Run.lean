import MessageBoard.Command.Basic
import MessageBoard.Command.Disk
import MessageBoard.Command.Help
import MessageBoard.Command.Variables
import MessageBoard.Config.Environment
import MessageBoard.Config.File
import MessageBoard.Store.Address
import MessageBoard.Tables

/-!
# Running a command

What a command prints, writes and asks of the store. A command that cannot go on complains and ends
with status 1; arguments that make no sense end with status 2.
-/

namespace MessageBoard.Command

/-- What a command finds when it starts. -/
structure Surroundings where
  vars : Variables
  disk : Disk
  accountHome : Option String := none
  answers : Store.Address → Bool

structure Outcome where
  /-- The status in which the command ends; a server that runs does not end. -/
  status : Option Nat
  output : String := ""
  complaint : String := ""
  disk : Disk

def variablesPlace (up : Nat) : Place := ⟨false, List.replicate up ".." ++ [".env"]⟩

namespace Surroundings

variable (s : Surroundings)

/-- The text of the first file that adds variables, from the working directory upwards. -/
def variablesText? : Option String :=
  (List.range s.disk.depth).findSome? fun up => s.disk.text? (variablesPlace up)

def withFile : Surroundings :=
  match s.variablesText? with
  | some text => { s with vars := s.vars.addFile text }
  | none => s

def lookup (name : String) : Option String := s.vars.lookup name

def home? : Option String :=
  match s.lookup "HOME" with
  | some dir => if dir = "" then s.accountHome else some dir
  | none => s.accountHome

def configDirectory : String :=
  let below := (s.home?.map (join · ".config")).getD "."
  match s.lookup "XDG_CONFIG_HOME" with
  | some dir => if dir.toList.head? = some '/' then dir else below
  | none => below

def configPath : String :=
  (s.lookup "ROSETTA_CONFIG").getD (join (join s.configDirectory "rosetta") "config.toml")

/-- The configuration of the file, or the initial one when there is no file. -/
def fileConfig : Except Config.LoadError Config :=
  match s.disk.at? s.configPath with
  | none => .ok {}
  | some .directory => .error .unreadable
  | some (.file text) => Config.ofText text

/-- The configuration of the file with the overrides of the environment, or the causes why there is
none. -/
def config : Except (List String) Config :=
  match s.fileConfig with
  | .error _ => .error []
  | .ok c =>
    match c.applyOverrides s.lookup with
    | (c, none) => .ok c
    | (_, some rejected) => .error [rejected.message]

def connects (d : Config.Database) : Bool :=
  d.timeoutSeconds ≠ 0 && d.maxConnections ≠ 0 &&
    (Store.Address.ofUrl? d.connectionUrl).any s.answers

def succeed (output : String) : Outcome := ⟨some 0, output, "", s.disk⟩

def fail (complaint : String) (causes : List String) : Outcome where
  status := some 1
  complaint := "\n\nCaused by:\n    ".intercalate (("Error: " ++ complaint) :: causes) ++ "\n"
  disk := s.disk

/-- Defines the tables and goes on when the store has accepted all of them. -/
def define (next : Outcome) : Program Outcome :=
  Tables.define.bind fun
    | .ok () => .done next
    | .error _ => .done (s.fail "failed to apply migrations" [])

def serve (c : Config) (migrate : Bool) : Program Outcome :=
  let running : Outcome := { status := none, disk := s.disk }
  if !s.connects c.database then .done (s.fail "failed to create database pool" [])
  else if migrate then s.define running
  else .done running

def migrate (c : Config) : Program Outcome :=
  let url := c.database.redactedUrl
  if !s.connects c.database then .done (s.fail ("failed to connect to " ++ url) [])
  else s.define (s.succeed ("Migrations applied to " ++ url ++ "\n"))

def render (c : Config) : Outcome :=
  match c.toRedactedToml? with
  | some text => s.succeed text
  | none => s.fail "failed to render configuration" []

def write (path text : String) : Outcome :=
  let above := (parent? path).getD ""
  match s.disk.makeDirectories? above with
  | none => s.fail ("failed to create " ++ above) []
  | some disk =>
    match disk.write? path text with
    | none => { s.fail ("failed to write " ++ path) [] with disk }
    | some disk => { s.succeed ("Wrote " ++ path ++ "\n") with disk }

def writeInitial (force : Bool) : Outcome :=
  let path := s.configPath
  if s.disk.exists? path && !force then
    { s.fail ("Config already exists at " ++ path) [] with
      complaint := "Error: Config already exists at " ++ path ++ "\n\nUse --force to overwrite\n" }
  else match ({} : Config).toRedactedToml? with
    | some text => s.write path text
    | none => s.fail "failed to render default configuration" []

def withConfig (command : Command) (next : Config → Program Outcome) : Program Outcome :=
  match s.config with
  | .ok c => next (command.configure c)
  | .error causes => .done (s.fail "failed to load configuration" causes)

def run (command : Command) : Program Outcome :=
  match command with
  | .serve _ _ _ migrate => s.withConfig command fun c => s.serve c migrate
  | .migrate _ => s.withConfig command s.migrate
  | .configPath => .done (s.succeed (s.configPath ++ "\n"))
  | .configShow => s.withConfig command fun c => .done (s.render c)
  | .configInit force => .done (s.writeInitial force)

end Surroundings

def versionText : String := "rosetta 0.1.0\n"

def Surroundings.refuse (s : Surroundings) : Outcome where
  status := some 2
  complaint := "error: the arguments make no sense\n\nFor more information, try '--help'.\n"
  disk := s.disk

def execute (s : Surroundings) (args : List String) : Program Outcome :=
  let s := s.withFile
  match Invocation.ofArguments args with
  | .version => .done (s.succeed versionText)
  | .help l => .done (s.succeed (helpText s.lookup l))
  | .helpOnHelp l => .done (s.succeed (helpTextOnHelp l))
  | .wrong => .done s.refuse
  | .run l given =>
    match ofGiven? l given with
    | some command => s.run command
    | none => .done s.refuse

end MessageBoard.Command
