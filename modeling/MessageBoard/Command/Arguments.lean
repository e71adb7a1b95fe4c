import MessageBoard.Net.SocketAddress

/-!
# Arguments

What the arguments of the program ask for. A word selects one of the commands of its level; a
switch is given by its long name or in a cluster of short ones, at most once on each level, and the
value of a switch is attached to it or the next argument. Reading ends at the first thing that is
wrong, and at the first that asks for help.
-/

namespace MessageBoard.Command

inductive Level where
  | program
  | serve
  | migrate
  | config
  | configPath
  | configShow
  | configInit
  deriving DecidableEq

inductive Effect where
  | flag
  | value (shown : String) (accepts : String → Bool)
  | help
  | version

structure Switch where
  long : String
  short : Option Char := none
  effect : Effect := .flag
  key : Option String := none
  about : String

def isSocketAddress (s : String) : Bool := (Net.SocketAddress.ofText? s).isSome

def urlSwitch : Switch where
  long := "database-url"
  effect := .value "DATABASE_URL" fun _ => true
  key := some "DATABASE_URL"
  about := "Database URL (overrides config)"

def debugSwitch : Switch where
  long := "debug"
  about := "Debug logging (unless RUST_LOG is set)"

def traceSwitch : Switch where
  long := "otel"
  about := "Export traces over OTLP (requires the telemetry feature)"

def helpSwitch : Switch where
  long := "help"
  short := some 'h'
  effect := .help
  about := "Print help"

namespace Level

def switches : Level → List Switch
  | program =>
    [debugSwitch, traceSwitch, helpSwitch,
      { long := "version", short := some 'V', effect := .version, about := "Print version" }]
  | serve =>
    [{ long := "bind", short := some 'b', effect := .value "BIND" isSocketAddress,
       about := "Address to bind to (overrides config, default 127.0.0.1:4000)" },
      debugSwitch,
      { long := "cors-permissive",
        about := "Allow permissive CORS (all origins) - use with caution" },
      traceSwitch, urlSwitch,
      { long := "migrate", about := "Apply schema migrations before serving" }, helpSwitch]
  | migrate => [urlSwitch, debugSwitch, traceSwitch, helpSwitch]
  | configInit =>
    [debugSwitch,
      { long := "force", short := some 'f', about := "Force overwrite existing config" },
      traceSwitch, helpSwitch]
  | config | configPath | configShow => [debugSwitch, traceSwitch, helpSwitch]

def words : Level → List (String × Level)
  | program => [("serve", serve), ("migrate", migrate), ("config", config)]
  | config => [("path", configPath), ("show", configShow), ("init", configInit)]
  | _ => []

end Level

abbrev Given := List (String × String)

inductive Invocation where
  | run (l : Level) (given : Given)
  | help (l : Level)
  /-- Help on the word that asks for help. -/
  | helpOnHelp (l : Level)
  | version
  | wrong
  deriving DecidableEq

/-- The switch in addition to those that were given, unless it is one of them or cannot have the
value. -/
def take? (given : Given) (s : Switch) (value : String) : Option Given :=
  let accepted :=
    match s.effect with
    | .value _ accepts => accepts value
    | _ => true
  if (given.lookup s.long).isSome || !accepted then none else some (given ++ [(s.long, value)])

inductive Outlook where
  | given (g : Given)
  | waiting (g : Given) (s : Switch)
  | settled (r : Invocation)

def Switch.use (l : Level) (given : Given) (s : Switch) (attached : Option String) : Outlook :=
  match s.effect, attached with
  | .flag, none => ((take? given s "").map .given).getD (.settled .wrong)
  | .help, none => .settled (.help l)
  | .version, none => .settled .version
  | .value _ _, some value => ((take? given s value).map .given).getD (.settled .wrong)
  | .value _ _, none => .waiting given s
  | _, some _ => .settled .wrong

def useLong (l : Level) (given : Given) (cs : List Char) : Outlook :=
  let name : String := .ofList (cs.takeWhile (· ≠ '='))
  let attached :=
    match cs.dropWhile (· ≠ '=') with
    | [] => none
    | _ :: value => some (String.ofList value)
  match l.switches.find? (·.long = name) with
  | some s => s.use l given attached
  | none => .settled .wrong

/-- Switches by their short names; what follows one that has a value is its value. -/
def useShort (l : Level) (given : Given) : List Char → Outlook
  | [] => .given given
  | c :: cs =>
    match l.switches.find? (·.short = some c) with
    | none => .settled .wrong
    | some s =>
      match s.effect with
      | .value _ _ =>
        if cs = [] then .waiting given s
        else s.use l given (some (.ofList (if cs.head? = some '=' then cs.drop 1 else cs)))
      | _ =>
        match s.use l given none with
        | .given given => useShort l given cs
        | other => other

/-- Whether an argument is a switch; a dash alone is a word. -/
def isSwitch (arg : String) : Bool := arg ≠ "-" && arg.toList.head? = some '-'

def useSwitch (l : Level) (given : Given) (arg : String) : Outlook :=
  match arg.toList with
  | '-' :: '-' :: cs => useLong l given cs
  | _ :: cs => useShort l given cs
  | [] => .settled .wrong

def helpOn (l : Level) : List String → Invocation
  | [] => .help l
  | word :: words =>
    match l.words.lookup word with
    | some l => helpOn l words
    | none => if word = "help" ∧ l.words ≠ [] ∧ words = [] then .helpOnHelp l else .wrong

def read (l : Level) (given : Given) : List String → Invocation
  | [] => if l.words = [] then .run l given else .wrong
  | arg :: args =>
    if arg = "--" then if args = [] ∧ l.words = [] then .run l given else .wrong
    else if isSwitch arg then
      match useSwitch l given arg, args with
      | .given given, args => read l given args
      | .settled r, _ => r
      | .waiting given s, value :: args =>
        if isSwitch value then .wrong
        else match take? given s value with
          | some given => read l given args
          | none => .wrong
      | .waiting _ _, [] => .wrong
    else match l.words.lookup arg with
      | some l => read l [] args
      | none => if arg = "help" ∧ l.words ≠ [] then helpOn l args else .wrong

def Invocation.ofArguments (args : List String) : Invocation := read .program [] args

end MessageBoard.Command
