import MessageBoard.Command.Arguments
import MessageBoard.Text.Lines

/-!
# Help

The text that tells the commands and the switches of a level. What it says about them stands in a
column beside them; where that would leave a long remark too little room, each remark of the list
gets lines of its own.
-/

namespace MessageBoard.Command

open Text

namespace Level

def about : Level → String
  | program => "Forum backend over PostgreSQL"
  | serve => "Run the HTTP API server"
  | migrate => "Apply database migrations"
  | config => "Manage rosetta configuration (path, show, init)"
  | configPath => "Show config file path"
  | configShow => "Print the effective configuration with secrets masked"
  | configInit => "Write a default config file"

def line : Level → String
  | program => "rosetta"
  | serve => "rosetta serve"
  | migrate => "rosetta migrate"
  | config => "rosetta config"
  | configPath => "rosetta config path"
  | configShow => "rosetta config show"
  | configInit => "rosetta config init"

end Level

structure Entry where
  shown : String
  width : Nat
  remark : String

def lineWidth : Nat := 100

def blanks (n : Nat) : String := .ofList (List.replicate n ' ')

def remarkFrom (column : Nat) (remark : String) : String :=
  ("\n" ++ blanks column).intercalate
    ((inLines (lineWidth - column) remark.toList).map String.ofList)

def widest (entries : List Entry) : Nat := (entries.map (·.width)).foldl max 2

def beside (indent : Nat) (entries : List Entry) : String :=
  String.join <| entries.map fun e =>
    "  " ++ e.shown ++ blanks (widest entries + 2 - e.width) ++
      remarkFrom (widest entries + indent) e.remark ++ "\n"

def below (entries : List Entry) : String :=
  String.join <| entries.map fun e =>
    "  " ++ e.shown ++ "\n" ++ blanks 10 ++ remarkFrom 10 e.remark ++ "\n"

namespace Switch

def form (s : Switch) : String :=
  "--" ++ s.long ++
    match s.effect with
    | .value name _ => " <" ++ name ++ ">"
    | _ => ""

def shown (s : Switch) : String :=
  match s.short with
  | some c => .ofList ['-', c, ',', ' '] ++ s.form
  | none => "    " ++ s.form

/-- The variable that does the same, with its value. -/
def aside? (lookup : String → Option String) (s : Switch) : Option String :=
  s.key.map fun key => "[env: " ++ key ++ "=" ++ (lookup key).getD "" ++ "]"

/-- Whether the remark on a switch is too long for a column beside entries of a width. -/
def isLong (lookup : String → Option String) (width : Nat) (s : Switch) : Bool :=
  let room := lineWidth - (width + 12)
  40 < width + 12 && room < s.about.length + ((s.aside? lookup).map String.length).getD 0

def entry (lookup : String → Option String) (s : Switch) : Entry where
  shown := s.shown
  width := s.form.length
  remark := " ".intercalate (s.about :: (s.aside? lookup).toList)

end Switch

def switchList (lookup : String → Option String) (switches : List Switch) : String :=
  let entries := switches.map (·.entry lookup)
  if switches.any (·.isLong lookup (widest entries)) then below entries else beside 8 entries

def aboutHelp : String := "Print this message or the help of the given subcommand(s)"

def commandList (l : Level) : String :=
  let entries := l.words.map fun (word, l) => Entry.mk word word.length l.about
  beside 4 (entries ++ [⟨"help", 4, aboutHelp⟩])

def helpText (lookup : String → Option String) (l : Level) : String :=
  let commands := if l.words = [] then "\n" else " <COMMAND>\n\nCommands:\n" ++ commandList l
  l.about ++ "\n\nUsage: " ++ l.line ++ " [OPTIONS]" ++ commands ++ "\nOptions:\n" ++
    switchList lookup l.switches

def helpTextOnHelp (l : Level) : String :=
  aboutHelp ++ "\n\nUsage: " ++ l.line ++ " help [COMMAND]...\n\nArguments:\n" ++
    beside 4 [⟨"[COMMAND]...", 12, "Print help for the subcommand(s)"⟩]

end MessageBoard.Command
