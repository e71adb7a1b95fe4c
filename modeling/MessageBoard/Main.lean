import MessageBoard.Command.Run
import MessageBoard.Store.Script

/-!
# The program

Takes in what a command can find of the environment and the files, runs the command, and does what
it comes to. The program holds no connection to a store of its own, so no address answers.
-/

namespace MessageBoard.Command

/-- What is at a path. Whatever is there and is no text counts as a directory. -/
def node? (path : String) : IO (Option Node) := do
  try return some (.file (← IO.FS.readFile path))
  catch
    | .noFileOrDirectory .. => return none
    | _ => return some .directory

def variablesDisk (most : Nat) : IO Disk :=
  (List.range most).filterMapM fun up => do
    let place := variablesPlace up
    return (← node? ("/".intercalate place.names)).map (place, ·)

def runs (test : Char → Bool) (text : String) : List String :=
  (text.toList.splitBy fun a b => test a == test b).map String.ofList

/-- The names whose variables a command may look up. -/
def namesOf (text : String) : List String :=
  ["HOME", "XDG_CONFIG_HOME", "ROSETTA_CONFIG"] ++ Config.overrides.map (·.key) ++
    runs Text.isWordCharacter text ++ runs Variables.isNamePart text

def variablesOf (names : List String) : IO Variables :=
  names.filterMapM fun name => do return (← IO.getEnv name).map (name, ·)

def diskOf (path : String) : IO Disk := do
  let (start, names) := Disk.origin path.toList
  let mut disk : Disk := []
  let mut place := start
  let mut sofar := if start.absolute then "/" else ""
  for name in names do
    place := Disk.child place name
    sofar := join sofar (.ofList name)
    if let some node ← node? sofar then disk := disk ++ [(place, node)]
  return disk

def keep (path : String) (before after : Disk) : IO Unit := do
  if let some text := after.read? path then
    if before.read? path ≠ some text then
      if let some above := parent? path then
        if above ≠ "" then IO.FS.createDirAll above
      IO.FS.writeFile path text

end MessageBoard.Command

open MessageBoard Command in
/-- Runs the command that the arguments ask for, and ends with its status. -/
def main (args : List String) : IO UInt32 := do
  let s : Surroundings := { vars := [], disk := ← variablesDisk 64, answers := fun _ => false }
  let vars ← variablesOf (namesOf (s.variablesText?.getD ""))
  let s := { s with vars }
  let configPath := s.withFile.configPath
  let disk := s.disk ++ (← diskOf configPath)
  let outcome := Script.runClosed (execute { s with disk } args)
  if let some o := outcome then
    keep configPath disk o.disk
    IO.print o.output
    IO.eprint o.complaint
    return (o.status.getD 0).toUInt32
  else return 1
