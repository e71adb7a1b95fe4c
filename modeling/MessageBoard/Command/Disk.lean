import MessageBoard.Text.Split

/-!
# Files by their paths

Files and directories below the working directory and below the root. A path is walked from one
directory to the next, so it leads nowhere when anything on its way is missing or a file.
-/

namespace MessageBoard.Command

open Text

structure Place where
  absolute : Bool
  names : List String
  deriving DecidableEq

inductive Node where
  | file (text : String)
  | directory
  deriving DecidableEq

/-- What is at each place; the last entry for a place counts. -/
abbrev Disk := List (Place × Node)

namespace Disk

variable (disk : Disk)

/-- What is at a place. The places where all paths start are directories. -/
def node? (p : Place) : Option Node :=
  if p.names.all (· = "..") then some .directory
  else (disk.filter fun (q, _) => q = p).getLast?.map (·.2)

def child (p : Place) (name : List Char) : Place :=
  if name = [] ∨ name = ['.'] then p
  else if name = ['.', '.'] then
    if p.names.all (· = "..") then if p.absolute then p else { p with names := ".." :: p.names }
    else { p with names := p.names.dropLast }
  else { p with names := p.names ++ [.ofList name] }

def origin (path : List Char) : Place × List (List Char) :=
  match path with
  | '/' :: rest => (⟨true, []⟩, pieces '/' rest)
  | path => (⟨false, []⟩, pieces '/' path)

def walk? (p : Place) : List (List Char) → Option Place
  | [] => some p
  | name :: names => if disk.node? p = some .directory then walk? (child p name) names else none

/-- The place of a path, at which there need not be anything yet. -/
def place? (path : List Char) : Option Place :=
  if path = [] then none else disk.walk? (origin path).1 (origin path).2

def at? (path : String) : Option Node := (disk.place? path.toList).bind disk.node?

def exists? (path : String) : Bool := (disk.at? path).isSome

def text? (p : Place) : Option String :=
  match disk.node? p with
  | some (.file text) => some text
  | _ => none

def read? (path : String) : Option String := (disk.place? path.toList).bind disk.text?

/-- The most names on the way to a place. -/
def depth : Nat := (disk.map (·.1.names.length)).foldr max 0

def write? (path text : String) : Option Disk := do
  let p ← disk.place? path.toList
  if disk.node? p = some .directory then none else some (disk ++ [(p, .file text)])

/-- Makes the directories that a walk misses; a file on its way stops it. -/
def makeEach? (disk : Disk) (p : Place) : List (List Char) → Option Disk
  | [] => some disk
  | name :: names =>
    let q := child p name
    match disk.node? q with
    | some .directory => makeEach? disk q names
    | some (.file _) => none
    | none => makeEach? (disk ++ [(q, .directory)]) q names

def makeDirectories? (path : String) : Option Disk :=
  if path = "" then some disk
  else makeEach? disk (origin path.toList).1 (origin path.toList).2

end Disk

/-- A reversed path without the separators and the dots that it ends in. -/
def withoutEnd : List Char → List Char
  | '/' :: cs => withoutEnd cs
  | '.' :: '/' :: cs => withoutEnd cs
  | cs => cs

/-- A path without the separators at its end, but for the root itself. -/
def trimPath (path : List Char) : List Char :=
  let body := (withoutEnd path.reverse).reverse
  if body = [] ∧ path.head? = some '/' then ['/'] else body

/-- The path of the directory that holds what a path leads to; neither the root nor the empty path
has one. -/
def parent? (path : String) : Option String :=
  let body := trimPath path.toList
  if body = [] ∨ body = ['/'] then none
  else match cutLast? '/' body with
    | none => some ""
    | some (above, _) => some (.ofList (trimPath (above ++ ['/'])))

def join (path name : String) : String :=
  if path = "" ∨ path.toList.getLast? = some '/' then path ++ name else path ++ "/" ++ name

end MessageBoard.Command
