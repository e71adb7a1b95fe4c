/-!
# Configuration trees

What a configuration text says: values under keys, in tables within tables. A table grows by headers
and by keys with points in them; how it came to be decides which of the two may still add to it, and
no key is ever given a value twice.
-/

namespace MessageBoard.Toml

inductive TableKind where
  /-- It was written as a value, between braces. -/
  | closed
  /-- It has a header of its own, or is the table of the whole text. -/
  | headed
  /-- A header below it names it. -/
  | implied
  /-- A key with points in it names it. -/
  | dotted
  deriving DecidableEq

inductive Tree where
  | text (s : String)
  | int (n : Int)
  | flag (b : Bool)
  | real
  | moment
  | array (items : List Tree)
  | table (kind : TableKind) (entries : List (String × Tree))
  | tables (items : List (List (String × Tree)))

abbrev Table := List (String × Tree)

structure KeyPath where
  above : List String
  last : String
  deriving DecidableEq

structure Entry where
  path : KeyPath
  value : Tree

structure Section where
  path : KeyPath
  listed : Bool
  entries : List Entry

namespace Table

def replace (key : String) (tree : Tree) (t : Table) : Table :=
  t.map fun (k, old) => if k = key then (k, tree) else (k, old)

def add (key : String) (tree : Tree) (t : Table) : Table := t ++ [(key, tree)]

/-- Changes the table at the end of a path. Tables that are missing on the way are made, and of
several tables under one key the way goes through the last. A path of a key passes only through
tables that were not opened by a header. -/
def within (dotted : Bool) (change : TableKind → Table → Option Table) :
    List String → TableKind → Table → Option Table
  | [], kind, t => change kind t
  | key :: path, _, t =>
    match t.lookup key with
    | none =>
      let kind := if dotted then .dotted else .implied
      (within dotted change path kind []).map fun inner => t.add key (.table kind inner)
    | some (.table kind inner) =>
      if kind = .closed ∨ dotted ∧ kind = .headed then none
      else (within dotted change path kind inner).map fun inner => t.replace key (.table kind inner)
    | some (.tables items) =>
      match items.getLast? with
      | none => none
      | some inner =>
        (within dotted change path .headed inner).map fun inner =>
          t.replace key (.tables (items.dropLast ++ [inner]))
    | some _ => none

/-- Adds a value under a new key. A key with points in it adds only to a table that such keys
made. -/
def put (t : Table) (e : Entry) : Option Table :=
  within true
    (fun kind t =>
      if (kind = .dotted ↔ e.path.above = []) ∨ (t.lookup e.path.last).isSome then none
      else some (t.add e.path.last e.value))
    e.path.above .headed t

/-- Adds a section. Its table is new, or one that only headers below it have named so far. -/
def putSection (t : Table) (s : Section) : Option Table :=
  within false
    (fun _ t =>
      match s.listed, t.lookup s.path.last with
      | false, none =>
        (s.entries.foldlM put []).map fun inner => t.add s.path.last (.table .headed inner)
      | false, some (.table .implied old) =>
        (s.entries.foldlM put old).map fun inner => t.replace s.path.last (.table .headed inner)
      | true, none => (s.entries.foldlM put []).map fun inner => t.add s.path.last (.tables [inner])
      | true, some (.tables items) =>
        (s.entries.foldlM put []).map fun inner =>
          t.replace s.path.last (.tables (items ++ [inner]))
      | _, _ => none)
    s.path.above .headed t

def ofSections? (entries : List Entry) (sections : List Section) : Option Table := do
  sections.foldlM putSection (← entries.foldlM put [])

end Table

end MessageBoard.Toml
