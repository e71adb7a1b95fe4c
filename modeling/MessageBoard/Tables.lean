import MessageBoard.Store.Program

/-!
# Tables

The declarations of the store's tables: for every column its type, whether it may be null, and what
the store demands of it or fills in by itself. Defining the tables does nothing to those that are
there already.
-/

namespace MessageBoard

inductive StorageType where
  | uuid
  | varchar (n : Nat)
  | text
  | timestamp
  | boolean
  | smallint
  deriving DecidableEq

inductive Default where
  | freshId
  | now
  | no
  deriving DecidableEq

inductive Demand where
  | username
  | sign
  deriving DecidableEq

structure Reference where
  table : String
  /-- Whether a row goes when the row that it refers to goes. -/
  cascade : Bool := false
  deriving DecidableEq

structure ColumnDeclaration where
  name : String
  type : StorageType
  isKey : Bool := false
  notNull : Bool := false
  unique : Bool := false
  demand : Option Demand := none
  initially : Option Default := none
  refersTo : Option Reference := none
  deriving DecidableEq

structure TableDeclaration where
  name : String
  columns : List ColumnDeclaration
  /-- The columns that are the key together, when no single one is. -/
  key : List String := []
  deriving DecidableEq

structure Index where
  table : String
  column : String
  deriving DecidableEq

namespace StorageType

def sql : StorageType → String
  | uuid => "UUID"
  | varchar n => s!"VARCHAR({n})"
  | text => "TEXT"
  | timestamp => "TIMESTAMPTZ"
  | boolean => "BOOLEAN"
  | smallint => "SMALLINT"

end StorageType

def Default.sql : Default → String
  | .freshId => "gen_random_uuid()"
  | .now => "NOW()"
  | .no => "FALSE"

def Demand.sql (column : String) : Demand → String
  | .username => column ++ " ~ '^[a-zA-Z0-9_.-]\x7b1,64\x7d$'"
  | .sign => column ++ " BETWEEN -1 AND 1"

def Reference.sql (r : Reference) : String :=
  s!"REFERENCES {r.table}(id)" ++ if r.cascade then " ON DELETE CASCADE" else ""

namespace ColumnDeclaration

def sql (c : ColumnDeclaration) : String :=
  let parts :=
    [some c.name, some c.type.sql, if c.isKey then some "PRIMARY KEY" else none,
      if c.notNull then some "NOT NULL" else none, if c.unique then some "UNIQUE" else none,
      c.demand.map fun d => "CHECK (" ++ d.sql c.name ++ ")",
      c.initially.map fun d => "DEFAULT " ++ d.sql, c.refersTo.map Reference.sql]
  " ".intercalate (parts.filterMap id)

end ColumnDeclaration

namespace TableDeclaration

def sql (t : TableDeclaration) : String :=
  let key := if t.key = [] then [] else ["PRIMARY KEY (" ++ ", ".intercalate t.key ++ ")"]
  s!"CREATE TABLE IF NOT EXISTS {t.name} ( " ++
    ", ".intercalate (t.columns.map ColumnDeclaration.sql ++ key) ++ " )"

end TableDeclaration

namespace Tables

def baseName (table : String) : String :=
  .ofList (((table.toList.dropWhile (· ≠ '.'))).drop 1)

def indexSql (i : Index) : String :=
  "CREATE INDEX IF NOT EXISTS " ++ baseName i.table ++
    s!"_{i.column}_idx ON {i.table} ({i.column})"

def idColumn : ColumnDeclaration :=
  { name := "id", type := .uuid, isKey := true, initially := some .freshId }

def stampColumns : List ColumnDeclaration :=
  [{ name := "created_at", type := .timestamp, notNull := true, initially := some .now },
    { name := "updated_at", type := .timestamp, notNull := true, initially := some .now },
    { name := "deleted", type := .boolean, notNull := true, initially := some .no },
    { name := "deleted_at", type := .timestamp }]

def reference (name table : String) : ColumnDeclaration :=
  { name, type := .uuid, notNull := true, refersTo := some { table } }

def users : TableDeclaration where
  name := "forum.users"
  columns :=
    [idColumn, { name := "name", type := .varchar 256, notNull := true },
      { name := "username", type := .varchar 64, notNull := true, unique := true,
        demand := some .username },
      { name := "email", type := .varchar 256, notNull := true, unique := true }] ++ stampColumns

def forums : TableDeclaration where
  name := "forum.forums"
  columns :=
    [idColumn, reference "owner_id" "forum.users",
      { name := "name", type := .varchar 256, notNull := true },
      { name := "description", type := .text }] ++ stampColumns

def threads : TableDeclaration where
  name := "forum.threads"
  columns :=
    [idColumn, reference "forum_id" "forum.forums", reference "author_id" "forum.users",
      { name := "title", type := .varchar 256, notNull := true },
      { name := "is_locked", type := .boolean, notNull := true, initially := some .no }] ++
      stampColumns

def posts : TableDeclaration where
  name := "forum.posts"
  columns :=
    [idColumn, reference "thread_id" "forum.threads",
      { name := "reply_to", type := .uuid, refersTo := some { table := "forum.posts" } },
      reference "author_id" "forum.users",
      { name := "content", type := .text, notNull := true }] ++ stampColumns

def votes (name target table : String) : TableDeclaration where
  name := name
  columns :=
    [{ name := target, type := .uuid, notNull := true,
       refersTo := some { table, cascade := true } },
      { name := "user_id", type := .uuid, notNull := true,
        refersTo := some { table := "forum.users", cascade := true } },
      { name := "vote", type := .smallint, notNull := true, demand := some .sign }]
  key := [target, "user_id"]

/-- All tables, each after those that it refers to. -/
def all : List TableDeclaration :=
  [users, forums, threads, posts, votes "forum.thread_votes" "thread_id" "forum.threads",
    votes "forum.post_votes" "post_id" "forum.posts"]

def indexes : List Index :=
  [⟨"forum.forums", "owner_id"⟩, ⟨"forum.threads", "forum_id"⟩, ⟨"forum.threads", "author_id"⟩,
    ⟨"forum.posts", "thread_id"⟩, ⟨"forum.posts", "author_id"⟩, ⟨"forum.posts", "reply_to"⟩,
    ⟨"forum.thread_votes", "user_id"⟩, ⟨"forum.post_votes", "user_id"⟩]

def definitions : List String :=
  "CREATE SCHEMA IF NOT EXISTS forum" ::
    (all.map TableDeclaration.sql ++ ["; ".intercalate (indexes.map indexSql)])

/-- Sends the definitions, and commits when all of them were accepted. -/
def defineFrom : List String → Operation Unit
  | [] => .commit ()
  | text :: rest => .step (.define text) (fun _ => .ok ()) fun () => defineFrom rest

/-- Defines all tables, in one transaction that has no time limit. -/
def define : Operation Unit := .inTransaction (defineFrom definitions)

end Tables

end MessageBoard
