import MessageBoard.Filter.Error
import MessageBoard.Filter.Params
import MessageBoard.Instant.Text
import MessageBoard.Text.Percent

/-!
# Filter parameters in a query string

The query of a listing is a form. Pairs with unknown names are skipped; a parameter may be given
once, and its text must be that of a value of its type. The first bad pair is reported.
-/

namespace MessageBoard

open Text

def Shape.ofQuery? : (s : Shape) → String → Option s.Val
  | .uuid, t => Uuid.ofText t
  | .text, t => some t
  | .flag, t => if t = "true" then some true else if t = "false" then some false else none
  | .instant, t => Instant.ofText? t
  | .number w, t => (unsigned? UInt32.size t.toList).bind fun n => w.ofInt? n
  | .option s, t => (s.ofQuery? t).map some
  | .list _, _ => none
  | .record _, _ => none
  | .flat _ _, _ => none

def Fields.queryReaders : (fs : Fields) → fs.Readers String String
  | .nil => ()
  | .cons name s _ rest =>
    (fun t => match s.ofQuery? t with
      | some v => .ok v
      | none => .error name, rest.queryReaders)

namespace FilterParams

def readPair (slots : fields.Slots) (pair : String × String) : Except String fields.Slots :=
  (fields.put (fun name => "duplicate field \x60" ++ name ++ "\x60") pair.1 pair.2
    fields.queryReaders slots).map (·.getD slots)

/-- The parameters of the pairs, or what is wrong with the first bad one. -/
def ofPairs (pairs : List (String × String)) : Except String FilterParams :=
  (pairs.foldlM readPair fields.noSlots).map fun slots =>
    wire.ofVal ((fields.fill slots).getD fields.initial)

def ofQuery (query : List Char) : Except FilterError FilterParams :=
  match ofPairs (formPairs query) with
  | .ok params => .ok params
  | .error reason => .error (.malformed ("Failed to deserialize query string: " ++ reason))

end FilterParams

end MessageBoard
