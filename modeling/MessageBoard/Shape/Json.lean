import MessageBoard.Instant.Text
import MessageBoard.Json.Basic
import MessageBoard.Json.Document
import MessageBoard.Shape.Basic

/-!
# Values as JSON

Values of a shape written as JSON, and read from the text of a JSON document. A record is read from
an object, or from an array that holds its fields in order. Unknown keys are skipped. The first
fault in reading order counts: the text may be malformed, or well formed but not of the shape.
-/

namespace MessageBoard

open Json

mutual

def Shape.toJson : (s : Shape) → s.Val → Json
  | .uuid, u => .text (Uuid.toText u)
  | .text, t => .text t
  | .flag, b => .flag b
  | .instant, t => .text (Instant.toText t)
  | .number w, n => .int (w.toInt n)
  | .option _, none => .null
  | .option s, some v => s.toJson v
  | .list s, vs => .array (vs.map s.toJson)
  | .record fs, v => .object (fs.toEntries v)
  | .flat inner own, v => .object (inner.toEntries v.1 ++ own.toEntries v.2)

def Fields.toEntries : (fs : Fields) → fs.Val → List (String × Json)
  | .nil, _ => []
  | .cons name s _ rest, v => (name, s.toJson v.1) :: rest.toEntries v.2

end

inductive JsonError where
  | malformed
  | mismatch
  deriving DecidableEq

namespace Json.Document

/-- The fault of a document that stands where another shape was wanted. The text of a container is
not looked at for that, the text of anything else is. -/
def unexpected {α : Type} : Document → Except JsonError α
  | malformed => .error .malformed
  | text none => .error .malformed
  | number .overflow => .error .malformed
  | _ => .error .mismatch

/-- What is found at the end of an array, where one more item was wanted or none. -/
def endError : Ending → JsonError
  | .closed => .mismatch
  | .broken => .malformed

variable {α : Type}

def readText (read : String → Option α) : Document → Except JsonError α
  | text (some s) =>
    match read s with
    | some v => .ok v
    | none => .error .mismatch
  | d => d.unexpected

def readFlag : Document → Except JsonError Bool
  | flag b => .ok b
  | d => d.unexpected

def readNumber (w : Width) : Document → Except JsonError w.Val
  | number (.int n) =>
    match w.ofInt? n with
    | some v => .ok v
    | none => .error .mismatch
  | d => d.unexpected

def readOption (read : Document → Except JsonError α) : Document → Except JsonError (Option α)
  | null => .ok none
  | d => (read d).map some

def readList (read : Document → Except JsonError α) : Document → Except JsonError (List α)
  | array items ending => do
    let vs ← items.mapM read
    if ending = .closed then return vs else throw .malformed
  | d => d.unexpected

def readEntry (fs : Fields) (readers : fs.Readers JsonError Document) (slots : fs.Slots)
    (entry : Option String × Document) : Except JsonError fs.Slots :=
  match entry with
  | (none, _) => .error .malformed
  | (some key, d) => do
    match ← fs.put (fun _ => .mismatch) key d readers slots with
    | some slots => return slots
    | none => if d.isSound then return slots else throw .malformed

def readEntries (fs : Fields) (readers : fs.Readers JsonError Document)
    (entries : List (Option String × Document)) : Except JsonError fs.Slots :=
  entries.foldlM (readEntry fs readers) fs.noSlots

def fillSlots (fs : Fields) (slots : fs.Slots) : Except JsonError fs.Val :=
  match fs.fill slots with
  | some v => .ok v
  | none => .error .mismatch

def readItems : (fs : Fields) → fs.Readers JsonError Document → List Document → Ending →
    Except JsonError fs.Val
  | .nil, _, [], .closed => .ok ()
  | .nil, _, _, _ => .error .malformed
  | .cons _ _ _ rest, (read, readers), d :: items, ending => do
    let v ← read d
    return (v, ← readItems rest readers items ending)
  | .cons _ s p rest, (_, readers), [], ending =>
    if ending = .closed ∧ p = .defaulted then do
      return (s.initial, ← readItems rest readers [] ending)
    else .error (endError ending)

def readRecord (fs : Fields) (readers : fs.Readers JsonError Document) :
    Document → Except JsonError fs.Val
  | object entries ending => do
    let slots ← readEntries fs readers entries
    if ending = .closed then fillSlots fs slots else throw .malformed
  | array items ending => readItems fs readers items ending
  | d => d.unexpected

def maxDepth : Nat := 128

/-- An entry of a flat record: read at once if it is one of the record's own, else kept for the
inner record. -/
def readFlatEntry (own : Fields) (readers : own.Readers JsonError Document)
    (sofar : own.Slots × List (Option String × Document)) (entry : Option String × Document) :
    Except JsonError (own.Slots × List (Option String × Document)) :=
  match entry with
  | (none, _) => .error .malformed
  | (some key, d) => do
    match ← own.put (fun _ => .mismatch) key d readers sofar.1 with
    | some slots => return (slots, sofar.2)
    | none =>
      if isStrict (maxDepth - 1) d then return (sofar.1, (some key, d) :: sofar.2)
      else throw .malformed

def readFlat (inner own : Fields) (innerReaders : inner.Readers JsonError Document)
    (ownReaders : own.Readers JsonError Document) :
    Document → Except JsonError (inner.Val × own.Val)
  | object entries ending => do
    let (slots, kept) ← entries.foldlM (readFlatEntry own ownReaders) (own.noSlots, [])
    if ending = .closed then
      let v ← fillSlots inner (← readEntries inner innerReaders kept.reverse)
      return (v, ← fillSlots own slots)
    else throw .malformed
  | d => d.unexpected

end Json.Document

open Json.Document

mutual

def Shape.read : (s : Shape) → Document → Except JsonError s.Val
  | .uuid => readText Uuid.ofText
  | .text => readText some
  | .flag => readFlag
  | .instant => readText Instant.ofText?
  | .number w => readNumber w
  | .option s => readOption s.read
  | .list s => readList s.read
  | .record fs => readRecord fs fs.jsonReaders
  | .flat inner own => readFlat inner own inner.jsonReaders own.jsonReaders

def Fields.jsonReaders : (fs : Fields) → fs.Readers JsonError Document
  | .nil => ()
  | .cons _ s _ rest => (s.read, rest.jsonReaders)

end

namespace Wire

variable {α : Type} (wire : Wire α)

def toJson (v : α) : Json := wire.shape.toJson (wire.toVal v)

def ofChars (cs : List (Option Char)) : Except JsonError α :=
  let (d, more) := Document.ofChars cs
  match wire.shape.read d with
  | .ok v => if more then .error .malformed else .ok (wire.ofVal v)
  | .error e => .error e

def ofText (s : String) : Except JsonError α := wire.ofChars (s.toList.map some)

end Wire

end MessageBoard
