/-!
# Blanks of a configuration text

What may stand between the words of a text: spaces, the ends of lines, and comments, each of which
goes on to the end of its line.
-/

namespace MessageBoard.Toml

def isSpace (c : Char) : Bool := c == ' ' || c == '\t'

def isText (c : Char) : Bool := c == '\t' || (0x20 ≤ c.toNat && c.toNat ≠ 0x7F)

def skipSpaces (cs : List Char) : List Char := cs.dropWhile isSpace

def afterNewline? : List Char → Option (List Char)
  | '\n' :: cs => some cs
  | '\r' :: '\n' :: cs => some cs
  | _ => none

def dropNewline (cs : List Char) : List Char := (afterNewline? cs).getD cs

/-- The text from its first character that is no space, no end of a line and not in a comment;
`inComment` says whether it starts in one. -/
def skipBlanks (inComment : Bool) : List Char → List Char
  | [] => []
  | '\n' :: cs => skipBlanks false cs
  | '\r' :: '\n' :: cs => skipBlanks false cs
  | c :: cs =>
    if inComment then if isText c then skipBlanks true cs else c :: cs
    else if c = '#' then skipBlanks true cs
    else if isSpace c then skipBlanks false cs
    else c :: cs

/-- The text after a line that ends here, but for spaces and a comment. -/
def afterLine? (cs : List Char) : Option (List Char) :=
  let rest :=
    match skipSpaces cs with
    | '#' :: cs => cs.dropWhile isText
    | cs => cs
  if rest = [] then some [] else afterNewline? rest

end MessageBoard.Toml
