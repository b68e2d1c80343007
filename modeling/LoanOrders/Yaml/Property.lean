import LoanOrders.Yaml.Cursor

/-!
What may stand before a node or before a document: anchors, which name a node for later use, tags,
which say what kind of node it is, and directives.
-/

namespace LoanOrders.Yaml

def isNameChar (c : Char) : Bool := c.isAlphanum || c == '-' || c == '_'

def isTagChar (c : Char) : Bool :=
  isNameChar c || [';', '/', '?', ':', '@', '&', '=', '+', '$', ',', '.', '!', '~', '*', '\'', '(',
    ')', '[', ']', '%'].contains c

/-- Whether a space, a line break or the end comes next. -/
def endsProperty : List Char → Bool
  | [] => true
  | c :: _ => c == ' ' || isBreak c

/-- A tag by the handle before it, if it has one, and its last part. -/
structure Tag where
  handle : Option String
  suffix : String
deriving DecidableEq

/-- The mark that takes a node as if it were written plainly. -/
def Tag.mark : Tag := ⟨none, "!"⟩

/-- A line before a document: the number of the notation's version, a handle for tags, or one that
has no meaning here. -/
inductive Directive
  | version (major : Nat)
  | handle (name : String)
  | other
deriving DecidableEq

/-- The characters of a class at the start of a text, of which there is at least one. -/
def run? (inside : Char → Bool) (cs : List Char) : Option (String × List Char) :=
  let taken := cs.takeWhile inside
  if taken.isEmpty then none else some (String.ofList taken, cs.drop taken.length)

/-- The name behind the mark of an anchor or an alias. -/
def anchorName? (cs : List Char) : Option (String × List Char) := do
  let (name, rest) ← run? isNameChar cs
  if endsWord rest || rest.head?.any ['?', ':', ',', ']', '\x7d', '%', '@', '\u0060'].contains then
    return (name, rest)
  else none

/-- A handle: an exclamation mark alone, or two with a name between them that may be empty. -/
def tagHandle? : List Char → Option (String × List Char)
  | '!' :: rest =>
    if rest.head? == some ' ' then some ("!", rest)
    else
      let name := rest.takeWhile isNameChar
      match rest.drop name.length with
      | '!' :: tail => some ("!" ++ String.ofList name ++ "!", tail)
      | _ => none
  | _ => none

def tag? (cs : List Char) : Option (Tag × List Char) := do
  let rest := cs.drop 1
  let (tag, rest) ← match rest with
    | '<' :: rest => do
      match ← run? isTagChar rest with
      | (suffix, '>' :: rest) => some (⟨none, suffix⟩, rest)
      | _ => none
    | rest =>
      if endsWord rest then some (Tag.mark, rest)
      else if (rest.takeWhile fun c => !(c == ' ' || isBreak c)).contains '!' then do
        let (handle, rest) ← tagHandle? cs
        let (suffix, rest) ← run? isTagChar rest
        return (⟨some handle, suffix⟩, rest)
      else do
        let (suffix, rest) ← run? isTagChar rest
        return (⟨some "!", suffix⟩, rest)
  if endsProperty rest then return (tag, rest) else none

def dropSpaces (cs : List Char) : List Char := cs.dropWhile (· == ' ')

/-- The text behind the rest of a line that holds no more than a comment. -/
def behindLine? (cs : List Char) : Option (List Char) :=
  let rest := dropSpaces cs
  let rest := if rest.head? == some '#' then rest.dropWhile (!isBreak ·) else rest
  match rest with
  | [] => some []
  | c :: tail => if isBreak c then some tail else none

/-- The numbers of a version, of which the first one is kept. -/
def version? (cs : List Char) : Option (Directive × List Char) := do
  match ← run? Char.isDigit cs with
  | (major, '.' :: rest) => return (.version (← major.toNat?), (← run? Char.isDigit rest).2)
  | _ => none

def handle? (cs : List Char) : Option (Directive × List Char) := do
  let (name, rest) ← tagHandle? cs
  if rest.head? == some ' ' then return (.handle name, (← run? isTagChar (dropSpaces rest)).2)
  else none

/-- A directive behind its percent sign, and the text behind its line. -/
def directive? (cs : List Char) : Option (Directive × List Char) := do
  let (name, rest) ← run? isNameChar cs
  if endsProperty rest then
    let (directive, rest) ← match name with
      | "YAML" => version? (dropSpaces rest)
      | "TAG" => handle? (dropSpaces rest)
      | _ => some (.other, rest.dropWhile (!isBreak ·))
    if endsProperty rest then return (directive, ← behindLine? rest) else none
  else none

end LoanOrders.Yaml
