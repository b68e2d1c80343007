import LoanOrders.Yaml.Token

/-!
The nodes of a document, as its tokens give them: objects and lists in blocks or in brackets, with
scalars, and with names for nodes that come up again.
-/

namespace LoanOrders.Yaml

/-- Where a node stands. Behind a key a list may be written without an indentation of its own. -/
inductive Site
  | bracket
  | block
  | behindKey
deriving DecidableEq

/-- A part of a document as it is written. -/
inductive Written
  | scalar (plain : Bool) (text : String)
  | list (items : List Written)
  | object (entries : List (Written × Written))
  | alias (name : String)
  | described (anchor : Option String) (tag : Option Tag) (node : Written)
deriving Inhabited

def Written.absent : Written := .scalar true ""

/-- What is written before a node. -/
structure Properties where
  anchor : Option String
  tag : Option Tag

namespace Properties

/-- An anchor and a tag in any order, as far as they come next. -/
def take : List Token → Properties × List Token
  | .anchor name :: .tag tag :: rest => (⟨some name, some tag⟩, rest)
  | .tag tag :: .anchor name :: rest => (⟨some name, some tag⟩, rest)
  | .anchor name :: rest => (⟨some name, none⟩, rest)
  | .tag tag :: rest => (⟨none, some tag⟩, rest)
  | rest => (⟨none, none⟩, rest)

def isNone (p : Properties) : Bool := p.anchor.isNone && p.tag.isNone

def describe (p : Properties) (node : Written) : Written :=
  if p.isNone then node else .described p.anchor p.tag node

end Properties

/-- The fault of tokens that do not go on as they have to. -/
def unexpected : List Token → Fault
  | .stop fault :: _ => .refused fault
  | _ => .malformed

/-- A node, or an absent one if one of the tokens that end it comes up at once. -/
def orAbsent (ends : List Token) (read : List Token → Except Fault (Written × List Token)) :
    List Token → Except Fault (Written × List Token)
  | [] => throw .malformed
  | token :: rest =>
    if ends.contains token then return (Written.absent, token :: rest) else read (token :: rest)

/-- The tokens of the next part in brackets. A comma stands before every part but the first, and may
stand before the end. -/
def separated (first : Bool) (close : Token) : List Token → Except Fault (List Token)
  | .comma :: rest => if first then throw .malformed else return rest
  | tokens =>
    if first || tokens.head? == some close then return tokens else throw (unexpected tokens)

mutual

/-- The node at the start of some tokens. Behind an anchor or a tag it may be left out. The steps
bound the depth of the calls. -/
def readNode : Nat → Site → List Token → Except Fault (Written × List Token)
  | steps + 1, site, tokens => do
    let (properties, tokens) := Properties.take tokens
    let (node, rest) : Written × List Token ← match tokens, site with
      | .alias name :: rest, _ =>
        if properties.isNone then pure (.alias name, rest) else throw .malformed
      | .scalar plain text :: rest, _ => pure (.scalar plain text, rest)
      | .openList :: rest, _ =>
        (readBracketItems steps true rest).map fun (items, rest) => (.list items, rest)
      | .openObject :: rest, _ =>
        (readBracketEntries steps true rest).map fun (entries, rest) => (.object entries, rest)
      | .beginItems :: rest, .block | .beginItems :: rest, .behindKey =>
        (readItems steps rest).map fun (items, rest) => (.list items, rest)
      | .beginEntries :: rest, .block | .beginEntries :: rest, .behindKey =>
        (readEntries steps rest).map fun (entries, rest) => (.object entries, rest)
      | .item :: rest, .behindKey =>
        (readFlushItems steps (.item :: rest)).map fun (items, rest) => (.list items, rest)
      | rest, _ =>
        if properties.isNone then throw (unexpected rest) else pure (.absent, rest)
    return (properties.describe node, rest)
  | 0, _, _ => throw .malformed

/-- The items of a list in a block of its own. -/
def readItems : Nat → List Token → Except Fault (List Written × List Token)
  | steps + 1, .item :: rest => do
    let (d, rest) ← orAbsent [.item, .finish] (readNode steps .block) rest
    let (items, rest) ← readItems steps rest
    return (d :: items, rest)
  | _, .finish :: rest => return ([], rest)
  | _, rest => throw (unexpected rest)

/-- The items of a list that stands flush with the key before it. -/
def readFlushItems : Nat → List Token → Except Fault (List Written × List Token)
  | steps + 1, .item :: rest => do
    let (d, rest) ← orAbsent [.item, .key, .value, .finish] (readNode steps .block) rest
    let (items, rest) ← readFlushItems steps rest
    return (d :: items, rest)
  | 0, .item :: _ => throw .malformed
  | _, rest => return ([], rest)

def readEntries : Nat → List Token → Except Fault (List (Written × Written) × List Token)
  | steps + 1, .key :: rest => do
    let ends := [.key, .value, .finish]
    let (key, rest) ← orAbsent ends (readNode steps .behindKey) rest
    let (d, rest) ← match rest with
      | .value :: rest => orAbsent ends (readNode steps .behindKey) rest
      | rest => pure (Written.absent, rest)
    let (pairs, rest) ← readEntries steps rest
    return ((key, d) :: pairs, rest)
  | _, .finish :: rest => return ([], rest)
  | _, rest => throw (unexpected rest)

/-- A key in brackets with its value, up to one of the tokens that end it. -/
def readBracketPair :
    Nat → Token → List Token → Except Fault ((Written × Written) × List Token)
  | steps + 1, close, tokens => do
    let (key, rest) ← orAbsent [.value, .comma, close] (readNode steps .bracket) tokens
    let (d, rest) ← match rest with
      | .value :: rest => orAbsent [.comma, close] (readNode steps .bracket) rest
      | rest => pure (Written.absent, rest)
    return ((key, d), rest)
  | 0, _, _ => throw .malformed

/-- The items of a list in brackets. A pair among them is an object of its own. -/
def readBracketItems : Nat → Bool → List Token → Except Fault (List Written × List Token)
  | steps + 1, first, tokens => do
    match ← separated first .closeList tokens with
    | .closeList :: rest => return ([], rest)
    | .key :: rest =>
      let (pair, rest) ← readBracketPair steps .closeList rest
      let (items, rest) ← readBracketItems steps false rest
      return (.object [pair] :: items, rest)
    | rest =>
      let (d, rest) ← readNode steps .bracket rest
      let (items, rest) ← readBracketItems steps false rest
      return (d :: items, rest)
  | 0, _, _ => throw .malformed

/-- The entries of an object in brackets. A node without a value is a key for null. -/
def readBracketEntries :
    Nat → Bool → List Token → Except Fault (List (Written × Written) × List Token)
  | steps + 1, first, tokens => do
    match ← separated first .closeObject tokens with
    | .closeObject :: rest => return ([], rest)
    | .key :: rest =>
      let (pair, rest) ← readBracketPair steps .closeObject rest
      let (pairs, rest) ← readBracketEntries steps false rest
      return (pair :: pairs, rest)
    | rest =>
      let (key, rest) ← readNode steps .bracket rest
      let (pairs, rest) ← readBracketEntries steps false rest
      return ((key, Written.absent) :: pairs, rest)
  | 0, _, _ => throw .malformed

end

def takeDirectives : List Token → List Directive × List Token
  | .directive d :: rest =>
    let (ds, rest) := takeDirectives rest
    (d :: ds, rest)
  | rest => ([], rest)

/-- Whether directives can stand before a document: the version is told once and is the first, and
no handle is given twice. -/
def areConsistent (directives : List Directive) : Bool :=
  (directives.all fun
    | .version major => major == 1
    | _ => true) &&
  (directives.filter (· matches .version _)).length ≤ 1 &&
  (directives.filter (· matches .handle _)).Nodup

/-- The node of a single document with the directives before it. Only lines that end the document
may follow. -/
def readDocument (tokens : List Token) : Except Fault (List Directive × Written) := do
  let steps := 2 * tokens.length + 1
  let (directives, tokens) := takeDirectives tokens
  if !areConsistent directives then throw .malformed
  let (node, rest) ← match tokens with
    | [.documentStart] => pure (Written.absent, [])
    | .documentStart :: rest =>
      orAbsent [.documentStart, .documentEnd] (readNode steps .block) rest
    | tokens =>
      if !directives.isEmpty then throw (unexpected tokens)
      else if tokens.isEmpty then pure (Written.absent, [])
      else readNode steps .block tokens
  match rest.dropWhile (· == .documentEnd) with
  | [] => return (directives, node)
  | rest => throw (unexpected rest)

end LoanOrders.Yaml
