import LoanOrders.Yaml.Block
import LoanOrders.Yaml.Plain
import LoanOrders.Yaml.Quoted

/-!
The tokens of a document. Indentation is told by tokens too: where a line stands further to the
right than its block a block begins, and where it stands further to the left blocks end. A key is
not known as one before the colon behind it, so its token is set in later, at the place where the
key began. A scalar that is refused within its quotes ends the tokens; those that depend on what
follows them, because they may still become a key, are left out before it.
-/

namespace LoanOrders.Yaml

inductive Token
  | scalar (plain : Bool) (text : String)
  | anchor (name : String)
  | alias (name : String)
  | tag (tag : Tag)
  | directive (directive : Directive)
  | key
  | value
  | item
  | comma
  | openList
  | closeList
  | openObject
  | closeObject
  | beginItems
  | beginEntries
  | finish
  | documentStart
  | documentEnd
  | stop (fault : ScalarFault)
deriving DecidableEq

/-- The place of a node that becomes a key if a colon follows it on the same line. A node at the
left edge of an open block must become one. -/
structure KeyCandidate where
  place : Nat
  required : Bool
  index : Nat
  line : Nat
  column : Nat

namespace KeyCandidate

/-- The greatest distance of a colon from the start of its key. -/
def reach : Nat := 1024

def isLive (candidate : KeyCandidate) (cursor : Cursor) : Bool :=
  candidate.line == cursor.line && cursor.index - candidate.index ≤ reach

end KeyCandidate

/-- How far a text is split. The last token comes first; the blocks are the columns of those that
are open, the innermost first; each open bracket has a candidate of its own. -/
structure Splitting where
  cursor : Cursor
  tokens : List Token
  blocks : List Nat
  keyAllowed : Bool
  candidate : Option KeyCandidate
  outer : List (Option KeyCandidate)

namespace Splitting

def start (text : List Char) : Splitting where
  cursor := .start text
  tokens := []
  blocks := []
  keyAllowed := true
  candidate := none
  outer := []

/-- Whether a bracket is open. Within brackets indentation has no meaning. -/
def bracketed (s : Splitting) : Bool := !s.outer.isEmpty

def push (s : Splitting) (token : Token) : Splitting := { s with tokens := token :: s.tokens }

def skip (s : Splitting) (count : Nat) : Splitting := { s with cursor := s.cursor.advance count }

def mark (s : Splitting) (token : Token) (width : Nat) : Splitting := (s.push token).skip width

/-- The spaces, comments and line breaks at the start of a text. -/
def blanks (comment : Bool) : List Char → List Char
  | [] => []
  | c :: rest =>
    if isBreak c then c :: blanks false rest
    else if comment || c == '#' then c :: blanks true rest
    else if c == ' ' then c :: blanks false rest
    else []

/-- The place of the next token. A key may stand at the start of a line. -/
def skipBlanks (s : Splitting) : Splitting :=
  let skipped := blanks false s.cursor.rest
  { s.skip skipped.length with
    keyAllowed := s.keyAllowed || (!s.bracketed && skipped.any isBreak) }

/-- A candidate that a colon can still follow. One that must become a key and no longer can is an
error. -/
def stillLive (cursor : Cursor) : Option KeyCandidate → Option (Option KeyCandidate)
  | none => some none
  | some candidate =>
    if candidate.isLive cursor then some (some candidate)
    else if candidate.required then none
    else some none

def dropStale (s : Splitting) : Option Splitting := do
  let candidate ← stillLive s.cursor s.candidate
  let outer ← s.outer.mapM (stillLive s.cursor)
  return { s with candidate, outer }

/-- Gives up the candidate, unless it must become a key. -/
def dropCandidate (s : Splitting) : Option Splitting :=
  if s.candidate.any (·.required) then none else some { s with candidate := none }

/-- Makes the next token a candidate, if a key may stand here. -/
def offer (s : Splitting) : Option Splitting :=
  if s.keyAllowed then do
    let s ← s.dropCandidate
    return { s with candidate := some {
      place := s.tokens.length
      required := !s.bracketed && s.blocks.head? == some s.cursor.column
      index := s.cursor.index
      line := s.cursor.line
      column := s.cursor.column } }
  else some s

/-- Whether a block that begins at a column lies within the open ones. -/
def isInner (s : Splitting) (column : Nat) : Bool := s.blocks.head?.all (· < column)

/-- Ends the blocks that stand to the right of a column. -/
def closeBlocks (s : Splitting) (column : Nat) : Splitting :=
  if s.bracketed then s
  else
    let closed := s.blocks.takeWhile (column < ·)
    { s with
      tokens := closed.map (fun _ => .finish) ++ s.tokens
      blocks := s.blocks.drop closed.length }

def closeAll (s : Splitting) : Splitting :=
  if s.bracketed then s
  else { s with tokens := s.blocks.map (fun _ => .finish) ++ s.tokens, blocks := [] }

/-- Begins a block at the column of the cursor, unless one is open there. -/
def beginBlock (s : Splitting) (token : Token) : Splitting :=
  if s.isInner s.cursor.column then
    { s.push token with blocks := s.cursor.column :: s.blocks }
  else s

def separator (s : Splitting) (token : Token) : Option Splitting := do
  let s ← s.closeAll.dropCandidate
  return { s.mark token 3 with keyAllowed := false }

def openBracket (s : Splitting) (token : Token) : Option Splitting := do
  let s ← s.offer
  return { s.mark token 1 with
    keyAllowed := true, candidate := none, outer := s.candidate :: s.outer }

def closeBracket (s : Splitting) (token : Token) : Option Splitting := do
  let s ← s.dropCandidate
  match s.outer with
  | [] => none
  | candidate :: outer => return { s.mark token 1 with keyAllowed := false, candidate, outer }

def comma (s : Splitting) : Option Splitting := do
  let s ← s.dropCandidate
  return { s.mark .comma 1 with keyAllowed := true }

def item (s : Splitting) : Option Splitting := do
  let s ← if s.bracketed then some s
    else if s.keyAllowed then some (s.beginBlock .beginItems)
    else none
  let s ← s.dropCandidate
  return { s.mark .item 1 with keyAllowed := true }

def explicitKey (s : Splitting) : Option Splitting := do
  let s ← if s.bracketed then some s
    else if s.keyAllowed then some (s.beginBlock .beginEntries)
    else none
  let s ← s.dropCandidate
  return { s.mark .key 1 with keyAllowed := !s.bracketed }

/-- Sets the token of a key in before the candidate, which may begin a block. -/
def setKey (s : Splitting) (candidate : KeyCandidate) : Splitting :=
  let since := s.tokens.length - candidate.place
  let begins := !s.bracketed && s.isInner candidate.column
  { s with
    tokens := s.tokens.take since ++ [.key] ++ (if begins then [.beginEntries] else []) ++
      s.tokens.drop since
    blocks := if begins then candidate.column :: s.blocks else s.blocks
    candidate := none
    keyAllowed := false }

def value (s : Splitting) : Option Splitting :=
  match s.candidate with
  | some candidate => some ((s.setKey candidate).mark .value 1)
  | none =>
    if s.bracketed then some { s.mark .value 1 with keyAllowed := false }
    else if s.keyAllowed then some ((s.beginBlock .beginEntries).mark .value 1)
    else none

/-- A token that is read up to a text. No key may start behind it on the same line. -/
def upTo (s : Splitting) (token : Token) (rest : List Char) : Splitting :=
  { s.mark token (s.cursor.rest.length - rest.length) with keyAllowed := false }

def quoted (s : Splitting) (double : Bool) : Except Fault Splitting := do
  let s ← orMalformed s.offer
  let (text, rest) ← quotedScalar double (s.cursor.rest.drop 1)
  return s.upTo (.scalar false text) rest

def anchor (s : Splitting) (token : String → Token) : Option Splitting := do
  let s ← s.offer
  let (name, rest) ← anchorName? (s.cursor.rest.drop 1)
  return s.upTo (token name) rest

def tag (s : Splitting) : Option Splitting := do
  let s ← s.offer
  let (tag, rest) ← tag? s.cursor.rest
  return s.upTo (.tag tag) rest

def directive (s : Splitting) : Option Splitting := do
  let s ← s.closeAll.dropCandidate
  let (directive, rest) ← directive? (s.cursor.rest.drop 1)
  return s.upTo (.directive directive) rest

/-- A block scalar. Behind it a key may start. -/
def block (s : Splitting) (folds : Bool) : Option Splitting := do
  let s ← s.dropCandidate
  let least := match s.blocks with
    | column :: _ => column + 1
    | [] => 1
  let (text, rest) ← blockScalar? folds least (s.cursor.rest.drop 1)
  return { s.upTo (.scalar false text) rest with keyAllowed := true }

def plain (s : Splitting) : Option Splitting := do
  let s ← s.offer
  let least := match s.blocks with
    | column :: _ => column + 1
    | [] => 0
  let extent := readPlain s.bracketed least s.cursor.rest.length s.cursor
  return { s.push (.scalar true (String.ofList extent.text)) with
    cursor := extent.cursor, keyAllowed := extent.crossedLine }

def next (s : Splitting) (c : Char) (rest : List Char) : Option Splitting :=
  if s.cursor.column == 0 && c == '%' then s.directive
  else if s.cursor.column == 0 && startsSeparator (c :: rest) then
    s.separator (if c == '-' then .documentStart else .documentEnd)
  else if c == '[' then s.openBracket .openList
  else if c == '\x7b' then s.openBracket .openObject
  else if c == ']' then s.closeBracket .closeList
  else if c == '\x7d' then s.closeBracket .closeObject
  else if c == ',' then s.comma
  else if c == '-' && endsWord rest then s.item
  else if c == '?' && (s.bracketed || endsWord rest) then s.explicitKey
  else if c == ':' && (s.bracketed || endsWord rest) then s.value
  else if c == '*' then s.anchor .alias
  else if c == '&' then s.anchor .anchor
  else if c == '!' then s.tag
  else if c == '|' && !s.bracketed then s.block false
  else if c == '>' && !s.bracketed then s.block true
  else if startsPlain s.bracketed (c :: rest) then s.plain
  else none

/-- The tokens that do not depend on what follows, with an end. -/
def stop (s : Splitting) (fault : ScalarFault) : List Token :=
  let s := s.offer.getD s
  let places := (s.candidate :: s.outer).filterMap fun candidate => candidate.map (·.place)
  s.tokens.reverse.take (places.foldl min s.tokens.length) ++ [.stop fault]

/-- Splits the rest of a text. Each token takes at least one character. -/
def run : Nat → Splitting → Option (List Token)
  | 0, _ => none
  | steps + 1, s => do
    let s ← s.skipBlanks.dropStale
    let s := s.closeBlocks s.cursor.column
    match s.cursor.rest with
    | [] => return (← s.closeAll.dropCandidate).tokens.reverse
    | c :: rest =>
      if c == '\'' || c == '"' then
        match s.quoted (c == '"') with
        | .ok s => run steps s
        | .error .malformed => none
        | .error (.refused fault) => return s.stop fault
      else run steps (← s.next c rest)

end Splitting

def tokens? (text : List Char) : Option (List Token) :=
  Splitting.run (text.length + 1) (.start text)

end LoanOrders.Yaml
