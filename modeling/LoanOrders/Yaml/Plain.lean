import LoanOrders.Yaml.Cursor

/-!
How far a plain scalar reaches. It may go on over several lines, which are folded into one.
-/

namespace LoanOrders.Yaml

def isBracketMark (c : Char) : Bool := [',', '?', '[', ']', '\x7b', '\x7d'].contains c

def endsKey (bracketed : Bool) (cs : List Char) : Bool :=
  endsWord cs || (bracketed && match cs with
    | c :: _ => c != '?' && isBracketMark c
    | [] => false)

def word (bracketed : Bool) : List Char → List Char
  | [] => []
  | c :: rest =>
    if isGap c || (c == ':' && endsKey bracketed rest) || (bracketed && isBracketMark c) then []
    else c :: word bracketed rest

def indicators : List Char :=
  [',', '[', ']', '\x7b', '\x7d', '#', '&', '*', '!', '|', '>', '\'', '"', '%', '@', '\u0060']

def startsPlain (bracketed : Bool) : List Char → Bool
  | [] => false
  | c :: rest =>
    if c == '-' then !endsWord rest
    else if c == '?' || c == ':' then !bracketed && !endsWord rest
    else !isGap c && !indicators.contains c

/-- The spaces and line breaks at the start of a text, up to a line that parts documents. -/
def breaksAndSpaces : List Char → List Char
  | [] => []
  | c :: rest =>
    if c == ' ' then c :: breaksAndSpaces rest
    else if isBreak c then c :: (if startsSeparator rest then [] else breaksAndSpaces rest)
    else []

/-- The blanks behind a word: spaces, and further lines if it is the last one of its line. -/
def gapAfter (cs : List Char) : List Char :=
  let spaces := cs.takeWhile (· == ' ')
  match cs.drop spaces.length with
  | c :: rest => if isBreak c then spaces ++ breaksAndSpaces (c :: rest) else spaces
  | [] => spaces

def gapText (gap : List Char) : List Char :=
  if gap.any isBreak then folded (gap.filter isBreak) else gap

/-- A plain scalar with the place behind it and the blanks that follow it. -/
structure PlainExtent where
  text : List Char
  cursor : Cursor
  crossedLine : Bool

/-- Whether the next word belongs to the scalar: it does not open a comment, and on a line of its
own it stands far enough to the right. -/
def continues (bracketed : Bool) (least : Nat) (gap : List Char) (after : Cursor) : Bool :=
  !gap.isEmpty && after.rest.head? != some '#' && (bracketed || least ≤ after.column) &&
    !(gap.getLast?.any isBreak && startsSeparator after.rest)

/-- The words of a plain scalar, of which there are no more than characters. -/
def readPlain (bracketed : Bool) (least : Nat) : Nat → Cursor → PlainExtent
  | 0, cursor => ⟨[], cursor, false⟩
  | steps + 1, cursor =>
    let first := word bracketed cursor.rest
    let cursor := cursor.advance first.length
    let gap := gapAfter cursor.rest
    let after := cursor.advance gap.length
    let crossed := gap.any isBreak
    if continues bracketed least gap after && !(word bracketed after.rest).isEmpty then
      let tail := readPlain bracketed least steps after
      ⟨first ++ gapText gap ++ tail.text, tail.cursor, tail.crossedLine⟩
    else ⟨first, after, crossed⟩

end LoanOrders.Yaml
