import LoanOrders.Yaml.Property

/-!
Block scalars. Their lines stand further to the right than the block around them and lose that
indentation. A literal one keeps its line breaks, a folded one joins its lines to paragraphs.
-/

namespace LoanOrders.Yaml

/-- What becomes of the line breaks at the end of a block scalar: one stays, none, or all. -/
inductive Chomping
  | clip
  | strip
  | keep
deriving DecidableEq

structure BlockHeader where
  chomping : Chomping
  increment : Option Nat

def chomping? : List Char → Option (Chomping × List Char)
  | '+' :: rest => some (.keep, rest)
  | '-' :: rest => some (.strip, rest)
  | _ => none

def increment? : List Char → Option (Nat × List Char)
  | c :: rest => if '1' ≤ c && c ≤ '9' then some (c.toNat - 0x30, rest) else none
  | [] => none

/-- The header of a block scalar, its two parts in any order, and the text behind its line. -/
def blockHeader? (cs : List Char) : Option (BlockHeader × List Char) := do
  let (header, rest) : BlockHeader × List Char := match chomping? cs with
    | some (chomping, rest) =>
      match increment? rest with
      | some (n, rest) => (⟨chomping, some n⟩, rest)
      | none => (⟨chomping, none⟩, rest)
    | none =>
      match increment? cs with
      | some (n, rest) =>
        match chomping? rest with
        | some (chomping, rest) => (⟨chomping, some n⟩, rest)
        | none => (⟨.clip, some n⟩, rest)
      | none => (⟨.clip, none⟩, cs)
  if endsProperty rest then return (header, ← behindLine? rest) else none

def breakText (c : Char) : Char := if c == '\u0085' then '\n' else c

/-- The line breaks before the next line, the column at which it goes on, and the text from there.
Spaces are skipped up to a column only. -/
structure LineStart where
  breaks : List Char
  column : Nat
  rest : List Char

def LineStart.prepend (c : Char) (start : LineStart) : LineStart :=
  { start with breaks := c :: start.breaks }

def lineStart (indent column : Nat) : List Char → LineStart
  | [] => ⟨[], column, []⟩
  | c :: rest =>
    if c == ' ' && column < indent then lineStart indent (column + 1) rest
    else if isBreak c then (lineStart indent 0 rest).prepend (breakText c)
    else ⟨[], column, c :: rest⟩

/-- The start of the first line that is not empty, and the greatest number of spaces that a line up
to it starts with. -/
def firstLine (column greatest : Nat) : List Char → LineStart × Nat
  | [] => (⟨[], column, []⟩, greatest)
  | c :: rest =>
    if c == ' ' then firstLine (column + 1) (max greatest (column + 1)) rest
    else if isBreak c then
      let (start, greatest) := firstLine 0 greatest rest
      (start.prepend (breakText c), greatest)
    else (⟨[], column, c :: rest⟩, greatest)

def LineStart.isInside (start : LineStart) (indent : Nat) : Bool :=
  start.column == indent && !start.rest.isEmpty

def startsBlank (cs : List Char) : Bool := cs.head?.any fun c => c == ' ' || c == '\t'

/-- The lines of a block scalar without the line breaks behind the last one, those line breaks, and
the text behind. There are no more lines than characters. -/
def blockLines (folds : Bool) (indent : Nat) :
    Nat → LineStart → List Char × List Char × LineStart
  | 0, start => ([], [], start)
  | steps + 1, start =>
    if start.isInside indent then
      let line := start.rest.takeWhile (!isBreak ·)
      let tail := start.rest.drop line.length
      let lineBreak := (tail.take 1).map breakText
      let next := lineStart indent 0 (tail.drop 1)
      if next.isInside indent then
        let joined := folds && lineBreak == ['\n'] && !startsBlank start.rest &&
          !startsBlank next.rest
        let between := if !joined then lineBreak else if next.breaks.isEmpty then [' '] else []
        let (text, last, behind) := blockLines folds indent steps next
        (start.breaks ++ line ++ between ++ text, last, behind)
      else (start.breaks ++ line, lineBreak, next)
    else ([], [], start)

/-- A block scalar behind its mark, within a block at a column, and the text behind it. -/
def blockScalar? (folds : Bool) (least : Nat) (cs : List Char) : Option (String × List Char) := do
  let (header, rest) ← blockHeader? cs
  let (start, indent) := match header.increment with
    | some n =>
      let indent := least + n - 1
      (lineStart indent 0 rest, indent)
    | none =>
      let (start, greatest) := firstLine 0 0 rest
      (start, max least greatest)
  let (text, last, behind) := blockLines folds indent (rest.length + 1) start
  let ending := match header.chomping with
    | .clip => last
    | .strip => []
    | .keep => last ++ behind.breaks
  return (String.ofList (text ++ ending), behind.rest)

end LoanOrders.Yaml
