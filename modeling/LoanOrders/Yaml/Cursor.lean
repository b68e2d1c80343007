/-!
Places in the text of a document. Layout is told from the lines and columns at which things stand,
so a cursor counts both while it moves over the text.
-/

namespace LoanOrders.Yaml

def isBreak (c : Char) : Bool :=
  c == '\n' || c == '\u0085' || c == '\u2028' || c == '\u2029'

def isGap (c : Char) : Bool := c == ' ' || c == '\t' || isBreak c

def endsWord : List Char → Bool
  | [] => true
  | c :: _ => isGap c

/-- Whether the line that starts here is one that parts documents. -/
def startsSeparator : List Char → Bool
  | '-' :: '-' :: '-' :: rest => endsWord rest
  | '.' :: '.' :: '.' :: rest => endsWord rest
  | _ => false

/-- The mark that a text may open with to tell its encoding. It has no width. -/
def byteOrderMark : Char := '\uFEFF'

structure Cursor where
  rest : List Char
  index : Nat
  line : Nat
  column : Nat

namespace Cursor

/-- The first place of a text, after a byte order mark. -/
def start : List Char → Cursor
  | c :: rest => if c == byteOrderMark then ⟨rest, 1, 0, 0⟩ else ⟨c :: rest, 0, 0, 0⟩
  | [] => ⟨[], 0, 0, 0⟩

def advance (cursor : Cursor) : Nat → Cursor
  | 0 => cursor
  | n + 1 =>
    match cursor.rest with
    | [] => cursor
    | c :: rest =>
      let moved : Cursor :=
        if isBreak c then ⟨rest, cursor.index + 1, cursor.line + 1, 0⟩
        else ⟨rest, cursor.index + 1, cursor.line,
          if c == byteOrderMark then cursor.column else cursor.column + 1⟩
      moved.advance n

end Cursor

/-- The text of line breaks between words: a single one is a space, and of several the first is left
out. Only the two separators of Unicode stand for themselves at any place. -/
def folded (breaks : List Char) : List Char :=
  let plain := breaks.map fun c => if c == '\u0085' then '\n' else c
  match plain with
  | [] => []
  | ['\n'] => [' ']
  | '\n' :: more => more
  | plain => plain

end LoanOrders.Yaml
