import LoanOrders.Yaml.Cursor
import LoanOrders.Yaml.Fault

/-!
Quoted scalars. Between single quotes only a doubled quote has a meaning of its own; between double
quotes a backslash starts an escape. In both a line break is folded into the text around it.
-/

namespace LoanOrders.Yaml

def hexValue? (c : Char) : Option Nat :=
  if '0' ≤ c && c ≤ '9' then some (c.toNat - 0x30)
  else if 'a' ≤ c && c ≤ 'f' then some (c.toNat - 0x61 + 10)
  else if 'A' ≤ c && c ≤ 'F' then some (c.toNat - 0x41 + 10)
  else none

/-- The number that the next `count` hexadecimal digits stand for. -/
def readHex? (count : Nat) (cs : List Char) : Option (Nat × List Char) :=
  if cs.length < count then none
  else do
    let ds ← (cs.take count).mapM hexValue?
    return (ds.foldl (fun n d => 16 * n + d) 0, cs.drop count)

/-- The character with a code point. Half of a pair alone is none, and leaves a mark in its place. -/
def charAt (n : Nat) : Except Fault Char :=
  if n.isValidChar then .ok (Char.ofNat n)
  else if n < 0x110000 then .ok '\uFFFD'
  else .error (.refused (.noCharacter n))

def lowHalf? : List Char → Option (Nat × List Char)
  | '\\' :: 'u' :: rest => do
    let (n, rest) ← readHex? 4 rest
    if 0xDC00 ≤ n && n < 0xE000 then some (n - 0xDC00, rest) else none
  | _ => none

/-- The character of an escaped code point. Two escapes may give the halves of a character beyond
the first plane. -/
def escapedChar (n : Nat) (rest : List Char) : Except Fault (Char × List Char) :=
  match if 0xD800 ≤ n && n < 0xDC00 then lowHalf? rest else none with
  | some (low, rest) => return (← charAt (0x10000 + (n - 0xD800) * 0x400 + low), rest)
  | none => return (← charAt n, rest)

/-- The character that a single character behind a backslash stands for. -/
def shortEscape? : Char → Option Char
  | '0' => some '\u0000'
  | 'a' => some '\u0007'
  | 'b' => some '\u0008'
  | 't' | '\t' => some '\t'
  | 'n' => some '\n'
  | 'v' => some '\u000B'
  | 'f' => some '\u000C'
  | 'r' => some '\r'
  | 'e' => some '\u001B'
  | ' ' => some ' '
  | '"' => some '"'
  | '\\' => some '\\'
  | '/' => some '/'
  | 'N' => some '\u0085'
  | '_' => some '\u00A0'
  | 'L' => some '\u2028'
  | 'P' => some '\u2029'
  | _ => none

/-- The line breaks among the blanks at the start of a line, and what follows. A line that parts
documents must not come up. -/
def skipBreaks (lineStart : Bool) : List Char → Option (List Char × List Char)
  | [] => some ([], [])
  | c :: rest =>
    if lineStart && startsSeparator (c :: rest) then none
    else if isBreak c then (skipBreaks true rest).map fun (breaks, tail) => (c :: breaks, tail)
    else if c == ' ' || c == '\t' then skipBreaks false rest
    else some ([], c :: rest)

/-- The text of the blanks between two words within quotes, and what follows. -/
def foldGap (cs : List Char) : Option (List Char × List Char) :=
  let blanks := cs.takeWhile fun c => c == ' ' || c == '\t'
  match cs.drop blanks.length with
  | [] => none
  | c :: rest =>
    if isBreak c then
      (skipBreaks true rest).map fun (breaks, tail) => (folded (c :: breaks), tail)
    else some (blanks, c :: rest)

/-- The text of an escape, and what follows. An escaped line break leaves no space. -/
def escape : List Char → Except Fault (List Char × List Char)
  | [] => throw .malformed
  | c :: rest =>
    match shortEscape? c with
    | some e => return ([e], rest)
    | none => do
      if isBreak c then
        let (breaks, tail) ← orMalformed (skipBreaks true rest)
        return (breaks.map fun b => if b == '\u0085' then '\n' else b, tail)
      else
        let count ← match c with
          | 'x' => pure 2
          | 'u' => pure 4
          | 'U' => pure 8
          | _ => throw .malformed
        let (n, tail) ← orMalformed (readHex? count rest)
        let (e, tail) ← escapedChar n tail
        return ([e], tail)

/-- The text up to the closing quote, and what follows that quote. Each step takes at least one
character, so as many steps as there are characters are enough. -/
def readQuoted (double : Bool) : Nat → List Char → Except Fault (List Char × List Char)
  | 0, _ => throw .malformed
  | steps + 1, cs => do
    let (text, rest) ← match cs with
      | [] => throw .malformed
      | c :: rest =>
        if isGap c then orMalformed (foldGap (c :: rest))
        else if double && c == '\\' then escape rest
        else if double && c == '"' then return ([], rest)
        else if !double && c == '\'' then
          match rest with
          | '\'' :: tail => pure (['\''], tail)
          | rest => return ([], rest)
        else pure ([c], rest)
    let (more, rest) ← readQuoted double steps rest
    return (text ++ more, rest)

/-- The text of a quoted scalar behind its opening quote, and what follows it. -/
def quotedScalar (double : Bool) (cs : List Char) : Except Fault (String × List Char) :=
  (readQuoted double (cs.length + 1) cs).map fun (text, rest) => (String.ofList text, rest)

end LoanOrders.Yaml
