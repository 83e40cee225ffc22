import Station.Text.Hex
import Station.Yaml.Cursor

/-!
# Scalars

Reading plain, quoted and block scalars. Plain and quoted scalars may run over several lines: what
stands between two words is a `Gap`, which folds a single line end into a space. A block scalar ends
where the indentation ends; its header says what happens to the line ends at its end.
-/

namespace Station.Yaml

/-! ## Gaps -/

/-- What stands between two words of a scalar. -/
structure Gap where
  /-- The gap characters, as long as no line has ended; last first. -/
  blanks : List Char := []
  /-- The text of the first line end. -/
  firstEnd : List Char := []
  /-- The texts of the later line ends, joined; last first. -/
  moreEnds : List Char := []
  /-- Whether a line has ended. -/
  broken : Bool := false
  deriving Repr, Inhabited

/-- What a gap stands for: itself within a line, a space for a single line end, and otherwise the
line ends after the first one. A first line end that is a separator stays. -/
def Gap.text (gap : Gap) : List Char :=
  if !gap.broken then gap.blanks.reverse
  else if gap.firstEnd == ['\n'] then if gap.moreEnds.isEmpty then [' '] else gap.moreEnds.reverse
  else gap.firstEnd ++ gap.moreEnds.reverse

/-- Reads a gap. Below the column `margin`, no tab may stand at the start of a line. -/
def Gap.scan (margin : Nat) (gap : Gap) (c : Cursor) : Except Problem (Gap × Cursor) :=
  match _peeked : c.peek? with
  | none => .ok (gap, c)
  | some ch =>
    if isGap ch then
      if gap.broken then
        if c.column < margin && ch == '\t' then .error .misplaced
        else Gap.scan margin gap c.skip
      else Gap.scan margin { gap with blanks := ch :: gap.blanks } c.skip
    else if _ends : isBreak ch then
      let text := c.lineEnd.1
      if gap.broken then Gap.scan margin { gap with moreEnds := text ++ gap.moreEnds } c.lineEnd.2
      else Gap.scan margin { firstEnd := text, broken := true } c.lineEnd.2
    else .ok (gap, c)
  termination_by c.rest.length
  decreasing_by
    · exact Cursor.length_skip (by assumption)
    · exact Cursor.length_skip (by assumption)
    · exact Cursor.length_lineEnd (by assumption) (by assumption)
    · exact Cursor.length_lineEnd (by assumption) (by assumption)

/-! ## Plain scalars -/

/-- Characters that end a plain scalar inside brackets. -/
def isFlowIndicator (c : Char) : Bool :=
  c == ',' || c == '[' || c == ']' || c == '{' || c == '}'

/-- Reads the characters of a plain scalar up to a gap, a line end, a colon that ends a key or,
inside brackets, an indicator. Inside brackets a colon right in front of an indicator is a problem.
The characters are returned last first. -/
def plainRun (inFlow : Bool) (read : List Char) (c : Cursor) :
    Except Problem (List Char × Cursor) :=
  match _peeked : c.peek? with
  | none => .ok (read, c)
  | some ch =>
    if isGap ch || isBreak ch then .ok (read, c)
    else if inFlow && ch == ':' && (c.peekAt? 1).any (fun n => isFlowIndicator n || n == '?') then
      .error .misplaced
    else if (ch == ':' && c.seesWordEndAt 1) || (inFlow && isFlowIndicator ch) then .ok (read, c)
    else plainRun inFlow (ch :: read) c.skip
  termination_by c.rest.length
  decreasing_by exact Cursor.length_skip (by assumption)

/-- Reads the rest of a plain scalar: words with gaps between them. `gap` is the gap in front of the
next word. Outside brackets, a line below the column `margin` ends the scalar. Returns the
characters, last first, whether the last gap had a line end, and the position after that gap. -/
def plainWords (inFlow : Bool) (margin : Nat) :
    Nat → List Char → Gap → Cursor → Except Problem (List Char × Bool × Cursor)
  | 0, read, gap, c => .ok (read, gap.broken, c)
  | fuel + 1, read, gap, c => do
    if c.seesDocumentMark || c.sees '#' then return (read, gap.broken, c)
    let (word, c) ← plainRun inFlow [] c
    let (read, gap) :=
      if word.isEmpty then (read, gap) else (word ++ (gap.text.reverse ++ read), ({} : Gap))
    if !(c.seesGap || c.seesBreak) then return (read, gap.broken, c)
    let (gap, c) ← Gap.scan margin gap c
    if !inFlow && decide (c.column < margin) then return (read, gap.broken, c)
    plainWords inFlow margin fuel read gap c

/-- Reads a plain scalar. Also says whether a line has ended after its last word. -/
def scanPlain (inFlow : Bool) (margin : Nat) (c : Cursor) :
    Except Problem (String × Bool × Cursor) := do
  let (read, broken, c) ← plainWords inFlow margin (c.size + 1) [] {} c
  return (String.ofList read.reverse, broken, c)

/-! ## Quoted scalars -/

/-- What a backslash and one more character stand for. -/
def escape? : Char → Option Char
  | '0' => some '\x00'
  | 'a' => some '\x07'
  | 'b' => some '\x08'
  | 't' | '\t' => some '\t'
  | 'n' => some '\n'
  | 'v' => some '\x0b'
  | 'f' => some '\x0c'
  | 'r' => some '\r'
  | 'e' => some '\x1b'
  | ' ' => some ' '
  | '"' => some '"'
  | '/' => some '/'
  | '\\' => some '\\'
  | 'N' => some '\u0085'
  | '_' => some '\u00a0'
  | 'L' => some '\u2028'
  | 'P' => some '\u2029'
  | _ => none

/-- The number of hexadecimal digits after a backslash and one more character. -/
def escapeDigits? : Char → Option Nat
  | 'x' => some 2
  | 'u' => some 4
  | 'U' => some 8
  | _ => none

/-- The character of a code point, which is no half of a pair. -/
def characterOf? (n : Nat) : Option Char :=
  if (0xD800 ≤ n && n ≤ 0xDFFF) || 0x10FFFF < n then none else some (Char.ofNat n)

/-- Reads a backslash sequence that stands for one character. -/
def scanEscape (c : Cursor) : Except Problem (Char × Cursor) :=
  match c.peekAt? 1 with
  | none => .error .badEscape
  | some ch =>
    match escape? ch, escapeDigits? ch with
    | some character, _ => .ok (character, c.advance 2)
    | none, some count =>
      let digits := (c.rest.drop 2).take count
      match (Text.hexNumber? digits).bind characterOf? with
      | some character =>
        if digits.length = count then .ok (character, c.advance (2 + count)) else .error .badEscape
      | none => .error .badEscape
    | none, none => .error .badEscape

/-- Reads the characters of a quoted scalar up to a gap, a line end or the closing quote, and says
whether an escaped line end was the last thing read. The characters are returned last first. -/
def quotedRun (quote : Char) :
    Nat → List Char → Cursor → Except Problem (List Char × Bool × Cursor)
  | 0, read, c => .ok (read, false, c)
  | fuel + 1, read, c =>
    match c.peek? with
    | none => .ok (read, false, c)
    | some ch =>
      if isGap ch || isBreak ch then .ok (read, false, c)
      else if quote == '\'' && ch == '\'' && c.peekAt? 1 == some '\'' then
        quotedRun quote fuel ('\'' :: read) (c.advance 2)
      else if ch == quote then .ok (read, false, c)
      else if quote == '"' && ch == '\\' then
        if (c.peekAt? 1).any isBreak then .ok (read, true, c.skip.lineEnd.2)
        else do
          let (character, c) ← scanEscape c
          quotedRun quote fuel (character :: read) c
      else quotedRun quote fuel (ch :: read) c.skip

/-- Reads the rest of a quoted scalar, up to and with the closing quote. -/
def quotedWords (quote : Char) :
    Nat → List Char → Cursor → Except Problem (List Char × Cursor)
  | 0, _, _ => .error .unclosedQuote
  | fuel + 1, read, c => do
    if c.seesDocumentMark then throw .unclosedQuote
    if c.peek?.isNone then throw .unclosedQuote
    let (read, escaped, c) ← quotedRun quote (c.size + 1) read c
    if c.sees quote then return (read, c.skip)
    let (gap, c) ← Gap.scan 0 { broken := escaped } c
    quotedWords quote fuel (gap.text.reverse ++ read) c

/-- Reads a quoted scalar from its opening quote on. -/
def scanQuoted (quote : Char) (c : Cursor) : Except Problem (String × Cursor) := do
  let (read, c) ← quotedWords quote (c.size + 1) [] c.skip
  return (String.ofList read.reverse, c)

/-! ## Block scalars -/

/-- What happens to the line ends at the end of a block scalar. -/
inductive Chomping where
  /-- They are dropped. -/
  | strip
  /-- The first one stays. -/
  | clip
  /-- They stay. -/
  | keep
  deriving DecidableEq, Repr, Inhabited

/-- Reads a chomping indicator. -/
def scanChomping (c : Cursor) : Option (Chomping × Cursor) :=
  if c.sees '+' then some (.keep, c.skip)
  else if c.sees '-' then some (.strip, c.skip)
  else none

/-- Reads an indentation indicator, which is a digit from one to nine. -/
def scanIndentation (c : Cursor) : Except Problem (Option Nat × Cursor) :=
  match c.peek? with
  | some ch =>
    if ch == '0' then .error .badBlockHeader
    else if ch.isDigit then .ok (some (ch.toNat - '0'.toNat), c.skip)
    else .ok (none, c)
  | none => .ok (none, c)

/-- Reads the indicators of a block scalar, which stand in either order. -/
def scanBlockHeader (c : Cursor) : Except Problem (Chomping × Option Nat × Cursor) := do
  match scanChomping c with
  | some (chomping, c) =>
    let (increment, c) ← scanIndentation c
    return (chomping, increment, c)
  | none =>
    let (increment, c) ← scanIndentation c
    match increment, scanChomping c with
    | some _, some (chomping, c) => return (chomping, increment, c)
    | _, _ => return (.clip, increment, c)

/-- Reads indentation and empty lines. `indent` is the indentation, if it is known; the widest one
seen is `widest`. Returns the line ends, last first, the widest indentation and the position in
front of the next line that is not empty. -/
def blockBreaks (indent : Option Nat) (widest : Nat) (ends : List Char) (c : Cursor) :
    Except Problem (List Char × Nat × Cursor) :=
  match _peeked : c.peek? with
  | none => .ok (ends, max widest c.column, c)
  | some ch =>
    let inside := indent.all (c.column < ·)
    if inside && ch == ' ' then blockBreaks indent widest ends c.skip
    else if inside && ch == '\t' then .error .misplaced
    else if _ends : isBreak ch then
      blockBreaks indent (max widest c.column) (c.lineEnd.1 ++ ends) c.lineEnd.2
    else .ok (ends, max widest c.column, c)
  termination_by c.rest.length
  decreasing_by
    · exact Cursor.length_skip (by assumption)
    · exact Cursor.length_lineEnd (by assumption) (by assumption)

/-- The text read of a block scalar and what is still open. -/
structure BlockText where
  /-- The characters read, last first. -/
  read : List Char := []
  /-- The end of the last line. -/
  lastEnd : List Char := []
  /-- The line ends after it, last first. -/
  moreEnds : List Char := []
  /-- Whether the last line started with a gap character. -/
  ledByGap : Bool := false
  deriving Repr, Inhabited

/-- The text, last first, with the open line ends put in front of another line. Between two lines
that do not start with a gap character, a folded scalar turns a single line end into a space. -/
def BlockText.join (literal startsWithGap : Bool) (t : BlockText) : List Char :=
  let fold := !literal && t.lastEnd == ['\n'] && !t.ledByGap && !startsWithGap
  let between :=
    if fold then if t.moreEnds.isEmpty then [' '] else t.moreEnds
    else t.moreEnds ++ t.lastEnd
  between ++ t.read

/-- Reads the lines of a block scalar that have its indentation. -/
def blockLines (literal : Bool) (indent : Nat) :
    Nat → BlockText → Cursor → Except Problem (BlockText × Cursor)
  | 0, t, c => .ok (t, c)
  | fuel + 1, t, c =>
    if c.column != indent || c.peek?.isNone then .ok (t, c)
    else do
      let joined := t.join literal c.seesGap
      let (line, after) := c.span fun ch => !isBreak ch
      let (lastEnd, after) := after.lineEnd
      let (moreEnds, _, next) ← blockBreaks (some indent) 0 [] after
      let t : BlockText :=
        { read := line.reverse ++ joined, lastEnd, moreEnds, ledByGap := c.seesGap }
      blockLines literal indent fuel t next

/-- Reads a block scalar from its indicator on. `indent` is the indentation of the block around it,
none at the top. -/
def scanBlock (literal : Bool) (indent : Option Nat) (c : Cursor) :
    Except Problem (String × Cursor) := do
  let (chomping, increment, c) ← scanBlockHeader c.skip
  let c ← c.finishLine .badBlockHeader
  let known := increment.map (indent.getD 0 + ·)
  let (moreEnds, widest, c) ← blockBreaks known 0 [] c
  let width := known.getD (max widest (max (indent.elim 0 (· + 1)) 1))
  let (t, c) ← blockLines literal width (c.size + 1) { moreEnds } c
  let tail :=
    match chomping with
    | .strip => []
    | .clip => t.lastEnd
    | .keep => t.lastEnd ++ t.moreEnds.reverse
  return (String.ofList (t.read.reverse ++ tail), c)

end Station.Yaml
