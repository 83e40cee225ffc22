import Station.Yaml.Token.Scalar
import Station.Yaml.Token.Tag

/-!
# Reading tokens

The layout of a text decides where block collections start and end. A node that may turn out to be
the key of a mapping is remembered as a candidate. Once its colon is read, the token that marks the
key is put in front of it, and so is the start of the mapping if the key opens one.

A candidate has to stand on one line with its colon and at most 1024 bytes in front of it.
Where the layout leaves no other choice than a key, a candidate without a colon is a problem.
-/

namespace Station.Yaml

/-- A node that may be a key. -/
structure KeyCandidate where
  /-- Whether the layout admits nothing but a key. -/
  required : Bool
  /-- The number of tokens in front of it. -/
  position : Nat
  /-- Where it starts. -/
  index : Nat
  /-- The line on which it starts. -/
  line : Nat
  /-- The column in which it starts. -/
  column : Nat
  deriving Repr, Inhabited

/-- What was read of a text. -/
structure Scanner where
  /-- The position in the text. -/
  cursor : Cursor
  /-- The tokens, last first. -/
  tokens : List Token := []
  /-- The number of tokens. -/
  count : Nat := 0
  /-- The candidate of the block level. -/
  blockKey : Option KeyCandidate := none
  /-- The candidates of the open brackets, innermost first. -/
  flowKeys : List (Option KeyCandidate) := []
  /-- The column of the innermost block collection; none at the top. -/
  indent : Option Nat := none
  /-- The columns of the block collections around it. -/
  indents : List (Option Nat) := []
  /-- Whether a key may start here. -/
  keyAllowed : Bool := true
  deriving Inhabited

namespace Scanner

/-- Whether a bracket is open. -/
def inFlow (s : Scanner) : Bool := !s.flowKeys.isEmpty

/-- Adds a token. -/
def emit (s : Scanner) (token : Token) : Scanner :=
  { s with tokens := token :: s.tokens, count := s.count + 1 }

/-- Puts a token in front of later ones, at a position counted from the first token. -/
def emitAt (s : Scanner) (position : Nat) (token : Token) : Scanner :=
  let later := s.count - position
  { s with
    tokens := s.tokens.take later ++ token :: s.tokens.drop later
    count := s.count + 1 }

/-- Whether a candidate can still get its colon. -/
def live (s : Scanner) (candidate : KeyCandidate) : Bool :=
  candidate.line == s.cursor.line && decide (s.cursor.index ≤ candidate.index + 1024)

/-- The candidate of the innermost level. -/
def candidate? (s : Scanner) : Option KeyCandidate :=
  match s.flowKeys with
  | [] => s.blockKey
  | candidate :: _ => candidate

/-- Sets the candidate of the innermost level. -/
def setCandidate (s : Scanner) (candidate : Option KeyCandidate) : Scanner :=
  match s.flowKeys with
  | [] => { s with blockKey := candidate }
  | _ :: outer => { s with flowKeys := candidate :: outer }

/-- Finds a required key that can no longer get its colon. -/
def checkStale (s : Scanner) : Except Problem Scanner :=
  match s.blockKey with
  | none => .ok s
  | some candidate =>
    if s.live candidate then .ok s
    else if candidate.required then .error .unfinishedKey
    else .ok { s with blockKey := none }

/-- Gives up the candidate of the innermost level, which must not be a required one. -/
def dropCandidate (s : Scanner) : Except Problem Scanner :=
  if s.candidate?.any (·.required) then .error .unfinishedKey else .ok (s.setCandidate none)

/-- Remembers what starts here as a candidate, if a key may start here. -/
def saveCandidate (s : Scanner) : Except Problem Scanner :=
  if !s.keyAllowed then .ok s
  else do
    let s ← s.dropCandidate
    let candidate : KeyCandidate :=
      { required := !s.inFlow && s.indent == some s.cursor.column
        position := s.count
        index := s.cursor.index
        line := s.cursor.line
        column := s.cursor.column }
    return s.setCandidate (some candidate)

/-- Opens a block collection at a column that is deeper than the one around it. -/
def openBlock (s : Scanner) (column position : Nat) (token : Token) : Scanner :=
  if s.inFlow || !s.indent.all (· < column) then s
  else
    { s with indents := s.indent :: s.indents, indent := some column }.emitAt position token

/-- Closes the block collections that are deeper than a column; without a column, all of them. -/
def closeBlocks (s : Scanner) (column : Option Nat) : Scanner :=
  if s.inFlow then s else close s.indents s
where
  /-- Closes collections as long as the innermost one is deeper. -/
  close (outer : List (Option Nat)) (s : Scanner) : Scanner :=
    if !s.indent.any fun indent => column.all (· < indent) then s
    else
      match outer with
      | [] => s
      | indent :: outer => close outer ({ s with indent, indents := outer }.emit .blockEnd)

/-- Reads gaps, comments and line ends in front of the next token. A byte order mark may start a
line. Tabs are gaps only where no key may start. -/
def skipToToken : Nat → Scanner → Scanner
  | 0, s => s
  | fuel + 1, s =>
    let c := if s.cursor.column == 0 && s.cursor.sees '\ufeff' then s.cursor.skip else s.cursor
    let tabs := s.inFlow || !s.keyAllowed
    let (_, c) := c.span fun ch => ch == ' ' || (tabs && ch == '\t')
    let (_, c) := if c.sees '#' then c.span (fun ch => !isBreak ch) else ([], c)
    if c.seesBreak then
      skipToToken fuel { s with cursor := c.lineEnd.2, keyAllowed := s.keyAllowed || !s.inFlow }
    else { s with cursor := c }

/-- Reads an indicator of one character. -/
def indicator (s : Scanner) (token : Token) : Scanner :=
  { s with cursor := s.cursor.skip }.emit token

/-- Leaves every block, as the start or the end of a document does. -/
def leaveBlocks (s : Scanner) : Except Problem Scanner := do
  let s ← (s.closeBlocks none).dropCandidate
  return { s with keyAllowed := false }

/-- Reads an opening bracket. -/
def openFlow (s : Scanner) (token : Token) : Except Problem Scanner := do
  let s ← s.saveCandidate
  return { s with flowKeys := none :: s.flowKeys, keyAllowed := true }.indicator token

/-- Reads a closing bracket. -/
def closeFlow (s : Scanner) (token : Token) : Except Problem Scanner := do
  let s ← s.dropCandidate
  return { s with flowKeys := s.flowKeys.drop 1, keyAllowed := false }.indicator token

/-- Reads a comma. -/
def flowEntry (s : Scanner) : Except Problem Scanner := do
  let s ← s.dropCandidate
  return { s with keyAllowed := true }.indicator .flowEntry

/-- Opens a block collection here, where one may start. -/
def openBlockHere (s : Scanner) (token : Token) : Except Problem Scanner :=
  if s.inFlow then .ok s
  else if !s.keyAllowed then .error .misplaced
  else .ok (s.openBlock s.cursor.column s.count token)

/-- Reads the dash of a block entry. -/
def blockEntry (s : Scanner) : Except Problem Scanner := do
  let s ← s.openBlockHere .blockSequenceStart
  let s ← s.dropCandidate
  return { s with keyAllowed := true }.indicator .blockEntry

/-- Reads the question mark of a key. -/
def explicitKey (s : Scanner) : Except Problem Scanner := do
  let s ← s.openBlockHere .blockMappingStart
  let s ← s.dropCandidate
  return { s with keyAllowed := !s.inFlow }.indicator .key

/-- Reads the colon in front of a value. -/
def keyValue (s : Scanner) : Except Problem Scanner := do
  match s.candidate?.filter s.live with
  | some candidate =>
    let s := s.emitAt candidate.position .key
    let s := s.openBlock candidate.column candidate.position .blockMappingStart
    return { s.setCandidate none with keyAllowed := false }.indicator .value
  | none =>
    let s ← s.openBlockHere .blockMappingStart
    return { s with keyAllowed := !s.inFlow }.indicator .value

/-- Reads something that may be a key. -/
def content (s : Scanner) (read : Cursor → Except Problem (Token × Cursor)) :
    Except Problem Scanner := do
  let s ← s.saveCandidate
  let (token, cursor) ← read s.cursor
  return { s with cursor, keyAllowed := false }.emit token

/-- Reads a plain scalar. A key may start behind it if it ended with a line. -/
def plainScalar (s : Scanner) : Except Problem Scanner := do
  let s ← s.saveCandidate
  let (text, broken, cursor) ← scanPlain s.inFlow (s.indent.elim 0 (· + 1)) s.cursor
  return { s with cursor, keyAllowed := broken }.emit (.scalar text .plain)

/-- Reads a block scalar. -/
def blockScalar (s : Scanner) (literal : Bool) : Except Problem Scanner := do
  let s ← s.dropCandidate
  let (text, cursor) ← scanBlock literal s.indent s.cursor
  let style := if literal then ScalarStyle.literal else .folded
  return { s with cursor, keyAllowed := true }.emit (.scalar text style)

/-- Reads a directive. -/
def directive (s : Scanner) : Except Problem Scanner := do
  let s ← s.leaveBlocks
  let (token, cursor) ← scanDirective s.cursor
  return { s with cursor }.emit token

/-- Reads a mark that starts or ends a document. -/
def documentMark (s : Scanner) (token : Token) : Except Problem Scanner := do
  let s ← s.leaveBlocks
  return { s with cursor := s.cursor.advance 3 }.emit token

/-- Ends the text, on a line of its own. -/
def finish (s : Scanner) : Except Problem Scanner := do
  let c := s.cursor
  let c := if c.column == 0 then c else { c with column := 0, line := c.line + 1 }
  let s ← { s with cursor := c }.leaveBlocks
  return s.emit .streamEnd

/-- Whether a plain scalar starts with a character; `blockWord` says that outside brackets another
character of a word follows. -/
def startsPlain (s : Scanner) (ch : Char) : Bool :=
  !(isGap ch || isBreak ch || "-?:,[]{}#&*!|>'\"%@\x60".toList.contains ch) ||
    (ch == '-' && !(s.cursor.peekAt? 1).any isGap) ||
    (!s.inFlow && (ch == '?' || ch == ':') && !s.cursor.seesWordEndAt 1)

/-- Reads the next token, which starts with the given character. -/
def token (s : Scanner) (ch : Char) : Except Problem Scanner :=
  let c := s.cursor
  if c.column == 0 && ch == '%' then s.directive
  else if c.seesMark '-' then s.documentMark .documentStart
  else if c.seesMark '.' then s.documentMark .documentEnd
  else if ch == '[' then s.openFlow .flowSequenceStart
  else if ch == '{' then s.openFlow .flowMappingStart
  else if ch == ']' then s.closeFlow .flowSequenceEnd
  else if ch == '}' then s.closeFlow .flowMappingEnd
  else if ch == ',' then s.flowEntry
  else if ch == '-' && c.seesWordEndAt 1 then s.blockEntry
  else if ch == '?' && (s.inFlow || c.seesWordEndAt 1) then s.explicitKey
  else if ch == ':' && (s.inFlow || c.seesWordEndAt 1) then s.keyValue
  else if ch == '*' then s.content fun c => do
    let (name, c) ← scanAnchor c
    return (.alias name, c)
  else if ch == '&' then s.content fun c => do
    let (name, c) ← scanAnchor c
    return (.anchor name, c)
  else if ch == '!' then s.content (scanTag s.inFlow)
  else if ch == '|' && !s.inFlow then s.blockScalar true
  else if ch == '>' && !s.inFlow then s.blockScalar false
  else if ch == '\'' || ch == '"' then s.content fun c => do
    let (text, c) ← scanQuoted ch c
    return (.scalar text .quoted, c)
  else if s.startsPlain ch then s.plainScalar
  else .error .noToken

/-- Reads what is left of a text. Every round but the last reads at least one character. -/
def run : Nat → Scanner → Except Problem Scanner
  | 0, s => .ok s
  | fuel + 1, s => do
    let s := s.skipToToken (s.cursor.size + 1)
    let s ← s.checkStale
    let s := s.closeBlocks (some s.cursor.column)
    match s.cursor.peek? with
    | none => s.finish
    | some ch =>
      let s ← s.token ch
      run fuel s

end Scanner

/-- Reads the tokens of a text. -/
def tokensOf (text : String) : Except Problem (List Token) := do
  let characters := text.toList
  if !characters.all isAllowed then throw .forbiddenCharacter
  let cursor : Cursor := { rest := characters, size := characters.length }
  let s ← Scanner.run (characters.length + 1) { cursor }
  return s.tokens.reverse

end Station.Yaml
