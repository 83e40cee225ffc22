import Station.Yaml.Problem

/-!
# Reading positions

Classes of characters, and a position in a text: what is left of it, how many bytes were read, and
the line and the column reached. Lines and columns decide the layout of a YAML text; bytes limit the
length of a key.
-/

namespace Station.Yaml

/-- Characters that may stand in a YAML text at all. -/
def isAllowed (c : Char) : Bool :=
  let n := c.toNat
  n == 0x09 || n == 0x0A || n == 0x0D || (0x20 ≤ n && n ≤ 0x7E) || n == 0x85 ||
    (0xA0 ≤ n && n ≤ 0xD7FF) || (0xE000 ≤ n && n ≤ 0xFFFD) || 0x10000 ≤ n

/-- Characters that end a line. -/
def isBreak (c : Char) : Bool :=
  c == '\n' || c == '\r' || c == '\u0085' || c == '\u2028' || c == '\u2029'

/-- A space or a tab. -/
def isGap (c : Char) : Bool := c == ' ' || c == '\t'

/-- Characters of the names of anchors, directives and tag handles. -/
def isWord (c : Char) : Bool := c.isAlphanum || c == '_' || c == '-'

/-- The number of bytes of characters in UTF-8. -/
def byteCount (characters : List Char) : Nat :=
  characters.foldr (fun c count => c.utf8Size + count) 0

/-- A position in a text. -/
structure Cursor where
  /-- What is left of the text. -/
  rest : List Char
  /-- How many characters the whole text has, which bounds every loop over what is left. -/
  size : Nat
  /-- How many bytes were read. -/
  index : Nat := 0
  /-- How many lines were ended. -/
  line : Nat := 0
  /-- How many characters of the line were read. -/
  column : Nat := 0
  deriving Repr, Inhabited

namespace Cursor

/-- The next character. -/
def peek? (c : Cursor) : Option Char := c.rest.head?

/-- The character after a number of others. -/
def peekAt? (c : Cursor) (n : Nat) : Option Char := c.rest[n]?

/-- Whether the next character is a certain one. -/
def sees (c : Cursor) (expected : Char) : Bool := c.peek? == some expected

/-- Whether the next character is a space or a tab. -/
def seesGap (c : Cursor) : Bool := c.peek?.any isGap

/-- Whether the next character ends a line. -/
def seesBreak (c : Cursor) : Bool := c.peek?.any isBreak

/-- Whether the text or the line ends after a number of characters. -/
def seesLineEndAt (c : Cursor) (n : Nat) : Bool := (c.peekAt? n).all isBreak

/-- Whether a word ends after a number of characters: at a gap, a line end or the end of the text.
-/
def seesWordEndAt (c : Cursor) (n : Nat) : Bool :=
  (c.peekAt? n).all fun ch => isGap ch || isBreak ch

/-- Reads a number of characters of the line. -/
def advance (c : Cursor) (n : Nat) : Cursor :=
  { c with
    rest := c.rest.drop n
    index := c.index + byteCount (c.rest.take n)
    column := c.column + n }

/-- Reads one character of the line. -/
def skip (c : Cursor) : Cursor := c.advance 1

/-- Reads the characters of the line that satisfy a test. -/
def span (c : Cursor) (test : Char → Bool) : List Char × Cursor :=
  let taken := c.rest.takeWhile test
  (taken, c.advance taken.length)

/-- Reads the end of a line and returns its text: a line feed, but for the two separators that stand
for themselves. A carriage return and a line feed are one end. -/
def lineEnd (c : Cursor) : List Char × Cursor :=
  match c.rest with
  | '\r' :: '\n' :: rest =>
    (['\n'], { c with rest, index := c.index + 2, line := c.line + 1, column := 0 })
  | ch :: rest =>
    if isBreak ch then
      (if ch == '\u2028' || ch == '\u2029' then [ch] else ['\n'],
        { c with rest, index := c.index + ch.utf8Size, line := c.line + 1, column := 0 })
    else ([], c)
  | [] => ([], c)

/-- Whether the line starts with the mark that ends or starts a document. -/
def seesMark (c : Cursor) (mark : Char) : Bool :=
  c.column == 0 && c.rest.take 3 == [mark, mark, mark] && c.seesWordEndAt 3

/-- Whether a document starts or ends here. -/
def seesDocumentMark (c : Cursor) : Bool := c.seesMark '-' || c.seesMark '.'

/-- Reads gaps and a comment up to the end of the line; something else there is a problem. -/
def finishLine (c : Cursor) (problem : Problem) : Except Problem Cursor :=
  let (_, c) := c.span isGap
  let (_, c) := if c.sees '#' then c.span (fun ch => !isBreak ch) else ([], c)
  if c.seesLineEndAt 0 then .ok c.lineEnd.2 else .error problem

theorem length_skip {c : Cursor} {ch : Char} (h : c.peek? = some ch) :
    c.skip.rest.length < c.rest.length := by
  cases hrest : c.rest with
  | nil => simp [peek?, hrest] at h
  | cons head tail => simp [skip, advance, hrest]

theorem length_lineEnd {c : Cursor} {ch : Char} (h : c.peek? = some ch) (hbreak : isBreak ch) :
    c.lineEnd.2.rest.length < c.rest.length := by
  unfold lineEnd
  split
  · rename_i hrest
    simp only [hrest, List.length_cons]
    omega
  · rename_i head tail _ hrest
    simp only [peek?, hrest, List.head?_cons, Option.some.injEq] at h
    simp [h, hbreak, hrest]
  · rename_i hrest
    simp [peek?, hrest] at h

end Cursor

end Station.Yaml
