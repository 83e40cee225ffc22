/-!
# Lines

A line ends with a line feed, or with a carriage return and a line feed. What follows the last line
feed is a line only if it is not empty.
-/

namespace Station.Text

/-- A line without the carriage return at its end. -/
def dropReturn (line : List Char) : List Char :=
  if line.getLast? = some '\r' then line.dropLast else line

/-- The lines of characters. -/
def linesOf (text : List Char) : List (List Char) :=
  if text.isEmpty then []
  else
    let line := text.takeWhile (· != '\n')
    let after := text.drop line.length
    if after.isEmpty then [line] else dropReturn line :: linesOf (after.drop 1)
  termination_by text.length
  decreasing_by
    rename_i present _
    have := List.length_pos_iff.2 (fun h => present (List.isEmpty_iff.2 h))
    simp only [List.length_drop]
    omega

/-- The lines of a text. -/
def lines (text : String) : List (List Char) := linesOf text.toList

end Station.Text
