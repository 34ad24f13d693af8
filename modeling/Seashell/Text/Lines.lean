import Seashell.Text.Basic

set_option autoImplicit false

/-! # Lines

Script text is cut into physical lines; a line is an indentation and a body (`splitIndent`). There
are two ways to cut: a text in memory is split at its terminators (`splitLines`), and a file is read
line by line, where each line keeps a line feed in place of its terminator (`readLines`). A carriage
return terminates a line, as a line feed does, and the two together terminate one.

`applyIndent` puts an indentation back in front of every line of what has become of a body. -/

namespace Seashell.Text

/-- Turns carriage return, alone or before a line feed, into a line feed. -/
def unixNewlines : Text → Text
  | [] => []
  | '\r' :: '\n' :: s => '\n' :: unixNewlines s
  | c :: s => (if c = '\r' then '\n' else c) :: unixNewlines s

/-- Drops each carriage return that stands before a line feed; those that remain terminate lines by
    themselves. -/
def joinReturns : Text → Text
  | [] => []
  | '\r' :: '\n' :: s => '\n' :: joinReturns s
  | c :: s => c :: joinReturns s

/-- The physical lines of `s`. A terminator at the end opens no further line. -/
def splitLines (s : Text) : List Text :=
  let lines := List.splitOn '\n' ((joinReturns s).map fun c => if c = '\r' then '\n' else c)
  if lines.getLast? = some [] then lines.dropLast else lines

/-- The lines of a file that holds the text, in the order in which they are read. Each ends with a
    line feed, but for a last one without a terminator. -/
def readLines : Text → List Text
  | [] => []
  | '\r' :: '\n' :: s => ['\n'] :: readLines s
  | c :: s =>
    if c = '\r' ∨ c = '\n' then ['\n'] :: readLines s
    else match readLines s with
      | [] => [[c]]
      | line :: lines => (c :: line) :: lines

/-- The indentation of `line` and its body. -/
def splitIndent (line : Text) : Text × Text := (blanks line, trimStart line)

/-- Every line of `s`, with `indent` in front. -/
def applyIndent (indent s : Text) : List Text := (List.splitOn '\n' s).map (indent ++ ·)

end Seashell.Text
