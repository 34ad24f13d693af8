import Seashell.Text.Scan

set_option autoImplicit false

/-! # Command substitutions

The older spelling of a command substitution puts the command between backticks; the newer one is
`$(command)`. A backtick opens a substitution if a command of at least one character and a second
backtick follow it (`backtick?`); otherwise it is an ordinary character.

`pieces` cuts a text into substitutions and other characters, from left to right. `modernize` puts
the newer spelling in the place of each substitution and is applied to every line before the rules
see it, and `commands` lists what is between the backticks, which a report counts. -/

namespace Seashell.Substitution

open Text

/-- A substitution in backticks at the start of a text: its command, and what follows it. -/
def backtick? : Text → Option (Text × Text)
  | '`' :: s => (upTo? '`' s).filter (!·.1.isEmpty)
  | _ => none

theorem length_lt_of_backtick? {s command rest : Text}
    (h : backtick? s = some (command, rest)) : rest.length < s.length := by
  unfold backtick? at h
  split at h
  · have := length_lt_of_upTo? (Option.filter_eq_some_iff.1 h).1
    simp only [List.length_cons]
    omega
  · simp at h

/-- A piece of text: a substitution in backticks, or one character outside of them. -/
inductive Piece where
  | command (c : Text)
  | plain (c : Char)
deriving Repr, DecidableEq

/-- The text as substitutions (`backtick?`) and other characters, from left to right. -/
def pieces (s : Text) : List Piece :=
  match s with
  | [] => []
  | c :: cs =>
    match _h : backtick? (c :: cs) with
    | some (command, rest) => .command command :: pieces rest
    | none => .plain c :: pieces cs
termination_by s.length
decreasing_by
  · exact length_lt_of_backtick? _h
  · simp

/-- A `Piece` in the newer spelling. -/
def Piece.modern : Piece → Text
  | .command c => "$(" ++ c ++ ")"
  | .plain c => [c]

/-- The text `s` with every substitution in the newer spelling. -/
def modernize (s : Text) : Text := (pieces s).flatMap Piece.modern

/-- The commands of the substitutions among the `pieces` of `s`, from left to right. -/
def commands (s : Text) : List Text :=
  (pieces s).filterMap fun
    | .command c => some c
    | .plain _ => none

end Seashell.Substitution
