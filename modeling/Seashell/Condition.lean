import Seashell.Text.Scan

set_option autoImplicit false

/-! # Conditions

A condition of the C shell becomes the inside of a test `[ ... ]`. The conversion is textual: each
comparison of two operands is replaced where it stands, and the operand of a file test is quoted;
everything else, the connectives `&&` and `||` among it, is kept as it is.

`comparison?` reads a comparison at the start of a text: an `operand?`, a `relation?` and another
operand, with blanks between them. `testComparisons` goes through a text from left to right and puts
`Comparison.test` in the place of each one that it finds; where there is none it moves on by one
character. `quoteFileTests` goes through it once more, for file tests, which only begin where a
token does. `isCompound` says that a condition is one of those whose meaning this may change. -/

namespace Seashell.Condition

open Text

/-! ## Relations -/

/-- The relations that a `Comparison` can state. -/
inductive Relation where
  | eq | ne | lt | gt | le | ge
deriving Repr, DecidableEq

/-- The spelling of a relation in a C shell condition. -/
def Relation.symbol : Relation → Text
  | .eq => "=="
  | .ne => "!="
  | .lt => "<"
  | .gt => ">"
  | .le => "<="
  | .ge => ">="

/-- The spelling of a relation in a test. -/
def Relation.test : Relation → Text
  | .eq => "="
  | .ne => "!="
  | .lt => "-lt"
  | .gt => "-gt"
  | .le => "-le"
  | .ge => "-ge"

/-- All relations, each with its `symbol` and its `test`. -/
def Relation.all : List Relation := [.eq, .ne, .lt, .gt, .le, .ge]

/-- The relation at the start of a text, the longer `symbol` first. -/
def relation? : Text → Option (Relation × Text)
  | '=' :: '=' :: s => some (.eq, s)
  | '!' :: '=' :: s => some (.ne, s)
  | '<' :: '=' :: s => some (.le, s)
  | '>' :: '=' :: s => some (.ge, s)
  | '<' :: s => some (.lt, s)
  | '>' :: s => some (.gt, s)
  | _ => none

/-! ## Operands and comparisons -/

/-- A character of an operand without quotes: no blank, no quote, and none that a relation or
    connective is made of. -/
def isOperandChar (c : Char) : Bool :=
  !isBlank c && !("<>=!()&|\"'".toList).contains c

/-- A substitution `$(command)` at the start of a text, and what follows it. -/
def substitution? : Text → Option (Text × Text)
  | '$' :: '(' :: s => (upTo? ')' s).map fun (inner, rest) => ("$(" ++ inner ++ ")", rest)
  | _ => none

/-- An operand at the start of a text: a text in quotes (`quoted?`), a `substitution?` or a bare
    word. -/
def operand? (s : Text) : Option (Text × Text) :=
  (quoted? '"' s).or ((quoted? '\'' s).or ((substitution? s).or (run? isOperandChar s)))

/-- A comparison of two operands, as they are spelled. -/
structure Comparison where
  left : Text
  relation : Relation
  right : Text
deriving Repr, DecidableEq

/-- A comparison at the start of a text, and what follows it: two of `operand?` with a `relation?`
    between them. -/
def comparison? (s : Text) : Option (Comparison × Text) := do
  let (left, s) ← operand? s
  let (relation, s) ← relation? (trimStart s)
  let (right, s) ← operand? (trimStart s)
  return (⟨left, relation, right⟩, s)

/-- The value `v` names a variable. A line feed may follow the name. -/
def namesVariable (v : Text) : Bool :=
  isName v || (v.getLast? == some '\n' && isName v.dropLast)

/-- The left operand in a test: quotes are renewed, and what `namesVariable` is dereferenced. -/
def leftOperand (operand : Text) : Text :=
  let v := unquote operand
  "\"" ++ (if namesVariable v then '$' :: v else v) ++ "\""

/-- The right operand in a test: quotes are renewed, and nothing is dereferenced. -/
def rightOperand (operand : Text) : Text := "\"" ++ unquote operand ++ "\""

/-- A comparison in the syntax of a test: `leftOperand`, the relation and `rightOperand`. -/
def Comparison.test (c : Comparison) : Text :=
  leftOperand c.left ++ " " ++ c.relation.test ++ " " ++ rightOperand c.right

/-! ## What a scanner leaves is shorter than what it read -/

theorem length_lt_of_substitution? {s t rest : Text} (h : substitution? s = some (t, rest)) :
    rest.length < s.length := by
  unfold substitution? at h
  split at h
  · obtain ⟨⟨a, r⟩, ha, hr⟩ := Option.map_eq_some_iff.1 h
    simp only [Prod.mk.injEq] at hr
    have := length_lt_of_upTo? (hr.2 ▸ ha)
    simp only [List.length_cons]
    omega
  · simp at h

theorem length_lt_of_operand? {s t rest : Text} (h : operand? s = some (t, rest)) :
    rest.length < s.length := by
  unfold operand? at h
  simp only [Option.or_eq_some_iff] at h
  rcases h with h | ⟨_, h | ⟨_, h | ⟨_, h⟩⟩⟩
  · exact length_lt_of_quoted? h
  · exact length_lt_of_quoted? h
  · exact length_lt_of_substitution? h
  · exact length_lt_of_run? h

theorem length_lt_of_relation? {s rest : Text} {r : Relation} (h : relation? s = some (r, rest)) :
    rest.length < s.length := by
  unfold relation? at h
  split at h <;> simp only [Option.some.injEq, Prod.mk.injEq, reduceCtorEq] at h
  all_goals
    obtain ⟨_, rfl⟩ := h
    simp only [List.length_cons]
    omega

theorem length_lt_of_comparison? {s rest : Text} {c : Comparison}
    (h : comparison? s = some (c, rest)) : rest.length < s.length := by
  simp only [comparison?, Option.bind_eq_bind, Option.pure_def, Option.bind_eq_some_iff,
    Option.some.injEq, Prod.mk.injEq] at h
  obtain ⟨⟨l, s₁⟩, hl, ⟨r, s₂⟩, hr, ⟨t, s₃⟩, ht, _, rfl⟩ := h
  have h₁ := length_lt_of_operand? hl
  have h₂ := length_lt_of_relation? hr
  have h₃ := length_lt_of_operand? ht
  have h₄ := length_trimStart_le s₁
  have h₅ := length_trimStart_le s₂
  dsimp only at h₂ h₃ ⊢
  omega

/-! ## Tests -/

/-- Replaces each comparison that `comparison?` finds by its test, from left to right. -/
def testComparisons (s : Text) : Text :=
  match s with
  | [] => []
  | c :: cs =>
    match _h : comparison? (c :: cs) with
    | some (comparison, rest) => comparison.test ++ testComparisons rest
    | none => c :: testComparisons cs
termination_by s.length
decreasing_by
  · exact length_lt_of_comparison? _h
  · simp

/-- The condition in the syntax of a test, by `testComparisons`. -/
def toTest (condition : Text) : Text := testComparisons (trim condition)

/-- The condition combines comparisons by `&&` or `||`. -/
def isCompound (condition : Text) : Bool := hasPart "&&" condition || hasPart "||" condition

/-! ## File tests -/

/-- A file test at the start of a text: its letter, its operand and what follows. The operand is
    the next word, unless it begins with a quote. -/
def fileTest? : Text → Option (Char × Text × Text)
  | '-' :: letter :: s =>
    match gap? s with
    | some (c :: cs) =>
      if letter.isAlpha && c != '"' && c != '\'' then
        some (letter, word (c :: cs), afterWord (c :: cs))
      else none
    | _ => none
  | _ => none

theorem length_lt_of_fileTest? {s operand rest : Text} {letter : Char}
    (h : fileTest? s = some (letter, operand, rest)) : rest.length < s.length := by
  unfold fileTest? at h
  split at h
  · split at h
    · rename_i c cs hgap
      split at h
      · simp only [Option.some.injEq, Prod.mk.injEq] at h
        obtain ⟨_, _, rfl⟩ := h
        have h₁ := length_dropWhile_le (fun c => !isBlank c) (c :: cs)
        have h₂ := length_le_of_gap? hgap
        unfold afterWord
        simp only [List.length_cons] at *
        omega
      · simp at h
    · simp at h
  · simp at h

/-- Quotes the operand of each file test. A test begins at the start of a token: `fresh` says that
    a blank, or nothing, stands before the text. -/
def quoteFrom (fresh : Bool) (s : Text) : Text :=
  match s with
  | [] => []
  | c :: cs =>
    match _h : (if fresh then fileTest? (c :: cs) else none) with
    | some (letter, operand, rest) =>
      ['-', letter, ' ', '"'] ++ operand ++ ['"'] ++ quoteFrom false rest
    | none => c :: quoteFrom (isBlank c) cs
termination_by s.length
decreasing_by
  · split at _h
    · exact length_lt_of_fileTest? _h
    · simp at _h
  · simp

/-- Quotes the operand of each `fileTest?` in a condition. -/
def quoteFileTests (condition : Text) : Text := quoteFrom true condition

end Seashell.Condition
