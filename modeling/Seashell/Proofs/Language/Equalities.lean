import Seashell.Proofs.Language.Lines

set_option autoImplicit false

/-! # Equalities in an `if` and in a loop

An `if` and a `while` read the same equality each in its own way. An `if` takes what it finds on the
left for a variable. A loop puts a dollar sign only before a name (`Condition.namesVariable`). The
tests that they write are the same, unless the left side is a word that starts with a digit and has
no dollar sign (`Operand.isNumeral`).

An `OperandEquality` is a text that both can read. `toTest_text` is the test that a loop writes for
it, and `test_read` the test of an `if`, both as `test` of a left side, so that the two are compared
by their left sides alone. `tests_agree_iff` says it of the lines that the rules convert, with
`Outcome.ofLine_of_select` for what is made of each, and `number_dereferenced` shows a number that
is tested in one way and in the other. -/

namespace Seashell

open Text

/-! ## Operands -/

/-- Of the characters of a name only a digit cannot start one: this is all by which `isNameStart`
    differs from `isNameChar`. -/
theorem Text.isNameStart_eq {c : Char} (h : isNameChar c = true) : isNameStart c = !c.isDigit := by
  cases hdigit : c.isDigit with
  | false => simpa [isNameChar, isNameStart, Char.isAlphanum, hdigit] using h
  | true =>
    cases hstart : isNameStart c with
    | false => rfl
    | true =>
      simp only [isNameStart, Bool.or_eq_true, beq_iff_eq] at hstart
      delta Char.isAlpha Char.isUpper Char.isLower at hstart
      delta Char.isDigit at hdigit
      simp only [ge_iff_le, UInt32.le_iff_toNat_le, Bool.or_eq_true, Bool.and_eq_true,
        decide_eq_true_eq] at hstart hdigit
      have h9 : '9'.val.toNat = 57 := rfl
      rcases hstart with (⟨hlow, _⟩ | ⟨hlow, _⟩) | rfl
      · have : 'A'.val.toNat = 65 := rfl
        omega
      · have : 'a'.val.toNat = 97 := rfl
        omega
      · exact absurd hdigit.2 (by decide)

/-- What `Outcome.ofLine` makes of a line that a rule is selected for. -/
theorem Outcome.ofLine_of_select {table : List Rule} {line : Text} {r : Rule} {st : Statement}
    (block : Block) (h : Rule.select table line = (r, st)) :
    Outcome.ofLine table block line = ⟨r, st.bash line block, st.blockAfter block, st.notices⟩ := by
  rw [Outcome.ofLine, h]

namespace Csh

/-- Letters, digits and underscores, perhaps with a dollar sign before them. -/
structure Operand where
  dollar : Bool
  word : Text
  ne_nil : word ≠ []
  chars : word.all isNameChar = true

namespace Operand

theorem isNameChar_of_mem (o : Operand) : ∀ c ∈ o.word, isNameChar c = true :=
  List.all_eq_true.1 o.chars

/-- An operand as a `Word`. -/
def toWord (o : Operand) : Word where
  text := if o.dollar then '$' :: o.word else o.word
  ne_nil := by
    cases o.dollar
    · exact o.ne_nil
    · simp
  parts := by
    have hparts : o.word.all isWordPart = true :=
      List.all_eq_true.2 fun c hc => isWordPart_of_isNameChar (o.isNameChar_of_mem c hc)
    cases o.dollar
    · exact hparts
    · exact Bool.and_eq_true_iff.2 ⟨by decide, hparts⟩

/-- An operand as it is written. -/
def text (o : Operand) : Text := o.toWord.text

/-- The operand starts with a digit, and so names no variable. -/
def isNumeral (o : Operand) : Bool := !o.dollar && o.word.head?.any Char.isDigit

theorem isName_word (o : Operand) : isName o.word = !o.word.head?.any Char.isDigit := by
  obtain ⟨c, cs, hword⟩ := List.exists_cons_of_ne_nil o.ne_nil
  have hchars := o.chars
  rw [hword, List.all_cons, Bool.and_eq_true] at hchars
  rw [hword, isName, hchars.2, Bool.and_true, isNameStart_eq hchars.1]
  rfl

/-- What a loop takes for a name by `namesVariable` is neither a numeral nor has a dollar sign. -/
theorem namesVariable_text (o : Operand) :
    Condition.namesVariable o.text = (!o.dollar && !o.isNumeral) := by
  obtain ⟨d, hlast, hd⟩ := o.toWord.exists_getLast?
  have hfeed : (o.text.getLast? == some '\n') = false := by
    rw [text, hlast]
    simpa using ne_of_isWordPart hd (by decide : isWordPart '\n' = false)
  rw [Condition.namesVariable, hfeed, Bool.false_and, Bool.or_false]
  cases hdollar : o.dollar with
  | true =>
    have hstart : isNameStart '$' = false := by decide
    simp [text, toWord, hdollar, isName, hstart]
  | false => simp [text, toWord, hdollar, isNumeral, o.isName_word]

/-- On the left, a loop puts a dollar sign before all but numerals by `leftOperand`. -/
theorem leftOperand_text (o : Operand) : Condition.leftOperand o.text =
    "\"" ++ (if o.isNumeral then o.word else '$' :: o.word) ++ "\"" := by
  have hunquote : unquote o.text = o.text := o.toWord.unquote_text
  simp only [Condition.leftOperand, hunquote, namesVariable_text]
  cases hdollar : o.dollar with
  | true => simp [isNumeral, hdollar, text, toWord]
  | false => cases hnumeral : o.isNumeral <;> simp [hdollar, text, toWord]

end Operand

/-! ## Equalities -/

/-- An equality of two operands, with any blanks around its sign. -/
structure OperandEquality where
  left : Operand
  before : Text
  blank_before : ∀ c ∈ before, isBlank c = true
  relation : Condition.Relation
  equality : relation = .eq ∨ relation = .ne
  after : Text
  blank_after : ∀ c ∈ after, isBlank c = true
  right : Operand

namespace OperandEquality

/-- An equality as it is written, with the `symbol` of its relation. -/
def text (e : OperandEquality) : Text :=
  e.left.text ++ (e.before ++ (e.relation.symbol ++ (e.after ++ e.right.text)))

/-- The test of an equality with the given left side. -/
def test (e : OperandEquality) (left : Text) : Text :=
  "\"" ++ left ++ "\" " ++ e.relation.test ++ " \"" ++ e.right.text ++ "\""

theorem test_inj (e : OperandEquality) {left other : Text} :
    e.test left = e.test other ↔ left = other := by
  simp [test]

theorem exists_getLast? (e : OperandEquality) :
    ∃ d, e.text.getLast? = some d ∧ isBlank d = false ∧ d ≠ ')' := by
  obtain ⟨d, hlast, hd⟩ := e.right.toWord.exists_getLast?
  have hlast : e.right.text.getLast? = some d := hlast
  exact ⟨d, by simp [text, List.getLast?_append, hlast], isBlank_of_isWordPart hd,
    ne_of_isWordPart hd (by decide)⟩

/-- `toTest` gives the test of the equality in a loop. -/
theorem toTest_text (e : OperandEquality) : Condition.toTest e.text =
    e.test (if e.left.isNumeral then e.left.word else '$' :: e.left.word) := by
  have hstart : stops isBlank e.text = true := e.left.toWord.stops_isBlank _
  obtain ⟨d, hlast, hd, _⟩ := e.exists_getLast?
  have hread : Condition.comparison? e.text =
      some (⟨e.left.text, e.relation, e.right.text⟩, []) :=
    comparison?_append e.left.toWord e.relation (.word e.right.toWord) e.blank_before e.blank_after
  have hright : Condition.rightOperand e.right.text = "\"" ++ e.right.text ++ "\"" := by
    rw [Condition.rightOperand, Operand.text, e.right.toWord.unquote_text]
  rw [Condition.toTest, trim_of_stops hstart (stops_reverse hlast hd),
    testComparisons_of_some hread]
  unfold Condition.Comparison.test test
  rw [e.left.leftOperand_text, hright]
  simp only [List.append_assoc]
  rfl

/-- The equality as `equalityThen?`, the reader of an `if`, takes it. -/
def read (e : OperandEquality) : Seashell.Equality :=
  ⟨e.left.word, decide (e.relation = .ne), e.right.text⟩

/-- The test of the equality in an `if`. -/
theorem test_read (e : OperandEquality) : e.read.test = e.test ('$' :: e.left.word) := by
  have hright : unquote e.right.text = e.right.text := e.right.toWord.unquote_text
  unfold Seashell.Equality.test test read
  rcases e.equality with h | h <;> simp only [h, hright] <;> rfl

theorem equalityThen?_line (e : OperandEquality) :
    Statement.equalityThen? (" " ++ '(' :: (e.text ++ ") then")) = some e.read := by
  have hread := equalityThen?_append e.left.dollar (.word e.right.toWord) e.left.ne_nil
    e.left.isNameChar_of_mem (p := " ") (q := []) (s := ") then") (allBlank_iff.1 rfl) (by simp)
    e.blank_before e.equality e.blank_after (by decide)
  simp only [text, List.append_assoc]
  exact hread

theorem select_if (e : OperandEquality) :
    Rule.select Rule.standard ("if (" ++ e.text ++ ") then") = (.ifTest, .ifTest e.read) := by
  refine Rule.select_of_recognize? (by decide) (by decide) ?_
  have hline : "if (" ++ e.text ++ ") then" = "if" ++ (" " ++ '(' :: (e.text ++ ") then")) := rfl
  simp only [Rule.recognize?, Statement.ifTest?, hline, after?_append, Option.bind_eq_bind,
    Option.bind_some, e.equalityThen?_line, Option.pure_def]

theorem select_elseIf (e : OperandEquality) :
    Rule.select Rule.standard ("else if (" ++ e.text ++ ") then") = (.elseIf, .elseIf e.read) := by
  refine Rule.select_of_recognize? (by decide) (by decide) ?_
  have hline : "else if (" ++ e.text ++ ") then" =
      "else" ++ (" " ++ ("if" ++ (" " ++ '(' :: (e.text ++ ") then")))) := rfl
  have hgap : gap? (" " ++ ("if" ++ (" " ++ '(' :: (e.text ++ ") then")))) =
      some ("if" ++ (" " ++ '(' :: (e.text ++ ") then"))) :=
    gap?_eq_some_iff.2 ⟨" ", by decide, allBlank_iff.1 rfl, rfl, rfl⟩
  simp only [Rule.recognize?, Statement.elseIf?, hline, after?_append, Option.bind_eq_bind,
    Option.bind_some, hgap, e.equalityThen?_line, Option.pure_def]

theorem select_while (e : OperandEquality) (h : '\n' ∉ e.text) :
    Rule.select Rule.standard ("while (" ++ e.text ++ ")") = (.whileLoop, .whileLoop e.text) := by
  refine Rule.select_of_recognize? (by decide) (by decide) ?_
  have hline : "while (" ++ e.text ++ ")" = "while" ++ (" " ++ '(' :: (e.text ++ ")")) := rfl
  have hmark : Statement.afterMark? '(' (" " ++ '(' :: (e.text ++ ")")) = some (e.text ++ ")") :=
    (Statement.afterMark?_eq_some_iff (by decide)).2 ⟨" ", allBlank_iff.1 rfl, rfl⟩
  have hstart : stops isBlank (e.text ++ ")") = true := by
    rw [text, List.append_assoc]
    exact e.left.toWord.stops_isBlank _
  obtain ⟨d, hlast, hd, hclose⟩ := e.exists_getLast?
  have hend : Statement.closesLine ')' ")" = true := by decide
  have hpart := fun before => Statement.part?_append before hlast h hend fun v hv _ =>
    Statement.closesLine_eq_false (by decide) (List.mem_append_left _ hv) hd hclose
  simp only [Rule.recognize?, Statement.whileLoop?, hline, after?_append, Option.bind_eq_bind,
    Option.bind_some, hmark, trimStart_of_stops hstart, hpart, Option.pure_def]

/-- **An `if` tests an equality as a loop does, unless its left side is a numeral**, which an `if`
    takes for a variable. A loop only takes an equality that stays within its line. -/
theorem tests_agree_iff (e : OperandEquality) (block : Block) :
    let test := Condition.toTest e.text
    let ofIf := Outcome.ofLine Rule.standard block ("if (" ++ e.text ++ ") then")
    let ofElseIf := Outcome.ofLine Rule.standard block ("else if (" ++ e.text ++ ") then")
    let ofWhile := Outcome.ofLine Rule.standard block ("while (" ++ e.text ++ ")")
    (ofIf.rule = .ifTest ∧
        (ofIf.text = "if [ " ++ test ++ " ]; then" ↔ e.left.isNumeral = false)) ∧
      (ofElseIf.rule = .elseIf ∧
        (ofElseIf.text = "elif [ " ++ test ++ " ]; then" ↔ e.left.isNumeral = false)) ∧
      ('\n' ∉ e.text →
        ofWhile.rule = .whileLoop ∧ ofWhile.text = "while [ " ++ test ++ " ]; do") := by
  intro test ofIf ofElseIf ofWhile
  have hagree : e.read.test = test ↔ e.left.isNumeral = false := by
    rw [test_read, show test = _ from e.toTest_text, test_inj]
    cases e.left.isNumeral with
    | false => simp
    | true => simp
  have hif : ofIf.text = "if [ " ++ e.read.test ++ " ]; then" :=
    congrArg Outcome.text (Outcome.ofLine_of_select block e.select_if)
  have helse : ofElseIf.text = "elif [ " ++ e.read.test ++ " ]; then" :=
    congrArg Outcome.text (Outcome.ofLine_of_select block e.select_elseIf)
  refine ⟨⟨?_, ?_⟩, ⟨?_, ?_⟩, fun hline => ⟨?_, ?_⟩⟩
  · exact congrArg Outcome.rule (Outcome.ofLine_of_select block e.select_if)
  · rw [hif, ← hagree]
    simp
  · exact congrArg Outcome.rule (Outcome.ofLine_of_select block e.select_elseIf)
  · rw [helse, ← hagree]
    simp
  · exact congrArg Outcome.rule (Outcome.ofLine_of_select block (e.select_while hline))
  · exact congrArg Outcome.text (Outcome.ofLine_of_select block (e.select_while hline))

/-- A number on the left of an equality, `1 == x`. -/
def numberLeft : OperandEquality where
  left := ⟨false, "1", by decide, by decide⟩
  before := " "
  blank_before := allBlank_iff.1 rfl
  relation := .eq
  equality := .inl rfl
  after := " "
  blank_after := allBlank_iff.1 rfl
  right := ⟨false, "x", by decide, by decide⟩

/-- A number on the left is tested in a loop, and taken for a variable in an `if`. -/
theorem tests_agree_iff_numberLeft :
    '\n' ∉ numberLeft.text ∧
      (Outcome.ofLine Rule.standard .closed ("if (" ++ numberLeft.text ++ ") then")).text ≠
        "if [ " ++ Condition.toTest numberLeft.text ++ " ]; then" ∧
      (Outcome.ofLine Rule.standard .closed ("while (" ++ numberLeft.text ++ ")")).text =
        "while [ " ++ Condition.toTest numberLeft.text ++ " ]; do" := by
  have hline : '\n' ∉ numberLeft.text := by decide
  obtain ⟨⟨_, hif⟩, _, hwhile⟩ := tests_agree_iff numberLeft .closed
  refine ⟨hline, fun h => ?_, (hwhile hline).2⟩
  exact absurd (hif.1 h) (by decide)

/-- An `if` and a loop test one and the same condition differently. -/
theorem number_dereferenced :
    Condition.toTest "1 == x" = "\"1\" = \"x\"".toList ∧
      (Outcome.ofLine Rule.standard .closed "while (1 == x)").text =
        "while [ \"1\" = \"x\" ]; do".toList ∧
      (Outcome.ofLine Rule.standard .closed "if (1 == x) then").text =
        "if [ \"$1\" = \"x\" ]; then".toList ∧
      (Outcome.ofLine Rule.standard .closed "else if (1 == x) then").text =
        "elif [ \"$1\" = \"x\" ]; then".toList := by
  have htext : "1 == x".toList = numberLeft.text := by decide
  have hwhile : "while (1 == x)".toList = "while (" ++ numberLeft.text ++ ")" := by decide
  have hif : "if (1 == x) then".toList = "if (" ++ numberLeft.text ++ ") then" := by decide
  have helse : "else if (1 == x) then".toList = "else if (" ++ numberLeft.text ++ ") then" := by
    decide
  have htest : Condition.toTest numberLeft.text = "\"1\" = \"x\"".toList := by
    rw [numberLeft.toTest_text]
    decide
  refine ⟨htext ▸ htest, ?_, ?_, ?_⟩
  · rw [hwhile, Outcome.ofLine_of_select _ (numberLeft.select_while (by decide))]
    show "while [ " ++ Condition.toTest numberLeft.text ++ " ]; do" = _
    rw [htest]
    decide
  · rw [hif, Outcome.ofLine_of_select _ numberLeft.select_if]
    decide
  · rw [helse, Outcome.ofLine_of_select _ numberLeft.select_elseIf]
    decide

end OperandEquality
end Csh
end Seashell
