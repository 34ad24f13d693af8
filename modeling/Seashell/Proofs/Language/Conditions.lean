import Seashell.Proofs.Language.Clauses

set_option autoImplicit false

/-! # Conditions of C shell programs

A `Comparison` of a variable with a value, as it is written in a program (`text`) and as the test
that it becomes (`test`); an `Equality` is one that an `if` can state, and a `FileTest` asks for a
property of a file. They are the conditions that programs of this language have.

A condition is read back from its text, whatever blanks stand in it. There are two readers for this.
That of a loop and of a negated `if` is `Condition.comparison?`, to which a word and a value are two
operands (`toTerm`), so that the lemmas on clauses apply: `Comparison.toTest_text`. That of an `if`
is `Statement.equalityThen?`, which reads up to the keyword that closes the condition:
`equalityThen?_append`. -/

namespace Seashell

open Text

namespace Csh

/-- A variable compared with a value. -/
structure Comparison where
  name : Name
  /-- The name is written with a dollar sign. -/
  dollar : Bool
  before : Pad
  relation : Condition.Relation
  after : Pad
  value : Value

/-- A comparison as it is written, the name with or without its `dollar`. -/
def Comparison.text (c : Comparison) : Text :=
  (c.name.spelled c.dollar).text ++
    (c.before.text ++ (c.relation.symbol ++ (c.after.text ++ c.value.text)))

/-- A comparison in a test: the variable is dereferenced, and the `content` of the value quoted. -/
def Comparison.test (c : Comparison) : Text :=
  "\"$" ++ c.name.text ++ "\" " ++ c.relation.test ++ " \"" ++ c.value.content ++ "\""

/-- A comparison that an `if` can state. -/
structure Equality extends Comparison where
  equality : relation = .eq ∨ relation = .ne

/-! ## Words and values as operands -/

theorem isOperandChar_of_isWordPart (c : Char) (h : isWordPart c = true) :
    Condition.isOperandChar c = true := by
  rw [Condition.isOperandChar, isBlank_of_isWordPart h, contains_of_isWordPart h (by decide)]
  rfl

/-- A word as an operand, a `Term.word`. -/
def Word.toTerm (w : Word) : Term :=
  .word w.text w.ne_nil fun c hc =>
    isOperandChar_iff.1 (isOperandChar_of_isWordPart c (w.isWordPart_of_mem c hc))

/-- A value as an operand: a `Term.word`, or a text in double quotes. -/
def Value.toTerm : Value → Term
  | .word w => w.toTerm
  | .quoted inner free plain => .double inner free (isPlain_iff.1 plain).1

theorem Value.text_toTerm (v : Value) : v.toTerm.text = v.text := by
  cases v with
  | word w => rfl
  | quoted inner free plain => rfl

/-- A name with a dollar sign is none to `namesVariable`, so that it gets no second one. -/
theorem namesVariable_spelled (n : Name) (dollar : Bool) :
    Condition.namesVariable (n.spelled dollar).text = !dollar := by
  cases dollar with
  | false => simp [Name.spelled, Condition.namesVariable, n.valid]
  | true =>
    obtain ⟨c, cs, htext, _⟩ := n.exists_cons
    have hstart : isNameStart '$' = false := by decide
    simp [Name.spelled, Condition.namesVariable, htext, isName, hstart]

theorem leftOperand_spelled (n : Name) (dollar : Bool) :
    Condition.leftOperand (n.spelled dollar).text = "\"$" ++ n.text ++ "\"" := by
  unfold Condition.leftOperand
  simp only [Word.unquote_text, namesVariable_spelled]
  cases dollar <;> rfl

theorem rightOperand_value (v : Value) :
    Condition.rightOperand v.text = "\"" ++ v.content ++ "\"" := by
  rw [Condition.rightOperand, v.unquote_text]

/-- `comparison?` reads a word and a value, whatever blanks stand around the relation. -/
theorem comparison?_append (w : Word) {p q : Text} (r : Condition.Relation) (v : Value)
    (hp : ∀ c ∈ p, isBlank c = true) (hq : ∀ c ∈ q, isBlank c = true) :
    Condition.comparison? (w.text ++ (p ++ (r.symbol ++ (q ++ v.text)))) =
      some (⟨w.text, r, v.text⟩, []) := by
  have h := w.toTerm.comparison?_append r v.toTerm hp hq (s := []) rfl rfl
  rwa [List.append_nil, v.text_toTerm] at h

theorem testComparisons_of_some {s : Text} {c : Condition.Comparison}
    (h : Condition.comparison? s = some (c, [])) : Condition.testComparisons s = c.test := by
  cases s with
  | nil => cases h
  | cons d ds =>
    rw [Condition.testComparisons_cons_of_some h, Condition.testComparisons_nil, List.append_nil]

namespace Comparison

@[simp] theorem isPlain_text (c : Comparison) : isPlain c.text = true := by
  have hsymbol : isPlain c.relation.symbol = true := by cases c.relation <;> decide
  simp [text, hsymbol]

theorem stops_isBlank (c : Comparison) (s : Text) : stops isBlank (c.text ++ s) = true := by
  rw [text, List.append_assoc]
  exact Word.stops_isBlank _ _

/-- A comparison ends in a character that closes no condition. -/
theorem exists_getLast? (c : Comparison) :
    ∃ d, c.text.getLast? = some d ∧ isBlank d = false ∧ d ≠ ')' := by
  obtain ⟨d, hlast, hd⟩ := c.value.exists_getLast?
  exact ⟨d, by simp [text, List.getLast?_append, hlast], hd⟩

/-- `comparison?` reads a comparison back from its text. -/
theorem comparison?_text (c : Comparison) :
    Condition.comparison? c.text =
      some (⟨(c.name.spelled c.dollar).text, c.relation, c.value.text⟩, []) :=
  comparison?_append _ c.relation c.value c.before.isBlank_of_mem c.after.isBlank_of_mem

/-- **A comparison becomes its test** by `toTest`. -/
theorem toTest_text (c : Comparison) : Condition.toTest c.text = c.test := by
  have hstart : stops isBlank c.text = true := by simpa using c.stops_isBlank []
  obtain ⟨d, hlast, hd, _⟩ := c.exists_getLast?
  rw [Condition.toTest, trim_of_stops hstart (stops_reverse hlast hd),
    testComparisons_of_some c.comparison?_text]
  unfold Condition.Comparison.test
  rw [leftOperand_spelled, rightOperand_value]
  unfold test
  simp only [List.append_assoc]
  rfl

end Comparison

/-! ## The equality of an `if` -/

/-- `variableRun?` reads letters, digits and underscores without a dollar sign before them. -/
theorem variableRun?_append {word : Text} (dollar : Bool) {q : Char → Bool} {s : Text}
    (hne : word ≠ []) (hword : ∀ c ∈ word, isNameChar c = true)
    (hq : ∀ c, isNameChar c = true → q c = true) (hs : stops q s = true) :
    Statement.variableRun? q ((if dollar then '$' :: word else word) ++ s) = some (word, s) := by
  have hrun : run? q (word ++ s) = some (word, s) :=
    run?_eq_some_iff.2 ⟨hne, fun c hc => hq c (hword c hc), hs, rfl⟩
  cases dollar with
  | true => simp [Statement.variableRun?, hrun]
  | false =>
    rw [if_neg (by decide)]
    unfold Statement.variableRun?
    split
    -- the word does not start with a dollar sign
    · rename_i heq
      obtain ⟨c, cs, rfl⟩ := List.exists_cons_of_ne_nil hne
      have hc := hword c List.mem_cons_self
      rw [(List.cons.inj heq).1] at hc
      exact absurd hc (by decide)
    · exact hrun

/-- `variableRun?` reads a name without its dollar sign. -/
theorem variableRun?_spelled (n : Name) (dollar : Bool) {q : Char → Bool} {s : Text}
    (hq : ∀ c, isNameChar c = true → q c = true) (hs : stops q s = true) :
    Statement.variableRun? q ((n.spelled dollar).text ++ s) = some (n.text, s) :=
  variableRun?_append dollar n.ne_nil (forall_of_isName n.valid) hq hs

theorem isValueChar_of_isWordPart (c : Char) (h : isWordPart c = true) :
    Statement.isValueChar c = true := by
  have hopen : c ≠ '(' := ne_of_isWordPart h (by decide)
  have hclose : c ≠ ')' := ne_of_isWordPart h (by decide)
  simp [Statement.isValueChar, isBlank_of_isWordPart h, hopen, hclose]

theorem isVariableChar_of_isNameChar (c : Char) (h : isNameChar c = true) :
    Statement.isVariableChar c = true := by
  have hc := isWordPart_of_isNameChar h
  rw [Statement.isVariableChar, isBlank_of_isWordPart hc, contains_of_isWordPart hc (by decide)]
  rfl

/-- `closingValue?` reads back the value that closes the condition of an `if`. -/
theorem closingValue?_append (v : Value) {s : Text} (hs : Statement.closesThen s = true) :
    Statement.closingValue? (v.text ++ s) = some v.text := by
  cases v with
  | quoted inner free plain =>
    have hread : quoted? '"' ('"' :: inner ++ ['"'] ++ s) = some ('"' :: inner ++ ['"'], s) :=
      quoted?_eq_some_iff.2 ⟨inner, free, rfl, rfl⟩
    rw [Statement.closingValue?, Value.text, hread]
    simp [hs]
  | word w =>
    obtain ⟨g, h, rest, hg, _, _, htail⟩ := Statement.closesThen_iff.1 hs
    have hvalue : stops Statement.isValueChar s = true := by
      rw [htail]
      exact stops_blanks_append hg (fun c hc => by simp [Statement.isValueChar, hc]) rfl
    have hparen : stops (· == '(') s = true := by
      rw [htail]
      exact stops_blanks_append hg (beq_of_isBlank (by decide)) rfl
    have hquoted : quoted? '"' (w.text ++ s) = none :=
      quoted?_eq_none w.ne_nil (w.not_mem (by decide)) s
    have hsubstitution : Condition.substitution? (w.text ++ s) = none :=
      substitution?_eq_none w.ne_nil (w.not_mem (by decide)) hparen
    simp [Statement.closingValue?, Value.text, hquoted, hsubstitution,
      w.run?_append isValueChar_of_isWordPart hvalue, hs]

theorem equalitySign?_append {r : Condition.Relation} (hr : r = .eq ∨ r = .ne) (s : Text) :
    Statement.equalitySign? (r.symbol ++ s) = some (decide (r = .ne), s) := by
  rcases hr with rfl | rfl <;> rfl

/-- `equalityThen?` reads back the equality of an `if`, whatever blanks stand in it. -/
theorem equalityThen?_append {word p q before after s : Text} (dollar : Bool)
    {r : Condition.Relation} (v : Value) (hne : word ≠ [])
    (hword : ∀ c ∈ word, isNameChar c = true) (hp : ∀ c ∈ p, isBlank c = true)
    (hq : ∀ c ∈ q, isBlank c = true) (hbefore : ∀ c ∈ before, isBlank c = true)
    (hr : r = .eq ∨ r = .ne) (hafter : ∀ c ∈ after, isBlank c = true)
    (hs : Statement.closesThen s = true) :
    Statement.equalityThen? (p ++ '(' :: (q ++ ((if dollar then '$' :: word else word) ++
      (before ++ (r.symbol ++ (after ++ (v.text ++ s))))))) =
        some ⟨word, decide (r = .ne), v.text⟩ := by
  have hname := variableRun?_append (q := Statement.isVariableChar)
    (s := before ++ (r.symbol ++ (after ++ (v.text ++ s)))) dollar hne hword
    isVariableChar_of_isNameChar
    (stops_blanks_append hbefore (fun c hc => by simp [Statement.isVariableChar, hc])
      (by rcases hr with rfl | rfl <;> rfl))
  have hmark : Statement.afterMark? '(' (p ++ '(' :: (q ++
      ((if dollar then '$' :: word else word) ++
        (before ++ (r.symbol ++ (after ++ (v.text ++ s))))))) = some _ :=
    (Statement.afterMark?_eq_some_iff (by decide)).2 ⟨p, hp, rfl⟩
  have hsymbol : stops isBlank (r.symbol ++ (after ++ (v.text ++ s))) = true :=
    stops_symbol_append _ _ (by decide)
  have hstart : stops isBlank ((if dollar then '$' :: word else word) ++
      (before ++ (r.symbol ++ (after ++ (v.text ++ s))))) = true := by
    cases dollar with
    | true => rfl
    | false =>
      refine (stops_append _ hne).trans (stops_of_forall fun c hc => ?_)
      exact isBlank_of_isWordPart (isWordPart_of_isNameChar (hword c hc))
  simp only [Statement.equalityThen?, hmark, Option.bind_eq_bind, Option.bind_some,
    trimStart_append hq hstart, hname, trimStart_append hbefore hsymbol, equalitySign?_append hr,
    trimStart_append hafter (v.stops_isBlank s), closingValue?_append v hs, Option.pure_def]

namespace Equality

/-- The equality as `equalityThen?` takes it. -/
def read (e : Equality) : Seashell.Equality := ⟨e.name.text, decide (e.relation = .ne), e.value.text⟩

theorem test_read (e : Equality) : e.read.test = e.test := by
  unfold Seashell.Equality.test Comparison.test read
  rcases e.equality with h | h <;> simp only [h, e.value.unquote_text] <;> rfl

theorem equalityThen?_text (e : Equality) (p q : Pad) {s : Text}
    (hs : Statement.closesThen s = true) :
    Statement.equalityThen? (p.text ++ '(' :: (q.text ++ (e.text ++ s))) = some e.read := by
  have hread := equalityThen?_append e.dollar e.value e.name.ne_nil (forall_of_isName e.name.valid)
    p.isBlank_of_mem q.isBlank_of_mem e.before.isBlank_of_mem e.equality e.after.isBlank_of_mem hs
  simp only [Comparison.text, List.append_assoc]
  exact hread

end Equality

/-! ## File tests -/

/-- A file tested for a property that a `letter` stands for. -/
structure FileTest where
  letter : Char
  alpha : letter.isAlpha = true
  gap : Gap
  path : Word

/-- A file test as it is written. -/
def FileTest.text (f : FileTest) : Text := '-' :: f.letter :: (f.gap.text ++ f.path.text)

/-- A file test in a test: the `path` is quoted. -/
def FileTest.test (f : FileTest) : Text := ['-', f.letter, ' ', '"'] ++ f.path.text ++ ['"']

/-- `testComparisons` changes nothing in a text without the sign of a relation. -/
theorem testComparisons_of_not_mem {s : Text} (h : ∀ c ∈ s, "=!<>".toList.contains c = false) :
    Condition.testComparisons s = s := by
  induction s with
  | nil => exact Condition.testComparisons_nil
  | cons c cs ih =>
    have hnone : Condition.comparison? (c :: cs) = none := by
      cases hread : Condition.comparison? (c :: cs) with
      | none => rfl
      | some found =>
        simp only [Condition.comparison?, Option.bind_eq_bind, Option.bind_eq_some_iff] at hread
        obtain ⟨⟨left, s₁⟩, h₁, ⟨relation, s₂⟩, h₂, _⟩ := hread
        -- the sign that was read would stand in the text
        have hsign : ∃ d ∈ relation.symbol, "=!<>".toList.contains d = true := by
          cases relation <;> exact ⟨_, List.mem_cons_self, by decide⟩
        obtain ⟨d, hd, hmark⟩ := hsign
        have hmem : d ∈ trimStart s₁ :=
          Condition.eq_of_relation? h₂ ▸ List.mem_append_left s₂ hd
        rw [h d ((Condition.subset_of_operand? h₁).2 (subset_trimStart s₁ hmem))] at hmark
        cases hmark
    rw [Condition.testComparisons_cons_of_none hnone, ih fun d hd => h d (List.mem_cons_of_mem c hd)]

namespace FileTest

theorem isWordPart_letter (f : FileTest) : isWordPart f.letter = true :=
  isWordPart_of_isNameChar (by simp [isNameChar, Char.isAlphanum, f.alpha])

@[simp] theorem isPlain_text (f : FileTest) : isPlain f.text = true := by
  have hfeed : f.letter ≠ '\n' := ne_of_isWordPart f.isWordPart_letter (by decide)
  have hreturn : f.letter ≠ '\r' := ne_of_isWordPart f.isWordPart_letter (by decide)
  have hback : f.letter ≠ '`' := ne_of_isWordPart f.isWordPart_letter (by decide)
  simp [text, isBreak, hfeed, hreturn, hback]

theorem not_mem (f : FileTest) {mark : Char} (hword : isWordPart mark = false)
    (hblank : isBlank mark = false) : mark ∉ f.text := by
  intro hm
  simp only [text, List.mem_cons, List.mem_append] at hm
  rcases hm with rfl | rfl | hm | hm
  · exact absurd hword (by decide)
  · exact absurd f.isWordPart_letter (by simp [hword])
  · exact absurd (f.gap.isBlank_of_mem mark hm) (by simp [hblank])
  · exact f.path.not_mem hword hm

theorem exists_getLast? (f : FileTest) : ∃ d, f.text.getLast? = some d ∧ isWordPart d = true := by
  obtain ⟨d, hlast, hd⟩ := f.path.exists_getLast?
  exact ⟨d, by simp [text, List.getLast?_cons, List.getLast?_append, hlast], hd⟩

theorem fileTest?_text (f : FileTest) :
    Condition.fileTest? f.text = some (f.letter, f.path.text, []) := by
  obtain ⟨c, cs, hpath, hc⟩ := f.path.exists_cons
  have hstart : stops isBlank f.path.text = true := by simpa using f.path.stops_isBlank []
  have hword : ∀ d ∈ f.path.text, (!isBlank d) = true := fun d hd => by
    simp [isBlank_of_isWordPart (f.path.isWordPart_of_mem d hd)]
  have htake : word f.path.text = f.path.text := by
    simpa [word] using takeWhile_append_of_stops (s := []) hword rfl
  have hdrop : afterWord f.path.text = [] := by
    simpa [afterWord] using dropWhile_append_of_stops (s := []) hword rfl
  have hdouble : c ≠ '"' := ne_of_isWordPart hc (by decide)
  have hsingle : c ≠ '\'' := ne_of_isWordPart hc (by decide)
  rw [hpath] at htake hdrop hstart
  simp [Condition.fileTest?, text, hpath, f.gap.gap?_append hstart, f.alpha, hdouble, hsingle, htake,
    hdrop]

/-- **The operand of a file test is quoted** by `quoteFileTests`, and nothing else changes. -/
theorem toTest_quoteFileTests (f : FileTest) :
    Condition.toTest (Condition.quoteFileTests f.text) = f.test := by
  have hquoted : Condition.quoteFileTests f.text = f.test := by
    have hread := f.fileTest?_text
    rw [text] at hread
    rw [Condition.quoteFileTests, text, Condition.quoteFrom_cons_of_some ((if_pos rfl).trans hread),
      Condition.quoteFrom_nil, List.append_nil, test]
  have hmarks : ∀ c ∈ f.test, "=!<>".toList.contains c = false := by
    intro c hc
    simp only [test, List.mem_append, List.mem_cons, List.not_mem_nil, or_false] at hc
    rcases hc with ((rfl | rfl | rfl | rfl) | hc) | rfl
    · decide
    · exact contains_of_isWordPart f.isWordPart_letter (by decide)
    · decide
    · decide
    · exact contains_of_isWordPart (f.path.isWordPart_of_mem c hc) (by decide)
    · decide
  have hend : stops isBlank f.test.reverse = true := stops_reverse List.getLast?_concat (by decide)
  have hstart : stops isBlank f.test = true := rfl
  rw [hquoted, Condition.toTest, trim_of_stops hstart hend, testComparisons_of_not_mem hmarks]

end FileTest
end Csh
end Seashell
