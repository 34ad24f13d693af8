import Seashell.Proofs.Recognition

set_option autoImplicit false

/-! # The lines that a statement writes

A statement that comes from one line writes one line (`Statement.isSingle`), with three exceptions:
an interpreter line writes none, a jump writes two, and a label also ends the function that is open.
`Statement.outputLines` says so for each kind of statement.

The program has the text of a statement only (`Statement.bash`), and cuts it into lines when it is
written. That this gives the lines of `outputLines` is `Statement.lines_bash`. It needs that no part
of a statement has a line break and that none is put in: the tests of conditions stay within one
line (`Condition.unbroken_toTest`), since they are made of pieces of the condition, as does
everything else that is written on one line (`Statement.unbroken_bash`). All that is said of the
lines of a run starts from here. -/

namespace Seashell

open Text

/-! ## Conditions stay within one line -/

namespace Text

theorem subset_unquote (s : Text) : unquote s ⊆ s := by
  unfold unquote
  split
  · exact List.Subset.refl _
  · rename_i q rest
    split
    · exact List.Subset.trans (List.dropLast_sublist rest).subset (List.subset_cons_self q rest)
    · exact List.Subset.refl _

theorem unquote_quoted {q : Char} (hq : q = '"' ∨ q = '\'') (inner : Text) :
    unquote (q :: inner ++ [q]) = inner := by
  simp [unquote, hq]

/-- `unquote` leaves as it is what does not begin with a quote. -/
theorem unquote_of_head? {s : Text} (hdouble : s.head? ≠ some '"') (hsingle : s.head? ≠ some '\'') :
    unquote s = s := by
  cases s with
  | nil => rfl
  | cons c s =>
    have hc : ¬ (c = '"' ∨ c = '\'') := by
      rintro (rfl | rfl)
      · exact hdouble rfl
      · exact hsingle rfl
    rw [unquote, if_neg fun h => hc h.1]

theorem unquote_command (inner : Text) : unquote ("$(" ++ inner ++ ")") = "$(" ++ inner ++ ")" :=
  unquote_of_head? (by simp) (by simp)

/-- `unquote` drops quotes only around a text that has one at both ends. -/
theorem unquote_cases (s : Text) :
    unquote s = s ∨ ∃ q inner, (q = '"' ∨ q = '\'') ∧ s = q :: inner ++ [q] := by
  cases s with
  | nil => exact .inl rfl
  | cons q rest =>
    by_cases h : (q = '"' ∨ q = '\'') ∧ rest.getLast? = some q
    · obtain ⟨inner, rfl⟩ := List.getLast?_eq_some_iff.1 h.2
      exact .inr ⟨q, inner, h.1, rfl⟩
    · exact .inl (by rw [unquote, if_neg h])

theorem subset_word (s : Text) : word s ⊆ s := (List.takeWhile_prefix _).subset

theorem subset_afterWord (s : Text) : afterWord s ⊆ s := (List.dropWhile_suffix _).subset

end Text

namespace Condition

theorem subset_of_operand? {s t rest : Text} (h : operand? s = some (t, rest)) :
    t ⊆ s ∧ rest ⊆ s := by
  simp only [operand?, Option.or_eq_some_iff] at h
  rcases h with h | ⟨_, h | ⟨_, h | ⟨_, h⟩⟩⟩
  · exact subset_of_quoted? h
  · exact subset_of_quoted? h
  · exact subset_of_substitution? h
  · exact subset_of_run? h

theorem eq_of_relation? {s rest : Text} {r : Relation} (h : relation? s = some (r, rest)) :
    s = r.symbol ++ rest := by
  unfold relation? at h
  split at h <;> simp only [Option.some.injEq, Prod.mk.injEq, reduceCtorEq] at h
  all_goals
    obtain ⟨rfl, rfl⟩ := h
    rfl

theorem subset_of_relation? {s rest : Text} {r : Relation} (h : relation? s = some (r, rest)) :
    rest ⊆ s :=
  eq_of_relation? h ▸ List.subset_append_right _ _

theorem subset_of_comparison? {s rest : Text} {c : Comparison}
    (h : comparison? s = some (c, rest)) : c.left ⊆ s ∧ c.right ⊆ s ∧ rest ⊆ s := by
  simp only [comparison?, Option.bind_eq_bind, Option.pure_def, Option.bind_eq_some_iff,
    Option.some.injEq, Prod.mk.injEq] at h
  obtain ⟨⟨left, s₁⟩, h₁, ⟨relation, s₂⟩, h₂, ⟨right, s₃⟩, h₃, rfl, rfl⟩ := h
  obtain ⟨hleft, hs₁⟩ := subset_of_operand? h₁
  have hs₂ : trimStart s₂ ⊆ s := List.Subset.trans (subset_trimStart s₂)
    (List.Subset.trans (subset_of_relation? h₂) (List.Subset.trans (subset_trimStart s₁) hs₁))
  obtain ⟨hright, hs₃⟩ := subset_of_operand? h₃
  exact ⟨hleft, List.Subset.trans hright hs₂, List.Subset.trans hs₃ hs₂⟩

theorem unbroken_test {c : Comparison} (hl : unbroken c.left = true)
    (hr : unbroken c.right = true) : unbroken c.test = true := by
  have hleft : unbroken (unquote c.left) = true := unbroken_of_subset (subset_unquote _) hl
  have hright : unbroken (unquote c.right) = true := unbroken_of_subset (subset_unquote _) hr
  have hrelation : unbroken c.relation.test = true := by cases c.relation <;> decide
  have hquote : unbroken "\"" = true := by decide
  have hspace : unbroken " " = true := by decide
  have hdollar : unbroken (if namesVariable (unquote c.left) then '$' :: unquote c.left
      else unquote c.left) = true := by
    split
    · rw [unbroken_cons, hleft]; rfl
    · exact hleft
  unfold Comparison.test leftOperand rightOperand
  simp only [unbroken_append, hquote, hspace, hdollar, hright, hrelation, Bool.and_self]

theorem testComparisons_cons_of_some {c : Char} {cs rest : Text} {comparison : Comparison}
    (h : comparison? (c :: cs) = some (comparison, rest)) :
    testComparisons (c :: cs) = comparison.test ++ testComparisons rest := by
  rw [testComparisons]
  split
  · rename_i comparison' rest' h'
    rw [h] at h'
    cases h'
    rfl
  · rename_i h'
    rw [h] at h'
    cases h'

theorem testComparisons_cons_of_none {c : Char} {cs : Text} (h : comparison? (c :: cs) = none) :
    testComparisons (c :: cs) = c :: testComparisons cs := by
  rw [testComparisons]
  split
  · rename_i h'
    rw [h] at h'
    cases h'
  · rfl

@[simp] theorem testComparisons_nil : testComparisons [] = [] := by rw [testComparisons]

theorem unbroken_testComparisons (s : Text) (hs : unbroken s = true) :
    unbroken (testComparisons s) = true := by
  induction s using testComparisons.induct with
  | case1 => rw [testComparisons_nil]; rfl
  | case2 c cs comparison rest h ih =>
    obtain ⟨hleft, hright, hrest⟩ := subset_of_comparison? h
    rw [testComparisons_cons_of_some h, unbroken_append, ih (unbroken_of_subset hrest hs),
      unbroken_test (unbroken_of_subset hleft hs) (unbroken_of_subset hright hs)]
    rfl
  | case3 c cs h ih =>
    rw [unbroken_cons, Bool.and_eq_true] at hs
    rw [testComparisons_cons_of_none h, unbroken_cons, hs.1, ih hs.2]
    rfl

theorem unbroken_toTest {s : Text} (hs : unbroken s = true) : unbroken (toTest s) = true :=
  unbroken_testComparisons _ (unbroken_of_subset (subset_trim s) hs)

theorem subset_of_fileTest? {s operand rest : Text} {letter : Char}
    (h : fileTest? s = some (letter, operand, rest)) :
    letter ∈ s ∧ operand ⊆ s ∧ rest ⊆ s := by
  unfold fileTest? at h
  split at h
  · rename_i l s
    split at h
    · rename_i c cs hgap
      split at h
      · simp only [Option.some.injEq, Prod.mk.injEq] at h
        obtain ⟨rfl, rfl, rfl⟩ := h
        have hcs : c :: cs ⊆ '-' :: l :: s :=
          List.subset_cons_of_subset _ (List.subset_cons_of_subset _ (subset_of_gap? hgap))
        exact ⟨by simp, List.Subset.trans (subset_word _) hcs,
          List.Subset.trans (subset_afterWord _) hcs⟩
      · simp at h
    · simp at h
  · simp at h

theorem quoteFrom_cons_of_some {fresh : Bool} {c letter : Char} {cs operand rest : Text}
    (h : (if fresh then fileTest? (c :: cs) else none) = some (letter, operand, rest)) :
    quoteFrom fresh (c :: cs) =
      ['-', letter, ' ', '"'] ++ operand ++ ['"'] ++ quoteFrom false rest := by
  rw [quoteFrom]
  split
  · rename_i h'
    rw [h] at h'
    cases h'
    rfl
  · rename_i h'
    rw [h] at h'
    cases h'

theorem quoteFrom_cons_of_none {fresh : Bool} {c : Char} {cs : Text}
    (h : (if fresh then fileTest? (c :: cs) else none) = none) :
    quoteFrom fresh (c :: cs) = c :: quoteFrom (isBlank c) cs := by
  rw [quoteFrom]
  split
  · rename_i h'
    rw [h] at h'
    cases h'
  · rfl

@[simp] theorem quoteFrom_nil (fresh : Bool) : quoteFrom fresh [] = [] := by rw [quoteFrom]

theorem unbroken_quoteFrom (fresh : Bool) (s : Text) (hs : unbroken s = true) :
    unbroken (quoteFrom fresh s) = true := by
  induction fresh, s using quoteFrom.induct with
  | case1 fresh => rw [quoteFrom_nil]; rfl
  | case2 fresh c cs letter operand rest h ih =>
    simp only [dite_eq_ite] at h
    have htest : fileTest? (c :: cs) = some (letter, operand, rest) :=
      (Option.ite_none_right_eq_some.1 h).2
    obtain ⟨hletter, hoperand, hrest⟩ := subset_of_fileTest? htest
    have hletter' : isBreak letter = false := by
      simp only [unbroken, List.all_eq_true, Bool.not_eq_true'] at hs
      exact hs letter hletter
    have hlead : unbroken ['-', letter, ' ', '"'] = true := by
      simp only [unbroken_cons, hletter']
      decide
    have hquote : unbroken ['"'] = true := by decide
    simp only [quoteFrom_cons_of_some h, unbroken_append, hlead, hquote,
      ih (unbroken_of_subset hrest hs), unbroken_of_subset hoperand hs, Bool.and_self]
  | case3 fresh c cs h ih =>
    simp only [dite_eq_ite] at h
    rw [unbroken_cons, Bool.and_eq_true] at hs
    rw [quoteFrom_cons_of_none h, unbroken_cons, hs.1, ih hs.2]
    rfl

end Condition

theorem Equality.unbroken_test {e : Equality} (hname : unbroken e.variableName = true)
    (hvalue : unbroken e.value = true) : unbroken e.test = true := by
  have hunquoted := unbroken_of_subset (subset_unquote e.value) hvalue
  have hsign : unbroken (if e.negated then "!=".toList else "=".toList) = true := by
    cases e.negated <;> decide
  unfold Equality.test
  simp only [unbroken_append, hname, hunquoted, hsign]
  decide

/-! ## Labels and jumps -/

/-- The lines that a `label` writes. -/
def Block.labelLines (label : Text) : Block → List Text
  | .closed => [head label]
  | .opened => [tail, [], head label]

theorem Block.splitOn_labelText {label : Text} (h : '\n' ∉ label) (block : Block) :
    List.splitOn '\n' (block.labelText label) = block.labelLines label := by
  have hhead : '\n' ∉ head label := by
    unfold head
    simpa using h
  cases block with
  | closed => exact List.splitOn_eq_singleton hhead
  | opened =>
    have htext : labelText label .opened = tail ++ '\n' :: ([] ++ '\n' :: head label) := by
      unfold labelText
      simp [join]
    rw [htext, List.splitOn_append_cons_self_of_not_mem (by decide),
      List.splitOn_append_cons_self_of_not_mem (by simp), List.splitOn_eq_singleton hhead]
    rfl

theorem Block.labelText_ne_nil (label : Text) (block : Block) : block.labelText label ≠ [] := by
  unfold labelText
  cases block with
  | closed =>
    unfold head
    simp
  | opened =>
    unfold tail
    simp [join]

namespace Statement

/-- The call by which a jump begins: `eval` for a target that is only known at run time. -/
def callText (target : Text) : Text :=
  if target.head? == some '$' then "eval \"" ++ target ++ "\"" else target

theorem unbroken_callText {target : Text} (h : unbroken target = true) :
    unbroken (callText target) = true := by
  unfold callText
  split
  · simp [h, isBreak]
  · exact h

theorem splitOn_jumpText {target : Text} (h : unbroken target = true) :
    List.splitOn '\n' (jumpText target) = [callText target, "return".toList] := by
  have htext : jumpText target = callText target ++ '\n' :: "return".toList := rfl
  rw [htext, List.splitOn_append_cons_self_of_not_mem (unbroken_iff.1 (unbroken_callText h)).1,
    List.splitOn_eq_singleton (by decide)]

/-! ## Every statement -/

/-- The lines that a statement writes for the line that holds it, without the indentation. -/
def outputLines (line : Text) (block : Block) : Statement → List Text
  | .interpreter => []
  | .jump target => [callText (trim target), "return".toList]
  | .label name => block.labelLines name
  | st => [st.bash line block]

/-- The statement writes exactly one line, its `bash` text. -/
def isSingle : Statement → Bool
  | .interpreter | .jump _ | .label _ => false
  | _ => true

theorem outputLines_of_isSingle {st : Statement} (h : st.isSingle = true) (line : Text)
    (block : Block) : st.outputLines line block = [st.bash line block] := by
  cases st <;> first | rfl | exact absurd h (by simp [isSingle])

theorem bash_ne_nil {line : Text} {st : Statement} (block : Block) (hst : st.isSingle = true)
    (hne : line ≠ []) : st.bash line block ≠ [] := by
  cases st with
  | interpreter | jump _ | label _ => exact absurd hst (by simp [isSingle])
  | verbatim => exact hne
  | _ =>
    unfold bash
    simp

theorem unbroken_bash {line : Text} {st : Statement} (block : Block) (hst : st.isSingle = true)
    (hline : unbroken line = true) (hparts : ∀ t ∈ st.parts, unbroken t = true) :
    unbroken (st.bash line block) = true := by
  unfold bash
  cases st with
  | interpreter | jump _ | label _ => exact absurd hst (by simp [isSingle])
  | verbatim => exact hline
  | ifNot condition =>
    have htest : unbroken (Condition.toTest (Condition.quoteFileTests condition)) = true :=
      Condition.unbroken_toTest (Condition.unbroken_quoteFrom true condition
        (hparts condition (by simp [parts])))
    simp [htest, isBreak]
  | whileLoop condition =>
    have htest := Condition.unbroken_toTest (hparts condition (by simp [parts]))
    simp [htest, isBreak]
  | ifTest e | elseIf e =>
    simp only [parts, List.forall_mem_cons] at hparts
    have htest := Equality.unbroken_test hparts.1 hparts.2.1
    simp [htest, isBreak]
  | caseArm pattern =>
    have hpattern := unbroken_of_subset (subset_unquote pattern) (hparts pattern (by simp [parts]))
    simp [hpattern, isBreak]
  | «alias» name value =>
    simp only [parts, List.forall_mem_cons] at hparts
    have hvalue := unbroken_of_subset (subset_trim value) hparts.2.1
    have hquoted : unbroken (aliasValue (trim value)) = true := by
      unfold aliasValue
      split
      · simp [hvalue, isBreak]
      · exact hvalue
    simp [hparts.1, hquoted, isBreak]
  | _ =>
    simp only [parts, List.forall_mem_cons] at hparts
    simp [hparts, isBreak]

/-- **A statement writes its own lines**: its `bash` text, cut into lines if there is any, is what
    `outputLines` says for its kind. -/
theorem lines_bash {line : Text} {st : Statement} (block : Block) (hne : line ≠ [])
    (hline : unbroken line = true) (hparts : ∀ t ∈ st.parts, unbroken t = true) :
    (if (st.bash line block).isEmpty then [] else List.splitOn '\n' (st.bash line block)) =
      st.outputLines line block := by
  by_cases hst : st.isSingle = true
  · have htext := bash_ne_nil block hst hne
    have hunbroken := unbroken_bash block hst hline hparts
    rw [outputLines_of_isSingle hst, if_neg (by simpa using htext),
      List.splitOn_eq_singleton (unbroken_iff.1 hunbroken).1]
  -- the interpreter line writes nothing; a jump and a label join their lines with line feeds
  · cases st with
    | interpreter => rfl
    | jump target =>
      have htarget : unbroken (trim target) = true :=
        unbroken_of_subset (subset_trim target) (hparts target (by simp [parts]))
      have hbash : (jump target).bash line block = jumpText (trim target) := rfl
      have hne : jumpText (trim target) ≠ [] :=
        List.append_ne_nil_of_right_ne_nil _ (by decide)
      rw [hbash, if_neg (by simpa using hne), splitOn_jumpText htarget]
      rfl
    | label name =>
      have hname : '\n' ∉ name := (unbroken_iff.1 (hparts name (by simp [parts]))).1
      have hbash : (label name).bash line block = block.labelText name := rfl
      rw [hbash, if_neg (by simpa using Block.labelText_ne_nil name block),
        Block.splitOn_labelText hname]
      rfl
    | _ => exact absurd rfl hst

end Statement
end Seashell
