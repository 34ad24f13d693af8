import Seashell.Proofs.Opening

set_option autoImplicit false

/-! # What a recognised line is made of

Each scanner of a rule is opened once, here. A rule that recognises a line yields its own kind of
statement (`Statement.rules`), every text in the statement (`Statement.parts`) is made of characters
of the line, and the opening of the line calls for the rule (`Rule.ofOpening`). These three facts
are `Rule.Reads`, and `Rule.recognize?_reads` has them for all rules, by one case for each.

The cases go back to a few forms. Most rules read a keyword of their own and a gap or a mark behind
it (`opening_of_gap`, `opening_of_mark`); `if` and `else` belong to two rules each, which are told
apart by what follows (`ofOpening_if`, `ofOpening_else`). All other modules use `Rule.Reads` and
`Rule.select_reads`, and do not look into the scanners again. -/

namespace Seashell

open Text

/-- The texts in a statement, each as it was read off the line. -/
def Statement.parts : Statement → List Text
  | .setenv name value | .assign name value | .alias name value => [name, value]
  | .foreachLoop name items => [name, items]
  | .changeDirectory t | .ifNot t | .whileLoop t | .switchOn t | .caseArm t | .jump t | .label t
  | .source t => [t]
  | .ifTest e | .elseIf e => [e.variableName, e.value]
  | _ => []

/-- The rules that yield a statement of the kind. -/
def Statement.rules : Statement → List Rule
  | .interpreter => [.header]
  | .verbatim => [.blockComment, .unalias, .passthrough]
  | .setenv .. => [.setenv]
  | .assign .. => [.set]
  | .changeDirectory _ => [.cd]
  | .ifNot _ => [.ifNot]
  | .ifTest _ => [.ifTest]
  | .elseIf _ => [.elseIf]
  | .elseBranch => [.elseBranch]
  | .endIf => [.endIf]
  | .whileLoop _ => [.whileLoop]
  | .foreachLoop .. => [.foreachLoop]
  | .switchOn _ => [.switchOn]
  | .caseArm _ => [.caseArm]
  | .breakSwitch => [.breakSwitch]
  | .defaultArm => [.defaultArm]
  | .endSwitch => [.endSwitch]
  | .endLoop => [.endLoop]
  | .alias .. => [.alias]
  | .jump _ => [.goto]
  | .label _ => [.label]
  | .source _ => [.source]

/-- What is known of the `statement` that a rule recognises in the line `s`. -/
structure Rule.Reads (r : Rule) (s : Text) (statement : Statement) : Prop where
  kind : r ∈ statement.rules
  parts : ∀ t ∈ statement.parts, t ⊆ s
  opening : ofOpening s = r ∨ r = .label ∧ ofOpening s = .defaultArm

/-! ## What scanners return comes from the text -/

namespace Text

theorem subset_of_after? {lead s rest : Text} (h : after? lead s = some rest) : rest ⊆ s := by
  rw [after?_eq_some_iff.1 h]
  exact List.subset_append_right lead rest

theorem subset_of_gap? {s rest : Text} (h : gap? s = some rest) : rest ⊆ s := by
  obtain ⟨g, _, _, _, rfl⟩ := gap?_eq_some_iff.1 h
  exact List.subset_append_right g rest

theorem subset_of_run? {p : Char → Bool} {s t rest : Text} (h : run? p s = some (t, rest)) :
    t ⊆ s ∧ rest ⊆ s := by
  obtain ⟨_, _, _, rfl⟩ := run?_eq_some_iff.1 h
  exact ⟨List.subset_append_left t rest, List.subset_append_right t rest⟩

theorem subset_trimStart (s : Text) : trimStart s ⊆ s := (List.dropWhile_suffix isBlank).subset

theorem subset_firstLine (s : Text) : firstLine s ⊆ s := (List.takeWhile_prefix _).subset

theorem subset_trimEnd (s : Text) : trimEnd s ⊆ s := by
  intro c hc
  rw [trimEnd, List.mem_reverse] at hc
  exact List.mem_reverse.1 ((List.dropWhile_suffix isBlank).subset hc)

theorem subset_trim (s : Text) : trim s ⊆ s :=
  List.Subset.trans (subset_trimEnd (trimStart s)) (subset_trimStart s)

theorem subset_of_quoted? {q : Char} {s t rest : Text} (h : quoted? q s = some (t, rest)) :
    t ⊆ s ∧ rest ⊆ s := by
  obtain ⟨_, _, _, rfl⟩ := quoted?_eq_some_iff.1 h
  exact ⟨List.subset_append_left t rest, List.subset_append_right t rest⟩

end Text

namespace Condition

theorem subset_of_substitution? {s t rest : Text} (h : substitution? s = some (t, rest)) :
    t ⊆ s ∧ rest ⊆ s := by
  obtain ⟨_, _, _, rfl⟩ := substitution?_eq_some_iff.1 h
  exact ⟨List.subset_append_left t rest, List.subset_append_right t rest⟩

end Condition

namespace Statement

theorem subset_of_afterMark? {c : Char} {s rest : Text} (hc : isBlank c = false)
    (h : afterMark? c s = some rest) : rest ⊆ s := by
  obtain ⟨g, _, rfl⟩ := (afterMark?_eq_some_iff hc).1 h
  exact List.Subset.trans (List.subset_cons_self c rest) (List.subset_append_right g _)

theorem subset_of_longest? {tail : Text → Bool} {s t : Text} (h : longest? tail s = some t) :
    t ⊆ s := by
  induction s generalizing t with
  | nil => simp [longest?] at h
  | cons c cs ih =>
    rw [longest?] at h
    split at h
    · simp at h
    · split at h
      · rename_i more hmore
        simp only [Option.some.injEq] at h
        subst h
        exact List.cons_subset_cons c (ih hmore)
      · split at h
        · simp only [Option.some.injEq] at h
          subst h
          simp
        · simp at h

theorem subset_of_lastSpace? {s t : Text} (h : lastSpace? s = some t) : t ⊆ s := by
  obtain ⟨c, hc, rfl⟩ := Option.map_eq_some_iff.1 h
  have : c ∈ s := (List.mem_filter.1 (List.mem_of_getLast? hc)).1
  simpa using this

theorem subset_of_part? {tail : Text → Bool} {before s t whole : Text}
    (hbefore : before ⊆ whole) (hs : s ⊆ whole) (h : part? tail before s = some t) :
    t ⊆ whole := by
  rcases Option.or_eq_some_iff.1 h with h | ⟨_, h⟩
  · obtain ⟨rest, _, rfl⟩ := eq_append_of_shortest? h
    exact List.Subset.trans (List.subset_append_left t rest) hs
  · split at h
    · exact List.Subset.trans (subset_of_lastSpace? h) hbefore
    · simp at h

theorem subset_of_variableRun? {p : Char → Bool} {s t rest : Text}
    (h : variableRun? p s = some (t, rest)) : t ⊆ s ∧ rest ⊆ s := by
  obtain ⟨dollar, _, rfl⟩ := eq_append_of_variableRun? h
  have hs : t ++ rest ⊆ dollar ++ (t ++ rest) := List.subset_append_right dollar _
  exact ⟨List.Subset.trans (List.subset_append_left t rest) hs,
    List.Subset.trans (List.subset_append_right t rest) hs⟩

theorem subset_of_equalitySign? {s rest : Text} {negated : Bool}
    (h : equalitySign? s = some (negated, rest)) : rest ⊆ s := by
  rw [eq_cons_of_equalitySign? h]
  exact List.subset_cons_of_subset _ (List.subset_cons_self _ _)

theorem subset_of_closingValue? {s value : Text} (h : closingValue? s = some value) :
    value ⊆ s := by
  obtain ⟨rest, _, rfl⟩ := eq_append_of_closingValue? h
  exact List.subset_append_left value rest

/-- The opening parenthesis of what `equalityThen?` reads stands after blanks, and the equality is
    made of what follows. -/
theorem equalityThen?_cases {s : Text} {e : Equality} (h : equalityThen? s = some e) :
    (∃ rest, afterMark? '(' s = some rest) ∧ e.variableName ⊆ s ∧ e.value ⊆ s := by
  simp only [equalityThen?, Option.bind_eq_bind, Option.pure_def, Option.bind_eq_some_iff,
    Option.some.injEq] at h
  obtain ⟨s₁, h₁, ⟨name, s₂⟩, h₂, ⟨negated, s₃⟩, h₃, value, h₄, rfl⟩ := h
  have hs₁ : trimStart s₁ ⊆ s :=
    List.Subset.trans (subset_trimStart s₁) (subset_of_afterMark? (by decide) h₁)
  obtain ⟨hname, hs₂⟩ := subset_of_variableRun? h₂
  have hs₃ : trimStart s₃ ⊆ trimStart s₁ :=
    List.Subset.trans (subset_trimStart s₃) (List.Subset.trans (subset_of_equalitySign? h₃)
      (List.Subset.trans (subset_trimStart s₂) hs₂))
  exact ⟨⟨s₁, h₁⟩, List.Subset.trans hname hs₁,
    List.Subset.trans (List.Subset.trans (subset_of_closingValue? h₄) hs₃) hs₁⟩

/-- A keyword of one rule and a gap: `ofOpening` calls for the rule. -/
theorem opening_of_gap {name s rest : Text} {r : Rule} (hname : name.all isNameChar = true)
    (hr : Rule.ofKeyword.lookup name = some r) (h : (after? name s).bind gap? = some rest) :
    Rule.ofOpening s = r ∧ rest ⊆ s := by
  obtain ⟨s₀, h₀, h₁⟩ := Option.bind_eq_some_iff.1 h
  refine ⟨?_, List.Subset.trans (subset_of_gap? h₁) (subset_of_after? h₀)⟩
  rw [after?_eq_some_iff.1 h₀]
  exact Rule.ofOpening_keyword hname hr (.of_gap? h₁)

/-- A keyword of one rule and the mark `c`: `ofOpening` calls for the rule. -/
theorem opening_of_mark {name s s₀ rest : Text} {c : Char} {r : Rule}
    (hname : name.all isNameChar = true) (hr : Rule.ofKeyword.lookup name = some r)
    (hb : isBlank c = false) (hc : Parts [c]) (h₀ : after? name s = some s₀)
    (h : afterMark? c s₀ = some rest) : Rule.ofOpening s = r ∧ rest ⊆ s := by
  refine ⟨?_, List.Subset.trans (subset_of_afterMark? hb h) (subset_of_after? h₀)⟩
  rw [after?_eq_some_iff.1 h₀]
  exact Rule.ofOpening_keyword hname hr (.of_afterMark? hb hc h)

theorem bareKeyword?_reads {keyword s : Text} {r : Rule} {statement st : Statement}
    (hkeyword : keyword.all isNameChar = true) (hr : Rule.ofKeyword.lookup keyword = some r)
    (hkind : r ∈ statement.rules) (hparts : statement.parts = [])
    (h : bareKeyword? keyword statement s = some st) : Rule.Reads r s st := by
  obtain ⟨rfl, rest, hrest, rfl⟩ := bareKeyword?_eq_some_iff.1 h
  exact ⟨hkind, by simp [hparts], .inl (Rule.ofOpening_keyword hkeyword hr (.of_allBlank hrest))⟩

/-! ## Each scanner -/

theorem interpreter?_reads {s : Text} {st : Statement} (h : interpreter? s = some st) :
    Rule.Reads .header s st := by
  unfold interpreter? at h
  split at h
  · rename_i hs
    simp only [Option.some.injEq] at h
    subst h
    obtain ⟨rest, rfl⟩ := List.isPrefixOf_iff_prefix.1 hs
    exact ⟨by decide, by simp [parts], .inl rfl⟩
  · simp at h

theorem commentFence?_reads {s : Text} {st : Statement} (h : commentFence? s = some st) :
    Rule.Reads .blockComment s st := by
  unfold commentFence? at h
  split at h
  · rename_i hs
    simp only [Option.some.injEq] at h
    subst h
    simp only [Bool.or_eq_true, decide_eq_true_eq] at hs
    refine ⟨by decide, by simp [parts], .inl ?_⟩
    rcases hs with (hs | rfl) | rfl
    · obtain ⟨rest, rfl⟩ := List.isPrefixOf_iff_prefix.1 hs
      rfl
    · decide
    · decide
  · simp at h

theorem setenv?_reads {s : Text} {st : Statement} (h : setenv? s = some st) :
    Rule.Reads .setenv s st := by
  simp only [setenv?, Option.bind_eq_bind, Option.pure_def] at h
  obtain ⟨s₁, h₁, h⟩ := Option.bind_eq_some_iff.1 h
  simp only [Option.bind_eq_some_iff, Option.some.injEq] at h
  obtain ⟨⟨name, s₂⟩, h₂, s₃, h₃, ⟨value, s₄⟩, h₄, rfl⟩ := h
  obtain ⟨hopening, hs₁⟩ := opening_of_gap (r := .setenv) (by decide) (by decide) h₁
  obtain ⟨hname, hs₂⟩ := subset_of_run? h₂
  have hs₃ : s₃ ⊆ s := List.Subset.trans (subset_of_gap? h₃) (List.Subset.trans hs₂ hs₁)
  refine ⟨List.mem_singleton.2 rfl, ?_, .inl hopening⟩
  simpa [parts] using ⟨List.Subset.trans hname hs₁, List.Subset.trans (subset_of_run? h₄).1 hs₃⟩

theorem assign?_reads {s : Text} {st : Statement} (h : assign? s = some st) :
    Rule.Reads .set s st := by
  simp only [assign?, Option.bind_eq_bind, Option.pure_def] at h
  obtain ⟨s₁, h₁, h⟩ := Option.bind_eq_some_iff.1 h
  simp only [Option.bind_eq_some_iff] at h
  obtain ⟨⟨name, s₂⟩, h₂, s₃, h₃, h⟩ := h
  obtain ⟨hopening, hs₁⟩ := opening_of_gap (r := .set) (by decide) (by decide) h₁
  obtain ⟨hname, hs₂⟩ := subset_of_run? h₂
  have hs₃ : s₃ ⊆ s :=
    List.Subset.trans (subset_of_afterMark? (by decide) h₃) (List.Subset.trans hs₂ hs₁)
  -- without a rest of the line, the value is one of the blanks before it
  split at h
  · obtain ⟨value, hvalue, rfl⟩ := Option.map_eq_some_iff.1 h
    refine ⟨List.mem_singleton.2 rfl, ?_, .inl hopening⟩
    simpa [parts] using ⟨List.Subset.trans hname hs₁,
      List.Subset.trans (subset_of_lastSpace? hvalue) hs₃⟩
  · rename_i c cs hc
    simp only [Option.some.injEq] at h
    subst h
    have hcs : c :: cs ⊆ s := hc ▸ List.Subset.trans (subset_trimStart s₃) hs₃
    refine ⟨List.mem_singleton.2 rfl, ?_, .inl hopening⟩
    simpa [parts] using ⟨List.Subset.trans hname hs₁,
      List.Subset.trans (subset_firstLine (c :: cs)) hcs⟩

theorem changeDirectory?_reads {s : Text} {st : Statement} (h : changeDirectory? s = some st) :
    Rule.Reads .cd s st := by
  simp only [changeDirectory?, Option.bind_eq_bind, Option.pure_def] at h
  obtain ⟨s₁, h₁, h⟩ := Option.bind_eq_some_iff.1 h
  obtain ⟨hopening, hs₁⟩ := opening_of_gap (r := .cd) (by decide) (by decide) h₁
  split at h
  · simp at h
  · simp only [Option.some.injEq] at h
    subst h
    refine ⟨List.mem_singleton.2 rfl, ?_, .inl hopening⟩
    simpa [parts] using List.Subset.trans (subset_trimEnd s₁) hs₁

/-- The keyword `if` belongs to two rules; the mark after it tells them apart. -/
theorem ofOpening_if {s s₀ rest : Text} {c : Char} (hb : isBlank c = false) (hc : Parts [c])
    (h₀ : after? "if" s = some s₀) (h : afterMark? c s₀ = some rest) :
    Rule.ofOpening s = if c = '!' then .ifNot else .ifTest := by
  have hparts : Parts s₀ := .of_afterMark? hb hc h
  obtain ⟨g, hg, rfl⟩ := (afterMark?_eq_some_iff hb).1 h
  have hmark : (trimStart (g ++ c :: rest)).head? = some c := by
    rw [trimStart_append hg (by simpa using hb), List.head?_cons]
  rw [after?_eq_some_iff.1 h₀, Rule.ofOpening_append (by decide) hparts.1, Rule.called,
    if_neg hparts.2, hmark]
  simp

theorem ifNot?_reads {s : Text} {st : Statement} (h : ifNot? s = some st) :
    Rule.Reads .ifNot s st := by
  simp only [ifNot?, Option.bind_eq_bind, Option.pure_def, Option.bind_eq_some_iff,
    Option.some.injEq] at h
  obtain ⟨s₀, h₀, s₁, h₁, s₂, h₂, condition, h₃, rfl⟩ := h
  have hs₂ : s₂ ⊆ s := List.Subset.trans (subset_of_afterMark? (by decide) h₂)
    (List.Subset.trans (subset_of_afterMark? (by decide) h₁) (subset_of_after? h₀))
  refine ⟨List.mem_singleton.2 rfl, ?_, .inl ?_⟩
  · simpa [parts] using subset_of_part? (List.Subset.trans (List.takeWhile_prefix _).subset hs₂)
      (List.Subset.trans (subset_trimStart s₂) hs₂) h₃
  · exact ofOpening_if (by decide) ⟨by decide, by decide⟩ h₀ h₁

theorem ifTest?_reads {s : Text} {st : Statement} (h : ifTest? s = some st) :
    Rule.Reads .ifTest s st := by
  simp only [ifTest?, Option.bind_eq_bind, Option.pure_def, Option.bind_eq_some_iff,
    Option.some.injEq] at h
  obtain ⟨s₀, h₀, e, he, rfl⟩ := h
  obtain ⟨⟨rest, hrest⟩, hname, hvalue⟩ := equalityThen?_cases he
  have hs₀ : s₀ ⊆ s := subset_of_after? h₀
  refine ⟨List.mem_singleton.2 rfl, ?_, .inl ?_⟩
  · simpa [parts] using ⟨List.Subset.trans hname hs₀, List.Subset.trans hvalue hs₀⟩
  · exact ofOpening_if (by decide) ⟨by decide, by decide⟩ h₀ hrest

/-- The keyword `else` belongs to two rules; one of them has nothing after it. -/
theorem ofOpening_else {s rest : Text} (hs : s = "else" ++ rest) (hrest : Parts rest) :
    Rule.ofOpening s = if allBlank rest then .elseBranch else .elseIf := by
  rw [hs, Rule.ofOpening_append (by decide) hrest.1, Rule.called, if_neg hrest.2]
  simp

theorem elseIf?_reads {s : Text} {st : Statement} (h : elseIf? s = some st) :
    Rule.Reads .elseIf s st := by
  simp only [elseIf?, Option.bind_eq_bind, Option.pure_def, Option.bind_eq_some_iff,
    Option.some.injEq] at h
  obtain ⟨s₁, ⟨s₀, h₀, h₁⟩, s₂, h₂, e, he, rfl⟩ := h
  obtain ⟨_, hname, hvalue⟩ := equalityThen?_cases he
  have hs₂ : s₂ ⊆ s :=
    List.Subset.trans (subset_of_after? h₂)
      (List.Subset.trans (subset_of_gap? h₁) (subset_of_after? h₀))
  refine ⟨List.mem_singleton.2 rfl, ?_, .inl ?_⟩
  · simpa [parts] using ⟨List.Subset.trans hname hs₂, List.Subset.trans hvalue hs₂⟩
  -- the word `if` follows, so the opening is not that of a bare `else`
  · have hi : 'i' ∈ s₀ := by
      have : 'i' ∈ s₁ := by rw [after?_eq_some_iff.1 h₂]; simp
      exact subset_of_gap? h₁ this
    have hblank : ¬ allBlank s₀ = true := fun hb =>
      absurd (allBlank_iff.1 hb 'i' hi) (by decide)
    rw [ofOpening_else (after?_eq_some_iff.1 h₀) (.of_gap? h₁), if_neg hblank]

theorem elseBranch?_reads {s : Text} {st : Statement}
    (h : bareKeyword? "else" .elseBranch s = some st) : Rule.Reads .elseBranch s st := by
  obtain ⟨rfl, rest, hrest, hs⟩ := bareKeyword?_eq_some_iff.1 h
  refine ⟨by decide, by simp [parts], .inl ?_⟩
  rw [ofOpening_else hs (.of_allBlank hrest), if_pos (allBlank_iff.2 hrest)]

theorem whileLoop?_reads {s : Text} {st : Statement} (h : whileLoop? s = some st) :
    Rule.Reads .whileLoop s st := by
  simp only [whileLoop?, Option.bind_eq_bind, Option.pure_def, Option.bind_eq_some_iff,
    Option.some.injEq] at h
  obtain ⟨s₀, h₀, s₁, h₁, condition, h₂, rfl⟩ := h
  obtain ⟨hopening, hs₁⟩ :=
    opening_of_mark (r := .whileLoop) (by decide) (by decide) (by decide)
      ⟨by decide, by decide⟩ h₀ h₁
  refine ⟨List.mem_singleton.2 rfl, ?_, .inl hopening⟩
  simpa [parts] using subset_of_part? (List.Subset.trans (List.takeWhile_prefix _).subset hs₁)
    (List.Subset.trans (subset_trimStart s₁) hs₁) h₂

theorem foreachLoop?_reads {s : Text} {st : Statement} (h : foreachLoop? s = some st) :
    Rule.Reads .foreachLoop s st := by
  simp only [foreachLoop?, Option.bind_eq_bind, Option.pure_def] at h
  obtain ⟨s₁, h₁, h⟩ := Option.bind_eq_some_iff.1 h
  simp only [Option.bind_eq_some_iff, Option.some.injEq] at h
  obtain ⟨⟨name, s₂⟩, h₂, s₃, h₃, items, h₄, rfl⟩ := h
  obtain ⟨hopening, hs₁⟩ := opening_of_gap (r := .foreachLoop) (by decide) (by decide) h₁
  obtain ⟨hname, hs₂⟩ := subset_of_run? h₂
  have hs₃ : s₃ ⊆ s :=
    List.Subset.trans (subset_of_afterMark? (by decide) h₃) (List.Subset.trans hs₂ hs₁)
  refine ⟨List.mem_singleton.2 rfl, ?_, .inl hopening⟩
  simpa [parts] using ⟨List.Subset.trans hname hs₁,
    List.Subset.trans (subset_of_longest? h₄) (List.Subset.trans (subset_trimStart s₃) hs₃)⟩

/-- The quote before or after the variable of a switch. -/
theorem subset_of_optionalQuote (s : Text) : (if s.head? == some '"' then s.tail else s) ⊆ s := by
  split
  · exact (List.tail_sublist s).subset
  · exact List.Subset.refl s

theorem switchOn?_reads {s : Text} {st : Statement} (h : switchOn? s = some st) :
    Rule.Reads .switchOn s st := by
  simp only [switchOn?, Option.bind_eq_bind, Option.pure_def, Option.bind_eq_some_iff] at h
  obtain ⟨s₀, h₀, s₁, h₁, ⟨name, s₂⟩, h₂, h⟩ := h
  obtain ⟨hopening, hs₁⟩ :=
    opening_of_mark (r := .switchOn) (by decide) (by decide) (by decide)
      ⟨by decide, by decide⟩ h₀ h₁
  obtain ⟨_, h⟩ := Option.ite_none_right_eq_some.1 h
  simp only [Option.some.injEq] at h
  subst h
  have hname : name ⊆ trimStart s₁ :=
    List.Subset.trans (subset_of_variableRun? h₂).1 (subset_of_optionalQuote (trimStart s₁))
  refine ⟨List.mem_singleton.2 rfl, ?_, .inl hopening⟩
  simpa [parts] using List.Subset.trans hname (List.Subset.trans (subset_trimStart s₁) hs₁)

theorem caseArm?_reads {s : Text} {st : Statement} (h : caseArm? s = some st) :
    Rule.Reads .caseArm s st := by
  simp only [caseArm?, Option.bind_eq_bind, Option.pure_def, Option.bind_eq_some_iff,
    Option.some.injEq] at h
  obtain ⟨s₀, h₀, s₁, h₁, pattern, h₂, rfl⟩ := h
  obtain ⟨hopening, hs₁⟩ := opening_of_gap (r := .caseArm) (by decide) (by decide)
    (Option.bind_eq_some_iff.2 ⟨s₀, h₀, h₁⟩)
  have hblanks : (blanks s₀).tail ⊆ s := List.Subset.trans (List.tail_sublist _).subset
    (List.Subset.trans (List.takeWhile_prefix _).subset (subset_of_after? h₀))
  refine ⟨List.mem_singleton.2 rfl, ?_, .inl hopening⟩
  simpa [parts] using subset_of_part? hblanks hs₁ h₂

theorem defaultArm?_reads {s : Text} {st : Statement} (h : defaultArm? s = some st) :
    Rule.Reads .defaultArm s st := by
  simp only [defaultArm?, Option.bind_eq_bind, Option.pure_def, Option.bind_eq_some_iff,
    Option.some.injEq] at h
  obtain ⟨s₀, h₀, s₁, h₁, rfl⟩ := h
  obtain ⟨g, hg, rfl⟩ := (afterMark?_eq_some_iff (by decide)).1 h₁
  refine ⟨by decide, by simp [parts], .inl ?_⟩
  rw [after?_eq_some_iff.1 h₀]
  -- with nothing before the colon the line also looks like a label
  cases g with
  | nil => rfl
  | cons c cs =>
    have hparts : Parts (c :: cs ++ ':' :: s₁) :=
      .of_blanks_append hg fun he => absurd he (by simp)
    exact Rule.ofOpening_keyword (by decide) (by decide) hparts

theorem alias?_reads {s : Text} {st : Statement} (h : alias? s = some st) :
    Rule.Reads .alias s st := by
  simp only [alias?, Option.bind_eq_bind, Option.pure_def] at h
  obtain ⟨s₁, h₁, h⟩ := Option.bind_eq_some_iff.1 h
  simp only [Option.bind_eq_some_iff] at h
  obtain ⟨⟨name, s₂⟩, h₂, s₃, h₃, h⟩ := h
  obtain ⟨hopening, hs₁⟩ := opening_of_gap (r := .alias) (by decide) (by decide) h₁
  obtain ⟨hname, hs₂⟩ := subset_of_run? h₂
  have hs₃ : s₃ ⊆ s := List.Subset.trans (subset_of_gap? h₃) (List.Subset.trans hs₂ hs₁)
  split at h
  · simp at h
  · simp only [Option.some.injEq] at h
    subst h
    refine ⟨List.mem_singleton.2 rfl, ?_, .inl hopening⟩
    simpa [parts] using ⟨List.Subset.trans hname hs₁, List.Subset.trans (subset_firstLine s₃) hs₃⟩

theorem unalias?_reads {s : Text} {st : Statement} (h : unalias? s = some st) :
    Rule.Reads .unalias s st := by
  simp only [unalias?, Option.bind_eq_bind, Option.pure_def, Option.bind_eq_some_iff,
    Option.some.injEq] at h
  obtain ⟨s₀, h₀, s₁, h₁, rfl⟩ := h
  obtain ⟨hopening, _⟩ := opening_of_gap (r := .unalias) (by decide) (by decide)
    (Option.bind_eq_some_iff.2 ⟨s₀, h₀, h₁⟩)
  exact ⟨by decide, by simp [parts], .inl hopening⟩

theorem jump?_reads {s : Text} {st : Statement} (h : jump? s = some st) :
    Rule.Reads .goto s st := by
  simp only [jump?, Option.bind_eq_bind, Option.pure_def] at h
  obtain ⟨s₁, h₁, h⟩ := Option.bind_eq_some_iff.1 h
  obtain ⟨hopening, hs₁⟩ := opening_of_gap (r := .goto) (by decide) (by decide) h₁
  split at h
  · simp at h
  · simp only [Option.some.injEq] at h
    subst h
    refine ⟨List.mem_singleton.2 rfl, ?_, .inl hopening⟩
    simpa [parts] using List.Subset.trans (subset_firstLine s₁) hs₁

theorem source?_reads {s : Text} {st : Statement} (h : source? s = some st) :
    Rule.Reads .source s st := by
  simp only [source?, Option.bind_eq_bind, Option.pure_def] at h
  obtain ⟨s₁, h₁, h⟩ := Option.bind_eq_some_iff.1 h
  simp only [Option.some.injEq] at h
  subst h
  obtain ⟨hopening, hs₁⟩ := opening_of_gap (r := .source) (by decide) (by decide) h₁
  refine ⟨List.mem_singleton.2 rfl, ?_, .inl hopening⟩
  simpa [parts] using List.Subset.trans (subset_firstLine s₁) hs₁

/-- What `label?` reads is a name, a colon and blanks. -/
theorem label?_eq_some_iff {s : Text} {st : Statement} :
    label? s = some st ↔ ∃ name rest : Text, isName name = true ∧ (∀ c ∈ rest, isBlank c = true) ∧
      st = .label name ∧ s = name ++ ':' :: rest := by
  unfold label?
  constructor
  · intro h
    dsimp only at h
    split at h
    · rename_i rest hrest
      split at h
      · rename_i hname
        simp only [Bool.and_eq_true] at hname
        simp only [Option.some.injEq] at h
        refine ⟨s.takeWhile isNameChar, rest, hname.1, allBlank_iff.1 hname.2, h.symm, ?_⟩
        rw [← hrest, List.takeWhile_append_dropWhile]
      · simp at h
    · simp at h
  · rintro ⟨name, rest, hname, hrest, rfl, rfl⟩
    have hall : ∀ c ∈ name, isNameChar c = true := forall_of_isName hname
    have hstop : stops isNameChar (':' :: rest) = true := rfl
    dsimp only
    rw [takeWhile_append_of_stops hall hstop, dropWhile_append_of_stops hall hstop]
    simp [hname, allBlank_iff.2 hrest]

theorem label?_reads {s : Text} {st : Statement} (h : label? s = some st) :
    Rule.Reads .label s st := by
  obtain ⟨name, rest, hname, hrest, rfl, rfl⟩ := label?_eq_some_iff.1 h
  refine ⟨List.mem_singleton.2 rfl, ?_, ?_⟩
  · simp [parts]
  · have hne : name ≠ [] := by rintro rfl; exact absurd hname (by decide)
    have hall : name.all isNameChar = true := List.all_eq_true.2 (forall_of_isName hname)
    rw [Rule.ofOpening_append hall rfl, Rule.called, List.head?_cons,
      if_pos rfl, if_neg hne]
    split
    · exact .inr ⟨rfl, rfl⟩
    · exact .inl rfl

end Statement

/-! ## Every rule -/

namespace Rule

/-- **A rule that recognises a line reads its own kind of statement off it**, by `Reads`. -/
theorem recognize?_reads {r : Rule} {s : Text} {st : Statement} (hr : r ≠ .passthrough)
    (h : r.recognize? s = some st) : r.Reads s st := by
  cases r with
  | header => exact Statement.interpreter?_reads h
  | blockComment => exact Statement.commentFence?_reads h
  | setenv => exact Statement.setenv?_reads h
  | set => exact Statement.assign?_reads h
  | cd => exact Statement.changeDirectory?_reads h
  | ifNot => exact Statement.ifNot?_reads h
  | ifTest => exact Statement.ifTest?_reads h
  | elseIf => exact Statement.elseIf?_reads h
  | elseBranch => exact Statement.elseBranch?_reads h
  | endIf => exact Statement.bareKeyword?_reads (by decide) (by decide) (by decide) rfl h
  | whileLoop => exact Statement.whileLoop?_reads h
  | foreachLoop => exact Statement.foreachLoop?_reads h
  | switchOn => exact Statement.switchOn?_reads h
  | caseArm => exact Statement.caseArm?_reads h
  | breakSwitch => exact Statement.bareKeyword?_reads (by decide) (by decide) (by decide) rfl h
  | defaultArm => exact Statement.defaultArm?_reads h
  | endSwitch => exact Statement.bareKeyword?_reads (by decide) (by decide) (by decide) rfl h
  | endLoop => exact Statement.bareKeyword?_reads (by decide) (by decide) (by decide) rfl h
  | «alias» => exact Statement.alias?_reads h
  | unalias => exact Statement.unalias?_reads h
  | goto => exact Statement.jump?_reads h
  | label => exact Statement.label?_reads h
  | source => exact Statement.source?_reads h
  | passthrough => exact absurd rfl hr

/-- The statement of `select` is of the kind of its rule, and its texts come from the line. -/
theorem select_reads (table : List Rule) (s : Text) :
    (select table s).1 ∈ (select table s).2.rules ∧ ∀ t ∈ (select table s).2.parts, t ⊆ s := by
  cases hfind : table.findSome? fun r => (r.recognize? s).map (r, ·) with
  | none => simp [select, hfind, Statement.rules, Statement.parts]
  | some found =>
    obtain ⟨r, _, hr⟩ := List.exists_of_findSome?_eq_some hfind
    obtain ⟨st, hst, rfl⟩ := Option.map_eq_some_iff.1 hr
    have hselect : select table s = (r, st) := by simp [select, hfind]
    rw [hselect]
    by_cases hpass : r = .passthrough
    · subst hpass
      simp only [recognize?, Option.some.injEq] at hst
      subst hst
      simp [Statement.rules, Statement.parts]
    · have hreads := recognize?_reads hpass hst
      exact ⟨hreads.kind, hreads.parts⟩

end Rule
end Seashell
