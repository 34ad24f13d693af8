import Seashell.Proofs.RuleOrder
import Seashell.Report.Analysis

set_option autoImplicit false

/-! # Compound conditions

Four rules read a condition in parentheses (`Rule.conditional`). Two of them, for loops and negated
tests, take the condition over as it is worded, and the other two take an equality apart. The text
between the parentheses is described for all four without the scanners: what comes before it
(`Rule.Introduces`), what it is made of (`Statement.IsCondition`) and what comes behind it
(`Rule.concludes`). `Rule.Captures` has the three together, and `exists_captures` says that whatever
a rule reads is described by it.

Notice of `&&` and `||` is given by the first two rules only, so an equality that has one of them in
its variable or in its value is converted in silence: `Outcome.notices_of_condition`. -/

namespace Seashell

open Text

/-! ## Connectives in a text -/

namespace Condition

/-- A condition that `isCompound` is so in a longer text, too. -/
theorem isCompound_of_isInfix {s t : Text} (h : s <:+: t) (hs : isCompound s = true) :
    isCompound t = true := by
  simp only [isCompound, Bool.or_eq_true, hasPart_iff] at hs ⊢
  exact hs.imp (·.trans h) (·.trans h)

/-- A connective does not reach over the character `mark`, which is no part of one. -/
theorem isCompound_append_cons {mark : Char} (hmark : mark ≠ '&' ∧ mark ≠ '|') (s t : Text) :
    isCompound (s ++ mark :: t) = (isCompound s || isCompound t) := by
  rw [Bool.eq_iff_iff, Bool.or_eq_true]
  constructor
  · intro h
    simp only [isCompound, Bool.or_eq_true, hasPart_iff] at h ⊢
    rcases h with h | h
    · exact (isInfix_append_cons (by simpa using hmark.1) h).imp .inl .inl
    · exact (isInfix_append_cons (by simpa using hmark.2) h).imp .inr .inr
  · rintro (h | h)
    · exact isCompound_of_isInfix (List.prefix_append s (mark :: t)).isInfix h
    · exact isCompound_of_isInfix ⟨s ++ [mark], [], by simp⟩ h

theorem ne_of_isBlank {c : Char} (hc : isBlank c = true) : c ≠ '&' ∧ c ≠ '|' := by
  constructor <;> rintro rfl <;> exact absurd hc (by decide)

theorem isCompound_blanks_append {g : Text} (hg : ∀ c ∈ g, isBlank c = true) (s : Text) :
    isCompound (g ++ s) = isCompound s := by
  induction g with
  | nil => rfl
  | cons c g ih =>
    obtain ⟨hc, hg⟩ := List.forall_mem_cons.1 hg
    have hsplit := isCompound_append_cons (ne_of_isBlank hc) [] (g ++ s)
    rwa [ih hg, show isCompound [] = false from rfl, Bool.false_or] at hsplit

theorem isCompound_append_blanks {g : Text} (hg : ∀ c ∈ g, isBlank c = true) (s : Text) :
    isCompound (s ++ g) = isCompound s := by
  cases g with
  | nil => rw [List.append_nil]
  | cons c g =>
    obtain ⟨hc, hg⟩ := List.forall_mem_cons.1 hg
    have hblank := isCompound_blanks_append hg []
    rw [List.append_nil] at hblank
    rw [isCompound_append_cons (ne_of_isBlank hc), hblank, show isCompound [] = false from rfl,
      Bool.or_false]

end Condition

/-! ## The condition of a line -/

/-- The text `t` is the equality `e`, as an `if` may word it. -/
def Equality.IsWording (e : Equality) (t : Text) : Prop :=
  ∃ dollar g h : Text, (dollar = [] ∨ dollar = ['$']) ∧ (∀ c ∈ g, isBlank c = true) ∧
    (∀ c ∈ h, isBlank c = true) ∧
    t = dollar ++ (e.variableName ++ (g ++ ((if e.negated then '!' else '=') :: '=' :: (h ++ e.value))))

/-- An equality `isCompound` exactly if its variable or its value is. -/
theorem Equality.IsWording.isCompound {e : Equality} {t : Text} (h : e.IsWording t) :
    Condition.isCompound t =
      (Condition.isCompound e.variableName || Condition.isCompound e.value) := by
  obtain ⟨dollar, g, h, hdollar, hg, hh, rfl⟩ := h
  have hsign : (if e.negated then '!' else '=') ≠ '&' ∧ (if e.negated then '!' else '=') ≠ '|' := by
    cases e.negated <;> decide
  have hvalue : Condition.isCompound ('=' :: (h ++ e.value)) = Condition.isCompound e.value := by
    rw [← List.nil_append ('=' :: _), Condition.isCompound_append_cons (by decide),
      Condition.isCompound_blanks_append hh]
    rfl
  have hname : Condition.isCompound (dollar ++ e.variableName) =
      Condition.isCompound e.variableName := by
    rcases hdollar with rfl | rfl
    · rfl
    · exact (Condition.isCompound_append_cons (by decide) [] e.variableName).trans (Bool.false_or _)
  rw [← List.append_assoc, ← List.append_assoc, Condition.isCompound_append_cons hsign,
    Condition.isCompound_append_blanks hg, hname, hvalue]

/-- The text `t` is the condition of a statement. -/
def Statement.IsCondition (t : Text) : Statement → Prop
  | .ifNot condition | .whileLoop condition => t = condition
  | .ifTest e | .elseIf e => e.IsWording t
  | _ => False

/-- What stands before the parenthesis of a condition. -/
inductive Rule.Introduces : Rule → Text → Prop
  | ifTest {g : Text} (hg : ∀ c ∈ g, isBlank c = true) : Introduces .ifTest ("if" ++ g)
  | elseIf {g h : Text} (hne : g ≠ []) (hg : ∀ c ∈ g, isBlank c = true)
      (hh : ∀ c ∈ h, isBlank c = true) : Introduces .elseIf ("else" ++ (g ++ ("if" ++ h)))
  | ifNot {g h : Text} (hg : ∀ c ∈ g, isBlank c = true) (hh : ∀ c ∈ h, isBlank c = true) :
      Introduces .ifNot ("if" ++ (g ++ '!' :: h))
  | whileLoop {g : Text} (hg : ∀ c ∈ g, isBlank c = true) : Introduces .whileLoop ("while" ++ g)

/-- What may stand behind the parenthesis that closes a condition: nothing but blanks for a loop,
    and the word `then` otherwise. -/
def Rule.concludes : Rule → Text → Bool
  | .whileLoop, s => allBlank s
  | _, s => LineRecord.hasKeyword "then" (trimStart s)

/-- The text `condition` stands between the parentheses of a line, blanks around it left out, and
    the rule takes it for the condition. -/
structure Rule.Captures (r : Rule) (line condition : Text) : Prop where
  statement : ∃ st, r.recognize? line = some st ∧ st.IsCondition condition
  place : ∃ lead g h rest : Text, r.Introduces lead ∧ (∀ c ∈ g, isBlank c = true) ∧
    (∀ c ∈ h, isBlank c = true) ∧ r.concludes rest = true ∧
    line = lead ++ '(' :: (g ++ (condition ++ (h ++ ')' :: rest)))

namespace Statement

/-! ## What the scanners take for the condition -/

theorem closesThen_cases {s : Text} (h : closesThen s = true) :
    ∃ g rest : Text, (∀ c ∈ g, isBlank c = true) ∧
      LineRecord.hasKeyword "then" (trimStart rest) = true ∧ s = g ++ ')' :: rest := by
  obtain ⟨g, h, rest, hg, hh, hends, rfl⟩ := closesThen_iff.1 h
  refine ⟨g, _, hg, ?_, rfl⟩
  rw [trimStart_append hh rfl, LineRecord.hasKeyword, after?_append]
  exact hends

/-- What `part?` reads stands between blanks and what closes it. -/
theorem eq_append_of_part? {tail : Text → Bool} {s t : Text}
    (h : part? tail (blanks s) (trimStart s) = some t) :
    ∃ g h rest : Text, (∀ c ∈ g, isBlank c = true) ∧ (∀ c ∈ h, isBlank c = true) ∧
      tail rest = true ∧ s = g ++ (t ++ (h ++ rest)) := by
  have hblanks : ∀ c ∈ blanks s, isBlank c = true := forall_takeWhile isBlank s
  rcases Option.or_eq_some_iff.1 h with h | ⟨_, h⟩
  · obtain ⟨rest, htail, hs⟩ := eq_append_of_shortest? h
    refine ⟨blanks s, [], rest, hblanks, by simp, htail, ?_⟩
    rw [List.nil_append, ← hs, blanks_append_trimStart]
  · -- one of the blanks before the closing is the part
    obtain ⟨htail, h⟩ := Option.ite_none_right_eq_some.1 h
    obtain ⟨c, hc, rfl⟩ := Option.map_eq_some_iff.1 h
    have hmem : c ∈ blanks s := (List.mem_filter.1 (List.mem_of_getLast? hc)).1
    obtain ⟨g, h, hsplit⟩ := List.append_of_mem hmem
    rw [hsplit] at hblanks
    refine ⟨g, h, trimStart s, fun c hc => hblanks c (by simp [hc]),
      fun c hc => hblanks c (by simp [hc]), htail, ?_⟩
    have hs := blanks_append_trimStart s
    rw [hsplit] at hs
    simpa using hs.symm

/-- The equality of an `if` stands between its parentheses. -/
theorem eq_append_of_equalityThen? {s : Text} {e : Equality} (h : equalityThen? s = some e) :
    ∃ g₀ g t h rest : Text, (∀ c ∈ g₀, isBlank c = true) ∧ (∀ c ∈ g, isBlank c = true) ∧
      (∀ c ∈ h, isBlank c = true) ∧ e.IsWording t ∧
      LineRecord.hasKeyword "then" (trimStart rest) = true ∧
      s = g₀ ++ '(' :: (g ++ (t ++ (h ++ ')' :: rest))) := by
  simp only [equalityThen?, Option.bind_eq_bind, Option.pure_def, Option.bind_eq_some_iff,
    Option.some.injEq] at h
  obtain ⟨s₁, h₁, ⟨name, s₂⟩, h₂, ⟨negated, s₃⟩, h₃, value, h₄, rfl⟩ := h
  obtain ⟨g₀, hg₀, rfl⟩ := (afterMark?_eq_some_iff (by decide)).1 h₁
  obtain ⟨dollar, hdollar, hname⟩ := eq_append_of_variableRun? h₂
  have hsign := eq_cons_of_equalitySign? h₃
  obtain ⟨rest, hclose, hvalue⟩ := eq_append_of_closingValue? h₄
  obtain ⟨h, after, hh, hthen, rfl⟩ := closesThen_cases hclose
  refine ⟨g₀, blanks s₁, _, h, after, hg₀, forall_takeWhile isBlank s₁, hh,
    ⟨dollar, blanks s₂, blanks s₃, hdollar, forall_takeWhile isBlank s₂,
      forall_takeWhile isBlank s₃, rfl⟩, hthen, ?_⟩
  -- the text is put together again from the blanks and what the scanners took off
  have hs₁ := blanks_append_trimStart s₁
  have hs₂ := blanks_append_trimStart s₂
  have hs₃ := blanks_append_trimStart s₃
  dsimp only at hname hsign hvalue ⊢
  rw [hvalue] at hs₃
  rw [hsign, ← hs₃] at hs₂
  rw [hname, ← hs₂] at hs₁
  refine congrArg (g₀ ++ '(' :: ·) (hs₁.symm.trans ?_)
  simp only [List.append_assoc, List.cons_append]

end Statement

namespace Rule

/-- The rules that read a condition. -/
def conditional : List Rule := [.ifTest, .elseIf, .ifNot, .whileLoop]

/-- **Every condition that is read stands between parentheses**, in the way that the rule says. -/
theorem exists_captures {r : Rule} {line : Text} {st : Statement} (hr : r ∈ conditional)
    (h : r.recognize? line = some st) : ∃ condition, r.Captures line condition := by
  have hst := h
  simp only [conditional, List.mem_cons, List.not_mem_nil, or_false] at hr
  rcases hr with rfl | rfl | rfl | rfl
  · simp only [recognize?, Statement.ifTest?, Option.bind_eq_bind, Option.pure_def,
      Option.bind_eq_some_iff, Option.some.injEq] at h
    obtain ⟨s₀, h₀, e, he, rfl⟩ := h
    obtain ⟨g₀, g, t, h, rest, hg₀, hg, hh, ht, hthen, rfl⟩ :=
      Statement.eq_append_of_equalityThen? he
    refine ⟨t, ⟨_, hst, ht⟩, "if" ++ g₀, g, h, rest, .ifTest hg₀, hg, hh, hthen, ?_⟩
    rw [after?_eq_some_iff.1 h₀, List.append_assoc]
  · simp only [recognize?, Statement.elseIf?, Option.bind_eq_bind, Option.pure_def,
      Option.bind_eq_some_iff, Option.some.injEq] at h
    obtain ⟨s₁, ⟨s₀, h₀, h₁⟩, s₂, h₂, e, he, rfl⟩ := h
    obtain ⟨g₁, hne, hg₁, _, rfl⟩ := gap?_eq_some_iff.1 h₁
    obtain ⟨g₀, g, t, h, rest, hg₀, hg, hh, ht, hthen, rfl⟩ :=
      Statement.eq_append_of_equalityThen? he
    refine ⟨t, ⟨_, hst, ht⟩, "else" ++ (g₁ ++ ("if" ++ g₀)), g, h, rest, .elseIf hne hg₁ hg₀, hg, hh,
      hthen, ?_⟩
    rw [after?_eq_some_iff.1 h₀, after?_eq_some_iff.1 h₂]
    simp only [List.append_assoc]
  · simp only [recognize?, Statement.ifNot?, Option.bind_eq_bind, Option.pure_def,
      Option.bind_eq_some_iff, Option.some.injEq] at h
    obtain ⟨s₀, h₀, s₁, h₁, s₂, h₂, condition, hpart, rfl⟩ := h
    obtain ⟨g₁, hg₁, rfl⟩ := (Statement.afterMark?_eq_some_iff (by decide)).1 h₁
    obtain ⟨g₂, hg₂, rfl⟩ := (Statement.afterMark?_eq_some_iff (by decide)).1 h₂
    obtain ⟨g, h, rest, hg, hh, hclose, rfl⟩ := Statement.eq_append_of_part? hpart
    obtain ⟨h', rest, hh', hthen, rfl⟩ := Statement.closesThen_cases hclose
    refine ⟨condition, ⟨_, hst, rfl⟩, "if" ++ (g₁ ++ '!' :: g₂), g, h ++ h', rest, .ifNot hg₁ hg₂, hg,
      fun c hc => (List.mem_append.1 hc).elim (hh c) (hh' c), hthen, ?_⟩
    rw [after?_eq_some_iff.1 h₀]
    simp only [List.append_assoc, List.cons_append]
  · simp only [recognize?, Statement.whileLoop?, Option.bind_eq_bind, Option.pure_def,
      Option.bind_eq_some_iff, Option.some.injEq] at h
    obtain ⟨s₀, h₀, s₁, h₁, condition, hpart, rfl⟩ := h
    obtain ⟨g₁, hg₁, rfl⟩ := (Statement.afterMark?_eq_some_iff (by decide)).1 h₁
    obtain ⟨g, h, rest, hg, hh, hclose, rfl⟩ := Statement.eq_append_of_part? hpart
    obtain ⟨h', rest, hh', hrest, rfl⟩ := (Statement.closesLine_iff (by decide)).1 hclose
    refine ⟨condition, ⟨_, hst, rfl⟩, "while" ++ g₁, g, h ++ h', rest, .whileLoop hg₁, hg,
      fun c hc => (List.mem_append.1 hc).elim (hh c) (hh' c), allBlank_iff.2 hrest, ?_⟩
    rw [after?_eq_some_iff.1 h₀]
    simp only [List.append_assoc]

end Rule

/-! ## Notices -/

namespace Statement

/-- The `Equality` that a statement takes apart. -/
def equality? : Statement → Option Equality
  | .ifTest e | .elseIf e => some e
  | _ => none

/-- A statement gives notice of its condition if it takes it over as it is worded, and `isCompound`
    holds of it. -/
theorem notices_of_isCondition {st : Statement} {r : Rule} {condition : Text} (hkind : r ∈ st.rules)
    (h : st.IsCondition condition) :
    st.notices = if r ∈ [Rule.ifNot, .whileLoop] ∧ Condition.isCompound condition = true then
      [.compound condition] else [] := by
  cases st with
  | ifNot c | whileLoop c =>
    obtain rfl : condition = c := h
    simp only [rules, List.mem_singleton] at hkind
    simp [hkind, notices, wordedCondition?]
  | ifTest e | elseIf e =>
    simp only [rules, List.mem_singleton] at hkind
    simp [hkind, notices, wordedCondition?]
  | _ => exact absurd h id

end Statement

/-- **Compound conditions are noticed in loops and negated tests, and nowhere else.** A line that a
    rule for conditions converts has its condition between parentheses (`Rule.Captures`). Notice of
    the condition is given exactly if it `isCompound` and the line is a loop or a negated test. An
    equality is compound if its variable or its value is, and it is converted without a notice. -/
theorem Outcome.notices_of_condition (block : Block) (line : Text)
    (h : (Outcome.ofLine Rule.standard block line).rule ∈ Rule.conditional) :
    let o := Outcome.ofLine Rule.standard block line
    (∃ condition, o.rule.Captures line condition) ∧
    ∀ condition, o.rule.Captures line condition →
      o.notices = (if o.rule ∈ [Rule.ifNot, .whileLoop] ∧ Condition.isCompound condition = true then
        [.compound condition] else []) ∧
      ∀ st e, o.rule.recognize? line = some st → st.equality? = some e →
        Condition.isCompound condition =
          (Condition.isCompound e.variableName || Condition.isCompound e.value) := by
  intro o
  have hreads : o.rule.recognize? line = some (Rule.select Rule.standard line).2 :=
    Rule.recognize?_select line
  refine ⟨Rule.exists_captures h hreads, fun condition hcaptures => ?_⟩
  obtain ⟨⟨st, hst, hcondition⟩, _⟩ := hcaptures
  obtain rfl : st = (Rule.select Rule.standard line).2 := Option.some.inj (hst.symm.trans hreads)
  have hkind := (Rule.select_reads Rule.standard line).1
  refine ⟨Statement.notices_of_isCondition hkind hcondition, fun st e hst' he => ?_⟩
  obtain rfl : (Rule.select Rule.standard line).2 = st := Option.some.inj (hst.symm.trans hst')
  cases hselect : (Rule.select Rule.standard line).2 with
  | ifTest e' | elseIf e' =>
    rw [hselect] at hcondition he
    obtain rfl : e' = e := Option.some.inj he
    exact Equality.IsWording.isCompound hcondition
  | _ =>
    rw [hselect] at he
    cases he

/-- A loop gives notice of the connective `&&` in its condition. -/
theorem Outcome.notices_of_condition_loop :
    (Outcome.ofLine Rule.standard .closed "while (a == b&&c)").rule ∈ Rule.conditional ∧
      Rule.Captures .whileLoop "while (a == b&&c)" "a == b&&c" ∧
      (Outcome.ofLine Rule.standard .closed "while (a == b&&c)").notices =
        [.compound "a == b&&c"] := by
  have hrule : (Outcome.ofLine Rule.standard .closed "while (a == b&&c)").rule = .whileLoop := by
    decide
  have hcaptures : Rule.Captures .whileLoop "while (a == b&&c)" "a == b&&c" :=
    ⟨⟨.whileLoop "a == b&&c", by decide, rfl⟩,
      _, [], [], [], .whileLoop (g := " ") (allBlank_iff.1 rfl), nofun, nofun, rfl, rfl⟩
  have hconditional : (Outcome.ofLine Rule.standard .closed "while (a == b&&c)").rule ∈
      Rule.conditional := by
    rw [hrule]
    decide
  obtain ⟨_, hnotices⟩ := notices_of_condition .closed "while (a == b&&c)" hconditional
  rw [hrule] at hnotices
  refine ⟨hconditional, hcaptures, (hnotices _ hcaptures).1.trans (if_pos ?_)⟩
  decide

/-- An `if` with the same condition is converted in silence. -/
theorem Outcome.connective_unnoticed :
    (Outcome.ofLine Rule.standard .closed "if (a == b&&c) then").rule = .ifTest ∧
      Rule.Captures .ifTest "if (a == b&&c) then" "a == b&&c" ∧
      Condition.isCompound "a == b&&c" = true ∧
      (Outcome.ofLine Rule.standard .closed "if (a == b&&c) then").notices = [] := by
  refine ⟨by decide, ⟨⟨.ifTest ⟨"a", false, "b&&c"⟩, by decide, ?_⟩, ?_⟩, by decide, by decide⟩
  · exact ⟨[], " ", " ", .inl rfl, allBlank_iff.1 rfl, allBlank_iff.1 rfl, rfl⟩
  · exact ⟨_, [], [], " then", .ifTest (g := " ") (allBlank_iff.1 rfl), nofun, nofun, by decide, rfl⟩

end Seashell
