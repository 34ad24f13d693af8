import Seashell.Proofs.Scan
import Seashell.Rule

set_option autoImplicit false

/-! # The opening of a line

A line begins with a name, perhaps an empty one. The name and the character after it tell which rule
can recognise the line (`Rule.ofOpening`): no two rules share an opening, but for a default arm,
which may also be read as a label. Most keywords belong to one rule, and `Rule.ofKeyword` is the
table of these; `Rule.called` has what the others depend on, such as the negation behind an `if` and
the colon of a label.

What the recognisers of the rules have in common is that they read a keyword and then something that
ends a name (`Text.Parts`): a blank, a mark or nothing. `Rule.ofOpening_keyword` says that a text
read in this way has the opening of the rule. That a rule recognises only lines with its own opening
is proved from it, rule by rule, in the module on recognition. -/

namespace Seashell

open Text Statement

/-! ## The rule that an opening calls for -/

/-- The rules of the keywords that belong to one rule only. -/
def Rule.ofKeyword : List (Text × Rule) :=
  [("setenv".toList, .setenv), ("set".toList, .set), ("cd".toList, .cd), ("endif".toList, .endIf),
    ("while".toList, .whileLoop), ("foreach".toList, .foreachLoop), ("switch".toList, .switchOn),
    ("case".toList, .caseArm), ("breaksw".toList, .breakSwitch), ("default".toList, .defaultArm),
    ("endsw".toList, .endSwitch), ("end".toList, .endLoop), ("alias".toList, .alias),
    ("unalias".toList, .unalias), ("goto".toList, .goto), ("source".toList, .source)]

/-- The rule for a line that begins with a name and goes on with `rest`. -/
def Rule.called (name rest : Text) : Rule :=
  if rest.head? = some ':' then
    if name = [] then .blockComment else if name = "default".toList then .defaultArm else .label
  else if name = [] then .header
  else if name = "END".toList then .blockComment
  else if name = "if".toList then
    if (trimStart rest).head? = some '!' then .ifNot else .ifTest
  else if name = "else".toList then if allBlank rest then .elseBranch else .elseIf
  else (ofKeyword.lookup name).getD .passthrough

/-- The only rule, besides `label` and `passthrough`, that can recognise a line. -/
def Rule.ofOpening (s : Text) : Rule :=
  called (s.takeWhile isNameChar) (s.dropWhile isNameChar)

theorem Rule.ofOpening_append {name rest : Text} (hname : name.all isNameChar = true)
    (hrest : stops isNameChar rest = true) : ofOpening (name ++ rest) = called name rest := by
  have hname := List.all_eq_true.1 hname
  rw [ofOpening, takeWhile_append_of_stops hname hrest, dropWhile_append_of_stops hname hrest]

theorem Rule.called_keyword {name rest : Text} {r : Rule} (hr : ofKeyword.lookup name = some r)
    (hrest : rest.head? ≠ some ':') : called name rest = r := by
  have hnone : ∀ n ∈ [[], "END".toList, "if".toList, "else".toList], ofKeyword.lookup n = none := by
    decide
  have hname : ∀ n ∈ [[], "END".toList, "if".toList, "else".toList], name ≠ n := by
    intro n hn he
    rw [he, hnone n hn] at hr
    cases hr
  simp only [List.forall_mem_cons] at hname
  obtain ⟨hnil, hend, hif, helse, _⟩ := hname
  rw [called, if_neg hrest, if_neg hnil, if_neg hend, if_neg hif, if_neg helse, hr, Option.getD_some]

/-! ## What may stand after a name -/

/-- The code points of the characters of a name, those of `isNameChar`. -/
theorem Text.toNat_of_isNameChar {c : Char} (h : isNameChar c = true) :
    65 ≤ c.toNat ∧ c.toNat ≤ 90 ∨ 97 ≤ c.toNat ∧ c.toNat ≤ 122 ∨ 48 ≤ c.toNat ∧ c.toNat ≤ 57 ∨
      c.toNat = 95 := by
  rw [isNameChar, Char.isAlphanum] at h
  delta Char.isAlpha Char.isUpper Char.isLower Char.isDigit at h
  simp only [ge_iff_le, UInt32.le_iff_toNat_le, Bool.or_eq_true, Bool.and_eq_true,
    decide_eq_true_eq, beq_iff_eq] at h
  rcases h with ((h | h) | h) | rfl
  · exact .inl h
  · exact .inr (.inl h)
  · exact .inr (.inr (.inl h))
  · exact .inr (.inr (.inr rfl))

/-- A blank is no part of a name. -/
theorem Text.isNameChar_of_isBlank {c : Char} (h : isBlank c = true) : isNameChar c = false := by
  cases hname : isNameChar c with
  | false => rfl
  | true =>
    have hcode := toNat_of_isNameChar hname
    simp only [isBlank, Bool.or_eq_true, Bool.and_eq_true, decide_eq_true_eq, beq_iff_eq] at h
    omega

/-- The blanks beyond ASCII, as `isBlank` has them. -/
def Text.wideBlanks : List Nat :=
  [0x85, 0xA0, 0x1680, 0x2000, 0x2001, 0x2002, 0x2003, 0x2004, 0x2005, 0x2006, 0x2007, 0x2008,
    0x2009, 0x200A, 0x2028, 0x2029, 0x202F, 0x205F, 0x3000]

/-- No blank is a word character. -/
theorem Text.isWordChar_of_isBlank {c : Char} (h : isBlank c = true) : isWordChar c = false := by
  rw [isWordChar]
  split
  · exact isNameChar_of_isBlank h
  · rename_i hwide
    have hranges : ∀ n ∈ wideBlanks, inRanges wordRanges n = false := by decide +kernel
    refine hranges c.toNat ?_
    simp only [isBlank, Bool.or_eq_true, Bool.and_eq_true, decide_eq_true_eq, beq_iff_eq] at h
    simp only [wideBlanks, List.mem_cons, List.not_mem_nil, or_false]
    omega

theorem Text.isNameChar_of_isNameStart {c : Char} (h : isNameStart c = true) :
    isNameChar c = true := by
  simp only [isNameStart, isNameChar, Char.isAlphanum, Bool.or_eq_true] at h ⊢
  exact h.imp_left .inl

theorem Text.forall_of_isName {name : Text} (h : isName name = true) :
    ∀ c ∈ name, isNameChar c = true := by
  cases name with
  | nil => simp
  | cons c cs =>
    simp only [isName, Bool.and_eq_true, List.all_eq_true] at h
    exact List.forall_mem_cons.2 ⟨isNameChar_of_isNameStart h.1, h.2⟩

/-- The text `rest` ends a name and does not make it a label. -/
def Text.Parts (rest : Text) : Prop := stops isNameChar rest = true ∧ rest.head? ≠ some ':'

theorem Text.Parts.of_blanks_append {g rest : Text} (hg : ∀ c ∈ g, isBlank c = true)
    (hrest : g = [] → Parts rest) : Parts (g ++ rest) := by
  cases g with
  | nil => exact hrest rfl
  | cons c cs =>
    have hc : isBlank c = true := hg c List.mem_cons_self
    refine ⟨by simp [isNameChar_of_isBlank hc], fun h => ?_⟩
    have : c = ':' := by simpa using h
    subst this
    exact absurd hc (by decide)

theorem Text.Parts.of_gap? {s rest : Text} (h : gap? s = some rest) : Parts s := by
  obtain ⟨g, hne, hg, _, rfl⟩ := gap?_eq_some_iff.1 h
  exact .of_blanks_append hg fun he => absurd he hne

theorem Text.Parts.of_afterMark? {c : Char} {s rest : Text} (hb : isBlank c = false)
    (hc : Parts [c]) (h : afterMark? c s = some rest) : Parts s := by
  obtain ⟨g, hg, rfl⟩ := (afterMark?_eq_some_iff hb).1 h
  exact .of_blanks_append hg fun _ => hc

theorem Text.Parts.of_allBlank {s : Text} (h : ∀ c ∈ s, isBlank c = true) : Parts s := by
  have hs : Parts (s ++ []) := .of_blanks_append h fun _ => ⟨rfl, by simp⟩
  rwa [List.append_nil] at hs

/-- A keyword of `ofKeyword`, and something that ends it, call for its rule. -/
theorem Rule.ofOpening_keyword {name rest : Text} {r : Rule}
    (hname : name.all isNameChar = true) (hr : ofKeyword.lookup name = some r)
    (hrest : Parts rest) : ofOpening (name ++ rest) = r := by
  rw [ofOpening_append hname hrest.1, called_keyword hr hrest.2]

end Seashell
