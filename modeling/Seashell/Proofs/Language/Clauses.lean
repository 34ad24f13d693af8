import Seashell.Proofs.Language.Tokens
import Seashell.Proofs.Output

set_option autoImplicit false

/-! # Clauses of a condition

A `Clause` compares two operands, and a condition (`Chain`) is made of clauses and of connectives
between them. An operand (`Term`) may be quoted and then hold anything, relations and connectives
among it; each kind carries the proof that its text ends where the reader takes it to end. `text` is
what stands in a program, and `test` what stands in the converted one.

A clause is read back from its text in front of anything that cannot be part of its last operand
(`Clause.testComparisons_append`), and all that cannot begin an operand is kept
(`testComparisons_kept`). So the clauses of a condition are converted one by one, by induction over
its links (`testComparisons_links`), while all that stands between them stays: `toTest_chain`. -/

namespace Seashell

open Text

namespace Csh

/-! ## Operands -/

/-- An operand of a clause: a text in quotes, the output of a command, or a word without any of the
    signs that a condition is made with. -/
inductive Term where
  | double (inner : Text) (free : '"' ∉ inner) (line : unbroken inner = true)
  | single (inner : Text) (free : '\'' ∉ inner) (line : unbroken inner = true)
  | command (inner : Text) (free : ')' ∉ inner) (line : unbroken inner = true)
  | word (w : Text) (ne_nil : w ≠ [])
      (chars : ∀ c ∈ w, isBlank c = false ∧ c ∉ "<>=!()&|\"'".toList)

/-- An operand as it is written, with the quotes around it. -/
def Term.text : Term → Text
  | .double inner _ _ => '"' :: inner ++ ['"']
  | .single inner _ _ => '\'' :: inner ++ ['\'']
  | .command inner _ _ => "$(" ++ inner ++ ")"
  | .word w _ _ => w

/-- An operand without the quotes around it. -/
def Term.content : Term → Text
  | .double inner _ _ | .single inner _ _ => inner
  | .command inner _ _ => "$(" ++ inner ++ ")"
  | .word w _ _ => w

/-- What an operand on the left is in a test: the value of a variable, if its `content` is a
    name. -/
def Term.value (t : Term) : Text := if isName t.content then '$' :: t.content else t.content

theorem isOperandChar_iff {c : Char} : Condition.isOperandChar c = true ↔
    isBlank c = false ∧ c ∉ "<>=!()&|\"'".toList := by
  rw [Condition.isOperandChar, Bool.and_eq_true, Bool.not_eq_true', Bool.not_eq_true',
    ← Bool.not_eq_true, ← Bool.not_eq_true, List.contains_iff_mem]

theorem isOperandChar_of_isBlank (c : Char) (h : isBlank c = true) :
    Condition.isOperandChar c = false := by
  simp [Condition.isOperandChar, h]

theorem beq_of_isBlank {mark : Char} (hmark : isBlank mark = false) (c : Char)
    (hc : isBlank c = true) : (c == mark) = false :=
  beq_eq_false_iff_ne.2 fun he => absurd hc (by simp [he, hmark])

/-- A text that does not begin with the quote is not read by `quoted?`. -/
theorem quoted?_eq_none {q : Char} {w : Text} (hne : w ≠ []) (hq : q ∉ w) (s : Text) :
    quoted? q (w ++ s) = none := by
  obtain ⟨c, cs, rfl⟩ := List.exists_cons_of_ne_nil hne
  rw [List.cons_append, quoted?_of_head_ne]
  rintro rfl
  exact hq List.mem_cons_self

/-- `substitution?` reads nothing if a parenthesis stands neither in the first word nor right
    behind. -/
theorem substitution?_eq_none {w s : Text} (hne : w ≠ []) (hw : '(' ∉ w)
    (hs : stops (· == '(') s = true) : Condition.substitution? (w ++ s) = none := by
  cases h : Condition.substitution? (w ++ s) with
  | none => rfl
  | some found =>
    obtain ⟨inner, _, hfound, htext⟩ := Condition.substitution?_eq_some_iff.1 h
    obtain ⟨rest, hrest⟩ : ∃ rest, w ++ s = '$' :: '(' :: rest := ⟨_, by rw [htext, hfound]; rfl⟩
    match w with
    | [] => exact absurd rfl hne
    | [c] =>
      have htail : s = '(' :: rest := (List.cons.inj hrest).2
      rw [htail] at hs
      cases hs
    | c :: d :: more =>
      have hd : d = '(' := (List.cons.inj (List.cons.inj hrest).2).1
      exact absurd (by simp [hd]) hw

namespace Term

/-- `operand?` reads an operand whole in front of what can be no part of it. -/
theorem operand?_append (t : Term) {s : Text} (hs : stops Condition.isOperandChar s = true)
    (hparen : stops (· == '(') s = true) : Condition.operand? (t.text ++ s) = some (t.text, s) := by
  unfold Condition.operand?
  cases t with
  | double inner free line =>
    have hread : quoted? '"' ('"' :: inner ++ ['"'] ++ s) = some ('"' :: inner ++ ['"'], s) :=
      quoted?_eq_some_iff.2 ⟨inner, free, rfl, rfl⟩
    rw [text, hread, Option.some_or]
  | single inner free line =>
    have hread : quoted? '\'' ('\'' :: inner ++ ['\''] ++ s) = some ('\'' :: inner ++ ['\''], s) :=
      quoted?_eq_some_iff.2 ⟨inner, free, rfl, rfl⟩
    have hdouble : quoted? '"' ('\'' :: inner ++ ['\''] ++ s) = none :=
      quoted?_of_head_ne (by decide)
    rw [text, hdouble, hread, Option.none_or, Option.some_or]
  | command inner free line =>
    have hread : Condition.substitution? ("$(" ++ inner ++ ")" ++ s) =
        some ("$(" ++ inner ++ ")", s) :=
      Condition.substitution?_eq_some_iff.2 ⟨inner, free, rfl, rfl⟩
    have hquoted : ∀ q, q ≠ '$' → quoted? q ("$(" ++ inner ++ ")" ++ s) = none := by
      intro q hq
      exact quoted?_of_head_ne (Ne.symm hq)
    rw [text, hquoted '"' (by decide), hquoted '\'' (by decide), hread, Option.none_or,
      Option.none_or, Option.some_or]
  | word w ne_nil chars =>
    have hnot : ∀ c ∈ "<>=!()&|\"'".toList, c ∉ w := by
      intro c hc hm
      exact (chars c hm).2 hc
    have hread : run? Condition.isOperandChar (w ++ s) = some (w, s) := by
      refine run?_eq_some_iff.2 ⟨ne_nil, ?_, hs, rfl⟩
      intro c hc
      exact isOperandChar_iff.2 (chars c hc)
    rw [text, quoted?_eq_none ne_nil (hnot '"' (by decide)),
      quoted?_eq_none ne_nil (hnot '\'' (by decide)),
      substitution?_eq_none ne_nil (hnot '(' (by decide)) hparen, hread]
    rfl

/-- No blank and no sign of a condition begins the `text` of an operand, quotes apart. -/
theorem exists_cons (t : Term) :
    ∃ c cs, t.text = c :: cs ∧ isBlank c = false ∧ c ∉ "<>=!()&|".toList := by
  cases t with
  | double inner free line => exact ⟨'"', inner ++ ['"'], rfl, by decide, by decide⟩
  | single inner free line => exact ⟨'\'', inner ++ ['\''], rfl, by decide, by decide⟩
  | command inner free line => exact ⟨'$', '(' :: (inner ++ ")"), rfl, by decide, by decide⟩
  | word w ne_nil chars =>
    obtain ⟨c, cs, rfl⟩ := List.exists_cons_of_ne_nil ne_nil
    obtain ⟨hblank, hsign⟩ := chars c List.mem_cons_self
    refine ⟨c, cs, rfl, hblank, fun hm => hsign ?_⟩
    exact List.mem_append_left "\"'".toList hm

theorem stops_isBlank (t : Term) (s : Text) : stops isBlank (t.text ++ s) = true := by
  obtain ⟨c, cs, htext, hc, _⟩ := t.exists_cons
  simp [htext, hc]

theorem stops_beq (t : Term) {mark : Char} (s : Text) (h : mark ∈ "<>=!()&|".toList) :
    stops (· == mark) (t.text ++ s) = true := by
  obtain ⟨c, cs, htext, _, hc⟩ := t.exists_cons
  have hne : c ≠ mark := by
    rintro rfl
    exact hc h
  simp [htext, hne]

/-- No blank ends the `text` of an operand. -/
theorem exists_getLast? (t : Term) : ∃ d, t.text.getLast? = some d ∧ isBlank d = false := by
  cases t with
  | double inner free line => exact ⟨'"', List.getLast?_concat, by decide⟩
  | single inner free line => exact ⟨'\'', List.getLast?_concat, by decide⟩
  | command inner free line => exact ⟨')', List.getLast?_concat, by decide⟩
  | word w ne_nil chars =>
    exact ⟨w.getLast ne_nil, List.getLast?_eq_some_getLast ne_nil,
      (chars _ (List.getLast_mem ne_nil)).1⟩

theorem unquote_text (t : Term) : unquote t.text = t.content := by
  cases t with
  | double inner free line => exact unquote_quoted (.inl rfl) inner
  | single inner free line => exact unquote_quoted (.inr rfl) inner
  | command inner free line => exact unquote_command inner
  | word w ne_nil chars =>
    have hquote : ∀ q, q = '"' ∨ q = '\'' → w.head? ≠ some q := by
      intro q hq he
      refine (chars q (List.mem_of_head? he)).2 ?_
      rcases hq with rfl | rfl
      · decide
      · decide
    exact unquote_of_head? (hquote _ (.inl rfl)) (hquote _ (.inr rfl))

theorem not_mem_content (t : Term) : '\n' ∉ t.content := by
  cases t with
  | double inner free line => exact (unbroken_iff.1 line).1
  | single inner free line => exact (unbroken_iff.1 line).1
  | command inner free line => simpa [content] using (unbroken_iff.1 line).1
  | word w ne_nil chars =>
    intro hm
    exact absurd (chars _ hm).1 (by decide)

theorem namesVariable_content (t : Term) : Condition.namesVariable t.content = isName t.content := by
  have hfeed : (t.content.getLast? == some '\n') = false := by
    refine beq_eq_false_iff_ne.2 fun h => ?_
    exact t.not_mem_content (List.mem_of_getLast? h)
  rw [Condition.namesVariable, hfeed, Bool.false_and, Bool.or_false]

theorem leftOperand_text (t : Term) :
    Condition.leftOperand t.text = "\"" ++ t.value ++ "\"" := by
  simp only [Condition.leftOperand, unquote_text, namesVariable_content, value]

theorem rightOperand_text (t : Term) :
    Condition.rightOperand t.text = "\"" ++ t.content ++ "\"" := by
  rw [Condition.rightOperand, unquote_text]

end Term

/-! ## Clauses -/

/-- A clause: two operands and the relation between them, with any blanks around it. -/
structure Clause where
  left : Term
  before : Pad
  relation : Condition.Relation
  after : Pad
  right : Term

/-- A clause as it is written, with the `symbol` of its relation. -/
def Clause.text (c : Clause) : Text :=
  c.left.text ++ (c.before.text ++ (c.relation.symbol ++ (c.after.text ++ c.right.text)))

/-- A clause in a test: the `value` of the left operand and the `content` of the right one, both in
    quotes. -/
def Clause.test (c : Clause) : Text :=
  "\"" ++ c.left.value ++ "\" " ++ c.relation.test ++ " \"" ++ c.right.content ++ "\""

theorem relation?_append (r : Condition.Relation) {s : Text} (hs : stops (· == '=') s = true) :
    Condition.relation? (r.symbol ++ s) = some (r, s) := by
  cases s with
  | nil => cases r <;> rfl
  | cons c cs =>
    have hc : c ≠ '=' := by simpa using hs
    cases r with
    | lt => simp [Condition.Relation.symbol, Condition.relation?, hc]
    | gt => simp [Condition.Relation.symbol, Condition.relation?, hc]
    | _ => rfl

/-- The `symbol` of a relation stops every class that has none of its characters. -/
theorem stops_symbol_append {q : Char → Bool} (r : Condition.Relation) (s : Text)
    (hq : "=!<>".toList.all (!q ·) = true) : stops q (r.symbol ++ s) = true := by
  have hq := List.all_eq_true.1 hq
  cases r <;> exact hq _ (by decide)

/-- `comparison?` reads two operands and their relation, whatever blanks stand around it. -/
theorem Term.comparison?_append (left : Term) {p q : Text} (r : Condition.Relation) (right : Term)
    {s : Text} (hp : ∀ c ∈ p, isBlank c = true) (hq : ∀ c ∈ q, isBlank c = true)
    (hs : stops Condition.isOperandChar s = true) (hparen : stops (· == '(') s = true) :
    Condition.comparison? (left.text ++ (p ++ (r.symbol ++ (q ++ (right.text ++ s))))) =
      some (⟨left.text, r, right.text⟩, s) := by
  have hleft := left.operand?_append (s := p ++ (r.symbol ++ (q ++ (right.text ++ s))))
    (stops_blanks_append hp isOperandChar_of_isBlank (stops_symbol_append _ _ (by decide)))
    (stops_blanks_append hp (beq_of_isBlank (by decide)) (stops_symbol_append _ _ (by decide)))
  have hrelation := relation?_append r (s := q ++ (right.text ++ s))
    (stops_blanks_append hq (beq_of_isBlank (by decide)) (right.stops_beq s (by decide)))
  have hsymbol : stops isBlank (r.symbol ++ (q ++ (right.text ++ s))) = true :=
    stops_symbol_append _ _ (by decide)
  simp only [Condition.comparison?, hleft, Option.bind_eq_bind, Option.bind_some,
    trimStart_append hp hsymbol, hrelation, trimStart_append hq (right.stops_isBlank s),
    right.operand?_append hs hparen, Option.pure_def]

namespace Clause

theorem stops_isBlank (c : Clause) (s : Text) : stops isBlank (c.text ++ s) = true := by
  rw [text, List.append_assoc]
  exact c.left.stops_isBlank _

theorem exists_getLast? (c : Clause) : ∃ d, c.text.getLast? = some d ∧ isBlank d = false := by
  obtain ⟨d, hlast, hd⟩ := c.right.exists_getLast?
  exact ⟨d, by simp [text, List.getLast?_append, hlast], hd⟩

/-- `testComparisons` writes a clause as its test in front of what can be no part of its last
    operand. -/
theorem testComparisons_append (c : Clause) {s : Text}
    (hs : stops Condition.isOperandChar s = true) (hparen : stops (· == '(') s = true) :
    Condition.testComparisons (c.text ++ s) = c.test ++ Condition.testComparisons s := by
  have hread : Condition.comparison? (c.text ++ s) =
      some (⟨c.left.text, c.relation, c.right.text⟩, s) := by
    simp only [text, List.append_assoc]
    exact c.left.comparison?_append c.relation c.right c.before.isBlank_of_mem
      c.after.isBlank_of_mem hs hparen
  have htest : Condition.Comparison.test ⟨c.left.text, c.relation, c.right.text⟩ = c.test := by
    unfold Condition.Comparison.test test
    rw [Term.leftOperand_text, Term.rightOperand_text]
    simp
  obtain ⟨first, rest, htext⟩ : ∃ first rest, c.text ++ s = first :: rest := by
    obtain ⟨first, rest, htext, _⟩ := c.left.exists_cons
    exact ⟨first, _, by rw [text, htext]; rfl⟩
  rw [htext] at hread ⊢
  rw [Condition.testComparisons_cons_of_some hread, htest]

end Clause

/-! ## Connectives -/

/-- What joins two clauses. -/
inductive Connective where
  | and | or

/-- A connective as it is written. -/
def Connective.text : Connective → Text
  | .and => "&&"
  | .or => "||"

/-- A clause with the connective before it, and any blanks around that. -/
structure Link where
  before : Pad
  connective : Connective
  after : Pad
  clause : Clause

namespace Link

/-- What stands before the clause of a link: the connective with the blanks around it. -/
def joint (l : Link) : Text := l.before.text ++ (l.connective.text ++ l.after.text)

/-- A link as it is written, its `joint` and its clause. -/
def text (l : Link) : Text := l.joint ++ l.clause.text

/-- A link in a test: the `joint` stays as it is. -/
def test (l : Link) : Text := l.joint ++ l.clause.test

theorem mem_joint {l : Link} {c : Char} (h : c ∈ l.joint) :
    isBlank c = true ∨ c ∈ "&|".toList := by
  have hsigns : l.connective.text ⊆ "&|".toList := by
    cases l.connective with
    | and => decide
    | or => decide
  simp only [joint, List.mem_append] at h
  rcases h with h | h | h
  · exact .inl (l.before.isBlank_of_mem c h)
  · exact .inr (hsigns h)
  · exact .inl (l.after.isBlank_of_mem c h)

/-- A class without blanks and connectives stops at the `text` of a link. -/
theorem stops_append (l : Link) {q : Char → Bool} (s : Text)
    (hblank : ∀ c, isBlank c = true → q c = false) (hsigns : "&|".toList.all (!q ·) = true) :
    stops q (l.text ++ s) = true := by
  have hsigns := List.all_eq_true.1 hsigns
  have hq : ∀ c ∈ l.joint, q c = false := by
    intro c hc
    rcases mem_joint hc with hc | hc
    · exact hblank c hc
    · simpa using hsigns c hc
  have hne : l.joint ≠ [] := by
    cases h : l.connective <;> simp [joint, h, Connective.text]
  rw [text, List.append_assoc, Text.stops_append _ hne]
  exact stops_of_forall hq

end Link

/-- Neither a blank nor a connective begins what `operand?` reads. -/
theorem operand?_eq_none {c : Char} (s : Text) (hc : isBlank c = true ∨ c ∈ "&|".toList) :
    Condition.operand? (c :: s) = none := by
  have hne : ∀ mark, isBlank mark = false → mark ∉ "&|".toList → c ≠ mark := by
    rintro mark hblank hsign rfl
    rcases hc with hc | hc
    · rw [hc] at hblank
      cases hblank
    · exact hsign hc
  have hsubstitution : Condition.substitution? (c :: s) = none := by
    unfold Condition.substitution?
    split
    · rename_i heq
      exact absurd (List.cons.inj heq).1 (hne '$' (by decide) (by decide))
    · rfl
  have hrun : run? Condition.isOperandChar (c :: s) = none := by
    have hchar : Condition.isOperandChar c = false := by
      rcases hc with hc | hc
      · exact isOperandChar_of_isBlank c hc
      · have hsigns : "&|".toList.all (!Condition.isOperandChar ·) = true := by decide
        simpa using List.all_eq_true.1 hsigns c hc
    simp [run?, hchar]
  rw [Condition.operand?, quoted?_of_head_ne (hne '"' (by decide) (by decide)),
    quoted?_of_head_ne (hne '\'' (by decide) (by decide)), hsubstitution, hrun]
  rfl

/-- `testComparisons` keeps what cannot begin an operand. -/
theorem testComparisons_kept {g : Text} (s : Text)
    (hg : ∀ c ∈ g, isBlank c = true ∨ c ∈ "&|".toList) :
    Condition.testComparisons (g ++ s) = g ++ Condition.testComparisons s := by
  induction g with
  | nil => rfl
  | cons c g ih =>
    obtain ⟨hc, hg⟩ := List.forall_mem_cons.1 hg
    have hnone : Condition.comparison? (c :: (g ++ s)) = none := by
      rw [Condition.comparison?, operand?_eq_none _ hc]
      rfl
    rw [List.cons_append, Condition.testComparisons_cons_of_none hnone, ih hg, List.cons_append]

/-- Behind a clause there is nothing, or the next link. -/
theorem stops_links (links : List Link) {q : Char → Bool}
    (hblank : ∀ c, isBlank c = true → q c = false) (hsigns : "&|".toList.all (!q ·) = true) :
    stops q (links.flatMap Link.text) = true := by
  cases links with
  | nil => rfl
  | cons next more => exact next.stops_append _ hblank hsigns

/-- `testComparisons` converts the links of a condition one by one. -/
theorem testComparisons_links (links : List Link) :
    Condition.testComparisons (links.flatMap Link.text) = links.flatMap Link.test := by
  induction links with
  | nil => simp
  | cons link links ih =>
    have hclause := link.clause.testComparisons_append
      (stops_links links isOperandChar_of_isBlank (by decide))
      (stops_links links (beq_of_isBlank (by decide)) (by decide))
    rw [List.flatMap_cons, List.flatMap_cons, Link.text, List.append_assoc,
      testComparisons_kept _ fun c => Link.mem_joint, hclause, ih, Link.test, List.append_assoc]

/-- A condition: one or more clauses with connectives between them, and any blanks around it all. -/
structure Chain where
  lead : Pad
  first : Clause
  links : List Link
  trail : Pad

namespace Chain

/-- A condition as it is written, the blanks of `lead` and `trail` included. -/
def text (c : Chain) : Text :=
  c.lead.text ++ (c.first.text ++ c.links.flatMap Link.text ++ c.trail.text)

/-- A condition in a test: without the blanks around it, each clause on its own, and all that stands
    between the clauses as it is. -/
def test (c : Chain) : Text := c.first.test ++ c.links.flatMap Link.test

theorem exists_getLast? (c : Chain) :
    ∃ d, (c.first.text ++ c.links.flatMap Link.text).getLast? = some d ∧ isBlank d = false := by
  rcases List.eq_nil_or_concat c.links with hlinks | ⟨links, last, hlinks⟩
  · obtain ⟨d, hlast, hd⟩ := c.first.exists_getLast?
    exact ⟨d, by simpa [hlinks] using hlast, hd⟩
  · obtain ⟨d, hlast, hd⟩ := last.clause.exists_getLast?
    exact ⟨d, by simp [hlinks, Link.text, List.getLast?_append, hlast], hd⟩

/-- **A condition is converted clause by clause**: by `toTest` the blanks around it go, each
    comparison becomes its test, and the connectives with the blanks around them stay. -/
theorem toTest_chain (c : Chain) : Condition.toTest c.text = c.test := by
  obtain ⟨d, hlast, hd⟩ := c.exists_getLast?
  have hstart : stops isBlank (c.first.text ++ c.links.flatMap Link.text ++ c.trail.text) = true := by
    rw [List.append_assoc]
    exact c.first.stops_isBlank _
  have htrim : trim c.text = c.first.text ++ c.links.flatMap Link.text := by
    rw [text, trim, trimStart_append c.lead.isBlank_of_mem hstart,
      trimEnd_append (stops_reverse hlast hd) c.trail.isBlank_of_mem]
  have hfirst := c.first.testComparisons_append
    (stops_links c.links isOperandChar_of_isBlank (by decide))
    (stops_links c.links (beq_of_isBlank (by decide)) (by decide))
  rw [Condition.toTest, htrim, hfirst, testComparisons_links, test]

-- a quoted operand keeps the connective and the relation in it
example : Condition.toTest " \"a&&b<c\"==x ||y <= $(wc f)\t" =
    "\"a&&b<c\" = \"x\" ||\"$y\" -le \"$(wc f)\"".toList := by decide +kernel

end Chain
end Csh
end Seashell
