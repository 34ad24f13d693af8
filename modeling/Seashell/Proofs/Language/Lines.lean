import Seashell.Proofs.Language.Conditions
import Seashell.Proofs.Trace

set_option autoImplicit false

/-! # Lines of C shell programs

The lines that a program is made of, in both shells: a `Simple` statement takes one line, and a
`Question` is what an `if` asks. A `Layout` has the blanks of a line, so that each line is printed
with any blanks between its tokens, and a `Plain` command is one that no rule has anything to say
about.

A line is read back by the rule of its kind. `Writes` says of a text that the rules take it for a
statement which writes the given lines and leaves the function block. It holds of a line that begins
with a keyword if the rule of the keyword recognises it (`Writes.of_recognize?`), since no other
rule does, and this gives one lemma for each kind of line. `Writes.ofRaw_line` then says what a step
on the line does, with its indentation put back. Programs are made of such steps. -/

namespace Seashell

open Text

namespace Csh

/-! ## Lines in both shells -/

/-- The blanks of a line: its indentation, and those between its tokens. -/
structure Layout where
  indent : Pad
  gap : Nat → Gap
  pad : Nat → Pad

/-- A text on a line of its own, behind the `indent`. -/
def Layout.line (y : Layout) (s : Text) : Text := y.indent.text ++ s

/-- A text in parentheses, and the `tail` that follows them. -/
def Layout.enclose (y : Layout) (s tail : Text) : Text :=
  (y.pad 0).text ++
    '(' :: ((y.pad 1).text ++ (s ++ ((y.pad 2).text ++ ')' :: ((y.pad 3).text ++ tail))))

/-- A command that no rule but `passthrough` recognises. -/
structure Plain extends Remainder where
  unmatched : ∀ r : Rule, r ≠ .passthrough → r.recognize? text = none

/-- A statement that takes one line. -/
inductive Simple where
  | setenv (name : Name) (value : Word)
  | set (name : Name) (value : Remainder)
  | cd (path : Word)
  | breakSwitch
  | alias (name : Name) (value : Words)
  | unalias (name : Name)
  | goto (label : Name)
  | gotoVariable (name : Name)
  | source (path : Remainder)
  | plain (command : Plain)

/-- A statement in the C shell, with the blanks of a `Layout`. -/
def Simple.csh (y : Layout) : Simple → Text
  | .setenv n w =>
    "setenv" ++ ((y.gap 0).text ++ (n.text ++ ((y.gap 1).text ++ (w.text ++ (y.pad 0).text))))
  | .set n t =>
    "set" ++ ((y.gap 0).text ++ (n.text ++ ((y.pad 0).text ++ '=' :: ((y.pad 1).text ++ t.text))))
  | .cd w => "cd" ++ ((y.gap 0).text ++ (w.text ++ (y.pad 0).text))
  | .breakSwitch => "breaksw" ++ (y.pad 0).text
  | .alias n ws =>
    "alias" ++ ((y.gap 0).text ++ (n.text ++ ((y.gap 1).text ++ (ws.text ++ (y.pad 0).text))))
  | .unalias n => "unalias" ++ ((y.gap 0).text ++ (n.text ++ (y.pad 0).text))
  | .goto l => "goto" ++ ((y.gap 0).text ++ (l.text ++ (y.pad 0).text))
  | .gotoVariable n => "goto" ++ ((y.gap 0).text ++ ('$' :: (n.text ++ (y.pad 0).text)))
  | .source t => "source" ++ ((y.gap 0).text ++ t.text)
  | .plain c => c.text

/-- A statement in Bash. Only a jump takes two lines, its call and `return`. -/
def Simple.bash (y : Layout) : Simple → List Text
  | .setenv n w => ["export " ++ n.text ++ "=" ++ w.text]
  | .set n t => [n.text ++ "=" ++ t.text]
  | .cd w => ["cd \"" ++ w.text ++ "\""]
  | .breakSwitch => [";;".toList]
  | .alias n ws =>
    -- a value of several words needs quotes
    ["alias " ++ n.text ++ "=" ++ if ws.more.isEmpty then ws.text else "'" ++ ws.text ++ "'"]
  | .unalias n => [Simple.csh y (.unalias n)]
  | .goto l => [l.text, "return".toList]
  | .gotoVariable n => ["eval \"$" ++ n.text ++ "\"", "return".toList]
  | .source t => [". " ++ t.text]
  | .plain c => [c.text]

/-- What an `if` asks: that a variable has a value or has another one, or that a file lacks a
    property. -/
inductive Question where
  | compare (e : Equality)
  | lacks (f : FileTest)

/-- An `if` in the C shell. -/
def Question.csh (y : Layout) : Question → Text
  | .compare e => "if" ++ y.enclose e.text ("then" ++ (y.pad 4).text)
  | .lacks f => "if" ++ ((y.pad 5).text ++ '!' :: y.enclose f.text ("then" ++ (y.pad 4).text))

/-- What an `if` asks, in a test: that a file lacks a property is asked with `!`. -/
def Question.test : Question → Text
  | .compare e => e.test
  | .lacks f => "! " ++ f.test

/-! ## Reading lines back -/

theorem firstLine_of_isPlain {s : Text} (h : isPlain s = true) : firstLine s = s :=
  firstLine_of_not_mem (not_mem_of_isPlain h)

theorem not_isBlank_of_isNameChar (c : Char) (h : isNameChar c = true) : (!isBlank c) = true := by
  rw [isBlank_of_isWordPart (isWordPart_of_isNameChar h)]
  rfl

theorem not_isBlank_of_isWordPart (c : Char) (h : isWordPart c = true) : (!isBlank c) = true := by
  rw [isBlank_of_isWordPart h]
  rfl

/-- A name may not have the mark in it that ends it. -/
theorem not_isBlank_and_bne {c mark : Char} (h : isNameChar c = true)
    (hmark : isWordPart mark = false) : (!isBlank c && c != mark) = true := by
  have hc := isWordPart_of_isNameChar h
  simp [isBlank_of_isWordPart hc, ne_of_isWordPart hc hmark]

theorem setenv?_append (g h : Gap) (p : Pad) (n : Name) (w : Word) :
    Statement.setenv? ("setenv" ++ (g.text ++ (n.text ++ (h.text ++ (w.text ++ p.text))))) =
      some (.setenv n.text w.text) := by
  have hname := n.run?_append not_isBlank_of_isNameChar
    (h.stops_append (q := (!isBlank ·)) (w.text ++ p.text) (by simp))
  have hvalue := w.run?_append not_isBlank_of_isWordPart
    (p.stops_text (q := (!isBlank ·)) (by simp))
  simp only [Statement.setenv?, after?_append, Option.bind_eq_bind, Option.bind_some,
    g.gap?_append (n.stops_isBlank _), hname, h.gap?_append (w.stops_isBlank _), hvalue,
    Option.pure_def]

theorem assign?_append (g : Gap) (p q : Pad) (n : Name) (t : Remainder) :
    Statement.assign? ("set" ++ (g.text ++ (n.text ++ (p.text ++ '=' :: (q.text ++ t.text))))) =
      some (.assign n.text t.text) := by
  have hname := n.run?_append (q := fun c => !isBlank c && c != '=')
    (fun c hc => not_isBlank_and_bne hc (by decide))
    (p.stops_append (s := '=' :: (q.text ++ t.text)) (fun c hc => by simp [hc]) rfl)
  obtain ⟨c, cs, htext⟩ := List.exists_cons_of_ne_nil t.ne_nil
  have hrest := q.trimStart_append t.starts
  have hfirst := firstLine_of_isPlain t.plain
  simp only [Statement.assign?, after?_append, Option.bind_eq_bind, Option.bind_some,
    g.gap?_append (n.stops_isBlank _), hname, p.afterMark?_append (c := '=') (by decide), hrest]
  rw [htext] at hfirst ⊢
  simp only [hfirst, Option.pure_def]

theorem changeDirectory?_append (g : Gap) (p : Pad) (w : Word) :
    Statement.changeDirectory? ("cd" ++ (g.text ++ (w.text ++ p.text))) =
      some (.changeDirectory w.text) := by
  obtain ⟨d, hlast, hd⟩ := w.exists_getLast?
  have htrim : trimEnd (w.text ++ p.text) = w.text :=
    trimEnd_append (stops_reverse hlast (isBlank_of_isWordPart hd)) p.isBlank_of_mem
  have hne : w.text.isEmpty = false := by simpa using w.ne_nil
  have hline : w.text.contains '\n' = false := by simpa using w.not_mem (by decide)
  simp only [Statement.changeDirectory?, after?_append, Option.bind_eq_bind, Option.bind_some,
    g.gap?_append (w.stops_isBlank _), htrim, hne, w.head?_beq (by decide : isWordPart '"' = false),
    w.head?_beq (by decide : isWordPart '\'' = false), hline, Option.pure_def, Bool.or_false,
    Bool.false_eq_true, ↓reduceIte]

theorem alias?_append (g h : Gap) (p : Pad) (n : Name) (ws : Words) :
    Statement.alias? ("alias" ++ (g.text ++ (n.text ++ (h.text ++ (ws.text ++ p.text))))) =
      some (.alias n.text (ws.text ++ p.text)) := by
  have hname := n.run?_append not_isBlank_of_isNameChar
    (h.stops_append (q := (!isBlank ·)) (ws.text ++ p.text) (by simp))
  have hne : (ws.text ++ p.text).isEmpty = false := by simp [Words.text, ws.first.ne_nil]
  have hfirst : firstLine (ws.text ++ p.text) = ws.text ++ p.text :=
    firstLine_of_isPlain (by simp)
  simp only [Statement.alias?, after?_append, Option.bind_eq_bind, Option.bind_some,
    g.gap?_append (n.stops_isBlank _), hname, h.gap?_append (ws.stops_isBlank _), hne, hfirst,
    Option.pure_def, Bool.false_eq_true, ↓reduceIte]

theorem unalias?_append (g : Gap) {s : Text} (hs : stops isBlank s = true) :
    Statement.unalias? ("unalias" ++ (g.text ++ s)) = some .verbatim := by
  simp only [Statement.unalias?, after?_append, Option.bind_eq_bind, Option.bind_some,
    g.gap?_append hs, Option.pure_def]

theorem jump?_append (g : Gap) {target : Text} (hne : target.isEmpty = false)
    (hstart : stops isBlank target = true) (hplain : isPlain target = true) :
    Statement.jump? ("goto" ++ (g.text ++ target)) = some (.jump target) := by
  simp only [Statement.jump?, after?_append, Option.bind_eq_bind, Option.bind_some,
    g.gap?_append hstart, hne, firstLine_of_isPlain hplain, Option.pure_def, Bool.false_eq_true,
    ↓reduceIte]

theorem source?_append (g : Gap) (t : Remainder) :
    Statement.source? ("source" ++ (g.text ++ t.text)) = some (.source t.text) := by
  simp only [Statement.source?, after?_append, Option.bind_eq_bind, Option.bind_some,
    g.gap?_append t.starts, firstLine_of_isPlain t.plain, Option.pure_def]

/-! ## Reading conditions, loops and arms back -/

theorem closesThen_append (p q r : Pad) :
    Statement.closesThen (p.text ++ ')' :: (q.text ++ ("then" ++ r.text))) = true := by
  have hends : wordEnds r.text = true := by
    cases htext : r.text with
    | nil => rfl
    | cons c cs =>
      have hc : isBlank c = true := r.isBlank_of_mem c (by rw [htext]; exact List.mem_cons_self)
      simp [wordEnds, isWordChar_of_isBlank hc]
  exact Statement.closesThen_iff.2
    ⟨p.text, q.text, r.text, p.isBlank_of_mem, q.isBlank_of_mem, hends, rfl⟩

/-- `part?` reads a part that ends in neither a blank nor the mark up to the mark that closes the
    line. -/
theorem part?_closesLine {t : Text} {d : Char} (before : Text) (p q : Pad) (mark : Char)
    (hmark : isBlank mark = false) (hlast : t.getLast? = some d) (hd : isBlank d = false)
    (hne : d ≠ mark) (hplain : isPlain t = true) :
    Statement.part? (Statement.closesLine mark) before (t ++ (p.text ++ mark :: q.text)) = some t := by
  have hend : Statement.closesLine mark (p.text ++ mark :: q.text) = true :=
    (Statement.closesLine_iff hmark).2 ⟨p.text, q.text, p.isBlank_of_mem, q.isBlank_of_mem, rfl⟩
  exact Statement.part?_append before hlast (not_mem_of_isPlain hplain) hend fun v hv _ =>
    Statement.closesLine_eq_false hmark (List.mem_append_left _ hv) hd hne

theorem closes_append (p : Pad) (s : Text) : Statement.closes (p.text ++ ')' :: s) = true := by
  have hrest : trimStart (p.text ++ ')' :: s) = ')' :: s := p.trimStart_append rfl
  rw [Statement.closes, hrest]
  rfl

section
variable (y : Layout)

theorem equalityThen?_enclose (e : Equality) (p : Pad) :
    Statement.equalityThen? (y.enclose e.text ("then" ++ p.text)) = some e.read :=
  e.equalityThen?_text _ _ (closesThen_append _ _ _)

theorem ifTest?_enclose (e : Equality) (p : Pad) :
    Statement.ifTest? ("if" ++ y.enclose e.text ("then" ++ p.text)) = some (.ifTest e.read) := by
  simp only [Statement.ifTest?, after?_append, Option.bind_eq_bind, Option.bind_some,
    equalityThen?_enclose, Option.pure_def]

theorem elseIf?_enclose (g : Gap) (e : Equality) (p : Pad) :
    Statement.elseIf? ("else" ++ (g.text ++ ("if" ++ y.enclose e.text ("then" ++ p.text)))) =
      some (.elseIf e.read) := by
  have hstart : stops isBlank ("if" ++ y.enclose e.text ("then" ++ p.text)) = true := rfl
  simp only [Statement.elseIf?, after?_append, Option.bind_eq_bind, Option.bind_some,
    g.gap?_append hstart, equalityThen?_enclose, Option.pure_def]

theorem ifNot?_enclose (f : FileTest) (p q : Pad) :
    Statement.ifNot? ("if" ++ (p.text ++ '!' :: y.enclose f.text ("then" ++ q.text))) =
      some (.ifNot f.text) := by
  obtain ⟨d, hlast, hd⟩ := f.exists_getLast?
  have hmark : ')' ∉ f.text := f.not_mem (by decide) (by decide)
  have hpart := fun before => Statement.part?_append before hlast
    (not_mem_of_isPlain f.isPlain_text) (closesThen_append (y.pad 2) (y.pad 3) q) fun v hv hsub =>
      Statement.closesThen_eq_false hv (isBlank_of_isWordPart hd) fun hm => hmark (hsub hm)
  have hstart : stops isBlank (f.text ++ ((y.pad 2).text ++ ')' :: ((y.pad 3).text ++
      ("then" ++ q.text)))) = true := rfl
  simp only [Statement.ifNot?, after?_append, Option.bind_eq_bind, Option.bind_some, Layout.enclose,
    p.afterMark?_append (c := '!') (by decide), (y.pad 0).afterMark?_append (c := '(') (by decide),
    (y.pad 1).trimStart_append hstart, hpart, Option.pure_def]

theorem whileLoop?_enclose (c : Comparison) :
    Statement.whileLoop? ("while" ++ y.enclose c.text []) = some (.whileLoop c.text) := by
  obtain ⟨d, hlast, hd, hclose⟩ := c.exists_getLast?
  have hpart := fun before => part?_closesLine before (y.pad 2) (y.pad 3) ')' (by decide) hlast
    hd hclose c.isPlain_text
  simp only [Statement.whileLoop?, after?_append, Option.bind_eq_bind, Option.bind_some,
    Layout.enclose, List.append_nil, (y.pad 0).afterMark?_append (c := '(') (by decide),
    (y.pad 1).trimStart_append (c.stops_isBlank _), hpart, Option.pure_def]

theorem foreachLoop?_enclose (g : Gap) (n : Name) (ws : Words) :
    Statement.foreachLoop? ("foreach" ++ (g.text ++ (n.text ++ y.enclose ws.text []))) =
      some (.foreachLoop n.text ws.text) := by
  have hname := n.run?_append (q := fun c => !isBlank c && c != '(')
    (fun c hc => not_isBlank_and_bne hc (by decide)) (s := y.enclose ws.text [])
    ((y.pad 0).stops_append (fun c hc => by simp [hc]) rfl)
  obtain ⟨d, hlast, hd⟩ := ws.exists_getLast?
  -- no parenthesis follows the one that closes the list
  have hlater : Statement.longest? Statement.closes (')' :: (y.pad 3).text) = none := by
    have hblanks : Statement.longest? Statement.closes ((y.pad 3).text ++ []) = none :=
      Statement.longest?_blanks_append (y.pad 3).isBlank_of_mem rfl
    have htrim := allBlank_iff_trimStart.1 (y.pad 3).blank
    rw [List.append_nil] at hblanks
    simp [Statement.longest?, hblanks, Statement.closes, htrim]
  have hitems := Statement.longest?_append hlast (isBlank_of_isWordPart hd)
    (not_mem_of_isPlain ws.isPlain_text) (closes_append (y.pad 2) (y.pad 3).text)
    (Statement.longest?_blanks_append (y.pad 2).isBlank_of_mem hlater)
  simp only [Statement.foreachLoop?, after?_append, Option.bind_eq_bind, Option.bind_some,
    g.gap?_append (n.stops_isBlank _), hname]
  simp only [Layout.enclose, List.append_nil, (y.pad 0).afterMark?_append (c := '(') (by decide),
    Option.bind_some, (y.pad 1).trimStart_append (ws.stops_isBlank _), hitems, Option.pure_def]

theorem switchOn?_enclose (n : Name) :
    Statement.switchOn? ("switch" ++ y.enclose ('$' :: n.text) []) = some (.switchOn n.text) := by
  obtain ⟨tail, htail⟩ : ∃ tail, tail = (y.pad 2).text ++ ')' :: ((y.pad 3).text ++ []) := ⟨_, rfl⟩
  have hcloses : Statement.closes tail = true := htail ▸ closes_append _ _
  -- the quotes around the variable are optional, and a layout writes none
  have hquote : (tail.head? == some '"') = false := by
    rw [htail]
    exact head?_beq_of_stops ((y.pad 2).stops_append (beq_of_isBlank (by decide)) rfl)
  have hname : Statement.variableRun? (fun c => !isBlank c && !("()\"".toList).contains c)
      ('$' :: n.text ++ tail) = some (n.text, tail) := by
    refine variableRun?_spelled n true (fun c hc => ?_) ?_
    · have hc := isWordPart_of_isNameChar hc
      rw [isBlank_of_isWordPart hc, contains_of_isWordPart hc (by decide)]
      rfl
    · rw [htail]
      exact (y.pad 2).stops_append (fun c hc => by simp [hc]) rfl
  have hstart : stops isBlank ('$' :: n.text ++ tail) = true := rfl
  have hfirst : (('$' :: n.text ++ tail).head? == some '"') = false := rfl
  simp only [Statement.switchOn?, after?_append, Option.bind_eq_bind, Option.bind_some,
    Layout.enclose, ← htail, (y.pad 0).afterMark?_append (c := '(') (by decide),
    (y.pad 1).trimStart_append hstart, hfirst, hname, hquote, hcloses, Option.pure_def,
    Bool.false_eq_true, ↓reduceIte]

theorem caseArm?_append (g : Gap) (p q : Pad) (w : Word) :
    Statement.caseArm? ("case" ++ (g.text ++ (w.text ++ (p.text ++ ':' :: q.text)))) =
      some (.caseArm w.text) := by
  obtain ⟨d, hlast, hd⟩ := w.exists_getLast?
  have hpart := fun before => part?_closesLine before p q ':' (by decide) hlast
    (isBlank_of_isWordPart hd) (ne_of_isWordPart hd (by decide)) w.isPlain_text
  simp only [Statement.caseArm?, after?_append, Option.bind_eq_bind, Option.bind_some,
    g.gap?_append (w.stops_isBlank _), hpart, Option.pure_def]

theorem defaultArm?_append (p q : Pad) :
    Statement.defaultArm? ("default" ++ (p.text ++ ':' :: q.text)) = some .defaultArm := by
  simp only [Statement.defaultArm?, after?_append, Option.bind_eq_bind, Option.bind_some,
    p.afterMark?_append (c := ':') (by decide), Option.pure_def]

end

/-! ## What the rules make of a line -/

/-- The words that lines begin with: those of `Rule.ofKeyword`, and the two that several rules
    share. -/
def keywords : List Text := Rule.ofKeyword.map (·.1) ++ ["if".toList, "else".toList]

/-- A keyword and what follows it as a `Remainder`. -/
def Remainder.ofKeyword (keyword rest : Text) (hkeyword : keyword ∈ keywords)
    (hrest : isPlain rest = true) : Remainder where
  text := keyword ++ rest
  ne_nil := by
    have hall : ∀ k ∈ keywords, k ≠ [] := by decide
    simp [hall keyword hkeyword]
  starts := by
    have hall : ∀ k ∈ keywords, k ≠ [] ∧ stops isBlank k = true := by decide
    rw [stops_append rest (hall keyword hkeyword).1, (hall keyword hkeyword).2]
  plain := by
    have hall : ∀ k ∈ keywords, isPlain k = true := by decide
    rw [isPlain_append, hall keyword hkeyword, hrest]
    rfl

/-- The rules take a text for a statement that writes the given lines, and no function begins or
    ends there. -/
def Writes (body : Text) (output : List Text) : Prop :=
  ∃ (t : Remainder) (r : Rule) (st : Statement), t.text = body ∧ r ≠ .header ∧
    Rule.select Rule.standard body = (r, st) ∧
    ∀ block : Block, st.outputLines body block = output ∧ st.blockAfter block = block

/-- A line that begins with a keyword is converted by the rule that recognises it. -/
theorem Writes.of_recognize? (r : Rule) {st : Statement} {keyword rest : Text} {output : List Text}
    (h : r.recognize? (keyword ++ rest) = some st) (hr : r ∉ [Rule.passthrough, .label, .header])
    (hkeyword : keyword ∈ keywords) (hrest : isPlain rest = true)
    (houtput : ∀ block : Block,
      st.outputLines (keyword ++ rest) block = output ∧ st.blockAfter block = block) :
    Writes (keyword ++ rest) output := by
  simp only [List.mem_cons, List.not_mem_nil, or_false, not_or] at hr
  exact ⟨.ofKeyword keyword rest hkeyword hrest, r, st, rfl, hr.2.2,
    Rule.select_of_recognize? hr.1 hr.2.1 h, houtput⟩

/-- A keyword alone on its line, by `bareKeyword?`. -/
theorem Writes.of_bareKeyword (r : Rule) {st : Statement} {keyword : Text} {p : Pad}
    {output : List Text} (hrule : r.recognize? = Statement.bareKeyword? keyword st)
    (hr : r ∉ [Rule.passthrough, .label, .header]) (hkeyword : keyword ∈ keywords)
    (houtput : ∀ (line : Text) (block : Block),
      st.outputLines line block = output ∧ st.blockAfter block = block) :
    Writes (keyword ++ p.text) output := by
  have h : r.recognize? (keyword ++ p.text) = some st := by
    rw [hrule]
    exact Statement.bareKeyword?_eq_some_iff.2 ⟨rfl, p.text, p.isBlank_of_mem, rfl⟩
  exact .of_recognize? r h hr hkeyword p.isPlain_text (houtput _)

/-- The value of an alias is quoted by `aliasValue` if there are several words. -/
theorem aliasValue_words (ws : Words) :
    Statement.aliasValue ws.text = if ws.more.isEmpty then ws.text else "'" ++ ws.text ++ "'" := by
  unfold Statement.aliasValue
  rw [ws.head?_beq (by decide), ws.head?_beq (by decide), ws.any_isBlank]
  cases ws.more.isEmpty <;> rfl

theorem callText_spelled (n : Name) (dollar : Bool) :
    Statement.callText (n.spelled dollar).text =
      if dollar then "eval \"$" ++ n.text ++ "\"" else n.text := by
  unfold Statement.callText
  cases dollar with
  | true => rfl
  | false =>
    obtain ⟨c, cs, htext, hc⟩ := n.exists_cons
    have hdollar : c ≠ '$' := by
      rintro rfl
      exact absurd hc (by decide)
    refine if_neg ?_
    simpa [Name.spelled, htext] using hdollar

theorem jump_writes (g : Gap) (p : Pad) (n : Name) (dollar : Bool) :
    Writes ("goto" ++ (g.text ++ ((n.spelled dollar).text ++ p.text)))
      [if dollar then "eval \"$" ++ n.text ++ "\"" else n.text, "return".toList] := by
  have hne : ((n.spelled dollar).text ++ p.text).isEmpty = false := by
    simp [(n.spelled dollar).ne_nil]
  refine .of_recognize? .goto (jump?_append g hne (Word.stops_isBlank _ _) (by simp)) (by decide)
    (by decide) (by simp) fun _ => ⟨?_, rfl⟩
  rw [Statement.outputLines, Word.trim_append, callText_spelled]

theorem Simple.writes (y : Layout) (s : Simple) : Writes (s.csh y) (s.bash y) := by
  cases s with
  | setenv n w =>
    exact .of_recognize? .setenv (setenv?_append _ _ _ n w) (by decide) (by decide) (by simp)
      fun _ => ⟨rfl, rfl⟩
  | set n t =>
    exact .of_recognize? .set (assign?_append _ _ _ n t) (by decide) (by decide)
      (by simp [isBreak, t.plain]) fun _ => ⟨rfl, rfl⟩
  | cd w =>
    exact .of_recognize? .cd (changeDirectory?_append _ _ w) (by decide) (by decide) (by simp)
      fun _ => ⟨rfl, rfl⟩
  | breakSwitch =>
    exact .of_bareKeyword .breakSwitch rfl (by decide) (by decide) fun _ _ => ⟨rfl, rfl⟩
  | «alias» n ws =>
    refine .of_recognize? .alias (alias?_append _ _ _ n ws) (by decide) (by decide) (by simp)
      fun _ => ⟨?_, rfl⟩
    have hvalue := (congrArg Statement.aliasValue (ws.trim_append (y.pad 0))).trans
      (aliasValue_words ws)
    exact congrArg (fun value => ["alias " ++ n.text ++ "=" ++ value]) hvalue
  | unalias n =>
    exact .of_recognize? .unalias (unalias?_append _ (n.stops_isBlank _)) (by decide) (by decide)
      (by simp) fun _ => ⟨rfl, rfl⟩
  | goto l => exact jump_writes (y.gap 0) (y.pad 0) l false
  | gotoVariable n => exact jump_writes (y.gap 0) (y.pad 0) n true
  | source t =>
    exact .of_recognize? .source (source?_append _ t) (by decide) (by decide) (by simp [t.plain])
      fun _ => ⟨rfl, rfl⟩
  | plain c =>
    exact ⟨c.toRemainder, _, _, rfl, by decide, Rule.select_passthrough c.unmatched,
      fun _ => ⟨rfl, rfl⟩⟩

theorem endLoop_writes {p : Pad} : Writes ("end" ++ p.text) ["done".toList] :=
  .of_bareKeyword .endLoop rfl (by decide) (by decide) fun _ _ => ⟨rfl, rfl⟩

theorem elseBranch_writes {p : Pad} : Writes ("else" ++ p.text) ["else".toList] :=
  .of_bareKeyword .elseBranch rfl (by decide) (by decide) fun _ _ => ⟨rfl, rfl⟩

theorem endIf_writes {p : Pad} : Writes ("endif" ++ p.text) ["fi".toList] :=
  .of_bareKeyword .endIf rfl (by decide) (by decide) fun _ _ => ⟨rfl, rfl⟩

theorem endSwitch_writes {p : Pad} : Writes ("endsw" ++ p.text) ["esac".toList] :=
  .of_bareKeyword .endSwitch rfl (by decide) (by decide) fun _ _ => ⟨rfl, rfl⟩

section
variable (y : Layout)

theorem Question.writes (q : Question) : Writes (q.csh y) ["if [ " ++ q.test ++ " ]; then"] := by
  cases q with
  | compare e =>
    exact .of_recognize? .ifTest (ifTest?_enclose y e _) (by decide) (by decide)
      (by simp [Layout.enclose, isBreak])
      fun _ => ⟨congrArg (fun test : Text => ["if [ " ++ test ++ " ]; then"]) e.test_read, rfl⟩
  | lacks f =>
    exact .of_recognize? .ifNot (ifNot?_enclose y f _ _) (by decide) (by decide)
      (by simp [Layout.enclose, isBreak])
      fun _ => ⟨congrArg (fun test : Text => ["if [ ! " ++ test ++ " ]; then"])
        f.toTest_quoteFileTests, rfl⟩

theorem elseIf_writes (e : Equality) :
    Writes ("else" ++ ((y.gap 0).text ++ ("if" ++ y.enclose e.text ("then" ++ (y.pad 4).text))))
      ["elif [ " ++ e.test ++ " ]; then"] :=
  .of_recognize? .elseIf (elseIf?_enclose y _ e _) (by decide) (by decide)
    (by simp [Layout.enclose, isBreak])
    fun _ => ⟨congrArg (fun test : Text => ["elif [ " ++ test ++ " ]; then"]) e.test_read, rfl⟩

theorem whileLoop_writes (c : Comparison) :
    Writes ("while" ++ y.enclose c.text []) ["while [ " ++ c.test ++ " ]; do"] :=
  .of_recognize? .whileLoop (whileLoop?_enclose y c) (by decide) (by decide)
    (by simp [Layout.enclose, isBreak])
    fun _ => ⟨congrArg (fun test : Text => ["while [ " ++ test ++ " ]; do"]) c.toTest_text, rfl⟩

theorem foreachLoop_writes (n : Name) (ws : Words) :
    Writes ("foreach" ++ ((y.gap 0).text ++ (n.text ++ y.enclose ws.text [])))
      ["for " ++ n.text ++ " in " ++ ws.text ++ "; do"] :=
  .of_recognize? .foreachLoop (foreachLoop?_enclose y _ n ws) (by decide) (by decide)
    (by simp [Layout.enclose, isBreak]) fun _ => ⟨rfl, rfl⟩

theorem switchOn_writes (n : Name) :
    Writes ("switch" ++ y.enclose ('$' :: n.text) []) ["case \"$" ++ n.text ++ "\" in"] :=
  .of_recognize? .switchOn (switchOn?_enclose y n) (by decide) (by decide)
    (by simp [Layout.enclose, isBreak]) fun _ => ⟨rfl, rfl⟩

theorem caseArm_writes (w : Word) :
    Writes ("case" ++ ((y.gap 0).text ++ (w.text ++ ((y.pad 0).text ++ ':' :: (y.pad 1).text))))
      [w.text ++ ")"] :=
  .of_recognize? .caseArm (caseArm?_append _ _ _ w) (by decide) (by decide) (by simp [isBreak])
    fun _ => ⟨congrArg (fun pattern : Text => [pattern ++ ")"]) w.unquote_text, rfl⟩

theorem defaultArm_writes :
    Writes ("default" ++ ((y.pad 0).text ++ ':' :: (y.pad 1).text)) ["*)".toList] :=
  .of_recognize? .defaultArm (defaultArm?_append _ _) (by decide) (by decide) (by simp [isBreak])
    fun _ => ⟨rfl, rfl⟩

end

/-! ## A step on a line -/

/-- A text that the rules do not take for an interpreter line does not begin with `#!`. -/
theorem startsWith_eq_false {s : Text} {r : Rule} {st : Statement}
    (hselect : Rule.select Rule.standard s = (r, st)) (hr : r ≠ .header) :
    (trimEnd s).startsWith "#!" = false := by
  cases h : (trimEnd s).startsWith "#!" with
  | false => rfl
  | true =>
    have hlead : s.startsWith "#!" = true :=
      List.isPrefixOf_iff_prefix.2 ((List.isPrefixOf_iff_prefix.1 h).trans (isPrefix_trimEnd s))
    have hheader : Rule.header.recognize? s = some .interpreter := if_pos hlead
    rw [Rule.select_of_recognize? (by decide) (by decide) hheader] at hselect
    exact absurd (congrArg Prod.fst hselect).symm hr

/-- A step on an indented text does what the rules make of the text, and puts the indentation
    back. -/
theorem ofRaw_append (number : Nat) (block : Block) (indent : Pad) (t : Remainder) {r : Rule}
    {st : Statement} (hselect : Rule.select Rule.standard t.text = (r, st)) (hr : r ≠ .header) :
    (LineStep.ofRaw number block (indent.text ++ t.text)).record.output =
        (st.outputLines t.text block).map (indent.text ++ ·) ∧
      (LineStep.ofRaw number block (indent.text ++ t.text)).block = st.blockAfter block := by
  obtain ⟨hunbroken, hback⟩ := isPlain_iff.1 t.plain
  have hline : unbroken (indent.text ++ t.text) = true := by
    rw [unbroken_append, indent.unbroken, hunbroken]
    rfl
  have hbody : trimStart (indent.text ++ t.text) = t.text := indent.trimStart_append t.starts
  have hindent : blanks (indent.text ++ t.text) = indent.text :=
    blanks_append indent.isBlank_of_mem t.starts
  have hrules : LineStep.ruleText (indent.text ++ t.text) = t.text := by
    rw [LineStep.ruleText, hbody, Substitution.modernize_of_not_mem hback]
  have hblank : allBlank (indent.text ++ t.text) = false := by
    rw [Bool.eq_false_iff, ne_eq, allBlank_iff_trimStart, hbody]
    exact t.ne_nil
  -- the line may be the first one, where an interpreter line would be dropped
  have htop : (trim (indent.text ++ t.text)).startsWith "#!" = false := by
    rw [trim, hbody]
    exact startsWith_eq_false hselect hr
  have hstep := LineStep.ofLine_eq number block hline hblank (hrules.symm ▸ hselect)
  rw [LineStep.ofRaw, LineStep.cleanLine_of_unbroken hline, if_neg (by rw [htop]; simp),
    if_neg (by simp [hblank]), hstep, hrules, hindent]
  exact ⟨rfl, rfl⟩

/-- A step on blanks writes an empty line. -/
theorem ofRaw_blank (number : Nat) (block : Block) (p : Pad) :
    (LineStep.ofRaw number block p.text).record.output = [[]] ∧
      (LineStep.ofRaw number block p.text).block = block := by
  have htrim : trim p.text = [] := by rw [trim, allBlank_iff_trimStart.1 p.blank]; rfl
  have htop : (trim p.text).startsWith "#!" = false := by rw [htrim]; rfl
  rw [LineStep.ofRaw, LineStep.cleanLine_of_unbroken p.unbroken, if_neg (by rw [htop]; simp),
    if_pos p.blank]
  exact ⟨rfl, rfl⟩

/-- **A step on a line writes its counterpart**, with the same indentation, and leaves the function
    block. -/
theorem Writes.ofRaw_line {body : Text} {output : List Text} (h : Writes body output)
    (number : Nat) (block : Block) (y : Layout) :
    (LineStep.ofRaw number block (y.line body)).record.output = output.map y.line ∧
      (LineStep.ofRaw number block (y.line body)).block = block := by
  obtain ⟨t, r, st, rfl, hr, hselect, houtput⟩ := h
  have hstep := ofRaw_append number block y.indent t hselect hr
  rwa [(houtput block).1, (houtput block).2] at hstep

theorem Writes.unbroken_line {body : Text} {output : List Text} (h : Writes body output)
    (y : Layout) : unbroken (y.line body) = true := by
  obtain ⟨t, _, _, rfl, _⟩ := h
  rw [Layout.line, unbroken_append, y.indent.unbroken, (isPlain_iff.1 t.plain).1]
  rfl

end Csh
end Seashell
