import Seashell.Proofs.Opening

set_option autoImplicit false

/-! # Tokens of C shell programs

The tokens that the lines of a program are written with: blanks (`Pad` and `Gap`), words (`Word`,
`Words`), names (`Name`), values (`Value`) and the rest of a line (`Remainder`). Each token carries
what makes it one, so that a scanner which reads it has nothing left to check: it stops where the
token ends.

For each token there is a lemma `stops_append` that says which classes of characters stop at it, and
one `run?_append` that says which scanners read it whole. The lines of a program are read back by
these alone, and no proof about lines opens the text of a token. `isPlain` keeps line breaks and
backticks out of all of them, so that a line stays one line and the rules see it as it is
written. -/

namespace Seashell

open Text

/-! ## Characters -/

namespace Text

/-- The text stays within one line and has no backtick in it. -/
def isPlain (s : Text) : Bool := s.all fun c => !isBreak c && c != '`'

@[simp] theorem isPlain_nil : isPlain [] = true := rfl

@[simp] theorem isPlain_cons (c : Char) (s : Text) :
    isPlain (c :: s) = ((!isBreak c && c != '`') && isPlain s) := rfl

@[simp] theorem isPlain_append (s t : Text) : isPlain (s ++ t) = (isPlain s && isPlain t) :=
  List.all_append

theorem isPlain_iff {s : Text} : isPlain s = true ↔ unbroken s = true ∧ '`' ∉ s := by
  simp only [isPlain, unbroken, List.all_eq_true, Bool.and_eq_true, bne_iff_ne, ne_eq]
  constructor
  · intro h
    exact ⟨fun c hc => (h c hc).1, fun hm => (h _ hm).2 rfl⟩
  · rintro ⟨hline, hback⟩ c hc
    exact ⟨hline c hc, fun he => hback (he ▸ hc)⟩

theorem not_mem_of_isPlain {s : Text} (h : isPlain s = true) : '\n' ∉ s :=
  (unbroken_iff.1 (isPlain_iff.1 h).1).1

end Text

namespace Csh

/-- A character of a word: a letter, a digit, or one of `_ . / $ -`. -/
def isWordPart (c : Char) : Bool := isWordChar c || c == '.' || c == '/' || c == '$' || c == '-'

theorem isBlank_of_isWordPart {c : Char} (h : isWordPart c = true) : isBlank c = false := by
  cases hblank : isBlank c with
  | false => rfl
  | true =>
    simp only [isWordPart, isWordChar_of_isBlank hblank, Bool.false_or, Bool.or_eq_true,
      beq_iff_eq] at h
    rcases h with ((rfl | rfl) | rfl) | rfl <;> exact absurd hblank (by decide)

theorem isWordPart_of_isNameChar {c : Char} (h : isNameChar c = true) : isWordPart c = true := by
  have hcode := toNat_of_isNameChar h
  have hascii : c.toNat < 0x80 := by omega
  have hword : isWordChar c = true := by
    rw [isWordChar, if_pos hascii]
    exact h
  simp [isWordPart, hword]

/-- A mark that `isWordPart` does not allow is in no word. -/
theorem ne_of_isWordPart {c mark : Char} (h : isWordPart c = true)
    (hmark : isWordPart mark = false) : c ≠ mark := by
  rintro rfl
  rw [h] at hmark
  cases hmark

theorem contains_of_isWordPart {c : Char} {marks : Text} (h : isWordPart c = true)
    (hmarks : marks.all (!isWordPart ·) = true) : marks.contains c = false := by
  cases hc : marks.contains c with
  | false => rfl
  | true =>
    have hmem : c ∈ marks := by simpa using hc
    have := List.all_eq_true.1 hmarks c hmem
    simp [h] at this

/-! ## Spaces -/

/-- Blanks within a line, perhaps none. -/
structure Pad where
  text : Text
  blank : allBlank text = true
  unbroken : unbroken text = true

/-- At least one blank: a `Pad` that is not empty. -/
structure Gap extends Pad where
  ne_nil : text ≠ []

namespace Pad

theorem isBlank_of_mem (p : Pad) : ∀ c ∈ p.text, isBlank c = true := allBlank_iff.1 p.blank

@[simp] theorem isPlain_text (p : Pad) : isPlain p.text = true :=
  isPlain_iff.2 ⟨p.unbroken, fun hm => absurd (p.isBlank_of_mem _ hm) (by decide)⟩

theorem trimStart_append (p : Pad) {s : Text} (hs : stops isBlank s = true) :
    trimStart (p.text ++ s) = s :=
  Text.trimStart_append p.isBlank_of_mem hs

theorem afterMark?_append (p : Pad) {c : Char} (hc : isBlank c = false) (s : Text) :
    Statement.afterMark? c (p.text ++ c :: s) = some s :=
  (Statement.afterMark?_eq_some_iff hc).2 ⟨p.text, p.isBlank_of_mem, rfl⟩

/-- A class without blanks in it stops at a pad, or else at `s` behind it. -/
theorem stops_append (p : Pad) {q : Char → Bool} {s : Text}
    (hq : ∀ c, isBlank c = true → q c = false) (hs : stops q s = true) :
    stops q (p.text ++ s) = true :=
  stops_blanks_append p.isBlank_of_mem hq hs

theorem stops_text (p : Pad) {q : Char → Bool} (hq : ∀ c, isBlank c = true → q c = false) :
    stops q p.text = true := by
  have := p.stops_append (s := []) hq rfl
  rwa [List.append_nil] at this

end Pad

namespace Gap

theorem gap?_append (g : Gap) {s : Text} (hs : stops isBlank s = true) :
    gap? (g.text ++ s) = some s :=
  gap?_eq_some_iff.2 ⟨g.text, g.ne_nil, g.isBlank_of_mem, hs, rfl⟩

theorem stops_append (g : Gap) {q : Char → Bool} (s : Text)
    (hq : ∀ c, isBlank c = true → q c = false) : stops q (g.text ++ s) = true := by
  rw [Text.stops_append s g.ne_nil]
  exact g.stops_text hq

end Gap
/-! ## Words -/

/-- A word: one or more characters of `isWordPart`. -/
structure Word where
  text : Text
  ne_nil : text ≠ []
  parts : text.all isWordPart = true

/-- The name of a variable, an alias or a label, as `isName` has it. -/
structure Name where
  text : Text
  valid : isName text = true

namespace Word

theorem isWordPart_of_mem (w : Word) : ∀ c ∈ w.text, isWordPart c = true :=
  List.all_eq_true.1 w.parts

theorem not_mem (w : Word) {mark : Char} (h : isWordPart mark = false) : mark ∉ w.text :=
  fun hm => ne_of_isWordPart (w.isWordPart_of_mem mark hm) h rfl

@[simp] theorem isPlain_text (w : Word) : isPlain w.text = true :=
  isPlain_iff.2 ⟨unbroken_iff.2 ⟨w.not_mem (by decide), w.not_mem (by decide)⟩,
    w.not_mem (by decide)⟩

/-- A word begins with none of the characters of a class `q` that has no part of a word in it. -/
theorem stops_append (w : Word) {q : Char → Bool} (s : Text)
    (hq : ∀ c, isWordPart c = true → q c = false) : stops q (w.text ++ s) = true := by
  rw [Text.stops_append s w.ne_nil]
  exact stops_of_forall fun c hc => hq c (w.isWordPart_of_mem c hc)

theorem stops_isBlank (w : Word) (s : Text) : stops isBlank (w.text ++ s) = true :=
  w.stops_append s fun _ => isBlank_of_isWordPart

/-- `run?` for a class that covers words reads a whole word. -/
theorem run?_append (w : Word) {q : Char → Bool} {s : Text}
    (hq : ∀ c, isWordPart c = true → q c = true) (hs : stops q s = true) :
    run? q (w.text ++ s) = some (w.text, s) :=
  run?_eq_some_iff.2 ⟨w.ne_nil, fun c hc => hq c (w.isWordPart_of_mem c hc), hs, rfl⟩

theorem exists_getLast? (w : Word) : ∃ d, w.text.getLast? = some d ∧ isWordPart d = true :=
  ⟨w.text.getLast w.ne_nil, List.getLast?_eq_some_getLast w.ne_nil,
    w.isWordPart_of_mem _ (List.getLast_mem w.ne_nil)⟩

theorem exists_cons (w : Word) : ∃ c cs, w.text = c :: cs ∧ isWordPart c = true := by
  obtain ⟨c, cs, htext⟩ := List.exists_cons_of_ne_nil w.ne_nil
  exact ⟨c, cs, htext, w.isWordPart_of_mem c (by rw [htext]; exact List.mem_cons_self)⟩

theorem head?_beq (w : Word) {mark : Char} (h : isWordPart mark = false) :
    (w.text.head? == some mark) = false := by
  obtain ⟨c, cs, htext, hc⟩ := w.exists_cons
  simpa [htext] using ne_of_isWordPart hc h

theorem trim_append (w : Word) (p : Pad) : trim (w.text ++ p.text) = w.text := by
  obtain ⟨d, hlast, hd⟩ := w.exists_getLast?
  exact Text.trim_append (w.stops_isBlank p.text) (stops_reverse hlast (isBlank_of_isWordPart hd))
    p.isBlank_of_mem

theorem unquote_text (w : Word) : unquote w.text = w.text := by
  obtain ⟨c, cs, htext, hc⟩ := w.exists_cons
  have hquote : ¬ (c = '"' ∨ c = '\'') := by
    rintro (rfl | rfl) <;> exact absurd hc (by decide)
  rw [htext, unquote, if_neg fun h => hquote h.1]

end Word

theorem Name.ne_nil (n : Name) : n.text ≠ [] := by
  intro h
  have := n.valid
  rw [h] at this
  cases this

/-- A name as a `Word`. -/
def Name.toWord (n : Name) : Word where
  text := n.text
  ne_nil := n.ne_nil
  parts := List.all_eq_true.2 fun c hc => isWordPart_of_isNameChar (forall_of_isName n.valid c hc)

/-- A name with a dollar sign before it if `dollar` says so. -/
def Name.spelled (n : Name) (dollar : Bool) : Word where
  text := if dollar then '$' :: n.text else n.text
  ne_nil := by
    cases dollar
    · exact n.ne_nil
    · simp
  parts := by
    cases dollar
    · exact n.toWord.parts
    · exact Bool.and_eq_true_iff.2 ⟨by decide, n.toWord.parts⟩

namespace Name

theorem exists_cons (n : Name) : ∃ c cs, n.text = c :: cs ∧ isNameStart c = true := by
  obtain ⟨c, cs, htext⟩ := List.exists_cons_of_ne_nil n.ne_nil
  have hvalid : isName (c :: cs) = true := htext ▸ n.valid
  exact ⟨c, cs, htext, (Bool.and_eq_true_iff.1 hvalid).1⟩

@[simp] theorem isPlain_text (n : Name) : isPlain n.text = true := n.toWord.isPlain_text

theorem stops_isBlank (n : Name) (s : Text) : stops isBlank (n.text ++ s) = true :=
  n.toWord.stops_isBlank s

/-- `run?` for a class that covers names reads a whole name. -/
theorem run?_append (n : Name) {q : Char → Bool} {s : Text}
    (hq : ∀ c, isNameChar c = true → q c = true) (hs : stops q s = true) :
    run? q (n.text ++ s) = some (n.text, s) :=
  run?_eq_some_iff.2 ⟨n.ne_nil, fun c hc => hq c (forall_of_isName n.valid c hc), hs, rfl⟩

end Name

/-! ## Values, texts and lists of words -/

/-- What a variable is compared with: a word, or a text in double quotes. -/
inductive Value where
  | word (w : Word)
  | quoted (inner : Text) (free : '"' ∉ inner) (plain : isPlain inner = true)

/-- A value as it is written. -/
def Value.text : Value → Text
  | .word w => w.text
  | .quoted inner _ _ => '"' :: inner ++ ['"']

/-- What a value stands for, its `text` without quotes. -/
def Value.content : Value → Text
  | .word w => w.text
  | .quoted inner _ _ => inner

namespace Value

@[simp] theorem isPlain_text (v : Value) : isPlain v.text = true := by
  cases v with
  | word w => exact w.isPlain_text
  | quoted inner free plain => simp [text, plain, isBreak]

theorem unquote_text (v : Value) : unquote v.text = v.content := by
  cases v with
  | word w => exact w.unquote_text
  | quoted inner free plain => simp [text, content, unquote]

theorem stops_isBlank (v : Value) (s : Text) : stops isBlank (v.text ++ s) = true := by
  cases v with
  | word w => exact w.stops_isBlank s
  | quoted inner free plain => rfl

/-- A value ends in a character that closes no condition. -/
theorem exists_getLast? (v : Value) :
    ∃ d, v.text.getLast? = some d ∧ isBlank d = false ∧ d ≠ ')' := by
  cases v with
  | word w =>
    obtain ⟨d, hlast, hd⟩ := w.exists_getLast?
    exact ⟨d, hlast, isBlank_of_isWordPart hd, ne_of_isWordPart hd (by decide)⟩
  | quoted inner free plain =>
    exact ⟨'"', List.getLast?_concat, by decide, by decide⟩

end Value

/-- The rest of a line, from its first character that is no blank. -/
structure Remainder where
  text : Text
  ne_nil : text ≠ []
  starts : stops isBlank text = true
  plain : isPlain text = true

/-- One or more words with blanks between them. -/
structure Words where
  first : Word
  more : List (Gap × Word)

/-- Words as they are written, each of `more` behind its gap. -/
def Words.text (ws : Words) : Text :=
  ws.first.text ++ ws.more.flatMap fun (g, w) => g.text ++ w.text

namespace Words

@[simp] theorem isPlain_text (ws : Words) : isPlain ws.text = true := by
  have hmore : isPlain (ws.more.flatMap fun (g, w) => g.text ++ w.text) = true := by
    refine List.all_eq_true.2 fun c hc => ?_
    obtain ⟨⟨g, w⟩, _, hc⟩ := List.mem_flatMap.1 hc
    have hpair : isPlain (g.text ++ w.text) = true := by simp
    exact List.all_eq_true.1 hpair c hc
  simp [text, hmore]

theorem stops_append (ws : Words) {q : Char → Bool} (s : Text)
    (hq : ∀ c, isWordPart c = true → q c = false) : stops q (ws.text ++ s) = true := by
  rw [text, List.append_assoc]
  exact ws.first.stops_append _ hq

theorem stops_isBlank (ws : Words) (s : Text) : stops isBlank (ws.text ++ s) = true :=
  ws.stops_append s fun _ => isBlank_of_isWordPart

/-- Words end in a word. -/
theorem exists_getLast? (ws : Words) : ∃ d, ws.text.getLast? = some d ∧ isWordPart d = true := by
  rcases List.eq_nil_or_concat ws.more with hmore | ⟨lead, ⟨g, w⟩, hmore⟩
  · obtain ⟨d, hlast, hd⟩ := ws.first.exists_getLast?
    exact ⟨d, by simpa [text, hmore] using hlast, hd⟩
  · obtain ⟨d, hlast, hd⟩ := w.exists_getLast?
    exact ⟨d, by simp [text, hmore, List.getLast?_append, hlast], hd⟩

theorem head?_beq (ws : Words) {mark : Char} (h : isWordPart mark = false) :
    (ws.text.head? == some mark) = false :=
  head?_beq_of_stops (ws.first.stops_append _ fun _ hc => beq_eq_false_iff_ne.2 (ne_of_isWordPart hc h))

theorem trim_append (ws : Words) (p : Pad) : trim (ws.text ++ p.text) = ws.text := by
  obtain ⟨d, hlast, hd⟩ := ws.exists_getLast?
  exact Text.trim_append (ws.stops_isBlank p.text) (stops_reverse hlast (isBlank_of_isWordPart hd))
    p.isBlank_of_mem

/-- There is a blank in the `text` exactly if there is more than one word. -/
theorem any_isBlank (ws : Words) : ws.text.any isBlank = !ws.more.isEmpty := by
  have hfirst : ws.first.text.any isBlank = false := by
    refine List.any_eq_false.2 fun c hc => ?_
    simp [isBlank_of_isWordPart (ws.first.isWordPart_of_mem c hc)]
  cases hmore : ws.more with
  | nil => simp [text, hmore, hfirst]
  | cons pair rest =>
    obtain ⟨c, cs, hgap⟩ := List.exists_cons_of_ne_nil pair.1.ne_nil
    have hc : isBlank c = true := pair.1.isBlank_of_mem c (by rw [hgap]; exact List.mem_cons_self)
    simp [text, hmore, hgap, hc]

end Words
end Csh
end Seashell
