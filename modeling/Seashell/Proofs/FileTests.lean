import Seashell.Proofs.Output

set_option autoImplicit false

/-! # File tests, token by token

A condition is laid out as tokens with blanks around them: a `Layout`, of which every text has one.
Quoting the operands of file tests goes over the tokens from the left (`Token.quoteOperands`): a
flag and the token behind it are put one blank apart, the latter in quotes, and the pair is left
behind; any other token stays as it is. What is quoted once begins with a quote, so a second time
nothing changes.

The scanner of the conversion, `quoteFrom`, goes over characters. Behind blanks a file test may
begin, and it does exactly if the next two tokens are such a pair (`pair_of_fileTest?`); within a
token nothing is quoted (`quoteFrom_solid_append`). So the scan of tokens is `quoteOperands`
(`quoteFrom_render`). -/

namespace Seashell.Condition

open Text

/-! ## Tokens -/

/-- A quote character. -/
def isQuote (c : Char) : Bool := c == '"' || c == '\''

/-- A token with the blanks behind it, its `gap`. -/
structure Token where
  text : Text
  gap : Text
  ne_nil : text ≠ []
  solid : ∀ c ∈ text, isBlank c = false
  blank : ∀ c ∈ gap, isBlank c = true

namespace Token

/-- The token `t` is a minus sign and a letter. -/
def isFlag (t : Token) : Bool :=
  match t.text with
  | ['-', letter] => letter.isAlpha
  | _ => false

/-- The token `t` begins with a quote. -/
def isQuoted (t : Token) : Bool := !stops isQuote t.text

theorem isBlank_of_mem_space : ∀ c ∈ " ".toList, isBlank c = true := allBlank_iff.1 rfl

/-- The token `t` with one space behind it. -/
def spaced (t : Token) : Token := { t with gap := " ", blank := isBlank_of_mem_space }

/-- The token `t` in quotes. -/
def quoted (t : Token) : Token where
  text := '"' :: (t.text ++ ['"'])
  gap := t.gap
  ne_nil := List.cons_ne_nil _ _
  solid := by
    intro c hc
    simp only [List.mem_cons, List.mem_append, List.not_mem_nil, or_false] at hc
    rcases hc with rfl | hc | rfl
    · decide
    · exact t.solid c hc
    · decide
  blank := t.blank

/-- Quotes the operand of each file test: the token behind a flag (`isFlag`), unless it begins with
    a quote. -/
def quoteOperands : List Token → List Token
  | t :: u :: rest =>
    if t.isFlag && !u.isQuoted then t.spaced :: u.quoted :: quoteOperands rest
    else t :: quoteOperands (u :: rest)
  | [t] => [t]
  | [] => []

/-- The tokens as they are written. -/
def render : List Token → Text
  | [] => []
  | t :: rest => t.text ++ (t.gap ++ render rest)

/-- There are blanks between any two tokens, so that each of them is all that stands between
    blanks. -/
def Separated : List Token → Prop
  | t :: u :: rest => t.gap ≠ [] ∧ Separated (u :: rest)
  | _ => True

/-! ## Quoting a second time -/

theorem isFlag_iff (t : Token) :
    t.isFlag = true ↔ ∃ letter : Char, letter.isAlpha = true ∧ t.text = ['-', letter] := by
  unfold isFlag
  split
  · rename_i letter htext
    simp [htext]
  · rename_i hother
    simp only [Bool.false_eq_true, false_iff]
    rintro ⟨letter, _, htext⟩
    exact hother letter htext

@[simp] theorem isQuoted_quoted (t : Token) : t.quoted.isQuoted = true := rfl

@[simp] theorem isFlag_quoted (t : Token) : t.quoted.isFlag = false := rfl

theorem quoteOperands_pair {t u : Token} (rest : List Token) (ht : t.isFlag = true)
    (hu : u.isQuoted = false) :
    quoteOperands (t :: u :: rest) = t.spaced :: u.quoted :: quoteOperands rest := by
  rw [quoteOperands, ht, hu]
  rfl

theorem quoteOperands_kept {t u : Token} (rest : List Token)
    (h : (t.isFlag && !u.isQuoted) = false) :
    quoteOperands (t :: u :: rest) = t :: quoteOperands (u :: rest) := by
  rw [quoteOperands, h]
  rfl

theorem quoteOperands_of_not_flag {t : Token} (rest : List Token) (h : t.isFlag = false) :
    quoteOperands (t :: rest) = t :: quoteOperands rest := by
  cases rest with
  | nil => rfl
  | cons u rest => exact quoteOperands_kept rest (by rw [h]; rfl)

/-- The first token keeps its text under `quoteOperands`: it is no operand. -/
theorem exists_quoteOperands (t : Token) (rest : List Token) :
    ∃ first more, quoteOperands (t :: rest) = first :: more ∧ first.text = t.text := by
  cases rest with
  | nil => exact ⟨t, [], rfl, rfl⟩
  | cons u rest =>
    rw [quoteOperands]
    split
    · exact ⟨t.spaced, _, rfl, rfl⟩
    · exact ⟨t, _, rfl, rfl⟩

theorem quoteOperands_quoteOperands (tokens : List Token) :
    quoteOperands (quoteOperands tokens) = quoteOperands tokens := by
  induction tokens using quoteOperands.induct with
  | case1 t u rest h ih =>
    obtain ⟨ht, hu⟩ := Bool.and_eq_true_iff.1 h
    -- the operand begins with a quote now, and it is no flag
    have hkept : (t.spaced.isFlag && !u.quoted.isQuoted) = false := by simp
    rw [quoteOperands_pair rest ht (by simpa using hu), quoteOperands_kept _ hkept,
      quoteOperands_of_not_flag _ u.isFlag_quoted, ih]
  | case2 t u rest h ih =>
    have h : (t.isFlag && !u.isQuoted) = false := by simpa using h
    rw [quoteOperands_kept rest h]
    obtain ⟨first, more, hfirst, htext⟩ := exists_quoteOperands u rest
    have hquoted : first.isQuoted = u.isQuoted := by rw [isQuoted, isQuoted, htext]
    rw [hfirst] at ih ⊢
    rw [quoteOperands_kept more (by rw [hquoted]; exact h), ih]
  | case3 t => rfl
  | case4 => rfl

theorem Separated.quoteOperands {tokens : List Token} (h : Separated tokens) :
    Separated (quoteOperands tokens) := by
  induction tokens using quoteOperands.induct with
  | case1 t u rest hpair ih =>
    obtain ⟨ht, hu⟩ := Bool.and_eq_true_iff.1 hpair
    rw [quoteOperands_pair rest ht (by simpa using hu)]
    refine ⟨by simp [spaced], ?_⟩
    cases rest with
    | nil => trivial
    | cons v rest =>
      obtain ⟨first, more, hfirst, _⟩ := exists_quoteOperands v rest
      rw [hfirst] at ih ⊢
      exact ⟨h.2.1, ih h.2.2⟩
  | case2 t u rest hkept ih =>
    rw [quoteOperands_kept rest (by simpa using hkept)]
    obtain ⟨first, more, hfirst, _⟩ := exists_quoteOperands u rest
    rw [hfirst] at ih ⊢
    exact ⟨h.1, ih h.2⟩
  | case3 t => exact h
  | case4 => exact h

end Token

/-! ## Layouts -/

/-- A text as its tokens with the blanks around them; what is not blank is a token, as the tokens
    are `separated`. -/
structure Layout where
  lead : Text
  tokens : List Token
  blank : ∀ c ∈ lead, isBlank c = true
  separated : Token.Separated tokens

namespace Layout

/-- The text that is laid out in `l`. -/
def text (l : Layout) : Text := l.lead ++ Token.render l.tokens

/-- The layout with the operands of file tests in quotes, by `quoteOperands`. -/
def quoted (l : Layout) : Layout :=
  { l with tokens := Token.quoteOperands l.tokens, separated := l.separated.quoteOperands }

theorem exists_text_eq (s : Text) : ∃ l : Layout, l.text = s := by
  induction s with
  | nil => exact ⟨⟨[], [], by simp, trivial⟩, rfl⟩
  | cons c s ih =>
    obtain ⟨⟨lead, tokens, hblank, hseparated⟩, rfl⟩ := ih
    cases hc : isBlank c with
    | true => exact ⟨⟨c :: lead, tokens, List.forall_mem_cons.2 ⟨hc, hblank⟩, hseparated⟩, rfl⟩
    | false =>
      cases lead with
      | cons b lead =>
        -- the character is a token of its own, in front of the blanks
        have hsolid : ∀ d ∈ [c], isBlank d = false := by simpa using hc
        refine ⟨⟨[], ⟨[c], b :: lead, List.cons_ne_nil _ _, hsolid, hblank⟩ :: tokens, by simp, ?_⟩, rfl⟩
        cases tokens with
        | nil => trivial
        | cons t rest => exact ⟨List.cons_ne_nil _ _, hseparated⟩
      | nil =>
        -- the character begins the first token, if there is one
        cases tokens with
        | nil =>
          have hsolid : ∀ d ∈ [c], isBlank d = false := by simpa using hc
          exact ⟨⟨[], [⟨[c], [], List.cons_ne_nil _ _, hsolid, by simp⟩], by simp, trivial⟩, rfl⟩
        | cons t rest =>
          have hsolid : ∀ d ∈ c :: t.text, isBlank d = false :=
            List.forall_mem_cons.2 ⟨hc, t.solid⟩
          refine ⟨⟨[], ⟨c :: t.text, t.gap, List.cons_ne_nil _ _, hsolid, t.blank⟩ :: rest, by simp, ?_⟩,
            rfl⟩
          cases rest with
          | nil => trivial
          | cons u rest => exact hseparated

end Layout

/-! ## The scan -/

theorem isBlank_of_isAlpha {c : Char} (h : c.isAlpha = true) : isBlank c = false := by
  cases hblank : isBlank c with
  | false => rfl
  | true =>
    have := isNameChar_of_isBlank hblank
    simp [isNameChar, Char.isAlphanum, h] at this

/-- What `fileTest?` finds is a flag, blanks and a word that begins with no quote. -/
theorem fileTest?_eq_some_iff {s operand rest : Text} {letter : Char} :
    fileTest? s = some (letter, operand, rest) ↔
      letter.isAlpha = true ∧ operand ≠ [] ∧ (∀ c ∈ operand, isBlank c = false) ∧
      stops isQuote operand = true ∧ stops (!isBlank ·) rest = true ∧
      ∃ g : Text, g ≠ [] ∧ (∀ c ∈ g, isBlank c = true) ∧
        s = '-' :: letter :: (g ++ (operand ++ rest)) := by
  constructor
  · intro h
    unfold fileTest? at h
    split at h
    · rename_i l s
      split at h
      · rename_i c cs hgap
        split at h
        · rename_i hcond
          simp only [Bool.and_eq_true, bne_iff_ne] at hcond
          simp only [Option.some.injEq, Prod.mk.injEq] at h
          obtain ⟨rfl, rfl, rfl⟩ := h
          obtain ⟨g, hne, hg, hstart, rfl⟩ := gap?_eq_some_iff.1 hgap
          have hc : isBlank c = false := by simpa using hstart
          have hword : word (c :: cs) = c :: word cs := by simp [word, hc]
          refine ⟨hcond.1.1, by simp [hword], ?_, ?_, stops_dropWhile _ _, g, hne, hg, ?_⟩
          · intro d hd
            simpa using forall_takeWhile (!isBlank ·) (c :: cs) d hd
          · simp [hword, isQuote, hcond.1.2, hcond.2]
          · rw [word, afterWord, List.takeWhile_append_dropWhile]
        · simp at h
      · simp at h
    · simp at h
  · rintro ⟨hletter, hne, hsolid, hquote, hrest, g, hgap, hg, rfl⟩
    obtain ⟨c, cs, rfl⟩ := List.exists_cons_of_ne_nil hne
    have hc : isBlank c = false := hsolid c List.mem_cons_self
    have hall : ∀ d ∈ c :: cs, (!isBlank d) = true := fun d hd => by simp [hsolid d hd]
    have hword : word (c :: cs ++ rest) = c :: cs := takeWhile_append_of_stops hall hrest
    have hafter : afterWord (c :: cs ++ rest) = rest := dropWhile_append_of_stops hall hrest
    have hread : gap? (g ++ (c :: cs ++ rest)) = some (c :: cs ++ rest) :=
      gap?_eq_some_iff.2 ⟨g, hgap, hg, by simpa using hc, rfl⟩
    have hmark : c ≠ '"' ∧ c ≠ '\'' := by simpa [isQuote] using hquote
    rw [List.cons_append] at hword hafter hread ⊢
    simp [fileTest?, hread, hletter, hmark, hword, hafter]

namespace Token

/-- What follows a token of `Separated` ones begins with a blank, if there is anything. -/
theorem stops_gap_append (t : Token) {tokens : List Token} (h : Separated (t :: tokens)) :
    stops (!isBlank ·) (t.gap ++ render tokens) = true := by
  cases hgap : t.gap with
  | nil =>
    cases tokens with
    | nil => rfl
    | cons u rest => exact absurd hgap h.1
  | cons c g => simp [t.blank c (by rw [hgap]; exact List.mem_cons_self)]

theorem word_append (t : Token) {s : Text} (hs : stops (!isBlank ·) s = true) :
    word (t.text ++ s) = t.text :=
  takeWhile_append_of_stops (fun c hc => by simp [t.solid c hc]) hs

theorem stops_isBlank_text (t : Token) (s : Text) : stops isBlank (t.text ++ s) = true := by
  rw [stops_append s t.ne_nil]
  exact stops_of_forall t.solid

theorem fileTest?_pair {t u : Token} {rest : List Token} (hsep : Separated (t :: u :: rest))
    (ht : t.isFlag = true) (hu : u.isQuoted = false) :
    ∃ letter, t.text = ['-', letter] ∧ fileTest? (render (t :: u :: rest)) =
      some (letter, u.text, u.gap ++ render rest) := by
  obtain ⟨letter, hletter, htext⟩ := t.isFlag_iff.1 ht
  refine ⟨letter, htext, fileTest?_eq_some_iff.2 ⟨hletter, u.ne_nil, u.solid, ?_,
    u.stops_gap_append hsep.2, t.gap, hsep.1, t.blank, ?_⟩⟩
  · simpa [isQuoted] using hu
  · rw [render, render, htext]
    rfl

/-- What `fileTest?` finds at the start of tokens is a flag and a token without a quote at its
    start. -/
theorem pair_of_fileTest? {t : Token} {tokens : List Token} {found : Char × Text × Text}
    (hsep : Separated (t :: tokens)) (h : fileTest? (render (t :: tokens)) = some found) :
    ∃ u rest, tokens = u :: rest ∧ t.isFlag = true ∧ u.isQuoted = false := by
  obtain ⟨letter, operand, after⟩ := found
  obtain ⟨hletter, hne, hsolid, hquote, hafter, g, hgap, hg, htext⟩ := fileTest?_eq_some_iff.1 h
  have hflag : ∀ c ∈ ['-', letter], (!isBlank c) = true := by
    have hdash : isBlank '-' = false := by decide
    simp [hdash, isBlank_of_isAlpha hletter]
  -- both the token and the flag are the first word
  have hstop : stops (!isBlank ·) (g ++ (operand ++ after)) = true := by
    rw [stops_append _ hgap]
    exact stops_of_forall fun c hc => by simp [hg c hc]
  have hword : t.text = ['-', letter] := by
    have hfirst := t.word_append (t.stops_gap_append hsep)
    rw [render] at htext
    rw [htext] at hfirst
    rw [← hfirst]
    exact takeWhile_append_of_stops hflag hstop
  rw [render, hword] at htext
  have hrest : t.gap ++ render tokens = g ++ (operand ++ after) :=
    (List.cons.inj (List.cons.inj htext).2).2
  have hoperand : stops isBlank (operand ++ after) = true := by
    rw [stops_append after hne]
    exact stops_of_forall hsolid
  cases tokens with
  | nil =>
    -- blanks alone have no operand in them
    have hnone : trimStart (t.gap ++ render []) = [] := trimStart_append t.blank rfl
    rw [hrest, trimStart_append hg hoperand] at hnone
    exact absurd (List.append_eq_nil_iff.1 hnone).1 hne
  | cons u rest =>
    have hnext : trimStart (t.gap ++ render (u :: rest)) = render (u :: rest) :=
      trimStart_append t.blank (u.stops_isBlank_text _)
    rw [hrest, trimStart_append hg hoperand, render] at hnext
    refine ⟨u, rest, rfl, t.isFlag_iff.2 ⟨letter, hletter, hword⟩, ?_⟩
    have hstart := congrArg (stops isQuote) hnext
    rw [stops_append _ hne, stops_append _ u.ne_nil, hquote] at hstart
    rw [isQuoted, ← hstart]
    rfl

end Token

/-- `quoteFrom` keeps blanks, and a token may begin behind them. -/
theorem quoteFrom_blanks_append {g : Text} (hg : ∀ c ∈ g, isBlank c = true) (hne : g ≠ [])
    (fresh : Bool) (s : Text) : quoteFrom fresh (g ++ s) = g ++ quoteFrom true s := by
  induction g generalizing fresh with
  | nil => exact absurd rfl hne
  | cons c g ih =>
    obtain ⟨hc, hg⟩ := List.forall_mem_cons.1 hg
    have hnone : fileTest? (c :: (g ++ s)) = none := by
      cases h : fileTest? (c :: (g ++ s)) with
      | none => rfl
      | some found =>
        obtain ⟨_, _, _, _, _, _, _, _, htext⟩ := fileTest?_eq_some_iff.1 h
        rw [(List.cons.inj htext).1] at hc
        exact absurd hc (by decide)
    rw [List.cons_append, quoteFrom_cons_of_none (by rw [hnone, ite_self]), hc]
    cases g with
    | nil => rfl
    | cons d g => exact congrArg (c :: ·) (ih hg (List.cons_ne_nil _ _) true)

/-- Within a token `quoteFrom` quotes nothing. -/
theorem quoteFrom_solid_append {w : Text} (hw : ∀ c ∈ w, isBlank c = false) (s : Text) :
    quoteFrom false (w ++ s) = w ++ quoteFrom false s := by
  induction w with
  | nil => rfl
  | cons c w ih =>
    obtain ⟨hc, hw⟩ := List.forall_mem_cons.1 hw
    rw [List.cons_append, quoteFrom_cons_of_none rfl, hc, ih hw, List.cons_append]

namespace Token

/-- Behind a token `quoteFrom` goes on with the next one. -/
theorem quoteFrom_gap_append (t : Token) {tokens : List Token} (h : Separated (t :: tokens)) :
    quoteFrom false (t.gap ++ render tokens) = t.gap ++ quoteFrom true (render tokens) := by
  by_cases hgap : t.gap = []
  · cases tokens with
    | nil => simp [hgap, render]
    | cons u rest => exact absurd hgap h.1
  · exact quoteFrom_blanks_append t.blank hgap false _

/-- The scan of a token that begins no `fileTest?` keeps it. -/
theorem quoteFrom_kept {t : Token} {tokens : List Token} (hsep : Separated (t :: tokens))
    (h : fileTest? (render (t :: tokens)) = none) :
    quoteFrom true (render (t :: tokens)) = t.text ++ (t.gap ++ quoteFrom true (render tokens)) := by
  obtain ⟨c, cs, htext⟩ := List.exists_cons_of_ne_nil t.ne_nil
  have hsolid := t.solid
  rw [render, htext] at h ⊢
  rw [htext] at hsolid
  obtain ⟨hc, hcs⟩ := List.forall_mem_cons.1 hsolid
  rw [List.cons_append] at h ⊢
  rw [quoteFrom_cons_of_none (by rw [h, ite_self]), hc, quoteFrom_solid_append hcs,
    t.quoteFrom_gap_append hsep, List.cons_append]

/-- The scan of tokens quotes the operands among them: `quoteOperands`. -/
theorem quoteFrom_render {tokens : List Token} (hsep : Separated tokens) :
    quoteFrom true (render tokens) = render (quoteOperands tokens) := by
  induction tokens using quoteOperands.induct with
  | case1 t u rest h ih =>
    obtain ⟨ht, hu⟩ := Bool.and_eq_true_iff.1 h
    have hu : u.isQuoted = false := by simpa using hu
    obtain ⟨letter, htext, hread⟩ := fileTest?_pair hsep ht hu
    rw [quoteOperands_pair rest ht hu]
    have hlater : Separated rest := by
      cases rest with
      | nil => trivial
      | cons v rest => exact hsep.2.2
    have hscan : quoteFrom true (render (t :: u :: rest)) =
        ['-', letter, ' ', '"'] ++ u.text ++ ['"'] ++ quoteFrom false (u.gap ++ render rest) := by
      rw [render, htext] at hread ⊢
      exact quoteFrom_cons_of_some ((if_pos rfl).trans hread)
    rw [hscan, u.quoteFrom_gap_append hsep.2, ih hlater]
    simp [render, spaced, quoted, htext]
  | case2 t u rest h ih =>
    have h : (t.isFlag && !u.isQuoted) = false := by simpa using h
    have hnone : fileTest? (render (t :: u :: rest)) = none := by
      cases hread : fileTest? (render (t :: u :: rest)) with
      | none => rfl
      | some found =>
        obtain ⟨v, more, hv, hflag, hquoted⟩ := pair_of_fileTest? hsep hread
        obtain ⟨rfl, rfl⟩ := List.cons.inj hv
        simp [hflag, hquoted] at h
    rw [quoteFrom_kept hsep hnone, ih hsep.2, quoteOperands_kept rest h]
    rfl
  | case3 t =>
    have hnone : fileTest? (render [t]) = none := by
      cases hread : fileTest? (render [t]) with
      | none => rfl
      | some found =>
        obtain ⟨v, more, hv, _⟩ := pair_of_fileTest? hsep hread
        cases hv
    rw [quoteFrom_kept hsep hnone, render, quoteFrom_nil]
    rfl
  | case4 => exact quoteFrom_nil true

end Token

/-- What `quoteFileTests` quotes is the layout of the text, token by token. -/
theorem quoteFileTests_text (l : Layout) : quoteFileTests l.text = l.quoted.text := by
  have hscan : quoteFrom true (l.lead ++ Token.render l.tokens) =
      l.lead ++ quoteFrom true (Token.render l.tokens) := by
    by_cases hlead : l.lead = []
    · rw [hlead, List.nil_append, List.nil_append]
    · exact quoteFrom_blanks_append l.blank hlead true _
  rw [quoteFileTests, Layout.text, hscan, Token.quoteFrom_render l.separated]
  rfl

/-- **File tests are quoted token by token, once and for all.** Every text has a `Layout` of tokens
    with blanks around them. From the left, the token behind a flag is put in quotes, one space
    apart, unless it begins with a quote, and the scan goes on behind it; everything else is kept.
    Quoting a second time changes nothing. -/
theorem quoteFileTests_tokenwise :
    (∀ c : Text, ∃ l : Layout, l.text = c) ∧
      (∀ l : Layout, quoteFileTests l.text = l.quoted.text) ∧
      ∀ c : Text, quoteFileTests (quoteFileTests c) = quoteFileTests c := by
  refine ⟨Layout.exists_text_eq, quoteFileTests_text, fun c => ?_⟩
  obtain ⟨l, rfl⟩ := Layout.exists_text_eq c
  have htwice : l.quoted.quoted.text = l.quoted.text :=
    congrArg (l.lead ++ Token.render ·) (Token.quoteOperands_quoteOperands l.tokens)
  rw [quoteFileTests_text, quoteFileTests_text, htwice]

end Seashell.Condition
