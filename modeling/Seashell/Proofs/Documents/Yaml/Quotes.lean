import Seashell.Assoc
import Seashell.Proofs.Documents.Yaml.Places

set_option autoImplicit false

/-! # Scalars in quotes

A text in single or double quotes is read back from the lines that it takes. `ReadsQuoted` says so
of what is written between the quotes, for either reader and whatever follows, and
`ReadsQuoted.prepend` adds a piece in front: this is the step of both inductions.

In single quotes a run of line feeds is written with one more (`fold_feeds`), and a text begins with
a gap or with something visible (`fold_gap`, `fold_visible`): `readsSingle_fold`. In double quotes a
backslash ends a line, and every character that cannot be shown is escaped. What `foldEscaped` does
with one character is one of the six cases of `EscapedStep`, each of which is read back:
`readsDouble_fold`. -/

namespace Seashell.Yaml

open Text

/-! ## Gaps in quotes -/

theorem quotedGap_blanks {p : Cursor} {k : Nat} {d : Char} {s : Text} (hp : p.rest = spaces k ++ d :: s)
    (hd : isWhite d = false) : quotedGap p = .ok (spaces k, p.move k) := by
  simp only [isWhite, Bool.or_eq_false_iff] at hd
  have hspan : p.span isSpace = (spaces k, p.move k) := Cursor.span_spaces hp rfl (by simp [hd.1])
  have hrest : (p.move k).rest = d :: s := Cursor.rest_move_spaces hp
  simp only [quotedGap, hspan, hrest, hd.2]
  rfl

theorem quotedBreaks_eq {p : Cursor} {m n : Nat} {d : Char} {s : Text}
    (hp : p.rest = List.replicate m '\n' ++ (spaces n ++ d :: s)) (hn : 0 < n) (hd : isWhite d = false) :
    quotedBreaks p = .ok (List.replicate m '\n', p.move (m + n)) := by
  have hspan : p.span isWhite = (List.replicate m '\n' ++ spaces n, p.move (m + n)) := by
    have hall : ∀ c ∈ List.replicate m '\n' ++ spaces n, isWhite c = true := by
      intro c hc
      rcases List.mem_append.1 hc with hc | hc <;> rw [List.eq_of_mem_replicate hc] <;> rfl
    have := Cursor.span_eq (hp.trans (List.append_assoc _ _ _).symm) hall (by simp [hd])
    simpa [spaces] using this
  have hmarker : (p.move (m + n)).atMarker = false := by
    have hm : (p.move m).rest = spaces n ++ d :: s := by
      simpa using Cursor.rest_move hp
    have hplace := Cursor.move_inline hm fun c hc => Cursor.isInline_of_mem_spaces hc
    rw [spaces, List.length_replicate] at hplace
    rw [Cursor.move_add, hplace]
    exact Cursor.atMarker_eq_false (by dsimp only; omega)
  have hfilter : (List.replicate m '\n' ++ spaces n).filter isBreak = List.replicate m '\n' := by
    simp [spaces, isBreak]
  simp only [quotedBreaks, hspan, hmarker, hfilter]
  rfl

/-- Line breaks in quotes stand for one less, or for a blank if there is only one: `quotedGap`. -/
theorem quotedGap_breaks {p : Cursor} {m n : Nat} {d : Char} {s : Text}
    (hp : p.rest = List.replicate (m + 1) '\n' ++ (spaces n ++ d :: s)) (hn : 0 < n)
    (hd : isWhite d = false) :
    quotedGap p = .ok (if m = 0 then [' '] else List.replicate m '\n', p.move (m + 1 + n)) := by
  have hspan : p.span isSpace = ([], p) := by
    rw [Cursor.span, hp]
    rfl
  have hbreaks := quotedBreaks_eq (p := p.next) (m := m) (Cursor.rest_next hp) hn hd
  have hmove : p.move (m + 1 + n) = p.next.move (m + n) := by
    rw [Nat.add_right_comm, Cursor.move]
  have hfold : foldedBreak '\n' (List.replicate m '\n')
      = if m = 0 then [' '] else List.replicate m '\n' := by
    cases m <;> rfl
  rw [hmove, ← hfold]
  simp only [quotedGap, hspan, hp, List.replicate_succ, List.cons_append, hbreaks]
  rfl

/-! ## Gaps that are written -/

/-- A text `t` that single quotes can hold: blanks and line feeds do not meet. -/
structure Quotable (t : Text) : Prop where
  written : ∀ c ∈ t, isSpecial c = false
  blankFeed : hasPart " \n" t = false
  feedBlank : hasPart "\n " t = false

theorem quotable_of_style {t : Text} (h : styleOf t ≠ .double) : Quotable t := by
  simp only [styleOf] at h
  split at h
  · exact absurd rfl h
  · rename_i hdouble
    simp only [Bool.or_eq_true, not_or, Bool.not_eq_true, List.any_eq_false] at hdouble
    exact ⟨fun c hc => by simpa using hdouble.1.1 c hc, hdouble.1.2, hdouble.2⟩

theorem Quotable.of_append {w s : Text} (h : Quotable (w ++ s)) : Quotable s where
  written c hc := h.written c (List.mem_append_right w hc)
  blankFeed := by
    have := h.blankFeed
    rw [← Bool.not_eq_true, hasPart_iff] at this ⊢
    exact fun hs => this (hs.trans (List.suffix_append w s).isInfix)
  feedBlank := by
    have := h.feedBlank
    rw [← Bool.not_eq_true, hasPart_iff] at this ⊢
    exact fun hs => this (hs.trans (List.suffix_append w s).isInfix)

theorem head?_ne_of_hasPart {a b : Char} {k : Nat} {s : Text}
    (h : hasPart [a, b] (List.replicate (k + 1) a ++ s) = false) : s.head? ≠ some b := by
  intro hs
  obtain ⟨r, rfl⟩ : ∃ r, s = b :: r := by
    cases s with
    | nil => simp at hs
    | cons c cs => exact ⟨cs, by simpa using hs⟩
  have hpart : [a, b] <:+: List.replicate (k + 1) a ++ b :: r :=
    ⟨List.replicate k a, r, by simp [List.replicate_succ', List.append_assoc]⟩
  rw [hasPart_iff.2 hpart] at h
  exact absurd h (by decide)

theorem fold_more_feeds {indent : Nat} {emit : Char → Text} (column m : Nat) {s : Text}
    (hs : stops (· == '\n') s = true) :
    fold indent emit column .lineFeed (List.replicate (m + 1) '\n' ++ s)
      = List.replicate (m + 1) '\n' ++ (spaces indent ++ fold indent emit indent .lineFeed s) := by
  induction m generalizing column with
  | zero =>
    have hhead : s.head? ≠ some '\n' := by
      cases s <;> simp_all
    simp [fold, hhead]
  | succ m ih =>
    rw [List.replicate_succ, List.cons_append, fold, if_neg (by decide), if_pos rfl, if_pos rfl,
      if_pos (by rfl), ih]
    simp

/-- `fold` writes line feeds with one more, and the indentation of the next line. -/
theorem fold_feeds {indent : Nat} {emit : Char → Text} (column m : Nat) {before : Before} {s : Text}
    (hbefore : before ≠ .lineFeed) (hs : stops (· == '\n') s = true) :
    fold indent emit column before (List.replicate (m + 1) '\n' ++ s)
      = List.replicate (m + 2) '\n' ++ (spaces indent ++ fold indent emit indent .lineFeed s) := by
  rw [List.replicate_succ, List.cons_append, fold, if_neg (by decide), if_pos rfl, if_neg hbefore]
  cases m with
  | zero =>
    have hhead : s.head? ≠ some '\n' := by
      cases s <;> simp_all
    simp [hhead]
  | succ m =>
    rw [if_pos (by rfl), fold_more_feeds indent m hs]
    rfl

theorem stops_isWhite {s : Text} (hs : ∀ c ∈ s, isSpecial c = false) (hblank : s.head? ≠ some ' ')
    (hfeed : s.head? ≠ some '\n') : stops isWhite s = true := by
  cases s with
  | nil => rfl
  | cons c cs =>
    have := isWhite_eq_false (hs c List.mem_cons_self) (by simpa using hblank) (by simpa using hfeed)
    simp [this]

/-- What `gap` in a text becomes: the reader takes it for the gap, if something visible follows. -/
structure GapWritten (written gap : Text) : Prop where
  starts : ∃ c s, written = c :: s ∧ isWhite c = true
  reads : ∀ {p : Cursor} {d : Char} {s : Text}, p.rest = written ++ d :: s → isWhite d = false →
    quotedGap p = .ok (gap, p.move written.length)

theorem gapWritten_blanks (k : Nat) : GapWritten (spaces (k + 1)) (spaces (k + 1)) where
  starts := ⟨' ', spaces k, rfl, rfl⟩
  reads hp hd := by
    rw [spaces, List.length_replicate]
    exact quotedGap_blanks hp hd

theorem gapWritten_breaks (m : Nat) {indent : Nat} (hindent : 0 < indent) :
    GapWritten (List.replicate (m + 1) '\n' ++ spaces indent)
      (if m = 0 then [' '] else List.replicate m '\n') where
  starts := ⟨'\n', List.replicate m '\n' ++ spaces indent, rfl, rfl⟩
  reads hp hd := by
    rw [List.append_assoc] at hp
    rw [List.length_append, spaces, List.length_replicate, List.length_replicate]
    exact quotedGap_breaks hp hindent hd

/-- A `Quotable` text that begins with white space begins with a gap. -/
theorem fold_gap {indent : Nat} (hindent : 0 < indent) (emit : Char → Text) (column : Nat) {before : Before}
    {c : Char} {cs : Text} (ht : Quotable (c :: cs)) (hc : c = ' ' ∨ c = '\n' ∧ before ≠ .lineFeed) :
    ∃ written gap s later more, GapWritten written gap ∧ gap ≠ [] ∧ c :: cs = gap ++ s ∧
      stops isWhite s = true ∧
      fold indent emit column before (c :: cs) = written ++ fold indent emit later more s := by
  obtain ⟨k, s, rfl, hs⟩ := eq_replicate_append c cs
  have ht' : Quotable (List.replicate (k + 1) c ++ s) := ht
  have hwritten := ht'.of_append.written
  have hhead : s.head? ≠ some c := by
    cases s <;> simp_all
  rcases hc with rfl | ⟨rfl, hbefore⟩
  · obtain ⟨written, later, hfold, hgap⟩ := fold_blanks indent emit column before (Nat.succ_pos k) s
    have hstops := stops_isWhite hwritten hhead (head?_ne_of_hasPart ht'.blankFeed)
    rcases hgap with rfl | ⟨hone, _, rfl⟩
    · exact ⟨_, _, s, later, .space, gapWritten_blanks k, by simp [spaces], rfl, hstops, hfold⟩
    · obtain rfl : k = 0 := by omega
      exact ⟨_, _, s, later, .space, gapWritten_breaks 0 hindent, by simp, rfl, hstops, hfold⟩
  · have hstops := stops_isWhite hwritten (head?_ne_of_hasPart ht'.feedBlank) hhead
    refine ⟨_, _, s, indent, .lineFeed, gapWritten_breaks (k + 1) hindent, by simp, rfl, hstops, ?_⟩
    exact (fold_feeds column k hbefore hs).trans (List.append_assoc _ _ _).symm

/-! ## Quoted scalars -/

/-- What is `written` in quotes, between which a scalar is read by a `reader` of its rest, is read
    as the text `t`: the reader stops behind the closing quote, before `tail`. -/
def ReadsQuoted (reader : Nat → Cursor → Except Fault Lexeme) (quote : Char) (tail t written : Text) :
    Prop :=
  ∀ (fuel : Nat) (p : Cursor), p.rest = written ++ quote :: tail → p.rest.length < fuel →
    ∃ q : Cursor, reader fuel p = .ok ⟨t, q⟩ ∧ q.rest = tail ∧ p.line ≤ q.line

/-- A reader that takes a `piece` of what is written for a `part` of the text goes on behind it. -/
theorem ReadsQuoted.prepend {reader : Nat → Cursor → Except Fault Lexeme} {quote : Char}
    {tail t written : Text} (h : ReadsQuoted reader quote tail t written) (part : Text) {piece : Text}
    (hpiece : piece ≠ [])
    (hstep : ∀ {fuel : Nat} {p : Cursor} {l : Lexeme}, p.rest = piece ++ (written ++ quote :: tail) →
      reader fuel (p.move piece.length) = .ok l → reader (fuel + 1) p = .ok (l.prepend part)) :
    ReadsQuoted reader quote tail (part ++ t) (piece ++ written) := by
  intro fuel p hp hfuel
  rw [List.append_assoc] at hp
  have hrest := Cursor.rest_move hp
  have hlength : p.rest.length = piece.length + (p.move piece.length).rest.length := by
    rw [hp, hrest, List.length_append]
  have hpos : 0 < piece.length := List.length_pos_iff.2 hpiece
  obtain ⟨fuel, rfl⟩ := Nat.exists_eq_succ_of_ne_zero (Nat.ne_of_gt (Nat.zero_lt_of_lt hfuel))
  obtain ⟨q, hread, hq, hline⟩ := h fuel _ hrest (by omega)
  exact ⟨q, hstep hp hread, hq, Nat.le_trans (p.line_le_move _) hline⟩

/-! ## In single quotes -/

/-- A quote is written twice, any other character as it is. -/
def doubled (c : Char) : Text := if c = '\'' then ['\'', '\''] else [c]

theorem doubled_ne_nil (c : Char) : doubled c ≠ [] := by
  unfold doubled
  split <;> simp

theorem readsSingle_nil {tail : Text} (htail : tail.head? ≠ some '\'') :
    ReadsQuoted singleFrom '\'' tail [] [] := by
  intro fuel p hp hfuel
  obtain ⟨fuel, rfl⟩ := Nat.exists_eq_succ_of_ne_zero (Nat.ne_of_gt (Nat.zero_lt_of_lt hfuel))
  refine ⟨p.next, ?_, Cursor.rest_next hp, p.line_le_next⟩
  cases tail with
  | nil => simp [singleFrom, hp]
  | cons c cs =>
    have hc : c ≠ '\'' := by simpa using htail
    simp [singleFrom, hp, hc]

theorem readsSingle_cons {tail t written : Text} (h : ReadsQuoted singleFrom '\'' tail t written) {c : Char}
    (hc : isWhite c = false) : ReadsQuoted singleFrom '\'' tail (c :: t) (doubled c ++ written) := by
  refine h.prepend [c] (doubled_ne_nil c) fun {fuel p l} hp hread => ?_
  by_cases hquote : c = '\''
  · subst hquote
    have hp' : p.rest = '\'' :: '\'' :: (written ++ '\'' :: tail) := hp
    have hread' : singleFrom fuel (p.move 2) = .ok l := hread
    simp [singleFrom, hp', hread', bind, Except.bind, pure, Except.pure]
  · rw [doubled, if_neg hquote] at hp hread
    have hread' : singleFrom fuel p.next = .ok l := hread
    simp [singleFrom, hp, hquote, hc, hread', bind, Except.bind, pure, Except.pure]

theorem readsSingle_gap {tail t written : Text} (h : ReadsQuoted singleFrom '\'' tail t written)
    {piece gap : Text} (hgap : GapWritten piece gap)
    (hvisible : ∃ d r, written ++ '\'' :: tail = d :: r ∧ isWhite d = false) :
    ReadsQuoted singleFrom '\'' tail (gap ++ t) (piece ++ written) := by
  obtain ⟨c, s, rfl, hc⟩ := hgap.starts
  obtain ⟨d, r, hd, hwhite⟩ := hvisible
  refine h.prepend gap (by simp) fun {fuel p l} hp hread => ?_
  rw [List.length_cons] at hread
  have hquote : c ≠ '\'' := by rintro rfl; exact absurd hc (by decide)
  have hp' : p.rest = c :: (s ++ d :: r) := by rw [hp, hd]; rfl
  simp [singleFrom, hp', hquote, hc, hgap.reads hp' hwhite, hread, bind, Except.bind, pure, Except.pure]

/-- Text without white space at its start is visible at once in what `fold` writes. -/
theorem fold_visible (indent column : Nat) (before : Before) {s : Text} (hs : stops isWhite s = true)
    (tail : Text) :
    ∃ d r, fold indent doubled column before s ++ '\'' :: tail = d :: r ∧ isWhite d = false := by
  cases s with
  | nil => exact ⟨'\'', tail, rfl, rfl⟩
  | cons c cs =>
    have hc : isWhite c = false := by simpa using hs
    have hblank : c ≠ ' ' := by rintro rfl; exact absurd hc (by decide)
    have hfeed : c ≠ '\n' := by rintro rfl; exact absurd hc (by decide)
    rw [fold_cons cs hblank hfeed, doubled]
    split
    · exact ⟨'\'', _, rfl, rfl⟩
    · exact ⟨c, _, rfl, hc⟩

/-- A text that `fold` has folded is read back from single quotes. -/
theorem readsSingle_fold {indent : Nat} (hindent : 0 < indent) {tail : Text} (htail : tail.head? ≠ some '\'')
    {t : Text} (ht : Quotable t) (column : Nat) {before : Before}
    (hbefore : t.head? = some '\n' → before ≠ .lineFeed) :
    ReadsQuoted singleFrom '\'' tail t (fold indent doubled column before t) := by
  -- the induction goes over whole gaps, which the reader takes at once
  induction hn : t.length using Nat.strongRecOn generalizing t column before with
  | ind n ih =>
    cases t with
    | nil => exact readsSingle_nil htail
    | cons c cs =>
      by_cases hwhite : c = ' ' ∨ c = '\n'
      · have hc : c = ' ' ∨ c = '\n' ∧ before ≠ .lineFeed :=
          hwhite.imp_right fun h => ⟨h, hbefore (by rw [h]; rfl)⟩
        obtain ⟨written, gap, s, later, more, hgap, hne, hcs, hs, hfold⟩ :=
          fold_gap hindent doubled column ht hc
        have hlength : s.length < n := by
          have := List.length_pos_iff.2 hne
          rw [← hn, hcs, List.length_append]
          omega
        rw [hfold, hcs]
        refine readsSingle_gap (ih _ hlength (hcs ▸ ht : Quotable (gap ++ s)).of_append later ?_ rfl) hgap
          (fold_visible indent later more hs tail)
        intro hfeed
        cases s <;> simp_all [isWhite, isBreak]
      · obtain ⟨hblank, hfeed⟩ := not_or.1 hwhite
        have hc := isWhite_eq_false (ht.written c List.mem_cons_self) hblank hfeed
        rw [fold_cons cs hblank hfeed]
        exact readsSingle_cons
          (ih _ (by rw [← hn]; simp) (Quotable.of_append (w := [c]) ht) _ (by simp) rfl) hc

/-! ## In double quotes -/

theorem hexUpper_eq (width n : Nat) : hexUpper width n = (hexLower width n).map Char.toUpper := by
  simp [hexUpper, hexLower, show '0'.toUpper = '0' by decide]

theorem toNatFrom?_map {base n : Nat} {s : Text} {f : Char → Char}
    (h : ∀ c ∈ s, digitValue? base (f c) = digitValue? base c) :
    toNatFrom? base n (s.map f) = toNatFrom? base n s := by
  induction s generalizing n with
  | nil => rfl
  | cons c cs ih =>
    rw [List.map_cons, toNatFrom?, toNatFrom?, h c List.mem_cons_self]
    exact congrArg _ (funext fun d => ih fun e he => h e (List.mem_cons_of_mem c he))

theorem toNat?_hexUpper (width n : Nat) : toNat? 16 (hexUpper width n) = some n := by
  have hupper : ∀ d : Fin 16, digitValue? 16 d.val.digitChar.toUpper = digitValue? 16 d.val.digitChar := by
    decide
  have hdigits : ∀ c ∈ hexLower width n, digitValue? 16 c.toUpper = digitValue? 16 c := by
    intro c hc
    obtain ⟨d, rfl⟩ := mem_hexLower hc
    exact hupper d
  have hlower : toNat? 16 (hexLower width n) = some n := toNat?_hexLower
  rwa [toNat?, ← toNatFrom?_map hdigits, ← List.isEmpty_map, ← hexUpper_eq] at hlower

theorem length_hexUpper {width n : Nat} (h : (Nat.toDigits 16 n).length ≤ width) :
    (hexUpper width n).length = width := by
  rw [hexUpper_eq, List.length_map, length_hexLower h]

theorem codePoint_hexUpper {width : Nat} {c : Char} (h : (Nat.toDigits 16 c.toNat).length ≤ width)
    (s : Text) :
    codePoint ((hexUpper width c.toNat ++ s).take width) width = .ok c := by
  have hvalid : c.toNat < 0xD800 ∨ 0xDFFF < c.toNat ∧ c.toNat < 0x110000 := c.valid
  have hlength := length_hexUpper h
  have htake : (hexUpper width c.toNat ++ s).take width = hexUpper width c.toNat :=
    List.take_left' hlength
  rw [htake, codePoint, if_pos hlength, toNat?_hexUpper]
  dsimp only
  rw [if_neg (by omega), if_neg (by omega), if_pos (by omega), Char.ofNat_toNat]

theorem shortEscapes_spec : ∀ e ∈ shortEscapes, escapeLetters.lookup e.2 = some e.1 := by decide

/-- An escape by code point (`hexUpper`) is read as its character. -/
theorem escaped_width {p : Cursor} {letter c : Char} {width : Nat} {s : Text}
    (hp : p.rest = letter :: hexUpper width c.toNat ++ s) (hletter : escapeLetters.lookup letter = none)
    (hwidth : escapeWidths.lookup letter = some width) (h : (Nat.toDigits 16 c.toNat).length ≤ width) :
    escaped p = .ok ([c], p.move (letter :: hexUpper width c.toNat).length) := by
  have hp' : p.rest = letter :: (hexUpper width c.toNat ++ s) := hp
  rw [List.length_cons, length_hexUpper h]
  simp [escaped, hp', hletter, hwidth, codePoint_hexUpper h, bind, Except.bind, pure, Except.pure]

/-- An `escape` consists of a backslash and what the reader takes for the character. -/
theorem escape_eq (c : Char) :
    ∃ body, escape c = '\\' :: body ∧ ∀ {p : Cursor} {s : Text}, p.rest = body ++ s →
      escaped p = .ok ([c], p.move body.length) := by
  rw [escape]
  split
  · rename_i letter hletter
    refine ⟨[letter], rfl, fun {p s} hp => ?_⟩
    have hp' : p.rest = letter :: s := hp
    simp [escaped, hp', shortEscapes_spec _ (Assoc.mem_of_lookup hletter)]
    rfl
  · have hvalid : c.toNat < 0xD800 ∨ 0xDFFF < c.toNat ∧ c.toNat < 0x110000 := c.valid
    have hdigits : ∀ {width : Nat}, 0 < width → c.toNat < 16 ^ width →
        (Nat.toDigits 16 c.toNat).length ≤ width := (Nat.length_toDigits_le_iff (by decide) · |>.2 ·)
    split
    · exact ⟨'x' :: hexUpper 2 c.toNat, rfl, fun hp =>
        escaped_width hp (by decide) (by decide) (hdigits (by decide) (by omega))⟩
    · split
      · exact ⟨'u' :: hexUpper 4 c.toNat, rfl, fun hp =>
          escaped_width hp (by decide) (by decide) (hdigits (by decide) (by omega))⟩
      · exact ⟨'U' :: hexUpper 8 c.toNat, rfl, fun hp =>
          escaped_width hp (by decide) (by decide) (hdigits (by decide) (by omega))⟩

theorem readsDouble_nil (tail : Text) : ReadsQuoted doubleFrom '"' tail [] [] := by
  intro fuel p hp hfuel
  obtain ⟨fuel, rfl⟩ := Nat.exists_eq_succ_of_ne_zero (Nat.ne_of_gt (Nat.zero_lt_of_lt hfuel))
  exact ⟨p.next, by simp [doubleFrom, hp], Cursor.rest_next hp, p.line_le_next⟩

section Double

variable {tail t written : Text}

/-- What follows a backslash is read as the `escaped` text that it is. -/
theorem readsDouble_escaped (h : ReadsQuoted doubleFrom '"' tail t written) (part : Text) {body : Text}
    (hbody : ∀ {p : Cursor}, p.rest = body ++ (written ++ '"' :: tail) →
      escaped p = .ok (part, p.move body.length)) :
    ReadsQuoted doubleFrom '"' tail (part ++ t) ('\\' :: body ++ written) := by
  refine h.prepend part (by simp) fun {fuel p l} hp hread => ?_
  have hmove : doubleFrom fuel (p.next.move body.length) = .ok l := hread
  have hp' : p.rest = '\\' :: (body ++ (written ++ '"' :: tail)) := hp
  simp [doubleFrom, hp', hbody (Cursor.rest_next hp'), hmove, bind, Except.bind, pure, Except.pure]

theorem readsDouble_escape (h : ReadsQuoted doubleFrom '"' tail t written) (c : Char) :
    ReadsQuoted doubleFrom '"' tail (c :: t) (escape c ++ written) := by
  obtain ⟨body, hbody, hread⟩ := escape_eq c
  rw [hbody]
  exact readsDouble_escaped h [c] hread

/-- A blank may be escaped in double quotes. -/
theorem readsDouble_escapedBlank (h : ReadsQuoted doubleFrom '"' tail t written) :
    ReadsQuoted doubleFrom '"' tail (' ' :: t) ('\\' :: ' ' :: written) := by
  have hblank : ∀ {p : Cursor}, p.rest = [' '] ++ (written ++ '"' :: tail) →
      escaped p = .ok ([' '], p.move ([' '] : Text).length) := by
    intro p hp
    have hp' : p.rest = ' ' :: (written ++ '"' :: tail) := hp
    have hletter : escapeLetters.lookup ' ' = some ' ' := by decide
    simp only [escaped, hp', hletter]
    rfl
  exact readsDouble_escaped h [' '] hblank

/-- The end of a line is escaped together with the indentation of the next (`newLine`). -/
theorem readsDouble_newLine (h : ReadsQuoted doubleFrom '"' tail t written) {indent : Nat}
    (hindent : 0 < indent) (hvisible : ∃ d r, written ++ '"' :: tail = d :: r ∧ isWhite d = false) :
    ReadsQuoted doubleFrom '"' tail t ('\\' :: newLine indent ++ written) := by
  obtain ⟨d, r, hd, hwhite⟩ := hvisible
  refine readsDouble_escaped h [] fun {p} hp => ?_
  rw [hd] at hp
  have hp' : p.rest = '\n' :: (spaces indent ++ d :: r) := hp
  have hbreaks : quotedBreaks p.next = .ok ([], p.next.move (0 + indent)) :=
    quotedBreaks_eq (m := 0) (Cursor.rest_next hp) hindent hwhite
  have hletter : escapeLetters.lookup '\n' = none := by decide
  have hwidth : escapeWidths.lookup '\n' = none := by decide
  have hmove : p.move (newLine indent).length = p.next.move (0 + indent) := by
    simp [newLine, spaces, Cursor.move]
  simp only [escaped, hp', hletter, hwidth, hbreaks, hmove]
  rfl

theorem isWhite_of_not_escaped {c : Char} (hc : isEscaped c = false) (hblank : c ≠ ' ') :
    isWhite c = false := by
  have hshown : (!(decide (0x20 ≤ c.toNat) && decide (c.toNat ≤ 0x7E))) = false := by
    simp only [isEscaped, Bool.or_eq_false_iff] at hc
    exact hc.2
  have hfeed : c ≠ '\n' := by rintro rfl; exact absurd hshown (by decide)
  exact isWhite_eq_false (by rw [isSpecial, hshown, Bool.and_false]) hblank hfeed

theorem readsDouble_char (h : ReadsQuoted doubleFrom '"' tail t written) {c : Char}
    (hc : isEscaped c = false) (hblank : c ≠ ' ') :
    ReadsQuoted doubleFrom '"' tail (c :: t) (c :: written) := by
  have hwhite := isWhite_of_not_escaped hc hblank
  simp only [isEscaped, Bool.or_eq_false_iff, beq_eq_false_iff_ne] at hc
  refine h.prepend [c] (List.cons_ne_nil c []) fun {fuel p l} hp hread => ?_
  have hp' : p.rest = c :: (written ++ '"' :: tail) := hp
  have hnext : doubleFrom fuel p.next = .ok l := hread
  simp [doubleFrom, hp', hc, hwhite, hnext, bind, Except.bind, pure, Except.pure]

theorem doubleFrom_gap (fuel : Nat) {p q : Cursor} {s gap : Text} (hp : p.rest = ' ' :: s)
    (hgap : quotedGap p = .ok (gap, q)) :
    doubleFrom (fuel + 1) p = (doubleFrom fuel q).map (·.prepend gap) := by
  simp only [doubleFrom, hp, hgap, bind, Except.bind]
  cases doubleFrom fuel q <;> rfl

/-- A blank is read together with those that follow it, as far as something visible. -/
theorem readsDouble_blank (h : ReadsQuoted doubleFrom '"' tail t written)
    (hvisible : ∃ k d r, written ++ '"' :: tail = spaces k ++ d :: r ∧ isWhite d = false) :
    ReadsQuoted doubleFrom '"' tail (' ' :: t) (' ' :: written) := by
  obtain ⟨k, d, r, hd, hwhite⟩ := hvisible
  intro fuel p hp hfuel
  have hp' : p.rest = ' ' :: (written ++ '"' :: tail) := hp
  have hrest := Cursor.rest_next hp'
  have hlength : p.rest.length = p.next.rest.length + 1 := by rw [hp', hrest, List.length_cons]
  obtain ⟨fuel, rfl⟩ := Nat.exists_eq_succ_of_ne_zero (Nat.ne_of_gt (Nat.zero_lt_of_lt hfuel))
  have hread := doubleFrom_gap fuel hp' (quotedGap_blanks (k := k + 1) (by rw [hp', hd]; rfl) hwhite)
  cases k with
  | zero =>
    obtain ⟨q, hnext, hq, hline⟩ := h fuel p.next hrest (by omega)
    refine ⟨q, ?_, hq, Nat.le_trans p.line_le_next hline⟩
    exact hread.trans (congrArg (Except.map _) hnext)
  | succ k =>
    -- from the next place on the reader would take the further blanks alone
    obtain ⟨q, hnext, hq, hline⟩ := h (fuel + 1) p.next hrest (by omega)
    have hmore := doubleFrom_gap fuel (hrest.trans hd) (quotedGap_blanks (k := k + 1) (hrest.trans hd) hwhite)
    have hmove : p.move (k + 1 + 1) = p.next.move (k + 1) := rfl
    refine ⟨q, ?_, hq, Nat.le_trans p.line_le_next hline⟩
    rw [hread, hmove]
    rw [hnext] at hmore
    cases hl : doubleFrom fuel (p.next.move (k + 1)) with
    | error f =>
      rw [hl] at hmore
      exact absurd hmore (by simp [Except.map])
    | ok l =>
      rw [hl] at hmore
      have ht : ⟨t, q⟩ = l.prepend (spaces (k + 1)) := Except.ok.inj hmore
      have htext : ⟨' ' :: t, q⟩ = l.prepend (spaces (k + 1 + 1)) :=
        congrArg (Lexeme.prepend [' ']) ht
      exact congrArg Except.ok htext.symm

end Double

/-- What the character `c` before `cs` becomes in double quotes. -/
inductive EscapedStep (indent : Nat) (c : Char) (cs : Text) : Text → Prop where
  /-- An escape. -/
  | escape (later : Nat) (hc : isEscaped c = true) :
    EscapedStep indent c cs (escape c ++ foldEscaped indent later false true cs)
  /-- An escape at which the line ends. -/
  | escapeBreak (later : Nat) (hc : isEscaped c = true) (hcs : cs.head? ≠ some ' ') :
    EscapedStep indent c cs
      (escape c ++ ('\\' :: newLine indent ++ foldEscaped indent later false true cs))
  /-- An escape at which the line ends before a blank, which a backslash marks. -/
  | escapeBlank (hc : isEscaped c = true) (hcs : cs.head? = some ' ') :
    EscapedStep indent c cs
      (escape c ++ ('\\' :: newLine indent ++ '\\' :: foldEscaped indent (indent + 1) false true cs))
  /-- The character itself. -/
  | char (later : Nat) (hc : isEscaped c = false) :
    EscapedStep indent c cs (c :: foldEscaped indent later false false cs)
  /-- The character on a new line. -/
  | breakChar (later : Nat) (hc : isEscaped c = false) (hblank : c ≠ ' ') :
    EscapedStep indent c cs ('\\' :: newLine indent ++ c :: foldEscaped indent later false false cs)
  /-- A blank on a new line, which a backslash marks. -/
  | breakBlank (later : Nat) (hblank : c = ' ') :
    EscapedStep indent c cs ('\\' :: newLine indent ++ '\\' :: ' ' :: foldEscaped indent later false false cs)

theorem escapedStep (indent column : Nat) (first cut : Bool) (c : Char) (cs : Text) :
    EscapedStep indent c cs (foldEscaped indent column first cut (c :: cs)) := by
  rw [foldEscaped]
  dsimp only
  split
  · rename_i hc
    split
    · by_cases hcs : cs.head? = some ' '
      · have hstep : EscapedStep indent c cs _ := .escapeBlank hc hcs
        simpa [hcs] using hstep
      · have hstep : EscapedStep indent c cs _ := .escapeBreak indent hc hcs
        simpa [hcs] using hstep
    · exact .escape _ hc
  · rename_i hc
    have hc' : isEscaped c = false := by simpa using hc
    split
    · by_cases hblank : c = ' '
      · have hstep : EscapedStep indent c cs _ := .breakBlank (indent + 2) hblank
        simpa [hblank] using hstep
      · have hstep : EscapedStep indent c cs _ := .breakChar (indent + 1) hc' hblank
        simpa [hblank] using hstep
    · exact .char _ hc'

/-- After blanks there is something visible in what `foldEscaped` writes. -/
theorem foldEscaped_visible (indent column : Nat) (first cut : Bool) (t tail : Text) :
    ∃ k d r, foldEscaped indent column first cut t ++ '"' :: tail = spaces k ++ d :: r ∧
      isWhite d = false ∧ (t.head? ≠ some ' ' → k = 0) := by
  induction t generalizing column first cut with
  | nil => exact ⟨0, '"', tail, rfl, rfl, fun _ => rfl⟩
  | cons c cs ih =>
    obtain ⟨body, hbody, _⟩ := escape_eq c
    have hslash : isWhite '\\' = false := rfl
    have hstep := escapedStep indent column first cut c cs
    generalize foldEscaped indent column first cut (c :: cs) = written at hstep ⊢
    cases hstep with
    | escape later hc => exact ⟨0, '\\', _, by rw [hbody]; rfl, hslash, fun _ => rfl⟩
    | escapeBreak later hc hcs => exact ⟨0, '\\', _, by rw [hbody]; rfl, hslash, fun _ => rfl⟩
    | escapeBlank hc hcs => exact ⟨0, '\\', _, by rw [hbody]; rfl, hslash, fun _ => rfl⟩
    | char later hc =>
      by_cases hblank : c = ' '
      · obtain ⟨k, d, r, hd, hwhite, _⟩ := ih later false false
        refine ⟨k + 1, d, r, ?_, hwhite, fun h => absurd (by rw [hblank]; rfl) h⟩
        rw [hblank, List.cons_append, hd]
        rfl
      · exact ⟨0, c, _, rfl, isWhite_of_not_escaped hc hblank, fun _ => rfl⟩
    | breakChar later hc hblank => exact ⟨0, '\\', _, rfl, hslash, fun _ => rfl⟩
    | breakBlank later hblank => exact ⟨0, '\\', _, rfl, hslash, fun _ => rfl⟩

theorem foldEscaped_blank {indent column : Nat} {cut : Bool} (cs : Text) (hcolumn : column ≤ bestWidth) :
    foldEscaped indent column false cut (' ' :: cs)
      = ' ' :: foldEscaped indent (column + 1) false false cs := by
  have hescaped : isEscaped ' ' = false := by decide
  have hfits : decide (bestWidth < column) = false := by simpa using hcolumn
  rw [foldEscaped]
  simp [hescaped, hfits]

/-- A text that `foldEscaped` has folded is read back from double quotes. -/
theorem readsDouble_fold {indent : Nat} (hindent : 0 < indent) (hwidth : indent < bestWidth) (tail : Text)
    (t : Text) (column : Nat) (first cut : Bool) :
    ReadsQuoted doubleFrom '"' tail t (foldEscaped indent column first cut t) := by
  induction hn : t.length using Nat.strongRecOn generalizing t column first cut with
  | ind n ih =>
    cases t with
    | nil => exact readsDouble_nil tail
    | cons c cs =>
      have hcs : ∀ later cut, ReadsQuoted doubleFrom '"' tail cs (foldEscaped indent later false cut cs) :=
        fun later cut => ih cs.length (by rw [← hn]; simp) cs later false cut rfl
      have hslash : isWhite '\\' = false := rfl
      have hstep := escapedStep indent column first cut c cs
      generalize foldEscaped indent column first cut (c :: cs) = written at hstep ⊢
      cases hstep with
      | escape later hc => exact readsDouble_escape (hcs later true) c
      | escapeBreak later hc hhead =>
        obtain ⟨k, d, r, hd, hwhite, hk⟩ := foldEscaped_visible indent later false true cs tail
        rw [hk hhead] at hd
        exact readsDouble_escape (readsDouble_newLine (hcs later true) hindent ⟨d, r, hd, hwhite⟩) c
      | escapeBlank hc hhead =>
        obtain ⟨rest, rfl⟩ : ∃ rest, cs = ' ' :: rest := by
          cases cs with
          | nil => simp at hhead
          | cons d ds => exact ⟨ds, by simpa using hhead⟩
        rw [foldEscaped_blank rest hwidth]
        have hshorter : rest.length < n := by
          rw [← hn, List.length_cons, List.length_cons]
          omega
        have hrest := ih rest.length hshorter rest (indent + 1 + 1) false false rfl
        exact readsDouble_escape
          (readsDouble_newLine (readsDouble_escapedBlank hrest) hindent ⟨'\\', _, rfl, hslash⟩) c
      | char later hc =>
        by_cases hblank : c = ' '
        · obtain ⟨k, d, r, hd, hwhite, _⟩ := foldEscaped_visible indent later false false cs tail
          subst hblank
          exact readsDouble_blank (hcs later false) ⟨k, d, r, hd, hwhite⟩
        · exact readsDouble_char (hcs later false) hc hblank
      | breakChar later hc hblank =>
        exact readsDouble_newLine (readsDouble_char (hcs later false) hc hblank) hindent
          ⟨c, _, rfl, isWhite_of_not_escaped hc hblank⟩
      | breakBlank later hblank =>
        subst hblank
        exact readsDouble_newLine (readsDouble_escapedBlank (hcs later false)) hindent ⟨'\\', _, rfl, hslash⟩

end Seashell.Yaml
