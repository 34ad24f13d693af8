import Seashell.Proofs.Trace

set_option autoImplicit false

/-! # Two ways to cut a text into lines

A text in memory is split at its terminators in two passes (`splitLines`): carriage returns with a
line feed behind them are joined first. A file is read line by line (`readLines`), and each line is
cleaned of its terminator (`cleanLine`). Both give the same lines to a conversion, whatever
terminators the text has and however it ends: `map_cleanLine_readLines`, by induction over the text,
with the two readers brought to one form, a character put in front of the first line (`consFirst`).
`Trace.ofLines_readLines` carries this over to a run, which sees nothing of a line but what is left
when it is cleaned.

Lines that are put together with one `Terminator` (`unlines`) are cut apart again into the same
lines, `splitLines_unlines`. -/

namespace Seashell.Text

/-! ## Splitting, terminator by terminator -/

/-- The pieces of a text between line feeds, without an empty one at the end. -/
def pieces (s : Text) : List Text :=
  if (List.splitOn '\n' s).getLast? = some [] then (List.splitOn '\n' s).dropLast else List.splitOn '\n' s

theorem pieces_feed (s : Text) : pieces ('\n' :: s) = [] :: pieces s := by
  obtain ⟨piece, more, hsplit⟩ := List.exists_cons_of_ne_nil (List.splitOn_ne_nil '\n' s)
  simp only [pieces, List.splitOn_cons_eq_if_modifyHead, beq_self_eq_true, ↓reduceIte, hsplit,
    List.getLast?_cons_cons, List.dropLast_cons_cons]
  split <;> rfl

/-- The lines of a text with one more character in front, which goes to the first line. -/
def consFirst (c : Char) : List Text → List Text
  | [] => [[c]]
  | line :: lines => (c :: line) :: lines

theorem pieces_cons {c : Char} (s : Text) (hc : c ≠ '\n') :
    pieces (c :: s) = consFirst c (pieces s) := by
  obtain ⟨piece, more, hsplit⟩ := List.exists_cons_of_ne_nil (List.splitOn_ne_nil '\n' s)
  have hsep : (c == '\n') = false := by simp [hc]
  simp only [pieces, List.splitOn_cons_eq_if_modifyHead, hsep, Bool.false_eq_true, ↓reduceIte, hsplit,
    List.modifyHead_cons]
  cases more with
  | nil => cases piece <;> simp [consFirst]
  | cons next more =>
    simp only [List.getLast?_cons_cons, List.dropLast_cons_cons]
    split <;> rfl

/-- The text with a line feed for each terminator; `joinReturns` has made one character of those
    that are two. -/
def feeds (s : Text) : Text := (joinReturns s).map fun c => if c = '\r' then '\n' else c

theorem splitLines_eq (s : Text) : splitLines s = pieces (feeds s) := rfl

/-- The text goes on with the second half of a terminator that `c` begins. -/
def goesOn (c : Char) (s : Text) : Bool := c == '\r' && s.head? == some '\n'

theorem joinReturns_cons {c : Char} {s : Text} (h : goesOn c s = false) :
    joinReturns (c :: s) = c :: joinReturns s := by
  rw [joinReturns]
  rintro rest rfl rfl
  cases h

theorem splitLines_returnFeed (s : Text) : splitLines ('\r' :: '\n' :: s) = [] :: splitLines s := by
  have hfeeds : feeds ('\r' :: '\n' :: s) = '\n' :: feeds s := by simp [feeds, joinReturns]
  rw [splitLines_eq, hfeeds, pieces_feed]
  rfl

theorem splitLines_break {c : Char} {s : Text} (hc : isBreak c = true) (h : goesOn c s = false) :
    splitLines (c :: s) = [] :: splitLines s := by
  have hfeeds : feeds (c :: s) = '\n' :: feeds s := by
    rw [feeds, joinReturns_cons h, List.map_cons]
    rcases Bool.or_eq_true_iff.1 hc with hc | hc
    · rw [eq_of_beq hc]
      rfl
    · rw [eq_of_beq hc]
      rfl
  rw [splitLines_eq, hfeeds, pieces_feed]
  rfl

theorem splitLines_cons {c : Char} (s : Text) (hc : isBreak c = false) :
    splitLines (c :: s) = consFirst c (splitLines s) := by
  obtain ⟨hfeed, hreturn⟩ := Bool.or_eq_false_iff.1 hc
  have hfeeds : feeds (c :: s) = c :: feeds s := by
    have hjoin := joinReturns_cons (c := c) (s := s) (by simp [goesOn, hreturn])
    simp only [feeds, hjoin, List.map_cons, if_neg (beq_eq_false_iff_ne.1 hreturn)]
  rw [splitLines_eq, hfeeds, pieces_cons _ (beq_eq_false_iff_ne.1 hfeed)]
  rfl

/-! ## Splitting what was put together -/

/-- The terminators of a line. -/
inductive Terminator where
  | lineFeed | returnLineFeed | carriageReturn

/-- A terminator as it is written, with one character or two. -/
def Terminator.text : Terminator → Text
  | .lineFeed => ['\n']
  | .returnLineFeed => ['\r', '\n']
  | .carriageReturn => ['\r']

/-- Lines as one text, each with the terminator `eol`. -/
def unlines (eol : Terminator) (lines : List Text) : Text := lines.flatMap (· ++ eol.text)

/-- No line begins with the second half of a terminator, so that `goesOn` is false between lines. -/
theorem goesOn_unlines {lines : List Text} (h : ∀ line ∈ lines, unbroken line = true) :
    goesOn '\r' (unlines .carriageReturn lines) = false := by
  cases lines with
  | nil => rfl
  | cons line lines =>
    cases line with
    | nil => rfl
    | cons c cs =>
      have hc : c ≠ '\n' := by
        rintro rfl
        exact absurd (h _ List.mem_cons_self) (by simp [isBreak])
      simpa [goesOn, unlines] using hc

theorem splitLines_unlines_cons (eol : Terminator) (line : Text) {lines : List Text}
    (hline : unbroken line = true) (h : ∀ line ∈ lines, unbroken line = true) :
    splitLines (unlines eol (line :: lines)) = line :: splitLines (unlines eol lines) := by
  induction line with
  | nil =>
    cases eol with
    | lineFeed => exact splitLines_break rfl rfl
    | returnLineFeed => exact splitLines_returnFeed _
    | carriageReturn => exact splitLines_break rfl (goesOn_unlines h)
  | cons c cs ih =>
    obtain ⟨hc, hcs⟩ := Bool.and_eq_true_iff.1 hline
    have hsplit : unlines eol ((c :: cs) :: lines) = c :: unlines eol (cs :: lines) := rfl
    rw [hsplit, splitLines_cons _ (by simpa using hc), ih hcs]
    rfl

theorem splitLines_unlines (eol : Terminator) {lines : List Text}
    (h : ∀ line ∈ lines, unbroken line = true) : splitLines (unlines eol lines) = lines := by
  induction lines with
  | nil => rfl
  | cons line lines ih =>
    obtain ⟨hline, hlines⟩ := List.forall_mem_cons.1 h
    rw [splitLines_unlines_cons eol line hline hlines, ih hlines]

/-! ## Reading line by line -/

open LineStep

theorem map_cleanLine_consFirst {c : Char} (lines : List Text) (hc : isBreak c = false) :
    (consFirst c lines).map cleanLine = consFirst c (lines.map cleanLine) := by
  cases lines with
  | nil => simp [consFirst, cleanLine_cons [] hc]; rfl
  | cons line lines => simp [consFirst, cleanLine_cons line hc]

theorem readLines_cons {c : Char} {s : Text} (h : goesOn c s = false) :
    readLines (c :: s) =
      if isBreak c then ['\n'] :: readLines s else consFirst c (readLines s) := by
  rw [readLines]
  · simp only [isBreak, Bool.or_eq_true, beq_iff_eq, or_comm]
    split
    · rfl
    · cases readLines s <;> rfl
  · rintro rest rfl rfl
    cases h

/-- **The two ways agree**: the lines of a file by `readLines`, cleaned one by one, are the lines
    that its text splits into by `splitLines`. -/
theorem map_cleanLine_readLines (s : Text) : (readLines s).map cleanLine = splitLines s := by
  induction s using joinReturns.induct with
  | case1 => rfl
  | case2 s ih =>
    rw [readLines, splitLines_returnFeed, List.map_cons, ih]
    rfl
  | case3 c s hpair ih =>
    -- a carriage return before a line feed is the case above
    have hgoes : goesOn c s = false := by
      cases hgoes : goesOn c s with
      | false => rfl
      | true =>
        obtain ⟨hc, hs⟩ := Bool.and_eq_true_iff.1 hgoes
        obtain ⟨rest, rfl⟩ := List.head?_eq_some_iff.1 (eq_of_beq hs)
        exact (hpair rest (eq_of_beq hc) rfl).elim
    rw [readLines_cons hgoes]
    cases hc : isBreak c with
    | true =>
      rw [if_pos rfl, splitLines_break hc hgoes, List.map_cons, ih]
      rfl
    | false =>
      rw [if_neg (by simp), splitLines_cons s hc, map_cleanLine_consFirst _ hc, ih]

end Seashell.Text

/-! ## Conversions of lines -/

namespace Seashell.Trace

open LineStep Text

/-- A conversion sees nothing of a line but what `cleanLine` leaves. -/
theorem ofLinesFrom_congr {lines lines' : List Text} (number : Nat) (block : Block)
    (h : lines.map cleanLine = lines'.map cleanLine) :
    ofLinesFrom number block lines = ofLinesFrom number block lines' := by
  induction lines generalizing number block lines' with
  | nil =>
    rw [List.map_nil, eq_comm, List.map_eq_nil_iff] at h
    rw [h]
  | cons raw rest ih =>
    obtain ⟨raw', rest', rfl, hraw, hrest⟩ := List.map_eq_cons_iff.1 h.symm
    have hstep : ofRaw number block raw = ofRaw number block raw' := by simp only [ofRaw, hraw]
    simp only [ofLinesFrom_cons, hstep, ih _ _ hrest.symm]

/-- A file, read by `readLines`, is converted as its text is. -/
theorem ofLines_readLines (block : Block) (s : Text) :
    ofLines block (readLines s) = ofLines block (splitLines s) := by
  refine ofLinesFrom_congr 1 block ?_
  rw [map_cleanLine_readLines, map_cleanLine_of_unbroken fun line => unbroken_of_mem_splitLines]

end Seashell.Trace
