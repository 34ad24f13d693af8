import Seashell.Proofs.Documents.Portable
import Seashell.Yaml.Lexeme
import Seashell.Yaml.Writer

set_option autoImplicit false

/-! # Places in YAML that was written

The writer folds long texts, so that a scalar may take several lines. This module holds what all
styles have in common: how a `Cursor` moves over blanks and line breaks (`move_newLine`), that there
is no mark of a document within a line (`atMarker_eq_false`), and what `fold` does to a run of
blanks (`fold_blanks`) and to a text without any (`fold_solid`). The scalars without quotes and in
single quotes both build on it. -/

namespace Seashell.Yaml

open Text

/-! ## Characters that are written -/

theorem isBreak_iff {c : Char} (h : isSpecial c = false) : isBreak c = true ↔ c = '\n' := by
  constructor
  · intro hc
    simp only [isBreak, Bool.or_eq_true, beq_iff_eq] at hc
    rcases hc with (rfl | rfl) | rfl
    · rfl
    · exact absurd h (by decide)
    · exact absurd h (by decide)
  · rintro rfl
    rfl

theorem isSpace_iff {c : Char} (h : isSpecial c = false) : isSpace c = true ↔ c = ' ' := by
  constructor
  · intro hc
    simp only [isSpace, Bool.or_eq_true, beq_iff_eq] at hc
    rcases hc with rfl | rfl
    · rfl
    · exact absurd h (by decide)
  · rintro rfl
    rfl

theorem isWhite_eq_false {c : Char} (h : isSpecial c = false) (hblank : c ≠ ' ') (hfeed : c ≠ '\n') :
    isWhite c = false := by
  rw [isWhite, Bool.or_eq_false_iff]
  exact ⟨Bool.eq_false_iff.2 (mt (isSpace_iff h).1 hblank),
    Bool.eq_false_iff.2 (mt (isBreak_iff h).1 hfeed)⟩

theorem not_special_of_style {t : Text} (h : styleOf t ≠ .double) : ∀ c ∈ t, isSpecial c = false := by
  simp only [styleOf] at h
  split at h
  · exact absurd rfl h
  · rename_i hdouble
    simp only [Bool.or_eq_true, not_or, Bool.not_eq_true, List.any_eq_false] at hdouble
    exact fun c hc => by simpa using hdouble.1.1 c hc

/-! ## Moving over text -/

namespace Cursor

theorem move_add (p : Cursor) (m n : Nat) : p.move (m + n) = (p.move m).move n := by
  induction m generalizing p with
  | zero => rw [Nat.zero_add, move]
  | succ m ih => rw [Nat.succ_add, move, move, ih]

theorem rest_next {p : Cursor} {c : Char} {s : Text} (h : p.rest = c :: s) : p.next.rest = s := by
  rw [next, h]
  dsimp only
  split <;> rfl

theorem rest_move {p : Cursor} {t s : Text} (h : p.rest = t ++ s) : (p.move t.length).rest = s := by
  induction t generalizing p with
  | nil => exact h
  | cons c cs ih => exact ih (rest_next h)

theorem line_le_next (p : Cursor) : p.line ≤ p.next.line := by
  rw [next]
  split
  · exact Nat.le_refl _
  · split <;> simp

theorem line_le_move (p : Cursor) (n : Nat) : p.line ≤ (p.move n).line := by
  induction n generalizing p with
  | zero => exact Nat.le_refl _
  | succ n ih => exact Nat.le_trans p.line_le_next (ih p.next)

/-- A character that stays on its line: `Cursor.next` adds one to the column. -/
def isInline (c : Char) : Bool := !isBreak c && c != '\ufeff'

theorem next_inline {p : Cursor} {c : Char} {s : Text} (h : p.rest = c :: s) (hc : isInline c = true) :
    p.next = ⟨s, p.index + 1, p.line, p.column + 1⟩ := by
  simp only [isInline, Bool.and_eq_true, Bool.not_eq_true', bne_iff_ne] at hc
  simp [next, h, hc]

theorem move_inline {p : Cursor} {t s : Text} (h : p.rest = t ++ s) (ht : ∀ c ∈ t, isInline c = true) :
    p.move t.length = ⟨s, p.index + t.length, p.line, p.column + t.length⟩ := by
  induction t generalizing p with
  | nil =>
    cases p
    exact congrArg (Cursor.mk · _ _ _) h
  | cons c cs ih =>
    have hnext := next_inline h (ht c List.mem_cons_self)
    rw [List.length_cons, move, ih (rest_next h) fun d hd => ht d (List.mem_cons_of_mem c hd), hnext]
    simp only [Cursor.mk.injEq, true_and]
    omega

theorem isInline_of_mem_spaces {n : Nat} {c : Char} (h : c ∈ spaces n) : isInline c = true := by
  rw [List.eq_of_mem_replicate h]
  rfl

/-- Moving over a line break and the indentation of the next line, as `newLine` writes them. -/
theorem move_newLine {p : Cursor} {n : Nat} {s : Text} (h : p.rest = newLine n ++ s) :
    p.move (n + 1) = ⟨s, p.index + 1 + n, p.line + 1, n⟩ := by
  have hnext : p.next = ⟨spaces n ++ s, p.index + 1, p.line + 1, 0⟩ := by
    simp [next, h, newLine, isBreak]
  have hmove := move_inline (p := p.next) (t := spaces n) (by rw [hnext])
    fun c hc => isInline_of_mem_spaces hc
  rw [move]
  simpa [hnext, spaces] using hmove

theorem span_eq {p : Cursor} {test : Char → Bool} {t s : Text} (h : p.rest = t ++ s)
    (ht : ∀ c ∈ t, test c = true) (hs : stops test s = true) :
    p.span test = (t, p.move t.length) := by
  rw [span, h, takeWhile_append_of_stops ht hs]

theorem rest_move_spaces {p : Cursor} {k : Nat} {s : Text} (h : p.rest = spaces k ++ s) :
    (p.move k).rest = s := by
  have := rest_move h
  rwa [spaces, List.length_replicate] at this

theorem span_spaces {p : Cursor} {test : Char → Bool} {k : Nat} {s : Text} (h : p.rest = spaces k ++ s)
    (hblank : test ' ' = true) (hs : stops test s = true) : p.span test = (spaces k, p.move k) := by
  have := span_eq h (fun c hc => by rw [List.eq_of_mem_replicate hc, hblank]) hs
  rwa [spaces, List.length_replicate] at this

/-- There is no mark for the beginning or end of a document within a line. -/
theorem atMarker_eq_false {p : Cursor} (h : p.column ≠ 0) : p.atMarker = false := by
  simp [atMarker, atStart, atStop, h]

end Cursor

theorem isInline_of_not_special {c : Char} (h : isSpecial c = false) (hfeed : c ≠ '\n') :
    Cursor.isInline c = true := by
  have hbreak : isBreak c = false := Bool.eq_false_iff.2 (mt (isBreak_iff h).1 hfeed)
  have hmark : c ≠ '\ufeff' := by rintro rfl; exact absurd h (by decide)
  simp [Cursor.isInline, hbreak, hmark]

/-! ## Folding -/

theorem spaces_succ (k : Nat) : spaces (k + 1) = ' ' :: spaces k := rfl

/-- The run of the character `c` at the start of a text. -/
theorem eq_replicate_append (c : Char) (t : Text) :
    ∃ k s, t = List.replicate k c ++ s ∧ stops (· == c) s = true := by
  refine ⟨(t.takeWhile (· == c)).length, t.dropWhile (· == c), ?_, stops_dropWhile _ t⟩
  have hall : t.takeWhile (· == c) = List.replicate (t.takeWhile (· == c)).length c :=
    List.eq_replicate_iff.2 ⟨rfl, fun d hd => by simpa using forall_takeWhile _ t d hd⟩
  rw [← hall, List.takeWhile_append_dropWhile]

section Folding

variable {indent : Nat} {emit : Char → Text}

theorem fold_cons {column : Nat} {before : Before} {c : Char} (cs : Text) (hblank : c ≠ ' ')
    (hfeed : c ≠ '\n') :
    fold indent emit column before (c :: cs)
      = emit c ++ fold indent emit (column + (emit c).length) .other cs := by
  rw [fold, if_neg hblank, if_neg hfeed]

theorem fold_more_blanks (column k : Nat) (s : Text) :
    fold indent emit column .space (spaces k ++ s)
      = spaces k ++ fold indent emit (column + k) .space s := by
  induction k generalizing column with
  | zero => rfl
  | succ k ih =>
    rw [spaces_succ, List.cons_append, fold, if_pos rfl, if_neg (by simp), ih (column + 1),
      Nat.add_assoc, Nat.add_comm 1 k, List.cons_append]

/-- `fold` writes blanks as they are, or else there is one, at which the line ends. -/
theorem fold_blanks (indent : Nat) (emit : Char → Text) (column : Nat) (before : Before) {k : Nat}
    (hk : 0 < k) (s : Text) :
    ∃ gap later, fold indent emit column before (spaces k ++ s)
        = gap ++ fold indent emit later .space s ∧
      (gap = spaces k ∨ k = 1 ∧ s ≠ [] ∧ gap = newLine indent) := by
  obtain ⟨k, rfl⟩ := Nat.exists_eq_succ_of_ne_zero (Nat.ne_of_gt hk)
  rw [Nat.succ_eq_add_one, spaces_succ, List.cons_append, fold, if_pos rfl]
  split
  · rename_i hbreak
    cases k with
    | zero => exact ⟨newLine indent, indent, rfl, .inr ⟨rfl, hbreak.2.1, rfl⟩⟩
    | succ k => exact absurd rfl hbreak.2.2.1
  · refine ⟨' ' :: spaces k, column + 1 + k, ?_, .inl rfl⟩
    rw [fold_more_blanks, List.cons_append]

end Folding

/-- `fold` keeps a text without blanks on its line. -/
theorem fold_solid (indent : Nat) {t : Text} (hblank : ' ' ∉ t) (hfeed : '\n' ∉ t) (column : Nat)
    (before : Before) :
    fold indent (fun c => [c]) column before t = t := by
  induction t generalizing column before with
  | nil => rfl
  | cons c cs ih =>
    simp only [List.mem_cons, not_or] at hblank hfeed
    rw [fold_cons cs (Ne.symm hblank.1) (Ne.symm hfeed.1), ih hblank.2 hfeed.2]
    rfl

end Seashell.Yaml
