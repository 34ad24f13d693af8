import Seashell.Text.Basic

set_option autoImplicit false

/-! # Scanning from the left

Scanners take a piece off the start of a text and return it with what follows: `upTo?` what stands
before a character, `quoted?` a text in quotes, `run?` characters of a class, and `gap?` blanks.
Each leaves less than it read, which is why the loops over them end; the lemmas here say so, one for
each scanner.

Names are ASCII identifiers (`isName`), as variables and labels have them. -/

namespace Seashell.Text

/-! ## Scanners -/

/-- What stands before the first `close`, and what follows it. -/
def upTo? (close : Char) : Text → Option (Text × Text)
  | [] => none
  | c :: cs =>
    if c = close then some ([], cs)
    else (upTo? close cs).map fun (inner, rest) => (c :: inner, rest)

/-- A text in quotes `q` at the start, quotes included, and what follows it. -/
def quoted? (q : Char) : Text → Option (Text × Text)
  | c :: cs => if c = q then (upTo? q cs).map fun (inner, rest) => (q :: inner ++ [q], rest) else none
  | [] => none

/-- A non-empty run of characters of the class `p` at the start of `s`, and what follows it. -/
def run? (p : Char → Bool) (s : Text) : Option (Text × Text) :=
  if (s.takeWhile p).isEmpty then none else some (s.takeWhile p, s.dropWhile p)

/-- Skips blanks, of which there has to be one at least; gives `s` from there on. -/
def gap? (s : Text) : Option Text := if (blanks s).isEmpty then none else some (trimStart s)

/-- Drops the quotes around a text that starts and ends with the same quote character. -/
def unquote : Text → Text
  | [] => []
  | q :: rest =>
    if (q = '"' ∨ q = '\'') ∧ rest.getLast? = some q then rest.dropLast else q :: rest

/-! ## Names -/

/-- A character that may begin a name: an ASCII letter or an underscore. -/
def isNameStart (c : Char) : Bool := c.isAlpha || c == '_'

/-- A character that may continue a name: one of `isNameStart`, or an ASCII digit. -/
def isNameChar (c : Char) : Bool := c.isAlphanum || c == '_'

/-- An ASCII identifier: `isNameStart`, then `isNameChar` to the end. -/
def isName : Text → Bool
  | [] => false
  | c :: cs => isNameStart c && cs.all isNameChar

/-! ## What a scanner leaves is shorter than what it read -/

theorem length_dropWhile_le (p : Char → Bool) (s : Text) : (s.dropWhile p).length ≤ s.length :=
  (List.dropWhile_suffix p).length_le

theorem length_trimStart_le (s : Text) : (trimStart s).length ≤ s.length :=
  length_dropWhile_le isBlank s

theorem length_lt_of_upTo? {close : Char} {s inner rest : Text}
    (h : upTo? close s = some (inner, rest)) : rest.length < s.length := by
  induction s generalizing inner with
  | nil => simp [upTo?] at h
  | cons c cs ih =>
    rw [upTo?] at h
    split at h
    · simp only [Option.some.injEq, Prod.mk.injEq] at h
      simp [h.2]
    · obtain ⟨⟨a, r⟩, ha, hr⟩ := Option.map_eq_some_iff.1 h
      simp only [Prod.mk.injEq] at hr
      have := ih (hr.2 ▸ ha)
      simp only [List.length_cons]
      omega

theorem length_lt_of_quoted? {q : Char} {s t rest : Text} (h : quoted? q s = some (t, rest)) :
    rest.length < s.length := by
  unfold quoted? at h
  split at h
  · split at h
    · obtain ⟨⟨a, r⟩, ha, hr⟩ := Option.map_eq_some_iff.1 h
      simp only [Prod.mk.injEq] at hr
      have := length_lt_of_upTo? (hr.2 ▸ ha)
      simp only [List.length_cons]
      omega
    · simp at h
  · simp at h

theorem length_lt_of_run? {p : Char → Bool} {s t rest : Text} (h : run? p s = some (t, rest)) :
    rest.length < s.length := by
  unfold run? at h
  split at h
  · simp at h
  · rename_i hne
    simp only [Option.some.injEq, Prod.mk.injEq] at h
    have hsplit := congrArg List.length (List.takeWhile_append_dropWhile (p := p) (l := s))
    have hpos : 0 < (s.takeWhile p).length := by
      cases hs : s.takeWhile p with
      | nil => simp [hs] at hne
      | cons _ _ => simp
    rw [List.length_append] at hsplit
    rw [← h.2]
    omega

theorem length_le_of_gap? {s rest : Text} (h : gap? s = some rest) : rest.length ≤ s.length := by
  unfold gap? at h
  split at h
  · simp at h
  · simp only [Option.some.injEq] at h
    exact h ▸ length_trimStart_le s

end Seashell.Text
