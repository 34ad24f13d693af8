import Seashell.Script
import Seashell.Text.Scan

set_option autoImplicit false

/-! # Laws of texts

What the operations on texts do to a text that is put together from parts: a run of characters of a
class followed by something else, lines with terminators between them, text within one line.

Two notions stand for what proofs about texts need again and again. `stops p s` says that `s` does
not begin with a character of the class `p`, so that a scanner for the class ends before it.
`unbroken s` says that `s` stays within one line, which is so for all characters of a text within
one line, in whatever order (`unbroken_of_subset`). Both are `Bool`, so that they are computed for
concrete texts. The rest are laws of blanks (`allBlank`, `trim`), of parts of a text
(`hasPart_iff`), of sorting, and of lines that are joined (`join_append_eq_fileText`). -/

namespace Seashell.Text

/-! ## Runs of a class -/

/-- The text `s` does not begin with a character of the class. -/
def stops (p : Char → Bool) (s : Text) : Bool := s.head?.all (!p ·)

@[simp] theorem stops_nil (p : Char → Bool) : stops p [] = true := rfl

@[simp] theorem stops_cons (p : Char → Bool) (c : Char) (s : Text) : stops p (c :: s) = !p c := rfl

/-- Whether a text stops a class depends on its first part only, if there is something in it. -/
theorem stops_append {p : Char → Bool} {w : Text} (s : Text) (hw : w ≠ []) :
    stops p (w ++ s) = stops p w := by
  cases w with
  | nil => exact absurd rfl hw
  | cons c cs => rfl

theorem stops_of_forall {p : Char → Bool} {s : Text} (h : ∀ c ∈ s, p c = false) :
    stops p s = true := by
  cases s with
  | nil => rfl
  | cons c cs => simp [h c List.mem_cons_self]

theorem head?_beq_of_stops {c : Char} {s : Text} (h : stops (· == c) s = true) :
    (s.head? == some c) = false := by
  cases s with
  | nil => rfl
  | cons d ds => simpa using h

theorem takeWhile_of_stops {p : Char → Bool} {s : Text} (h : stops p s = true) :
    s.takeWhile p = [] := by
  cases s with
  | nil => rfl
  | cons c cs =>
    have hc : p c = false := by simpa using h
    simp [hc]

theorem dropWhile_of_stops {p : Char → Bool} {s : Text} (h : stops p s = true) :
    s.dropWhile p = s := by
  cases s with
  | nil => rfl
  | cons c cs =>
    have hc : p c = false := by simpa using h
    simp [hc]

theorem takeWhile_append_of_stops {p : Char → Bool} {w s : Text} (hw : ∀ c ∈ w, p c = true)
    (hs : stops p s = true) : (w ++ s).takeWhile p = w := by
  rw [List.takeWhile_append_of_pos hw, takeWhile_of_stops hs, List.append_nil]

theorem dropWhile_append_of_stops {p : Char → Bool} {w s : Text} (hw : ∀ c ∈ w, p c = true)
    (hs : stops p s = true) : (w ++ s).dropWhile p = s := by
  rw [List.dropWhile_append_of_pos hw, dropWhile_of_stops hs]

theorem stops_dropWhile (p : Char → Bool) (s : Text) : stops p (s.dropWhile p) = true := by
  induction s with
  | nil => rfl
  | cons c cs ih =>
    rw [List.dropWhile_cons]
    split
    · exact ih
    · rename_i hc
      simpa using hc

theorem forall_takeWhile (p : Char → Bool) (s : Text) : ∀ c ∈ s.takeWhile p, p c = true :=
  List.all_eq_true.1 List.all_takeWhile

/-! ## Blanks around a text -/

theorem trimStart_of_stops {s : Text} (h : stops isBlank s = true) : trimStart s = s :=
  dropWhile_of_stops h

theorem trimStart_append {w s : Text} (hw : ∀ c ∈ w, isBlank c = true)
    (hs : stops isBlank s = true) : trimStart (w ++ s) = s :=
  dropWhile_append_of_stops hw hs

theorem blanks_append {w s : Text} (hw : ∀ c ∈ w, isBlank c = true)
    (hs : stops isBlank s = true) : blanks (w ++ s) = w :=
  takeWhile_append_of_stops hw hs

theorem blanks_append_trimStart (s : Text) : blanks s ++ trimStart s = s :=
  List.takeWhile_append_dropWhile

theorem stops_trimStart (s : Text) : stops isBlank (trimStart s) = true :=
  stops_dropWhile isBlank s

theorem trimEnd_append {s w : Text} (hs : stops isBlank s.reverse = true)
    (hw : ∀ c ∈ w, isBlank c = true) : trimEnd (s ++ w) = s := by
  rw [trimEnd, List.reverse_append,
    dropWhile_append_of_stops (fun c hc => hw c (List.mem_reverse.1 hc)) hs, List.reverse_reverse]

theorem isPrefix_trimEnd (s : Text) : trimEnd s <+: s := by
  have h := List.reverse_prefix.2 (List.dropWhile_suffix isBlank (l := s.reverse))
  rwa [List.reverse_reverse] at h

theorem stops_reverse {s : Text} {d : Char} (hlast : s.getLast? = some d) (hd : isBlank d = false) :
    stops isBlank s.reverse = true := by
  simp [stops, hlast, hd]

theorem trim_append {s w : Text} (hstart : stops isBlank (s ++ w) = true)
    (hend : stops isBlank s.reverse = true) (hw : ∀ c ∈ w, isBlank c = true) :
    trim (s ++ w) = s := by
  rw [trim, trimStart_of_stops hstart, trimEnd_append hend hw]

theorem trim_of_stops {s : Text} (hstart : stops isBlank s = true)
    (hend : stops isBlank s.reverse = true) : trim s = s := by
  have h := trim_append (w := []) (by simpa using hstart) hend (by simp)
  rwa [List.append_nil] at h

/-- `trim` leaves a text without blanks at its start the first character that it had. -/
theorem head?_trim {s : Text} (h : stops isBlank s = true) : (trim s).head? = s.head? := by
  cases s with
  | nil => rfl
  | cons c cs =>
    have hc : isBlank c = false := by simpa using h
    rw [trim, trimStart_of_stops h, trimEnd, List.head?_reverse, List.reverse_cons,
      List.dropWhile_append]
    split <;> simp [hc]

/-- A class without blanks in it stops at blanks, or else behind them. -/
theorem stops_blanks_append {q : Char → Bool} {g s : Text} (hg : ∀ c ∈ g, isBlank c = true)
    (hq : ∀ c, isBlank c = true → q c = false) (hs : stops q s = true) :
    stops q (g ++ s) = true := by
  cases g with
  | nil => exact hs
  | cons c cs => simp [hq c (hg c List.mem_cons_self)]

theorem allBlank_iff {s : Text} : allBlank s = true ↔ ∀ c ∈ s, isBlank c = true := by
  simp [allBlank]

/-- A text has something else than blanks exactly if `trimStart` leaves something. -/
theorem allBlank_iff_trimStart {s : Text} : allBlank s = true ↔ trimStart s = [] := by
  rw [allBlank_iff]
  constructor
  · intro h
    have := trimStart_append (s := []) h rfl
    rwa [List.append_nil] at this
  · intro h c hc
    rw [← blanks_append_trimStart s, h, List.append_nil] at hc
    exact forall_takeWhile isBlank s c hc

/-! ## Parts of a text -/

/-- By `hasPart` a part stands in a text in one piece. -/
theorem hasPart_iff {part s : Text} : hasPart part s = true ↔ part <:+: s := by
  induction s with
  | nil => simp [hasPart]
  | cons c cs ih =>
    rw [hasPart, Bool.or_eq_true, List.isPrefixOf_iff_prefix, ih, List.infix_cons_iff]

/-- A part without the `mark` in it stands on one side of the mark. -/
theorem isInfix_append_cons {part s t : Text} {mark : Char} (hmark : mark ∉ part)
    (h : part <:+: s ++ mark :: t) : part <:+: s ∨ part <:+: t := by
  obtain ⟨before, after, h⟩ := h
  rw [List.append_assoc] at h
  rcases List.append_eq_append_iff.1 h with ⟨more, hs, hmore⟩ | ⟨more, _, hmore⟩
  · -- the part begins before the mark, and so it ends before it
    rcases List.append_eq_append_iff.1 hmore with ⟨rest, hrest, _⟩ | ⟨rest, hpart, hrest⟩
    · exact .inl ⟨before, rest, by rw [hs, hrest, List.append_assoc]⟩
    · cases rest with
      | nil => exact .inl ⟨before, [], by rw [hs, hpart]; simp⟩
      | cons c cs =>
        obtain ⟨rfl, _⟩ := List.cons.inj hrest
        exact absurd (by rw [hpart]; simp) hmark
  · cases more with
    | nil =>
      cases part with
      | nil => exact .inr (List.nil_infix)
      | cons c cs =>
        obtain ⟨rfl, _⟩ := List.cons.inj hmore
        exact absurd List.mem_cons_self hmark
    | cons c cs =>
      have ht : t = cs ++ (part ++ after) := (List.cons.inj hmore).2
      exact .inr ⟨cs, after, by rw [ht, List.append_assoc]⟩

/-! ## Text within one line -/

/-- A character that ends a line. -/
def isBreak (c : Char) : Bool := c == '\n' || c == '\r'

/-- The text ends no line. -/
def unbroken (s : Text) : Bool := s.all (!isBreak ·)

theorem unbroken_iff {s : Text} : unbroken s = true ↔ '\n' ∉ s ∧ '\r' ∉ s := by
  simp only [unbroken, isBreak, List.all_eq_true, Bool.not_eq_true', Bool.or_eq_false_iff,
    beq_eq_false_iff_ne, ne_eq]
  constructor
  · intro h
    exact ⟨fun hm => (h _ hm).1 rfl, fun hm => (h _ hm).2 rfl⟩
  · rintro ⟨hn, hr⟩ c hc
    exact ⟨fun he => hn (he ▸ hc), fun he => hr (he ▸ hc)⟩

@[simp] theorem unbroken_nil : unbroken [] = true := rfl

@[simp] theorem unbroken_cons (c : Char) (s : Text) :
    unbroken (c :: s) = (!isBreak c && unbroken s) := rfl

@[simp] theorem unbroken_append (s t : Text) : unbroken (s ++ t) = (unbroken s && unbroken t) :=
  List.all_append

/-- What has only characters of a text within one line is within one line. -/
theorem unbroken_of_subset {s t : Text} (h : t ⊆ s) (hs : unbroken s = true) :
    unbroken t = true := by
  rw [unbroken_iff] at hs ⊢
  exact ⟨fun hm => hs.1 (h hm), fun hm => hs.2 (h hm)⟩

theorem firstLine_of_not_mem {s : Text} (h : '\n' ∉ s) : firstLine s = s := by
  have hall : ∀ c ∈ s, (c != '\n') = true := fun c hc => bne_iff_ne.2 fun he => h (he ▸ hc)
  have htake := takeWhile_append_of_stops (s := []) hall rfl
  rwa [List.append_nil] at htake

/-! ## Joining pieces -/

theorem join_cons_cons (sep first second : Text) (more : List Text) :
    join sep (first :: second :: more) = first ++ (sep ++ join sep (second :: more)) := by
  simp [join, List.intercalate_cons_cons]

theorem mem_join {sep c : Char} {pieces : List Text} (hc : c ≠ sep) :
    c ∈ join [sep] pieces ↔ ∃ piece ∈ pieces, c ∈ piece := by
  induction pieces with
  | nil => simp [join]
  | cons piece pieces ih =>
    cases pieces with
    | nil => simp [join]
    | cons next rest =>
      rw [join_cons_cons, List.singleton_append, List.mem_append, List.mem_cons, ih]
      simp [hc]

/-! ## Cutting at a separator -/

theorem not_mem_of_mem_splitOn {sep : Char} {s piece : Text} (h : piece ∈ List.splitOn sep s) :
    sep ∉ piece := by
  induction s generalizing piece with
  | nil =>
    have : piece = [] := by simpa using h
    simp [this]
  | cons c cs ih =>
    obtain ⟨first, more, hcs⟩ := List.exists_cons_of_ne_nil (List.splitOn_ne_nil sep cs)
    rw [List.splitOn_cons_eq_if_modifyHead, hcs, List.modifyHead_cons] at h
    rw [hcs] at ih
    split at h
    · rcases List.mem_cons.1 h with rfl | h
      · simp
      · exact ih h
    · rename_i hc
      rcases List.mem_cons.1 h with rfl | h
      · simp only [List.mem_cons, not_or]
        exact ⟨fun he => hc (by simp [he]), ih List.mem_cons_self⟩
      · exact ih (List.mem_cons_of_mem _ h)

theorem exists_mem_splitOn {sep c : Char} {s : Text} (h : c ∈ s) (hc : c ≠ sep) :
    ∃ piece ∈ List.splitOn sep s, c ∈ piece := by
  rw [← mem_join hc, join, List.intercalate_splitOn]
  exact h

theorem subset_of_mem_splitOn {sep : Char} {s piece : Text} (h : piece ∈ List.splitOn sep s) :
    piece ⊆ s := by
  intro c hc
  have hne : c ≠ sep := fun he => not_mem_of_mem_splitOn h (he ▸ hc)
  have hmem := (mem_join hne).2 ⟨piece, h, hc⟩
  rwa [join, List.intercalate_splitOn] at hmem

/-! ## Order -/

theorem sortLe_trans (a b c : Text) (hab : (!decide (b < a)) = true) (hbc : (!decide (c < b)) = true) :
    (!decide (c < a)) = true := by
  simp only [Bool.not_eq_true', decide_eq_false_iff_not] at hab hbc ⊢
  exact List.not_lt.2 (List.le_trans (List.not_lt.1 hab) (List.not_lt.1 hbc))

theorem sortLe_total (a b : Text) : (!decide (b < a) || !decide (a < b)) = true := by
  rcases List.le_total a b with hle | hle
  · simp [List.not_lt.2 hle]
  · simp [List.not_lt.2 hle]

theorem mem_sort {texts : List Text} {t : Text} : t ∈ sort texts ↔ t ∈ texts :=
  (List.mergeSort_perm _ _).mem_iff

/-- `sort` puts texts of which none occurs twice in strictly ascending order. -/
theorem pairwise_sort {texts : List Text} (h : texts.Nodup) : (sort texts).Pairwise (· < ·) := by
  have hsorted : (sort texts).Pairwise fun a b => (!decide (b < a)) = true :=
    List.pairwise_mergeSort sortLe_trans sortLe_total texts
  have hdistinct : (sort texts).Nodup := (List.mergeSort_perm _ _).nodup_iff.2 h
  refine (hsorted.and hdistinct).imp fun hab => ?_
  obtain ⟨hle, hne⟩ := hab
  simp only [Bool.not_eq_true', decide_eq_false_iff_not] at hle
  exact Std.lt_of_le_of_ne (Std.not_lt.1 hle) hne

/-! ## Lines of a text -/

theorem unbroken_of_mem_splitLines {s line : Text} (h : line ∈ splitLines s) :
    unbroken line = true := by
  have hmem : line ∈ List.splitOn '\n' ((joinReturns s).map fun c => if c = '\r' then '\n' else c) := by
    simp only [splitLines] at h
    split at h
    · exact (List.dropLast_sublist _).subset h
    · exact h
  refine unbroken_iff.2 ⟨not_mem_of_mem_splitOn hmem, fun hr => ?_⟩
  obtain ⟨c, _, hc⟩ := List.mem_map.1 (subset_of_mem_splitOn hmem hr)
  split at hc
  · exact absurd hc (by decide)
  · rename_i hne
    exact hne hc

/-- Lines with line feeds between them and one at the end are the text of a file, `fileText`. -/
theorem join_append_eq_fileText {lines : List Text} (h : lines ≠ []) :
    join "\n" lines ++ "\n" = Script.fileText lines := by
  induction lines with
  | nil => exact absurd rfl h
  | cons line more ih =>
    cases more with
    | nil => simp [join, Script.fileText]
    | cons next rest =>
      have := ih (by simp)
      simp only [join, Script.fileText] at this ⊢
      rw [List.intercalate_cons_cons, List.append_assoc, List.append_assoc, this]
      simp

end Seashell.Text
