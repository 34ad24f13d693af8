import Seashell.Proofs.Output
import Seashell.Proofs.RuleOrder

set_option autoImplicit false

/-! # Inserted quotes

Some statements are written with quotes that the line does not have: around the path of a `cd`, the
operands of a comparison, the operand of a file test and the value of an alias. A `Site` is such a
place, and an `Insertion` a text that was read for one. Quotes close a word (`isQuotedWord`) only if
the text between them has none of the same kind, except in substitutions, whose insides are read on
their own (`outside`). A substitution reaches to the first parenthesis that closes it, as it does
wherever the converter reads one.

The name of a variable and an operand that is not in single quotes never bring in a quote, and
neither does the value of an `if` that is in double quotes as a whole (`Insertion.isGuarded`).
Everything else is taken over with the quotes that it has: `Insertion.isClean_iff`, from what each
scanner can read.

To say this of whole lines, a converted line is cut into pieces (`Statement.pieces`) of which it is
made again (`render_pieces`), and each inserted piece was read by the scanner of its place
(`Rule.read_of_mem_insertions`). -/

namespace Seashell

open Text

namespace Text

/-! ## Quotes and substitutions -/

/-- A substitution begins with the character `c`: a parenthesis opens behind it and one closes
    later. -/
def opensCommand (c : Char) (s : Text) : Bool := c == '$' && s.head? == some '(' && s.contains ')'

/-- The characters that stand outside of substitutions; `inside` says that the text begins in
    one. -/
def outsideFrom : Bool → Text → Text
  | _, [] => []
  | true, c :: s => outsideFrom (c != ')') s
  | false, c :: s => if opensCommand c s then outsideFrom true s else c :: outsideFrom false s

/-- The characters of `s` that stand outside of its substitutions. -/
def outside (s : Text) : Text := outsideFrom false s

/-- What follows the double quote that closes a word, given what follows the one that opens it. A
    backslash takes the meaning from the next character, and a substitution is passed over. -/
def afterDouble? : Bool → Text → Option Text
  | _, [] => none
  | true, c :: s => afterDouble? (c != ')') s
  | false, '\\' :: _ :: s => afterDouble? false s
  | false, c :: s =>
    if opensCommand c s then afterDouble? true s
    else if c = '"' then some s
    else afterDouble? false s

/-- The text is one word in quotes: what closes the quote at its start is its last character.
    Between single quotes every character stands for itself. -/
def isQuotedWord : Text → Bool
  | '"' :: s => afterDouble? false s == some []
  | '\'' :: s => (upTo? '\'' s).map (·.2) == some []
  | _ => false

theorem opensCommand_append {x : Char} (hopen : x ≠ '(') (hclose : x ≠ ')') (c : Char) (t : Text) :
    opensCommand c (t ++ [x]) = opensCommand c t := by
  cases t with
  | nil => simp [opensCommand, hopen]
  | cons d t => simp [opensCommand, hclose.symm]

theorem mem_of_opensCommand {c : Char} {s : Text} (h : opensCommand c s = true) : ')' ∈ s := by
  simp only [opensCommand, Bool.and_eq_true, List.contains_iff_mem] at h
  exact h.2

theorem mem_of_mem_cons_of_bne {c : Char} {s : Text} (h : ')' ∈ c :: s) (hc : (c != ')') = true) :
    ')' ∈ s :=
  (List.mem_cons.1 h).resolve_left fun he => absurd he.symm (bne_iff_ne.1 hc)

theorem subset_outsideFrom (inside : Bool) (s : Text) : outsideFrom inside s ⊆ s := by
  induction s generalizing inside with
  | nil => cases inside <;> exact List.Subset.refl _
  | cons c s ih =>
    cases inside with
    | true => exact List.subset_cons_of_subset c (ih _)
    | false =>
      rw [outsideFrom]
      split
      · exact List.subset_cons_of_subset c (ih _)
      · exact List.cons_subset_cons c (ih _)

theorem subset_outside (s : Text) : outside s ⊆ s := subset_outsideFrom false s

/-- Every substitution that is begun is ended, so that a last character stands outside of it:
    `outsideFrom` keeps `x`. -/
theorem outsideFrom_append {x : Char} (hopen : x ≠ '(') (hclose : x ≠ ')') {inside : Bool} {t : Text}
    (hinside : inside = true → ')' ∈ t) :
    outsideFrom inside (t ++ [x]) = outsideFrom inside t ++ [x] := by
  induction t generalizing inside with
  | nil =>
    cases inside with
    | true => exact absurd (hinside rfl) List.not_mem_nil
    | false => simp [outsideFrom, opensCommand]
  | cons c t ih =>
    cases inside with
    | true => exact ih (mem_of_mem_cons_of_bne (hinside rfl))
    | false =>
      rw [List.cons_append, outsideFrom, outsideFrom, opensCommand_append hopen hclose]
      split
      · rename_i hcommand
        exact ih fun _ => mem_of_opensCommand hcommand
      · rw [ih (by simp), List.cons_append]

/-- Without a parenthesis there is no substitution, and `outside` keeps everything. -/
theorem outside_of_not_mem {s : Text} (h : '(' ∉ s) : outside s = s := by
  unfold outside
  induction s with
  | nil => rfl
  | cons c s ih =>
    have hs : '(' ∉ s := fun hm => h (List.mem_cons_of_mem c hm)
    have hcommand : opensCommand c s = false := by
      have hhead : s.head? ≠ some '(' := fun he => hs (List.mem_of_head? he)
      simp [opensCommand, hhead]
    rw [outsideFrom, hcommand, ih hs]
    rfl

theorem outsideFrom_true_append {inner : Text} (h : ')' ∉ inner) (s : Text) :
    outsideFrom true (inner ++ ')' :: s) = outsideFrom false s := by
  induction inner with
  | nil => rfl
  | cons c inner ih =>
    have hc : (c != ')') = true := bne_iff_ne.2 fun he => h (by simp [he])
    rw [List.cons_append, outsideFrom, hc, ih fun hm => h (List.mem_cons_of_mem c hm)]

/-- Nothing of a substitution stands outside of it. -/
theorem outside_command {inner : Text} (h : ')' ∉ inner) : outside ("$(" ++ inner ++ ")") = [] := by
  have htext : "$(" ++ inner ++ ")" = '$' :: (('(' :: inner) ++ ')' :: []) := by simp
  have hcommand : opensCommand '$' (('(' :: inner) ++ ')' :: []) = true := by simp [opensCommand]
  have hinner : ')' ∉ '(' :: inner := by simpa using h
  rw [outside, htext, outsideFrom, hcommand, if_pos rfl, outsideFrom_true_append hinner]
  rfl

/-- `unquote` takes the double quotes from a text when they stand around it and nowhere else. -/
theorem not_mem_outside_unquote_double {inner : Text} (h : '"' ∉ inner) :
    '"' ∉ outside (unquote ('"' :: inner ++ ['"'])) := by
  rw [unquote_quoted (.inl rfl)]
  intro hm
  exact h (subset_outside inner hm)

theorem not_mem_outside_unquote_command {inner : Text} (h : ')' ∉ inner) (c : Char) :
    c ∉ outside (unquote ("$(" ++ inner ++ ")")) := by
  rw [unquote_command, outside_command h]
  exact List.not_mem_nil

/-! ## Words in quotes -/

theorem afterDouble?_cons {c : Char} (hc : c ≠ '\\') (s : Text) :
    afterDouble? false (c :: s) = if opensCommand c s then afterDouble? true s
      else if c = '"' then some s else afterDouble? false s := by
  rw [afterDouble?]
  intro d s' he _
  exact hc he

/-- `afterDouble?` comes to the last quote exactly if no other stands outside of substitutions. -/
theorem afterDouble?_append_iff {inside : Bool} {t : Text} (hback : '\\' ∉ t)
    (hinside : inside = true → ')' ∈ t) :
    afterDouble? inside (t ++ ['"']) = some [] ↔ '"' ∉ outsideFrom inside t := by
  induction t generalizing inside with
  | nil =>
    cases inside with
    | true => exact absurd (hinside rfl) List.not_mem_nil
    | false => simp [afterDouble?, outsideFrom, opensCommand]
  | cons c t ih =>
    have hback' : '\\' ∉ t := fun hm => hback (List.mem_cons_of_mem c hm)
    cases inside with
    | true => exact ih hback' (mem_of_mem_cons_of_bne (hinside rfl))
    | false =>
      have hc : c ≠ '\\' := fun he => hback (by simp [he])
      rw [List.cons_append, afterDouble?_cons hc, outsideFrom,
        opensCommand_append (by decide) (by decide)]
      split
      · rename_i hcommand
        exact ih hback' fun _ => mem_of_opensCommand hcommand
      · split
        · rename_i hquote
          simp [hquote]
        · rename_i hquote
          have ih : afterDouble? false (t ++ ['"']) = some [] ↔ '"' ∉ outsideFrom false t :=
            ih hback' (by simp)
          rw [ih, List.mem_cons, not_or]
          exact (and_iff_right (Ne.symm hquote)).symm

theorem isQuotedWord_double_iff {t : Text} (hback : '\\' ∉ t) :
    isQuotedWord ('"' :: t ++ ['"']) = true ↔ '"' ∉ outside t := by
  rw [List.cons_append, isQuotedWord, beq_iff_eq]
  exact afterDouble?_append_iff hback (by simp)

theorem isQuotedWord_single_iff {t : Text} :
    isQuotedWord ('\'' :: t ++ ['\'']) = true ↔ '\'' ∉ t := by
  rw [List.cons_append, isQuotedWord, beq_iff_eq, Option.map_eq_some_iff]
  constructor
  · rintro ⟨⟨inner, rest⟩, hread, rfl⟩
    obtain ⟨hfree, htext⟩ := upTo?_eq_some_iff.1 hread
    rwa [List.append_cancel_right htext]
  · intro hfree
    exact ⟨(t, []), upTo?_eq_some_iff.2 ⟨hfree, rfl⟩, rfl⟩

end Text

/-! ## Insertions -/

/-- The places in a statement where quotes are inserted: around a path, the variable and the value
    of an `if`, the two operands of a comparison, the operand of a file test and the value of an
    alias. -/
inductive Site where
  | path | name | value | left | right | file | aliasValue
deriving Repr, DecidableEq

/-- The quote that is inserted: a single one for an `alias`, double ones elsewhere. -/
def Site.mark : Site → Char
  | .aliasValue => '\''
  | _ => '"'

/-- A text that was read from a line, `captured`, and is written in quotes at a `site`. -/
structure Insertion where
  site : Site
  captured : Text
deriving Repr, DecidableEq

namespace Insertion

/-- What stands between the quotes. Values and operands lose the quotes that they have by `unquote`,
    and a variable is dereferenced. -/
def content (i : Insertion) : Text :=
  match i.site with
  | .path | .file | .aliasValue => i.captured
  | .name => '$' :: i.captured
  | .value | .right => unquote i.captured
  | .left =>
    let v := unquote i.captured
    if Condition.namesVariable v then '$' :: v else v

/-- The word that is written, the `content` between two marks. -/
def text (i : Insertion) : Text := i.site.mark :: i.content ++ [i.site.mark]

/-- No quote of the inserted kind stands in the `content`, except in substitutions. -/
def isClean (i : Insertion) : Bool := !(outside i.content).contains i.site.mark

theorem isClean_eq_true_iff (i : Insertion) : i.isClean = true ↔ i.site.mark ∉ outside i.content := by
  simp [isClean]

/-- The way in which the text was read keeps quotes out: it names a variable, it is an operand that
    is not in single quotes, or a value that is in double quotes or a substitution as a whole. -/
def isGuarded (i : Insertion) : Bool :=
  match i.site with
  | .path | .file | .aliasValue => false
  | .name => true
  | .value => quoted? '"' i.captured == some (i.captured, []) ||
      Condition.substitution? i.captured == some (i.captured, [])
  | .left | .right => i.captured.head? != some '\''

/-- The text was read by the scanner of its `site`. -/
def Read (i : Insertion) : Prop :=
  match i.site with
  | .path | .file | .aliasValue => True
  | .name => ∃ s rest, Statement.variableRun? Statement.isVariableChar s = some (i.captured, rest)
  | .value => ∃ s, Statement.closingValue? s = some i.captured
  | .left | .right => ∃ s rest, Condition.operand? s = some (i.captured, rest)

end Insertion

/-! ## Where quotes come from -/

namespace Condition

/-- What `operand?` reads is in double quotes, in single quotes, a substitution or a bare word. -/
theorem operand?_cases {s t rest : Text} (h : operand? s = some (t, rest)) :
    (∃ inner, '"' ∉ inner ∧ t = '"' :: inner ++ ['"']) ∨
    (∃ inner, '\'' ∉ inner ∧ t = '\'' :: inner ++ ['\'']) ∨
    (∃ inner, ')' ∉ inner ∧ t = "$(" ++ inner ++ ")") ∨
    ∀ c ∈ t, isOperandChar c = true := by
  simp only [operand?, Option.or_eq_some_iff] at h
  rcases h with h | ⟨_, h | ⟨_, h | ⟨_, h⟩⟩⟩
  · obtain ⟨inner, hfree, ht, _⟩ := quoted?_eq_some_iff.1 h
    exact .inl ⟨inner, hfree, ht⟩
  · obtain ⟨inner, hfree, ht, _⟩ := quoted?_eq_some_iff.1 h
    exact .inr (.inl ⟨inner, hfree, ht⟩)
  · obtain ⟨inner, hfree, ht, _⟩ := substitution?_eq_some_iff.1 h
    exact .inr (.inr (.inl ⟨inner, hfree, ht⟩))
  · exact .inr (.inr (.inr (run?_eq_some_iff.1 h).2.1))

/-- A double quote stands in an operand after `unquote` only if the quotes around it are single
    ones. -/
theorem not_mem_outside_unquote_iff {s t rest : Text} (h : operand? s = some (t, rest)) :
    '"' ∉ outside (unquote t) ↔ t.head? ≠ some '\'' ∨ '"' ∉ outside t := by
  rcases operand?_cases h with ⟨inner, hfree, rfl⟩ | ⟨inner, _, rfl⟩ | ⟨inner, hfree, rfl⟩ | hword
  · exact iff_of_true (not_mem_outside_unquote_double hfree) (.inl (by simp))
  · have houtside : outside ('\'' :: inner ++ ['\'']) = '\'' :: (outside inner ++ ['\'']) := by
      rw [outside, List.cons_append, outsideFrom, if_neg (by simp [opensCommand]),
        outsideFrom_append (by decide) (by decide) (by simp), outside]
    rw [unquote_quoted (.inr rfl), houtside]
    simp
  · exact iff_of_true (not_mem_outside_unquote_command hfree '"') (.inl (by simp))
  · have hquote : ∀ q, q = '"' ∨ q = '\'' → q ∉ t := by
      rintro q (rfl | rfl) hm
      · exact absurd (hword _ hm) (by decide)
      · exact absurd (hword _ hm) (by decide)
    have hdouble : '"' ∉ outside t := fun hm => hquote _ (.inl rfl) (subset_outside _ hm)
    rw [unquote_of_head? (fun he => hquote _ (.inl rfl) (List.mem_of_head? he))
      (fun he => hquote _ (.inr rfl) (List.mem_of_head? he))]
    exact iff_of_true hdouble (.inr hdouble)

/-- The name of a variable has no quotes, as `namesVariable` allows none. -/
theorem not_mem_of_namesVariable {v : Text} (h : namesVariable v = true) : '"' ∉ v := by
  have hname : ∀ w, isName w = true → '"' ∉ w := by
    intro w hw hm
    exact absurd (forall_of_isName hw _ hm) (by decide)
  simp only [namesVariable, Bool.or_eq_true, Bool.and_eq_true, beq_iff_eq] at h
  rcases h with h | ⟨hlast, h⟩
  · exact hname v h
  · obtain ⟨w, rfl⟩ := List.getLast?_eq_some_iff.1 hlast
    rw [List.dropLast_concat] at h
    simpa using hname w h

end Condition

namespace Statement

theorem forall_of_variableRun? {p : Char → Bool} {s t rest : Text}
    (h : variableRun? p s = some (t, rest)) : ∀ c ∈ t, p c = true := by
  unfold variableRun? at h
  split at h
  · rcases Option.or_eq_some_iff.1 h with h | ⟨_, h⟩
    · exact (run?_eq_some_iff.1 h).2.1
    · exact (run?_eq_some_iff.1 h).2.1
  · exact (run?_eq_some_iff.1 h).2.1

/-- What `closingValue?` reads, the value of an `if`, is in double quotes, a substitution or a bare
    word. -/
theorem closingValue?_cases {s t : Text} (h : closingValue? s = some t) :
    quoted? '"' t = some (t, []) ∨ Condition.substitution? t = some (t, []) ∨
      ∀ c ∈ t, isValueChar c = true := by
  simp only [closingValue?, Option.or_eq_some_iff, Option.map_eq_some_iff,
    Option.filter_eq_some_iff] at h
  rcases h with ⟨⟨v, rest⟩, ⟨h, _⟩, rfl⟩ | ⟨_, ⟨⟨v, rest⟩, ⟨h, _⟩, rfl⟩ | ⟨_, ⟨v, rest⟩, ⟨h, _⟩, rfl⟩⟩
  · obtain ⟨inner, hfree, hv, _⟩ := quoted?_eq_some_iff.1 h
    exact .inl (quoted?_eq_some_iff.2 ⟨inner, hfree, hv, (List.append_nil v).symm⟩)
  · obtain ⟨inner, hfree, hv, _⟩ := Condition.substitution?_eq_some_iff.1 h
    exact .inr (.inl (Condition.substitution?_eq_some_iff.2
      ⟨inner, hfree, hv, (List.append_nil v).symm⟩))
  · exact .inr (.inr (run?_eq_some_iff.1 h).2.1)

/-- A value in double quotes as a whole, or a substitution, has no double quotes to bring in. -/
theorem not_mem_outside_of_whole {t : Text}
    (h : quoted? '"' t = some (t, []) ∨ Condition.substitution? t = some (t, [])) :
    '"' ∉ outside (unquote t) := by
  rcases h with h | h
  · obtain ⟨inner, hfree, rfl, _⟩ := quoted?_eq_some_iff.1 h
    exact not_mem_outside_unquote_double hfree
  · obtain ⟨inner, hfree, rfl, _⟩ := Condition.substitution?_eq_some_iff.1 h
    exact not_mem_outside_unquote_command hfree '"'

/-- `unquote` leaves a bare value its double quotes, unless they stand around it. -/
theorem not_mem_unquote_iff {t : Text} :
    '"' ∉ unquote t ↔ quoted? '"' t = some (t, []) ∨ '"' ∉ t := by
  constructor
  · intro h
    rcases unquote_cases t with heq | ⟨q, inner, hq, rfl⟩
    · exact .inr (heq ▸ h)
    · rw [unquote_quoted hq] at h
      rcases hq with rfl | rfl
      · exact .inl (quoted?_eq_some_iff.2 ⟨inner, h, rfl, by simp⟩)
      · exact .inr (by simpa using h)
  · rintro (h | h)
    · obtain ⟨inner, hfree, rfl, _⟩ := quoted?_eq_some_iff.1 h
      rwa [unquote_quoted (.inl rfl)]
    · exact fun hm => h (subset_unquote t hm)

end Statement

/-- **What is written in quotes has a quote of the same kind only if it was read with one**, and
    then unless the way in which it was read keeps quotes out. -/
theorem Insertion.isClean_iff {i : Insertion} (h : i.Read) :
    i.isClean = true ↔ i.isGuarded = true ∨ i.site.mark ∉ outside i.captured := by
  rw [isClean_eq_true_iff]
  obtain ⟨site, t⟩ := i
  cases site with
  | path | file | aliasValue => simp [isGuarded, content]
  | name =>
    obtain ⟨s, rest, hread⟩ := h
    have hfree : '"' ∉ '$' :: t := by
      intro hm
      have hm : '"' ∈ t := (List.mem_cons.1 hm).resolve_left (by decide)
      exact absurd (Statement.forall_of_variableRun? hread _ hm) (by decide)
    exact iff_of_true (fun hm => hfree (subset_outside _ hm)) (.inl rfl)
  | value =>
    obtain ⟨s, hread⟩ := h
    have hguarded : isGuarded ⟨.value, t⟩ = true ↔
        quoted? '"' t = some (t, []) ∨ Condition.substitution? t = some (t, []) := by
      simp [isGuarded]
    rw [hguarded]
    rcases Statement.closingValue?_cases hread with hquoted | hcommand | hbare
    · exact iff_of_true (Statement.not_mem_outside_of_whole (.inl hquoted)) (.inl (.inl hquoted))
    · exact iff_of_true (Statement.not_mem_outside_of_whole (.inr hcommand)) (.inl (.inr hcommand))
    · -- a bare value has no parentheses, so no quote of it stands in a substitution
      have hparen : '(' ∉ t := fun hm => absurd (hbare _ hm) (by decide)
      have hunquote : '(' ∉ unquote t := fun hm => hparen (subset_unquote t hm)
      have hcommand : Condition.substitution? t ≠ some (t, []) := by
        intro he
        obtain ⟨inner, _, rfl, _⟩ := Condition.substitution?_eq_some_iff.1 he
        exact hparen (by simp)
      change '"' ∉ outside (unquote t) ↔ _ ∨ '"' ∉ outside t
      rw [outside_of_not_mem hunquote, outside_of_not_mem hparen, Statement.not_mem_unquote_iff,
        or_iff_left hcommand]
  | right =>
    obtain ⟨s, rest, hread⟩ := h
    simpa [isGuarded, content, Site.mark] using Condition.not_mem_outside_unquote_iff hread
  | left =>
    obtain ⟨s, rest, hread⟩ := h
    have hvariable : '"' ∉ outside (content ⟨.left, t⟩) ↔ '"' ∉ outside (unquote t) := by
      simp only [content]
      split
      · rename_i hname
        have hfree := Condition.not_mem_of_namesVariable hname
        have hdollar : '"' ∉ '$' :: unquote t := by simpa using hfree
        exact iff_of_true (fun hm => hdollar (subset_outside _ hm))
          fun hm => hfree (subset_outside _ hm)
      · rfl
    exact hvariable.trans (by
      simpa [isGuarded, Site.mark] using Condition.not_mem_outside_unquote_iff hread)

/-! ## Pieces -/

/-- A piece of a converted line: a text without inserted quotes, or a word with them. -/
inductive Piece where
  | kept (t : Text)
  | inserted (i : Insertion)
deriving Repr, DecidableEq

namespace Piece

def text : Piece → Text
  | .kept t => t
  | .inserted i => i.text

def insertion? : Piece → Option Insertion
  | .kept _ => none
  | .inserted i => some i

/-- The line that the pieces make, by `Piece.text`. -/
def render (ps : List Piece) : Text := ps.flatMap text

/-- The insertions among the pieces, those that are not `kept`. -/
def insertions (ps : List Piece) : List Insertion := ps.filterMap insertion?

@[simp] theorem text_kept (t : Text) : text (.kept t) = t := rfl

@[simp] theorem text_inserted (i : Insertion) : text (.inserted i) = i.text := rfl

@[simp] theorem render_nil : render [] = [] := rfl

@[simp] theorem render_cons (p : Piece) (ps : List Piece) : render (p :: ps) = p.text ++ render ps :=
  rfl

@[simp] theorem render_append (ps qs : List Piece) : render (ps ++ qs) = render ps ++ render qs :=
  List.flatMap_append

@[simp] theorem mem_insertions {i : Insertion} {ps : List Piece} :
    i ∈ insertions ps ↔ .inserted i ∈ ps := by
  simp only [insertions, List.mem_filterMap]
  constructor
  · rintro ⟨p, hp, hi⟩
    cases p with
    | kept t => cases hi
    | inserted j =>
      cases hi
      exact hp
  · intro hi
    exact ⟨_, hi, rfl⟩

end Piece

/-! ## The pieces of a condition -/

namespace Condition

/-- The pieces of a comparison, in the order in which `Comparison.test` writes them. -/
def Comparison.pieces (c : Comparison) : List Piece :=
  [.inserted ⟨.left, c.left⟩, .kept (" " ++ c.relation.test ++ " "), .inserted ⟨.right, c.right⟩]

/-- The pieces of a condition whose comparisons are written as tests. It goes over the condition as
    `testComparisons` does. -/
def testPieces (s : Text) : List Piece :=
  match s with
  | [] => []
  | c :: cs =>
    match _h : comparison? (c :: cs) with
    | some (comparison, rest) => comparison.pieces ++ testPieces rest
    | none => .kept [c] :: testPieces cs
termination_by s.length
decreasing_by
  · exact length_lt_of_comparison? _h
  · simp

/-- The pieces of a condition whose file tests have their operands in quotes. It goes over the
    condition as `quoteFrom` does. -/
def fileTestPieces (fresh : Bool) (s : Text) : List Piece :=
  match s with
  | [] => []
  | c :: cs =>
    match _h : (if fresh then fileTest? (c :: cs) else none) with
    | some (letter, operand, rest) =>
      [.kept ['-', letter, ' '], .inserted ⟨.file, operand⟩] ++ fileTestPieces false rest
    | none => .kept [c] :: fileTestPieces (isBlank c) cs
termination_by s.length
decreasing_by
  · exact length_lt_of_fileTest? (Option.ite_none_right_eq_some.1 _h).2
  · simp

theorem Comparison.render_pieces (c : Comparison) : Piece.render c.pieces = c.test := by
  have hleft : Insertion.text ⟨.left, c.left⟩ = leftOperand c.left := rfl
  have hright : Insertion.text ⟨.right, c.right⟩ = rightOperand c.right := rfl
  simp only [pieces, Piece.render_cons, Piece.render_nil, Piece.text_kept, Piece.text_inserted, hleft,
    hright, test, List.append_assoc, List.append_nil]

theorem render_testPieces (s : Text) : Piece.render (testPieces s) = testComparisons s := by
  fun_induction testPieces s with
  | case1 => rw [testComparisons_nil, Piece.render_nil]
  | case2 c cs comparison rest h ih =>
    rw [Piece.render_append, comparison.render_pieces, ih, testComparisons_cons_of_some h]
  | case3 c cs h ih =>
    rw [Piece.render_cons, ih, testComparisons_cons_of_none h]
    rfl

theorem render_fileTestPieces (fresh : Bool) (s : Text) :
    Piece.render (fileTestPieces fresh s) = quoteFrom fresh s := by
  fun_induction fileTestPieces fresh s with
  | case1 fresh => rw [quoteFrom_nil, Piece.render_nil]
  | case2 fresh c cs letter operand rest h ih =>
    rw [Piece.render_append, ih, quoteFrom_cons_of_some h]
    simp [Insertion.text, Insertion.content, Site.mark]
  | case3 fresh c cs h ih =>
    rw [Piece.render_cons, ih, quoteFrom_cons_of_none h]
    rfl

theorem operands_of_comparison? {s rest : Text} {c : Comparison}
    (h : comparison? s = some (c, rest)) :
    (∃ t u, operand? t = some (c.left, u)) ∧ ∃ t u, operand? t = some (c.right, u) := by
  simp only [comparison?, Option.bind_eq_bind, Option.pure_def, Option.bind_eq_some_iff,
    Option.some.injEq, Prod.mk.injEq] at h
  obtain ⟨⟨left, s₁⟩, hleft, ⟨relation, s₂⟩, _, ⟨right, s₃⟩, hright, rfl, _⟩ := h
  exact ⟨⟨_, _, hleft⟩, ⟨_, _, hright⟩⟩

theorem read_of_mem_testPieces {s : Text} {i : Insertion} (hi : .inserted i ∈ testPieces s) :
    i.Read := by
  fun_induction testPieces s with
  | case1 => exact absurd hi List.not_mem_nil
  | case2 c cs comparison rest h ih =>
    obtain ⟨hleft, hright⟩ := operands_of_comparison? h
    rcases List.mem_append.1 hi with hi | hi
    · simp only [Comparison.pieces, List.mem_cons, List.not_mem_nil, Piece.inserted.injEq, or_false,
        reduceCtorEq, false_or] at hi
      rcases hi with rfl | rfl
      · exact hleft
      · exact hright
    · exact ih hi
  | case3 c cs h ih => exact ih ((List.mem_cons.1 hi).resolve_left (by simp))

theorem read_of_mem_fileTestPieces {fresh : Bool} {s : Text} {i : Insertion}
    (hi : .inserted i ∈ fileTestPieces fresh s) : i.Read := by
  fun_induction fileTestPieces fresh s with
  | case1 fresh => exact absurd hi List.not_mem_nil
  | case2 fresh c cs letter operand rest h ih =>
    rcases List.mem_append.1 hi with hi | hi
    · simp only [List.mem_cons, List.not_mem_nil, Piece.inserted.injEq, or_false, reduceCtorEq,
        false_or] at hi
      subst hi
      exact trivial
    · exact ih hi
  | case3 fresh c cs h ih => exact ih ((List.mem_cons.1 hi).resolve_left (by simp))

end Condition

/-! ## The pieces of a statement -/

/-- The pieces of the test of an `if`: the `variableName` and the value, with the sign between
    them. -/
def Equality.pieces (e : Equality) : List Piece :=
  [.inserted ⟨.name, e.variableName⟩,
    .kept (" " ++ (if e.negated then "!=".toList else "=".toList) ++ " "),
    .inserted ⟨.value, e.value⟩]

theorem Equality.render_pieces (e : Equality) : Piece.render e.pieces = e.test := by
  have hname : Insertion.text ⟨.name, e.variableName⟩ = "\"$" ++ e.variableName ++ "\"" := rfl
  have hvalue : Insertion.text ⟨.value, e.value⟩ = "\"" ++ unquote e.value ++ "\"" := rfl
  have htest : e.test = "\"$" ++ e.variableName ++ ("\"" ++ " ") ++
      (if e.negated then "!=".toList else "=".toList) ++ (" " ++ "\"") ++ unquote e.value ++ "\"" := rfl
  simp only [pieces, Piece.render_cons, Piece.render_nil, Piece.text_kept, Piece.text_inserted, hname,
    hvalue, htest, List.append_assoc, List.append_nil]

/-- The rules that insert quotes around what they read; `aliasPiece` and `pieces` say where. -/
def Rule.quoting : List Rule := [.cd, .ifNot, .ifTest, .elseIf, .whileLoop, .alias]

namespace Statement

/-- The value of an `alias` as a piece: it gets quotes if it has blanks and no quotes of its own. -/
def aliasPiece (value : Text) : Piece :=
  if !(value.head? == some '\'' || value.head? == some '"') && value.any isBlank then
    .inserted ⟨.aliasValue, value⟩
  else .kept value

theorem text_aliasPiece (value : Text) : (aliasPiece value).text = aliasValue value := by
  unfold aliasPiece aliasValue
  split
  · rfl
  · rfl

theorem eq_of_aliasPiece {i : Insertion} {value : Text} (h : aliasPiece value = .inserted i) :
    i = ⟨.aliasValue, value⟩ := by
  unfold aliasPiece at h
  split at h
  · exact (Piece.inserted.inj h).symm
  · cases h

/-- The pieces of a statement whose conversion inserts quotes by itself. -/
def pieces : Statement → List Piece
  | .changeDirectory path => [.kept "cd ", .inserted ⟨.path, path⟩]
  | .ifTest e => .kept "if [ " :: e.pieces ++ [.kept " ]; then"]
  | .elseIf e => .kept "elif [ " :: e.pieces ++ [.kept " ]; then"]
  | .ifNot condition =>
    .kept "if [ ! " :: Condition.testPieces (trim (Condition.quoteFileTests condition)) ++
      [.kept " ]; then"]
  | .whileLoop condition =>
    .kept "while [ " :: Condition.testPieces (trim condition) ++ [.kept " ]; do"]
  | .alias name value => [.kept ("alias " ++ name ++ "="), aliasPiece (trim value)]
  | _ => []

/-- The pieces of the condition before its comparisons are looked for: a negated test has the
    operands of its file tests in quotes first, by `fileTestPieces`. -/
def conditionPieces : Statement → List Piece
  | .ifNot condition => Condition.fileTestPieces true condition
  | _ => []

/-- All texts of a statement that are written in quotes, those of `conditionPieces` among them. -/
def insertions (st : Statement) : List Insertion :=
  Piece.insertions (st.conditionPieces ++ st.pieces)

/-- The pieces make the line that is written (`Statement.bash`), and those of the condition make the
    condition. -/
theorem render_pieces {st : Statement} {r : Rule} (hkind : r ∈ st.rules) (hr : r ∈ Rule.quoting)
    (line : Text) (block : Block) : Piece.render st.pieces = st.bash line block := by
  cases st with
  | changeDirectory path =>
    have hbash : bash line block (.changeDirectory path) = "cd \"" ++ path ++ "\"" := rfl
    simp [hbash, pieces, Insertion.text, Insertion.content, Site.mark]
  | ifTest e =>
    have hbash : bash line block (.ifTest e) = "if [ " ++ e.test ++ " ]; then" := rfl
    simp [hbash, pieces, e.render_pieces]
  | elseIf e =>
    have hbash : bash line block (.elseIf e) = "elif [ " ++ e.test ++ " ]; then" := rfl
    simp [hbash, pieces, e.render_pieces]
  | ifNot condition =>
    have hbash : bash line block (.ifNot condition) = "if [ ! " ++
        Condition.testComparisons (trim (Condition.quoteFileTests condition)) ++ " ]; then" := rfl
    simp [hbash, pieces, Condition.render_testPieces]
  | whileLoop condition =>
    have hbash : bash line block (.whileLoop condition) =
        "while [ " ++ Condition.testComparisons (trim condition) ++ " ]; do" := rfl
    simp [hbash, pieces, Condition.render_testPieces]
  | «alias» name value =>
    have hbash : bash line block (.alias name value) =
        "alias " ++ name ++ "=" ++ aliasValue (trim value) := rfl
    simp [hbash, pieces, text_aliasPiece]
  | _ =>
    have hnone : ∃ r ∈ Rule.quoting, r ∈ rules _ := ⟨r, hr, hkind⟩
    simp [rules, Rule.quoting] at hnone

end Statement

/-! ## What was read -/

theorem Equality.read_of_mem_pieces {s : Text} {e : Equality} {i : Insertion}
    (h : Statement.equalityThen? s = some e) (hi : .inserted i ∈ e.pieces) : i.Read := by
  simp only [Statement.equalityThen?, Option.bind_eq_bind, Option.pure_def, Option.bind_eq_some_iff,
    Option.some.injEq] at h
  obtain ⟨s₁, _, ⟨name, s₂⟩, hname, ⟨negated, s₃⟩, _, value, hvalue, rfl⟩ := h
  simp only [pieces, List.mem_cons, List.not_mem_nil, Piece.inserted.injEq, or_false, reduceCtorEq,
    false_or] at hi
  rcases hi with rfl | rfl
  · exact ⟨_, _, hname⟩
  · exact ⟨_, hvalue⟩

/-- Every text that a statement of `recognize?` has written in quotes was read by the scanner of its
    place. -/
theorem Rule.read_of_mem_insertions {r : Rule} {line : Text} {st : Statement} {i : Insertion}
    (hkind : r ∈ st.rules) (h : r.recognize? line = some st) (hi : i ∈ st.insertions) : i.Read := by
  rw [Statement.insertions, Piece.mem_insertions, List.mem_append] at hi
  cases st with
  | changeDirectory path =>
    obtain rfl : i = ⟨.path, path⟩ := by
      simpa [Statement.conditionPieces, Statement.pieces] using hi
    exact trivial
  | ifTest e =>
    obtain rfl : r = .ifTest := List.mem_singleton.1 hkind
    simp only [recognize?, Statement.ifTest?, Option.bind_eq_bind, Option.pure_def,
      Option.bind_eq_some_iff, Option.some.injEq, Statement.ifTest.injEq] at h
    obtain ⟨s, _, _, he, rfl⟩ := h
    exact Equality.read_of_mem_pieces he
      (by simpa [Statement.conditionPieces, Statement.pieces] using hi)
  | elseIf e =>
    obtain rfl : r = .elseIf := List.mem_singleton.1 hkind
    simp only [recognize?, Statement.elseIf?, Option.bind_eq_bind, Option.pure_def,
      Option.bind_eq_some_iff, Option.some.injEq, Statement.elseIf.injEq] at h
    obtain ⟨_, _, s, _, _, he, rfl⟩ := h
    exact Equality.read_of_mem_pieces he
      (by simpa [Statement.conditionPieces, Statement.pieces] using hi)
  | ifNot condition =>
    rcases hi with hi | hi
    · exact Condition.read_of_mem_fileTestPieces hi
    · exact Condition.read_of_mem_testPieces (by simpa [Statement.pieces] using hi)
  | whileLoop condition =>
    exact Condition.read_of_mem_testPieces
      (by simpa [Statement.conditionPieces, Statement.pieces] using hi)
  | «alias» name value =>
    obtain rfl : i = ⟨.aliasValue, trim value⟩ := by
      refine Statement.eq_of_aliasPiece (Eq.symm ?_)
      simpa [Statement.conditionPieces, Statement.pieces] using hi
    exact trivial
  | _ => simp [Statement.conditionPieces, Statement.pieces] at hi

/-! ## The words that are written -/

namespace Insertion

theorem isQuotedWord_text_iff {i : Insertion} (hsite : i.site ≠ .aliasValue)
    (hback : '\\' ∉ i.content) : isQuotedWord i.text = true ↔ i.isClean = true := by
  have hmark : i.site.mark = '"' := by
    cases hi : i.site with
    | aliasValue => exact absurd hi hsite
    | _ => rfl
  rw [isClean_eq_true_iff, text, hmark]
  exact isQuotedWord_double_iff hback

theorem isQuotedWord_aliasValue_iff {i : Insertion} (hsite : i.site = .aliasValue) :
    isQuotedWord i.text = true ↔ '\'' ∉ i.captured := by
  obtain ⟨site, t⟩ := i
  cases hsite
  exact isQuotedWord_single_iff

end Insertion

/-- **Inserted quotes close exactly around texts that have no quote of the same kind.** A line that
    one of `Rule.quoting` converts is made of pieces, and so is the condition of a negated test in
    which the operands of file tests are quoted first. A word in inserted quotes has no such quote
    within, substitutions aside (`isClean`), exactly if the text was read in a way that keeps quotes
    out or has none to begin with. Backslashes aside, these are the words that a reader of double
    quotes takes for one (`isQuotedWord`); between single quotes, where nothing is substituted, no
    single quote may stand at all. -/
theorem Outcome.inserted_quotes (block : Block) (line : Text)
    (h : (Outcome.ofLine Rule.standard block line).rule ∈ Rule.quoting) :
    ∃ st, (Outcome.ofLine Rule.standard block line).rule.recognize? line = some st ∧
      (Outcome.ofLine Rule.standard block line).text = Piece.render st.pieces ∧
      (∀ condition, st = .ifNot condition →
        Condition.quoteFileTests condition = Piece.render st.conditionPieces) ∧
      ∀ i ∈ st.insertions,
        (i.isClean = true ↔ i.isGuarded = true ∨ i.site.mark ∉ outside i.captured) ∧
        (i.site ≠ .aliasValue → '\\' ∉ i.content →
          (isQuotedWord i.text = true ↔ i.isClean = true)) ∧
        (i.site = .aliasValue → (isQuotedWord i.text = true ↔ '\'' ∉ i.captured)) := by
  have hkind := (Rule.select_reads Rule.standard line).1
  have hreads : (Rule.select Rule.standard line).1.recognize? line =
      some (Rule.select Rule.standard line).2 := Rule.recognize?_select line
  refine ⟨(Rule.select Rule.standard line).2, hreads,
    (Statement.render_pieces hkind h line block).symm, ?_, fun i hi => ?_⟩
  · intro condition hst
    rw [hst]
    exact (Condition.render_fileTestPieces true condition).symm
  · exact ⟨Insertion.isClean_iff (Rule.read_of_mem_insertions hkind hreads hi),
      Insertion.isQuotedWord_text_iff, Insertion.isQuotedWord_aliasValue_iff⟩

/-- A substitution keeps its quotes within the word that it is put in. -/
theorem Outcome.inserted_quotes_command :
    (Outcome.ofLine Rule.standard .closed "cd $(dirname \"$f\")/lib").rule ∈ Rule.quoting ∧
      (Outcome.ofLine Rule.standard .closed "cd $(dirname \"$f\")/lib").text =
        "cd \"$(dirname \"$f\")/lib\"".toList ∧
      isQuotedWord "\"$(dirname \"$f\")/lib\"" = true := by
  have hrule : (Outcome.ofLine Rule.standard .closed "cd $(dirname \"$f\")/lib").rule ∈
      Rule.quoting := by decide
  obtain ⟨st, hst, htext, _, hinsertions⟩ := inserted_quotes .closed _ hrule
  obtain rfl : Statement.changeDirectory "$(dirname \"$f\")/lib" = st :=
    Option.some.inj (Eq.trans (by decide) hst)
  obtain ⟨hclean, hword, _⟩ :=
    hinsertions ⟨.path, "$(dirname \"$f\")/lib"⟩ (by decide)
  exact ⟨hrule, htext, (hword (by decide) (by decide)).2 (hclean.2 (.inr (by decide)))⟩

/-- A path may have quotes in its middle, and those around it do not close then. -/
theorem Outcome.quote_within_quotes :
    (Outcome.ofLine Rule.standard .closed "cd my\"old dir\"").rule = .cd ∧
      (Outcome.ofLine Rule.standard .closed "cd my\"old dir\"").text =
        "cd \"my\"old dir\"\"".toList ∧
      (Statement.changeDirectory "my\"old dir\"").insertions = [⟨.path, "my\"old dir\""⟩] ∧
      Insertion.isClean ⟨.path, "my\"old dir\""⟩ = false ∧
      isQuotedWord "\"my\"old dir\"\"" = false := by
  decide

end Seashell
