import Seashell.Proofs.Text
import Seashell.Statement.Scan

set_option autoImplicit false

/-! # What the scanners read

One equivalence for each scanner: it returns a part and the rest exactly if the text is put together
in the way that the scanner looks for. `run?_eq_some_iff` is that of `run?`, `after?_eq_some_iff`
that of `after?`, and so on; they turn a chain of scanners that has succeeded into an equation for
the text, and such an equation into a chain that succeeds.

The scanners that look for an end, `shortest?` and `longest?`, try one place after the other. For
them there is one lemma each that says where they stop (`shortest?_append`, `longest?_append`), from
what can close a line (`closesLine_eq_false`) or the condition of an `if`
(`closesThen_eq_false`). -/

namespace Seashell.Text

/-! ## Fixed parts and runs -/

theorem after?_nil (s : Text) : after? [] s = some s := rfl

theorem after?_cons_nil (c : Char) (lead : Text) : after? (c :: lead) [] = none := rfl

theorem after?_cons_cons (c d : Char) (lead s : Text) :
    after? (c :: lead) (d :: s) = if c == d then after? lead s else none := rfl

theorem after?_eq_some_iff {lead s rest : Text} :
    after? lead s = some rest ↔ s = lead ++ rest := by
  induction lead generalizing s with
  | nil => simp [after?_nil]
  | cons c cs ih =>
    cases s with
    | nil => simp [after?_cons_nil]
    | cons d ds =>
      by_cases h : c = d
      · subst h
        simp [after?_cons_cons, ih]
      · have h' : ¬ d = c := fun he => h he.symm
        simp [after?_cons_cons, h, h']

@[simp] theorem after?_append (lead s : Text) : after? lead (lead ++ s) = some s :=
  after?_eq_some_iff.2 rfl

theorem run?_eq_some_iff {p : Char → Bool} {s t rest : Text} :
    run? p s = some (t, rest) ↔
      t ≠ [] ∧ (∀ c ∈ t, p c = true) ∧ stops p rest = true ∧ s = t ++ rest := by
  unfold run?
  constructor
  · intro h
    split at h
    · simp at h
    · rename_i hne
      simp only [Option.some.injEq, Prod.mk.injEq] at h
      obtain ⟨rfl, rfl⟩ := h
      exact ⟨fun he => hne (by rw [he]; rfl), forall_takeWhile p s, stops_dropWhile p s,
        List.takeWhile_append_dropWhile.symm⟩
  · rintro ⟨hne, ht, hrest, rfl⟩
    rw [takeWhile_append_of_stops ht hrest, dropWhile_append_of_stops ht hrest,
      if_neg (by simpa using hne)]

theorem gap?_eq_some_iff {s rest : Text} :
    gap? s = some rest ↔
      ∃ g : Text, g ≠ [] ∧ (∀ c ∈ g, isBlank c = true) ∧ stops isBlank rest = true ∧
        s = g ++ rest := by
  unfold gap?
  constructor
  · intro h
    split at h
    · simp at h
    · rename_i hne
      simp only [Option.some.injEq] at h
      subst h
      exact ⟨blanks s, fun he => hne (by rw [he]; rfl), forall_takeWhile isBlank s,
        stops_trimStart s, (blanks_append_trimStart s).symm⟩
  · rintro ⟨g, hne, hg, hrest, rfl⟩
    rw [blanks_append hg hrest, trimStart_append hg hrest, if_neg (by simpa using hne)]

/-! ## Quotes -/

theorem upTo?_eq_some_iff {close : Char} {s inner rest : Text} :
    upTo? close s = some (inner, rest) ↔ close ∉ inner ∧ s = inner ++ close :: rest := by
  induction s generalizing inner with
  | nil => simp [upTo?]
  | cons c cs ih =>
    rw [upTo?]
    split
    · rename_i hc
      subst hc
      constructor
      · intro h
        simp only [Option.some.injEq, Prod.mk.injEq] at h
        obtain ⟨rfl, rfl⟩ := h
        exact ⟨by simp, rfl⟩
      · rintro ⟨hnot, heq⟩
        cases inner with
        | nil => simp_all
        | cons d ds =>
          obtain ⟨rfl, _⟩ := List.cons.inj heq
          simp at hnot
    · rename_i hc
      constructor
      · intro h
        obtain ⟨⟨a, r⟩, ha, har⟩ := Option.map_eq_some_iff.1 h
        simp only [Prod.mk.injEq] at har
        obtain ⟨rfl, rfl⟩ := har
        obtain ⟨hnot, rfl⟩ := ih.1 ha
        exact ⟨by simpa [hnot] using fun he => hc he.symm, rfl⟩
      · rintro ⟨hnot, heq⟩
        cases inner with
        | nil => exact absurd (List.cons.inj heq).1 hc
        | cons d ds =>
          obtain ⟨rfl, hcs⟩ := List.cons.inj heq
          have hds : close ∉ ds := fun hm => hnot (List.mem_cons_of_mem c hm)
          simp [ih.2 ⟨hds, hcs⟩]

theorem quoted?_eq_some_iff {q : Char} {s t rest : Text} :
    quoted? q s = some (t, rest) ↔ ∃ inner, q ∉ inner ∧ t = q :: inner ++ [q] ∧ s = t ++ rest := by
  cases s with
  | nil =>
    simp only [quoted?, reduceCtorEq, false_iff]
    rintro ⟨inner, _, rfl, h⟩
    simp at h
  | cons c cs =>
    rw [quoted?]
    split
    · rename_i hc
      subst hc
      simp only [Option.map_eq_some_iff, Prod.exists, upTo?_eq_some_iff, Prod.mk.injEq]
      constructor
      · rintro ⟨inner, r, ⟨hnot, rfl⟩, rfl, rfl⟩
        exact ⟨inner, hnot, rfl, by simp⟩
      · rintro ⟨inner, hnot, rfl, h⟩
        exact ⟨inner, rest, ⟨hnot, by simpa using h⟩, rfl, rfl⟩
    · rename_i hc
      simp only [reduceCtorEq, false_iff]
      rintro ⟨inner, _, rfl, h⟩
      exact hc (List.cons.inj h).1

theorem quoted?_of_head_ne {q c : Char} {s : Text} (h : c ≠ q) : quoted? q (c :: s) = none := by
  rw [quoted?, if_neg h]

end Seashell.Text

namespace Seashell.Condition

open Text

theorem substitution?_eq_some_iff {s t rest : Text} :
    substitution? s = some (t, rest) ↔
      ∃ inner, ')' ∉ inner ∧ t = "$(" ++ inner ++ ")" ∧ s = t ++ rest := by
  unfold substitution?
  constructor
  · intro h
    split at h
    · obtain ⟨⟨inner, r⟩, hr, heq⟩ := Option.map_eq_some_iff.1 h
      simp only [Prod.mk.injEq] at heq
      obtain ⟨rfl, rfl⟩ := heq
      obtain ⟨hnot, rfl⟩ := upTo?_eq_some_iff.1 hr
      exact ⟨inner, hnot, rfl, by simp⟩
    · simp at h
  · rintro ⟨inner, hnot, rfl, rfl⟩
    simp [upTo?_eq_some_iff.2 ⟨hnot, rfl⟩]

end Seashell.Condition

namespace Seashell.Statement

open Text

/-! ## Marks and keywords -/

theorem afterMark?_eq_some_iff {c : Char} {s rest : Text} (hc : isBlank c = false) :
    afterMark? c s = some rest ↔ ∃ g : Text, (∀ x ∈ g, isBlank x = true) ∧ s = g ++ c :: rest := by
  unfold afterMark?
  constructor
  · intro h
    split at h
    · rename_i d ds hs
      split at h
      · rename_i hd
        simp only [Option.some.injEq] at h
        subst h hd
        refine ⟨blanks s, forall_takeWhile isBlank s, ?_⟩
        rw [← hs, blanks_append_trimStart]
      · simp at h
    · simp at h
  · rintro ⟨g, hg, rfl⟩
    rw [trimStart_append hg (by simpa using hc)]
    simp

theorem bareKeyword?_eq_some_iff {keyword s : Text} {statement found : Statement} :
    bareKeyword? keyword statement s = some found ↔
      found = statement ∧ ∃ rest : Text, (∀ c ∈ rest, isBlank c = true) ∧ s = keyword ++ rest := by
  unfold bareKeyword?
  constructor
  · intro h
    split at h
    · rename_i rest hs
      split at h
      · rename_i hb
        simp only [Option.some.injEq] at h
        exact ⟨h.symm, rest, allBlank_iff.1 hb, after?_eq_some_iff.1 hs⟩
      · simp at h
    · simp at h
  · rintro ⟨rfl, rest, hrest, rfl⟩
    rw [after?_append]
    simp [allBlank_iff.2 hrest]

theorem closesLine_iff {c : Char} {s : Text} (hc : isBlank c = false) :
    closesLine c s = true ↔ ∃ g rest : Text, (∀ x ∈ g, isBlank x = true) ∧
      (∀ x ∈ rest, isBlank x = true) ∧ s = g ++ c :: rest := by
  unfold closesLine
  constructor
  · intro h
    split at h
    · rename_i rest hs
      obtain ⟨g, hg, rfl⟩ := (afterMark?_eq_some_iff hc).1 hs
      exact ⟨g, rest, hg, allBlank_iff.1 h, rfl⟩
    · simp at h
  · rintro ⟨g, rest, hg, hrest, rfl⟩
    rw [(afterMark?_eq_some_iff hc).2 ⟨g, hg, rfl⟩]
    exact allBlank_iff.2 hrest

theorem closesThen_iff {s : Text} :
    closesThen s = true ↔ ∃ g h rest : Text, (∀ x ∈ g, isBlank x = true) ∧
      (∀ x ∈ h, isBlank x = true) ∧ wordEnds rest = true ∧
      s = g ++ ')' :: (h ++ ("then" ++ rest)) := by
  unfold closesThen
  constructor
  · intro h
    split at h
    · rename_i rest hs
      obtain ⟨r, hr, hthen⟩ := Option.bind_eq_some_iff.1 hs
      obtain ⟨g, hg, rfl⟩ := (afterMark?_eq_some_iff (by decide)).1 hr
      refine ⟨g, blanks r, rest, hg, forall_takeWhile isBlank r, h, ?_⟩
      rw [← after?_eq_some_iff.1 hthen, blanks_append_trimStart]
    · simp at h
  · rintro ⟨g, h, rest, hg, hh, hrest, rfl⟩
    rw [(afterMark?_eq_some_iff (by decide)).2 ⟨g, hg, rfl⟩, Option.bind_some,
      trimStart_append hh rfl, after?_append]
    exact hrest

theorem eq_append_of_variableRun? {p : Char → Bool} {s t rest : Text}
    (h : variableRun? p s = some (t, rest)) :
    ∃ dollar : Text, (dollar = [] ∨ dollar = ['$']) ∧ s = dollar ++ (t ++ rest) := by
  unfold variableRun? at h
  split at h
  · rcases Option.or_eq_some_iff.1 h with h | ⟨_, h⟩
    · obtain ⟨_, _, _, rfl⟩ := run?_eq_some_iff.1 h
      exact ⟨['$'], .inr rfl, rfl⟩
    · obtain ⟨_, _, _, hs⟩ := run?_eq_some_iff.1 h
      exact ⟨[], .inl rfl, hs⟩
  · obtain ⟨_, _, _, hs⟩ := run?_eq_some_iff.1 h
    exact ⟨[], .inl rfl, hs⟩

theorem eq_cons_of_equalitySign? {s rest : Text} {negated : Bool}
    (h : equalitySign? s = some (negated, rest)) :
    s = (if negated then '!' else '=') :: '=' :: rest := by
  unfold equalitySign? at h
  split at h <;> simp only [Option.some.injEq, Prod.mk.injEq, reduceCtorEq] at h
  all_goals
    obtain ⟨rfl, rfl⟩ := h
    rfl

/-- By `closingValue?` the condition is closed behind its value, which is quoted, a substitution or
    a run. -/
theorem eq_append_of_closingValue? {s value : Text} (h : closingValue? s = some value) :
    ∃ rest, closesThen rest = true ∧ s = value ++ rest := by
  simp only [closingValue?, Option.or_eq_some_iff, Option.map_eq_some_iff,
    Option.filter_eq_some_iff] at h
  rcases h with ⟨⟨v, rest⟩, ⟨h, hclose⟩, rfl⟩ |
    ⟨_, ⟨⟨v, rest⟩, ⟨h, hclose⟩, rfl⟩ | ⟨_, ⟨v, rest⟩, ⟨h, hclose⟩, rfl⟩⟩
  · obtain ⟨_, _, _, hs⟩ := quoted?_eq_some_iff.1 h
    exact ⟨rest, hclose, hs⟩
  · obtain ⟨_, _, _, hs⟩ := Condition.substitution?_eq_some_iff.1 h
    exact ⟨rest, hclose, hs⟩
  · obtain ⟨_, _, _, hs⟩ := run?_eq_some_iff.1 h
    exact ⟨rest, hclose, hs⟩

/-! ## Parts up to a closing mark -/

theorem eq_append_of_shortest? {tail : Text → Bool} {s t : Text} (h : shortest? tail s = some t) :
    ∃ rest, tail rest = true ∧ s = t ++ rest := by
  induction s generalizing t with
  | nil => simp [shortest?] at h
  | cons c cs ih =>
    rw [shortest?] at h
    split at h
    · simp at h
    · split at h
      · rename_i htail
        simp only [Option.some.injEq] at h
        exact ⟨cs, htail, by rw [← h]; rfl⟩
      · obtain ⟨more, hmore, rfl⟩ := Option.map_eq_some_iff.1 h
        obtain ⟨rest, htail, rfl⟩ := ih hmore
        exact ⟨rest, htail, rfl⟩

/-- `shortest?` ends its part where the rest is accepted, if the rest is not accepted as long as the
    last character of the part stands in it. -/
theorem shortest?_append {tail : Text → Bool} {t s : Text} {d : Char} (hlast : t.getLast? = some d)
    (hline : '\n' ∉ t) (hs : tail s = true)
    (hbefore : ∀ v, d ∈ v → v ⊆ t → tail (v ++ s) = false) : shortest? tail (t ++ s) = some t := by
  induction t with
  | nil => simp at hlast
  | cons c cs ih =>
    have hc : c ≠ '\n' := fun he => hline (he ▸ List.mem_cons_self)
    rw [List.cons_append, shortest?, if_neg hc]
    cases cs with
    | nil => rw [List.nil_append, if_pos hs]
    | cons e es =>
      rw [List.getLast?_cons_cons] at hlast
      have hsub : e :: es ⊆ c :: e :: es := List.subset_cons_self c _
      have hearly := hbefore (e :: es) (List.mem_of_getLast? hlast) hsub
      have hrest := ih hlast (fun hm => hline (hsub hm)) fun v hd hv =>
        hbefore v hd (List.Subset.trans hv hsub)
      rw [if_neg (by rw [hearly]; simp), hrest, Option.map_some]

theorem part?_append {tail : Text → Bool} {t s : Text} {d : Char} (before : Text)
    (hlast : t.getLast? = some d) (hline : '\n' ∉ t) (hs : tail s = true)
    (hbefore : ∀ v, d ∈ v → v ⊆ t → tail (v ++ s) = false) :
    part? tail before (t ++ s) = some t := by
  rw [part?, shortest?_append hlast hline hs hbefore, Option.some_or]

/-- What `closesLine` accepts has nothing in it but blanks and the mark. -/
theorem closesLine_eq_false {c d : Char} {s : Text} (hc : isBlank c = false) (hd : d ∈ s)
    (hblank : isBlank d = false) (hdc : d ≠ c) : closesLine c s = false := by
  cases h : closesLine c s with
  | false => rfl
  | true =>
    obtain ⟨g, rest, hg, hrest, rfl⟩ := (closesLine_iff hc).1 h
    rcases List.mem_append.1 hd with hd | hd
    · rw [hg d hd] at hblank
      cases hblank
    · rcases List.mem_cons.1 hd with hd | hd
      · exact absurd hd hdc
      · rw [hrest d hd] at hblank
        cases hblank

/-- What `closesThen` accepts, the end of the condition of an `if`, begins with blanks and a
    parenthesis. -/
theorem closesThen_eq_false {d : Char} {v s : Text} (hd : d ∈ v) (hblank : isBlank d = false)
    (hmark : ')' ∉ v) : closesThen (v ++ s) = false := by
  cases h : closesThen (v ++ s) with
  | false => rfl
  | true =>
    obtain ⟨g, _, _, hg, _, _, heq⟩ := closesThen_iff.1 h
    rcases List.append_eq_append_iff.1 heq with ⟨more, hv, _⟩ | ⟨more, hv, hmore⟩
    · -- the part would lie within the blanks
      rw [hg d (by rw [hv]; exact List.mem_append_left _ hd)] at hblank
      cases hblank
    · -- the part would reach the parenthesis, unless it is nothing but the blanks
      cases more with
      | nil =>
        rw [hg d (by simpa [hv] using hd)] at hblank
        cases hblank
      | cons c cs =>
        obtain ⟨rfl, _⟩ := List.cons.inj hmore
        exact absurd (by rw [hv]; simp) hmark

/-- `longest?` reaches to the last character of the part, if nothing behind it is a part. -/
theorem longest?_append {tail : Text → Bool} {t s : Text} {d : Char}
    (hlast : t.getLast? = some d) (hd : isBlank d = false) (hline : '\n' ∉ t)
    (hs : tail s = true) (hnone : longest? tail s = none) : longest? tail (t ++ s) = some t := by
  induction t with
  | nil => simp at hlast
  | cons c cs ih =>
    have hc : c ≠ '\n' := fun he => hline (he ▸ List.mem_cons_self)
    rw [List.cons_append, longest?, if_neg hc]
    cases cs with
    | nil =>
      obtain rfl : c = d := by simpa using hlast
      simp [hnone, hd, hs]
    | cons e es =>
      rw [List.getLast?_cons_cons] at hlast
      rw [ih hlast fun hm => hline (List.mem_cons_of_mem c hm)]

/-- Blanks begin no part of `longest?`. -/
theorem longest?_blanks_append {tail : Text → Bool} {g s : Text} (hg : ∀ c ∈ g, isBlank c = true)
    (hnone : longest? tail s = none) : longest? tail (g ++ s) = none := by
  induction g with
  | nil => exact hnone
  | cons c cs ih =>
    obtain ⟨hc, hcs⟩ := List.forall_mem_cons.1 hg
    simp [longest?, ih hcs, hc]

end Seashell.Statement
