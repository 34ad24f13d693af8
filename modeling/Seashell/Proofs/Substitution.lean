import Seashell.Proofs.Scan
import Seashell.Substitution

set_option autoImplicit false

/-! # Laws of command substitutions

A text without backticks is its own newer spelling (`modernize_append`), and the newer spelling adds
nothing to a text but dollar signs and parentheses (`mem_modernize`). So what is read off the newer
spelling up to a dollar sign (`exists_of_modernize_eq_append`), or without these signs in it
(`isInfix_of_isInfix_modernize`), can be read off the text.

The rules look at a line in the newer spelling, while a report looks at the line itself. These laws
carry what is known of the one over to the other: what a line begins with (`head?_modernize`,
`stops_modernize`), and which words stand in it. They all follow from what `backtick?` reads, by
induction over the `pieces` of the text. -/

namespace Seashell.Substitution

open Text

/-! ## Pieces -/

/-- What `backtick?` reads is made of its command, which has no backtick in it, between two
    backticks. -/
theorem backtick?_eq_some_iff {s command rest : Text} :
    backtick? s = some (command, rest) ↔
      command ≠ [] ∧ '`' ∉ command ∧ s = '`' :: (command ++ '`' :: rest) := by
  unfold backtick?
  constructor
  · intro h
    split at h
    · obtain ⟨hupTo, hne⟩ := Option.filter_eq_some_iff.1 h
      obtain ⟨hfree, rfl⟩ := upTo?_eq_some_iff.1 hupTo
      exact ⟨by simpa using hne, hfree, rfl⟩
    · simp at h
  · rintro ⟨hne, hfree, rfl⟩
    have hupTo : upTo? '`' (command ++ '`' :: rest) = some (command, rest) :=
      upTo?_eq_some_iff.2 ⟨hfree, rfl⟩
    simp [hupTo, hne]

theorem eq_of_backtick? {s command rest : Text} (h : backtick? s = some (command, rest)) :
    command ≠ [] ∧ s = '`' :: (command ++ '`' :: rest) := by
  obtain ⟨hne, _, heq⟩ := backtick?_eq_some_iff.1 h
  exact ⟨hne, heq⟩

/-- A substitution begins with a backtick. -/
theorem head?_of_backtick? {s : Text} (h : (backtick? s).isSome = true) : s.head? = some '`' := by
  obtain ⟨found, hfound⟩ := Option.isSome_iff_exists.1 h
  rw [(eq_of_backtick? hfound).2, List.head?_cons]

theorem pieces_cons_of_none {c : Char} {cs : Text} (h : backtick? (c :: cs) = none) :
    pieces (c :: cs) = .plain c :: pieces cs := by
  rw [pieces]
  split
  · rename_i command rest hsome
    rw [h] at hsome
    cases hsome
  · rfl

theorem pieces_cons_of_some {c : Char} {cs command rest : Text}
    (h : backtick? (c :: cs) = some (command, rest)) :
    pieces (c :: cs) = .command command :: pieces rest := by
  rw [pieces]
  split
  · rename_i command' rest' hsome
    rw [h] at hsome
    cases hsome
    rfl
  · rename_i hnone
    rw [h] at hnone
    cases hnone

/-- Text without backticks has no substitution in its `pieces`, whatever follows. -/
theorem pieces_append {w : Text} (hw : '`' ∉ w) (s : Text) :
    pieces (w ++ s) = w.map .plain ++ pieces s := by
  induction w with
  | nil => rfl
  | cons c w ih =>
    have hc : c ≠ '`' := fun he => hw (he ▸ List.mem_cons_self)
    have hw : '`' ∉ w := fun hm => hw (List.mem_cons_of_mem c hm)
    have hnone : backtick? (c :: (w ++ s)) = none := by
      cases hb : backtick? (c :: (w ++ s)) with
      | none => rfl
      | some found =>
        have hhead := head?_of_backtick? (Option.isSome_of_eq_some hb)
        exact absurd (by simpa using hhead) hc
    rw [List.cons_append, pieces_cons_of_none hnone, ih hw, List.map_cons, List.cons_append]

@[simp] theorem pieces_nil : pieces [] = [] := by rw [pieces]

theorem pieces_of_not_mem {s : Text} (h : '`' ∉ s) : pieces s = s.map .plain := by
  simpa using pieces_append h []

/-! ## The newer spelling -/

@[simp] theorem modernize_nil : modernize [] = [] := by
  rw [modernize, pieces_nil]
  rfl

theorem modernize_cons_of_none {c : Char} {cs : Text} (h : backtick? (c :: cs) = none) :
    modernize (c :: cs) = c :: modernize cs := by
  simp [modernize, pieces_cons_of_none h, Piece.modern]

theorem modernize_cons_of_some {c : Char} {cs command rest : Text}
    (h : backtick? (c :: cs) = some (command, rest)) :
    modernize (c :: cs) = "$(" ++ command ++ ")" ++ modernize rest := by
  simp [modernize, pieces_cons_of_some h, Piece.modern]

/-- `modernize` leaves text without backticks as it is, whatever follows. -/
theorem modernize_append {w : Text} (hw : '`' ∉ w) (s : Text) :
    modernize (w ++ s) = w ++ modernize s := by
  simp [modernize, pieces_append hw, List.flatMap_map, Piece.modern]

theorem modernize_of_not_mem {s : Text} (h : '`' ∉ s) : modernize s = s := by
  simpa using modernize_append h []

theorem modernize_ne_nil {s : Text} (h : s ≠ []) : modernize s ≠ [] := by
  cases s with
  | nil => exact absurd rfl h
  | cons c cs =>
    cases hb : backtick? (c :: cs) with
    | none => simp [modernize_cons_of_none hb]
    | some found => simp [modernize_cons_of_some hb]

/-- `modernize` consists of characters of the text and of the substitution signs. -/
theorem mem_modernize {x : Char} (s : Text) (h : x ∈ modernize s) :
    x ∈ s ∨ x ∈ "$()".toList := by
  induction s using pieces.induct with
  | case1 => simp at h
  | case2 c cs command rest hb ih =>
    obtain ⟨_, heq⟩ := eq_of_backtick? hb
    have hlead : "$(".toList ⊆ "$()".toList := by decide
    have htail : ")".toList ⊆ "$()".toList := by decide
    rw [modernize_cons_of_some hb] at h
    simp only [List.mem_append] at h
    rw [heq]
    rcases h with ((h | h) | h) | h
    · exact .inr (hlead h)
    · exact .inl (by simp [h])
    · exact .inr (htail h)
    · exact (ih h).imp_left fun hm => by simp [hm]
  | case3 c cs hb ih =>
    rw [modernize_cons_of_none hb] at h
    rcases List.mem_cons.1 h with rfl | h
    · exact .inl List.mem_cons_self
    · exact (ih h).imp_left (List.mem_cons_of_mem c)

theorem unbroken_modernize {s : Text} (h : unbroken s = true) : unbroken (modernize s) = true := by
  have hsigns : unbroken "$()" = true := by decide
  rw [unbroken_iff] at h hsigns ⊢
  exact ⟨fun hm => (mem_modernize s hm).elim h.1 hsigns.1,
    fun hm => (mem_modernize s hm).elim h.2 hsigns.2⟩

/-- Up to its first dollar sign `modernize` gives the text itself. -/
theorem exists_of_modernize_eq_append {w t s : Text} (hw : '$' ∉ w) (h : modernize s = w ++ t) :
    ∃ rest, s = w ++ rest ∧ modernize rest = t := by
  induction w generalizing s with
  | nil => exact ⟨s, rfl, h⟩
  | cons c w ih =>
    cases s with
    | nil => simp at h
    | cons d ds =>
      cases hb : backtick? (d :: ds) with
      | some found =>
        -- the first character would be a dollar sign
        rw [modernize_cons_of_some hb] at h
        obtain ⟨rfl, _⟩ := List.cons.inj h
        exact absurd List.mem_cons_self hw
      | none =>
        rw [modernize_cons_of_none hb, List.cons_append] at h
        obtain ⟨rfl, htail⟩ := List.cons.inj h
        obtain ⟨rest, rfl, hrest⟩ := ih (fun hm => hw (List.mem_cons_of_mem d hm)) htail
        exact ⟨rest, rfl, hrest⟩

/-- `modernize` begins with a dollar sign for a substitution, else as the text does. -/
theorem head?_modernize (s : Text) :
    (modernize s).head? = if (backtick? s).isSome then some '$' else s.head? := by
  cases s with
  | nil => simp [backtick?]
  | cons c cs =>
    cases hb : backtick? (c :: cs) with
    | none => simp [modernize_cons_of_none hb]
    | some found => simp [modernize_cons_of_some hb]

/-- A class without the backtick that stops at the newer spelling stops at the text. -/
theorem stops_of_modernize {p : Char → Bool} {s : Text} (hp : p '`' = false)
    (h : stops p (modernize s) = true) : stops p s = true := by
  cases s with
  | nil => rfl
  | cons c cs =>
    cases hb : backtick? (c :: cs) with
    | some found =>
      obtain ⟨_, heq⟩ := eq_of_backtick? hb
      obtain ⟨rfl, _⟩ := List.cons.inj heq
      simp [hp]
    | none =>
      rw [modernize_cons_of_none hb] at h
      exact h

/-- A class without the dollar sign that stops at a text stops at its newer spelling. -/
theorem stops_modernize {p : Char → Bool} {s : Text} (hp : p '$' = false)
    (h : stops p s = true) : stops p (modernize s) = true := by
  rw [stops, head?_modernize]
  cases (backtick? s).isSome with
  | true => simp [hp]
  | false => exact h

/-- A part without the substitution signs that stands in `modernize s` stands in `s`. -/
theorem isInfix_of_isInfix_modernize {part : Text}
    (hsigns : "$()".toList.all (!part.contains ·) = true) (s : Text) (h : part <:+: modernize s) :
    part <:+: s := by
  have hpart : ∀ c ∈ "$()".toList, c ∉ part :=
    fun c hc => by simpa using List.all_eq_true.1 hsigns c hc
  induction s using pieces.induct with
  | case1 => simpa using h
  | case2 c cs command rest hb ih =>
    obtain ⟨_, heq⟩ := eq_of_backtick? hb
    rw [heq]
    have hshape : modernize (c :: cs) =
        [] ++ '$' :: ([] ++ '(' :: (command ++ ')' :: modernize rest)) := by
      rw [modernize_cons_of_some hb]
      simp
    rw [hshape] at h
    rcases isInfix_append_cons (hpart '$' (by decide)) h with h | h
    · exact h.trans (List.nil_infix)
    rcases isInfix_append_cons (hpart '(' (by decide)) h with h | h
    · exact h.trans (List.nil_infix)
    rcases isInfix_append_cons (hpart ')' (by decide)) h with h | h
    · exact h.trans ⟨['`'], '`' :: rest, by simp⟩
    · exact (ih h).trans ⟨'`' :: (command ++ ['`']), [], by simp⟩
  | case3 c cs hb ih =>
    rw [modernize_cons_of_none hb] at h
    rcases List.infix_cons_iff.1 h with h | h
    · rcases List.prefix_cons_iff.1 h with rfl | ⟨part', rfl, after, hafter⟩
      · exact List.nil_infix
      · have hdollar : '$' ∉ part' := fun hm =>
          hpart '$' (by decide) (List.mem_cons_of_mem c hm)
        obtain ⟨rest, rfl, _⟩ := exists_of_modernize_eq_append hdollar hafter.symm
        exact (List.prefix_append (c :: part') rest).isInfix
    · exact (ih h).trans (List.suffix_cons c cs).isInfix

/-- A backtick leaves a trace: it stays, or a dollar sign comes for it. -/
theorem mem_modernize_of_backtick {s : Text} (h : '`' ∈ s) :
    '`' ∈ modernize s ∨ '$' ∈ modernize s := by
  induction s using pieces.induct with
  | case1 => simp at h
  | case2 c cs command rest hb _ => exact .inr (by simp [modernize_cons_of_some hb])
  | case3 c cs hb ih =>
    rw [modernize_cons_of_none hb]
    rcases List.mem_cons.1 h with rfl | h
    · exact .inl List.mem_cons_self
    · exact (ih h).imp (List.mem_cons_of_mem c) (List.mem_cons_of_mem c)

end Seashell.Substitution
