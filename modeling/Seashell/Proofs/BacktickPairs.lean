import Seashell.Proofs.Substitution

set_option autoImplicit false

/-! # Backticks in pairs

Counted from the left, the first backtick of a text belongs with the second, the third with the
fourth and so on; a last one may be left over. `parts` cuts a text in this way, and `Part.modern` is
the newer spelling of each part, in which an empty pair stays.

`modernize` follows these pairs as long as the text is `inPhase`: every empty pair has no text
between it and the next backtick. Where there is some, the second backtick of the empty pair is
taken for the first of a substitution, and text that stands outside of all pairs becomes a command:
the text `Slips`. Both directions go along the pieces between backticks, of which `List.splitOn`
gives the list, and come together in `modernize_pairs_iff`. -/

namespace Seashell.Substitution

open Text

/-! ## Pairs -/

/-- A part of a text whose backticks are in pairs, as `parts` has it. -/
inductive Part where
  /-- What stands outside of the pairs. -/
  | outside (t : Text)
  /-- What stands between the two backticks of a pair. -/
  | pair (content : Text)
deriving Repr, DecidableEq

namespace Part

/-- A part as it is written; the parts of a text, one after the other, are the text. -/
def text : Part → Text
  | .outside t => t
  | .pair content => '`' :: (content ++ ['`'])

/-- A part in the newer spelling; an empty pair stays. -/
def modern : Part → Text
  | .outside t => t
  | .pair content => if content = [] then "``" else "$(" ++ content ++ ")"

/-- The command of a part; an empty pair has none. -/
def command? : Part → Option Text
  | .outside _ => none
  | .pair content => if content = [] then none else some content

end Part

/-- The `parts` of the text that has the given pieces between its backticks. Every second piece
    stands in a pair, but for a last one, whose backtick has no partner. -/
def partsBetween : List Text → List Part
  | [] => []
  | [t] => [.outside t]
  | [t, last] => [.outside (t ++ '`' :: last)]
  | t :: content :: next :: more => .outside t :: .pair content :: partsBetween (next :: more)

/-- The parts of `s`: its first backtick is paired with the second, the third with the fourth and so
    on. -/
def parts (s : Text) : List Part := partsBetween (List.splitOn '`' s)

/-- No empty pair has text behind it and then another backtick, given what stands between the
    backticks, as `partsBetween` has it. -/
def inPhaseBetween : List Text → Bool
  | _ :: content :: next :: more =>
    (!content.isEmpty || next.isEmpty || more.isEmpty) && inPhaseBetween (next :: more)
  | _ => true

/-- No empty pair of `s` has text behind it and then another backtick. -/
def inPhase (s : Text) : Bool := inPhaseBetween (List.splitOn '`' s)

theorem text_partsBetween {ts : List Text} (hne : ts ≠ []) :
    (partsBetween ts).flatMap Part.text = join ['`'] ts := by
  induction ts using partsBetween.induct with
  | case1 => exact absurd rfl hne
  | case2 t => simp [partsBetween, Part.text, join]
  | case3 t last => simp [partsBetween, Part.text, join]
  | case4 t content next more ih =>
    rw [partsBetween, List.flatMap_cons, List.flatMap_cons, ih (by simp), join_cons_cons,
      join_cons_cons]
    simp [Part.text]

/-! ## Substitutions at a backtick -/

theorem backtick?_pair {content : Text} (hne : content ≠ []) (hfree : '`' ∉ content) (rest : Text) :
    backtick? ('`' :: (content ++ '`' :: rest)) = some (content, rest) :=
  backtick?_eq_some_iff.2 ⟨hne, hfree, rfl⟩

theorem backtick?_twice (rest : Text) : backtick? ('`' :: '`' :: rest) = none := by
  cases hb : backtick? ('`' :: '`' :: rest) with
  | none => rfl
  | some found =>
    obtain ⟨hne, hfree, heq⟩ := backtick?_eq_some_iff.1 hb
    obtain ⟨c, cs, hcommand⟩ := List.exists_cons_of_ne_nil hne
    rw [hcommand] at hfree heq
    obtain ⟨rfl, _⟩ := List.cons.inj (List.cons.inj heq).2
    exact absurd List.mem_cons_self hfree

theorem backtick?_last {t : Text} (ht : '`' ∉ t) : backtick? ('`' :: t) = none := by
  cases hb : backtick? ('`' :: t) with
  | none => rfl
  | some found =>
    obtain ⟨_, _, heq⟩ := backtick?_eq_some_iff.1 hb
    rw [(List.cons.inj heq).2] at ht
    exact absurd (by simp) ht

/-- `backtick?` finds a substitution whatever follows, so that there is none at the start of a text
    if there is none with more behind it. -/
theorem backtick?_eq_none_of_append {s t : Text} (h : backtick? (s ++ t) = none) :
    backtick? s = none := by
  cases hb : backtick? s with
  | none => rfl
  | some found =>
    obtain ⟨hne, hfree, rfl⟩ := backtick?_eq_some_iff.1 hb
    rw [List.cons_append, List.append_assoc, List.cons_append, backtick?_pair hne hfree] at h
    cases h

theorem join_pair (t content next : Text) (more : List Text) :
    join ['`'] (t :: content :: next :: more) =
      t ++ '`' :: (content ++ '`' :: join ['`'] (next :: more)) := by
  rw [join_cons_cons, join_cons_cons]
  rfl

/-- A backtick that ends an empty pair begins no substitution if another backtick (`next = []`) or
    no backtick at all (`more = []`) follows. -/
theorem backtick?_join {next : Text} {more : List Text} (hnext : '`' ∉ next)
    (h : next = [] ∨ more = []) : backtick? ('`' :: join ['`'] (next :: more)) = none := by
  cases more with
  | nil =>
    have hjoin : join ['`'] [next] = next := by simp [join]
    rw [hjoin]
    exact backtick?_last hnext
  | cons second more =>
    obtain rfl : next = [] := by simpa using h
    rw [join_cons_cons]
    exact backtick?_twice _

/-! ## Pieces of a pair -/

/-- A part as the `Substitution.pieces` that are found in it. -/
def Part.pieces : Part → List Piece
  | .outside t => t.map .plain
  | .pair content => if content = [] then [.plain '`', .plain '`'] else [.command content]

theorem Part.flatMap_modern_pieces (p : Part) : p.pieces.flatMap Piece.modern = p.modern := by
  cases p with
  | outside t => simp [pieces, modern, List.flatMap_map, Piece.modern]
  | pair content =>
    by_cases h : content = []
    · simp [pieces, modern, h, Piece.modern]
    · simp [pieces, modern, h, Piece.modern]

/-- A pair gives its `Part.pieces`, if it is not an empty one whose second backtick begins a
    substitution. -/
theorem pieces_pair {t content rest : Text} (ht : '`' ∉ t) (hcontent : '`' ∉ content)
    (h : content = [] → backtick? ('`' :: rest) = none) :
    pieces (t ++ '`' :: (content ++ '`' :: rest)) =
      (Part.outside t).pieces ++ ((Part.pair content).pieces ++ pieces rest) := by
  rw [pieces_append ht]
  by_cases hempty : content = []
  · rw [hempty, List.nil_append, pieces_cons_of_none (backtick?_twice rest),
      pieces_cons_of_none (h hempty)]
    simp [Part.pieces]
  · rw [pieces_cons_of_some (backtick?_pair hempty hcontent rest)]
    simp [Part.pieces, hempty]

theorem modernize_pair {t content rest : Text} (ht : '`' ∉ t) (hcontent : '`' ∉ content)
    (h : content = [] → backtick? ('`' :: rest) = none) :
    modernize (t ++ '`' :: (content ++ '`' :: rest)) =
      t ++ ((Part.pair content).modern ++ modernize rest) := by
  rw [modernize, pieces_pair ht hcontent h, List.flatMap_append, List.flatMap_append,
    Part.flatMap_modern_pieces, Part.flatMap_modern_pieces]
  rfl

/-! ## Texts in phase -/

/-- The pieces of a text that is `inPhase` are those of its parts. -/
theorem pieces_of_inPhaseBetween {ts : List Text} (hne : ts ≠ []) (hfree : ∀ t ∈ ts, '`' ∉ t)
    (h : inPhaseBetween ts = true) :
    pieces (join ['`'] ts) = (partsBetween ts).flatMap Part.pieces := by
  induction ts using partsBetween.induct with
  | case1 => exact absurd rfl hne
  | case2 t =>
    have ht : '`' ∉ t := hfree t List.mem_cons_self
    simp [partsBetween, Part.pieces, join, pieces_of_not_mem ht]
  | case3 t last =>
    have ht : '`' ∉ t := hfree t (by simp)
    have hlast : '`' ∉ last := hfree last (by simp)
    rw [join_cons_cons, pieces_append ht, List.singleton_append,
      pieces_cons_of_none (by simpa [join] using backtick?_last hlast)]
    simp [partsBetween, Part.pieces, join, pieces_of_not_mem hlast]
  | case4 t content next more ih =>
    simp only [List.forall_mem_cons] at hfree
    obtain ⟨ht, hcontent, hnext, hmore⟩ := hfree
    rw [inPhaseBetween, Bool.and_eq_true] at h
    have hrest := ih (by simp) (List.forall_mem_cons.2 ⟨hnext, hmore⟩) h.2
    have hpair : content = [] → backtick? ('`' :: join ['`'] (next :: more)) = none := by
      intro hempty
      exact backtick?_join hnext (by simpa [hempty] using h.1)
    rw [join_pair, pieces_pair ht hcontent hpair, hrest, partsBetween, List.flatMap_cons,
      List.flatMap_cons]

/-- The `commands` of a text that gives the pieces of its parts are those of the parts. -/
theorem commands_of_pieces {s : Text} {ps : List Part} (h : pieces s = ps.flatMap Part.pieces) :
    commands s = ps.filterMap Part.command? := by
  rw [commands, h]
  clear h
  induction ps with
  | nil => rfl
  | cons p ps ih =>
    rw [List.flatMap_cons, List.filterMap_append, ih, List.filterMap_cons]
    cases p with
    | outside t => simp [Part.pieces, Part.command?, List.filterMap_map]
    | pair content =>
      by_cases hempty : content = []
      · simp [Part.pieces, Part.command?, hempty]
      · simp [Part.pieces, Part.command?, hempty]

/-! ## Texts out of phase -/

/-- An empty pair of a text is taken apart: its second backtick begins a substitution, whose command
    is what stands behind the pair. The newer spelling that follows the pairs, `paired`, keeps
    it. -/
structure Slips (s paired before outside rest : Text) : Prop where
  text : s = before ++ "``" ++ outside ++ "`" ++ rest
  /-- The two backticks are a pair: only whole pairs stand before them. -/
  even : before.count '`' % 2 = 0
  ne_nil : outside ≠ []
  free : '`' ∉ outside
  pieces : pieces s = pieces before ++ .plain '`' :: .command outside :: pieces rest
  paired : ∃ later, paired = modernize before ++ "``" ++ later

namespace Slips

variable {s paired before outside rest : Text}

theorem modernize_eq (h : Slips s paired before outside rest) :
    modernize s = modernize before ++ "`$(" ++ outside ++ ")" ++ modernize rest := by
  simp [modernize, h.pieces, Piece.modern]

theorem commands_eq (h : Slips s paired before outside rest) :
    commands s = commands before ++ outside :: commands rest := by
  simp [commands, h.pieces]

theorem modernize_ne (h : Slips s paired before outside rest) : modernize s ≠ paired := by
  obtain ⟨later, hpaired⟩ := h.paired
  rw [h.modernize_eq, hpaired]
  simp

/-- A text `Slips` where the text behind its first pair does, if this pair is kept. -/
theorem cons {t content : Text} (ht : '`' ∉ t) (hcontent : '`' ∉ content)
    (h : Slips s paired before outside rest)
    (hpair : content = [] → backtick? ('`' :: s) = none) :
    Slips (t ++ '`' :: (content ++ '`' :: s)) (t ++ ((Part.pair content).modern ++ paired))
      (t ++ '`' :: (content ++ '`' :: before)) outside rest := by
  have hcount : (t ++ '`' :: (content ++ '`' :: before)).count '`' = before.count '`' + 2 := by
    simp [List.count_eq_zero_of_not_mem ht, List.count_eq_zero_of_not_mem hcontent]
  have hbefore : content = [] → backtick? ('`' :: before) = none := by
    intro hempty
    have hnone := hpair hempty
    rw [h.text, List.append_assoc, List.append_assoc, List.append_assoc] at hnone
    exact backtick?_eq_none_of_append hnone
  obtain ⟨later, hlater⟩ := h.paired
  refine ⟨?_, ?_, h.ne_nil, h.free, ?_, later, ?_⟩
  · simp [h.text]
  · rw [hcount, Nat.add_mod_right]
    exact h.even
  · rw [pieces_pair ht hcontent hpair, pieces_pair ht hcontent hbefore, h.pieces]
    simp
  · rw [modernize_pair ht hcontent hbefore, hlater]
    simp

/-- A text `Slips` at its first pair, if that is empty and has text and then a backtick behind
    it. -/
theorem first {t : Text} (later : Text) (ht : '`' ∉ t) (hne : outside ≠ [])
    (hfree : '`' ∉ outside) :
    Slips (t ++ '`' :: '`' :: (outside ++ '`' :: rest)) (t ++ ("``" ++ later)) t outside rest := by
  refine ⟨?_, ?_, hne, hfree, ?_, later, ?_⟩
  · simp
  · rw [List.count_eq_zero_of_not_mem ht]
  · rw [pieces_append ht, pieces_cons_of_none (backtick?_twice _),
      pieces_cons_of_some (backtick?_pair hne hfree rest), pieces_of_not_mem ht]
  · rw [modernize_of_not_mem ht, List.append_assoc]

end Slips

theorem slips_of_inPhaseBetween {ts : List Text} (hfree : ∀ t ∈ ts, '`' ∉ t)
    (h : inPhaseBetween ts = false) :
    ∃ before outside rest,
      Slips (join ['`'] ts) ((partsBetween ts).flatMap Part.modern) before outside rest := by
  induction ts using partsBetween.induct with
  | case1 => simp [inPhaseBetween] at h
  | case2 t => simp [inPhaseBetween] at h
  | case3 t last => simp [inPhaseBetween] at h
  | case4 t content next more ih =>
    simp only [List.forall_mem_cons] at hfree
    obtain ⟨ht, hcontent, hnext, hmore⟩ := hfree
    rw [join_pair, partsBetween, List.flatMap_cons, List.flatMap_cons]
    by_cases hslip : content = [] ∧ next ≠ [] ∧ more ≠ []
    · obtain ⟨rfl, hne, hagain⟩ := hslip
      obtain ⟨second, others, rfl⟩ := List.exists_cons_of_ne_nil hagain
      rw [join_cons_cons ['`'] next]
      exact ⟨t, next, _, Slips.first _ ht hne hnext⟩
    -- the first pair is kept, and so the slip comes later
    · have hpair : content = [] → backtick? ('`' :: join ['`'] (next :: more)) = none := by
        intro hempty
        refine backtick?_join hnext ?_
        by_cases hnil : next = []
        · exact .inl hnil
        · exact .inr (Decidable.byContradiction fun hsome => hslip ⟨hempty, hnil, hsome⟩)
      have hlater : inPhaseBetween (next :: more) = false := by
        rw [inPhaseBetween, Bool.and_eq_false_iff] at h
        rcases h with h | h
        · simp only [Bool.or_eq_false_iff, Bool.not_eq_false', List.isEmpty_iff,
            List.isEmpty_eq_false_iff] at h
          exact absurd ⟨h.1.1, h.1.2, h.2⟩ hslip
        · exact h
      obtain ⟨before, outside, rest, hslips⟩ :=
        ih (List.forall_mem_cons.2 ⟨hnext, hmore⟩) hlater
      exact ⟨_, outside, rest, hslips.cons ht hcontent hpair⟩

/-! ## All texts -/

/-- **Backticks are taken in pairs from the left, as long as the text is in phase**: `modernize`
    then turns each pair with something in it into a substitution and leaves all else as it is, and
    the `commands` are the contents of these pairs. Otherwise the second backtick of some empty pair
    begins a substitution, and what stands outside of all pairs becomes its command. -/
theorem modernize_pairs_iff (s : Text) :
    (parts s).flatMap Part.text = s ∧
      (modernize s = (parts s).flatMap Part.modern ↔ inPhase s = true) ∧
      (inPhase s = true → commands s = (parts s).filterMap Part.command?) ∧
      (inPhase s = false → ∃ before outside rest : Text,
        s = before ++ "``" ++ outside ++ "`" ++ rest ∧ before.count '`' % 2 = 0 ∧ outside ≠ [] ∧
          '`' ∉ outside ∧
          modernize s = modernize before ++ "`$(" ++ outside ++ ")" ++ modernize rest ∧
          commands s = commands before ++ outside :: commands rest) := by
  have hne : List.splitOn '`' s ≠ [] := List.splitOn_ne_nil '`' s
  have hfree : ∀ t ∈ List.splitOn '`' s, '`' ∉ t := fun t => not_mem_of_mem_splitOn
  have hjoin : join ['`'] (List.splitOn '`' s) = s := List.intercalate_splitOn '`'
  have hphase : inPhase s = true → pieces s = (parts s).flatMap Part.pieces := by
    intro h
    have hpieces := pieces_of_inPhaseBetween hne hfree h
    rwa [hjoin] at hpieces
  have hslips : inPhase s = false →
      ∃ before outside rest, Slips s ((parts s).flatMap Part.modern) before outside rest := by
    intro h
    have hslips := slips_of_inPhaseBetween hfree h
    rwa [hjoin] at hslips
  refine ⟨?_, ⟨?_, ?_⟩, ?_, ?_⟩
  · rw [parts, text_partsBetween hne, hjoin]
  · intro heq
    cases h : inPhase s with
    | true => rfl
    | false =>
      obtain ⟨before, outside, rest, hslip⟩ := hslips h
      exact absurd heq hslip.modernize_ne
  · intro h
    rw [modernize, hphase h, List.flatMap_assoc]
    simp only [Part.flatMap_modern_pieces]
  · intro h
    exact commands_of_pieces (hphase h)
  · intro h
    obtain ⟨before, outside, rest, hslip⟩ := hslips h
    exact ⟨before, outside, rest, hslip.text, hslip.even, hslip.ne_nil, hslip.free,
      hslip.modernize_eq, hslip.commands_eq⟩

/-- Empty pairs with another backtick right behind them, or none at all, keep a text `inPhase`. -/
theorem modernize_pairs_iff_emptyPairs :
    inPhase "`a` ```b` ``" = true ∧ modernize "`a` ```b` ``" = "$(a) ``$(b) ``".toList ∧
      commands "`a` ```b` ``" = ["a".toList, "b".toList] := by
  have hphase : inPhase "`a` ```b` ``" = true := by decide
  obtain ⟨_, hmodern, hcommands, _⟩ := modernize_pairs_iff "`a` ```b` ``"
  exact ⟨hphase, (hmodern.2 hphase).trans (by decide), (hcommands hphase).trans (by decide)⟩

/-- The blank between an empty pair and the next one becomes a command, and the command of that pair
    becomes text. -/
theorem emptyPair_taken_apart :
    modernize "`` `date`" = "`$( )date`".toList ∧ commands "`` `date`" = [" ".toList] ∧
      (parts "`` `date`").flatMap Part.modern = "`` $(date)".toList ∧
      (parts "`` `date`").filterMap Part.command? = ["date".toList] ∧
      modernize "`` `date`" ≠ (parts "`` `date`").flatMap Part.modern := by
  have hmodern : modernize "`` `date`" = "`$( )date`".toList := by decide +kernel
  have hcommands : commands "`` `date`" = [" ".toList] := by decide +kernel
  have hpaired : (parts "`` `date`").flatMap Part.modern = "`` $(date)".toList := by decide
  refine ⟨hmodern, hcommands, hpaired, by decide, ?_⟩
  rw [hmodern, hpaired]
  decide

end Seashell.Substitution
