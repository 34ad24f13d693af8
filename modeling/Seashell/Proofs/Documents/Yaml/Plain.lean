import Seashell.Proofs.Documents.Yaml.Places

set_option autoImplicit false

/-! # Scalars without quotes

A text that the writer leaves without quotes is read back from the lines that it takes: `plainFrom`
finds its words and the gaps between them, and stops at the first line that is indented too little.

What such a text can hold from some place on is `flows`, which passes on to the rest of the text and
so carries the induction. A character that does not end its word is taken as it is
(`plainFrom_cons`), a gap is taken for the blanks that it stands for, also where the line is broken
(`plainFrom_blanks`), and `plainFrom_fold` puts this together for a whole text. `Unquoted` says
where it applies, to texts and to the other scalars that have no quotes. -/

namespace Seashell.Yaml

open Text

/-! ## Words and gaps -/

/-- A text that a scalar without quotes can hold from some place on: it does not end with a blank,
    no colon ends a word and no number sign begins one. -/
def flows : Text → Bool
  | [] => true
  | c :: cs =>
    !isSpecial c && c != '\n' && !(c == ':' && endsToken cs)
      && !(c == ' ' && (cs.isEmpty || cs.head? == some '#')) && flows cs

theorem flows_cons_iff {c : Char} {cs : Text} :
    flows (c :: cs) = true ↔ isSpecial c = false ∧ c ≠ '\n' ∧ (c = ':' → endsToken cs = false)
      ∧ (c = ' ' → cs ≠ [] ∧ cs.head? ≠ some '#') ∧ flows cs = true := by
  simp only [flows, Bool.and_eq_true, Bool.not_eq_true', bne_iff_ne, Bool.and_eq_false_iff,
    Bool.or_eq_false_iff, beq_eq_false_iff_ne, List.isEmpty_eq_false_iff, and_assoc,
    ← Decidable.imp_iff_not_or]

theorem flows_append {w s : Text} (h : flows (w ++ s) = true) : flows s = true := by
  induction w with
  | nil => exact h
  | cons c cs ih => exact ih (flows_cons_iff.1 h).2.2.2.2

/-- Blanks in a text that `flows` are followed by something else, which is no number sign. -/
theorem flows_spaces {k : Nat} {s : Text} (h : flows (spaces k ++ s) = true) (hk : 0 < k) :
    s ≠ [] ∧ s.head? ≠ some '#' := by
  induction k with
  | zero => exact absurd hk (Nat.lt_irrefl 0)
  | succ k ih =>
    obtain ⟨_, _, _, hblank, hrest⟩ := flows_cons_iff.1 h
    cases k with
    | zero => exact hblank rfl
    | succ k => exact ih hrest (Nat.succ_pos k)

theorem chars_of_flows {t : Text} (h : flows t = true) : ∀ c ∈ t, isSpecial c = false ∧ c ≠ '\n' := by
  induction t with
  | nil => simp
  | cons c cs ih =>
    obtain ⟨hspecial, hfeed, _, _, hcs⟩ := flows_cons_iff.1 h
    simpa [hspecial, hfeed] using ih hcs

theorem notMem_of_flows {t : Text} (h : flows t = true) : '\n' ∉ t := fun hmem =>
  (chars_of_flows h '\n' hmem).2 rfl

section Plain

variable {least : Nat}

theorem plainFrom_succ (fuel : Nat) (p : Cursor) :
    plainFrom false least (fuel + 1) p =
      let word := plainWord false p.rest
      let gap := plainGap (p.move word.length)
      if gap.1.isEmpty || endsPlain false least gap.2 then (⟨word, gap.2⟩, gap.2.line != p.line)
      else
        ((plainFrom false least fuel gap.2).1.prepend (word ++ gap.1),
          (plainFrom false least fuel gap.2).2) :=
  rfl

/-- `plainFrom` takes a character that does not end its word. -/
theorem plainFrom_cons {fuel : Nat} {p : Cursor} {c : Char} {s : Text} (hp : p.rest = c :: s)
    (hc : endsWord false c s = false) :
    plainFrom false least (fuel + 1) p
      = ((plainFrom false least (fuel + 1) p.next).1.prepend [c],
        (plainFrom false least (fuel + 1) p.next).2) := by
  have hword : plainWord false p.rest = c :: plainWord false p.next.rest := by
    rw [hp, plainWord, hc, Cursor.rest_next hp]
    rfl
  have hline : p.next.line = p.line := by
    simp only [endsWord, isWhite, Bool.or_eq_false_iff] at hc
    simp [Cursor.next, hp, hc.1.1.2]
  have hmove : p.move (c :: plainWord false p.next.rest).length
      = p.next.move (plainWord false p.next.rest).length := rfl
  simp only [plainFrom_succ, hword, hmove, hline]
  split <;> rfl

/-- `plainFrom` goes on after a gap. -/
theorem plainFrom_gap {fuel : Nat} {p next : Cursor} {gap : Text} (hword : plainWord false p.rest = [])
    (hgap : plainGap p = (gap, next)) (hne : gap ≠ []) (hends : endsPlain false least next = false) :
    plainFrom false least (fuel + 1) p
      = ((plainFrom false least fuel next).1.prepend gap, (plainFrom false least fuel next).2) := by
  have hmove : p.move ([] : Text).length = p := rfl
  have hempty : gap.isEmpty = false := by simpa using hne
  simp only [plainFrom_succ, hword, hmove, hgap, hempty, hends, Bool.or_self, List.nil_append]
  rfl

theorem plainGap_blanks {p : Cursor} {k : Nat} {d : Char} {s : Text} (hp : p.rest = spaces k ++ d :: s)
    (hblank : d ≠ ' ') (hbreak : isBreak d = false) : plainGap p = (spaces k, p.move k) := by
  have hspan : p.span (· == ' ') = (spaces k, p.move k) :=
    Cursor.span_spaces hp rfl (by simpa using hblank)
  have hrest : (p.move k).rest = d :: s := Cursor.rest_move_spaces hp
  simp [plainGap, hspan, hrest, hbreak]

theorem plainGap_newLine {p : Cursor} {n : Nat} {s : Text} (hp : p.rest = newLine n ++ s)
    (hs : stops (fun d => d == ' ' || isBreak d) s = true) : plainGap p = ([' '], p.move (n + 1)) := by
  have hspan : p.span (· == ' ') = ([], p) := by
    rw [Cursor.span, hp]
    rfl
  have hlead : p.next.span (fun d => d == ' ' || isBreak d) = (spaces n, p.next.move n) :=
    Cursor.span_spaces (Cursor.rest_next hp) rfl hs
  have hfilter : (spaces n).filter isBreak = [] := by simp [spaces, isBreak]
  simp only [plainGap, hspan, hp, newLine, List.cons_append, hlead, hfilter]
  rfl

/-- `plainFrom` ends with its line, if the next line is not indented enough: `margin < least`. -/
theorem plainFrom_newLine {fuel margin : Nat} {p : Cursor} {next : Text}
    (hp : p.rest = newLine margin ++ next) (hmargin : margin < least ∨ next = [])
    (hnext : stops (fun d => d == ' ' || isBreak d) next = true) :
    plainFrom false least (fuel + 1) p = (⟨[], p.move (margin + 1)⟩, true) := by
  have hword : plainWord false p.rest = [] := by rw [hp]; rfl
  have hplace := Cursor.move_newLine hp
  have hends : endsPlain false least (p.move (margin + 1)) = true := by
    rcases hmargin with hlt | hnil
    · simp [endsPlain, hplace, hlt]
    · simp [endsPlain, hplace, hnil, plainWord]
  have hline : ((p.move (margin + 1)).line != p.line) = true := by simp [hplace]
  have hmove : p.move ([] : Text).length = p := rfl
  simp only [plainFrom_succ, hword, hmove, plainGap_newLine hp hnext, hends, hline, Bool.or_true]
  rfl

theorem atWhite_fold (indent column : Nat) {cs : Text} (h : flows cs = true) (hends : endsToken cs = false)
    (tail : Text) : atWhite (fold indent (fun d => [d]) column .other cs ++ tail) = false := by
  cases cs with
  | nil => exact absurd hends (by decide)
  | cons d ds =>
    simp only [endsToken, Bool.or_eq_false_iff, beq_eq_false_iff_ne] at hends
    rw [fold_cons ds hends.1 hends.2]
    simp [atWhite, isWhite_eq_false (flows_cons_iff.1 h).1 hends.1 hends.2]

/-- A character of a text that `flows` does not end its word, unless it is a blank. -/
theorem endsWord_fold (indent column : Nat) {c : Char} {cs : Text} (h : flows (c :: cs) = true)
    (hblank : c ≠ ' ') (tail : Text) :
    endsWord false c (fold indent (fun d => [d]) column .other cs ++ tail) = false := by
  obtain ⟨hc, hfeed, hcolon, _, hcs⟩ := flows_cons_iff.1 h
  have hwhite := isWhite_eq_false hc hblank hfeed
  by_cases he : c = ':'
  · simp [endsWord, hwhite, atWhite_fold indent column hcs (hcolon he)]
  · simp [endsWord, hwhite, he]

/-- A gap between two words, as the writer leaves it, is taken by `plainFrom` for the blanks that it
    stands for. -/
theorem plainFrom_blanks (fuel : Nat) {indent k : Nat} {p : Cursor} {gap : Text} {d : Char} {s : Text}
    (hindent : least ≤ indent ∧ 0 < indent) (hcolumn : least ≤ p.column ∧ 0 < p.column)
    (hp : p.rest = gap ++ d :: s) (hk : 0 < k) (hgap : gap = spaces k ∨ k = 1 ∧ gap = newLine indent)
    (hd : endsWord false d s = false) (hhash : d ≠ '#') :
    ∃ q : Cursor, plainFrom false least (fuel + 1) p
        = ((plainFrom false least fuel q).1.prepend (spaces k), (plainFrom false least fuel q).2) ∧
      q.rest = d :: s ∧ (least ≤ q.column ∧ 0 < q.column) ∧ p.line ≤ q.line := by
  have hwhite : isSpace d = false ∧ isBreak d = false := by
    simp only [endsWord, isWhite, Bool.or_eq_false_iff] at hd
    exact hd.1.1
  have hblank : d ≠ ' ' := by rintro rfl; exact absurd hwhite.1 (by decide)
  have hne : spaces k ≠ [] := by simp [spaces, Nat.ne_of_gt hk]
  have hends : ∀ q : Cursor, q.rest = d :: s → least ≤ q.column → 0 < q.column →
      endsPlain false least q = false := by
    intro q hq hleast hzero
    have hmarker : q.atMarker = false := Cursor.atMarker_eq_false (Nat.ne_of_gt hzero)
    simp [endsPlain, hq, hmarker, hhash, plainWord, hd, hleast]
  have hword : plainWord false p.rest = [] := by
    rcases hgap with rfl | ⟨_, rfl⟩
    · obtain ⟨k, rfl⟩ := Nat.exists_eq_succ_of_ne_zero (Nat.ne_of_gt hk)
      rw [hp]
      rfl
    · rw [hp]
      rfl
  rcases hgap with rfl | ⟨rfl, rfl⟩
  · have hplace : p.move k = ⟨d :: s, p.index + k, p.line, p.column + k⟩ := by
      have := Cursor.move_inline hp fun c hc => Cursor.isInline_of_mem_spaces hc
      rwa [spaces, List.length_replicate] at this
    refine ⟨p.move k, plainFrom_gap hword (plainGap_blanks hp hblank hwhite.2) hne (hends _ ?_ ?_ ?_), ?_⟩
    all_goals simp only [hplace]
    · omega
    · omega
    · exact ⟨trivial, by omega, Nat.le_refl _⟩
  · have hplace := Cursor.move_newLine hp
    have hstops : stops (fun c => c == ' ' || isBreak c) (d :: s) = true := by simp [hblank, hwhite.2]
    refine ⟨p.move (indent + 1), plainFrom_gap hword (plainGap_newLine hp hstops) hne (hends _ ?_ ?_ ?_), ?_⟩
    all_goals simp only [hplace]
    · exact hindent.1
    · exact hindent.2
    · exact ⟨trivial, hindent, Nat.le_succ _⟩

/-- Blanks in a text that `fold` has folded are taken before the word that follows them, also where
    the line is broken. -/
theorem plainFrom_spaces (fuel : Nat) {indent k column : Nat} {p : Cursor} {d : Char} {ds tail : Text}
    (hindent : least ≤ indent ∧ 0 < indent) (hcolumn : least ≤ p.column ∧ 0 < p.column) (hk : 0 < k)
    (hd : d ≠ ' ') (hflow : flows (spaces k ++ d :: ds) = true)
    (hp : p.rest = fold indent (fun c => [c]) column .other (spaces k ++ d :: ds) ++ tail) :
    ∃ (q : Cursor) (later : Nat), plainFrom false least (fuel + 1) p
        = ((plainFrom false least fuel q).1.prepend (spaces k), (plainFrom false least fuel q).2) ∧
      q.rest = fold indent (fun c => [c]) later .space (d :: ds) ++ tail ∧
      (least ≤ q.column ∧ 0 < q.column) ∧ p.line ≤ q.line ∧ q.rest.length < p.rest.length := by
  obtain ⟨_, hhash⟩ := flows_spaces hflow hk
  have hword : flows (d :: ds) = true := flows_append hflow
  obtain ⟨_, hfeed, _⟩ := flows_cons_iff.1 hword
  obtain ⟨gap, later, hfold, hgap⟩ := fold_blanks indent (fun c => [c]) column .other hk (d :: ds)
  replace hgap : gap = spaces k ∨ k = 1 ∧ gap = newLine indent := hgap.imp_right fun h => ⟨h.1, h.2.2⟩
  have hcons : fold indent (fun c => [c]) later .space (d :: ds)
      = d :: fold indent (fun c => [c]) (later + 1) .other ds := fold_cons ds hd hfeed
  have hrest : p.rest = gap ++ d :: (fold indent (fun c => [c]) (later + 1) .other ds ++ tail) := by
    rw [hp, hfold, hcons, List.append_assoc, List.cons_append]
  obtain ⟨q, hread, hq, hplace, hline⟩ := plainFrom_blanks fuel hindent hcolumn hrest hk hgap
    (endsWord_fold indent (later + 1) hword hd tail) (by simpa using hhash)
  refine ⟨q, later, hread, by rw [hq, hcons, List.cons_append], hplace, hline, ?_⟩
  have hne : 0 < gap.length := by rcases hgap with rfl | ⟨_, rfl⟩ <;> simp [spaces, newLine, hk]
  rw [hrest, ← hq, List.length_append]
  omega

/-- A text that `fold` has folded is read back as a scalar without quotes. -/
theorem plainFrom_fold (least : Nat) {indent margin : Nat} {next : Text}
    (hindent : least ≤ indent ∧ 0 < indent)
    (hmargin : margin < least ∨ next = [])
    (hnext : stops (fun d => d == ' ' || isBreak d) next = true) {t : Text} (ht : flows t = true)
    (hne : t ≠ []) (hstart : stops (· == ' ') t = true) {fuel column : Nat} {before : Before} {p : Cursor}
    (hp : p.rest = fold indent (fun c => [c]) column before t ++ (newLine margin ++ next))
    (hcolumn : least ≤ p.column ∧ 0 < p.column) (hfuel : p.rest.length ≤ fuel) :
    ∃ q : Cursor, plainFrom false least fuel p = (⟨t, q⟩, true) ∧ q.rest = next ∧ q.column = margin ∧
      p.line < q.line := by
  -- A gap is taken as a whole, so that the text gets shorter by more than one character.
  induction hn : t.length using Nat.strongRecOn generalizing t fuel column before p with
  | ind n ih =>
    obtain ⟨c, cs, rfl⟩ := List.exists_cons_of_ne_nil hne
    have hblank : c ≠ ' ' := by simpa using hstart
    obtain ⟨hc, hfeed, _, _, hcs⟩ := flows_cons_iff.1 ht
    rw [fold_cons cs hblank hfeed] at hp
    have hstep := Cursor.next_inline hp (isInline_of_not_special hc hfeed)
    have hlength : p.rest.length = p.next.rest.length + 1 := by rw [hp, Cursor.rest_next hp]; simp
    obtain ⟨fuel, rfl⟩ := Nat.exists_eq_succ_of_ne_zero (show fuel ≠ 0 by omega)
    rw [Nat.succ_eq_add_one, plainFrom_cons hp (endsWord_fold indent _ ht hblank _)]
    have hrest := Cursor.rest_next hp
    have hline : p.next.line = p.line := by rw [hstep]
    have hcolumn' : least ≤ p.next.column ∧ 0 < p.next.column := by rw [hstep]; dsimp only; omega
    obtain ⟨k, s, rfl, hs⟩ : ∃ k s, cs = spaces k ++ s ∧ stops (· == ' ') s = true :=
      eq_replicate_append ' ' cs
    rcases Nat.eq_zero_or_pos k with rfl | hk
    · cases s with
      | nil =>
        have hplace := Cursor.move_newLine hrest
        rw [plainFrom_newLine hrest hmargin hnext]
        refine ⟨p.next.move (margin + 1), rfl, ?_⟩
        simp only [hplace, hline]
        exact ⟨trivial, trivial, Nat.lt_succ_self _⟩
      | cons d ds =>
        obtain ⟨q, hread, hq⟩ := ih _ (by rw [← hn]; exact Nat.lt_succ_self _) hcs (by simp [spaces]) hs hrest
          hcolumn' (show _ ≤ fuel + 1 by omega) rfl
        rw [hread]
        exact ⟨q, rfl, hline ▸ hq⟩
    · obtain ⟨hend, _⟩ := flows_spaces hcs hk
      obtain ⟨d, ds, rfl⟩ := List.exists_cons_of_ne_nil hend
      obtain ⟨q, later, hread, hqrest, hqcolumn, hqline, hqlength⟩ :=
        plainFrom_spaces fuel hindent hcolumn' hk (by simpa using hs) hcs hrest
      have hshorter : (d :: ds).length < n := by
        rw [← hn, List.length_cons (a := c), List.length_append]
        omega
      obtain ⟨r, hmore, hr⟩ := ih _ hshorter (flows_append hcs) hend hs hqrest hqcolumn
        (show q.rest.length ≤ fuel by omega) rfl
      rw [hread, hmore]
      exact ⟨r, rfl, hr.1, hr.2.1, by omega⟩

end Plain

/-! ## The plain style -/

/-- A text `t` that can be written without quotes, whatever it stands for. -/
structure Unquoted (t : Text) : Prop where
  flows : flows t = true
  visible : stops (· == ' ') t = true
  starts : startsIndicator t = false

theorem Unquoted.ne_nil {t : Text} (h : Unquoted t) : t ≠ [] := by
  rintro rfl
  exact absurd h.starts (by decide)

/-- An `Unquoted` text begins with something else than a mark. -/
theorem Unquoted.eq_cons {t : Text} (h : Unquoted t) :
    ∃ c cs, t = c :: cs ∧ c ≠ ' ' ∧ c ≠ '\n' ∧ isWhite c = false ∧ leadingIndicators.contains c = false ∧
      ((c == '?' || c == ':' || c == '-') = true → endsToken cs = false) := by
  obtain ⟨c, cs, rfl⟩ := List.exists_cons_of_ne_nil h.ne_nil
  have hblank : c ≠ ' ' := by simpa using h.visible
  obtain ⟨hc, hfeed, _⟩ := flows_cons_iff.1 h.flows
  have hstarts := h.starts
  simp only [startsIndicator, Bool.or_eq_false_iff, Bool.and_eq_false_iff] at hstarts
  refine ⟨c, cs, rfl, hblank, hfeed, isWhite_eq_false hc hblank hfeed, hstarts.2.1, fun hmark => ?_⟩
  refine hstarts.2.2.resolve_left fun hnot => ?_
  simp only [hnot] at hmark
  exact absurd hmark (by simp)

theorem flows_of_hasIndicator {a : Char} {cs : Text} (hchars : ∀ c ∈ a :: cs, isSpecial c = false ∧ c ≠ '\n')
    (hindicator : hasIndicator (a :: cs) = false) (hlast : (a :: cs).getLast? ≠ some ' ') :
    flows cs = true ∧ (a = ' ' → cs ≠ [] ∧ cs.head? ≠ some '#') := by
  induction cs generalizing a with
  | nil =>
    refine ⟨rfl, ?_⟩
    rintro rfl
    exact absurd rfl hlast
  | cons b rest ih =>
    simp only [hasIndicator, Bool.or_eq_false_iff, Bool.and_eq_false_iff, beq_eq_false_iff_ne,
      ← Decidable.imp_iff_not_or] at hindicator
    obtain ⟨⟨hcolon, hhash⟩, hmore⟩ := hindicator
    obtain ⟨hb, hfeed⟩ := hchars b (by simp)
    obtain ⟨hrest, hblank⟩ := ih (fun c hc => hchars c (List.mem_cons_of_mem a hc)) hmore
      (by simpa using hlast)
    refine ⟨flows_cons_iff.2 ⟨hb, hfeed, hcolon, hblank, hrest⟩, ?_⟩
    rintro rfl
    exact ⟨by simp, fun h => absurd rfl (hhash (by simpa using h)).1⟩

theorem unquoted_of_indicators {t : Text} (hspecial : ∀ c ∈ t, isSpecial c = false) (hfeed : '\n' ∉ t)
    (houter : hasOuterSpace t = false) (hstarts : startsIndicator t = false)
    (hindicator : hasIndicator t = false) : Unquoted t := by
  cases t with
  | nil => exact absurd hstarts (by decide)
  | cons a cs =>
    have hchars : ∀ c ∈ a :: cs, isSpecial c = false ∧ c ≠ '\n' :=
      fun c hc => ⟨hspecial c hc, fun he => hfeed (he ▸ hc)⟩
    simp only [hasOuterSpace, Bool.or_eq_false_iff] at houter
    have hlast : (a :: cs).getLast? ≠ some ' ' := by
      intro h
      rw [h] at houter
      exact absurd houter.2 (by decide)
    have hblank : a ≠ ' ' := by
      rintro rfl
      exact absurd houter.1 (by simp [isSpaceOrBreak])
    have hcolon : a = ':' → endsToken cs = false := by
      rintro rfl
      simp only [startsIndicator, Bool.or_eq_false_iff, Bool.and_eq_false_iff] at hstarts
      simpa using hstarts.2.2
    obtain ⟨hflows, _⟩ := flows_of_hasIndicator hchars hindicator hlast
    obtain ⟨ha, hafeed⟩ := hchars a List.mem_cons_self
    exact ⟨flows_cons_iff.2 ⟨ha, hafeed, hcolon, fun h => absurd h hblank, hflows⟩, by simpa using hblank,
      hstarts⟩

theorem unquoted_of_style {t : Text} (h : styleOf t = .plain) : Unquoted t ∧ kind t = .text := by
  have hwritten := not_special_of_style (t := t) (by rw [h]; decide)
  simp only [styleOf] at h
  split at h
  · exact absurd h (by decide)
  · split at h
    · exact absurd h (by decide)
    · rename_i hsingle
      simp only [Bool.or_eq_true, not_or, Bool.not_eq_true, bne_eq_false_iff_eq] at hsingle
      obtain ⟨⟨⟨⟨hfeed, houter⟩, hstarts⟩, hindicator⟩, hkind⟩ := hsingle
      exact ⟨unquoted_of_indicators hwritten (by simpa using hfeed) houter hstarts hindicator, hkind⟩

end Seashell.Yaml
