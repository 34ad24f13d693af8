import Seashell.Proofs.Documents.Yaml.Plain
import Seashell.Proofs.Documents.Yaml.Quotes
import Seashell.Proofs.Scan
import Seashell.Yaml.Token

set_option autoImplicit false

/-! # Tokens that are read back from YAML

A document that was written is split into the tokens that its value asks for. The lexer is followed
from one ready state to the next (`Lexer.ready`): a state in which white space has been passed,
possible keys that are out of reach have been given up, and what the indentation ends has ended.
`Next` is one token from there, `Leads` is any number of them, and `run_of_leads` says that a run
goes on where they lead.

In the documents that were written no key is pending between tokens, but for the one that a colon
follows at once: the states are `fresh`. What a scalar, an empty list or mapping, a dash, or a key
with its colon does to such a state is said by one lemma each (`arrives_plain`, `arrives_quoted`,
`arrives_brackets`, `next_dash`, `leads_key`). `Arrives` goes as far as the start of the next line,
where the indentation may end lists and mappings (`Arrives.close`). -/

namespace Seashell.Yaml

open Text

/-! ## White space between tokens -/

/-- A character that `skipWhite` skips between tokens, or that begins a comment. -/
def isSkipped (c : Char) : Bool := c == ' ' || isBreak c || c == '#'

namespace Cursor

theorem whiteLength_of_stops {s : Text} (h : stops isSkipped s = true) : whiteLength false s = 0 := by
  cases s with
  | nil => rfl
  | cons c cs =>
    simp only [stops_cons, isSkipped, Bool.not_eq_true', Bool.or_eq_false_iff] at h
    simp [whiteLength, h]

theorem whiteLength_spaces (n : Nat) (s : Text) :
    whiteLength false (spaces n ++ s) = n + whiteLength false s := by
  induction n with
  | zero => exact (Nat.zero_add _).symm
  | succ n ih =>
    rw [spaces_succ, List.cons_append]
    simp only [whiteLength]
    rw [ih]
    simp [isBreak]
    omega

theorem skipWhite_of_stops {p : Cursor} (h : stops isSkipped p.rest = true) : p.skipWhite = p := by
  rw [skipWhite, whiteLength_of_stops h, move]

theorem skipWhite_blank {p : Cursor} {s : Text} (hp : p.rest = ' ' :: s) (hs : stops isSkipped s = true) :
    p.skipWhite = p.next := by
  have hlength : whiteLength false p.rest = 1 := by
    rw [hp]
    exact (whiteLength_spaces 1 s).trans (by rw [whiteLength_of_stops hs])
  rw [skipWhite, hlength, move, move]

theorem skipWhite_newLine {p : Cursor} {n : Nat} {s : Text} (hp : p.rest = newLine n ++ s)
    (hs : stops isSkipped s = true) : p.skipWhite = ⟨s, p.index + 1 + n, p.line + 1, n⟩ := by
  have hlength : whiteLength false p.rest = n + 1 := by
    rw [hp]
    show whiteLength false (spaces n ++ s) + 1 = n + 1
    rw [whiteLength_spaces, whiteLength_of_stops hs]
  rw [skipWhite, hlength, move_newLine hp]

theorem isMarker_of_not_mem {mark w s : Text} {c : Char} (hw : w.startsWith mark = false) (hc : c ∉ mark) :
    isMarker mark (w ++ c :: s) = false := by
  have hno : ¬ mark <+: w := fun h => by
    rw [Text.startsWith, List.isPrefixOf_iff_prefix.2 h] at hw
    exact absurd hw (by decide)
  have hafter : after? mark (w ++ c :: s) = none := by
    refine Option.eq_none_iff_forall_not_mem.2 fun r hr => ?_
    obtain ⟨more, hmark, htail⟩ | ⟨more, hmore, _⟩ := List.append_eq_append_iff.1 (after?_eq_some_iff.1 hr)
    · cases more with
      | nil => exact hno ⟨[], by rw [hmark, List.append_nil, List.append_nil]⟩
      | cons d ds =>
        rw [List.cons_append, List.cons.injEq] at htail
        exact hc (by simp [hmark, htail.1])
    · exact hno ⟨more, hmore.symm⟩
  rw [isMarker, hafter]
  rfl

/-- No mark of a document goes beyond a character `c` other than a hyphen or a dot. -/
theorem atMarker_of_word {p : Cursor} {w s : Text} {c : Char} (hp : p.rest = w ++ c :: s)
    (hstart : w.startsWith "---" = false) (hstop : w.startsWith "..." = false) (hhyphen : c ≠ '-')
    (hdot : c ≠ '.') : p.atMarker = false := by
  have hfirst : isMarker "---" p.rest = false := hp ▸ isMarker_of_not_mem hstart (by simpa using hhyphen)
  have hlast : isMarker "..." p.rest = false := hp ▸ isMarker_of_not_mem hstop (by simpa using hdot)
  simp only [atMarker, atStart, atStop, hfirst, hlast]
  simp

theorem atMarker_of_head {p : Cursor} {c : Char} {s : Text} (hp : p.rest = c :: s) (hhyphen : c ≠ '-')
    (hdot : c ≠ '.') : p.atMarker = false :=
  atMarker_of_word (w := []) hp (by decide) (by decide) hhyphen hdot

theorem length_rest_move (p : Cursor) (n : Nat) : (p.move n).rest.length ≤ p.rest.length := by
  induction n generalizing p with
  | zero => exact Nat.le_refl _
  | succ n ih =>
    refine Nat.le_trans (ih p.next) ?_
    cases hp : p.rest with
    | nil => rw [next, hp]; simp [hp]
    | cons c s => rw [rest_next hp]; simp

end Cursor

/-! ## Keys -/

/-- A text `k` that stands as a key without quotes, on one line and in reach of its colon. -/
structure IsKey (k : Text) : Prop where
  style : styleOf k = .plain
  solid : ' ' ∉ k
  short : k.length ≤ PossibleKey.reach

instance (k : Text) : Decidable (IsKey k) :=
  decidable_of_iff (styleOf k = .plain ∧ ' ' ∉ k ∧ k.length ≤ PossibleKey.reach)
    ⟨fun h => ⟨h.1, h.2.1, h.2.2⟩, fun h => ⟨h.style, h.solid, h.short⟩⟩

theorem plainWord_append {k s : Text} (hflows : flows k = true) (hsolid : ' ' ∉ k) (hs : atWhite s = true) :
    plainWord false (k ++ ':' :: s) = k := by
  induction k with
  | nil => simp [plainWord, endsWord, hs]
  | cons c cs ih =>
    have hcs := (flows_cons_iff.1 hflows).2.2.2.2
    have hblank : c ≠ ' ' := fun h => hsolid (by simp [h])
    have hgoes : endsWord false c (cs ++ ':' :: s) = false := by
      have hfold := fold_solid 0 (fun h => hsolid (List.mem_cons_of_mem c h)) (notMem_of_flows hcs) 0 .other
      rw [← hfold]
      exact endsWord_fold 0 0 hflows hblank (':' :: s)
    rw [List.cons_append, plainWord, hgoes, ih hcs fun h => hsolid (List.mem_cons_of_mem c h)]
    rfl

/-! ## Ready states -/

namespace Lexer

/-- The state in which the next `token` is looked at. -/
def ready (s : Lexer) : Except Fault Lexer := do
  let s ← s.skipWhite.dropStale
  return s.unwind s.place.column

/-- Splits off the `token` at the place. -/
def advance (s : Lexer) : Except Fault Lexer :=
  match s.place.rest with
  | [] => s.finish
  | c :: rest => s.token c rest

theorem step_eq (s : Lexer) : s.step = s.ready >>= advance := by
  simp only [step, ready, bind, Except.bind]
  split <;> rfl

@[simp] theorem place_unwind (s : Lexer) (column : Nat) : (s.unwind column).place = s.place := by
  rw [unwind]
  split <;> rfl

theorem place_dropStale {s t : Lexer} (h : s.dropStale = .ok t) : t.place = s.place := by
  simp only [dropStale] at h
  split at h
  · exact absurd h (by simp)
  · rw [← Except.ok.inj h]

theorem length_rest_ready {s t : Lexer} (h : s.ready = .ok t) :
    t.place.rest.length ≤ s.place.rest.length := by
  cases hdrop : s.skipWhite.dropStale with
  | error f =>
    rw [ready, hdrop] at h
    exact absurd h (by simp [bind, Except.bind])
  | ok u =>
    rw [ready, hdrop] at h
    have ht : u.unwind u.place.column = t := Except.ok.inj h
    rw [← ht, place_unwind, place_dropStale hdrop]
    exact s.place.length_rest_move _

/-- The next token leads from the `ready` state `s` to another, `t`. -/
def Next (s t : Lexer) : Prop :=
  ∃ u, s.advance = .ok u ∧ u.ready = .ok t ∧ u.tokens.head? ≠ some .finish ∧
    u.place.rest.length < s.place.rest.length

/-- Some tokens lead from one `ready` state to another, `Next` by `Next`. -/
inductive Leads : Lexer → Lexer → Prop where
  | refl (s : Lexer) : Leads s s
  | next {s t u : Lexer} (h : Next s t) (more : Leads t u) : Leads s u

theorem Leads.trans {s t u : Lexer} (h : Leads s t) (more : Leads t u) : Leads s u := by
  induction h with
  | refl s => exact more
  | next h _ ih => exact .next h (ih more)

/-- A `run` goes on where some tokens lead. -/
theorem run_of_leads {s t : Lexer} (h : Leads s t) {u : Lexer} (hready : u.ready = .ok s) {fuel : Nat}
    (hfuel : u.place.rest.length < fuel) :
    ∃ v later, v.ready = .ok t ∧ v.place.rest.length < later ∧ run fuel u = run later v := by
  induction h generalizing u fuel with
  | refl s => exact ⟨u, fuel, hready, hfuel, rfl⟩
  | next h _ ih =>
    obtain ⟨w, hadvance, hw, hfinish, hlength⟩ := h
    have hle := length_rest_ready hready
    obtain ⟨fuel, rfl⟩ := Nat.exists_eq_succ_of_ne_zero (Nat.ne_of_gt (Nat.zero_lt_of_lt hfuel))
    obtain ⟨v, later, hv, hlater, hrun⟩ := ih hw (show _ < fuel by omega)
    refine ⟨v, later, hv, hlater, ?_⟩
    have hstep : u.step = .ok w := by rw [step_eq, hready]; exact hadvance
    rw [run, hstep]
    dsimp only
    rw [if_neg hfinish, hrun]

/-! ## Block style -/

/-- A state without possible keys and outside of brackets. -/
def fresh (p : Cursor) (tokens : List Token) (indents : List Nat) (mayBegin : Bool) : Lexer :=
  { place := p, tokens, indents, mayBegin }

section Fresh

variable {p : Cursor} {tokens : List Token} {indents : List Nat} {mayBegin : Bool}

theorem unwind_of_le {column : Nat} (h : indents.head?.all (· ≤ column) = true) :
    (fresh p tokens indents mayBegin).unwind column = fresh p tokens indents mayBegin := by
  have htake : indents.takeWhile (column < ·) = [] := by
    cases indents with
    | nil => rfl
    | cons i is =>
      have hi : ¬ column < i := by simpa using h
      simp [hi]
  simp [unwind, fresh, inFlow, htake]

/-- A list or mapping to the right of a column ends when `unwind` comes to that column. -/
theorem unwind_of_lt {column i : Nat} (h : column < i) :
    (fresh p tokens (i :: indents) mayBegin).unwind column
      = (fresh p (.blockEnd :: tokens) indents mayBegin).unwind column := by
  have hends : ∀ is : List Nat, is.map (fun _ => Token.blockEnd) ++ .blockEnd :: tokens
      = .blockEnd :: (is.map (fun _ => Token.blockEnd) ++ tokens) := by
    intro is
    induction is with
    | nil => rfl
    | cons j js ih => rw [List.map_cons, List.cons_append, ih, List.cons_append]
  have hdeeper : decide (column < i) = true := decide_eq_true h
  simp only [unwind, fresh, inFlow, List.takeWhile_cons, hdeeper, if_true, List.map_cons, List.cons_append,
    hends]
  rfl

/-- A state leads to the start of a line at the column `margin`, where the lists and mappings to the
    right of it end. -/
def Arrives (s : Lexer) (tokens : List Token) (indents : List Nat) (margin : Nat) (next : Text) : Prop :=
  ∃ q : Cursor, q.rest = next ∧ q.column = margin ∧ Leads s ((fresh q tokens indents true).unwind margin)

theorem Arrives.of_leads {s t : Lexer} {margin : Nat} {next : Text} (h : Leads s t)
    (ht : Arrives t tokens indents margin next) : Arrives s tokens indents margin next := by
  obtain ⟨q, hq, hcolumn, hmore⟩ := ht
  exact ⟨q, hq, hcolumn, h.trans hmore⟩

/-- A list or mapping ends where a line begins to the left of it: `margin < i`. -/
theorem Arrives.close {s : Lexer} {i margin : Nat} {next : Text}
    (h : Arrives s tokens (i :: indents) margin next) (hmargin : margin < i) :
    Arrives s (.blockEnd :: tokens) indents margin next := by
  obtain ⟨q, hq, hcolumn, hleads⟩ := h
  exact ⟨q, hq, hcolumn, unwind_of_lt hmargin ▸ hleads⟩

/-- The `PossibleKey` at a place, if one may begin there. -/
def keyAt (p : Cursor) (tokens : List Token) (indents : List Nat) (mayBegin : Bool) : Option PossibleKey :=
  if mayBegin then some ⟨tokens.length, p.index, p.line, p.column, indents.head? == some p.column⟩ else none

/-- The state with the possible key `k`. -/
def noting (s : Lexer) (k : Option PossibleKey) : Lexer := { s with candidate := k }

theorem noteKey_fresh : (fresh p tokens indents mayBegin).noteKey
    = .ok ((fresh p tokens indents mayBegin).noting (keyAt p tokens indents mayBegin)) := by
  cases mayBegin <;>
    simp [noteKey, dropKey, fresh, noting, keyAt, inFlow, bind, Except.bind, pure, Except.pure]

theorem ready_fresh {q : Cursor} (hq : p.skipWhite = q) :
    (fresh p tokens indents mayBegin).ready
      = .ok ((fresh q tokens indents (mayBegin || q.line != p.line)).unwind q.column) := by
  subst hq
  simp [ready, skipWhite, dropStale, fresh, inFlow, bind, Except.bind, pure, Except.pure]

theorem dropStale_of_stale {s : Lexer} {k : PossibleKey} (hk : s.candidate = some k) (houter : s.outer = [])
    (hstale : k.isStale s.place = true) (hrequired : k.required = false) :
    s.dropStale = .ok { s with candidate := none } := by
  simp [dropStale, hk, houter, hstale, hrequired, Option.filter]

/-- `dropStale` keeps possible keys within reach. -/
theorem dropStale_of_near {s : Lexer}
    (h : ∀ k ∈ s.candidate :: s.outer, k.filter (!·.isStale s.place) = k) : s.dropStale = .ok s := by
  have hnone : (((s.candidate :: s.outer).filterMap id).filter (·.isStale s.place)) = [] := by
    rw [List.filter_eq_nil_iff]
    intro k hk
    have := h (some k) (by simpa using hk)
    simpa [Option.filter] using this
  have houter : s.outer.map (·.filter (!·.isStale s.place)) = s.outer := by
    simpa using List.map_congr_left fun k hk => h k (List.mem_cons_of_mem _ hk)
  simp only [dropStale, hnone, houter, h s.candidate List.mem_cons_self]
  rfl

/-- A possible key is in reach on its line, up to `PossibleKey.reach` characters. -/
theorem filter_keyAt {q : Cursor} (hline : p.line = q.line) (hindex : q.index - p.index ≤ PossibleKey.reach) :
    (keyAt p tokens indents mayBegin).filter (!·.isStale q) = keyAt p tokens indents mayBegin := by
  cases mayBegin <;> simp [keyAt, PossibleKey.isStale, hline, Option.filter]
  omega

/-- On a later line a possible key is given up. -/
theorem ready_of_later (p : Cursor) (tokens : List Token) {q r : Cursor} (more : List Token) (ended : Bool)
    (hr : q.skipWhite = r)
    (hline : p.line ≠ r.line) (hkey : mayBegin = true → indents.head? ≠ some p.column) :
    ((fresh q more indents ended).noting (keyAt p tokens indents mayBegin)).ready
      = .ok ((fresh r more indents (ended || r.line != q.line)).unwind r.column) := by
  subst hr
  cases mayBegin with
  | false => exact ready_fresh rfl
  | true =>
    have hstale : PossibleKey.isStale
        ⟨tokens.length, p.index, p.line, p.column, indents.head? == some p.column⟩ q.skipWhite = true := by
      simp [PossibleKey.isStale, hline]
    rw [ready, dropStale_of_stale rfl rfl hstale (by simpa using hkey rfl)]
    rfl

/-- After the end of a line a key may begin again. -/
theorem ready_newLine (p : Cursor) (tokens : List Token) {q : Cursor} (more : List Token) (ended : Bool)
    {margin : Nat} {next : Text} (hq : q.rest = newLine margin ++ next) (hnext : stops isSkipped next = true)
    (hline : p.line ≤ q.line) (hkey : mayBegin = true → indents.head? ≠ some p.column) :
    ∃ r : Cursor, r.rest = next ∧ r.column = margin ∧
      ((fresh q more indents ended).noting (keyAt p tokens indents mayBegin)).ready
        = .ok ((fresh r more indents true).unwind margin) := by
  refine ⟨⟨next, q.index + 1 + margin, q.line + 1, margin⟩, rfl, rfl, ?_⟩
  rw [ready_of_later p tokens more ended (Cursor.skipWhite_newLine hq hnext) (by dsimp only; omega) hkey]
  have hlater : (ended || (q.line + 1 != q.line)) = true := by simp
  rw [hlater]

/-- Within the reach of a possible key it is kept. -/
theorem ready_of_near (p : Cursor) (tokens : List Token) {q : Cursor} (more : List Token)
    (hq : stops isSkipped q.rest = true) (hline : p.line = q.line)
    (hindex : q.index - p.index ≤ PossibleKey.reach)
    (hindents : indents.head?.all (· ≤ q.column) = true) :
    ((fresh q more indents false).noting (keyAt p tokens indents true)).ready
      = .ok ((fresh q more indents false).noting (keyAt p tokens indents true)) := by
  have hskip : ((fresh q more indents false).noting (keyAt p tokens indents true)).skipWhite
      = (fresh q more indents false).noting (keyAt p tokens indents true) := by
    simp [skipWhite, fresh, noting, Cursor.skipWhite_of_stops hq]
  have hdrop : ((fresh q more indents false).noting (keyAt p tokens indents true)).dropStale
      = .ok ((fresh q more indents false).noting (keyAt p tokens indents true)) := by
    refine dropStale_of_near fun k hk => ?_
    simp only [fresh, noting, List.mem_singleton] at hk
    exact hk ▸ filter_keyAt hline hindex
  have hunwind : ((fresh q more indents false).noting (keyAt p tokens indents true)).unwind q.column
      = (fresh q more indents false).noting (keyAt p tokens indents true) :=
    congrArg (noting · (keyAt p tokens indents true)) (unwind_of_le hindents)
  rw [ready, hskip, hdrop]
  exact congrArg Except.ok hunwind

end Fresh

/-! ## Scalars -/

theorem startsPlain_of_lead {c : Char} {rest : Text} (hlead : leadingIndicators.contains c = false)
    (hmark : (c == '?' || c == ':' || c == '-') = true → atWhite rest = false)
    (hwhite : isWhite c = false) : startsPlain false c rest = true := by
  have hall : ("-?:,[]\x7b\x7d#&*!|>'\"%@`".toList).all
      (fun d => d == '?' || d == ':' || d == '-' || leadingIndicators.contains d) = true := by decide
  by_cases hc : (c == '?' || c == ':' || c == '-') = true
  · have hc' : (c == '-' || (c == '?' || c == ':')) = true := by
      rw [Bool.or_comm]
      exact hc
    simp only [startsPlain, hmark hc, Bool.not_false, Bool.true_and, hc', Bool.or_true]
  · have hnone : ("-?:,[]\x7b\x7d#&*!|>'\"%@`".toList).contains c = false := by
      rw [← Bool.not_eq_true, List.contains_iff_mem]
      intro hm
      have := List.all_eq_true.1 hall c hm
      rw [hlead, Bool.or_false] at this
      exact hc this
    simp only [startsPlain, hwhite, hnone, Bool.or_self, Bool.not_false, Bool.true_or]

/-- A character that is no mark begins a scalar without quotes (`Lexer.plain`). -/
theorem token_plain {s : Lexer} {c : Char} {rest : Text} (hflow : s.inFlow = false)
    (hmarker : s.place.atMarker = false) (hlead : leadingIndicators.contains c = false)
    (hmark : (c == '?' || c == ':' || c == '-') = true → atWhite rest = false)
    (hwhite : isWhite c = false) : s.token c rest = s.plain := by
  simp only [Cursor.atMarker, Bool.or_eq_false_iff] at hmarker
  have hne : ∀ d : Char, leadingIndicators.contains d = true → (c == d) = false := by
    intro d hd
    refine beq_false_of_ne fun he => ?_
    rw [he, hd] at hlead
    exact absurd hlead (by decide)
  have hend : ∀ d : Char, (d == '?' || d == ':' || d == '-') = true → (c == d && atWhite rest) = false := by
    intro d hd
    by_cases he : c = d
    · rw [hmark (he ▸ hd), Bool.and_false]
    · rw [beq_false_of_ne he, Bool.false_and]
  simp only [token, hmarker.1, hmarker.2, hflow, Bool.false_or, startsPlain_of_lead hlead hmark hwhite,
    hne '[' (by decide), hne '\x7b' (by decide), hne ']' (by decide), hne '\x7d' (by decide),
    hne ',' (by decide), hne '|' (by decide), hne '>' (by decide), hne '\'' (by decide), hne '"' (by decide),
    hend '-' (by decide), hend '?' (by decide), hend ':' (by decide), Bool.false_and, if_true]
  simp

theorem plain_eq {s noted : Lexer} {l : Lexeme} {broken : Bool} (hnote : s.noteKey = .ok noted)
    (hread : plainFrom noted.inFlow noted.least noted.place.rest.length noted.place = (l, broken)) :
    s.plain = .ok ({ noted with place := l.next, mayBegin := broken }.emit (.plain l.text)) := by
  simp only [plain, hnote, bind, Except.bind, hread]
  rfl

/-- The quotes of a style. -/
def quoteOf (double : Bool) : Char := if double then '"' else '\''

/-- The reader of what stands in the quotes of a style. -/
def readerOf (double : Bool) : Nat → Cursor → Except Fault Lexeme := if double then doubleFrom else singleFrom

theorem quoted_eq {s noted : Lexer} {double : Bool} {l : Lexeme} (hnote : s.noteKey = .ok noted)
    (hread : readerOf double noted.place.rest.length noted.place.next = .ok l) :
    s.quoted double = .ok ({ noted with place := l.next, mayBegin := false }.emit (.literal l.text)) := by
  cases double with
  | false =>
    have hsingle : singleFrom noted.place.rest.length noted.place.next = .ok l := hread
    simp only [quoted, hnote, bind, Except.bind, hsingle]
    rfl
  | true =>
    have hdouble : doubleFrom noted.place.rest.length noted.place.next = .ok l := hread
    simp only [quoted, hnote, bind, Except.bind, hdouble]
    rfl

theorem advance_cons {s : Lexer} {c : Char} {rest : Text} (h : s.place.rest = c :: rest) :
    s.advance = s.token c rest := by
  rw [advance, h]

/-- A scalar that `plainFrom` reads becomes a token, and its place that of a possible key. -/
theorem advance_plain {p q : Cursor} {tokens : List Token} {indents : List Nat} {mayBegin broken : Bool}
    {c : Char} {rest t : Text} (hp : p.rest = c :: rest) (hmarker : p.atMarker = false)
    (hlead : leadingIndicators.contains c = false)
    (hmark : (c == '?' || c == ':' || c == '-') = true → atWhite rest = false)
    (hwhite : isWhite c = false)
    (hread : plainFrom false (fresh p tokens indents mayBegin).least p.rest.length p = (⟨t, q⟩, broken)) :
    (fresh p tokens indents mayBegin).advance
      = .ok ((fresh q (.plain t :: tokens) indents broken).noting (keyAt p tokens indents mayBegin)) := by
  rw [advance_cons hp, token_plain rfl hmarker hlead hmark hwhite, plain_eq noteKey_fresh hread]
  rfl

/-- A scalar in quotes that `readerOf` reads becomes a token, and its place that of a possible
    key. -/
theorem advance_quoted {p q : Cursor} {tokens : List Token} {indents : List Nat} {mayBegin double : Bool}
    {rest t : Text} (hp : p.rest = quoteOf double :: rest)
    (hread : readerOf double p.rest.length p.next = .ok ⟨t, q⟩) :
    (fresh p tokens indents mayBegin).advance
      = .ok ((fresh q (.literal t :: tokens) indents false).noting (keyAt p tokens indents mayBegin)) := by
  have hmarker : p.atMarker = false := by
    cases double <;> exact Cursor.atMarker_of_head hp (by decide) (by decide)
  simp only [Cursor.atMarker, Bool.or_eq_false_iff] at hmarker
  have htoken : (fresh p tokens indents mayBegin).token (quoteOf double) rest
      = (fresh p tokens indents mayBegin).quoted double := by
    cases double <;> simp [token, fresh, hmarker, quoteOf]
  rw [advance_cons hp, htoken, quoted_eq noteKey_fresh hread]
  rfl

section Values

variable {p : Cursor} {tokens : List Token} {i : Nat} {indents : List Nat} {mayBegin : Bool}
  {margin : Nat} {next : Text}

/-- A scalar without quotes arrives at the end of its line, as `fold` has written it. -/
theorem arrives_plain {t : Text} (ht : Unquoted t) {indent column : Nat} {before : Before}
    (hp : p.rest = fold indent (fun c => [c]) column before t ++ (newLine margin ++ next))
    (hcolumn : i < p.column) (hindent : i < indent) (hmargin : margin ≤ i)
    (hnext : stops isSkipped next = true) :
    Arrives (fresh p tokens (i :: indents) mayBegin) (.plain t :: tokens) (i :: indents) margin next := by
  have hstops : stops (fun d => d == ' ' || isBreak d) next = true := by
    cases next <;> simp_all [isSkipped]
  obtain ⟨q, hread, hq, hqcolumn, hline⟩ := plainFrom_fold (i + 1) ⟨hindent, by omega⟩
    (.inl (by omega)) hstops ht.flows ht.ne_nil ht.visible hp ⟨hcolumn, by omega⟩ (Nat.le_refl _)
  obtain ⟨c, cs, rfl, hblank, hfeed, hwhite, hlead, hmark⟩ := ht.eq_cons
  rw [fold_cons cs hblank hfeed] at hp
  have hmarker : p.atMarker = false := Cursor.atMarker_eq_false (by omega)
  have hcs := (flows_cons_iff.1 ht.flows).2.2.2.2
  have hskip : q.skipWhite = q := Cursor.skipWhite_of_stops (by rw [hq]; exact hnext)
  have hkey : mayBegin = true → (i :: indents).head? ≠ some p.column := fun _ => by simp; omega
  have hready := ready_of_later p tokens (.plain (c :: cs) :: tokens) true hskip (Nat.ne_of_lt hline) hkey
  rw [hqcolumn] at hready
  have hmark' := fun h => atWhite_fold indent (column + 1) hcs (hmark h) (newLine margin ++ next)
  refine ⟨q, hq, hqcolumn, .next ⟨_, advance_plain hp hmarker hlead hmark' hwhite hread, hready,
    by simp [fresh, noting], ?_⟩ (.refl _)⟩
  show q.rest.length < p.rest.length
  rw [hq, hp]
  simp [newLine]
  omega

/-- A scalar in quotes arrives at the end of its line, if it is read back (`ReadsQuoted`). -/
theorem arrives_quoted {t written : Text} (double : Bool)
    (h : ReadsQuoted (readerOf double) (quoteOf double) (newLine margin ++ next) t written)
    (hp : p.rest = quoteOf double :: written ++ quoteOf double :: (newLine margin ++ next))
    (hkey : mayBegin = true → indents.head? ≠ some p.column) (hnext : stops isSkipped next = true) :
    Arrives (fresh p tokens indents mayBegin) (.literal t :: tokens) indents margin next := by
  have hp' : p.rest = quoteOf double :: (written ++ quoteOf double :: (newLine margin ++ next)) := hp
  have hlength : p.next.rest.length < p.rest.length := by
    rw [Cursor.rest_next hp', hp', List.length_cons]
    omega
  obtain ⟨q, hread, hq, hline⟩ := h p.rest.length p.next (Cursor.rest_next hp') hlength
  obtain ⟨r, hr, hrcolumn, hready⟩ := ready_newLine p tokens (.literal t :: tokens) false hq hnext
    (Nat.le_trans p.line_le_next hline) hkey
  refine ⟨r, hr, hrcolumn, .next ⟨_, advance_quoted hp' hread, hready, by simp [fresh, noting], ?_⟩ (.refl _)⟩
  show q.rest.length < p.rest.length
  rw [hq, hp']
  simp
  omega

/-- The bracket that opens a mapping or a list, with its token. -/
def opening (mapping : Bool) : Char × Token := if mapping then ('\x7b', .mappingOpen) else ('[', .listOpen)

/-- The bracket that closes a mapping or a list, with its token. -/
def closing (mapping : Bool) : Char × Token := if mapping then ('\x7d', .mappingClose) else (']', .listClose)

/-- The state inside a bracket, after a possible key. -/
def bracketed (p : Cursor) (tokens : List Token) (indents : List Nat) (k : Option PossibleKey) : Lexer :=
  { place := p, tokens, indents, outer := [k] }

theorem ready_bracketed (p : Cursor) (tokens : List Token) (indents : List Nat) (mayBegin : Bool) {q : Cursor}
    (more : List Token) (hq : stops isSkipped q.rest = true) (hline : p.line = q.line)
    (hindex : q.index - p.index ≤ PossibleKey.reach) :
    (bracketed q more indents (keyAt p tokens indents mayBegin)).ready
      = .ok (bracketed q more indents (keyAt p tokens indents mayBegin)) := by
  have hskip : (bracketed q more indents (keyAt p tokens indents mayBegin)).skipWhite
      = bracketed q more indents (keyAt p tokens indents mayBegin) := by
    simp [skipWhite, bracketed, Cursor.skipWhite_of_stops hq]
  have hdrop : (bracketed q more indents (keyAt p tokens indents mayBegin)).dropStale
      = .ok (bracketed q more indents (keyAt p tokens indents mayBegin)) := by
    refine dropStale_of_near fun k hk => ?_
    simp only [bracketed, List.mem_cons, List.not_mem_nil, or_false] at hk
    obtain rfl | rfl := hk
    · rfl
    · exact filter_keyAt hline hindex
  rw [ready, hskip, hdrop]
  rfl

theorem advance_open {mapping : Bool} {s : Text} (hp : p.rest = (opening mapping).1 :: s) :
    (fresh p tokens indents mayBegin).advance
      = .ok (bracketed p.next ((opening mapping).2 :: tokens) indents (keyAt p tokens indents mayBegin)) := by
  have hmarker : p.atMarker = false := by
    cases mapping <;> exact Cursor.atMarker_of_head hp (by decide) (by decide)
  simp only [Cursor.atMarker, Bool.or_eq_false_iff] at hmarker
  have htoken : (fresh p tokens indents mayBegin).token (opening mapping).1 s
      = (fresh p tokens indents mayBegin).openBracket (opening mapping).2 := by
    cases mapping <;> simp [token, fresh, hmarker, opening]
  rw [advance_cons hp, htoken, openBracket, noteKey_fresh]
  rfl

theorem advance_close {mapping : Bool} {s : Text} {k : Option PossibleKey}
    (hp : p.rest = (closing mapping).1 :: s) :
    (bracketed p tokens indents k).advance
      = .ok ((fresh p.next ((closing mapping).2 :: tokens) indents false).noting k) := by
  have hmarker : p.atMarker = false := by
    cases mapping <;> exact Cursor.atMarker_of_head hp (by decide) (by decide)
  simp only [Cursor.atMarker, Bool.or_eq_false_iff] at hmarker
  have htoken : (bracketed p tokens indents k).token (closing mapping).1 s
      = (bracketed p tokens indents k).closeBracket (closing mapping).2 := by
    cases mapping <;> simp [token, bracketed, hmarker, closing]
  rw [advance_cons hp, htoken]
  rfl

/-- A list or mapping without entries, up to the end of its line. -/
theorem arrives_brackets (mapping : Bool)
    (hp : p.rest = (opening mapping).1 :: (closing mapping).1 :: (newLine margin ++ next))
    (hkey : mayBegin = true → indents.head? ≠ some p.column) (hnext : stops isSkipped next = true) :
    Arrives (fresh p tokens indents mayBegin) ((closing mapping).2 :: (opening mapping).2 :: tokens) indents
      margin next := by
  have hpnext := Cursor.next_inline hp (by cases mapping <;> rfl)
  have hrest : p.next.rest = (closing mapping).1 :: (newLine margin ++ next) := Cursor.rest_next hp
  have hinside := ready_bracketed p tokens indents mayBegin (q := p.next)
    ((opening mapping).2 :: tokens) (by rw [hrest]; cases mapping <;> rfl) (by rw [hpnext])
    (by rw [hpnext]; simp [PossibleKey.reach])
  obtain ⟨r, hr, hrcolumn, hready⟩ := ready_newLine p tokens
    ((closing mapping).2 :: (opening mapping).2 :: tokens) false (Cursor.rest_next hrest) hnext
    (Nat.le_trans p.line_le_next p.next.line_le_next) hkey
  refine ⟨r, hr, hrcolumn, .next ⟨_, advance_open hp, hinside, ?_, ?_⟩
    (.next ⟨_, advance_close hrest, hready, ?_, ?_⟩ (.refl _))⟩
  · cases mapping <;> simp [bracketed, opening]
  · show p.next.rest.length < p.rest.length
    rw [hrest, hp]
    simp
  · cases mapping <;> simp [fresh, noting, closing]
  · show p.next.next.rest.length < p.next.rest.length
    rw [Cursor.rest_next hrest, hrest]
    simp

end Values

/-! ## Dashes and keys -/

/-- The tokens and indentations after a list or mapping in block style begins at a column, unless it
    is there already. -/
def opened (t : Token) (column : Nat) (tokens : List Token) (indents : List Nat) : List Token × List Nat :=
  if indents.head?.all (· < column) then (t :: tokens, column :: indents) else (tokens, indents)

section Marks

variable {p : Cursor} {tokens : List Token} {indents : List Nat} {s : Text}

theorem head?_opened (t : Token) (tokens : List Token) {column : Nat}
    (h : indents.head?.all (· ≤ column) = true) :
    (opened t column tokens indents).2.head? = some column := by
  rw [opened]
  split
  · rfl
  · rename_i hlt
    cases indents with
    | nil => exact absurd rfl hlt
    | cons i is =>
      simp only [List.head?_cons, Option.all_some, decide_eq_true_eq] at h hlt ⊢
      exact congrArg some (by omega)

theorem insert_fresh (front : List Token) (t : Token) (mayBegin : Bool) :
    (fresh p (front ++ tokens) indents mayBegin).insert tokens.length t
      = fresh p (front ++ t :: tokens) indents mayBegin := by
  have hinsert : ∀ ts : List Token, (ts ++ tokens).insertIdx ts.length t = ts ++ t :: tokens := by
    intro ts
    induction ts with
    | nil => rfl
    | cons u us ih => exact congrArg (u :: ·) ih
  simp [insert, fresh, hinsert]

theorem indent_fresh (front : List Token) (t : Token) (column : Nat) (mayBegin : Bool) :
    (fresh p (front ++ tokens) indents mayBegin).indent column tokens.length t
      = fresh p (front ++ (opened t column tokens indents).1)
        (opened t column tokens indents).2 mayBegin := by
  rw [indent, opened]
  by_cases h : indents.head?.all (· < column) = true
  · have hdeeper : (!(fresh p (front ++ tokens) indents mayBegin).inFlow
        && (fresh p (front ++ tokens) indents mayBegin).isDeeper column) = true := by
      simpa [isDeeper, fresh, inFlow] using h
    rw [if_pos hdeeper, if_pos h]
    exact insert_fresh front t mayBegin
  · have hdeeper : ¬ (!(fresh p (front ++ tokens) indents mayBegin).inFlow
        && (fresh p (front ++ tokens) indents mayBegin).isDeeper column) = true := by
      simpa [isDeeper, fresh, inFlow] using h
    rw [if_neg hdeeper, if_neg h]

/-- A dash, which begins a list if there is none at its column (`opened`). -/
theorem next_dash (tokens : List Token) (hp : p.rest = '-' :: ' ' :: s) (hs : stops isSkipped s = true)
    (hindents : indents.head?.all (· ≤ p.column) = true) :
    ∃ q : Cursor, q.rest = s ∧ q.column = p.column + 2 ∧
      Next (fresh p tokens indents true)
        (fresh q (.dash :: (opened .blockList p.column tokens indents).1)
          (opened .blockList p.column tokens indents).2 true) := by
  have hnext := Cursor.next_inline hp (by decide)
  have hrest : p.next.rest = ' ' :: s := Cursor.rest_next hp
  have hnext₂ := Cursor.next_inline hrest (by decide)
  have hmarker : p.atMarker = false :=
    Cursor.atMarker_of_word (w := ['-']) hp (by decide) (by decide) (by decide) (by decide)
  simp only [Cursor.atMarker, Bool.or_eq_false_iff] at hmarker
  have hadvance : (fresh p tokens indents true).advance
      = .ok (fresh p.next (.dash :: (opened .blockList p.column tokens indents).1)
          (opened .blockList p.column tokens indents).2 true) := by
    have htoken : (fresh p tokens indents true).token '-' (' ' :: s)
        = (fresh p tokens indents true).dash := by
      simp [token, fresh, hmarker, atWhite, isWhite, isSpace]
    have hindent : (fresh p tokens indents true).indent p.column tokens.length .blockList
        = fresh p (opened .blockList p.column tokens indents).1 (opened .blockList p.column tokens indents).2
          true := indent_fresh [] .blockList p.column true
    rw [advance_cons hp, htoken]
    show ((fresh p tokens indents true).indent p.column tokens.length .blockList).dropKey >>= _ = _
    rw [hindent]
    rfl
  refine ⟨p.next.next, Cursor.rest_next hrest, by rw [hnext₂, hnext], _, hadvance, ?_,
    by simp [fresh], ?_⟩
  · rw [ready_fresh (Cursor.skipWhite_blank hrest hs), unwind_of_le]
    · rfl
    · rw [head?_opened _ _ hindents, hnext₂, hnext]
      simp
      omega
  · show p.next.rest.length < p.rest.length
    rw [hrest, hp]
    simp

theorem isInline_of_flows {t : Text} (h : flows t = true) : ∀ c ∈ t, Cursor.isInline c = true := fun c hc =>
  isInline_of_not_special (chars_of_flows h c hc).1 (chars_of_flows h c hc).2

theorem plainFrom_key {k : Text} (hflows : flows k = true) (hsolid : ' ' ∉ k) (hp : p.rest = k ++ ':' :: s)
    (hs : atWhite s = true) (least : Nat) :
    plainFrom false least p.rest.length p = (⟨k, p.move k.length⟩, false) := by
  have hlength : p.rest.length = (k.length + s.length) + 1 := by
    rw [hp, List.length_append, List.length_cons]
    omega
  have hword : plainWord false p.rest = k := by rw [hp, plainWord_append hflows hsolid hs]
  have hgap : plainGap (p.move k.length) = ([], p.move k.length) :=
    plainGap_blanks (k := 0) (Cursor.rest_move hp) (by decide) (by decide)
  have hline : (p.move k.length).line = p.line := by rw [Cursor.move_inline hp (isInline_of_flows hflows)]
  rw [hlength, plainFrom_succ]
  simp only [hword, hgap, hline]
  simp

theorem advance_key {k : Text} (hk : IsKey k) (hp : p.rest = k ++ ':' :: s) (hs : atWhite s = true) :
    (fresh p tokens indents true).advance
      = .ok ((fresh (p.move k.length) (.plain k :: tokens) indents false).noting
        (keyAt p tokens indents true)) := by
  have hunquoted := (unquoted_of_style hk.style).1
  have hread := plainFrom_key hunquoted.flows hk.solid hp hs (fresh p tokens indents true).least
  have hmarker : p.atMarker = false := by
    have hstarts := hunquoted.starts
    simp only [startsIndicator, Bool.or_eq_false_iff] at hstarts
    exact Cursor.atMarker_of_word hp hstarts.1.1 hstarts.1.2 (by decide) (by decide)
  obtain ⟨c, cs, rfl, hblank, hfeed, hwhite, hlead, hmark⟩ := hunquoted.eq_cons
  refine advance_plain hp hmarker hlead (fun h => ?_) hwhite hread
  have hcs := (flows_cons_iff.1 hunquoted.flows).2.2.2.2
  have hfold := fold_solid 0 (fun h => hk.solid (List.mem_cons_of_mem c h)) (notMem_of_flows hcs) 0 .other
  rw [← hfold]
  exact atWhite_fold 0 0 hcs (hmark h) (':' :: s)

/-- A colon makes a key of the scalar before it: `keyAt` is in reach. -/
theorem advance_colon {q : Cursor} {k : Text} (hq : q.rest = ':' :: s) (hs : atWhite s = true) :
    ((fresh q (.plain k :: tokens) indents false).noting (keyAt p tokens indents true)).advance
      = .ok (fresh q.next (.value :: .plain k :: .key :: (opened .blockMapping p.column tokens indents).1)
        (opened .blockMapping p.column tokens indents).2 false) := by
  have hmarker : q.atMarker = false := Cursor.atMarker_of_head hq (by decide) (by decide)
  simp only [Cursor.atMarker, Bool.or_eq_false_iff] at hmarker
  have htoken :
      ((fresh q (.plain k :: tokens) indents false).noting (keyAt p tokens indents true)).token ':' s
      = ((fresh q (.plain k :: tokens) indents false).noting (keyAt p tokens indents true)).valueMark := by
    simp [token, fresh, noting, hmarker, hs]
  have hinsert : (fresh q (.plain k :: tokens) indents false).insert tokens.length .key
      = fresh q (.plain k :: .key :: tokens) indents false := insert_fresh [.plain k] .key false
  have hindent :
      (fresh q (.plain k :: .key :: tokens) indents false).indent p.column tokens.length .blockMapping
      = fresh q (.plain k :: .key :: (opened .blockMapping p.column tokens indents).1)
        (opened .blockMapping p.column tokens indents).2 false :=
    indent_fresh [.plain k, .key] .blockMapping p.column false
  rw [advance_cons hq, htoken]
  show Except.ok (((((fresh q (.plain k :: tokens) indents false).insert tokens.length .key).indent p.column
    tokens.length .blockMapping).emit .value).move 1) = _
  rw [hinsert, hindent]
  rfl

/-- A key and its colon, which begin a mapping if there is none at their column (`opened`). -/
theorem leads_key {k : Text} (hk : IsKey k) (tokens : List Token) (hp : p.rest = k ++ ':' :: s)
    (hs : atWhite s = true)
    (hindents : indents.head?.all (· ≤ p.column) = true) :
    ∃ q : Cursor, q.rest = s ∧ q.column = p.column + k.length + 1 ∧ ∀ t,
      (fresh q (.value :: .plain k :: .key :: (opened .blockMapping p.column tokens indents).1)
        (opened .blockMapping p.column tokens indents).2 false).ready = .ok t →
      Leads (fresh p tokens indents true) t := by
  have hunquoted := (unquoted_of_style hk.style).1
  have hmove := Cursor.move_inline hp (isInline_of_flows hunquoted.flows)
  have hrest := Cursor.rest_move hp
  have hnext := Cursor.next_inline hrest (by decide)
  have hright : indents.head?.all (· ≤ (p.move k.length).column) = true := by
    rw [hmove]
    cases indents with
    | nil => rfl
    | cons i is =>
      simp only [List.head?_cons, Option.all_some, decide_eq_true_eq] at hindents ⊢
      omega
  have hready := ready_of_near p tokens (.plain k :: tokens) (by rw [hrest]; rfl) (by rw [hmove])
    (by rw [hmove]; simp [hk.short]) hright
  refine ⟨(p.move k.length).next, Cursor.rest_next hrest, by rw [hnext, hmove], fun t ht => ?_⟩
  refine .next ⟨_, advance_key hk hp hs, hready, by simp [fresh, noting], ?_⟩
    (.next ⟨_, advance_colon hrest hs, ht, by simp [fresh], ?_⟩ (.refl _))
  · show (p.move k.length).rest.length < p.rest.length
    have hpos := List.length_pos_iff.2 hunquoted.ne_nil
    rw [hrest, hp, List.length_append]
    omega
  · show (p.move k.length).next.rest.length < (p.move k.length).rest.length
    rw [Cursor.rest_next hrest, hrest]
    simp

end Marks

end Lexer

end Seashell.Yaml
