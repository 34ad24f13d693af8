import Seashell.Proofs.Documents.Yaml.Lexing
import Seashell.Yaml.Reader

set_option autoImplicit false

/-! # The tokens of YAML that was written

A document that was written is split into the tokens that its value asks for. A list or mapping with
entries begins and ends by tokens of its own (`spelled`), except that a list under a key does
without them (`spelledUnder`).

`Splits` says of a value that the lexer goes over it, as an item and under a key, and arrives with
its tokens at the next line. It is proved by induction over portable values. A scalar is one of the
`arrives` lemmas of `Seashell.Proofs.Documents.Yaml.Lexing`; a list or mapping is a block of lines,
one for each item or entry (`itemLine`, `entryLine`), of which each `LineSplits` and all together
are gone over by `arrives_lines` and `arrives_block`. At last `tokens_render` goes from the start of
a text to its end. -/

namespace Seashell.Yaml

open Text Value

/-! ## Scalars -/

/-- A value that is written as a scalar, or as brackets with nothing in them: `scalar?` has a text
    for it. -/
inductive Flat : Value → Prop where
  | null : Flat .null
  | bool (b : Bool) : Flat (.bool b)
  | int (n : Int) : Flat (.int n)
  | text (t : Text) : Flat (.text t)
  | list : Flat (.list [])
  | mapping : Flat (.mapping [])

/-- The tokens of a `Flat` value. -/
def scalarTokens : Value → List Token
  | .text t => [if styleOf t = .plain then .plain t else .literal t]
  | .list _ => [.listOpen, .listClose]
  | .mapping _ => [.mappingOpen, .mappingClose]
  | v => [.plain ((scalar? 0 0 v).getD [])]

theorem hasIndicator_eq_false {t : Text} (hcolon : ':' ∉ t) (hhash : '#' ∉ t) : hasIndicator t = false := by
  induction t with
  | nil => rfl
  | cons a cs ih =>
    simp only [List.mem_cons, not_or] at hcolon hhash
    cases cs with
    | nil => rfl
    | cons b rest =>
      have hb : b ≠ ':' ∧ b ≠ '#' := by
        simp only [List.mem_cons, not_or] at hcolon hhash
        exact ⟨Ne.symm hcolon.2.1, Ne.symm hhash.2.1⟩
      simp [hasIndicator, hb, ih hcolon.2 hhash.2]

theorem mem_ofInt {n : Int} {c : Char} (h : c ∈ ofInt n) : c = '-' ∨ c.isDigit = true := by
  cases n with
  | ofNat n => exact .inr (isDigit_of_mem_ofNat h)
  | negSucc n =>
    obtain rfl | h := List.mem_cons.1 h
    · exact .inl rfl
    · exact .inr (isDigit_of_mem_ofNat h)

theorem notMem_ofInt {n : Int} {c : Char} (hhyphen : c ≠ '-') (hdigit : c.isDigit = false) : c ∉ ofInt n :=
  fun h => by simpa [hhyphen, hdigit] using mem_ofInt h

theorem startsIndicator_ofInt (n : Int) : startsIndicator (ofInt n) = false := by
  have hlead : leadingIndicators.all (!·.isDigit) = true := by decide
  have hne : ∀ {c : Char}, c.isDigit = true → ∀ d : Char, d.isDigit = false → c ≠ d ∧ d ≠ c := by
    intro c hc d hd
    constructor <;> rintro rfl <;> simp [hd] at hc
  cases n with
  | ofNat n =>
    obtain ⟨c, s, hs, hc⟩ := ofNat_eq_cons n
    have hnone : c ∉ leadingIndicators := fun hm => by simpa [hc] using List.all_eq_true.1 hlead c hm
    simp [ofInt, hs, startsIndicator, Text.startsWith, List.isPrefixOf, hnone, hne hc]
  | negSucc n =>
    obtain ⟨c, s, hs, hc⟩ := ofNat_eq_cons (n + 1)
    have hnone : '-' ∉ leadingIndicators := by decide
    simp [ofInt, hs, startsIndicator, Text.startsWith, List.isPrefixOf, hnone, endsToken, hne hc]

theorem unquoted_ofInt (n : Int) : Unquoted (ofInt n) := by
  have hspecial : ∀ c ∈ ofInt n, isSpecial c = false := by
    intro c hc
    obtain rfl | hdigit := mem_ofInt hc
    · decide
    · simp only [Char.isDigit, Bool.and_eq_true, decide_eq_true_eq, UInt32.le_iff_toNat_le] at hdigit
      have hlow : 0x20 ≤ c.toNat := Nat.le_trans (by decide) hdigit.1
      have hhigh : c.toNat ≤ 0x7E := Nat.le_trans hdigit.2 (by decide)
      simp [isSpecial, hlow, hhigh]
  have houter : hasOuterSpace (ofInt n) = false := by
    have hsolid : ∀ c ∈ ofInt n, isSpaceOrBreak c = false := by
      intro c hc
      refine Bool.eq_false_iff.2 fun hspace => ?_
      obtain rfl | rfl : c = ' ' ∨ c = '\n' := by simpa [isSpaceOrBreak] using hspace
      · exact notMem_ofInt (by decide) (by decide) hc
      · exact notMem_ofInt (by decide) (by decide) hc
    rw [hasOuterSpace, Bool.or_eq_false_iff, Option.any_eq_false, Option.any_eq_false]
    exact ⟨fun c hc => hsolid c (List.mem_of_mem_head? hc), fun c hc => hsolid c (List.mem_of_getLast? hc)⟩
  exact unquoted_of_indicators hspecial (notMem_ofInt (by decide) (by decide)) houter
    (startsIndicator_ofInt n)
    (hasIndicator_eq_false (notMem_ofInt (by decide) (by decide)) (notMem_ofInt (by decide) (by decide)))

theorem Unquoted.stops_fold {t : Text} (ht : Unquoted t) (indent column : Nat) (before : Before)
    (tail : Text) :
    stops isSkipped (fold indent (fun c => [c]) column before t ++ tail) = true := by
  obtain ⟨c, cs, rfl, hblank, hfeed, hwhite, hlead, _⟩ := ht.eq_cons
  have hhash : c ≠ '#' := by
    rintro rfl
    exact absurd hlead (by decide)
  simp only [isWhite, Bool.or_eq_false_iff] at hwhite
  rw [fold_cons cs hblank hfeed]
  simp [isSkipped, hblank, hwhite, hhash]

theorem Unquoted.stops_solid {t : Text} (ht : Unquoted t) (hsolid : ' ' ∉ t) (tail : Text) :
    stops isSkipped (t ++ tail) = true := by
  have h := ht.stops_fold 0 0 .start tail
  rwa [fold_solid 0 hsolid (notMem_of_flows ht.flows)] at h

theorem Flat.stops_scalar {v : Value} (hv : Flat v) (indent column : Nat) (tail : Text) :
    stops isSkipped ((scalar? indent column v).getD [] ++ tail) = true := by
  cases hv with
  | null => rfl
  | bool b => cases b <;> rfl
  | int n => exact (unquoted_ofInt n).stops_solid (notMem_ofInt (by decide) (by decide)) tail
  | list => rfl
  | mapping => rfl
  | text t =>
    show stops isSkipped (textScalar indent column t ++ tail) = true
    cases hstyle : styleOf t with
    | plain =>
      rw [textScalar, hstyle]
      exact (unquoted_of_style hstyle).1.stops_fold indent column .start tail
    | single => rw [textScalar, hstyle]; rfl
    | double => rw [textScalar, hstyle]; rfl

section Lines

open Lexer

variable {p : Cursor} {tokens : List Token} {i : Nat} {indents : List Nat} {mayBegin : Bool}
  {indent column margin : Nat} {next : Text}

theorem arrives_word {w : Text} (hw : Unquoted w) (hsolid : ' ' ∉ w)
    (hp : p.rest = w ++ (newLine margin ++ next))
    (hcolumn : i < p.column) (hmargin : margin ≤ i) (hnext : stops isSkipped next = true) :
    Arrives (fresh p tokens (i :: indents) mayBegin) (.plain w :: tokens) (i :: indents) margin next := by
  rw [← fold_solid (i + 1) hsolid (notMem_of_flows hw.flows) 0 .start] at hp
  exact arrives_plain hw hp hcolumn (Nat.lt_succ_self i) hmargin hnext

theorem arrives_text {t : Text} (hp : p.rest = textScalar indent column t ++ (newLine margin ++ next))
    (hcolumn : i < p.column) (hindent : i < indent) (hwidth : indent < bestWidth) (hmargin : margin ≤ i)
    (hnext : stops isSkipped next = true) :
    Arrives (fresh p tokens (i :: indents) mayBegin) ((scalarTokens (.text t)).reverse ++ tokens)
      (i :: indents)
      margin next := by
  have hkey : mayBegin = true → (i :: indents).head? ≠ some p.column := fun _ => by simp; omega
  cases hstyle : styleOf t with
  | plain =>
    rw [textScalar, hstyle] at hp
    rw [scalarTokens, hstyle]
    exact arrives_plain (unquoted_of_style hstyle).1 hp hcolumn hindent hmargin hnext
  | single =>
    have hread : ReadsQuoted singleFrom '\'' (newLine margin ++ next) t
        (fold indent doubled (column + 1) .start t) :=
      readsSingle_fold (Nat.zero_lt_of_lt hindent) (by simp [newLine])
        (quotable_of_style (by rw [hstyle]; decide))
        (column + 1) fun _ => by decide
    rw [textScalar, hstyle] at hp
    rw [scalarTokens, hstyle]
    exact arrives_quoted false hread (hp.trans (by simp [quoteOf]; rfl)) hkey hnext
  | double =>
    have hread := readsDouble_fold (Nat.zero_lt_of_lt hindent) hwidth (newLine margin ++ next) t
      (column + 1) true true
    rw [textScalar, hstyle] at hp
    rw [scalarTokens, hstyle]
    exact arrives_quoted true hread (hp.trans (by simp [quoteOf])) hkey hnext

theorem arrives_scalar {v : Value} (hv : Flat v)
    (hp : p.rest = (scalar? indent column v).getD [] ++ (newLine margin ++ next))
    (hcolumn : i < p.column) (hindent : i < indent) (hwidth : indent < bestWidth) (hmargin : margin ≤ i)
    (hnext : stops isSkipped next = true) :
    Arrives (fresh p tokens (i :: indents) mayBegin) ((scalarTokens v).reverse ++ tokens) (i :: indents)
      margin next := by
  have hkey : mayBegin = true → (i :: indents).head? ≠ some p.column := fun _ => by simp; omega
  cases hv with
  | null => exact arrives_word ⟨by decide, by decide, by decide⟩ (by decide) hp hcolumn hmargin hnext
  | bool b =>
    cases b with
    | false => exact arrives_word ⟨by decide, by decide, by decide⟩ (by decide) hp hcolumn hmargin hnext
    | true => exact arrives_word ⟨by decide, by decide, by decide⟩ (by decide) hp hcolumn hmargin hnext
  | int n =>
    exact arrives_word (unquoted_ofInt n) (notMem_ofInt (by decide) (by decide)) hp hcolumn hmargin hnext
  | text t => exact arrives_text hp hcolumn hindent hwidth hmargin hnext
  | list => exact arrives_brackets false hp hkey hnext
  | mapping => exact arrives_brackets true hp hkey hnext

end Lines

/-! ## Lists and mappings -/

mutual

/-- The tokens of a value as an item or a document, as `itemValue` writes it. -/
def spelled : Value → List Token
  | .list (v :: vs) => .blockList :: (spelledItems (v :: vs) ++ [.blockEnd])
  | .mapping (e :: es) => .blockMapping :: (spelledEntries (e :: es) ++ [.blockEnd])
  | v => scalarTokens v

/-- The tokens of a value under a key, as `entryValue` writes it. -/
def spelledUnder : Value → List Token
  | .list (v :: vs) => spelledItems (v :: vs)
  | .mapping (e :: es) => .blockMapping :: (spelledEntries (e :: es) ++ [.blockEnd])
  | v => scalarTokens v

/-- The tokens of the items of a list, each with its dash and as `spelled`. -/
def spelledItems : List Value → List Token
  | [] => []
  | v :: vs => .dash :: (spelled v ++ spelledItems vs)

/-- The tokens of the entries of a mapping, each with its key and as `spelledUnder`. -/
def spelledEntries : List (Value × Value) → List Token
  | [] => []
  | (k, v) :: es => .key :: (scalarTokens k ++ .value :: (spelledUnder v ++ spelledEntries es))

end

open Lexer

section Lines

variable {indent margin : Nat} {p : Cursor} {tokens : List Token} {indents : List Nat} {next : Text}

theorem opened_of_head {t : Token} (h : indents.head? = some indent) :
    opened t indent tokens indents = (tokens, indents) := by
  simp [opened, h]

/-- An item or entry `line` at an indentation is split into the tokens of its `spelling`. The first
    one begins its list or mapping by the token `t`. -/
structure LineSplits (t : Token) (indent : Nat) (line : Text) (spelling : List Token) : Prop where
  starts : line ≠ [] ∧ stops isSkipped line = true
  arrives : ∀ {margin : Nat} {p : Cursor} (tokens : List Token) {indents : List Nat} {next : Text},
    p.rest = line ++ (newLine margin ++ next) → p.column = indent → indents.head?.all (· ≤ indent) = true →
    margin ≤ indent → stops isSkipped next = true →
    Arrives (fresh p tokens indents true) (spelling.reverse ++ (opened t indent tokens indents).1)
      (opened t indent tokens indents).2 margin next

/-- Items or entries, each on a line of its own, arrive at what follows them, if each line does
    (`LineSplits`). -/
theorem arrives_lines {α : Type} {t : Token} {line : α → Text} {spelling : α → List Token} {a : α}
    {as : List α}
    (h : ∀ x ∈ a :: as, LineSplits t indent (line x) (spelling x)) (tokens : List Token) (indents : List Nat)
    (hp : p.rest = join (newLine indent) ((a :: as).map line) ++ (newLine margin ++ next))
    (hcolumn : p.column = indent) (hindents : indents.head?.all (· ≤ indent) = true)
    (hmargin : margin ≤ indent)
    (hnext : stops isSkipped next = true) :
    Arrives (fresh p tokens indents true)
      (((a :: as).flatMap spelling).reverse ++ (opened t indent tokens indents).1)
      (opened t indent tokens indents).2 margin next := by
  have ha := h a List.mem_cons_self
  induction as generalizing a p tokens indents with
  | nil =>
    have hp' : p.rest = line a ++ (newLine margin ++ next) := by simpa [join] using hp
    simpa using ha.arrives tokens hp' hcolumn hindents hmargin hnext
  | cons b bs ih =>
    have hb := h b (by simp)
    have hmore : stops isSkipped (join (newLine indent) ((b :: bs).map line) ++ (newLine margin ++ next))
      = true :=
      stops_join (bs.map line) _ hb.starts.1 hb.starts.2
    have hp' : p.rest = line a ++ (newLine indent
        ++ (join (newLine indent) ((b :: bs).map line) ++ (newLine margin ++ next))) := by
      rw [hp, List.map_cons, List.map_cons, join_cons_cons]
      simp
    have hhead := head?_opened t tokens hindents
    have hinside : (opened t indent tokens indents).2.head?.all (· ≤ indent) = true := by rw [hhead]; simp
    obtain ⟨q, hq, hqcolumn, hleads⟩ := ha.arrives tokens hp' hcolumn hindents (Nat.le_refl _) hmore
    -- the next line stands at the column of this one, so nothing ends before it
    rw [unwind_of_le hinside] at hleads
    have hlater := ih (fun x hx => h x (List.mem_cons_of_mem a hx))
      ((spelling a).reverse ++ (opened t indent tokens indents).1) _ hq hqcolumn hinside hb
    rw [opened_of_head hhead] at hlater
    refine .of_leads hleads ?_
    simpa using hlater

/-- A list or mapping to the right of the one around it arrives at what follows it, from its first
    line to its `Token.blockEnd`. -/
theorem arrives_block {α : Type} {t : Token} {line : α → Text} {spelling : α → List Token} {a : α}
    {as : List α}
    (h : ∀ x ∈ a :: as, LineSplits t indent (line x) (spelling x)) {i : Nat}
    (hp : p.rest = join (newLine indent) ((a :: as).map line) ++ (newLine margin ++ next))
    (hcolumn : p.column = indent) (hi : i < indent) (hmargin : margin ≤ i)
    (hnext : stops isSkipped next = true) :
    Arrives (fresh p tokens (i :: indents) true)
      ((t :: ((a :: as).flatMap spelling ++ [.blockEnd])).reverse ++ tokens) (i :: indents) margin next := by
  have hopened : opened t indent tokens (i :: indents) = (t :: tokens, indent :: i :: indents) := by
    simp [opened, hi]
  have hlines := arrives_lines h tokens (i :: indents) hp hcolumn (by simp; omega) (by omega) hnext
  rw [hopened] at hlines
  have hclosed := hlines.close (by omega)
  simpa using hclosed

end Lines

/-- The value `v` is split into its tokens, as an item and under a key. Lines that are broken have
    to be indented by less than the width of a line. -/
structure Splits (levels : Nat) (v : Value) : Prop where
  starts : ∀ (indent : Nat) (tail : Text), stops isSkipped (itemValue indent v ++ tail) = true
  item : ∀ {indent i margin : Nat} {p : Cursor} {tokens : List Token} {indents : List Nat} {next : Text},
    p.rest = itemValue indent v ++ (newLine margin ++ next) → p.column = indent → i < indent → margin ≤ i →
    indent + 2 * levels < bestWidth → stops isSkipped next = true →
    Arrives (fresh p tokens (i :: indents) true) ((spelled v).reverse ++ tokens) (i :: indents) margin next
  under : ∀ {indent column margin : Nat} {p : Cursor} {tokens : List Token} {indents : List Nat}
      {next : Text},
    p.rest = entryValue indent column v ++ (newLine margin ++ next) → indent < p.column → margin ≤ indent →
    indent + 2 + 2 * levels < bestWidth → stops isSkipped next = true →
    ∃ t, (fresh p tokens (indent :: indents) false).ready = .ok t ∧
      Arrives t ((spelledUnder v).reverse ++ tokens) (indent :: indents) margin next

section Runs

variable {levels indent : Nat}

/-- An item of a list with its dash. -/
def itemLine (indent : Nat) (v : Value) : Text := '-' :: ' ' :: itemValue (indent + 2) v

/-- An entry of a mapping with its key. -/
def entryLine (indent : Nat) (e : Text × Value) : Text :=
  e.1 ++ ':' :: entryValue indent (indent + e.1.length + 1) e.2

theorem lineSplits_item {v : Value} (hv : Splits levels v) (hwidth : indent + 2 + 2 * levels < bestWidth) :
    LineSplits .blockList indent (itemLine indent v) (.dash :: spelled v) where
  starts := ⟨List.cons_ne_nil _ _, rfl⟩
  arrives := by
    intro margin p tokens indents next hp hcolumn hindents hmargin hnext
    subst hcolumn
    obtain ⟨q, hq, hqcolumn, hdash⟩ := next_dash tokens hp (hv.starts _ _) hindents
    obtain ⟨outer, houter⟩ := List.head?_eq_some_iff.1 (head?_opened .blockList tokens hindents)
    refine .of_leads (.next hdash (.refl _)) ?_
    rw [houter, List.reverse_cons, List.append_assoc]
    exact hv.item hq hqcolumn (by omega) hmargin hwidth hnext

theorem atWhite_entryValue (indent column : Nat) (v : Value) (tail : Text) :
    atWhite (entryValue indent column v ++ tail) = true := by
  unfold entryValue
  split <;> rfl

theorem stops_entryLine {e : Text × Value} (hkey : IsKey e.1) : stops isSkipped (entryLine indent e) = true :=
  (unquoted_of_style hkey.style).1.stops_solid hkey.solid _

theorem lineSplits_entry {e : Text × Value} (hkey : IsKey e.1) (he : Splits levels e.2)
    (hwidth : indent + 2 + 2 * levels < bestWidth) :
    LineSplits .blockMapping indent (entryLine indent e)
      (.key :: .plain e.1 :: .value :: spelledUnder e.2) where
  starts := ⟨by simp [entryLine], stops_entryLine hkey⟩
  arrives := by
    intro margin p tokens indents next hp hcolumn hindents hmargin hnext
    subst hcolumn
    rw [entryLine, List.append_assoc] at hp
    obtain ⟨q, hq, hqcolumn, hleads⟩ := leads_key hkey tokens hp (atWhite_entryValue _ _ _ _) hindents
    obtain ⟨outer, houter⟩ := List.head?_eq_some_iff.1 (head?_opened .blockMapping tokens hindents)
    rw [houter] at hleads ⊢
    obtain ⟨t, ht, harrives⟩ := he.under hq (by omega) hmargin hwidth hnext
    refine .of_leads (hleads t ht) ?_
    simpa using harrives

theorem blockItems_eq (vs : List Value) : blockItems indent vs = vs.map (itemLine indent) := by
  induction vs with
  | nil => rfl
  | cons v vs ih => rw [blockItems, ih]; rfl

theorem spelledItems_eq (vs : List Value) : spelledItems vs = vs.flatMap fun v => .dash :: spelled v := by
  induction vs with
  | nil => rfl
  | cons v vs ih => rw [spelledItems, ih]; rfl

theorem textScalar_key {k : Text} (hk : IsKey k) (indent column : Nat) : textScalar indent column k = k := by
  rw [textScalar, hk.style]
  exact fold_solid indent hk.solid (notMem_of_flows (unquoted_of_style hk.style).1.flows) column .start

theorem blockEntries_eq {es : List (Text × Value)} (hkeys : ∀ e ∈ es, IsKey e.1) :
    blockEntries indent (textEntries es) = es.map (entryLine indent) := by
  induction es with
  | nil => rfl
  | cons e es ih =>
    have hkey := textScalar_key (hkeys e List.mem_cons_self) indent indent
    have hrest := ih fun x hx => hkeys x (List.mem_cons_of_mem e hx)
    show (textScalar indent indent e.1 ++ ":".toList ++ entryValue indent
      (indent + (textScalar indent indent e.1).length + 1) e.2) :: blockEntries indent (textEntries es) = _
    rw [hkey, hrest]
    simp [entryLine]

theorem spelledEntries_eq {es : List (Text × Value)} (hkeys : ∀ e ∈ es, IsKey e.1) :
    spelledEntries (textEntries es)
      = es.flatMap fun e => .key :: .plain e.1 :: .value :: spelledUnder e.2 := by
  induction es with
  | nil => rfl
  | cons e es ih =>
    have hkey := (hkeys e List.mem_cons_self).style
    have hrest := ih fun x hx => hkeys x (List.mem_cons_of_mem e hx)
    show .key :: (scalarTokens (.text e.1)
      ++ .value :: (spelledUnder e.2 ++ spelledEntries (textEntries es))) = _
    rw [hrest]
    simp [scalarTokens, hkey]

theorem Flat.itemValue_eq {v : Value} (hv : Flat v) (indent : Nat) :
    itemValue indent v = (scalar? indent indent v).getD [] := by
  cases hv <;> rfl

theorem Flat.entryValue_eq {v : Value} (hv : Flat v) (indent column : Nat) :
    entryValue indent column v = ' ' :: (scalar? (indent + 2) (column + 1) v).getD [] := by
  cases hv <;> rfl

theorem Flat.spelled_eq {v : Value} (hv : Flat v) :
    spelled v = scalarTokens v ∧ spelledUnder v = scalarTokens v := by
  cases hv <;> exact ⟨rfl, rfl⟩

theorem splits_flat {v : Value} (hv : Flat v) : Splits levels v where
  starts indent tail := by
    rw [hv.itemValue_eq]
    exact hv.stops_scalar indent indent tail
  item := by
    intro indent i margin p tokens indents next hp hcolumn hi hmargin hwidth hnext
    rw [hv.itemValue_eq] at hp
    rw [hv.spelled_eq.1]
    exact arrives_scalar hv hp (by omega) hi (by omega) hmargin hnext
  under := by
    intro indent column margin p tokens indents next hp hcolumn hmargin hwidth hnext
    rw [hv.entryValue_eq] at hp
    have hplace := Cursor.next_inline hp (by decide)
    have hready : (fresh p tokens (indent :: indents) false).ready
        = .ok (fresh p.next tokens (indent :: indents) false) := by
      rw [ready_fresh (Cursor.skipWhite_blank hp (hv.stops_scalar _ _ _)), unwind_of_le]
      · simp [hplace]
      · simp [hplace]
        omega
    rw [hv.spelled_eq.2]
    exact ⟨_, hready, arrives_scalar hv (Cursor.rest_next hp) (by rw [hplace]; dsimp only; omega) (by omega)
      (by omega) hmargin hnext⟩

/-- A value under a key that begins on a new line is `ready` there. -/
theorem ready_under {p : Cursor} (tokens : List Token) {i n : Nat} (indents : List Nat) {s : Text}
    (hp : p.rest = newLine n ++ s) (hs : stops isSkipped s = true) (hn : i ≤ n) :
    ∃ q : Cursor, q.rest = s ∧ q.column = n ∧
      (fresh p tokens (i :: indents) false).ready = .ok (fresh q tokens (i :: indents) true) := by
  refine ⟨⟨s, p.index + 1 + n, p.line + 1, n⟩, rfl, rfl, ?_⟩
  have hlater : (false || (p.line + 1 != p.line)) = true := by simp
  rw [ready_fresh (Cursor.skipWhite_newLine hp hs), unwind_of_le (by simpa using hn), hlater]

theorem splits_list {v : Value} {vs : List Value} (h : ∀ w ∈ v :: vs, Splits levels w) :
    Splits (levels + 1) (.list (v :: vs)) where
  starts indent tail := by
    rw [itemValue, blockItems_eq]
    exact stops_join _ _ (List.cons_ne_nil _ _) rfl
  item := by
    intro indent i margin p tokens indents next hp hcolumn hi hmargin hwidth hnext
    rw [itemValue, blockItems_eq] at hp
    rw [spelled, spelledItems_eq]
    exact arrives_block (fun w hw => lineSplits_item (h w hw) (by omega)) hp hcolumn hi hmargin hnext
  under := by
    intro indent column margin p tokens indents next hp hcolumn hmargin hwidth hnext
    rw [entryValue, blockItems_eq, List.append_assoc] at hp
    obtain ⟨q, hq, hqcolumn, hready⟩ := ready_under tokens indents hp
      (stops_join _ _ (List.cons_ne_nil _ _) rfl) (Nat.le_refl indent)
    have harrives := arrives_lines (fun w hw => lineSplits_item (h w hw) (by omega)) tokens
      (indent :: indents) hq hqcolumn (by simp) hmargin hnext
    rw [opened_of_head rfl, ← spelledItems_eq] at harrives
    exact ⟨_, hready, harrives⟩

theorem splits_mapping {e : Text × Value} {es : List (Text × Value)} (hkeys : ∀ x ∈ e :: es, IsKey x.1)
    (h : ∀ x ∈ e :: es, Splits levels x.2) : Splits (levels + 1) (.mapping (textEntries (e :: es))) := by
  have hitem : ∀ indent, itemValue indent (.mapping (textEntries (e :: es)))
      = join (newLine indent) ((e :: es).map (entryLine indent)) := fun indent =>
    congrArg (join (newLine indent)) (blockEntries_eq hkeys)
  have hunder : ∀ indent column, entryValue indent column (.mapping (textEntries (e :: es)))
      = newLine (indent + 2) ++ join (newLine (indent + 2)) ((e :: es).map (entryLine (indent + 2))) :=
    fun indent _ => congrArg (newLine (indent + 2) ++ join (newLine (indent + 2)) ·) (blockEntries_eq hkeys)
  have hspelled : spelled (.mapping (textEntries (e :: es)))
      = .blockMapping :: ((e :: es).flatMap (fun x => .key :: .plain x.1 :: .value :: spelledUnder x.2)
        ++ [.blockEnd]) :=
    congrArg (fun ts => Token.blockMapping :: (ts ++ [Token.blockEnd])) (spelledEntries_eq hkeys)
  have hstarts : ∀ indent tail,
      stops isSkipped (join (newLine indent) ((e :: es).map (entryLine indent)) ++ tail) = true := by
    intro indent tail
    exact stops_join _ _ (by simp [entryLine]) (stops_entryLine (hkeys e List.mem_cons_self))
  refine ⟨?_, ?_, ?_⟩
  · intro indent tail
    rw [hitem]
    exact hstarts indent tail
  · intro indent i margin p tokens indents next hp hcolumn hi hmargin hwidth hnext
    rw [hitem] at hp
    rw [hspelled]
    exact arrives_block (fun x hx => lineSplits_entry (hkeys x hx) (h x hx) (by omega))
      hp hcolumn hi hmargin hnext
  · intro indent column margin p tokens indents next hp hcolumn hmargin hwidth hnext
    rw [hunder, List.append_assoc] at hp
    obtain ⟨q, hq, hqcolumn, hready⟩ := ready_under tokens indents hp (hstarts _ _)
      (Nat.le_add_right indent 2)
    refine ⟨_, hready, ?_⟩
    show Arrives _ ((spelled (.mapping (textEntries (e :: es)))).reverse ++ tokens) _ _ _
    rw [hspelled]
    exact arrives_block (fun x hx => lineSplits_entry (hkeys x hx) (h x hx) (by omega)) hq hqcolumn (by omega)
      hmargin hnext

theorem splits_of_portable {v : Value} (h : v.Portable IsKey levels) : Splits levels v := by
  induction h with
  | null => exact splits_flat .null
  | bool b => exact splits_flat (.bool b)
  | int n => exact splits_flat (.int n)
  | text t => exact splits_flat (.text t)
  | @list levels items each ih =>
    cases items with
    | nil => exact splits_flat .list
    | cons v vs => exact splits_list ih
  | @record levels entries keys distinct each ih =>
    cases entries with
    | nil => exact splits_flat .mapping
    | cons e es => exact splits_mapping keys ih

end Runs

/-! ## Documents -/

/-- The `tokens` of a text that arrives at its end. -/
theorem tokens_of_arrives {s : Text} {found : List Token} {indents : List Nat} (hs : stops isSkipped s = true)
    (h : Arrives (fresh (.ofText s) [] [] true) found indents 0 [])
    (hindents : indents.head?.all (· ≤ 0) = true) :
    tokens s = found.reverse ++ (indents.map fun _ => .blockEnd) ++ [.finish] := by
  obtain ⟨q, hq, _, hleads⟩ := h
  rw [unwind_of_le hindents] at hleads
  have hready : (fresh (.ofText s) [] [] true).ready = .ok (fresh (.ofText s) [] [] true) := by
    rw [ready_fresh (Cursor.skipWhite_of_stops hs), unwind_of_le rfl]
    rfl
  obtain ⟨v, later, hv, hlater, hrun⟩ := run_of_leads hleads hready (Nat.lt_succ_self s.length)
  obtain ⟨later, rfl⟩ := Nat.exists_eq_succ_of_ne_zero (Nat.ne_of_gt (Nat.zero_lt_of_lt hlater))
  have hstep : v.step = .ok ((fresh q ((indents.map fun _ => .blockEnd) ++ found) [] true).emit .finish) := by
    rw [step_eq, hv]
    have hfinish : (fresh q found indents true).advance = (fresh q found indents true).finish := by
      rw [advance, show (fresh q found indents true).place.rest = [] from hq]
    exact hfinish
  have htokens : tokens s = run (s.length + 1) (fresh (.ofText s) [] [] true) := rfl
  rw [htokens, hrun, run, hstep]
  simp [emit, fresh, List.map_const']

/-- The `tokens` of a document that is a list or a mapping of lines. -/
theorem tokens_lines {α : Type} {t : Token} {line : α → Text} {spelling : α → List Token} {a : α}
    {as : List α}
    (h : ∀ x ∈ a :: as, LineSplits t 0 (line x) (spelling x)) :
    tokens (join (newLine 0) ((a :: as).map line) ++ newLine 0)
      = t :: ((a :: as).flatMap spelling ++ [.blockEnd]) ++ [.finish] := by
  have ha := (h a List.mem_cons_self).starts
  have harrives : Arrives (fresh (.ofText (join (newLine 0) ((a :: as).map line) ++ newLine 0)) [] [] true)
      (((a :: as).flatMap spelling).reverse ++ [t]) [0] 0 [] :=
    arrives_lines h [] [] rfl rfl rfl (Nat.le_refl 0) rfl
  refine (tokens_of_arrives (stops_join _ _ ha.1 ha.2) harrives rfl).trans ?_
  simp

/-- A value that is no scalar. -/
def isCollection : Value → Bool
  | .list _ => true
  | .mapping _ => true
  | _ => false

/-- A list or mapping is split into the tokens that it asks for: `spelled`. -/
theorem tokens_render {levels : Nat} {v : Value} (h : v.Portable IsKey levels) (hv : isCollection v = true)
    (hwidth : 2 * levels < bestWidth) : tokens (render v) = spelled v ++ [.finish] := by
  cases h with
  | null => exact absurd hv (by decide)
  | bool b => exact absurd hv Bool.false_ne_true
  | int n => exact absurd hv Bool.false_ne_true
  | text t => exact absurd hv Bool.false_ne_true
  | @list levels items each =>
    cases items with
    | nil => exact tokens_of_arrives rfl (arrives_brackets false rfl (by simp) rfl) rfl
    | cons v vs =>
      have hlines := tokens_lines fun w hw => lineSplits_item (splits_of_portable (each w hw)) (by omega)
      rwa [← spelledItems_eq, ← blockItems_eq] at hlines
  | @record levels entries keys distinct each =>
    cases entries with
    | nil => exact tokens_of_arrives rfl (arrives_brackets true rfl (by simp) rfl) rfl
    | cons e es =>
      have hlines := tokens_lines fun x hx =>
        lineSplits_entry (keys x hx) (splits_of_portable (each x hx)) (by omega)
      rwa [← spelledEntries_eq keys, ← blockEntries_eq keys] at hlines

end Seashell.Yaml
