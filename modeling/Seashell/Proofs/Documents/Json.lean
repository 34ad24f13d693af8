import Seashell.Json.Reader
import Seashell.Json.Writer
import Seashell.Proofs.Documents.Portable
import Seashell.Proofs.Scan

set_option autoImplicit false

/-! # Reading JSON that was written

A portable value that `Json.render` has written on one line is read back by `Json.parse`, whatever
follows it, unless one of its integers has too many digits. Then the reader refuses it, as the
writer does.

`readBack` has both cases, and `Reads` says of a value that this is what reading it gives, wherever
it stands and as long as there is room for its levels. It is proved by induction over portable
values (`reads_of_portable`): for a string by going from character to character (`string?_string`),
for an integer by its digits (`reads_int`), and for lists and mappings from what they consist of
(`items_join`, `entries_join`). The result is `parse_render`. -/

namespace Seashell.Json

open Text

/-! ## Strings -/

theorem unit?_hexLower {n : Nat} (hn : n < 0x10000) (s : Text) :
    unit? (hexLower 4 n ++ s) = some (n, s) := by
  have hdigits : (Nat.toDigits 16 n).length ≤ 4 :=
    (Nat.length_toDigits_le_iff (by decide) (by decide)).2 (by omega)
  have hlength : (hexLower 4 n).length = 4 := length_hexLower hdigits
  have hvalue : toNat? 16 (hexLower 4 n) = some n := toNat?_hexLower
  match h : hexLower 4 n, hlength with
  | [a, b, c, d], _ =>
    rw [h] at hvalue
    simp [unit?, hvalue]

theorem char?_toNat (c : Char) : char? c.toNat = some c := by
  have hvalid : c.toNat < 0xD800 ∨ 0xDFFF < c.toNat ∧ c.toNat < 0x110000 := c.valid
  rw [char?, if_pos (by omega), Char.ofNat_toNat]

theorem unitEscape?_unit {c : Char} (hc : c.toNat ≤ 0xFFFF) (s : Text) :
    unitEscape? (hexLower 4 c.toNat ++ s) = some (c, s) := by
  have hvalid : c.toNat < 0xD800 ∨ 0xDFFF < c.toNat ∧ c.toNat < 0x110000 := c.valid
  have hplain : ¬ (0xD800 ≤ c.toNat ∧ c.toNat ≤ 0xDBFF) := by omega
  simp [unitEscape?, unit?_hexLower (n := c.toNat) (by omega), hplain, char?_toNat]

theorem unitEscape_append (n : Nat) (s : Text) :
    unitEscape n ++ s = '\\' :: 'u' :: (hexLower 4 n ++ s) := rfl

theorem unitEscape?_pair {high low : Nat} (hhigh : 0xD800 ≤ high ∧ high ≤ 0xDBFF)
    (hlow : 0xDC00 ≤ low ∧ low ≤ 0xDFFF) (s : Text) :
    unitEscape? (hexLower 4 high ++ (unitEscape low ++ s))
      = (char? (0x10000 + (high - 0xD800) * 0x400 + (low - 0xDC00))).map fun c => (c, s) := by
  have hafter : after? "\\u" (unitEscape low ++ s) = some (hexLower 4 low ++ s) := rfl
  have hfirst := unit?_hexLower (show high < 0x10000 by omega) (unitEscape low ++ s)
  have hsecond := unit?_hexLower (show low < 0x10000 by omega) s
  simp only [unitEscape?, hfirst, hafter, hsecond, Option.bind_eq_bind, Option.bind_some, if_pos hhigh,
    if_pos hlow, Option.map_eq_bind]
  rfl

/-- The characters that have an escape of one letter. -/
def shortEscaped : List Char := ['"', '\\', '\n', '\r', '\t', '\x0c', '\x08']

theorem stringChar?_stringChar (c : Char) (s : Text) :
    stringChar? (stringChar c ++ s) = some (c, s) := by
  by_cases hshort : c ∈ shortEscaped
  · simp only [shortEscaped, List.mem_cons, List.not_mem_nil, or_false] at hshort
    obtain rfl | rfl | rfl | rfl | rfl | rfl | rfl := hshort <;> rfl
  · simp only [shortEscaped, List.mem_cons, List.not_mem_nil, or_false, not_or] at hshort
    obtain ⟨hquote, hslash, hfeed, hreturn, htab, hform, hback⟩ := hshort
    rw [stringChar, if_neg hquote, if_neg hslash, if_neg hfeed, if_neg hreturn, if_neg htab,
      if_neg hform, if_neg hback]
    split
    · rename_i hplain
      have hcontrol : ¬ c.toNat < 0x20 := by omega
      simp [stringChar?, hslash, hcontrol]
    · split
      · rename_i hunit
        rw [unitEscape_append, stringChar?, unitEscape?_unit hunit]
      · rename_i hunit
        have hvalid : c.toNat < 0xD800 ∨ 0xDFFF < c.toNat ∧ c.toNat < 0x110000 := c.valid
        have hjoin : 0x10000 + (0xD800 + (c.toNat - 0x10000) / 0x400 - 0xD800) * 0x400
            + (0xDC00 + (c.toNat - 0x10000) % 0x400 - 0xDC00) = c.toNat := by omega
        rw [List.append_assoc, unitEscape_append, stringChar?,
          unitEscape?_pair (by omega) (by omega), hjoin, char?_toNat, Option.map_some]

/-- No `stringChar` of a string is taken for its closing quote. -/
theorem stringChar_append_ne (c : Char) (s rest : Text) : stringChar c ++ s ≠ '"' :: rest := by
  intro h
  have hread : stringChar? ('"' :: rest) = some (c, s) := h ▸ stringChar?_stringChar c s
  have hquote : '"' = c := congrArg Prod.fst (Option.some.inj hread)
  subst hquote
  exact absurd (List.cons.inj h).1 (by decide)

theorem string?_cons {fuel : Nat} {s : Text} (hs : ∀ rest, s ≠ '"' :: rest) :
    string? (fuel + 1) s = (stringChar? s).bind fun (c, s) =>
      (string? fuel s).bind fun (cs, s) => some (c :: cs, s) := by
  rw [string?.eq_3 _ _ hs]
  rfl

/-- The characters of a string are read back by `string?` up to the closing quote. -/
theorem string?_string {fuel : Nat} {t : Text} (h : t.length < fuel) (rest : Text) :
    string? fuel (t.flatMap stringChar ++ '"' :: rest) = some (t, rest) := by
  induction t generalizing fuel with
  | nil =>
    obtain ⟨fuel, rfl⟩ := Nat.exists_eq_succ_of_ne_zero (Nat.ne_of_gt h)
    rfl
  | cons c cs ih =>
    obtain ⟨fuel, rfl⟩ := Nat.exists_eq_succ_of_ne_zero (Nat.ne_of_gt (Nat.zero_lt_of_lt h))
    rw [List.flatMap_cons, List.append_assoc, string?_cons (stringChar_append_ne c _),
      stringChar?_stringChar, Option.bind_some]
    simp only [ih (Nat.lt_of_succ_lt_succ h), Option.bind_some]

theorem length_le_flatMap (t : Text) : t.length ≤ (t.flatMap stringChar).length := by
  induction t with
  | nil => exact Nat.le_refl 0
  | cons c cs ih =>
    have hc : 0 < (stringChar c).length := by
      rw [List.length_pos_iff]
      intro h
      have hread := stringChar?_stringChar c []
      rw [h] at hread
      exact absurd hread (by simp [stringChar?])
    rw [List.flatMap_cons, List.length_append, List.length_cons]
    omega

theorem quoted_string (t rest : Text) :
    quoted (t.flatMap stringChar ++ '"' :: rest) = .ok (t, rest) := by
  have hfuel := length_le_flatMap t
  rw [quoted, string?_string]
  simp only [List.length_append]
  omega

theorem string_append (t rest : Text) :
    string t ++ rest = '"' :: (t.flatMap stringChar ++ '"' :: rest) := by
  simp [string]

/-! ## Numbers -/

/-- A character with which a number can go on. -/
def goesOn (c : Char) : Bool := c.isDigit || c == '.' || c == 'e' || c == 'E'

theorem fraction_of_stops {s : Text} (h : stops goesOn s = true) : fraction s = ([], s) := by
  cases s with
  | nil => rfl
  | cons c cs =>
    have hc : c ≠ '.' := by rintro rfl; simp [goesOn] at h
    rw [fraction.eq_2 _ (fun r hr => hc (List.cons.inj hr).1)]

theorem exponent?_of_stops {s : Text} (h : stops goesOn s = true) : exponent? s = none := by
  cases s with
  | nil => rfl
  | cons c cs =>
    have hc : ¬ (c = 'e' ∨ c = 'E') := by rintro (rfl | rfl) <;> simp [goesOn] at h
    simp [exponent?, hc]

theorem digits_ofNat (n : Nat) {rest : Text} (h : stops goesOn rest = true) :
    digits (ofNat n ++ rest) = (ofNat n, rest) := by
  have hstop : stops Char.isDigit rest = true := by
    cases rest with
    | nil => rfl
    | cons c cs =>
      simp only [stops_cons, goesOn, Bool.not_eq_true', Bool.or_eq_false_iff] at h ⊢
      exact h.1.1.1
  rw [digits, takeWhile_append_of_stops (fun c hc => isDigit_of_mem_ofNat hc) hstop,
    dropWhile_append_of_stops (fun c hc => isDigit_of_mem_ofNat hc) hstop]

/-- What reading gives for something that was written, `rest` being left: what it was, unless it has
    integers that are too long. -/
def readBack {α : Type} (isWritable : Bool) (a : α) (rest : Text) : Except Fault (α × Text) :=
  if isWritable then .ok (a, rest) else .error .tooManyDigits

theorem readBack_bind {α β : Type} (isWritable : Bool) (a : α) (rest : Text)
    (f : α × Text → Except Fault (β × Text)) :
    (readBack isWritable a rest >>= f)
      = if isWritable then f (a, rest) else .error .tooManyDigits := by
  cases isWritable <;> rfl

theorem readBack_and {α : Type} (first second : Bool) (a : α) (rest : Text) :
    readBack (first && second) a rest
      = if first then readBack second a rest else .error .tooManyDigits := by
  cases first <;> rfl

theorem magnitude_ofNat (n : Nat) {rest : Text} (h : stops goesOn rest = true) :
    magnitude (ofNat n ++ rest) = readBack (n < digitBound) (.inl n) rest := by
  by_cases hn : n = 0
  · subst hn
    have hlimit : ¬ digitLimit < 1 := by decide
    have hpos : 0 < digitBound := length_ofNat_le_iff.1 (show (ofNat 0).length ≤ digitLimit by decide)
    have hread : toNat? 10 ['0'] = some 0 := toNat?_ofNat 0
    simp [ofNat, magnitude, fraction_of_stops h, exponent?_of_stops h, hlimit, hread, readBack, hpos]
  · have hzero : ∀ r, ofNat n ++ rest ≠ '0' :: r := by
      intro r hr
      obtain ⟨c, cs, hc⟩ := List.exists_cons_of_ne_nil (ofNat_ne_nil n)
      rw [hc, List.cons_append, List.cons.injEq] at hr
      exact hn (eq_zero_of_ofNat (hr.1 ▸ hc)).1
    have hlength := length_ofNat_le_iff (n := n)
    have hne : (ofNat n).isEmpty = false := by simp [ofNat_ne_nil]
    rw [magnitude.eq_2 _ hzero, digits_ofNat n h]
    simp only [fraction_of_stops h, exponent?_of_stops h, hne, toNat?_ofNat, readBack]
    by_cases hlimit : n < digitBound
    · simp [hlimit, Nat.not_lt.2 (hlength.2 hlimit)]
    · simp [hlimit, Nat.lt_of_not_le (mt hlength.1 hlimit)]

theorem number_ofInt (n : Int) {rest : Text} (h : stops goesOn rest = true) :
    number (ofInt n ++ rest) = readBack (n.natAbs < digitBound) (.int n) rest := by
  cases n with
  | ofNat n =>
    obtain ⟨c, s, hc, hdigit⟩ := ofNat_eq_cons n
    have hsign : ∀ r, ofNat n ++ rest ≠ '-' :: r := by
      intro r hr
      rw [hc, List.cons_append, List.cons.injEq] at hr
      exact absurd (hr.1 ▸ hdigit) (by decide)
    rw [ofInt, number.eq_2 _ hsign, magnitude_ofNat n h]
    simp only [readBack, Int.natAbs_natCast, Int.ofNat_eq_natCast]
    split <;> rfl
  | negSucc n =>
    rw [ofInt, List.cons_append, number, magnitude_ofNat (n + 1) h]
    simp only [readBack, Int.natAbs_negSucc, Nat.succ_eq_add_one]
    split <;> rfl

/-- An integer is none of the `words`. -/
theorem scalar_ofInt (n : Int) (rest : Text) : scalar (ofInt n ++ rest) = number (ofInt n ++ rest) := by
  have hnone : ∀ e ∈ words, after? e.1 (ofInt n ++ rest) = none := by
    cases n with
    | ofNat n =>
      obtain ⟨c, s, hc, hdigit⟩ := ofNat_eq_cons n
      have hne : ∀ d : Char, d.isDigit = false → (d == c) = false := by
        intro d hd
        exact beq_false_of_ne fun he => absurd (he ▸ hd) (by simp [hdigit])
      simp [ofInt, hc, words, after?_cons_cons, hne]
    | negSucc n =>
      obtain ⟨c, s, hc, hdigit⟩ := ofNat_eq_cons (n + 1)
      have hne : ('I' == c) = false :=
        beq_false_of_ne fun he => absurd (he ▸ hdigit) (by decide)
      simp [ofInt, hc, words, after?_cons_cons, hne]
  rw [scalar, List.findSome?_eq_none_iff.2]
  intro e he
  show (after? e.1 (ofInt n ++ rest)).map _ = none
  rw [hnone e he]
  rfl

/-! ## Lists and mappings -/

theorem renderItems_eq_map (vs : List Value) : renderItems vs = vs.map render := by
  induction vs with
  | nil => rfl
  | cons v vs ih => rw [renderItems, ih, List.map_cons]

/-- An entry on one line, as `renderEntries` has it. -/
def renderEntry (e : Text × Value) : Text := string e.1 ++ ": " ++ render e.2

theorem renderEntries_eq_map (es : List (Text × Value)) :
    renderEntries (Value.textEntries es) = es.map renderEntry := by
  induction es with
  | nil => rfl
  | cons e es ih => exact congrArg (renderEntry e :: ·) ih

/-- White space, or the end of a list or mapping. -/
def endsItem (c : Char) : Bool :=
  c == ' ' || c == '\t' || c == '\n' || c == '\r' || c == ']' || c == '\x7d'

theorem skip_of_stops {s : Text} (h : stops endsItem s = true) : skip s = s := by
  cases s with
  | nil => rfl
  | cons c cs =>
    have hc : (c == ' ' || c == '\t' || c == '\n' || c == '\r') = false := by
      simp only [stops_cons, endsItem, Bool.not_eq_true', Bool.or_eq_false_iff] at h ⊢
      exact h.1.1
    exact dropWhile_of_stops (by simp [hc])

/-- The value `v` is read back wherever it stands, if there is `room` for its levels. -/
structure Reads (room : Nat) (v : Value) : Prop where
  starts : stops endsItem (render v) = true
  ne_nil : render v ≠ []
  value_eq : ∀ fuel rest, (render v).length < fuel → stops goesOn rest = true →
    value fuel room (render v ++ rest) = readBack v.isWritable v rest

/-- The `items` of a list are read back up to its end. -/
theorem items_join {room fuel : Nat} {v : Value} {vs : List Value} (h : ∀ w ∈ v :: vs, Reads room w)
    (hfuel : (join ", " ((v :: vs).map render)).length + 1 < fuel) (rest : Text) :
    items fuel room (join ", " ((v :: vs).map render) ++ ']' :: rest)
      = readBack ((v :: vs).all Value.isWritable) (v :: vs) rest := by
  obtain ⟨fuel, rfl⟩ := Nat.exists_eq_succ_of_ne_zero (Nat.ne_of_gt (Nat.zero_lt_of_lt hfuel))
  induction vs generalizing v fuel with
  | nil =>
    have hjoin : join ", " ([v].map render) = render v := by simp [join]
    rw [hjoin] at hfuel ⊢
    rw [items, (h v List.mem_cons_self).value_eq fuel (']' :: rest) (by omega) rfl, readBack_bind,
      List.all_cons, readBack_and]
    rfl
  | cons w vs ih =>
    have hw := h w (by simp)
    rw [List.map_cons, List.map_cons, join_cons_cons, ← List.map_cons] at hfuel ⊢
    simp only [List.length_append] at hfuel
    have hcomma : (", ".toList : Text).length = 2 := rfl
    obtain ⟨fuel, rfl⟩ := Nat.exists_eq_succ_of_ne_zero (show fuel ≠ 0 by omega)
    have hskip : skip (' ' :: (join ", " ((w :: vs).map render) ++ ']' :: rest))
        = join ", " ((w :: vs).map render) ++ ']' :: rest :=
      skip_of_stops (stops_join _ _ hw.ne_nil hw.starts)
    have hrest := ih (fun x hx => h x (List.mem_cons_of_mem v hx)) fuel (by omega)
    have hnext : (do
        let found ← items (fuel + 1) room (skip (' ' :: (join ", " ((w :: vs).map render) ++ ']' :: rest)))
        return (v :: found.1, found.2)) = readBack ((w :: vs).all Value.isWritable) (v :: w :: vs) rest := by
      rw [hskip, hrest, readBack_bind]
      rfl
    rw [items, List.append_assoc, (h v List.mem_cons_self).value_eq (fuel + 1) _ (by omega) rfl,
      readBack_bind, List.all_cons, readBack_and]
    exact congrArg (fun x => if v.isWritable then x else .error .tooManyDigits) hnext

theorem renderEntry_append (e : Text × Value) (rest : Text) :
    renderEntry e ++ rest = '"' :: (e.1.flatMap stringChar ++ '"' :: ':' :: ' ' :: (render e.2 ++ rest)) := by
  simp [renderEntry, string]

theorem length_lt_renderEntry (e : Text × Value) : (render e.2).length < (renderEntry e).length := by
  have hcolon : (": ".toList : Text).length = 2 := rfl
  simp only [renderEntry, List.length_append, hcolon]
  omega

/-- An entry is read back, and then what follows it, one step of `entries`. -/
theorem entries_renderEntry {room fuel : Nat} {e : Text × Value} {rest : Text} (h : Reads room e.2)
    (hfuel : (render e.2).length < fuel) (hrest : stops goesOn rest = true) :
    entries (fuel + 1) room (renderEntry e ++ rest) = if e.2.isWritable then
        match skip rest with
        | ',' :: s => do
          let (es, s) ← entries fuel room (skip s)
          return ((.text e.1, e.2) :: es, s)
        | '}' :: s => return ([(.text e.1, e.2)], s)
        | _ => throw .malformed
      else .error .tooManyDigits := by
  have hskip : skip (' ' :: (render e.2 ++ rest)) = render e.2 ++ rest :=
    skip_of_stops ((stops_append rest h.ne_nil).trans h.starts)
  have hcolon : skip (':' :: ' ' :: (render e.2 ++ rest)) = ':' :: ' ' :: (render e.2 ++ rest) := rfl
  rw [renderEntry_append, entries, quoted_string]
  simp only [bind, Except.bind, hcolon]
  rw [hskip, h.value_eq fuel rest hfuel hrest, readBack]
  cases e.2.isWritable <;> rfl

/-- The `entries` of a mapping are read back up to its end. -/
theorem entries_join {room fuel : Nat} {e : Text × Value} {es : List (Text × Value)}
    (h : ∀ x ∈ e :: es, Reads room x.2)
    (hfuel : (join ", " ((e :: es).map renderEntry)).length + 1 < fuel) (rest : Text) :
    entries fuel room (join ", " ((e :: es).map renderEntry) ++ '\x7d' :: rest)
      = readBack ((e :: es).all (·.2.isWritable)) (Value.textEntries (e :: es)) rest := by
  obtain ⟨fuel, rfl⟩ := Nat.exists_eq_succ_of_ne_zero (Nat.ne_of_gt (Nat.zero_lt_of_lt hfuel))
  induction es generalizing e fuel with
  | nil =>
    have hjoin : join ", " ([e].map renderEntry) = renderEntry e := by simp [join]
    have hlength := length_lt_renderEntry e
    rw [hjoin] at hfuel ⊢
    rw [entries_renderEntry (h e List.mem_cons_self) (by omega) rfl, List.all_cons, readBack_and]
    rfl
  | cons x es ih =>
    rw [List.map_cons, List.map_cons, join_cons_cons, ← List.map_cons] at hfuel ⊢
    have hlength := length_lt_renderEntry e
    have hcomma : (", ".toList : Text).length = 2 := rfl
    simp only [List.length_append] at hfuel
    obtain ⟨fuel, rfl⟩ := Nat.exists_eq_succ_of_ne_zero (show fuel ≠ 0 by omega)
    have hskip : skip (' ' :: (join ", " ((x :: es).map renderEntry) ++ '\x7d' :: rest))
        = join ", " ((x :: es).map renderEntry) ++ '\x7d' :: rest :=
      skip_of_stops (stops_join _ _ (by simp [renderEntry, string]) rfl)
    have hrest := ih (fun y hy => h y (List.mem_cons_of_mem e hy)) fuel (by omega)
    have hnext : (do
        let (more, s) ← entries (fuel + 1) room
          (skip (' ' :: (join ", " ((x :: es).map renderEntry) ++ '\x7d' :: rest)))
        return ((.text e.1, e.2) :: more, s))
          = readBack ((x :: es).all (·.2.isWritable)) (Value.textEntries (e :: x :: es)) rest := by
      rw [hskip, hrest, readBack_bind]
      rfl
    rw [List.append_assoc, entries_renderEntry (h e List.mem_cons_self) (by omega) rfl, List.all_cons,
      readBack_and]
    exact congrArg (fun y => if e.2.isWritable then y else .error .tooManyDigits) hnext

/-! ## Documents -/

/-- An integer is read back by `number`, since it begins with its sign or a digit. -/
theorem reads_int (room : Nat) (n : Int) : Reads room (.int n) := by
  obtain ⟨c, s, hc, hsign⟩ := ofInt_eq_cons n
  have hne : ∀ d : Char, d ≠ '-' → d.isDigit = false → c ≠ d := by
    rintro d hd hdigit rfl
    simp [hd, hdigit] at hsign
  refine ⟨?_, by simp [render, hc], fun fuel rest hfuel hrest => ?_⟩
  · rw [render, hc]
    simp [endsItem, hne]
  · obtain ⟨fuel, rfl⟩ := Nat.exists_eq_succ_of_ne_zero (Nat.ne_of_gt (Nat.zero_lt_of_lt hfuel))
    have hvalue : value (fuel + 1) room (ofInt n ++ rest) = scalar (ofInt n ++ rest) := by
      rw [hc, List.cons_append]
      simp [value, hne]
    rw [render, hvalue, scalar_ofInt, number_ofInt n hrest, Value.isWritable]

theorem reads_text (room : Nat) (t : Text) : Reads room (.text t) := by
  refine ⟨rfl, by simp [render, string], fun fuel rest hfuel _ => ?_⟩
  obtain ⟨fuel, rfl⟩ := Nat.exists_eq_succ_of_ne_zero (Nat.ne_of_gt (Nat.zero_lt_of_lt hfuel))
  rw [render, string_append, value, quoted_string]
  rfl

/-- A list that does not end at once has `items`. -/
theorem value_list {fuel room : Nat} {s : Text} (h : stops endsItem s = true) :
    value (fuel + 1) (room + 1) ('[' :: s)
      = items fuel room s >>= fun (vs, s) => .ok (.list vs, s) := by
  rw [value, if_neg (Nat.succ_ne_zero room), skip_of_stops h]
  split
  · exact absurd h (by simp [endsItem])
  · rfl

theorem reads_list {room : Nat} {vs : List Value} (h : ∀ v ∈ vs, Reads room v) :
    Reads (room + 1) (.list vs) := by
  refine ⟨rfl, by simp [render], fun fuel rest hfuel _ => ?_⟩
  obtain ⟨fuel, rfl⟩ := Nat.exists_eq_succ_of_ne_zero (Nat.ne_of_gt (Nat.zero_lt_of_lt hfuel))
  have hrender : render (.list vs) ++ rest = '[' :: (join ", " (vs.map render) ++ ']' :: rest) := by
    simp [render, renderItems_eq_map]
  rw [hrender, Value.isWritable, Value.itemsWritable_eq_all]
  cases vs with
  | nil => rfl
  | cons v vs =>
    have hv := h v List.mem_cons_self
    have hstops : stops endsItem (join ", " ((v :: vs).map render) ++ ']' :: rest) = true :=
      stops_join _ _ hv.ne_nil hv.starts
    have hlength : (join ", " ((v :: vs).map render)).length + 1 < fuel := by
      simpa [render, renderItems_eq_map] using hfuel
    rw [value_list hstops, items_join h hlength, readBack_bind]
    rfl

/-- A mapping that does not end at once has `entries`. -/
theorem value_mapping {fuel room : Nat} {s : Text} (h : stops endsItem s = true) :
    value (fuel + 1) (room + 1) ('\x7b' :: s)
      = entries fuel room s >>= fun (es, s) => .ok (.mapping (Value.collect es), s) := by
  rw [value, if_neg (Nat.succ_ne_zero room), skip_of_stops h]
  split
  · exact absurd h (by simp [endsItem])
  · rfl

theorem reads_record {room : Nat} {es : List (Text × Value)} (hkeys : (es.map (·.1)).Nodup)
    (h : ∀ e ∈ es, Reads room e.2) : Reads (room + 1) (.record es) := by
  rw [Value.record_eq]
  refine ⟨rfl, by simp [render], fun fuel rest hfuel _ => ?_⟩
  obtain ⟨fuel, rfl⟩ := Nat.exists_eq_succ_of_ne_zero (Nat.ne_of_gt (Nat.zero_lt_of_lt hfuel))
  have hrender : render (.mapping (Value.textEntries es)) ++ rest
      = '\x7b' :: (join ", " (es.map renderEntry) ++ '\x7d' :: rest) := by
    simp [render, renderEntries_eq_map]
  rw [hrender, Value.isWritable, Value.entriesWritable_eq_all]
  cases es with
  | nil => rfl
  | cons e es =>
    have hlength : (join ", " ((e :: es).map renderEntry)).length + 1 < fuel := by
      simpa [render, renderEntries_eq_map] using hfuel
    have hstops : stops endsItem (join ", " ((e :: es).map renderEntry) ++ '\x7d' :: rest) = true :=
      stops_join _ _ (by simp [renderEntry, string]) rfl
    rw [value_mapping hstops, entries_join h hlength, readBack_bind]
    simp only [Value.collect_textEntries hkeys]
    rfl

/-- A `Portable` value is read back wherever it stands. -/
theorem reads_of_portable {isKey : Text → Prop} {levels : Nat} {v : Value} (h : v.Portable isKey levels)
    {room : Nat} (hroom : levels ≤ room) : Reads room v := by
  induction h generalizing room with
  | null =>
    refine ⟨rfl, by simp [render], fun fuel rest hfuel _ => ?_⟩
    obtain ⟨fuel, rfl⟩ := Nat.exists_eq_succ_of_ne_zero (Nat.ne_of_gt (Nat.zero_lt_of_lt hfuel))
    rfl
  | bool b =>
    refine ⟨by cases b <;> rfl, by cases b <;> simp [render], fun fuel rest hfuel _ => ?_⟩
    obtain ⟨fuel, rfl⟩ := Nat.exists_eq_succ_of_ne_zero (Nat.ne_of_gt (Nat.zero_lt_of_lt hfuel))
    cases b <;> rfl
  | int n => exact reads_int room n
  | text t => exact reads_text room t
  | list _ ih =>
    obtain ⟨room, rfl⟩ := Nat.exists_eq_succ_of_ne_zero (Nat.ne_of_gt (Nat.zero_lt_of_lt hroom))
    exact reads_list fun v hv => ih v hv (Nat.le_of_succ_le_succ hroom)
  | record _ distinct _ ih =>
    obtain ⟨room, rfl⟩ := Nat.exists_eq_succ_of_ne_zero (Nat.ne_of_gt (Nat.zero_lt_of_lt hroom))
    exact reads_record distinct fun e he => ih e he (Nat.le_of_succ_le_succ hroom)

/-- **A portable value is read back from what `render` has written**, unless an integer in it is too
    long. -/
theorem parse_render {isKey : Text → Prop} {levels : Nat} {v : Value} (h : v.Portable isKey levels)
    (hlevels : levels ≤ levelLimit) :
    parse (render v) = if v.isWritable then .ok v else .error .tooManyDigits := by
  have hreads := reads_of_portable h hlevels
  have hvalue := hreads.value_eq ((render v).length + 1) [] (by omega) rfl
  rw [List.append_nil] at hvalue
  rw [parse, skip_of_stops hreads.starts, hvalue, readBack]
  cases v.isWritable <;> rfl

/-! ## What can be written -/

/-- Texts have an order in `Value.sort`. -/
theorem sort_texts (ts : List Text) : (Value.sort (ts.map .text)).isOk = true := by
  match ts with
  | [] => rfl
  | [_] => rfl
  | t :: u :: rest =>
    have hall : (.text u :: rest.map Value.text).all (·.orderClass? == some .text) = true := by
      simp [Value.orderClass?]
    show (if _ then Except.ok _ else Except.error Mismatch.wrongKind : Except Mismatch _).isOk = true
    rw [if_pos hall]
    rfl

theorem itemsExpressible_of_forall {vs : List Value} (h : ∀ v ∈ vs, isExpressible v = true) :
    itemsExpressible vs = true := by
  induction vs with
  | nil => rfl
  | cons v vs ih =>
    rw [itemsExpressible, h v List.mem_cons_self, ih fun w hw => h w (List.mem_cons_of_mem v hw)]
    rfl

theorem entriesExpressible_of_forall {es : List (Text × Value)}
    (h : ∀ e ∈ es, isExpressible e.2 = true) : entriesExpressible (Value.textEntries es) = true := by
  induction es with
  | nil => rfl
  | cons e es ih =>
    have hrest := ih fun x hx => h x (List.mem_cons_of_mem e hx)
    show (isTimeless (.text e.1) && isExpressible e.2 && entriesExpressible (Value.textEntries es)) = true
    rw [h e List.mem_cons_self, hrest]
    rfl

/-- There is a notation for a `Portable` value. -/
theorem isExpressible_of_portable {isKey : Text → Prop} {levels : Nat} {v : Value}
    (h : v.Portable isKey levels) : isExpressible v = true := by
  induction h with
  | null => rfl
  | bool b => rfl
  | int n => rfl
  | text t => rfl
  | list each ih => exact itemsExpressible_of_forall ih
  | @record _ es keys distinct each ih =>
    have hkeys : (Value.textEntries es).map (·.1) = (es.map (·.1)).map .text := by
      simp [Value.textEntries]
    rw [Value.record_eq, isExpressible, hkeys, sort_texts, entriesExpressible_of_forall ih]
    rfl

end Seashell.Json
