import Seashell.Proofs.Text
import Seashell.Text.Literal
import Seashell.Value.Coerce
import Seashell.Value.Display

set_option autoImplicit false

/-! # Values that can be carried in a document

Not every value comes back from a document as it was written: floats are rounded, days and moments
have no notation, and of equal keys the last one counts. What has none of these is `Value.Portable`,
with a bound to its levels and a class of keys, which each format chooses for itself.

This module also holds what both formats need to know of numbers and pieces: digits that were
written are read back (`toNatFrom?_toDigits`), and an integer has no more than `digitLimit` digits
exactly if it is below `digitBound` (`length_ofNat_le_iff`). -/

namespace Seashell

/-! ## Numbers -/

namespace Text

theorem digitValue?_digitChar {base d : Nat} (hbase : base ≤ 16) (hd : d < base) :
    digitValue? base d.digitChar = some d := by
  have h : ∀ b : Fin 17, ∀ n : Fin 16, n.val < b.val →
      digitValue? b.val n.val.digitChar = some n.val := by decide
  exact h ⟨base, by omega⟩ ⟨d, by omega⟩ hd

theorem toNatFrom?_append (base n : Nat) (s t : Text) :
    toNatFrom? base n (s ++ t) = (toNatFrom? base n s).bind fun m => toNatFrom? base m t := by
  induction s generalizing n with
  | nil => rfl
  | cons c cs ih =>
    simp only [List.cons_append, toNatFrom?, Option.bind_assoc]
    exact congrArg _ (funext fun d => ih _)

/-- The digits of `n` are read as `n`. -/
theorem toNatFrom?_toDigits {base : Nat} (hlow : 1 < base) (hhigh : base ≤ 16) (n : Nat) :
    toNatFrom? base 0 (base.toDigits n) = some n := by
  induction n using Nat.strongRecOn with
  | ind n ih =>
    by_cases hn : n < base
    · rw [Nat.toDigits_of_lt_base hn]
      simp [toNatFrom?, digitValue?_digitChar hhigh hn]
    · have hle : base ≤ n := Nat.le_of_not_lt hn
      have hmod : n % base < base := Nat.mod_lt n (by omega)
      rw [Nat.toDigits_of_base_le hlow hle, toNatFrom?_append,
        ih (n / base) (Nat.div_lt_self (by omega) hlow), Option.bind_some]
      simp [toNatFrom?, digitValue?_digitChar hhigh hmod, Nat.div_add_mod' n base]

/-- Zeros in front do not count for `toNatFrom?`. -/
theorem toNatFrom?_zeros {base : Nat} (hbase : 0 < base) (k : Nat) (s : Text) :
    toNatFrom? base 0 (List.replicate k '0' ++ s) = toNatFrom? base 0 s := by
  induction k with
  | zero => rfl
  | succ k ih =>
    have hzero : digitValue? base '0' = some 0 := by simp [digitValue?, hbase]
    rw [List.replicate_succ, List.cons_append, toNatFrom?, hzero, Option.bind_some, Nat.zero_mul, ih]

@[simp] theorem toNat?_ofNat (n : Nat) : toNat? 10 (ofNat n) = some n := by
  have hne : (ofNat n).isEmpty = false := by simp [ofNat]
  rw [toNat?, hne]
  exact toNatFrom?_toDigits (by decide) (by decide) n

theorem ofNat_ne_nil (n : Nat) : ofNat n ≠ [] := Nat.toDigits_ne_nil

theorem isDigit_of_mem_ofNat {n : Nat} {c : Char} (h : c ∈ ofNat n) : c.isDigit = true :=
  Nat.isDigit_of_mem_toDigits (by decide) (by decide) h

theorem length_ofNat_le_iff {n : Nat} :
    (ofNat n).length ≤ digitLimit ↔ n < digitBound := by
  -- For any limit, since the bound itself is too large to be evaluated.
  have hlength : ∀ limit, 0 < limit → ((ofNat n).length ≤ limit ↔ n < Nat.pow 10 limit) :=
    fun _ hlimit => Nat.length_toDigits_le_iff (by decide) hlimit
  unfold digitBound
  exact hlength digitLimit (by decide)

theorem ofNat_eq_cons (n : Nat) : ∃ c s, ofNat n = c :: s ∧ c.isDigit = true := by
  obtain ⟨c, s, h⟩ := List.exists_cons_of_ne_nil (ofNat_ne_nil n)
  exact ⟨c, s, h, isDigit_of_mem_ofNat (h ▸ List.mem_cons_self)⟩

theorem ofInt_eq_cons (n : Int) : ∃ c s, ofInt n = c :: s ∧ (c = '-' ∨ c.isDigit = true) := by
  cases n with
  | ofNat n =>
    obtain ⟨c, s, hc, hdigit⟩ := ofNat_eq_cons n
    exact ⟨c, s, hc, .inr hdigit⟩
  | negSucc n => exact ⟨'-', _, rfl, .inl rfl⟩

theorem mem_toDigits {base n : Nat} {c : Char} (hbase : 1 < base) (h : c ∈ base.toDigits n) :
    ∃ d, d < base ∧ c = d.digitChar := by
  induction n using Nat.strongRecOn with
  | ind n ih =>
    by_cases hn : n < base
    · rw [Nat.toDigits_of_lt_base hn, List.mem_singleton] at h
      exact ⟨n, hn, h⟩
    · rw [Nat.toDigits_of_base_le hbase (Nat.le_of_not_lt hn), List.mem_append, List.mem_singleton] at h
      rcases h with h | h
      · exact ih (n / base) (Nat.div_lt_self (by omega) hbase) h
      · exact ⟨n % base, Nat.mod_lt n (by omega), h⟩

theorem mem_hexLower {width n : Nat} {c : Char} (h : c ∈ hexLower width n) :
    ∃ d : Fin 16, c = d.val.digitChar := by
  rcases List.mem_append.1 h with h | h
  · exact ⟨0, List.eq_of_mem_replicate h⟩
  · obtain ⟨d, hd, hc⟩ := mem_toDigits (by decide) h
    exact ⟨⟨d, hd⟩, hc⟩

theorem toNat?_hexLower {width n : Nat} : toNat? 16 (hexLower width n) = some n := by
  have hne : (hexLower width n).isEmpty = false := by simp [hexLower]
  rw [toNat?, hne, hexLower]
  exact (toNatFrom?_zeros (by decide) _ _).trans (toNatFrom?_toDigits (by decide) (by decide) n)

theorem length_hexLower {width n : Nat} (h : (Nat.toDigits 16 n).length ≤ width) :
    (hexLower width n).length = width := by
  rw [hexLower, List.length_append, List.length_replicate]
  omega

/-- Only the number zero begins with the digit zero in `ofNat`. -/
theorem eq_zero_of_ofNat {n : Nat} {s : Text} (h : ofNat n = '0' :: s) : n = 0 ∧ s = [] := by
  induction n using Nat.strongRecOn generalizing s with
  | ind n ih =>
    by_cases hn : n < 10
    · rw [ofNat, Nat.toDigits_of_lt_base hn, List.cons.injEq] at h
      have hzero : ∀ d : Fin 10, d.val.digitChar = '0' → d.val = 0 := by decide
      exact ⟨hzero ⟨n, hn⟩ h.1, h.2.symm⟩
    · rw [ofNat, Nat.toDigits_of_base_le (by decide) (Nat.le_of_not_lt hn)] at h
      obtain ⟨c, cs, hc⟩ := List.exists_cons_of_ne_nil (ofNat_ne_nil (n / 10))
      have hc' : Nat.toDigits 10 (n / 10) = c :: cs := hc
      rw [hc', List.cons_append, List.cons.injEq] at h
      have := (ih (n / 10) (by omega) (h.1 ▸ hc)).1
      omega

/-! ## Pieces -/

theorem stops_join {p : Char → Bool} {sep first : Text} (more : List Text) (rest : Text)
    (hne : first ≠ []) (h : stops p first = true) :
    stops p (join sep (first :: more) ++ rest) = true := by
  cases more with
  | nil => simpa [join, stops_append, hne] using h
  | cons second more => rwa [join_cons_cons, List.append_assoc, stops_append _ hne]

end Text

/-! ## Mappings -/

namespace Value

theorem put_of_forall {key value : Value} {entries : List (Value × Value)}
    (h : ∀ e ∈ entries, same e.1 key = false) :
    put key value entries = entries ++ [(key, value)] := by
  induction entries with
  | nil => rfl
  | cons e es ih =>
    have he : same e.1 key = false := h e List.mem_cons_self
    rw [put, he, ih fun x hx => h x (List.mem_cons_of_mem e hx)]
    rfl

/-- Entries as they stand in a mapping, with the texts as keys. -/
def textEntries (entries : List (Text × Value)) : List (Value × Value) :=
  entries.map fun e => (.text e.1, e.2)

theorem record_eq (entries : List (Text × Value)) : record entries = .mapping (textEntries entries) :=
  rfl

/-- Entries with different texts as keys stay as they are when `put` collects them. -/
theorem foldl_put_textEntries (before : List (Text × Value)) {entries : List (Text × Value)}
    (h : ((before ++ entries).map (·.1)).Nodup) :
    (textEntries entries).foldl (fun acc e => put e.1 e.2 acc) (textEntries before)
      = textEntries (before ++ entries) := by
  induction entries generalizing before with
  | nil => simp [textEntries]
  | cons e es ih =>
    have hnew : ∀ x ∈ before, x.1 ≠ e.1 := by
      rw [List.map_append, List.nodup_append] at h
      exact fun x hx => h.2.2 x.1 (List.mem_map_of_mem hx) e.1 (by simp)
    have hput : put (.text e.1) e.2 (textEntries before) = textEntries (before ++ [e]) := by
      rw [put_of_forall, textEntries, textEntries, List.map_append]
      · rfl
      · intro x hx
        obtain ⟨y, hy, rfl⟩ := List.mem_map.1 hx
        simp [same, hnew y hy]
    have hrest := ih (before ++ [e]) (by simpa using h)
    rw [← hput, List.append_assoc] at hrest
    exact hrest

theorem collect_textEntries {entries : List (Text × Value)} (h : (entries.map (·.1)).Nodup) :
    collect (textEntries entries) = textEntries entries :=
  foldl_put_textEntries [] h

theorem itemsWritable_eq_all (vs : List Value) :
    itemsWritable vs = vs.all isWritable := by
  induction vs with
  | nil => rfl
  | cons v vs ih => rw [itemsWritable, ih, List.all_cons]

theorem entriesWritable_eq_all (es : List (Text × Value)) :
    entriesWritable (textEntries es) = es.all (·.2.isWritable) := by
  induction es with
  | nil => rfl
  | cons e es ih => exact congrArg (true && e.2.isWritable && ·) ih

theorem isWritable_texts (ts : List Text) : (texts ts).isWritable = true := by
  rw [texts, isWritable, itemsWritable_eq_all]
  simp [isWritable]

theorem isWritable_ints {ns : List Int} (h : ∀ n ∈ ns, (int n).isWritable = true) :
    (list (ns.map .int)).isWritable = true := by
  rw [isWritable, itemsWritable_eq_all, List.all_map]
  simpa only [List.all_eq_true, Function.comp_apply] using h

/-- A value that a document can carry: there are no floats, days or moments in it, at most the given
    number of levels of lists and mappings, and the keys of each mapping are different texts that
    are `isKey`. -/
inductive Portable (isKey : Text → Prop) : Nat → Value → Prop where
  | null {levels : Nat} : Portable isKey levels .null
  | bool {levels : Nat} (b : Bool) : Portable isKey levels (.bool b)
  | int {levels : Nat} (n : Int) : Portable isKey levels (.int n)
  | text {levels : Nat} (t : Text) : Portable isKey levels (.text t)
  | list {levels : Nat} {items : List Value} (each : ∀ v ∈ items, Portable isKey levels v) :
    Portable isKey (levels + 1) (.list items)
  | record {levels : Nat} {entries : List (Text × Value)} (keys : ∀ e ∈ entries, isKey e.1)
    (distinct : (entries.map (·.1)).Nodup) (each : ∀ e ∈ entries, Portable isKey levels e.2) :
    Portable isKey (levels + 1) (.record entries)

theorem Portable.texts (isKey : Text → Prop) (levels : Nat) (ts : List Text) :
    Portable isKey (levels + 1) (.texts ts) := by
  refine .list fun v hv => ?_
  obtain ⟨t, _, rfl⟩ := List.mem_map.1 hv
  exact .text t

theorem Portable.ints (isKey : Text → Prop) (levels : Nat) (ns : List Int) :
    Portable isKey (levels + 1) (.list (ns.map .int)) := by
  refine .list fun v hv => ?_
  obtain ⟨n, _, rfl⟩ := List.mem_map.1 hv
  exact .int n

end Value
end Seashell
