import Seashell.Proofs.Documents.Yaml.Nodes
import Seashell.Yaml.Reader

set_option autoImplicit false

/-! # Reading YAML that was written

A list or mapping that can be carried in a document is read back from it: `parse_render`. The
document is written in characters that the reader takes (`printable_of_portable`), its tokens are
those that the value asks for (`tokens_render`), they spell the node that stands for the value
(`ofTokens_spelled`), and the node has the value that was written, unless an integer has too many
digits (`outcome_nodeOf`). For the last step the plain scalars have to be told apart: a text that is
left without quotes has the `kind` of a text, and an integer that of an integer, since it has only
digits and a sign. -/

namespace Seashell.Yaml

open Text Value

/-! ## Characters -/

/-- All characters of `t` are line feeds or printable (`isSpecial`). -/
def Printable (t : Text) : Prop := ∀ c ∈ t, isSpecial c = false

instance (t : Text) : Decidable (Printable t) := List.decidableBAll (isSpecial · = false) t

@[simp] theorem printable_nil : Printable [] := by simp [Printable]

@[simp] theorem printable_cons {c : Char} {t : Text} :
    Printable (c :: t) ↔ isSpecial c = false ∧ Printable t := List.forall_mem_cons

@[simp] theorem printable_append {s t : Text} : Printable (s ++ t) ↔ Printable s ∧ Printable t :=
  List.forall_mem_append

theorem printable_spaces (n : Nat) : Printable (spaces n) := by
  intro c hc
  obtain rfl := List.eq_of_mem_replicate hc
  decide

theorem printable_newLine (n : Nat) : Printable (newLine n) :=
  printable_cons.2 ⟨by decide, printable_spaces n⟩

theorem printable_join {sep : Text} (hsep : Printable sep) {pieces : List Text}
    (h : ∀ t ∈ pieces, Printable t) :
    Printable (join sep pieces) := by
  induction pieces with
  | nil => exact printable_nil
  | cons first more ih =>
    have hfirst := h first List.mem_cons_self
    cases more with
    | nil => simpa [join] using hfirst
    | cons second more =>
      rw [join_cons_cons]
      simp [hfirst, hsep, ih fun t ht => h t (List.mem_cons_of_mem first ht)]

theorem printable_fold (indent : Nat) {emit : Char → Text} {t : Text} (h : ∀ c ∈ t, Printable (emit c))
    (column : Nat)
    (before : Before) : Printable (fold indent emit column before t) := by
  induction t generalizing column before with
  | nil => exact printable_nil
  | cons c cs ih =>
    have hc := h c List.mem_cons_self
    have hrest := ih fun d hd => h d (List.mem_cons_of_mem c hd)
    have hblank : isSpecial ' ' = false ∧ isSpecial '\n' = false := by decide
    rw [fold]
    split
    · split
      · exact printable_append.2 ⟨printable_newLine indent, hrest _ _⟩
      · exact printable_cons.2 ⟨hblank.1, hrest _ _⟩
    · split
      · refine printable_append.2 ⟨printable_append.2 ⟨?_, ?_⟩, hrest _ _⟩
        · split <;> simp [hblank]
        · split
          · exact printable_nil
          · exact printable_spaces indent
      · exact printable_append.2 ⟨hc, hrest _ _⟩

theorem printable_hexUpper (width n : Nat) : Printable (hexUpper width n) := by
  have hall : ∀ d : Fin 16, isSpecial d.val.digitChar.toUpper = false := by decide
  intro c hc
  rw [hexUpper_eq] at hc
  obtain ⟨lower, hlower, rfl⟩ := List.mem_map.1 hc
  obtain ⟨d, rfl⟩ := mem_hexLower hlower
  exact hall d

theorem printable_escape (c : Char) : Printable (escape c) := by
  have hshort : ∀ e ∈ shortEscapes, isSpecial e.2 = false := by decide
  have hmarks : Printable "\\x" ∧ Printable "\\u" ∧ Printable "\\U" := by
    decide
  rw [escape]
  split
  · rename_i letter hletter
    exact printable_cons.2 ⟨by decide,
      printable_cons.2 ⟨hshort _ (Assoc.mem_of_lookup hletter), printable_nil⟩⟩
  · split
    · exact printable_append.2 ⟨hmarks.1, printable_hexUpper _ _⟩
    · split
      · exact printable_append.2 ⟨hmarks.2.1, printable_hexUpper _ _⟩
      · exact printable_append.2 ⟨hmarks.2.2, printable_hexUpper _ _⟩

theorem printable_foldEscaped (indent column : Nat) (first cut : Bool) (t : Text) :
    Printable (foldEscaped indent column first cut t) := by
  induction t generalizing column first cut with
  | nil => exact printable_nil
  | cons c cs ih =>
    have hmark : isSpecial '\\' = false ∧ isSpecial ' ' = false := by decide
    have hescape := printable_escape c
    have hline := printable_newLine indent
    have hchar : isEscaped c = false → isSpecial c = false := by
      intro h
      simp only [isEscaped, Bool.or_eq_false_iff] at h
      rw [isSpecial, h.2, Bool.and_false]
    have hstep := escapedStep indent column first cut c cs
    generalize foldEscaped indent column first cut (c :: cs) = written at hstep ⊢
    cases hstep with
    | escape later hc => simp [hescape, ih]
    | escapeBreak later hc hcs => simp [hescape, hmark, hline, ih]
    | escapeBlank hc hcs => simp [hescape, hmark, hline, ih]
    | char later hc => simp [hchar hc, ih]
    | breakChar later hc hblank => simp [hmark, hline, hchar hc, ih]
    | breakBlank later hblank => simp [hmark, hline, ih]

theorem printable_doubled {c : Char} (h : isSpecial c = false) : Printable (doubled c) := by
  rw [doubled]
  split
  · exact printable_cons.2 ⟨by decide, by simp; decide⟩
  · simpa using h

theorem printable_textScalar (indent column : Nat) (t : Text) : Printable (textScalar indent column t) := by
  have hquotes : Printable "'" ∧ Printable "\"" := by
    decide
  cases hstyle : styleOf t with
  | plain =>
    have ht := (quotable_of_style (t := t) (by rw [hstyle]; decide)).written
    rw [textScalar, hstyle]
    exact printable_fold indent (fun c hc => by simpa using ht c hc) _ _
  | single =>
    have ht := (quotable_of_style (t := t) (by rw [hstyle]; decide)).written
    have hfold := printable_fold indent (fun c hc => printable_doubled (ht c hc)) (column + 1) .start
    rw [textScalar, hstyle]
    exact printable_append.2 ⟨printable_append.2 ⟨hquotes.1, hfold⟩, hquotes.1⟩
  | double =>
    rw [textScalar, hstyle]
    exact printable_append.2 ⟨printable_append.2 ⟨hquotes.2, printable_foldEscaped _ _ _ _ _⟩, hquotes.2⟩

theorem Flat.printable_scalar {v : Value} (hv : Flat v) (indent column : Nat) :
    Printable ((scalar? indent column v).getD []) := by
  have hwords : ∀ w ∈ ["null".toList, "true".toList, "false".toList, "[]".toList, "\x7b\x7d".toList],
      Printable w := by
    decide
  cases hv with
  | null => exact hwords "null" (by decide)
  | bool b =>
    cases b with
    | false => exact hwords "false" (by decide)
    | true => exact hwords "true" (by decide)
  | int n => exact fun c hc => (chars_of_flows (unquoted_ofInt n).flows c hc).1
  | text t => exact printable_textScalar indent column t
  | list => exact hwords "[]" (by decide)
  | mapping => exact hwords "\x7b\x7d" (by decide)

/-- Whatever the texts in it, a document is written in `Printable` characters. -/
theorem printable_of_portable {levels : Nat} {v : Value} (h : v.Portable IsKey levels) :
    (∀ indent, Printable (itemValue indent v)) ∧ ∀ indent column, Printable (entryValue indent column v) := by
  have hflat : ∀ {w : Value}, Flat w →
      (∀ indent, Printable (itemValue indent w)) ∧
        ∀ indent column, Printable (entryValue indent column w) := by
    intro w hw
    refine ⟨fun indent => ?_, fun indent column => ?_⟩
    · rw [hw.itemValue_eq]
      exact hw.printable_scalar _ _
    · rw [hw.entryValue_eq]
      exact printable_cons.2 ⟨by decide, hw.printable_scalar _ _⟩
  induction h with
  | null => exact hflat .null
  | bool b => exact hflat (.bool b)
  | int n => exact hflat (.int n)
  | text t => exact hflat (.text t)
  | @list levels items each ih =>
    cases items with
    | nil => exact hflat .list
    | cons v vs =>
      have hitems : ∀ indent, Printable (join (newLine indent) (blockItems indent (v :: vs))) := by
        intro indent
        refine printable_join (printable_newLine indent) fun t ht => ?_
        rw [blockItems_eq] at ht
        obtain ⟨w, hw, rfl⟩ := List.mem_map.1 ht
        exact printable_cons.2 ⟨by decide, printable_cons.2 ⟨by decide, (ih w hw).1 _⟩⟩
      exact ⟨hitems, fun indent _ => printable_append.2 ⟨printable_newLine indent, hitems indent⟩⟩
  | @record levels entries keys distinct each ih =>
    cases entries with
    | nil => exact hflat .mapping
    | cons e es =>
      have hentries : ∀ indent,
          Printable (join (newLine indent) (blockEntries indent (textEntries (e :: es)))) := by
        intro indent
        refine printable_join (printable_newLine indent) fun t ht => ?_
        rw [blockEntries_eq keys] at ht
        obtain ⟨x, hx, rfl⟩ := List.mem_map.1 ht
        have hkey := (quotable_of_style (t := x.1) (by rw [(keys x hx).style]; decide)).written
        exact printable_append.2 ⟨hkey, printable_cons.2 ⟨by decide, (ih x hx).2 _ _⟩⟩
      exact ⟨hentries, fun indent _ => printable_append.2 ⟨printable_newLine _, hentries _⟩⟩

theorem normalizeBreaks_eq {s : Text} (h : Printable s) : normalizeBreaks s = s := by
  fun_induction normalizeBreaks s with
  | case1 => rfl
  | case2 s ih => exact absurd (printable_cons.1 h).1 (by decide)
  | case3 c s hreturn ih =>
    have hc : ¬ (c = '\r' ∨ c = '\u0085') := by
      rintro (rfl | rfl)
      · exact absurd (printable_cons.1 h).1 (by decide)
      · exact absurd (printable_cons.1 h).1 (by decide)
    rw [if_neg hc, ih (printable_cons.1 h).2]

theorem isAllowed_of_printable {c : Char} (h : isSpecial c = false) : isAllowed c = true := by
  simp only [isSpecial, Bool.and_eq_false_iff, bne_eq_false_iff_eq, Bool.not_eq_eq_eq_not, Bool.not_false,
    Bool.and_eq_true, decide_eq_true_eq] at h
  obtain rfl | ⟨hlow, hhigh⟩ := h
  · decide
  · simp [isAllowed, hlow, hhigh]

theorem tokensOf_eq {s : Text} (h : Printable s) : tokensOf s = tokens s := by
  have hallowed : s.all isAllowed = true := List.all_eq_true.2 fun c hc => isAllowed_of_printable (h c hc)
  have hmark : s.head? ≠ some '\ufeff' := fun hs => absurd (h _ (List.mem_of_mem_head? hs)) (by decide)
  rw [tokensOf, if_pos hallowed, if_neg hmark, normalizeBreaks_eq h]

/-! ## Values -/

theorem notMem_ofNat {n : Nat} {c : Char} (hc : c.isDigit = false) : c ∉ ofNat n := fun h => by
  simpa [hc] using isDigit_of_mem_ofNat h

theorem unsigned_ofInt (n : Int) : unsigned (ofInt n) = ofNat n.natAbs := by
  cases n with
  | ofNat n =>
    show unsigned (ofNat n) = ofNat n
    unfold unsigned
    split
    · rename_i s hs
      exact absurd (by rw [hs]; exact List.mem_cons_self) (notMem_ofNat (n := n) (c := '-') (by decide))
    · rename_i s hs
      exact absurd (by rw [hs]; exact List.mem_cons_self) (notMem_ofNat (n := n) (c := '+') (by decide))
    · rfl
  | negSucc n => rfl

/-- A character that is in no integer, as `ofInt` writes it. -/
def isForeign (c : Char) : Bool := c != '-' && !c.isDigit

theorem ofInt_notMem (ws : List Text) (h : ∀ w ∈ ws, w.any isForeign = true) (n : Int) : ofInt n ∉ ws := by
  intro hmem
  obtain ⟨c, hc, hforeign⟩ := List.any_eq_true.1 (h _ hmem)
  simp only [isForeign, Bool.and_eq_true, bne_iff_ne, Bool.not_eq_true'] at hforeign
  exact notMem_ofInt hforeign.1 hforeign.2 hc

theorem isFloat_ofInt (n : Int) : isFloat (ofInt n) = false := by
  have hpoint : ∀ n : Int, '.' ∉ ofInt n := fun n => notMem_ofInt (by decide) (by decide)
  have hunsigned : unsigned (ofInt n) = ofInt (.ofNat n.natAbs) := unsigned_ofInt n
  have hnan := ofInt_notMem [".nan".toList, ".NaN".toList, ".NAN".toList] (by decide) n
  have hinf := ofInt_notMem [".inf".toList, ".Inf".toList, ".INF".toList] (by decide) (.ofNat n.natAbs)
  have hnone : upTo? '.' (ofInt (.ofNat n.natAbs)) = none := by
    refine Option.eq_none_iff_forall_not_mem.2 fun ⟨inner, rest⟩ hr => hpoint (.ofNat n.natAbs) ?_
    rw [(upTo?_eq_some_iff.1 hr).2]
    simp
  rw [isFloat, hunsigned, hnone]
  simp only [List.contains_eq_mem, hnan, hinf, decide_false, Bool.or_false]
  exact fun c cs hs => hpoint n (by rw [hs]; exact List.mem_cons_self)

theorem isPositive_ofNat {n : Nat} (h : ∀ s, ofNat n ≠ '0' :: s) : isPositive (ofNat n) = true := by
  obtain ⟨c, cs, hs, hc⟩ := ofNat_eq_cons n
  have hrest : cs.all isSpacedDigit = true := List.all_eq_true.2 fun d hd => by
    rw [isSpacedDigit, isDigit_of_mem_ofNat (n := n) (by rw [hs]; exact List.mem_cons_of_mem c hd),
      Bool.true_or]
  have hfirst : '1' ≤ c ∧ c ≤ '9' := by
    have hzero : c.toNat ≠ '0'.toNat := fun he => h cs (by rw [hs, Char.toNat_inj.1 he])
    simp only [Char.isDigit, Bool.and_eq_true, decide_eq_true_eq, UInt32.le_iff_toNat_le] at hc
    exact ⟨Nat.lt_of_le_of_ne hc.1 (Ne.symm hzero), hc.2⟩
  rw [hs, isPositive, hrest]
  simp [hfirst]

theorem isInt_ofInt (n : Int) : isInt (ofInt n) = true := by
  have hcolon : ':' ∉ ofNat n.natAbs := notMem_ofNat (by decide)
  rw [isInt, unsigned_ofInt]
  split
  · rename_i rest hs
    simp [(eq_zero_of_ofNat hs).2]
  · rename_i hs
    rw [List.splitOn_eq_singleton hcolon]
    simp [isPositive_ofNat hs]

theorem kind_ofInt (n : Int) : kind (ofInt n) = .int := by
  have hnull : ofInt n ∉ nullWords := by
    obtain ⟨c, s, hs, _⟩ := ofInt_eq_cons n
    intro hmem
    obtain hempty | hmem := List.mem_cons.1 hmem
    · simp [hs] at hempty
    · exact ofInt_notMem _ (by decide) n hmem
  have htruth : truthWords.lookup (ofInt n) = none := by
    have hwords := ofInt_notMem (truthWords.map (·.1)) (by decide) n
    refine List.lookup_eq_none_iff.2 fun e he => bne_iff_ne.2 fun heq => hwords ?_
    rw [heq]
    exact List.mem_map_of_mem he
  simp [kind, hnull, htruth, isFloat_ofInt, isInt_ofInt]

theorem magnitude?_ofNat {n : Nat} (h : n < digitBound) : magnitude? (ofNat n) = some n := by
  have hcolon : ':' ∉ ofNat n := notMem_ofNat (by decide)
  have hshort : ¬ digitLimit < (ofNat n).length := Nat.not_lt.2 (length_ofNat_le_iff.2 h)
  unfold magnitude?
  split
  · rename_i hs
    rw [(eq_zero_of_ofNat hs).1]
  · rename_i ds hs
    exact absurd (eq_zero_of_ofNat hs).2 (List.cons_ne_nil _ _)
  · rename_i ds hs
    exact absurd (eq_zero_of_ofNat hs).2 (List.cons_ne_nil _ _)
  · rename_i ds hzero _ _ hs
    exact absurd (eq_zero_of_ofNat hs).2 hzero
  · rw [List.splitOn_eq_singleton hcolon]
    simp [decimal?, hshort]

theorem intValue_ofInt {n : Int} (h : n.natAbs < digitBound) : intValue (ofInt n) = .ok (.int n) := by
  have hdigits : digitsOf (ofInt n) = ofInt n := by
    refine List.filter_eq_self.2 fun c hc => bne_iff_ne.2 ?_
    rintro rfl
    exact notMem_ofInt (by decide) (by decide) hc
  have hsign : signOf (ofInt n) * n.natAbs = n := by
    cases n with
    | ofNat n =>
      obtain ⟨c, s, hs, hc⟩ := ofNat_eq_cons n
      have hhyphen : c ≠ '-' := by
        rintro rfl
        exact absurd hc (by decide)
      simp [signOf, ofInt, hs, hhyphen]
    | negSucc n =>
      simp [signOf, ofInt]
      omega
  rw [intValue, hdigits, unsigned_ofInt, magnitude?_ofNat h]
  simp only [hsign]

theorem plainOutcome_text {t : Text} (h : kind t = .text) : plainOutcome t = .ok (.text t) := by
  rw [plainOutcome, plainValue, h]
  rfl

theorem plainOutcome_ofInt {n : Int} (h : n.natAbs < digitBound) :
    plainOutcome (ofInt n) = .ok (.int n) := by
  rw [plainOutcome, plainValue, kind_ofInt, intValue_ofInt h]
  rfl

theorem all_ok {α : Type} (as : List α) : Outcome.all (as.map .ok) = .ok as := by
  induction as with
  | nil => rfl
  | cons a as ih =>
    rw [List.map_cons, Outcome.all, ih]
    rfl

theorem itemOutcomes_itemNodes {vs : List Value} (h : ∀ v ∈ vs, (nodeOf v).outcome = .ok v) :
    itemOutcomes (itemNodes vs) = vs.map .ok := by
  induction vs with
  | nil => rw [itemNodes, itemOutcomes]; rfl
  | cons v vs ih =>
    rw [itemNodes, itemOutcomes, h v List.mem_cons_self, ih fun w hw => h w (List.mem_cons_of_mem v hw)]
    rfl

theorem keyOutcome_key {k : Text} (h : IsKey k) :
    isMerge (nodeOf (.text k)) = false ∧ keyOutcome (nodeOf (.text k)) = .ok (.text k) := by
  have hkind := (unquoted_of_style h.style).2
  have hmerge : k ≠ ['<', '<'] := by
    rintro rfl
    exact absurd hkind (by decide)
  rw [nodeOf, if_pos h.style]
  refine ⟨by simpa [isMerge] using hmerge, ?_⟩
  rw [keyOutcome, plainOutcome_text hkind, ite_self]

theorem entryOutcomes?_entryNodes {es : List (Text × Value)} (hkeys : ∀ e ∈ es, IsKey e.1)
    (h : ∀ e ∈ es, (nodeOf e.2).outcome = .ok e.2) :
    entryOutcomes? (entryNodes (textEntries es)) = some ⟨[], (textEntries es).map .ok⟩ := by
  induction es with
  | nil =>
    show entryOutcomes? (entryNodes []) = _
    rw [entryNodes, entryOutcomes?]
    rfl
  | cons e es ih =>
    obtain ⟨hmerge, hkey⟩ := keyOutcome_key (hkeys e List.mem_cons_self)
    have hrest := ih (fun x hx => hkeys x (List.mem_cons_of_mem e hx))
      fun x hx => h x (List.mem_cons_of_mem e hx)
    show entryOutcomes? (entryNodes ((.text e.1, e.2) :: textEntries es)) = _
    rw [entryNodes, entryOutcomes?, hmerge, hrest, hkey, h e List.mem_cons_self]
    rfl

/-- The node of a value (`nodeOf`) stands for it. -/
theorem outcome_nodeOf {levels : Nat} {v : Value} (h : v.Portable IsKey levels)
    (hwritable : v.isWritable = true) :
    (nodeOf v).outcome = .ok v := by
  induction h with
  | null =>
    have hkind : kind "null" = .null := by decide
    show plainOutcome "null" = _
    rw [plainOutcome, plainValue, hkind]
    rfl
  | bool b =>
    have hkind : kind (if b then "true" else "false") = .bool := by cases b <;> decide
    have htruth : (truthWords.lookup (if b then "true".toList else "false".toList)).getD false = b := by
      cases b <;> decide
    show plainOutcome (if b then "true" else "false") = _
    rw [plainOutcome, plainValue, hkind]
    dsimp only
    rw [htruth]
    rfl
  | int n =>
    rw [Value.isWritable, decide_eq_true_eq] at hwritable
    exact plainOutcome_ofInt hwritable
  | text t =>
    rw [nodeOf]
    split
    · rename_i hstyle
      rw [Node.outcome, plainOutcome_text (unquoted_of_style hstyle).2]
    · rw [Node.outcome]
  | @list levels items each ih =>
    rw [Value.isWritable, itemsWritable_eq_all, List.all_eq_true] at hwritable
    rw [nodeOf, Node.outcome, itemOutcomes_itemNodes fun v hv => ih v hv (hwritable v hv), all_ok]
    rfl
  | @record levels entries keys distinct each ih =>
    rw [record_eq, Value.isWritable, entriesWritable_eq_all, List.all_eq_true] at hwritable
    rw [record_eq, nodeOf, Node.outcome, entryOutcomes?_entryNodes keys fun e he => ih e he (hwritable e he)]
    dsimp only [Entries.list, List.nil_append]
    rw [all_ok]
    show Except.ok (Value.mapping (collect (textEntries entries))) = _
    rw [collect_textEntries distinct]

/-- A list or mapping that `render` has written is read back by `parse`. -/
theorem parse_render {levels : Nat} {v : Value} (h : v.Portable IsKey levels) (hv : isCollection v = true)
    (hwidth : 2 * levels < bestWidth) (hwritable : v.isWritable = true) : parse (render v) = .ok v := by
  have hprintable : Printable (render v) :=
    printable_append.2 ⟨(printable_of_portable h).1 0, printable_newLine 0⟩
  have hlevels : levels ≤ levelLimit := by
    have : bestWidth ≤ levelLimit := by decide
    omega
  rw [parse, tokensOf_eq hprintable, tokens_render h hv hwidth, Spelling.ofTokens_spelled h hlevels]
  simp only [bind, Except.bind, Node.value, outcome_nodeOf h hwritable]
  rfl

end Seashell.Yaml
