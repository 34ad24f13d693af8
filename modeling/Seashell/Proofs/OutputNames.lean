import Seashell.Proofs.ConverterTable
import Seashell.Proofs.FileConversion

set_option autoImplicit false

/-! # Names of output files

A file is accepted (`Settings.accepts`) if its name ends with the source extension, both in lower
case, and then as many characters as the extension has make way for the target extension
(`Settings.outputName`). That replaces the extension as long as lower case keeps the number of
characters, and as long as the end of a name reads in lower case as it does alone. Two capitals
break this: the I with a dot (`dottedI`) becomes two characters, and what a sigma becomes depends on
what stands around it.

Both are measured here. `length_lowerAfter` counts the characters that are added, and
`lowerAfter_eq_lower_iff` says when an ending reads as it does alone. With the ending at which a dot
divides the name (`exists_split_of_lowerAfter`), `outputName_of_ending` is what is kept of the name,
and `accepted_output` says exactly when that is all but the extension. -/

namespace Seashell

namespace Text

/-! ## Lower case, one character at a time -/

/-- The capital I with a dot. -/
def dottedI : Char := Char.ofNat 0x130

/-- The dot of a capital I, which is a character of its own in lower case. -/
def dotAbove : Char := Char.ofNat 0x307

def capitalSigma : Char := Char.ofNat 0x3A3

def smallSigma : Char := Char.ofNat 0x3C3

def finalSigma : Char := Char.ofNat 0x3C2

/-- Lower case of the character `c` between two texts, of which the first is read from its end. -/
def lowerBetween (before : Text) (c : Char) (after : Text) : Text :=
  if c = capitalSigma then
    [if meetsCased before && !meetsCased after then finalSigma else smallSigma]
  else lowerChar c

theorem lowerAfter_cons (before : Text) (c : Char) (cs : Text) :
    lowerAfter before (c :: cs) = lowerBetween before c cs ++ lowerAfter (c :: before) cs := by
  have hsigma : c.toNat = 0x3A3 ↔ c = capitalSigma := Char.toNat_inj (d := capitalSigma)
  rw [lowerAfter, lowerBetween]
  simp only [hsigma]
  split
  · split <;> rfl
  · rfl

theorem lowerBetween_dottedI (before after : Text) :
    lowerBetween before dottedI after = ['i', dotAbove] := rfl

theorem exists_lowerBetween_eq_singleton {c : Char} (h : c ≠ dottedI) (before after : Text) :
    ∃ d, lowerBetween before c after = [d] := by
  have hdotted : c.toNat ≠ 0x130 := mt (Char.toNat_inj (d := dottedI)).1 h
  rw [lowerBetween, lowerChar, if_neg hdotted]
  split
  · exact ⟨_, rfl⟩
  · split
    · exact ⟨_, rfl⟩
    · split <;> exact ⟨_, rfl⟩

/-- `lowerAfter` adds one character for each capital I with a dot. -/
theorem length_lowerAfter (before s : Text) :
    (lowerAfter before s).length = s.length + s.count dottedI := by
  induction s generalizing before with
  | nil => rfl
  | cons c cs ih =>
    rw [lowerAfter_cons, List.length_append, ih, List.length_cons]
    by_cases hc : c = dottedI
    · rw [hc, lowerBetween_dottedI, List.count_cons_self, List.length_cons, List.length_singleton]
      omega
    · obtain ⟨d, hd⟩ := exists_lowerBetween_eq_singleton hc before cs
      rw [hd, List.count_cons_of_ne hc, List.length_singleton]
      omega

/-- A dot in `lowerAfter` divides the text, as it is neither of the two characters that a capital I
    becomes. -/
theorem exists_split_of_lowerAfter {before s w rest : Text}
    (h : lowerAfter before s = w ++ '.' :: rest) :
    ∃ base suffix, s = base ++ suffix ∧ lowerAfter (base.reverse ++ before) suffix = '.' :: rest := by
  induction s generalizing before w with
  | nil => exact absurd h (by simp [lowerAfter])
  | cons c cs ih =>
    -- the rest of the text divides, and the character goes to the base
    have hcons : ∀ w', lowerAfter (c :: before) cs = w' ++ '.' :: rest → ∃ base suffix,
        c :: cs = base ++ suffix ∧ lowerAfter (base.reverse ++ before) suffix = '.' :: rest := by
      intro w' hw'
      obtain ⟨base, suffix, hsplit, hlower⟩ := ih hw'
      exact ⟨c :: base, suffix, by rw [hsplit, List.cons_append], by simpa using hlower⟩
    cases w with
    | nil => exact ⟨[], c :: cs, rfl, h⟩
    | cons a w =>
      rw [lowerAfter_cons] at h
      by_cases hc : c = dottedI
      · rw [hc, lowerBetween_dottedI, ← hc] at h
        cases w with
        | nil =>
          have hdot : dotAbove = '.' := (List.cons.inj (List.cons.inj h).2).1
          exact absurd hdot (by decide)
        | cons b w => exact hcons w (List.cons.inj (List.cons.inj h).2).2
      · obtain ⟨d, hd⟩ := exists_lowerBetween_eq_singleton hc before cs
        rw [hd] at h
        exact hcons w (List.cons.inj h).2

/-- Of two endings of one text, those that are equally long in lower case are the same. -/
theorem split_eq_of_length_lower {base suffix base' suffix' : Text}
    (h : base ++ suffix = base' ++ suffix')
    (hlength : suffix.length + suffix.count dottedI = suffix'.length + suffix'.count dottedI) :
    base = base' ∧ suffix = suffix' := by
  rcases List.append_eq_append_iff.1 h with ⟨a, rfl, rfl⟩ | ⟨a, rfl, rfl⟩
  all_goals
    rw [List.length_append, List.count_append] at hlength
    have hnil : a = [] := List.eq_nil_of_length_eq_zero (by omega)
    simp [hnil]

/-! ## What stands before -/

/-- Past the skipped characters the text begins with a sigma that no letter follows: it is the
    final one, or not, by what stands before the text. -/
def opensFinal : Text → Bool
  | [] => false
  | c :: cs =>
    if c = capitalSigma then !meetsCased cs
    else inRanges caseIgnorableRanges c.toNat && opensFinal cs

theorem capitalSigma_mem_of_opensFinal {s : Text} (h : opensFinal s = true) : capitalSigma ∈ s := by
  induction s with
  | nil => exact absurd h Bool.false_ne_true
  | cons c cs ih =>
    rw [opensFinal] at h
    split at h
    · next hc => exact List.mem_cons.2 (.inl hc.symm)
    · exact List.mem_cons.2 (.inr (ih (Bool.and_eq_true_iff.1 h).2))

theorem meetsCased_capitalSigma (s : Text) : meetsCased (capitalSigma :: s) = true := by
  have hskipped : inRanges caseIgnorableRanges capitalSigma.toNat = false := by decide +kernel
  have hcased : inRanges casedRanges capitalSigma.toNat = true := by decide
  rw [meetsCased, hskipped, hcased]
  rfl

theorem lowerAfter_eq_iff {before before' : Text} (h : meetsCased before = true)
    (h' : meetsCased before' = false) (s : Text) :
    lowerAfter before s = lowerAfter before' s ↔ opensFinal s = false := by
  induction s generalizing before before' with
  | nil => simp [lowerAfter, opensFinal]
  | cons c cs ih =>
    rw [lowerAfter_cons, lowerAfter_cons, lowerBetween, lowerBetween, opensFinal]
    by_cases hc : c = capitalSigma
    · -- a sigma is cased itself, so only its own form depends on what stands before it
      have hrest : lowerAfter (c :: before) cs = lowerAfter (c :: before') cs :=
        lowerAfter_congr (by rw [hc, meetsCased_capitalSigma, meetsCased_capitalSigma]) cs
      have hne : finalSigma ≠ smallSigma := by decide
      rw [if_pos hc, if_pos hc, if_pos hc, h, h', hrest]
      cases meetsCased cs <;> simp [hne]
    · rw [if_neg hc, if_neg hc, if_neg hc, List.append_cancel_left_eq]
      cases hskip : inRanges caseIgnorableRanges c.toNat with
      | true =>
        rw [Bool.true_and]
        exact ih (by rw [meetsCased, hskip, if_pos rfl, h]) (by rw [meetsCased, hskip, if_pos rfl, h'])
      | false =>
        -- any other character that is not skipped hides what stands before it
        have hrest : lowerAfter (c :: before) cs = lowerAfter (c :: before') cs :=
          lowerAfter_congr (by rw [meetsCased, meetsCased, hskip]; rfl) cs
        simp [hrest]

/-- A text reads in `lowerAfter` as it does alone, unless a letter before it makes its sigma the
    final one. -/
theorem lowerAfter_eq_lower_iff (before s : Text) :
    lowerAfter before s = lower s ↔ (meetsCased before && opensFinal s) = false := by
  cases h : meetsCased before with
  | true => rw [Bool.true_and]; exact lowerAfter_eq_iff h rfl s
  | false =>
    have hnone : meetsCased before = meetsCased [] := h
    simp [lower, lowerAfter_congr hnone]

/-- The two capitals leave such characters in lower case. -/
def isTrace (c : Char) : Bool := c == dotAbove || c == smallSigma || c == finalSigma

/-- `lowerAfter` shows by `isTrace` whether one of the two capitals was there. -/
theorem not_mem_of_lowerAfter {before s : Text} (h : (lowerAfter before s).any isTrace = false) :
    dottedI ∉ s ∧ capitalSigma ∉ s := by
  induction s generalizing before with
  | nil => exact ⟨List.not_mem_nil, List.not_mem_nil⟩
  | cons c cs ih =>
    rw [lowerAfter_cons, List.any_append, Bool.or_eq_false_iff] at h
    obtain ⟨hdotted, hsigma⟩ := ih h.2
    have hhead := List.any_eq_false.1 h.1
    refine ⟨?_, ?_⟩
    · rintro (_ | ⟨_, hmem⟩)
      · exact hhead dotAbove (by simp [lowerBetween_dottedI]) (by decide)
      · exact hdotted hmem
    · rintro (_ | ⟨_, hmem⟩)
      · have htrace := hhead _ (by rw [lowerBetween, if_pos rfl]; exact List.mem_singleton_self _)
        split at htrace <;> exact htrace (by decide)
      · exact hsigma hmem

end Text

namespace Settings

open Text

/-! ## The place of the extension -/

/-- The output is named as the input is, with the target extension in place of an ending that is the
    source extension in whatever case. -/
def ReplacesExtension (s : Settings) (p : Path) : Prop :=
  ∃ base suffix : Text, p.name = base ++ suffix ∧ lower suffix = lower s.sourceExtension.text ∧
    s.outputPath? p = some ⟨p.start, p.parts.dropLast ++ [base ++ s.targetExtension.text]⟩

theorem exists_split_of_accepts {s : Settings} {p : Path} (h : s.accepts p = true) :
    ∃ base suffix : Text, p.name = base ++ suffix ∧
      lowerAfter base.reverse suffix = lower s.sourceExtension.text := by
  obtain ⟨w, hw⟩ := List.isSuffixOf_iff_suffix.1 h
  rw [Extension.text, lower_dot] at hw ⊢
  obtain ⟨base, suffix, hname, hlower⟩ := exists_split_of_lowerAfter hw.symm
  exact ⟨base, suffix, hname, by simpa using hlower⟩

section

variable {s : Settings} {p : Path} {base suffix before : Text}

theorem length_ending (hlower : lowerAfter before suffix = lower s.sourceExtension.text) :
    suffix.length + suffix.count dottedI =
      s.sourceExtension.text.length + s.sourceExtension.text.count dottedI := by
  rw [← length_lowerAfter before suffix, hlower, lower, length_lowerAfter]

/-- What `outputName` keeps of the name ends too late by the capitals with a dot in the extension,
    and too early by those in the ending of the name. -/
theorem outputName_of_ending (hname : p.name = base ++ suffix)
    (hlower : lowerAfter before suffix = lower s.sourceExtension.text) :
    s.outputName p.name =
      p.name.take (base.length + s.sourceExtension.text.count dottedI - suffix.count dottedI) ++
        s.targetExtension.text := by
  have hlength := length_ending hlower
  have hkept : p.name.length - s.sourceExtension.text.length =
      base.length + s.sourceExtension.text.count dottedI - suffix.count dottedI := by
    rw [hname, List.length_append]
    omega
  rw [outputName, hkept]

theorem outputName_eq_iff (hname : p.name = base ++ suffix)
    (hlower : lowerAfter before suffix = lower s.sourceExtension.text) :
    s.outputName p.name = base ++ s.targetExtension.text ↔
      suffix.count dottedI = s.sourceExtension.text.count dottedI ∨
        base = [] ∧ s.sourceExtension.text.count dottedI ≤ suffix.count dottedI := by
  have hlength := length_ending hlower
  have hkept : (base ++ suffix).take (base.length + suffix.length - s.sourceExtension.text.length) =
      base ↔ base.length + suffix.length - s.sourceExtension.text.length = base.length := by
    constructor
    · intro h
      have htake := congrArg List.length h
      rw [List.length_take, List.length_append] at htake
      omega
    · intro h
      rw [h, List.take_left]
  rw [outputName, hname, List.append_cancel_right_eq, List.length_append, hkept,
    ← List.length_eq_zero_iff]
  omega

theorem outputPath?_of_ending (hname : p.name = base ++ suffix)
    (hlower : lowerAfter before suffix = lower s.sourceExtension.text) :
    s.outputPath? p =
      if Path.isName (s.outputName p.name) then
        some ⟨p.start, p.parts.dropLast ++ [s.outputName p.name]⟩
      else none := by
  have hsuffix : suffix ≠ [] := by
    rintro rfl
    rw [Extension.text, lower_dot] at hlower
    exact List.cons_ne_nil _ _ hlower.symm
  have hne : p.name.isEmpty = false := by
    rw [hname, List.isEmpty_eq_false_iff]
    exact List.append_ne_nil_of_right_ne_nil base hsuffix
  rw [outputPath?, Path.withName?, hne, Bool.not_false, Bool.true_and]

/-- The extension can only be replaced at the ending that the check has found. -/
theorem replacesExtension_iff_outputName (hname : p.name = base ++ suffix)
    (hlower : lowerAfter before suffix = lower s.sourceExtension.text) :
    s.ReplacesExtension p ↔ Path.isName (s.outputName p.name) = true ∧
      s.outputName p.name = base ++ s.targetExtension.text ∧
      lower suffix = lower s.sourceExtension.text := by
  constructor
  · rintro ⟨base', suffix', hname', hlower', houtput⟩
    obtain ⟨-, hisName, hpath⟩ := Path.outputPath?_eq_some.1 houtput
    have hlength : suffix'.length + suffix'.count dottedI = suffix.length + suffix.count dottedI :=
      (length_ending hlower').trans (length_ending hlower).symm
    obtain ⟨rfl, rfl⟩ := split_eq_of_length_lower (hname'.symm.trans hname) hlength
    have hlast := congrArg Path.name hpath
    rw [Path.name_concat, Path.name_concat] at hlast
    exact ⟨hisName, hlast.symm, hlower'⟩
  · rintro ⟨hisName, houtput, halone⟩
    refine ⟨base, suffix, hname, halone, ?_⟩
    rw [outputPath?_of_ending hname hlower, if_pos hisName, houtput]

end

/-- A name that `accepts` allows splits into a base and an ending that reads there as the source
    extension does. The target extension replaces that ending exactly if it can stand after the base
    in a name, if as many capitals with a dot are in the ending as in the extension (or if no base
    is left to be cut), and if the base does not make a sigma of the ending the final one. An
    extension in which the two capitals leave no trace is always replaced. -/
theorem accepted_output (s : Settings) (p : Path) (h : s.accepts p = true) :
    ∃ base suffix : Text, p.name = base ++ suffix ∧
      lowerAfter base.reverse suffix = lower s.sourceExtension.text ∧
      s.outputName p.name =
        p.name.take (base.length + s.sourceExtension.text.count dottedI - suffix.count dottedI) ++
          s.targetExtension.text ∧
      s.outputPath? p =
        (if Path.isName (s.outputName p.name) then
          some ⟨p.start, p.parts.dropLast ++ [s.outputName p.name]⟩
        else none) ∧
      (s.ReplacesExtension p ↔ Path.isName (s.outputName p.name) = true ∧
        (suffix.count dottedI = s.sourceExtension.text.count dottedI ∨
          base = [] ∧ s.sourceExtension.text.count dottedI ≤ suffix.count dottedI) ∧
        (meetsCased base.reverse && opensFinal suffix) = false) ∧
      ((lower s.sourceExtension.text).any isTrace = false →
        (s.ReplacesExtension p ↔ Path.isName (s.outputName p.name) = true)) := by
  obtain ⟨base, suffix, hname, hlower⟩ := exists_split_of_accepts h
  have hreplaces := replacesExtension_iff_outputName hname hlower
  have hcut := outputName_eq_iff hname hlower
  have halone : lower suffix = lower s.sourceExtension.text ↔
      (meetsCased base.reverse && opensFinal suffix) = false := by
    rw [← hlower, eq_comm, lowerAfter_eq_lower_iff]
  refine ⟨base, suffix, hname, hlower, outputName_of_ending hname hlower,
    outputPath?_of_ending hname hlower, ?_, fun htraces => ?_⟩
  · rw [hreplaces, hcut, halone]
  · obtain ⟨hsource, -⟩ := not_mem_of_lowerAfter htraces
    obtain ⟨hsuffix, hsigma⟩ := not_mem_of_lowerAfter (hlower ▸ htraces)
    have houtput : s.outputName p.name = base ++ s.targetExtension.text := by
      rw [hcut, List.count_eq_zero_of_not_mem hsource, List.count_eq_zero_of_not_mem hsuffix]
      exact .inl rfl
    have hopens : opensFinal suffix = false :=
      Bool.eq_false_iff.2 (mt capitalSigma_mem_of_opensFinal hsigma)
    rw [hreplaces, halone, hopens, Bool.and_false]
    exact ⟨And.left, fun hisName => ⟨hisName, houtput, rfl⟩⟩

def kornShell : Settings := { sourceExtension := ⟨"ksh"⟩ }

/-- A script whose name is in capitals, the sign for the kelvin among them. -/
def kelvinScript : Path := ⟨.here, ["jobs", "LOUD.".toList ++ Char.ofNat 0x212A :: "SH".toList]⟩

theorem accepted_output_kelvin :
    kornShell.accepts kelvinScript = true ∧ kornShell.ReplacesExtension kelvinScript := by
  have haccepts : kornShell.accepts kelvinScript = true := by decide +kernel
  obtain ⟨-, -, -, -, -, -, -, hreplaces⟩ := accepted_output kornShell kelvinScript haccepts
  exact ⟨haccepts, (hreplaces (by decide)).2 (by decide +kernel)⟩

/-- The extension is a small i with a dot above it, `dotAbove`. -/
def dottedShell : Settings := { sourceExtension := ⟨['i', dotAbove]⟩ }

def dottedScript : Path := ⟨.here, [['x', '.', dottedI]]⟩

/-- The capital in the name is one character and the extension has two, so the base is cut too. -/
theorem output_of_dottedScript :
    dottedShell.accepts dottedScript = true ∧
      dottedShell.outputPath? dottedScript = some ⟨.here, [".sh"]⟩ ∧
      ¬ dottedShell.ReplacesExtension dottedScript := by
  have houtput : dottedShell.outputPath? dottedScript = some ⟨.here, [".sh"]⟩ := by decide +kernel
  refine ⟨by decide +kernel, houtput, ?_⟩
  rintro ⟨base, suffix, hname, hlower, hreplaced⟩
  have hlast := congrArg Path.name (Option.some.inj (hreplaced.symm.trans houtput))
  rw [Path.name_concat] at hlast
  have hbase : base = [] := List.append_left_eq_self.1 hlast
  rw [hbase, List.nil_append] at hname
  rw [← hname] at hlower
  exact absurd hlower (by decide +kernel)

end Settings

end Seashell
