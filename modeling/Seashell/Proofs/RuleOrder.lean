import Mathlib.Data.List.Basic
import Seashell.Proofs.Recognition

set_option autoImplicit false

/-! # The order of the rules

A line is recognised by at most one rule besides the one for every line, but for a default arm that
may be read as a label (`Rule.pair_of_recognize?`): its opening names the rule. So a table may list
its rules in any order in which `passthrough`, the rule for every line, is the last and default arms
come before labels (`Rule.Ordered`): the rule that decides a line can be named without the table
(`Rule.Decides`), and `Ordered.decides_select` says that an ordered table selects it. Where labels
come first, `default:` shows that the table is another one, which gives the other direction of
`Rule.order_matters_for_one_pair`.

The standard table is ordered, and what other modules need of the order are three consequences:
`select_standard`, `select_of_recognize?` and `select_passthrough`. -/

namespace Seashell

open Text

namespace Rule

/-! ## Rules that recognise the same line -/

/-- Of two rules that recognise a line by `recognize?`, one is for default arms and the other for
    labels. -/
theorem pair_of_recognize? {r s : Rule} {line : Text} (hr : r ≠ .passthrough)
    (hs : s ≠ .passthrough) (hne : r ≠ s) (hrline : (r.recognize? line).isSome = true)
    (hsline : (s.recognize? line).isSome = true) :
    r = .defaultArm ∧ s = .label ∨ r = .label ∧ s = .defaultArm := by
  obtain ⟨st, hst⟩ := Option.isSome_iff_exists.1 hrline
  obtain ⟨st', hst'⟩ := Option.isSome_iff_exists.1 hsline
  rcases (recognize?_reads hr hst).opening with hropen | ⟨hrlabel, hrdefault⟩
  · rcases (recognize?_reads hs hst').opening with hsopen | ⟨hslabel, hsdefault⟩
    · exact absurd (hropen.symm.trans hsopen) hne
    · exact .inl ⟨hropen.symm.trans hsdefault, hslabel⟩
  · rcases (recognize?_reads hs hst').opening with hsopen | ⟨hslabel, _⟩
    · exact .inr ⟨hrlabel, hsopen.symm.trans hrdefault⟩
    · exact absurd (hrlabel.trans hslabel.symm) hne

/-- The lines that are read both ways are `default:` with blanks behind it. -/
theorem recognize?_defaultArm_label_iff {line : Text} :
    (recognize? .defaultArm line).isSome = true ∧ (recognize? .label line).isSome = true ↔
      ∃ rest : Text, allBlank rest = true ∧ line = "default:" ++ rest := by
  constructor
  · rintro ⟨hdefault, hlabel⟩
    obtain ⟨st, hst⟩ := Option.isSome_iff_exists.1 hlabel
    obtain ⟨name, rest, hname, hrest, -, rfl⟩ := Statement.label?_eq_some_iff.1 hst
    obtain ⟨st', hst'⟩ := Option.isSome_iff_exists.1 hdefault
    simp only [recognize?, Statement.defaultArm?, Option.bind_eq_bind, Option.pure_def,
      Option.bind_eq_some_iff] at hst'
    obtain ⟨s₀, h₀, s₁, h₁, -⟩ := hst'
    have hparts : stops isNameChar s₀ = true := by
      obtain ⟨g, hg, rfl⟩ := (Statement.afterMark?_eq_some_iff (by decide)).1 h₁
      exact stops_blanks_append hg (fun c => isNameChar_of_isBlank) rfl
    -- the name at the start of the line is the keyword
    have hkeyword : name = "default".toList := by
      have htake := congrArg (List.takeWhile isNameChar) (after?_eq_some_iff.1 h₀)
      rwa [takeWhile_append_of_stops (forall_of_isName hname) rfl,
        takeWhile_append_of_stops (List.all_eq_true.1 (by decide)) hparts] at htake
    exact ⟨rest, allBlank_iff.2 hrest, by rw [hkeyword]; rfl⟩
  · rintro ⟨rest, hrest, rfl⟩
    have hlabel : recognize? .label ("default:" ++ rest) = some (.label "default") :=
      Statement.label?_eq_some_iff.2 ⟨"default", rest, by decide, allBlank_iff.1 hrest, rfl, rfl⟩
    exact ⟨rfl, by rw [hlabel]; rfl⟩

/-! ## The rule that decides a line -/

/-- The rule by which a line is read, and the statement, whatever the order of the rules. -/
structure Decides (r : Rule) (line : Text) (st : Statement) : Prop where
  reads : r.recognize? line = some st
  /-- The rule for every line is left with what no other rule recognises. -/
  last : r = .passthrough → ∀ s : Rule, s ≠ .passthrough → s.recognize? line = none
  /-- A default arm is not taken for a label. -/
  arm : r = .label → recognize? .defaultArm line = none

/-- A line is read in one way, by `Decides`. -/
theorem Decides.unique {r s : Rule} {line : Text} {st st' : Statement} (hr : r.Decides line st)
    (hs : s.Decides line st') : r = s ∧ st = st' := by
  have hsome : (r.recognize? line).isSome = true := by rw [hr.reads]; rfl
  have hsome' : (s.recognize? line).isSome = true := by rw [hs.reads]; rfl
  by_cases hne : r = s
  · subst hne
    exact ⟨rfl, Option.some.inj (hr.reads.symm.trans hs.reads)⟩
  · by_cases hrlast : r = .passthrough
    · rw [hr.last hrlast s fun he => hne (hrlast.trans he.symm)] at hsome'
      cases hsome'
    · by_cases hslast : s = .passthrough
      · rw [hs.last hslast r hrlast] at hsome
        cases hsome
      · rcases pair_of_recognize? hrlast hslast hne hsome hsome' with ⟨rfl, rfl⟩ | ⟨rfl, rfl⟩
        · rw [hs.arm rfl] at hsome
          cases hsome
        · rw [hr.arm rfl] at hsome'
          cases hsome'

/-! ## Tables -/

/-- The rules in an order that keeps to what the `standard` table is ordered for. -/
structure Ordered (table : List Rule) : Prop where
  perm : table.Perm standard
  last : table.getLast? = some .passthrough
  arm : table.idxOf .defaultArm < table.idxOf .label

theorem ordered_standard : Ordered standard := ⟨.refl _, by decide, by decide⟩

theorem mem_of_perm {table : List Rule} (hperm : table.Perm standard) (r : Rule) : r ∈ table := by
  refine hperm.mem_iff.2 ?_
  cases r <;> decide

/-- By `idxOf` every rule stands before the last one. -/
theorem idxOf_lt_last {table : List Rule} {r s : Rule} (hperm : table.Perm standard)
    (hlast : table.getLast? = some r) (hs : s ≠ r) : table.idxOf s < table.idxOf r := by
  obtain ⟨before, rfl⟩ := List.getLast?_eq_some_iff.1 hlast
  have hnodup : (before ++ [r]).Nodup := hperm.nodup_iff.2 (by decide)
  have hr : r ∉ before := fun hm =>
    (List.nodup_append.1 hnodup).2.2 r hm r (List.mem_singleton.2 rfl) rfl
  have hbefore : s ∈ before := by simpa [hs] using mem_of_perm hperm s
  rw [List.idxOf_append, if_pos hbefore, List.idxOf_append, if_neg hr, List.idxOf_cons_self]
  have := List.idxOf_lt_length_of_mem hbefore
  omega

/-- The rule of `select` recognises the line, and no rule before it does. -/
theorem select_first {table : List Rule} (htable : Rule.passthrough ∈ table) (line : Text) :
    (select table line).1.recognize? line = some (select table line).2 ∧
      ∀ s, table.idxOf s < table.idxOf (select table line).1 → s.recognize? line = none := by
  have hsome : (table.findSome? fun r => (r.recognize? line).map (r, ·)).isSome = true := by
    rw [List.findSome?_isSome_iff]
    exact ⟨.passthrough, htable, rfl⟩
  obtain ⟨found, hfind⟩ := Option.isSome_iff_exists.1 hsome
  obtain ⟨before, r, after, rfl, hr, hbefore⟩ := List.findSome?_eq_some_iff.1 hfind
  obtain ⟨st, hst, rfl⟩ := Option.map_eq_some_iff.1 hr
  rw [select, hfind, Option.getD_some]
  refine ⟨hst, fun s hs => ?_⟩
  by_cases hmem : s ∈ before
  · exact Option.map_eq_none_iff.1 (hbefore s hmem)
  · have hle : (before ++ r :: after).idxOf r ≤ before.length := by
      rw [List.idxOf_append]
      split
      · rename_i hr
        exact Nat.le_of_lt (List.idxOf_lt_length_of_mem hr)
      · exact Nat.le_of_eq (by rw [List.idxOf_cons_self, Nat.zero_add])
    dsimp only at hs
    rw [List.idxOf_append, if_neg hmem] at hs
    omega

/-- **The rule that `select` finds in a table decides the line**, if the table is ordered. -/
theorem Ordered.decides_select {table : List Rule} (h : Ordered table) (line : Text) :
    (select table line).1.Decides line (select table line).2 := by
  obtain ⟨hreads, hbefore⟩ := select_first (mem_of_perm h.perm .passthrough) line
  refine ⟨hreads, fun hlast s hs => hbefore s ?_, fun hlabel => hbefore .defaultArm ?_⟩
  · rw [hlast]
    exact idxOf_lt_last h.perm h.last hs
  · rw [hlabel]
    exact h.arm

theorem Ordered.select_eq {table : List Rule} {line : Text} {r : Rule} {st : Statement}
    (h : Ordered table) (hr : r.Decides line st) : select table line = (r, st) := by
  obtain ⟨hrule, hstatement⟩ := (h.decides_select line).unique hr
  exact Prod.ext hrule hstatement

/-! ## The standard table -/

/-- The `standard` table always finds a rule, since its last one recognises every line. -/
theorem recognize?_select (s : Text) :
    (select standard s).1.recognize? s = some (select standard s).2 :=
  (ordered_standard.decides_select s).reads

/-- **A rule that `ofOpening` calls for and that recognises a line is selected.** -/
theorem select_standard {r : Rule} {s : Text} {st : Statement} (hr : r ≠ .passthrough)
    (hopening : ofOpening s = r) (h : r.recognize? s = some st) : select standard s = (r, st) := by
  refine ordered_standard.select_eq ⟨h, fun hlast => absurd hlast hr, fun hlabel => ?_⟩
  cases harm : recognize? .defaultArm s with
  | none => rfl
  | some st' =>
    -- the opening would call for a default arm
    rcases (recognize?_reads (by decide) harm).opening with hdefault | ⟨hdefault, _⟩
    · rw [hopening, hlabel] at hdefault
      cases hdefault
    · cases hdefault

/-- What a rule recognises, it converts, unless it is `label` or `passthrough`. -/
theorem select_of_recognize? {r : Rule} {s : Text} {st : Statement} (hr : r ≠ .passthrough)
    (hlabel : r ≠ .label) (h : r.recognize? s = some st) : select standard s = (r, st) :=
  ordered_standard.select_eq ⟨h, fun he => absurd he hr, fun he => absurd he hlabel⟩

/-- A line that no rule but `passthrough` recognises stays as it is. -/
theorem select_passthrough {s : Text}
    (h : ∀ r : Rule, r ≠ .passthrough → r.recognize? s = none) :
    select standard s = (.passthrough, .verbatim) :=
  ordered_standard.select_eq ⟨rfl, fun _ => h, nofun⟩

/-! ## Other tables -/

/-- Where labels come before default arms, `default:` is a label. -/
theorem select_default_of_lt {table : List Rule} (hperm : table.Perm standard)
    (hlast : table.getLast? = some .passthrough)
    (h : table.idxOf .label < table.idxOf .defaultArm) : (select table "default:").1 = .label := by
  obtain ⟨hreads, hbefore⟩ := select_first (mem_of_perm hperm .passthrough) "default:"
  have hlabel : recognize? .label "default:" = some (.label "default") := by decide
  -- a rule behind the one for labels is not reached
  have hnot : ¬ table.idxOf .label < table.idxOf (select table "default:").1 := by
    intro hlt
    rw [hbefore .label hlt] at hlabel
    cases hlabel
  have hpass : (select table "default:").1 ≠ .passthrough := by
    intro he
    rw [he] at hnot
    exact hnot (idxOf_lt_last hperm hlast (by decide))
  have hsome : ((select table "default:").1.recognize? "default:").isSome = true := by
    rw [hreads]
    rfl
  by_cases hne : (select table "default:").1 = .label
  · exact hne
  · rcases pair_of_recognize? hpass (by decide) hne hsome (by rw [hlabel]; rfl) with
      ⟨hdefault, _⟩ | ⟨he, _⟩
    · rw [hdefault] at hnot
      exact absurd h hnot
    · exact he

end Rule

/-- **One pair of rules has to be in order.** A table of all rules with `passthrough`, the one for
    every line, at its end converts every line as the standard table does, in every function block,
    exactly if default arms come before labels. No other two rules recognise the same line, and
    these two only `default:` with blanks behind it. -/
theorem Rule.order_matters_for_one_pair :
    (∀ table : List Rule, table.Perm standard → table.getLast? = some .passthrough →
      ((∀ block line, Outcome.ofLine table block line = Outcome.ofLine standard block line) ↔
        table.idxOf .defaultArm < table.idxOf .label)) ∧
    ∀ (line : Text) (r s : Rule), r ≠ .passthrough → s ≠ .passthrough → r ≠ s →
      ((r.recognize? line).isSome = true ∧ (s.recognize? line).isSome = true ↔
        (r = .defaultArm ∧ s = .label ∨ r = .label ∧ s = .defaultArm) ∧
          ∃ rest : Text, allBlank rest = true ∧ line = "default:" ++ rest) := by
  refine ⟨fun table hperm hlast => ⟨fun hsame => ?_, fun harm block line => ?_⟩,
    fun line r s hr hs hne => ⟨fun ⟨hrline, hsline⟩ => ?_, fun ⟨hpair, hline⟩ => ?_⟩⟩
  -- a table that agrees has default arms first
  · have hdiffer : table.idxOf .defaultArm ≠ table.idxOf .label := fun he =>
      absurd ((List.idxOf_inj (mem_of_perm hperm _)).1 he) (by decide)
    have hnot : ¬ table.idxOf .label < table.idxOf .defaultArm := by
      intro hlt
      have hrule : (select table "default:").1 = .defaultArm :=
        congrArg Outcome.rule (hsame .closed "default:")
      rw [select_default_of_lt hperm hlast hlt] at hrule
      cases hrule
    omega
  -- an ordered table agrees
  · have hselect : select table line = select standard line :=
      Ordered.select_eq ⟨hperm, hlast, harm⟩ (ordered_standard.decides_select line)
    simp only [Outcome.ofLine, hselect]
  -- two rules that recognise a line
  · have hpair := pair_of_recognize? hr hs hne hrline hsline
    refine ⟨hpair, recognize?_defaultArm_label_iff.1 ?_⟩
    rcases hpair with ⟨rfl, rfl⟩ | ⟨rfl, rfl⟩
    · exact ⟨hrline, hsline⟩
    · exact ⟨hsline, hrline⟩
  · obtain ⟨hdefault, hlabel⟩ := recognize?_defaultArm_label_iff.2 hline
    rcases hpair with ⟨rfl, rfl⟩ | ⟨rfl, rfl⟩
    · exact ⟨hdefault, hlabel⟩
    · exact ⟨hlabel, hdefault⟩

/-- The rules backwards, but for `passthrough` and the pair. -/
def Rule.backwards : List Rule :=
  [.source, .defaultArm, .goto, .unalias, .alias, .endLoop, .endSwitch, .label, .breakSwitch,
    .caseArm, .switchOn, .foreachLoop, .whileLoop, .endIf, .elseBranch, .elseIf, .ifTest, .ifNot,
    .cd, .set, .setenv, .blockComment, .header, .passthrough]

theorem Rule.order_backwards :
    backwards.Perm standard ∧ backwards.getLast? = some .passthrough ∧
      backwards.idxOf .defaultArm < backwards.idxOf .label ∧
      (∀ block line, Outcome.ofLine backwards block line = Outcome.ofLine standard block line) ∧
      ((recognize? .label "default: \n").isSome = true ∧
        (recognize? .defaultArm "default: \n").isSome = true) := by
  have hperm : backwards.Perm standard := by decide
  obtain ⟨horder, hpairs⟩ := order_matters_for_one_pair
  refine ⟨hperm, by decide, by decide, (horder backwards hperm (by decide)).2 (by decide), ?_⟩
  exact (hpairs "default: \n" .label .defaultArm (by decide) (by decide) (by decide)).2
    ⟨.inr ⟨rfl, rfl⟩, " \n", by decide, rfl⟩

end Seashell
