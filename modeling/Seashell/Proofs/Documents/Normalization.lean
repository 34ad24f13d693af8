import Seashell.Proofs.Documents.Reports

set_option autoImplicit false

/-! # Reports of any shape

A report is read from a document whose fields may have any shape: a text counts as the list of its
characters, a mapping as the list of its keys, pairs as a mapping, and a set keeps one of equal
members. When the report is written again, all of this is in the form in which it is read without a
change.

The one field in which reading and writing do something to such a form is the set of undefined
targets, which is kept in order of arrival and written in ascending order. What is read for it is an
`IsSet` (`isSet_of_ofValue`), an `IsSet` is read as it is (`IsSet.toMembers_list`), and what was
sorted stays so when it is sorted again (`IsSet.sort_sort`). With `ofValue_written`, which says what
has become of all fields, this gives `normalised_once`. -/

namespace Seashell

namespace Value

/-! ## Sets -/

/-- The value can be a member of a set, and it is no float, day or moment. -/
def isPlainAtom : Value → Bool
  | .null | .bool _ | .int _ | .text _ => true
  | _ => false

theorem isAtom_of_isPlainAtom {v : Value} (h : v.isPlainAtom = true) : v.isAtom = true := by
  cases v with
  | list | mapping => cases h
  | _ => rfl

theorem same_comm {a b : Value} (ha : a.isPlainAtom = true) (hb : b.isPlainAtom = true) :
    same a b = same b a := by
  cases a with
  | null | bool | int | text =>
    cases b with
    | null | bool | int | text => simp [same, Bool.beq_comm]
    | _ => cases hb
  | _ => cases ha

/-- Values of which none equals a later one. -/
def Distinct (vs : List Value) : Prop := vs.Pairwise fun a b => same a b = false

/-- The values `vs` as the members of a set: plain atoms, no two of them equal. -/
structure IsSet (vs : List Value) : Prop where
  plain : ∀ v ∈ vs, v.isPlainAtom = true
  distinct : Distinct vs

theorem IsSet.addMember {members : List Value} {v : Value} (h : IsSet members)
    (hv : v.isPlainAtom = true) : IsSet (addMember members v) := by
  unfold Value.addMember
  split
  · exact h
  · rename_i hnew
    have hnew : ∀ a ∈ members, same a v = false := by simpa using hnew
    refine ⟨fun a ha => ?_, List.pairwise_append.2 ⟨h.distinct, List.pairwise_singleton _ _, ?_⟩⟩
    · rcases List.mem_append.1 ha with ha | ha
      · exact h.plain a ha
      · rwa [List.mem_singleton.1 ha]
    · intro a ha b hb
      rw [List.mem_singleton.1 hb]
      exact hnew a ha

theorem IsSet.foldl_addMember {members vs : List Value} (h : IsSet members)
    (hvs : ∀ v ∈ vs, v.isPlainAtom = true) : IsSet (vs.foldl Value.addMember members) := by
  induction vs generalizing members with
  | nil => exact h
  | cons v vs ih =>
    obtain ⟨hv, hvs⟩ := List.forall_mem_cons.1 hvs
    exact ih (h.addMember hv) hvs

/-- An `IsSet` stays one in any order. -/
theorem IsSet.perm {vs ws : List Value} (h : IsSet vs) (hperm : ws.Perm vs) : IsSet ws := by
  have hplain : ∀ v ∈ ws, v.isPlainAtom = true := fun v hv => h.plain v (hperm.mem_iff.1 hv)
  refine ⟨hplain, ?_⟩
  -- equality is symmetric among plain atoms, so being one is made part of the relation
  have hboth : vs.Pairwise fun a b =>
      (a.isPlainAtom = true ∧ b.isPlainAtom = true) ∧ same a b = false :=
    List.Pairwise.imp_of_mem (fun ha hb hab => ⟨⟨h.plain _ ha, h.plain _ hb⟩, hab⟩) h.distinct
  have hsymm : ∀ {a b : Value}, (a.isPlainAtom = true ∧ b.isPlainAtom = true) ∧ same a b = false →
      (b.isPlainAtom = true ∧ a.isPlainAtom = true) ∧ same b a = false := by
    rintro a b ⟨⟨ha, hb⟩, hab⟩
    exact ⟨⟨hb, ha⟩, same_comm hb ha ▸ hab⟩
  exact ((hperm.symm.pairwise hboth) hsymm).imp And.right

/-- Reading an `IsSet` as a set changes nothing. -/
theorem IsSet.toMembers_list {vs : List Value} (h : IsSet vs) : (list vs).toMembers = .ok vs := by
  have hatoms : vs.all isAtom = true :=
    List.all_eq_true.2 fun v hv => isAtom_of_isPlainAtom (h.plain v hv)
  have hfold : vs.foldl Value.addMember [] = vs := foldl_addMember_of_pairwise [] h.distinct
  simp only [toMembers, toItems, items?, bind, Except.bind, hatoms]
  exact congrArg Except.ok hfold

/-! ## Order -/

/-- `sort` takes values of one kind, and at most one value of any kind. -/
theorem sort_eq_ok_iff {vs ws : List Value} :
    sort vs = .ok ws ↔
      (vs.length ≤ 1 ∨ ∃ kind, ∀ v ∈ vs, v.orderClass? = some kind) ∧ ws = vs.mergeSort le := by
  match vs with
  | [] => simp [sort, eq_comm]
  | [v] => simp [sort, eq_comm]
  | v :: w :: rest =>
    cases hkind : v.orderClass? with
    | none =>
      simp only [sort, hkind, reduceCtorEq, false_iff]
      rintro ⟨hlength | ⟨kind, hall⟩, _⟩
      · simp at hlength
      · rw [hall v List.mem_cons_self] at hkind
        cases hkind
    | some c =>
      simp only [sort, hkind]
      constructor
      · intro h
        split at h
        · rename_i hall
          refine ⟨.inr ⟨c, List.forall_mem_cons.2 ⟨hkind, ?_⟩⟩, (Except.ok.inj h).symm⟩
          simpa [List.all_eq_true] using hall
        · cases h
      · rintro ⟨hlength | ⟨kind, hall⟩, rfl⟩
        · simp at hlength
        · obtain ⟨hfirst, hmore⟩ := List.forall_mem_cons.1 hall
          obtain rfl : c = kind := Option.some.inj (hkind.symm.trans hfirst)
          rw [if_pos]
          rw [List.all_eq_true]
          exact fun u hu => beq_iff_eq.2 (hmore u hu)

/-- Values that `le` compares by a `key` in a linear order are put in order. -/
theorem pairwise_mergeSort_of_key {κ : Type} {vs : List Value} (key : Value → κ)
    (keyLe : κ → κ → Bool) (htrans : ∀ a b c, keyLe a b = true → keyLe b c = true → keyLe a c = true)
    (htotal : ∀ a b, (keyLe a b || keyLe b a) = true)
    (hkey : ∀ a ∈ vs, ∀ b ∈ vs, le a b = keyLe (key a) (key b)) :
    (vs.mergeSort le).Pairwise fun a b => le a b = true := by
  have hsorted := List.pairwise_mergeSort htrans htotal (vs.map key)
  rw [← List.map_mergeSort hkey, List.pairwise_map] at hsorted
  have hmem : ∀ {v}, v ∈ vs.mergeSort le → v ∈ vs := (List.mergeSort_perm vs le).mem_iff.1
  refine List.Pairwise.imp_of_mem (fun ha hb hab => ?_) hsorted
  rw [hkey _ (hmem ha) _ (hmem hb)]
  exact hab

/-- Plain atoms (`isPlainAtom`) of one kind are put in order. -/
theorem pairwise_mergeSort {vs : List Value} {kind : OrderClass}
    (hplain : ∀ v ∈ vs, v.isPlainAtom = true) (hkind : ∀ v ∈ vs, v.orderClass? = some kind) :
    (vs.mergeSort le).Pairwise fun a b => le a b = true := by
  cases kind with
  | number =>
    have hint : ∀ v ∈ vs, ∃ n, v.toInt? = some n := by
      intro v hv
      have hp := hplain v hv
      have hk := hkind v hv
      cases v with
      | bool b => exact ⟨_, rfl⟩
      | int n => exact ⟨_, rfl⟩
      | null | text => cases hk
      | _ => cases hp
    refine pairwise_mergeSort_of_key (fun v => v.toInt?.getD 0) (fun m n => decide (m ≤ n)) ?_ ?_ ?_
    · intro a b c hab hbc
      simp only [decide_eq_true_eq] at hab hbc ⊢
      omega
    · intro a b
      simp only [Bool.or_eq_true, decide_eq_true_eq]
      omega
    · intro a ha b hb
      obtain ⟨m, hm⟩ := hint a ha
      obtain ⟨n, hn⟩ := hint b hb
      rw [hm, hn]
      cases a with
      | text | date => cases hm
      | _ => simp only [le, hm, hn, Option.getD_some]
  | text =>
    have htext : ∀ v ∈ vs, ∃ t, v = .text t := by
      intro v hv
      have hk := hkind v hv
      cases v with
      | text t => exact ⟨t, rfl⟩
      | _ => cases hk
    refine pairwise_mergeSort_of_key display (fun a b => !decide (b < a)) Text.sortLe_trans
      Text.sortLe_total ?_
    intro a ha b hb
    obtain ⟨t, rfl⟩ := htext a ha
    obtain ⟨u, rfl⟩ := htext b hb
    rfl
  | date | moment =>
    -- there are no such members
    have hnil : vs = [] := by
      refine List.eq_nil_iff_forall_not_mem.2 fun v hv => ?_
      have hp := hplain v hv
      have hk := hkind v hv
      cases v with
      | null | bool | int | text => cases hk
      | _ => cases hp
    rw [hnil, List.mergeSort_nil]
    exact List.Pairwise.nil

/-- What `sort` gives is in order, and sorting it again changes nothing. -/
theorem IsSet.sort_sort {vs ws : List Value} (h : IsSet vs) (hsort : sort vs = .ok ws) :
    sort ws = .ok ws := by
  obtain ⟨hkind, rfl⟩ := sort_eq_ok_iff.1 hsort
  have hperm := List.mergeSort_perm vs le
  refine sort_eq_ok_iff.2 ⟨?_, (List.mergeSort_of_pairwise ?_).symm⟩
  · rw [hperm.length_eq]
    rcases hkind with hlength | ⟨kind, hall⟩
    · exact .inl hlength
    · exact .inr ⟨kind, fun v hv => hall v (hperm.mem_iff.1 hv)⟩
  · rcases hkind with hlength | ⟨kind, hall⟩
    · match vs with
      | [] => simp
      | [v] => simp
      | v :: w :: rest => simp at hlength
    · exact pairwise_mergeSort h.plain hall

/-! ## What a document holds -/

theorem mem_of_lookup? {key v : Value} {entries : List (Value × Value)}
    (h : lookup? key entries = some v) : ∃ k, (k, v) ∈ entries := by
  induction entries with
  | nil => cases h
  | cons e rest ih =>
    obtain ⟨k, w⟩ := e
    rw [lookup?] at h
    split at h
    · exact ⟨k, by rw [Option.some.inj h]; exact List.mem_cons_self⟩
    · obtain ⟨k', hk⟩ := ih h
      exact ⟨k', List.mem_cons_of_mem _ hk⟩

namespace Portable

variable {isKey : Text → Prop} {levels : Nat}

theorem isPlainAtom {v : Value} (h : v.Portable isKey levels) (hatom : v.isAtom = true) :
    v.isPlainAtom = true := by
  cases h with
  | list | record => cases hatom
  | _ => rfl

/-- What a `Portable` value consists of is portable. -/
theorem of_mem_items? {v w : Value} {items : List Value} (h : v.Portable isKey levels)
    (hitems : v.items? = some items) (hw : w ∈ items) : ∃ levels, w.Portable isKey levels := by
  cases h with
  | null | bool | int => cases hitems
  | text t =>
    obtain rfl := Option.some.inj hitems
    obtain ⟨c, _, rfl⟩ := List.mem_map.1 hw
    exact ⟨0, .text _⟩
  | list each =>
    obtain rfl := Option.some.inj hitems
    exact ⟨_, each w hw⟩
  | record keys distinct each =>
    obtain rfl := Option.some.inj hitems
    obtain ⟨e, he, rfl⟩ := List.mem_map.1 hw
    obtain ⟨x, _, rfl⟩ := List.mem_map.1 he
    exact ⟨0, .text _⟩

/-- What stands under a key of a portable mapping is `Portable`, and so is the list that stands for
    an absent field. -/
theorem getD_lookup? {entries : List (Value × Value)} (h : (mapping entries).Portable isKey levels)
    (key : Value) : ∃ levels, ((lookup? key entries).getD (.list [])).Portable isKey levels := by
  cases hv : lookup? key entries with
  | none => exact ⟨1, .list (by simp)⟩
  | some v =>
    obtain ⟨k, hk⟩ := mem_of_lookup? hv
    generalize hm : mapping entries = m at h
    cases h with
    | record keys distinct each =>
      obtain rfl := mapping.inj hm
      obtain ⟨x, hx, he⟩ := List.mem_map.1 hk
      exact ⟨_, (Prod.mk.inj he).2 ▸ each x hx⟩
    | _ => cases hm

/-- A `Portable` value is read as a set: what `toMembers` gives is an `IsSet`. -/
theorem isSet_of_toMembers {v : Value} {vs : List Value} (h : v.Portable isKey levels)
    (hread : v.toMembers = .ok vs) : IsSet vs := by
  unfold toMembers toItems at hread
  split at hread
  · rename_i items hitems
    simp only [bind, Except.bind] at hread
    split at hread
    · rename_i hatoms
      obtain rfl := Except.ok.inj hread
      refine IsSet.foldl_addMember ⟨by simp, .nil⟩ fun w hw => ?_
      obtain ⟨_, hportable⟩ := h.of_mem_items? hitems hw
      exact hportable.isPlainAtom (List.all_eq_true.1 hatoms w hw)
    · cases hread
  · cases hread

end Portable
end Value

/-! ## Reports -/

theorem exists_of_bind_eq_ok {ε α β : Type} {x : Except ε α} {f : α → Except ε β} {b : β}
    (h : x >>= f = .ok b) : ∃ a, x = .ok a ∧ f a = .ok b := by
  cases x with
  | error e => cases h
  | ok a => exact ⟨a, rfl, h⟩

namespace ReportDocument

/-- The undefined targets of a report that `ofValue` has read are an `IsSet`. -/
theorem isSet_of_ofValue {isKey : Text → Prop} {levels : Nat} {d : Value} {r : ReportDocument}
    (hd : d.Portable isKey levels) (h : ofValue d = .ok r) : Value.IsSet r.undefinedGotoTargets := by
  unfold ofValue at h
  cases d with
  | mapping entries =>
    obtain ⟨_, hentries, h⟩ := exists_of_bind_eq_ok h
    obtain rfl := Except.ok.inj hentries
    obtain ⟨ruleUsage, _, h⟩ := exists_of_bind_eq_ok h
    obtain ⟨labels, _, h⟩ := exists_of_bind_eq_ok h
    obtain ⟨gotoTargets, _, h⟩ := exists_of_bind_eq_ok h
    obtain ⟨members, hmembers, h⟩ := exists_of_bind_eq_ok h
    obtain ⟨nestedLabels, _, h⟩ := exists_of_bind_eq_ok h
    obtain ⟨compound, _, h⟩ := exists_of_bind_eq_ok h
    obtain ⟨unconverted, _, h⟩ := exists_of_bind_eq_ok h
    obtain ⟨warnings, _, h⟩ := exists_of_bind_eq_ok h
    obtain rfl := Except.ok.inj h
    obtain ⟨_, hfield⟩ := hd.getD_lookup? (.text "undefined_goto_targets".toList)
    exact hfield.isSet_of_toMembers hmembers
  | _ => cases h

/-- A report that `toValue` has written is read with its undefined targets in the order in which
    they were written; nothing else has changed. -/
theorem ofValue_written {r : ReportDocument} {d : Value} {targets : List Value}
    (hsort : Value.sort r.undefinedGotoTargets = .ok targets) (h : r.toValue = .ok d) :
    ofValue d = (Value.list targets).toMembers.map fun members =>
      { r with undefinedGotoTargets := members } := by
  unfold toValue at h
  rw [hsort] at h
  obtain rfl := Except.ok.inj h
  rfl

theorem toValue_congr {r : ReportDocument} {targets : List Value}
    (h : Value.sort targets = Value.sort r.undefinedGotoTargets) :
    toValue { r with undefinedGotoTargets := targets } = r.toValue := by
  unfold toValue
  rw [h]

/-- **Reports are normalised when they are read once.** A report that `ofValue` has read from any
    document and `toValue` has written again is in a form that is read without fail, and what is
    then written is the same. -/
theorem normalised_once {levels : Nat} {d d₁ : Value} {r : ReportDocument}
    (hd : d.Portable (fun _ => True) levels) (hread : ofValue d = .ok r)
    (hwrite : r.toValue = .ok d₁) : ∃ r₁, ofValue d₁ = .ok r₁ ∧ r₁.toValue = .ok d₁ := by
  have hset := isSet_of_ofValue hd hread
  obtain ⟨targets, hsort, _⟩ : ∃ targets, Value.sort r.undefinedGotoTargets = .ok targets ∧ _ :=
    exists_of_bind_eq_ok hwrite
  have htargets : Value.IsSet targets :=
    hset.perm ((Value.sort_eq_ok_iff.1 hsort).2 ▸ List.mergeSort_perm _ _)
  refine ⟨{ r with undefinedGotoTargets := targets }, ?_, ?_⟩
  · rw [ofValue_written hsort hwrite, htargets.toMembers_list]
    rfl
  · rw [toValue_congr ((hset.sort_sort hsort).trans hsort.symm), hwrite]

/-- A document with a text and a mapping in place of lists, pairs in place of a mapping, and equal
    members in a set. -/
def oddShapes : Value :=
  .record [
    ("labels".toList, .text "ab"),
    ("rule_usage".toList, .list [.text "ab", .list [.text "a", .int 2], .list [.null, .list []]]),
    ("undefined_goto_targets".toList, .list [.int 3, .bool true, .int 1, .int (-2)]),
    ("warnings".toList, .record [("w".toList, .null)])]

theorem portable_oddShapes : oddShapes.Portable (fun _ => True) 4 := by
  have hpairs : Value.Portable (fun _ => True) 3
      (.list [.text "ab", .list [.text "a", .int 2], .list [.null, .list []]]) := by
    refine .list ?_
    simp only [List.forall_mem_cons]
    refine ⟨.text _, .list ?_, .list ?_, by simp⟩
    · simp only [List.forall_mem_cons]
      exact ⟨.text _, .int _, by simp⟩
    · simp only [List.forall_mem_cons]
      exact ⟨.null, .list (by simp), by simp⟩
  have hmembers : Value.Portable (fun _ => True) 3
      (.list [.int 3, .bool true, .int 1, .int (-2)]) := by
    refine .list ?_
    simp only [List.forall_mem_cons]
    exact ⟨.int _, .bool _, .int _, .int _, by simp⟩
  have hkeys : Value.Portable (fun _ => True) 3 (.record [("w".toList, .null)]) :=
    .record (fun _ _ => trivial) (by decide) (by simpa using .null)
  refine .record (fun _ _ => trivial) (by decide) ?_
  simp only [List.forall_mem_cons]
  exact ⟨.text _, hpairs, hmembers, hkeys, by simp⟩

/-- The `oddShapes` are read, written in their normal form, and kept from then on. -/
theorem normalised_once_oddShapes :
    oddShapes.Portable (fun _ => True) 4 ∧ ∃ r d₁,
      ofValue oddShapes = .ok r ∧ r.toValue = .ok d₁ ∧
      r.labels = [.text "a", .text "b"] ∧ r.warnings = [.text "w"] ∧
      r.ruleUsage = [(.text "a", .int 2), (.null, .list [])] ∧
      r.undefinedGotoTargets = [.int 3, .bool true, .int (-2)] ∧
      ∃ r₁, ofValue d₁ = .ok r₁ ∧ r₁.toValue = .ok d₁ :=
  ⟨portable_oddShapes, _, _, rfl, rfl, rfl, rfl, rfl, rfl,
    normalised_once portable_oddShapes rfl rfl⟩

end ReportDocument
end Seashell
