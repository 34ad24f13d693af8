import Seashell.Proofs.Documents.Yaml.Tokens
import Seashell.Yaml.Node

set_option autoImplicit false

/-! # Nodes of YAML that was written

The tokens of a value (`spelled`) spell one node, `nodeOf`, whatever follows them. A list that
stands under its key has no tokens for its beginning and end (`spelledUnder`), so that it is
followed by what cannot go on with it. `Spells` has both, and the tokens with which a value can
begin, by which the reader decides what to read; it is proved by induction over portable values.
`ofTokens_spelled` says it of a whole document. -/

namespace Seashell.Yaml

open Text Value

mutual

/-- The node that stands for a value, as the reader finds it. -/
def nodeOf : Value → Node
  | .text t => if styleOf t = .plain then .plain t else .literal t
  | .list vs => .list (itemNodes vs)
  | .mapping es => .mapping (entryNodes es)
  | v => .plain ((scalar? 0 0 v).getD [])

/-- The nodes of the items of a list, each by `nodeOf`. -/
def itemNodes : List Value → List Node
  | [] => []
  | v :: vs => nodeOf v :: itemNodes vs

/-- The nodes of the entries of a mapping, key and value by `nodeOf`. -/
def entryNodes : List (Value × Value) → List (Node × Node)
  | [] => []
  | (k, v) :: es => (nodeOf k, nodeOf v) :: entryNodes es

end

namespace Spelling

theorem node_flat {v : Value} (hv : Flat v) {fuel room : Nat} (hfuel : 2 ≤ fuel)
    (hroom : isCollection v = true → 1 ≤ room) (position : Position) (ts : List Token) :
    node fuel room position (scalarTokens v ++ ts) = .ok (nodeOf v, ts) := by
  obtain ⟨fuel, rfl⟩ : ∃ n, fuel = n + 2 := ⟨fuel - 2, by omega⟩
  cases hv with
  | null => simp [node, scalarTokens, nodeOf]
  | bool b => simp [node, scalarTokens, nodeOf]
  | int n => simp [node, scalarTokens, nodeOf]
  | text t =>
    simp only [scalarTokens, nodeOf]
    split <;> simp [node]
  | list =>
    have hpos : room ≠ 0 := Nat.ne_of_gt (hroom rfl)
    simp only [scalarTokens, List.cons_append, List.nil_append, node, if_neg hpos, flowItems]
    rfl
  | mapping =>
    have hpos : room ≠ 0 := Nat.ne_of_gt (hroom rfl)
    simp only [scalarTokens, List.cons_append, List.nil_append, node, if_neg hpos, flowEntries]
    rfl

theorem nodeOr_of_head {t : Token} {ts ends : List Token} (ht : t ∉ ends) (fuel room : Nat)
    (position : Position) :
    nodeOr (fuel + 1) room position ends (t :: ts) = node fuel room position (t :: ts) := by
  have hends : startsWith ends (t :: ts) = false := by simpa [startsWith] using ht
  rw [nodeOr, hends]
  rfl

/-- Tokens that stand before or after a value, never at the start of one. -/
def separators : List Token := [.dash, .key, .value, .blockEnd, .documentStart, .finish]

/-- The tokens of `v` spell its node, whatever follows them. After a value under a key no item of a
    list may follow, since that would be one of its own. -/
structure Spells (levels : Nat) (v : Value) : Prop where
  starts : ∃ t ts, spelled v = t :: ts ∧ t ∉ separators
  startsUnder : ∃ t ts, spelledUnder v = t :: ts ∧ t ∉ [.key, .value, .blockEnd]
  node : ∀ (fuel room : Nat) (ts : List Token), 3 * (spelled v).length + 2 ≤ fuel → levels ≤ room →
    node fuel room .block (spelled v ++ ts) = .ok (nodeOf v, ts)
  under : ∀ (fuel room : Nat) (ts : List Token), 3 * (spelledUnder v).length + 2 ≤ fuel → levels ≤ room →
    ts.head? ≠ some .dash → Spelling.node fuel room .entry (spelledUnder v ++ ts) = .ok (nodeOf v, ts)

section Collections

variable {levels : Nat}

theorem Spells.nodeOr {v : Value} (hv : Spells levels v) {fuel room : Nat}
    (hfuel : 3 * (spelled v).length + 3 ≤ fuel) (hroom : levels ≤ room) (ends : List Token)
    (hends : ends ⊆ separators) (ts : List Token) :
    nodeOr fuel room .block ends (spelled v ++ ts) = .ok (nodeOf v, ts) := by
  obtain ⟨fuel, rfl⟩ : ∃ n, fuel = n + 1 := ⟨fuel - 1, by omega⟩
  obtain ⟨t, rest, hspelled, ht⟩ := hv.starts
  rw [← hv.node fuel room ts (by omega) hroom, hspelled]
  exact nodeOr_of_head (fun hmem => ht (hends hmem)) fuel room .block

theorem blockItems_spelled {vs : List Value} (h : ∀ v ∈ vs, Spells levels v) (fuel room : Nat)
    (ts : List Token)
    (hfuel : 3 * (spelledItems vs).length + 1 ≤ fuel) (hroom : levels ≤ room) :
    blockItems fuel room (spelledItems vs ++ .blockEnd :: ts) = .ok (itemNodes vs, ts) := by
  induction vs generalizing fuel with
  | nil =>
    obtain ⟨fuel, rfl⟩ : ∃ n, fuel = n + 1 := ⟨fuel - 1, by omega⟩
    rw [spelledItems, List.nil_append, blockItems, itemNodes]
  | cons v vs ih =>
    obtain ⟨fuel, rfl⟩ : ∃ n, fuel = n + 1 := ⟨fuel - 1, by omega⟩
    simp only [spelledItems, List.length_cons, List.length_append] at hfuel
    have hitem := (h v List.mem_cons_self).nodeOr (show _ ≤ fuel by omega) hroom [.dash, .blockEnd]
      (by decide)
      (spelledItems vs ++ .blockEnd :: ts)
    have hrest := ih (fun w hw => h w (List.mem_cons_of_mem v hw)) fuel (by omega)
    rw [spelledItems, List.cons_append, List.append_assoc, blockItems, hitem]
    simp only [bind, Except.bind, hrest]
    rfl

theorem bareItems_spelled {vs : List Value} (h : ∀ v ∈ vs, Spells levels v) (fuel room : Nat)
    {ts : List Token}
    (hts : ts.head? ≠ some .dash) (hfuel : 3 * (spelledItems vs).length + 1 ≤ fuel) (hroom : levels ≤ room) :
    bareItems fuel room (spelledItems vs ++ ts) = .ok (itemNodes vs, ts) := by
  induction vs generalizing fuel with
  | nil =>
    obtain ⟨fuel, rfl⟩ : ∃ n, fuel = n + 1 := ⟨fuel - 1, by omega⟩
    have hends : ∀ rest, ts ≠ .dash :: rest := fun rest h => hts (by rw [h]; rfl)
    rw [spelledItems, List.nil_append, bareItems, itemNodes]
    exact hends
  | cons v vs ih =>
    obtain ⟨fuel, rfl⟩ : ∃ n, fuel = n + 1 := ⟨fuel - 1, by omega⟩
    simp only [spelledItems, List.length_cons, List.length_append] at hfuel
    have hitem := (h v List.mem_cons_self).nodeOr (show _ ≤ fuel by omega) hroom
      [.dash, .key, .value, .blockEnd]
      (by decide) (spelledItems vs ++ ts)
    have hrest := ih (fun w hw => h w (List.mem_cons_of_mem v hw)) fuel (by omega)
    rw [spelledItems, List.cons_append, List.append_assoc, bareItems, hitem]
    simp only [bind, Except.bind, hrest]
    rfl

theorem Spells.valueOr {v : Value} (hv : Spells levels v) {fuel room : Nat}
    (hfuel : 3 * (spelledUnder v).length + 4 ≤ fuel)
    (hroom : levels ≤ room) {ts : List Token} (hts : ts.head? ≠ some .dash) :
    valueOr fuel room .entry [.key, .value, .blockEnd] (.value :: (spelledUnder v ++ ts))
      = .ok (nodeOf v, ts) := by
  obtain ⟨fuel, rfl⟩ : ∃ n, fuel = n + 2 := ⟨fuel - 2, by omega⟩
  obtain ⟨t, rest, hspelled, ht⟩ := hv.startsUnder
  rw [← hv.under fuel room ts (by omega) hroom hts, hspelled, Spelling.valueOr]
  exact nodeOr_of_head ht fuel room .entry

theorem head?_spelledEntries {es : List (Text × Value)} (hkeys : ∀ e ∈ es, IsKey e.1) (ts : List Token) :
    (spelledEntries (textEntries es) ++ .blockEnd :: ts).head? ≠ some .dash := by
  rw [spelledEntries_eq hkeys]
  cases es <;> simp

theorem blockEntries_spelled {es : List (Text × Value)} (hkeys : ∀ e ∈ es, IsKey e.1)
    (h : ∀ e ∈ es, Spells levels e.2) (fuel room : Nat) (ts : List Token)
    (hfuel : 3 * (spelledEntries (textEntries es)).length + 1 ≤ fuel) (hroom : levels ≤ room) :
    blockEntries fuel room (spelledEntries (textEntries es) ++ .blockEnd :: ts)
      = .ok (entryNodes (textEntries es), ts) := by
  induction es generalizing fuel with
  | nil =>
    obtain ⟨fuel, rfl⟩ : ∃ n, fuel = n + 1 := ⟨fuel - 1, by omega⟩
    show blockEntries (fuel + 1) room (spelledEntries [] ++ .blockEnd :: ts) = .ok (entryNodes [], ts)
    rw [spelledEntries, List.nil_append, blockEntries, entryNodes]
  | cons e es ih =>
    have hkey := hkeys e List.mem_cons_self
    have hkeys' : ∀ x ∈ es, IsKey x.1 := fun x hx => hkeys x (List.mem_cons_of_mem e hx)
    have htokens : spelledEntries (textEntries (e :: es))
        = .key :: .plain e.1 :: .value :: (spelledUnder e.2 ++ spelledEntries (textEntries es)) := by
      rw [spelledEntries_eq hkeys, spelledEntries_eq hkeys']
      rfl
    have hnodes : entryNodes (textEntries (e :: es))
        = (.plain e.1, nodeOf e.2) :: entryNodes (textEntries es) := by
      have hnode : nodeOf (.text e.1) = .plain e.1 := by rw [nodeOf, if_pos hkey.style]
      show entryNodes ((.text e.1, e.2) :: textEntries es) = _
      rw [entryNodes, hnode]
    rw [htokens] at hfuel ⊢
    simp only [List.length_cons, List.length_append] at hfuel
    obtain ⟨fuel, rfl⟩ : ∃ n, fuel = n + 3 := ⟨fuel - 3, by omega⟩
    have hrest := ih hkeys' (fun x hx => h x (List.mem_cons_of_mem e hx)) (fuel + 2) (by omega)
    have hvalue := (h e List.mem_cons_self).valueOr (show _ ≤ fuel + 2 by omega) hroom
      (head?_spelledEntries hkeys' ts)
    rw [List.cons_append, List.cons_append, List.cons_append, List.append_assoc, blockEntries,
      nodeOr_of_head (by simp), node]
    simp only [bind, Except.bind, hvalue, hrest, hnodes]
    rfl

theorem head_scalarTokens {v : Value} (hv : Flat v) :
    ∃ t ts, scalarTokens v = t :: ts ∧ t ∉ separators := by
  cases hv with
  | text t =>
    refine ⟨_, [], rfl, ?_⟩
    split <;> simp [separators]
  | null => exact ⟨_, [], rfl, by simp [separators]⟩
  | bool b => exact ⟨_, [], rfl, by simp [separators]⟩
  | int n => exact ⟨_, [], rfl, by simp [separators]⟩
  | list => exact ⟨.listOpen, [.listClose], rfl, by simp [separators]⟩
  | mapping => exact ⟨.mappingOpen, [.mappingClose], rfl, by simp [separators]⟩

theorem spells_flat {v : Value} (hv : Flat v) (hlevels : isCollection v = true → 1 ≤ levels) :
    Spells levels v := by
  obtain ⟨t, rest, htokens, ht⟩ := head_scalarTokens hv
  refine ⟨⟨t, rest, hv.spelled_eq.1.trans htokens, ht⟩, ⟨t, rest, hv.spelled_eq.2.trans htokens, ?_⟩, ?_, ?_⟩
  · have hsub : [.key, .value, .blockEnd] ⊆ separators := by decide
    exact fun hmem => ht (hsub hmem)
  · intro fuel room ts hfuel hroom
    rw [hv.spelled_eq.1]
    exact node_flat hv (by omega) (fun h => Nat.le_trans (hlevels h) hroom) .block ts
  · intro fuel room ts hfuel hroom _
    rw [hv.spelled_eq.2]
    exact node_flat hv (by omega) (fun h => Nat.le_trans (hlevels h) hroom) .entry ts

theorem spells_list {v : Value} {vs : List Value} (h : ∀ w ∈ v :: vs, Spells levels w) :
    Spells (levels + 1) (.list (v :: vs)) where
  starts := ⟨.blockList, _, by rw [spelled], by decide⟩
  startsUnder := ⟨.dash, _, by rw [spelledUnder, spelledItems], by simp⟩
  node := by
    intro fuel room ts hfuel hroom
    rw [spelled] at hfuel ⊢
    simp only [List.length_cons, List.length_append] at hfuel
    obtain ⟨fuel, rfl⟩ : ∃ n, fuel = n + 1 := ⟨fuel - 1, by omega⟩
    have hitems := blockItems_spelled h fuel (room - 1) ts (by omega) (by omega)
    have hpos : room ≠ 0 := by omega
    rw [List.cons_append, List.append_assoc, node, nodeOf]
    simp only [bind, Except.bind, List.cons_append, List.nil_append, hitems, if_neg hpos]
    rfl
  under := by
    intro fuel room ts hfuel hroom hts
    rw [spelledUnder] at hfuel ⊢
    obtain ⟨fuel, rfl⟩ : ∃ n, fuel = n + 1 := ⟨fuel - 1, by omega⟩
    have hitems := bareItems_spelled h fuel (room - 1) hts (by omega) (by omega)
    have hpos : room ≠ 0 := by omega
    have hdash : spelledItems (v :: vs) ++ ts = .dash :: (spelled v ++ spelledItems vs ++ ts) := by
      rw [spelledItems, List.cons_append]
    rw [hdash] at hitems ⊢
    rw [Spelling.node, nodeOf]
    simp only [bind, Except.bind, hitems, if_neg hpos]
    rfl

theorem spells_mapping {e : Text × Value} {es : List (Text × Value)} (hkeys : ∀ x ∈ e :: es, IsKey x.1)
    (h : ∀ x ∈ e :: es, Spells levels x.2) : Spells (levels + 1) (.mapping (textEntries (e :: es))) := by
  have hspelled : spelled (.mapping (textEntries (e :: es)))
      = .blockMapping :: (spelledEntries (textEntries (e :: es)) ++ [.blockEnd]) := rfl
  have hunder : spelledUnder (.mapping (textEntries (e :: es)))
      = .blockMapping :: (spelledEntries (textEntries (e :: es)) ++ [.blockEnd]) := rfl
  have hnode : ∀ {fuel room : Nat} (position : Position) (ts : List Token), position ≠ .flow →
      3 * (spelled (.mapping (textEntries (e :: es)))).length + 2 ≤ fuel → levels + 1 ≤ room →
      Spelling.node fuel room position
          (.blockMapping :: (spelledEntries (textEntries (e :: es)) ++ [.blockEnd]) ++ ts)
        = .ok (nodeOf (.mapping (textEntries (e :: es))), ts) := by
    intro fuel room position ts hposition hfuel hroom
    rw [hspelled] at hfuel
    simp only [List.length_cons, List.length_append] at hfuel
    obtain ⟨fuel, rfl⟩ : ∃ n, fuel = n + 1 := ⟨fuel - 1, by omega⟩
    have hentries := blockEntries_spelled hkeys h fuel (room - 1) ts (by omega) (by omega)
    have hpos : room ≠ 0 := by omega
    rw [List.cons_append, List.append_assoc, Spelling.node, nodeOf]
    simp only [bind, Except.bind, List.cons_append, List.nil_append, hentries, if_neg hpos, if_neg hposition]
    rfl
  refine ⟨⟨_, _, hspelled, by decide⟩, ⟨_, _, hunder, by decide⟩, fun _ _ ts hfuel hroom => ?_,
    fun _ _ ts hfuel hroom _ => ?_⟩
  · rw [hspelled]
    exact hnode .block ts (by decide) hfuel hroom
  · rw [hunder]
    exact hnode .entry ts (by decide) (by rw [hspelled, ← hunder]; exact hfuel) hroom

end Collections

theorem spells_of_portable {levels : Nat} {v : Value} (h : v.Portable IsKey levels) : Spells levels v := by
  induction h with
  | null => exact spells_flat .null (by simp [isCollection])
  | bool b => exact spells_flat (.bool b) (by simp [isCollection])
  | int n => exact spells_flat (.int n) (by simp [isCollection])
  | text t => exact spells_flat (.text t) (by simp [isCollection])
  | @list levels items each ih =>
    cases items with
    | nil => exact spells_flat .list (by simp)
    | cons v vs => exact spells_list ih
  | @record levels entries keys distinct each ih =>
    cases entries with
    | nil => exact spells_flat .mapping (by simp)
    | cons e es => exact spells_mapping keys ih

/-- The tokens of a document, `spelled`, spell the node of its value. -/
theorem ofTokens_spelled {levels : Nat} {v : Value} (h : v.Portable IsKey levels)
    (hlevels : levels ≤ levelLimit) :
    Node.ofTokens (spelled v ++ [.finish]) = .ok (nodeOf v) := by
  have hv := spells_of_portable h
  obtain ⟨t, ts, hspelled, ht⟩ := hv.starts
  have hdocument : bareDocument (spelled v ++ [.finish]) = .ok (nodeOf v, [.finish]) :=
    hv.node _ levelLimit [.finish] (by simp only [List.length_append]; omega) hlevels
  have hmarks : t ≠ .finish ∧ t ≠ .documentStart := by
    constructor <;> rintro rfl <;> exact ht (by decide)
  have hfinish : startsWith [.finish] (spelled v ++ [.finish]) = false := by
    simp [startsWith, hspelled, hmarks.1]
  have hstart : ∀ rest, spelled v ++ [.finish] ≠ .documentStart :: rest := by
    intro rest h
    rw [hspelled, List.cons_append, List.cons.injEq] at h
    exact hmarks.2 h.1
  rw [Node.ofTokens, if_neg (by rw [hfinish]; decide)]
  dsimp only
  split
  · rename_i rest heq
    exact absurd heq (hstart rest)
  · rw [hdocument]
    rfl

end Spelling

end Seashell.Yaml
