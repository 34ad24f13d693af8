import Seashell.Proofs.Documents.Json
import Seashell.Report.Reading

set_option autoImplicit false

/-! # Reports that are read back

A report is a portable value, with the names of its fields and rules as keys
(`Report.portable_toValue`), and so its JSON is read as that value. From the value the report is
read, field by field. Two of the fields need more than to be looked up: a set keeps its members if
they are different (`Value.foldl_addMember_of_pairwise`), and so does the map of uses. Different
reports are different to a reader (`ReportDocument.ofReport_injective`), so that `json_lossless` can
say that what is read is this report and no other.

Integers are the one limit: a report in which one has too many digits is refused on both sides. -/

namespace Seashell

/-! ## Sets and maps -/

theorem TextSet.nodup (s : TextSet) : s.toList.Nodup :=
  s.ascending.imp fun hlt => Std.ne_of_lt hlt

theorem TextSet.ext_iff {s t : TextSet} : s = t ↔ s.toList = t.toList := by
  cases s
  cases t
  simp

theorem TextMap.ext_iff {α : Type} {m n : TextMap α} : m = n ↔ m.entries = n.entries := by
  cases m
  cases n
  simp

theorem TextMap.nodup {α : Type} (m : TextMap α) : (m.entries.map (·.1)).Nodup :=
  List.pairwise_map.2 (m.ascending.imp fun hlt => Std.ne_of_lt hlt)

/-- Values of which none is the `same` as a later one are members of a set in this order. -/
theorem Value.foldl_addMember_of_pairwise (before : List Value) {vs : List Value}
    (h : (before ++ vs).Pairwise fun a b => same a b = false) :
    vs.foldl addMember before = before ++ vs := by
  induction vs generalizing before with
  | nil => simp
  | cons v vs ih =>
    have hnew : ∀ a ∈ before, same a v = false := fun a ha =>
      (List.pairwise_append.1 h).2.2 a ha v List.mem_cons_self
    have hadd : addMember before v = before ++ [v] := if_neg (by simpa using hnew)
    rw [List.foldl_cons, hadd, ih (before ++ [v]) (by simpa using h), List.append_assoc,
      List.singleton_append]

namespace ReportDocument

theorem toMembers_texts {ts : List Text} (h : ts.Nodup) :
    (Value.texts ts).toMembers = .ok (ts.map .text) := by
  have hatoms : (ts.map Value.text).all Value.isAtom = true := by simp [Value.isAtom]
  have hdistinct : (ts.map Value.text).Pairwise fun a b => Value.same a b = false :=
    List.pairwise_map.2 (h.imp fun hne => by simpa [Value.same] using hne)
  have hfold := Value.foldl_addMember_of_pairwise [] hdistinct
  simp only [Value.toMembers, Value.texts, Value.toItems, Value.items?, bind, Except.bind, hatoms]
  exact congrArg Except.ok hfold

theorem ofValue_toValue (r : Report) : ofValue r.toValue = .ok (ofReport r) := by
  have hset : (Value.texts r.undefinedGotoTargets.toList).toMembers
      = .ok (r.undefinedGotoTargets.toList.map .text) := toMembers_texts r.undefinedGotoTargets.nodup
  have husage : (r.ruleUsage.entries.map fun e => (e.1, Value.int e.2)).map
      (fun e => (Value.text e.1, e.2)) = r.ruleUsage.entries.map fun e => (.text e.1, .int e.2) := by
    rw [List.map_map]
    rfl
  have hread : ofValue r.toValue = (do
      let members ← (Value.texts r.undefinedGotoTargets.toList).toMembers
      Except.ok { ofReport r with
        ruleUsage := (r.ruleUsage.entries.map fun e => (e.1, Value.int e.2)).map
          (fun e => (Value.text e.1, e.2))
        undefinedGotoTargets := members }) := rfl
  rw [hread, hset, husage]
  rfl

/-- Different reports are different documents: `ofReport` loses nothing. -/
theorem ofReport_injective {r s : Report} (h : ofReport r = ofReport s) : r = s := by
  have htext : ∀ t u : Text, Value.text t = .text u → t = u := fun t u => Value.text.inj
  have hint : ∀ m n : Int, Value.int m = .int n → m = n := fun m n => Value.int.inj
  have hentry : ∀ d e : Text × Int, (Value.text d.1, Value.int d.2) = (.text e.1, .int e.2) → d = e := by
    rintro ⟨k, m⟩ ⟨l, n⟩ he
    simpa using he
  cases r
  cases s
  simp only [ofReport, mk.injEq, Value.text.injEq, Value.int.injEq, Value.bool.injEq,
    List.map_inj_right htext, List.map_inj_right hint, List.map_inj_right hentry] at h
  simpa only [Report.mk.injEq, TextSet.ext_iff, TextMap.ext_iff] using h

end ReportDocument

/-! ## Reports as documents -/

namespace Report

/-- The names of the fields in a document, as `toValue` has them. -/
def fieldNames : List Text :=
  ["backtick_substitutions", "blank_lines", "compound_condition_lines", "converted_lines",
    "dynamic_gotos", "goto_targets", "header_suppressed", "labels", "nested_labels", "rule_usage",
    "script_name", "suppressed_lines", "total_lines", "unchanged_lines", "unclosed_block_at_end",
    "unconverted_control_flow_lines", "undefined_goto_targets", "warnings"].map String.toList

/-- A report can be carried in a document (`Value.Portable`), if its fields and rules have names
    that can be keys. -/
theorem portable_toValue {isKey : Text → Prop} (r : Report) (hfields : ∀ k ∈ fieldNames, isKey k)
    (hrules : ∀ e ∈ r.ruleUsage.entries, isKey e.1) : r.toValue.Portable isKey 2 := by
  have husage : Value.Portable isKey 1 (.record (r.ruleUsage.entries.map fun e => (e.1, .int e.2))) := by
    refine .record (fun e he => ?_) ?_ (fun e he => ?_)
    · obtain ⟨x, hx, rfl⟩ := List.mem_map.1 he
      exact hrules x hx
    · rw [List.map_map]
      exact r.ruleUsage.nodup
    · obtain ⟨x, _, rfl⟩ := List.mem_map.1 he
      exact .int x.2
  have hdistinct : fieldNames.Nodup := by decide
  refine .record (fun e he => hfields e.1 (List.mem_map_of_mem (f := Prod.fst) he)) hdistinct ?_
  simp only [List.forall_mem_cons]
  exact ⟨.int _, .int _, .ints _ _ _, .int _, .int _, .texts _ _ _, .bool _, .texts _ _ _, .texts _ _ _,
    husage, .text _, .int _, .int _, .int _, .bool _, .ints _ _ _, .texts _ _ _, .texts _ _ _, by simp⟩

/-! ## As JSON -/

theorem portable_json (r : Report) : r.toValue.Portable (fun _ => True) 2 :=
  portable_toValue r (fun _ _ => trivial) (fun _ _ => trivial)

/-- Only integers that are too long keep a report from being written: `Json.render?` otherwise gives
    `toJson`. -/
theorem render?_toValue (r : Report) :
    Json.render? r.toValue
      = if r.toValue.isWritable then .ok r.toJson else .error .tooManyDigits := by
  rw [Json.render?, Json.isExpressible_of_portable (portable_json r)]
  cases r.toValue.isWritable <;> rfl

/-- A report is read back from `toJson`, unless one of its integers is too long. -/
theorem ofJson_toJson (r : Report) :
    ReportDocument.ofJson r.toJson
      = if r.toValue.isWritable then .ok (.ofReport r) else .error (.json .tooManyDigits) := by
  have hparse : Json.parse r.toJson = if r.toValue.isWritable then .ok r.toValue else .error .tooManyDigits :=
    Json.parse_render (portable_json r) (by decide)
  rw [ReportDocument.ofJson, hparse]
  cases r.toValue.isWritable with
  | true => exact congrArg (Except.mapError ReadFault.mismatch) (ReportDocument.ofValue_toValue r)
  | false => rfl

/-- **JSON is lossless.** A report whose integers have no more digits than the format allows can be
    written (`Json.render?`), and what `ReportDocument.ofJson` reads from the text is that report
    and no other. Any other report is refused, when it is written as well as when it is read. -/
theorem json_lossless (r : Report) :
    if r.toValue.isWritable then
      Json.render? r.toValue = .ok r.toJson ∧
        ∀ s : Report, ReportDocument.ofJson r.toJson = .ok (.ofReport s) ↔ s = r
    else
      Json.render? r.toValue = .error .tooManyDigits ∧
        ReportDocument.ofJson r.toJson = .error (.json .tooManyDigits) := by
  rw [render?_toValue, ofJson_toJson]
  cases r.toValue.isWritable with
  | true =>
    refine ⟨rfl, fun s => ⟨fun h => ?_, fun h => by rw [h]; rfl⟩⟩
    exact (ReportDocument.ofReport_injective (Except.ok.inj h)).symm
  | false => exact ⟨rfl, rfl⟩

/-- A report with a count that has one digit too many. -/
def overlong : Report where
  scriptName := "script"
  totalLines := Text.digitBound

/-- A count with one digit too many is neither written nor read. -/
theorem json_refuses_overlong :
    Json.render? overlong.toValue = .error .tooManyDigits ∧
      ReportDocument.ofJson overlong.toJson = .error (.json .tooManyDigits) := by
  have hcount : (Value.int overlong.totalLines).isWritable = false := by
    have htotal : overlong.totalLines = (Text.digitBound : Int) := rfl
    rw [Value.isWritable, htotal, Int.natAbs_natCast, decide_eq_false_iff_not]
    exact Nat.lt_irrefl _
  have hlong : overlong.toValue.isWritable = false := by
    rw [toValue, Value.record_eq, Value.isWritable, Value.entriesWritable_eq_all]
    simp only [List.all_cons, hcount, Bool.false_and, Bool.and_false]
  rw [render?_toValue, ofJson_toJson, hlong]
  exact ⟨rfl, rfl⟩

end Report
end Seashell
