import Seashell.Platform
import Seashell.Proofs.Documents.Yaml.Reading
import Seashell.Proofs.Transcoding

set_option autoImplicit false

/-! # Files of settings

A file of settings holds a document, and what is in the document may be anything. `Settings.Refuses`
says what can be wrong with it, and `Settings.IsHeldBy` which documents hold settings; there is no
other document (`Settings.isHeldBy_or_refuses`). As `Settings.ofDocument` succeeds on the latter and
fails for what is wrong with the former, it fails for this and for nothing else:
`Settings.ofDocument_eq_error`.

What the reader of documents finds in a text is not known here: `Workspace.loadSettings` takes it as
a parameter, and so do the results about it, one for each outcome (`Workspace.loadSettings_eq_ok`,
`Workspace.loadSettings_eq_invalid` and their siblings), which `Workspace.loadSettings_outcomes`
puts together. Most files that hold no settings are refused as an invalid input. What is not is a
file whose document the reader fails on for another reason than its form, a key that is no name, and
a value that cannot be written.

With the reader of the program, `Platform.loadYaml`, a document of one entry shows that there are
such files. -/

namespace Seashell

open Text

/-! ## Documents that hold settings -/

namespace Settings

/-- The document is nothing, or a mapping from names of settings to what can be written. -/
def IsHeldBy (d : Document) : Prop :=
  d = .nothing ∨ ∃ entries, d = .mapping entries ∧
    ∀ e ∈ entries, isKey e.1 = true ∧ e.2 ≠ none

/-- What is wrong with a document that holds no settings, and the fault that `ofDocument` tells. -/
inductive Refuses : Document → Fault → Prop where
  | notMapping (kind : Text) : Refuses (.other kind) (.notMapping kind)
  /-- Some keys are names of no setting, and all keys are names. -/
  | unknownKeys {entries : List (Option Text × Option Text)} {unknown : List Text}
      (hne : unknown ≠ []) (hkeys : (entries.map (·.1)).filter (!isKey ·) = unknown.map some) :
      Refuses (.mapping entries) (.unknownKeys (Text.sort unknown))
  | unnamedKey {entries : List (Option Text × Option Text)} {e : Option Text × Option Text}
      (hmem : e ∈ entries) (hname : e.1 = none) : Refuses (.mapping entries) .unnamedKey
  | unwritable {entries : List (Option Text × Option Text)} {e : Option Text × Option Text}
      (hkeys : ∀ e ∈ entries, isKey e.1 = true) (hmem : e ∈ entries) (hvalue : e.2 = none) :
      Refuses (.mapping entries) .unwritable

section

variable {entries : List (Option Text × Option Text)}

/-- A key that names a setting, by `isKey`, is a name. -/
theorem none_mem_unknown :
    none ∈ (entries.map (·.1)).filter (!isKey ·) ↔ ∃ e ∈ entries, e.1 = none := by
  simp [List.mem_filter, isKey]

theorem unknown_eq_nil :
    (entries.map (·.1)).filter (!isKey ·) = [] ↔ ∀ e ∈ entries, isKey e.1 = true := by
  simp [List.filter_eq_nil_iff]

theorem map_some_filterMap {keys : List (Option Text)} (h : none ∉ keys) :
    (keys.filterMap id).map some = keys := by
  induction keys with
  | nil => rfl
  | cons key rest ih =>
    rw [List.mem_cons, not_or] at h
    cases key with
    | none => exact absurd rfl h.1
    | some name => exact congrArg (some name :: ·) (ih h.2)

theorem filterMap_map_some (names : List Text) : (names.map some).filterMap id = names := by
  simp [List.filterMap_map]

end

variable {d : Document} {f : Fault}

/-- `ofDocument` fails for whatever is wrong with a document. -/
theorem ofDocument_of_refuses (h : Refuses d f) : ofDocument d = .error f := by
  cases h with
  | notMapping kind => rfl
  | unnamedKey hmem hname => exact if_pos (by simpa using none_mem_unknown.2 ⟨_, hmem, hname⟩)
  | unknownKeys hne hkeys =>
    unfold ofDocument
    dsimp only
    rw [hkeys, if_neg (by simp), if_pos (by simpa using hne), filterMap_map_some]
  | unwritable hkeys hmem hvalue =>
    unfold ofDocument
    dsimp only
    rw [unknown_eq_nil.2 hkeys, if_neg (by simp), if_neg (by simp)]
    exact if_pos (List.any_eq_true.2 ⟨_, hmem, Option.isNone_iff_eq_none.2 hvalue⟩)

theorem exists_ofDocument_of_isHeldBy (h : IsHeldBy d) : ∃ s, ofDocument d = .ok s := by
  obtain rfl | ⟨entries, rfl, hheld⟩ := h
  · exact ⟨_, rfl⟩
  · have hwritable : ¬entries.any (·.2.isNone) = true := by
      intro hany
      obtain ⟨e, he, hvalue⟩ := List.any_eq_true.1 hany
      exact (hheld e he).2 (Option.isNone_iff_eq_none.1 hvalue)
    unfold ofDocument
    dsimp only
    rw [unknown_eq_nil.2 fun e he => (hheld e he).1, if_neg (by simp), if_neg (by simp),
      if_neg hwritable]
    exact ⟨_, rfl⟩

/-- A document holds settings or has something wrong with it. -/
theorem isHeldBy_or_refuses (d : Document) : IsHeldBy d ∨ ∃ f, Refuses d f := by
  cases d with
  | nothing => exact .inl (.inl rfl)
  | other kind => exact .inr ⟨_, .notMapping kind⟩
  | mapping entries =>
    -- in the order in which `ofDocument` looks
    by_cases hunnamed : none ∈ (entries.map (·.1)).filter (!isKey ·)
    · obtain ⟨e, he, hname⟩ := none_mem_unknown.1 hunnamed
      exact .inr ⟨_, .unnamedKey he hname⟩
    by_cases hknown : (entries.map (·.1)).filter (!isKey ·) = []
    · have hkeys := unknown_eq_nil.1 hknown
      by_cases hvalues : ∃ e ∈ entries, e.2 = none
      · obtain ⟨e, he, hvalue⟩ := hvalues
        exact .inr ⟨_, .unwritable hkeys he hvalue⟩
      · exact .inl (.inr ⟨entries, rfl, fun e he => ⟨hkeys e he, fun h => hvalues ⟨e, he, h⟩⟩⟩)
    · have hnames := map_some_filterMap hunnamed
      refine .inr ⟨_, .unknownKeys (fun hnil => hknown ?_) hnames.symm⟩
      rw [← hnames, hnil, List.map_nil]

/-- `ofDocument` refuses a document for what is wrong with it, and for nothing else. -/
theorem ofDocument_eq_error : ofDocument d = .error f ↔ Refuses d f := by
  refine ⟨fun h => ?_, ofDocument_of_refuses⟩
  obtain hheld | ⟨g, hrefuses⟩ := isHeldBy_or_refuses d
  · obtain ⟨s, hs⟩ := exists_ofDocument_of_isHeldBy hheld
    rw [hs] at h
    cases h
  · rw [ofDocument_of_refuses hrefuses, Except.error.injEq] at h
    exact h ▸ hrefuses

/-- The documents that hold settings, by `IsHeldBy`, are those that are not refused. -/
theorem isHeldBy_iff : IsHeldBy d ↔ ∀ f, ¬Refuses d f := by
  constructor
  · intro hheld f hrefuses
    obtain ⟨s, hs⟩ := exists_ofDocument_of_isHeldBy hheld
    rw [ofDocument_of_refuses hrefuses] at hs
    cases hs
  · intro h
    exact (isHeldBy_or_refuses d).resolve_right fun ⟨f, hrefuses⟩ => h f hrefuses

end Settings

/-! ## Documents of one entry -/

namespace Yaml

theorem ofTokens_singleEntry (key value : Text) :
    Node.ofTokens [.blockMapping, .key, .plain key, .value, .plain value, .blockEnd, .finish] =
      .ok (.mapping [(.plain key, .plain value)]) := by
  simp [Node.ofTokens, Spelling.bareDocument, Spelling.node, Spelling.blockEntries, Spelling.nodeOr,
    Spelling.valueOr, startsWith, Spelling.checkEnd, bind, Except.bind, levelLimit, pure, Except.pure]

/-- `parse` of a document of one entry, both sides of which are scalars that are neither a merge nor
    a mark. -/
theorem parse_singleEntry {document key value : Text} {k v : Value}
    (htokens : tokensOf document =
      [.blockMapping, .key, .plain key, .value, .plain value, .blockEnd, .finish])
    (hmerge : key ≠ ['<', '<']) (hmark : key ≠ ['=']) (hkey : plainOutcome key = .ok k)
    (hvalue : plainOutcome value = .ok v) : parse document = .ok (.mapping [(k, v)]) := by
  rw [parse, htokens, ofTokens_singleEntry]
  show (Node.mapping [(.plain key, .plain value)]).value = _
  simp [Node.value, Node.outcome, entryOutcomes?, isMerge, hmerge, keyOutcome, hmark, hkey, hvalue,
    Outcome.both, Outcome.all, Outcome.deepen, Entries.list, Value.collect, Value.put, Except.map,
    Except.mapError]

end Yaml

/-! ## Reading a file -/

namespace Workspace

section

variable {w : Workspace} {load : Text → Except Yaml.Fault Settings.Document} {given t : Text}
  {content : Bytes} (hread : w.read given = .ok content)
  (hdecode : Charset.utf8.decode content = .ok t)

include hread hdecode

theorem loadSettings_eq :
    w.loadSettings load given =
      match load (unixNewlines t) with
      | .error .malformed => .error (.invalid (.malformedSettings given))
      | .error f => .error (.unreadable f)
      | .ok d => (Settings.ofDocument d).mapError Failure.ofSettings := by
  have hdecode' : Charset.Utf8.decode content = .ok t := hdecode
  have htext : w.readTextFor .settings given given = .ok (unixNewlines t) := by
    simp only [readTextFor, readText, hread, hdecode']
  rw [loadSettings, htext]
  rfl

/-- `loadSettings` gives the settings of the document that the file holds. -/
theorem loadSettings_eq_ok :
    (∃ s, w.loadSettings load given = .ok s) ↔
      ∃ d, load (unixNewlines t) = .ok d ∧ Settings.IsHeldBy d := by
  rw [loadSettings_eq hread hdecode]
  cases load (unixNewlines t) with
  | error f => cases f <;> simp
  | ok d =>
    simp only [Except.ok.injEq, exists_eq_left', Settings.isHeldBy_iff, ← Settings.ofDocument_eq_error]
    cases Settings.ofDocument d <;> simp [Except.mapError]

/-- `loadSettings` fails for the document or for what is in the document. -/
theorem loadSettings_eq_error {f : Failure} :
    w.loadSettings load given = .error f ↔
      load (unixNewlines t) = .error .malformed ∧ f = .invalid (.malformedSettings given) ∨
      (∃ fault, load (unixNewlines t) = .error fault ∧ fault ≠ .malformed ∧
        f = .unreadable fault) ∨
      ∃ d fault, load (unixNewlines t) = .ok d ∧ Settings.Refuses d fault ∧
        f = .ofSettings fault := by
  rw [loadSettings_eq hread hdecode]
  cases load (unixNewlines t) with
  | error fault => cases fault <;> simp [eq_comm]
  | ok d =>
    constructor
    · intro h
      cases hd : Settings.ofDocument d with
      | ok s => simp [hd, Except.mapError] at h
      | error fault =>
        simp only [hd, Except.mapError, Except.error.injEq] at h
        exact .inr (.inr ⟨d, fault, rfl, Settings.ofDocument_eq_error.1 hd, h.symm⟩)
    · rintro (⟨⟨⟩, _⟩ | ⟨_, ⟨⟩, _⟩ | ⟨_, fault, ⟨⟩, hrefuses, rfl⟩)
      simp only [Settings.ofDocument_eq_error.2 hrefuses, Except.mapError]

theorem loadSettings_eq_invalid {i : InvalidInput} :
    w.loadSettings load given = .error (.invalid i) ↔
      load (unixNewlines t) = .error .malformed ∧ i = .malformedSettings given ∨
      (∃ kind, load (unixNewlines t) = .ok (.other kind) ∧ i = .settings (.notMapping kind)) ∨
      ∃ entries unknown, load (unixNewlines t) = .ok (.mapping entries) ∧ unknown ≠ [] ∧
        (entries.map (·.1)).filter (!Settings.isKey ·) = unknown.map some ∧
        i = .settings (.unknownKeys (sort unknown)) := by
  rw [loadSettings_eq_error hread hdecode]
  constructor
  · rintro (⟨hloaded, ⟨⟩⟩ | ⟨_, _, _, ⟨⟩⟩ | ⟨d, fault, hloaded, hrefuses, hi⟩)
    · exact .inl ⟨hloaded, rfl⟩
    · cases hrefuses with
      | notMapping kind =>
        cases hi
        exact .inr (.inl ⟨kind, hloaded, rfl⟩)
      | unknownKeys hne hkeys =>
        cases hi
        exact .inr (.inr ⟨_, _, hloaded, hne, hkeys, rfl⟩)
      | _ => cases hi
  · rintro (⟨hloaded, rfl⟩ | ⟨kind, hloaded, rfl⟩ | ⟨entries, unknown, hloaded, hne, hkeys, rfl⟩)
    · exact .inl ⟨hloaded, rfl⟩
    · exact .inr (.inr ⟨_, _, hloaded, .notMapping kind, rfl⟩)
    · exact .inr (.inr ⟨_, _, hloaded, .unknownKeys hne hkeys, rfl⟩)

theorem loadSettings_eq_unnamedKey :
    w.loadSettings load given = .error .unnamedKey ↔ ∃ entries,
      load (unixNewlines t) = .ok (.mapping entries) ∧ ∃ e ∈ entries, e.1 = none := by
  rw [loadSettings_eq_error hread hdecode]
  constructor
  · rintro (⟨_, ⟨⟩⟩ | ⟨_, _, _, ⟨⟩⟩ | ⟨d, fault, hloaded, hrefuses, hf⟩)
    cases hrefuses with
    | unnamedKey hmem hname => exact ⟨_, hloaded, _, hmem, hname⟩
    | _ => cases hf
  · rintro ⟨entries, hloaded, e, hmem, hname⟩
    exact .inr (.inr ⟨_, _, hloaded, .unnamedKey hmem hname, rfl⟩)

theorem loadSettings_eq_unwritable :
    w.loadSettings load given = .error .unwritable ↔ ∃ entries,
      load (unixNewlines t) = .ok (.mapping entries) ∧
        (∀ e ∈ entries, Settings.isKey e.1 = true) ∧ ∃ e ∈ entries, e.2 = none := by
  rw [loadSettings_eq_error hread hdecode]
  constructor
  · rintro (⟨_, ⟨⟩⟩ | ⟨_, _, _, ⟨⟩⟩ | ⟨d, fault, hloaded, hrefuses, hf⟩)
    cases hrefuses with
    | unwritable hkeys hmem hvalue => exact ⟨_, hloaded, hkeys, _, hmem, hvalue⟩
    | _ => cases hf
  · rintro ⟨entries, hloaded, hkeys, e, hmem, hvalue⟩
    exact .inr (.inr ⟨_, _, hloaded, .unwritable hkeys hmem hvalue, rfl⟩)

theorem loadSettings_eq_unreadable {fault : Yaml.Fault} :
    w.loadSettings load given = .error (.unreadable fault) ↔
      load (unixNewlines t) = .error fault ∧ fault ≠ .malformed := by
  rw [loadSettings_eq_error hread hdecode]
  constructor
  · rintro (⟨_, ⟨⟩⟩ | ⟨_, hloaded, hne, ⟨⟩⟩ | ⟨d, fault, _, hrefuses, hf⟩)
    · exact ⟨hloaded, hne⟩
    · cases hrefuses <;> cases hf
  · rintro ⟨hloaded, hne⟩
    exact .inr (.inl ⟨fault, hloaded, hne, rfl⟩)

end

/-- **A file of settings is read or refused, but not always as an invalid input.** For every file in
    UTF-8 and every reader of documents `load`: there are settings exactly if the document is
    nothing or a mapping from their names to what can be written (`IsHeldBy`). The input is invalid
    exactly if the document is malformed, is something else than a mapping, or has unknown keys of
    which each is a name. What remains is a key that is no name, a value that cannot be written, and
    a document that the reader fails on though it is not malformed. -/
theorem loadSettings_outcomes (w : Workspace) (load : Text → Except Yaml.Fault Settings.Document)
    (given : Text) {content : Bytes} {t : Text} (hread : w.read given = .ok content)
    (hdecode : Charset.utf8.decode content = .ok t) :
    let document := load (unixNewlines t)
    let loaded := w.loadSettings load given
    ((∃ s, loaded = .ok s) ↔ ∃ d, document = .ok d ∧ Settings.IsHeldBy d) ∧
      (∀ i, loaded = .error (.invalid i) ↔
        document = .error .malformed ∧ i = .malformedSettings given ∨
        (∃ kind, document = .ok (.other kind) ∧ i = .settings (.notMapping kind)) ∨
        ∃ entries unknown, document = .ok (.mapping entries) ∧ unknown ≠ [] ∧
          (entries.map (·.1)).filter (!Settings.isKey ·) = unknown.map some ∧
          i = .settings (.unknownKeys (sort unknown))) ∧
      (loaded = .error .unnamedKey ↔
        ∃ entries, document = .ok (.mapping entries) ∧ ∃ e ∈ entries, e.1 = none) ∧
      (loaded = .error .unwritable ↔
        ∃ entries, document = .ok (.mapping entries) ∧
          (∀ e ∈ entries, Settings.isKey e.1 = true) ∧ ∃ e ∈ entries, e.2 = none) ∧
      (∀ fault, loaded = .error (.unreadable fault) ↔
        document = .error fault ∧ fault ≠ .malformed) ∧
      ∀ f, loaded = .error f → (∃ i, f = .invalid i) ∨ f = .unnamedKey ∨ f = .unwritable ∨
        ∃ fault, f = .unreadable fault := by
  intro document loaded
  refine ⟨loadSettings_eq_ok hread hdecode, fun i => loadSettings_eq_invalid hread hdecode,
    loadSettings_eq_unnamedKey hread hdecode, loadSettings_eq_unwritable hread hdecode,
    fun fault => loadSettings_eq_unreadable hread hdecode, fun f hf => ?_⟩
  rcases (loadSettings_eq_error hread hdecode).1 hf with ⟨_, rfl⟩ | ⟨fault, _, _, rfl⟩ |
    ⟨d, fault, _, hrefuses, rfl⟩
  · exact .inl ⟨_, rfl⟩
  · exact .inr (.inr (.inr ⟨fault, rfl⟩))
  · cases hrefuses with
    | notMapping _ => exact .inl ⟨_, rfl⟩
    | unknownKeys _ _ => exact .inl ⟨_, rfl⟩
    | unnamedKey _ _ => exact .inr (.inl rfl)
    | unwritable _ _ _ => exact .inr (.inr (.inl rfl))

/-- A workspace with a document in the file `c.yaml`. -/
def withDocument (document : Text) : Workspace :=
  ⟨FileTree.empty.addFile ["c.yaml".toList] (Charset.Utf8.encode document), ⟨.root, []⟩⟩

theorem read_withDocument (document : Text) :
    (withDocument document).read "c.yaml" = .ok (Charset.Utf8.encode document) := rfl

/-- A key that is the name of no setting is told. -/
theorem loadSettings_outcomes_shell :
    let document : Text := "shell: x\n"
    let w := withDocument document
    w.read "c.yaml" = .ok (Charset.Utf8.encode document) ∧
      Charset.utf8.decode (Charset.Utf8.encode document) = .ok document ∧
      Platform.loadYaml (unixNewlines document) =
        .ok (.mapping [(some "shell".toList, some "x".toList)]) ∧
      w.loadSettings Platform.loadYaml "c.yaml" =
        .error (.invalid (.settings (.unknownKeys ["shell".toList]))) := by
  intro document w
  have hread := read_withDocument document
  have hdecode := Charset.decode_encode_utf8 document
  have hparsed : Yaml.parse (unixNewlines document) = .ok (.mapping [(.text "shell", .text "x")]) :=
    Yaml.parse_singleEntry (by decide) (by decide) (by decide)
      (Yaml.plainOutcome_text (by decide)) (Yaml.plainOutcome_text (by decide))
  have hloaded : Platform.loadYaml (unixNewlines document) =
      .ok (.mapping [(some "shell".toList, some "x".toList)]) := by
    rw [Platform.loadYaml, hparsed]
    rfl
  obtain ⟨_, hinvalid, _⟩ := loadSettings_outcomes w Platform.loadYaml "c.yaml" hread hdecode
  have hkeys : ([(some "shell".toList, some "x".toList)].map (·.1)).filter (!Settings.isKey ·) =
      ["shell".toList].map some := rfl
  have hsort : sort ["shell".toList] = ["shell".toList] := List.mergeSort_singleton _
  exact ⟨hread, hdecode, hloaded,
    (hinvalid _).2 (.inr (.inr ⟨_, ["shell".toList], hloaded, by simp, hkeys, by rw [hsort]⟩))⟩

/-- A number is no name of a setting, and the failure is not that of an invalid input. -/
theorem loadSettings_numberedKey :
    let document : Text := "1: 2\n"
    let w := withDocument document
    w.read "c.yaml" = .ok (Charset.Utf8.encode document) ∧
      Charset.utf8.decode (Charset.Utf8.encode document) = .ok document ∧
      Yaml.parse (unixNewlines document) = .ok (.mapping [(.int 1, .int 2)]) ∧
      w.loadSettings Platform.loadYaml "c.yaml" = .error .unnamedKey := by
  intro document w
  have hread := read_withDocument document
  have hdecode := Charset.decode_encode_utf8 document
  have hparsed : Yaml.parse (unixNewlines document) = .ok (.mapping [(.int 1, .int 2)]) :=
    Yaml.parse_singleEntry (by decide) (by decide) (by decide)
      (Yaml.plainOutcome_ofInt (n := 1) (by decide +kernel))
      (Yaml.plainOutcome_ofInt (n := 2) (by decide +kernel))
  have hloaded : Platform.loadYaml (unixNewlines document) =
      .ok (.mapping [(none, some "2".toList)]) := by
    rw [Platform.loadYaml, hparsed]
    exact congrArg Except.ok (by decide +kernel)
  exact ⟨hread, hdecode, hparsed, (loadSettings_eq_unnamedKey hread hdecode).2
    ⟨_, hloaded, _, List.mem_singleton_self _, rfl⟩⟩

end Workspace
end Seashell
