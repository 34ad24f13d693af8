import Mathlib.Data.List.Basic
import Seashell.Platform
import Seashell.Proofs.ConverterTable
import Seashell.Proofs.Independence

set_option autoImplicit false

/-! # Two commands that re-encode a directory

One command re-encodes a directory by the encodings that it is given. The other converts a path by
`ConverterTable.standard`, and re-encodes a directory only if the name of the directory ends as the
names of files do that can be re-encoded: `ConverterTable.find_standard_encoding` says what the
table has for this. Where it has a re-encoding both commands come down to one run of
`Workspace.reencodeDirectory`, and that succeeds on every directory
(`Workspace.outcome_reencodeDirectory`), whatever becomes of its files. So they do the same on any
`Platform` that knows the two encodings which are standard. -/

namespace Seashell

/-! ## The standard table -/

namespace ConverterTable

theorem rows_standard :
    standard.rows = ("csh".toList, [("sh".toList, .makes (.converter .script))]) ::
      reencodedExtensions.map fun e =>
        (e, [("encoding".toList, .makes (.converter .reencoding))]) := by
  decide +kernel

theorem lookup_standard (e : Text) :
    standard.rows.lookup e =
      if e ∈ reencodedExtensions then some [("encoding".toList, .makes (.converter .reencoding))]
      else if e = "csh".toList then some [("sh".toList, .makes (.converter .script))]
      else none := by
  rw [rows_standard, List.lookup_cons]
  by_cases hmem : e ∈ reencodedExtensions
  · have hall : ∀ e ∈ reencodedExtensions, (e == "csh".toList) = false := by decide
    rw [hall e hmem, if_pos hmem]
    exact List.lookup_graph _ hmem
  · rw [if_neg hmem]
    by_cases hcsh : e = "csh".toList
    · rw [if_pos hcsh, beq_iff_eq.2 hcsh]
    · rw [if_neg hcsh, beq_eq_false_iff_ne.2 hcsh, List.lookup_eq_none_iff]
      intro row hrow
      obtain ⟨e', he', rfl⟩ := List.mem_map.1 hrow
      exact bne_iff_ne.2 fun heq => hmem (heq ▸ he')

/-- For an encoding, `standard` has a re-encoding for the files that can be re-encoded; scripts are
    known but not for that, and nothing else is known. -/
theorem find_standard_encoding (path : Text) :
    standard.find path "encoding" =
      let key := extensionKey (Path.ofText path).suffix
      if key ∈ reencodedExtensions then .ok (.makes (.converter .reencoding))
      else if key = "csh".toList then .error (.noConversion "csh" "encoding")
      else .error (.noConverters path) := by
  have hkind : Text.lower "encoding" = "encoding".toList := by decide +kernel
  rw [find_eq, hkind]
  dsimp only
  unfold maker?
  dsimp only
  rw [lookup_standard]
  by_cases hnil : (Path.ofText path).suffix = []
  · rw [hnil, if_pos (.inl rfl)]
    rfl
  · by_cases hmem : extensionKey (Path.ofText path).suffix ∈ reencodedExtensions
    · rw [if_pos hmem, if_pos hmem, if_neg (not_or.2 ⟨hnil, Bool.noConfusion⟩)]
      rfl
    · rw [if_neg hmem, if_neg hmem]
      by_cases hcsh : extensionKey (Path.ofText path).suffix = "csh".toList
      · rw [if_pos hcsh, if_pos hcsh, if_neg (not_or.2 ⟨hnil, Bool.noConfusion⟩), hcsh]
        rfl
      · rw [if_neg hcsh, if_neg hcsh, if_pos (.inr rfl)]

end ConverterTable

/-! ## Directories -/

namespace Workspace

/-- With known encodings `reencodeDirectory` gives back the directory, whatever becomes of its
    files. -/
theorem outcome_reencodeDirectory {w : Workspace} {codecs : Codecs} {r : Reencoding} {given : Text}
    (hknown : r.isKnown codecs = true)
    (hroot : w.look (Path.ofText given).text = .ok (some .directory)) :
    (w.reencodeDirectory codecs r given).outcome = .ok (Path.ofText given) := by
  obtain ⟨paths, hpaths⟩ := exists_listFiles r.extensions hroot
  have hfiles : (w.reencodeFiles codecs r paths).outcome = .ok () :=
    (Selected.reencodeFiles_eq [] hknown (selected_listFiles hpaths)).1
  simp only [reencodeDirectory_eq hknown hroot hpaths, hfiles]
  rfl

end Workspace

namespace CommandLine

theorem run_convert (w : Workspace) (p : Platform) (input : Path) (kind : Text) :
    (Command.convert input kind none).run w p =
      .ofRun (convertByTable w p.codecs input.text kind) fun output =>
        "Converted: " ++ (w.absolute output).text ++ ['\n'] := rfl

theorem run_reencode (w : Workspace) (p : Platform) (root : Path) (source target : Text) :
    (Command.reencode root source target none true false).run w p =
      .ofRun (w.reencodeDirectory p.codecs { source, target } root.text) fun _ =>
        "Conversion finished.\n" := rfl

/-- **Two commands for directories.** `Command.reencode` succeeds on every directory.
    `Command.convert` to an encoding succeeds exactly on those whose names end as the names of files
    that can be re-encoded; then it leaves the same workspace and tells the same of the files. On
    any other directory it fails for want of a converter and leaves everything as it was. -/
theorem directory_commands_agree (w : Workspace) (p : Platform) (given : Text)
    (hknown : Reencoding.isKnown {} p.codecs = true)
    (hroot : w.look (Path.ofText given).text = .ok (some .directory)) :
    let root := Path.ofText given
    let converted := (Command.convert root "encoding" none).run w p
    let encoded := (Command.reencode root "windows-1252" "utf-8" none true false).run w p
    let key := ConverterTable.extensionKey root.suffix
    ∃ log, encoded.ending = .exit 0 "Conversion finished.\n" (logText log) ∧
      (key ∈ ConverterTable.reencodedExtensions → converted = { encoded with
        ending := .exit 0 ("Converted: " ++ (w.absolute root).text ++ ['\n']) (logText log) }) ∧
      (key ∉ ConverterTable.reencodedExtensions → converted = {
        ending := .exit 1 [] ("Error: " ++
          (if key = "csh".toList then "No conversion from csh to encoding".toList
            else "No available converters for " ++ root.text) ++ ['\n'])
        workspace := w }) := by
  intro root converted encoded key
  have htext : Path.ofText root.text = root := Path.ofText_text_ofText given
  have hconverted := run_convert w p root "encoding"
  have hencoded := run_reencode w p root "windows-1252" "utf-8"
  -- the table hands the path on as a text, from which the same path is read
  have houtcome : (w.reencodeDirectory p.codecs {} root.text).outcome = .ok root := by
    have hrun : (w.reencodeDirectory p.codecs {} root.text).outcome =
        .ok (Path.ofText root.text) :=
      Workspace.outcome_reencodeDirectory hknown (by rwa [htext])
    rwa [htext] at hrun
  have hfind := ConverterTable.find_standard_encoding root.text
  rw [htext] at hfind
  refine ⟨(w.reencodeDirectory p.codecs {} root.text).log, ?_, fun hkey => ?_, fun hkey => ?_⟩
  · simp only [encoded, hencoded, Completion.ofRun, houtcome]
  · rw [if_pos hkey] at hfind
    simp only [converted, encoded, hconverted, hencoded, convertByTable, hfind, Completion.ofRun,
      houtcome]
  · rw [if_neg hkey] at hfind
    by_cases hcsh : key = "csh".toList
    · rw [if_pos hcsh] at hfind ⊢
      simp only [converted, hconverted, convertByTable, hfind, Completion.ofRun]
      rfl
    · rw [if_neg hcsh] at hfind ⊢
      simp only [converted, hconverted, convertByTable, hfind, Completion.ofRun]
      rfl

/-- A workspace with two directories of which one has a name that ends as a file's. -/
def twoDirectories : Workspace :=
  ⟨(FileTree.empty.addFile ["src".toList, "a.java".toList] [0xF1]).addFile
    ["old.Java".toList, "a.txt".toList] [0xF1], ⟨.root, []⟩⟩

theorem look_twoDirectories :
    twoDirectories.look (Path.ofText "src").text = .ok (some .directory) :=
  eq_ok_of_toOption (by decide +kernel)

theorem isKnown_standard : Reencoding.isKnown {} Platform.standard.codecs = true := by
  decide +kernel

theorem directory_commands_agree_twoDirectories :
    let convertTo (given : Text) :=
      (Command.convert (Path.ofText given) "encoding" none).run twoDirectories .standard
    let encode (given : Text) :=
      (Command.reencode (Path.ofText given) "windows-1252" "utf-8" none true false).run
        twoDirectories .standard
    Reencoding.isKnown {} Platform.standard.codecs = true ∧
      twoDirectories.look (Path.ofText "old.Java").text = .ok (some .directory) ∧
      twoDirectories.look (Path.ofText "src").text = .ok (some .directory) ∧
      (∃ errors, (convertTo "old.Java").ending = .exit 0 "Converted: /old.Java\n" errors) ∧
      (convertTo "old.Java").workspace = (encode "old.Java").workspace ∧
      (∃ errors, (encode "src").ending = .exit 0 "Conversion finished.\n" errors) ∧
      (convertTo "src").ending = .exit 1 [] "Error: No available converters for src\n" ∧
      (convertTo "src").workspace = twoDirectories := by
  intro convertTo encode
  have hold : twoDirectories.look (Path.ofText "old.Java").text = .ok (some .directory) :=
    eq_ok_of_toOption (by decide +kernel)
  obtain ⟨log, _, hagree, _⟩ :=
    directory_commands_agree twoDirectories .standard "old.Java" isKnown_standard hold
  obtain ⟨log', hencoded, _, hfails⟩ :=
    directory_commands_agree twoDirectories .standard "src" isKnown_standard look_twoDirectories
  have hconverted := hagree (by decide +kernel)
  have hfailed := hfails (by decide +kernel)
  have htext : (twoDirectories.absolute (Path.ofText "old.Java")).text = "/old.Java".toList := by
    decide +kernel
  refine ⟨isKnown_standard, hold, look_twoDirectories, ⟨logText log, ?_⟩, ?_,
    ⟨logText log', hencoded⟩, ?_, ?_⟩
  · simp only [convertTo, hconverted, htext]
    rfl
  · simp only [convertTo, encode, hconverted]
  · simp only [convertTo, hfailed]
    decide +kernel
  · simp only [convertTo, hfailed]

theorem listFiles_twoDirectories : twoDirectories.listFiles (Path.ofText "src").text
    Selection.standardExtensions = .ok [Path.ofText "src/a.java"] := by
  have hroutes : twoDirectories.selectedRoutes ["src".toList]
      (Selection.normalizeExtensions Selection.standardExtensions) = [["a.java".toList]] :=
    (List.mergeSort_of_pairwise (by decide +kernel)).trans (by decide +kernel)
  have hlocate : twoDirectories.locate (Path.ofText "src").text = .ok ["src".toList] :=
    eq_ok_of_toOption (by decide +kernel)
  have hget : twoDirectories.tree.get? ["src".toList] = some .directory := by decide +kernel
  rw [Workspace.listFiles_eq (Workspace.directory?_eq_some.2 ⟨hlocate, hget⟩), Workspace.listed,
    hroutes]
  decide +kernel

/-- The directory `src`, whose name has no ending, is left alone by one command and re-encoded by
    the other. -/
theorem directory_refused :
    let src := Path.ofText "src"
    let converted := (Command.convert src "encoding" none).run twoDirectories .standard
    let encoded := (Command.reencode src "windows-1252" "utf-8" none true false).run
      twoDirectories .standard
    twoDirectories.look src.text = .ok (some .directory) ∧
      converted.ending = .exit 1 [] "Error: No available converters for src\n" ∧
      converted.workspace.tree.get? ["src".toList, "a.java".toList] = some (.file [0xF1]) ∧
      encoded.ending = .exit 0 "Conversion finished.\n" "INFO: Converted: src/a.java\n" ∧
      encoded.workspace.tree.get? ["src".toList, "a.java".toList] = some (.file [0xC3, 0xB1]) := by
  intro src converted encoded
  have hencoded := run_reencode twoDirectories .standard src "windows-1252" "utf-8"
  have hfiles : twoDirectories.reencodeDirectory Platform.standard.codecs {} src.text = _ :=
    Workspace.reencodeDirectory_eq isKnown_standard look_twoDirectories listFiles_twoDirectories
  have hrun : encoded = .ofRun
      (twoDirectories.reencodeFiles Platform.standard.codecs {} [Path.ofText "src/a.java"])
      fun _ => "Conversion finished.\n" := by
    simp only [encoded, hencoded, hfiles, Completion.ofRun]
    cases (twoDirectories.reencodeFiles Platform.standard.codecs {}
      [Path.ofText "src/a.java"]).outcome <;> rfl
  refine ⟨look_twoDirectories, by decide +kernel, by decide +kernel, ?_, ?_⟩
  · rw [hrun]
    decide +kernel
  · rw [hrun]
    decide +kernel

end CommandLine
end Seashell
