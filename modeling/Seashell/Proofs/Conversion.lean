import Seashell.Proofs.Independence

set_option autoImplicit false

/-! # What a conversion changes

A conversion fails before it opens anything for writing, or it opens its output and writes that file
alone (`Workspace.convertFile_cases`). In the first case nothing has changed. In the second the
workspace differs by one file (`Workspace.Opened.convertFile_eq`), so that all but the output is as
it was: `Workspace.convertFile_touches_output`.

The output stands beside the input, mostly under another name. Where the settings give it the same
name the two are one file (`Workspace.Overwrites`). It is emptied before it is read, and what the
conversion then reads is what it writes itself, whatever the script was. As long as the interpreter
line has not left the buffer there is nothing to be read, and the interpreter line is all that is
left: `Workspace.convertFile_source`. Both results hold for all codecs. -/

namespace Seashell

open Text

namespace Workspace

variable {codecs : Codecs}

/-! ## Outputs that are opened -/

/-- The output of a conversion can be opened: the settings take the input, which is a file, their
    encoding is known, and the path of the output leads to no directory. -/
structure Opened (w : Workspace) (codecs : Codecs) (settings : Settings) (input output : Path)
    (codec : Codec) (source target : Route) (content : Bytes) : Prop where
  accepts : settings.accepts input = true
  outputPath : settings.outputPath? input = some output
  namable : Codecs.isNamable settings.encoding = true
  named : codecs.text? settings.encoding = some codec
  locateInput : w.locate input.text = .ok source
  file : w.tree.get? source = some (.file content)
  locateOutput : w.locate output.text = .ok target
  free : w.tree.get? target ≠ some .directory

namespace Opened

variable {w : Workspace} {settings : Settings} {input output : Path} {codec : Codec}
  {source target : Route} {content : Bytes}

theorem takes (h : w.Opened codecs settings input output codec source target content) :
    w.Takes target := takes_of_locate h.locateOutput h.free

theorem opens (h : w.Opened codecs settings input output codec source target content) :
    codecs.opens settings.encoding = true := Codecs.opens_iff.2 ⟨h.namable, codec, h.named⟩

theorem convertFile_eq {given : Text}
    (h : w.Opened codecs settings (Path.ofText given) output codec source target content) :
    w.convertFile codecs settings given = w.converted given output target
      (.ofReading settings codec (readFrom settings codec source target content)) := by
  have hread : w.read (Path.ofText given).text = .ok content :=
    read_eq_ok.2 ⟨source, h.locateInput, h.file⟩
  rw [convertFile_eq_convertTo h.namable h.named h.accepts hread h.outputPath]
  exact convertTo_eq_converted settings codec given content h.locateInput h.locateOutput h.free

end Opened

/-- **A conversion fails and leaves everything as it was, or opens its output** (`Opened`). -/
theorem convertFile_cases (w : Workspace) (codecs : Codecs) (settings : Settings) (given : Text) :
    (∃ f, w.convertFile codecs settings given = w.fail f) ∨
      ∃ output codec source target content,
        w.Opened codecs settings (Path.ofText given) output codec source target content := by
  unfold convertFile
  dsimp only
  split
  · exact .inl ⟨_, rfl⟩
  · rename_i haccepts
    split
    · exact .inl ⟨_, rfl⟩
    · exact .inl ⟨_, rfl⟩
    · exact .inl ⟨_, rfl⟩
    · rename_i output _ houtput
      split
      · exact .inl ⟨_, rfl⟩
      · rename_i hnamable
        split
        · exact .inl ⟨_, rfl⟩
        · exact .inl ⟨_, rfl⟩
        · rename_i content codec hread hcodec
          obtain ⟨source, hsource, hfile⟩ := read_eq_ok.1 hread
          cases htarget : w.locate output.text with
          | error o =>
            exact .inl ⟨.ofOpening given ⟨o, output.text⟩, by simp only [convertTo, write, htarget]⟩
          | ok target =>
            by_cases hfree : w.tree.get? target = some .directory
            · exact .inl ⟨.ofOpening given ⟨.isDirectory, output.text⟩,
                by simp only [convertTo, write, htarget, hfree]⟩
            · exact .inr ⟨output, codec, source, target, content, by simpa using haccepts, houtput,
                by simpa using hnamable, hcodec, hsource, hfile, htarget, hfree⟩

/-- Once the output is opened, what can fail is the conversion itself, with
    `Failure.unconverted`. -/
theorem failure_converted {w : Workspace} {given : Text} {output : Path} {target : Route}
    {rendering : Rendering} {f : Failure}
    (h : (w.converted given output target rendering).outcome = .error f) :
    ∃ fault, f = .unconverted given fault := by
  cases hfault : rendering.fault with
  | none => simp [converted, hfault] at h
  | some fault =>
    simp only [converted, hfault, Except.error.injEq] at h
    exact ⟨fault, h.symm⟩

/-! ## All but the output -/

/-- **A conversion touches at most its output.** Whatever comes of `convertFile`, everything that is
    not where the path of the output leads is as it was, with nothing added; files are files and
    directories are directories still, and paths lead where they led. If the input is refused,
    missing or a directory, or there is no such encoding, then nothing at all is changed. -/
theorem convertFile_touches_output (w : Workspace) (codecs : Codecs) (settings : Settings)
    (given : Text) :
    let input := Path.ofText given
    let run := w.convertFile codecs settings given
    (∀ s, (∀ output, settings.outputPath? input = some output → w.locate output.text ≠ .ok s) →
      run.workspace.tree.get? s = w.tree.get? s) ∧
    (∀ s content, w.tree.get? s = some (.file content) →
      ∃ after, run.workspace.tree.get? s = some (.file after)) ∧
    (∀ s, w.tree.get? s = some .directory → run.workspace.tree.get? s = some .directory) ∧
    (∀ path s, run.workspace.locate path = .ok s ↔ w.locate path = .ok s) ∧
    ((∃ invalid, run.outcome = .error (.invalid invalid)) ∨
      (∃ purpose path, run.outcome = .error (.missing purpose path)) ∨
      w.look input.text = .ok (some .directory) ∨
      codecs.opens settings.encoding = false → run.workspace = w) := by
  intro input run
  rcases w.convertFile_cases codecs settings given with
    ⟨f, hrun⟩ | ⟨output, codec, source, target, content, h⟩
  · have hsame : run.workspace = w := congrArg Run.workspace hrun
    rw [hsame]
    exact ⟨fun _ _ => rfl, fun _ content hs => ⟨content, hs⟩, fun _ hs => hs, fun _ _ => Iff.rfl,
      fun _ => rfl⟩
  · have hrun : run = _ := h.convertFile_eq
    rw [hrun]
    refine ⟨fun s hs => ?_, fun s before hs => ?_, fun s hs => ?_, fun path s => ?_, fun hcases => ?_⟩
    · refine get?_withFile_of_ne _ fun he => hs output h.outputPath ?_
      rw [he, h.locateOutput]
    · by_cases he : s = target
      · rw [he]
        exact ⟨_, get?_withFile_self _ h.takes⟩
      · exact ⟨before, (get?_withFile_of_ne _ he).trans hs⟩
    · have he : s ≠ target := fun he => h.free (he ▸ hs)
      exact (get?_withFile_of_ne _ he).trans hs
    · exact locate_withFile target _
    · -- none of the four can be where the output is opened
      exfalso
      rcases hcases with ⟨invalid, hf⟩ | ⟨purpose, path, hf⟩ | hlook | hencoding
      · obtain ⟨_, hfault⟩ := failure_converted hf
        cases hfault
      · obtain ⟨_, hfault⟩ := failure_converted hf
        cases hfault
      · simp [input, look, entry, h.locateInput, h.file] at hlook
      · simp [h.opens] at hencoding

/-- A script that is no text, with an older output beside it, and a directory with the name of a
    script. -/
def noText : Workspace :=
  ⟨((FileTree.empty.addFile ["x.csh".toList] [0xFF]).addFile ["x.sh".toList] [0x78]).addDirectory
    ["y.csh".toList], ⟨.root, []⟩⟩

/-- A conversion that fails in the middle leaves the interpreter line in its output, and a directory
    is not converted. -/
theorem convertFile_touches_output_noText :
    let script := noText.convertFile Charset.codecs .standard "x.csh"
    let directory := noText.convertFile Charset.codecs .standard "y.csh"
    script.outcome = .error (.unconverted "x.csh" (.decoding strayByte)) ∧
      script.workspace.tree.get? ["x.sh".toList] =
        some (.file (Charset.Utf8.encode "#!/bin/bash\n")) ∧
      script.workspace.tree.get? ["x.csh".toList] = some (.file [0xFF]) ∧
      script.workspace.tree.get? ["y.csh".toList] = some .directory ∧
      noText.look (Path.ofText "y.csh").text = .ok (some .directory) ∧
      directory.workspace = noText := by
  intro script directory
  have hlook : noText.look (Path.ofText "y.csh").text = .ok (some .directory) :=
    eq_ok_of_toOption (by decide +kernel)
  obtain ⟨hothers, _, hdirectories, _⟩ := convertFile_touches_output noText Charset.codecs .standard "x.csh"
  obtain ⟨_, _, _, _, hunchanged⟩ := convertFile_touches_output noText Charset.codecs .standard "y.csh"
  refine ⟨by decide +kernel, by decide +kernel, ?_, hdirectories _ (by decide +kernel), hlook,
    hunchanged (.inr (.inr (.inl hlook)))⟩
  refine (hothers ["x.csh".toList] fun output houtput hlocate => ?_).trans (by decide +kernel)
  have hpath : output = Path.ofText "x.sh" :=
    Option.some.inj (houtput.symm.trans (by decide +kernel))
  have hother : noText.locate output.text = .ok ["x.sh".toList] := by
    rw [hpath]
    exact eq_ok_of_toOption (by decide +kernel)
  rw [hother] at hlocate
  exact absurd (Except.ok.inj hlocate) (by decide)

/-! ## The input -/

end Workspace

/-- A script of which nothing is read is converted into the interpreter line: `Codec.leadBytes`. -/
theorem Rendering.written_ofReading_nil (settings : Settings) (codec : Codec) :
    (ofReading settings codec ⟨[], none⟩).written = codec.leadBytes settings := by
  have hevents : Script.events settings true [] =
      [.write settings.interpreterLine, .write ['\n']] := rfl
  have hwritten (last : Option FileFault) (before texts : List Text) :
      (ofEvents codec last before (texts.map .write)).written =
        (codec.writeAll before texts).bytes := by
    induction texts generalizing before with
    | nil => rfl
    | cons t rest ih =>
      simp only [List.map_cons, ofEvents, Codec.writeAll]
      cases codec.encode before t with
      | error f => rfl
      | ok bytes => exact congrArg (bytes ++ ·) (ih _)
  rw [ofReading, Option.isNone_none, hevents]
  exact hwritten _ [] [settings.interpreterLine, ['\n']]

/-- As long as the interpreter line has not left the buffer (`Codec.bufferSize`) it is not read
    back. -/
theorem Rendering.written_readBack {settings : Settings} {codec : Codec}
    (hfits : (codec.leadBytes settings).length < Codec.bufferSize)
    (hempty : codec.readLines [] = ⟨[], none⟩) :
    (ofReading settings codec (codec.readBack (codec.leadBytes settings))).written =
      codec.leadBytes settings := by
  rw [codec.readBack_eq _ hfits, hempty, written_ofReading_nil]

namespace Path

/-- What `isName` takes is one part, and possibly parts that stay in place. -/
theorem partsOf_of_isName {t : Text} (h : isName t = true) :
    t.head? ≠ some '/' ∧ ∃ part, partsOf t = [part] := by
  simp only [isName, Bool.and_eq_true, beq_iff_eq] at h
  refine ⟨fun hslash => ?_, List.length_eq_one_iff.1 h.2⟩
  obtain ⟨rest, rfl⟩ := List.head?_eq_some_iff.1 hslash
  have hstart := h.1.1
  unfold startOf at hstart
  split at hstart <;> simp_all

theorem mem_parts_of_name_ne_nil {p : Path} (h : p.name ≠ []) : p.name ∈ p.parts := by
  have hparts : p.parts = p.parts.dropLast ++ [p.name] := congrArg Path.parts (eq_of_name_ne_nil h)
  rw [hparts]
  simp

end Path

namespace Workspace

variable {codecs : Codecs}

/-- The conversion of a file opens the file itself for its output. -/
def Overwrites (w : Workspace) (codecs : Codecs) (settings : Settings) (input : Path) : Prop :=
  settings.accepts input = true ∧ codecs.opens settings.encoding = true ∧
    ∃ output s, settings.outputPath? input = some output ∧ w.locate output.text = .ok s ∧
      w.locate input.text = .ok s

/-- Two paths that lead from one directory to one place end alike. -/
theorem eq_of_locate_beside {w : Workspace} {path other : Text} {start : Path.Start}
    {parents : List Text} {name name' : Text} {s : Route}
    (hpath : Path.ofText path = ⟨start, parents ++ [name]⟩)
    (hother : Path.ofText other = ⟨start, parents ++ [name']⟩) (hs : w.locate path = .ok s)
    (hs' : w.locate other = .ok s) : name = name' := by
  have hdot {t part : Text} (ht : Path.ofText t = ⟨start, parents ++ [part]⟩) : part ≠ ['.'] := by
    have hparts : Path.partsOf t = parents ++ [part] := congrArg Path.parts ht
    exact (Path.mem_partsOf (by rw [hparts]; simp)).2
  have hfollow {t part : Text} (ht : Path.ofText t = ⟨start, parents ++ [part]⟩)
      (hlocate : w.locate t = .ok s) :
      w.tree.follow (w.origin start) (parents ++ [part]) = .ok s := by
    have hway := follow_of_locate hlocate
    rwa [show Path.startOf t = start from congrArg Path.start ht,
      show Path.partsOf t = parents ++ [part] from congrArg Path.parts ht] at hway
  obtain ⟨directory, hdirectory, hlast⟩ := FileTree.follow_append_eq_ok.1 (hfollow hpath hs)
  obtain ⟨directory', hdirectory', hlast'⟩ := FileTree.follow_append_eq_ok.1 (hfollow hother hs')
  cases Except.ok.inj (hdirectory.symm.trans hdirectory')
  obtain ⟨_, _, hstep⟩ := FileTree.follow_singleton_eq_ok.1 hlast
  obtain ⟨_, _, hstep'⟩ := FileTree.follow_singleton_eq_ok.1 hlast'
  exact FileTree.stepFrom_injective (hdot hpath) (hdot hother) (hstep.trans hstep'.symm)

/-- The output of a conversion only leads to the input if, read by `Path.ofText`, it is the path of
    the input. -/
theorem ofText_output_of_locate {w : Workspace} {settings : Settings} {given : Text} {output : Path}
    {s : Route} (houtput : settings.outputPath? (Path.ofText given) = some output)
    (htarget : w.locate output.text = .ok s) (hsource : w.locate (Path.ofText given).text = .ok s) :
    Path.ofText output.text = Path.ofText given := by
  have hclean := Path.isClean_ofText given
  obtain ⟨hinput, hbeside, _⟩ := Path.eq_of_outputPath? houtput
  obtain ⟨_, hname, houtput⟩ := Path.outputPath?_eq_some.1 houtput
  rw [← Path.name_concat _ _ (settings.outputName _), ← houtput] at hname
  obtain ⟨hslash, part, hpart⟩ := Path.partsOf_of_isName hname
  have hread : Path.ofText output.text =
      ⟨(Path.ofText given).start, (Path.ofText given).parts.dropLast ++ [part]⟩ := by
    rw [congrArg Path.text hbeside, Path.ofText_text_concat _ (fun p hp => ?_) hslash, hpart]
    exact hclean p ((List.dropLast_sublist _).subset hp)
  have heq := eq_of_locate_beside ((Path.ofText_text_ofText given).trans hinput) hread hsource htarget
  rw [hread, ← heq, ← hinput]

/-- A file that its own conversion `Overwrites` is left with what comes of reading that output. -/
theorem Overwrites.read_convertFile {w : Workspace} {settings : Settings} {given : Text}
    {content : Bytes} {codec : Codec} (h : w.Overwrites codecs settings (Path.ofText given))
    (hcodec : codecs.text? settings.encoding = some codec)
    (hread : w.read (Path.ofText given).text = .ok content) :
    (w.convertFile codecs settings given).workspace.read (Path.ofText given).text =
      .ok (Rendering.ofReading settings codec (codec.readBack (codec.leadBytes settings))).written := by
  obtain ⟨haccepts, hopens, output, source, houtput, htarget, hsource⟩ := h
  obtain ⟨s, hlocate, hfile⟩ := read_eq_ok.1 hread
  cases Except.ok.inj (hsource.symm.trans hlocate)
  have hopened : w.Opened codecs settings (Path.ofText given) output codec source source content :=
    ⟨haccepts, houtput, (Codecs.opens_iff.1 hopens).1, hcodec, hsource, hfile, htarget,
      by simp [hfile]⟩
  rw [hopened.convertFile_eq, readFrom, if_pos rfl]
  exact read_eq_ok.2 ⟨source, (locate_withFile source _).2 hsource,
    get?_withFile_self _ hopened.takes⟩

/-- A file that its conversion does not overwrite has the bytes that it had: `Overwrites` is all
    that could change them. -/
theorem read_convertFile_of_not_overwrites {w : Workspace} {settings : Settings} {given : Text}
    {content : Bytes} (h : ¬w.Overwrites codecs settings (Path.ofText given))
    (hread : w.read (Path.ofText given).text = .ok content) :
    (w.convertFile codecs settings given).workspace.read (Path.ofText given).text = .ok content := by
  rcases w.convertFile_cases codecs settings given with
    ⟨f, hrun⟩ | ⟨output, codec, source, target, content', hopened⟩
  · rw [hrun]
    exact hread
  · obtain ⟨s, hlocate, hfile⟩ := read_eq_ok.1 hread
    have hne : s ≠ target := fun he => h ⟨hopened.accepts, hopened.opens, output, target,
      hopened.outputPath, hopened.locateOutput, he ▸ hlocate⟩
    rw [hopened.convertFile_eq]
    exact read_eq_ok.2 ⟨s, (locate_withFile target _).2 hlocate,
      (get?_withFile_of_ne _ hne).trans hfile⟩

/-- An output of the same name (`Settings.outputName`) is the input. -/
theorem outputPath?_eq_self {settings : Settings} {given : Text}
    (h : settings.outputName (Path.ofText given).name = (Path.ofText given).name) :
    settings.outputPath? (Path.ofText given) = some (Path.ofText given) := by
  have hname : (Path.ofText given).name ≠ [] := by
    rw [← h]
    simp [Settings.outputName, Extension.text]
  obtain ⟨hpart, hdot⟩ :=
    Path.isClean_ofText given _ (Path.mem_parts_of_name_ne_nil hname)
  refine Path.outputPath?_eq_some.2 ⟨hname, ?_, ?_⟩
  · rw [h]
    exact isName_of_isPart hpart hdot
  · rw [h]
    exact Path.eq_of_name_ne_nil hname

/-- **A conversion keeps its input unless the output is the same file.** If `Overwrites` does not
    hold, the input has the bytes that it had. If it does, what was in the file is lost: it is left
    with what the conversion makes of its own output, and with nothing but the interpreter line if
    that does not fill the buffer, as an empty file has no lines. The two are only the same if the
    path of the output, read as a path, is that of the input. They always are if the settings take
    the input, their encoding is known, and the target extension is what stands in the name in place
    of the source extension. -/
theorem convertFile_source (w : Workspace) (codecs : Codecs) (settings : Settings) (given : Text)
    {content : Bytes} (hread : w.read (Path.ofText given).text = .ok content) :
    let input := Path.ofText given
    let run := w.convertFile codecs settings given
    (¬w.Overwrites codecs settings input → run.workspace.read input.text = .ok content) ∧
      (∀ codec, w.Overwrites codecs settings input →
        codecs.text? settings.encoding = some codec →
          run.workspace.read input.text =
            .ok (Rendering.ofReading settings codec
              (codec.readBack (codec.leadBytes settings))).written ∧
          ((codec.leadBytes settings).length < Codec.bufferSize → codec.readLines [] = ⟨[], none⟩ →
            run.workspace.read input.text = .ok (codec.leadBytes settings))) ∧
      (w.Overwrites codecs settings input → ∃ output, settings.outputPath? input = some output ∧
        Path.ofText output.text = input) ∧
      (settings.accepts input = true → codecs.opens settings.encoding = true →
        settings.outputName input.name = input.name → w.Overwrites codecs settings input) := by
  intro input run
  refine ⟨fun h => read_convertFile_of_not_overwrites h hread, fun codec h hcodec => ?_, ?_, ?_⟩
  · have hleft := h.read_convertFile hcodec hread
    exact ⟨hleft, fun hfits hempty =>
      hleft.trans (congrArg _ (Rendering.written_readBack hfits hempty))⟩
  · rintro ⟨_, _, output, s, houtput, htarget, hsource⟩
    exact ⟨output, houtput, ofText_output_of_locate houtput htarget hsource⟩
  · intro haccepts hopens hname
    obtain ⟨source, hsource, _⟩ := read_eq_ok.1 hread
    exact ⟨haccepts, hopens, input, source, outputPath?_eq_self hname, hsource, hsource⟩

/-- Two scripts whose names differ in case. -/
def twoScripts : Workspace :=
  ⟨(FileTree.empty.addFile ["a.csh".toList] (Charset.Utf8.encode "cd x\n")).addFile ["A.CSH".toList]
    (Charset.Utf8.encode "cd y\n"), ⟨.root, []⟩⟩

/-- Settings whose outputs have the source extension in capitals. -/
def capitals : Settings := { targetExtension := ⟨"CSH"⟩ }

/-- By `capitals` the script in capitals is lost, the other one is kept. -/
theorem convertFile_source_twoScripts :
    twoScripts.read (Path.ofText "a.csh").text = .ok (Charset.Utf8.encode "cd x\n") ∧
      ¬twoScripts.Overwrites Charset.codecs capitals (Path.ofText "a.csh") ∧
      (twoScripts.convertFile Charset.codecs capitals "a.csh").workspace.read (Path.ofText "a.csh").text =
        .ok (Charset.Utf8.encode "cd x\n") ∧
      twoScripts.read (Path.ofText "A.CSH").text = .ok (Charset.Utf8.encode "cd y\n") ∧
      twoScripts.Overwrites Charset.codecs capitals (Path.ofText "A.CSH") ∧
      (twoScripts.convertFile Charset.codecs capitals "A.CSH").workspace.read (Path.ofText "A.CSH").text =
        .ok (Charset.Utf8.encode "#!/bin/bash\n") := by
  have hsmall : twoScripts.read (Path.ofText "a.csh").text = .ok (Charset.Utf8.encode "cd x\n") :=
    eq_ok_of_toOption (by decide +kernel)
  have hlarge : twoScripts.read (Path.ofText "A.CSH").text = .ok (Charset.Utf8.encode "cd y\n") :=
    eq_ok_of_toOption (by decide +kernel)
  obtain ⟨hkept, _, hsame, _⟩ := convertFile_source twoScripts Charset.codecs capitals "a.csh" hsmall
  obtain ⟨_, hlost, _, hoverwrites⟩ := convertFile_source twoScripts Charset.codecs capitals "A.CSH" hlarge
  have hother : ¬twoScripts.Overwrites Charset.codecs capitals (Path.ofText "a.csh") := by
    intro h
    obtain ⟨output, houtput, hpath⟩ := hsame h
    cases Option.some.inj (houtput.symm.trans
      (show _ = some (Path.ofText "a.CSH") by decide +kernel))
    exact absurd hpath (by decide +kernel)
  have hitself := hoverwrites (by decide +kernel) (by decide +kernel) (by decide +kernel)
  have hcodec : Charset.codecs.text? capitals.encoding = some (Charset.codec .utf8) := rfl
  have hleft := (hlost _ hitself hcodec).2 (by decide +kernel) (by decide +kernel)
  exact ⟨hsmall, hother, hkept hother, hlarge, hitself, hleft.trans (by decide +kernel)⟩

/-- Settings that `Settings.ofValue` reads from a mapping can make a conversion lose its script and
    succeed. -/
theorem script_lost :
    ∃ settings, Settings.ofValue (.record [("target_extension".toList, .text ".csh")]) =
        .ok settings ∧
      twoScripts.read "a.csh" = .ok (Charset.Utf8.encode "cd x\n") ∧
      (twoScripts.convertFile Charset.codecs settings "a.csh").outcome = .ok (Path.ofText "a.csh") ∧
      (twoScripts.convertFile Charset.codecs settings "a.csh").workspace.read "a.csh" =
        .ok (Charset.Utf8.encode "#!/bin/bash\n") :=
  ⟨{ targetExtension := ⟨"csh"⟩ }, eq_ok_of_toOption (by decide +kernel),
    eq_ok_of_toOption (by decide +kernel), eq_ok_of_toOption (by decide +kernel),
    eq_ok_of_toOption (by decide +kernel)⟩

end Workspace
end Seashell
