import Seashell.Charset.Library
import Seashell.Conversion
import Seashell.Proofs.Chunks
import Seashell.Proofs.Lines
import Seashell.Proofs.Location

set_option autoImplicit false

/-! # Converting a file as its text

A conversion opens the output before it reads the input, and reads and writes line by line. Where
the two are different files it still writes what the text of the input converts to in memory, and
says the same: `Workspace.convertFile_eq_convertText`, for files in UTF-8.

There are three parts to this. The events of a script that is read to its end write and say what the
trace of its lines does (`Script.writtenText_events`, `Script.said_events`), and in UTF-8 every text
has bytes, so that `Rendering.ofReading` comes to the bytes of the converted script
(`Rendering.ofReading_utf8`). A file that has been opened can be written once more, and paths lead
where they led before: `Workspace.withFile` is the workspace in between, and
`Workspace.convertTo_eq_converted` is the whole of a conversion for any codec. At last, the output
stands beside the input, under another name, and so is another place (`Workspace.locate_output`).

What the system takes as a path is bounded. `Workspace.convertFile_detour` is a conversion that
fails for this reason alone. -/

namespace Seashell

open Text

/-! ## What is written and said -/

namespace Script

/-- The text that an `Event` writes. -/
def Event.text : Event → Text
  | .notice _ => []
  | .write t => t

/-- The notice that an `Event` is. -/
def Event.notice? : Event → Option Notice
  | .notice n => some n
  | .write _ => none

/-- Everything that the `events` write. -/
def writtenText (events : List Event) : Text := events.flatMap (·.text)

/-- Everything that the `events` say. -/
def said (events : List Event) : List Notice := events.filterMap (·.notice?)

theorem writtenText_append (first second : List Event) :
    writtenText (first ++ second) = writtenText first ++ writtenText second := List.flatMap_append

theorem said_append (first second : List Event) :
    said (first ++ second) = said first ++ said second := List.filterMap_append

@[simp] theorem writtenText_notices (notices : List Notice) :
    writtenText (notices.map .notice) = [] := by
  induction notices with
  | nil => rfl
  | cons n rest ih => exact ih

@[simp] theorem said_notices (notices : List Notice) : said (notices.map .notice) = notices := by
  induction notices with
  | nil => rfl
  | cons n rest ih => exact congrArg (n :: ·) ih

@[simp] theorem writtenText_writeLines (lines : List Text) :
    writtenText (writeLines lines) = fileText lines := by
  induction lines with
  | nil => rfl
  | cons line rest ih =>
    have hcons : writeLines (line :: rest) = [.write line, .write ['\n']] ++ writeLines rest := rfl
    rw [hcons, writtenText_append, ih]
    rfl

@[simp] theorem said_writeLines (lines : List Text) : said (writeLines lines) = [] := by
  induction lines with
  | nil => rfl
  | cons line rest ih => exact ih

theorem fileText_append (first second : List Text) :
    fileText (first ++ second) = fileText first ++ fileText second := List.flatMap_append

theorem writtenText_eventsFrom (number : Nat) (block : Block) (lines : List Text) :
    writtenText (eventsFrom true number block lines) =
      let trace := Trace.ofLinesFrom number block lines
      fileText (trace.output ++ trace.block.finish) := by
  induction lines generalizing number block with
  | nil => rw [eventsFrom, if_pos rfl, writtenText_writeLines]; rfl
  | cons raw rest ih =>
    simp only [eventsFrom, Trace.ofLinesFrom, Trace.output, List.flatMap_cons, writtenText_append,
      writtenText_notices, writtenText_writeLines, ih, fileText_append, List.nil_append,
      List.append_assoc]

theorem said_eventsFrom (whole : Bool) (number : Nat) (block : Block) (lines : List Text) :
    said (eventsFrom whole number block lines) = (Trace.ofLinesFrom number block lines).notices := by
  induction lines generalizing number block with
  | nil =>
    cases whole with
    | false => rfl
    | true => exact said_writeLines _
  | cons raw rest ih =>
    simp only [eventsFrom, Trace.ofLinesFrom, said_append, said_notices, said_writeLines, ih,
      List.append_nil]

/-- A script that is read to its end is written as its lines are converted (`convertLines`). -/
theorem writtenText_events (settings : Settings) (lines : List Text) :
    writtenText (events settings true lines) = fileText (convertLines settings lines) := by
  rw [events, writtenText_append, writtenText_writeLines, writtenText_eventsFrom]
  exact (fileText_append _ _).symm

theorem said_events (settings : Settings) (whole : Bool) (lines : List Text) :
    said (events settings whole lines) = notices lines := by
  rw [events, said_append, said_writeLines, said_eventsFrom]
  rfl

end Script

/-! ## Contents -/

namespace Rendering

theorem ofEvents_utf8 (last : Option FileFault) (before : List Text) (events : List Script.Event) :
    ofEvents (Charset.codec .utf8) last before events =
      ⟨Charset.Utf8.encode (Script.writtenText events), last, Script.said events⟩ := by
  have hencode (before : List Text) (t : Text) :
      (Charset.codec .utf8).encode before t = .ok (Charset.Utf8.encode t) := ite_self _
  induction events generalizing before with
  | nil => rfl
  | cons event rest ih =>
    cases event with
    | notice n =>
      rw [ofEvents, ih]
      rfl
    | write t =>
      simp only [ofEvents, hencode, ih, mk.injEq, true_and]
      exact ⟨List.flatMap_append.symm, rfl⟩

/-- In UTF-8, the content of a file is converted as its text is, by `Script.convertText`. -/
theorem ofReading_utf8 (settings : Settings) {content : Bytes} {script : Text}
    (h : Charset.Utf8.decode content = .ok script) :
    ofReading settings (Charset.codec .utf8) ((Charset.codec .utf8).readLines content) =
      ⟨Charset.Utf8.encode (Script.convertText settings script), none,
        Script.notices (splitLines script)⟩ := by
  have hread : (Charset.codec .utf8).readLines content = ⟨readLines script, none⟩ :=
    Charset.readLines_of_decode rfl h
  have htrace := Trace.ofLines_readLines .closed script
  have hlines : Script.convertLines settings (readLines script) =
      Script.convertLines settings (splitLines script) := by
    simp only [Script.convertLines, htrace]
  have htext : Script.fileText (Script.convertLines settings (splitLines script)) =
      Script.convertText settings script :=
    (join_append_eq_fileText (by simp [Script.convertLines])).symm
  rw [hread, ofReading, ofEvents_utf8, Option.isNone_none, Script.writtenText_events,
    Script.said_events, hlines, htext]
  simp only [Script.notices, htrace, Option.map_none]

end Rendering

/-! ## Files that are written and read -/

theorem Assoc.put_put {α β : Type} [BEq α] [LawfulBEq α] (key : α) (value last : β)
    (entries : List (α × β)) : put key last (put key value entries) = put key last entries := by
  induction entries with
  | nil => simp [put]
  | cons e rest ih =>
    obtain ⟨k, v⟩ := e
    by_cases hk : k = key <;> simp [put, hk, ih]

namespace FileTree

theorem eq_of_entries {t u : FileTree} (h : t.entries = u.entries) : t = u := by
  cases t
  cases u
  cases h
  rfl

theorem entries_put {t : FileTree} {r : Route} {e : Entry} (h : t.admits r e = true) :
    (t.put r e).entries = Assoc.put r e t.entries := by
  rw [put, dif_pos h]

/-- Where a file was `put` another one can be. -/
theorem admits_put {t : FileTree} {r s : Route} {content other : Bytes}
    (hr : t.admits r (.file content) = true) (hs : t.admits s (.file other) = true) :
    (t.put r (.file content)).admits s (.file other) = true := by
  obtain ⟨hne, hnames, hparent, hplace⟩ := admits_iff.1 hs
  refine admits_iff.2 ⟨hne, hnames, ?_, .inr ?_⟩
  · rw [get?, entries_put hr]
    exact find?_put_of_directory hr hparent
  · rw [get?_put s hr]
    split
    · simp
    · simpa using hplace

/-- The last of the files that are `put` in one place is there. -/
theorem put_file_put (t : FileTree) (r : Route) (content last : Bytes) :
    (t.put r (.file content)).put r (.file last) = t.put r (.file last) := by
  cases hadmits : t.admits r (.file content) with
  | false => rw [put_of_not_admits hadmits]
  | true =>
    have hlast : t.admits r (.file last) = true := hadmits
    refine eq_of_entries ?_
    rw [entries_put (admits_put hadmits hlast), entries_put hadmits, entries_put hlast,
      Assoc.put_put]

end FileTree

namespace Workspace

/-- The workspace with a file at the end of the route `r`, if one can be there. -/
def withFile (w : Workspace) (r : Route) (content : Bytes) : Workspace :=
  { w with tree := w.tree.put r (.file content) }

/-- A file can be at the end of the route `r`. -/
def Takes (w : Workspace) (r : Route) : Prop := ∀ content, w.tree.admits r (.file content) = true

theorem takes_of_locate {w : Workspace} {path : Text} {r : Route} (h : w.locate path = .ok r)
    (hfree : w.tree.get? r ≠ some .directory) : w.Takes r :=
  fun content => admits_of_locate content h hfree

theorem Takes.not_directory {w : Workspace} {r : Route} (h : w.Takes r) :
    w.tree.get? r ≠ some .directory := by
  simpa using (FileTree.admits_iff.1 (h [])).2.2.2

theorem read_eq_ok {w : Workspace} {path : Text} {content : Bytes} :
    w.read path = .ok content ↔
      ∃ r, w.locate path = .ok r ∧ w.tree.get? r = some (.file content) := by
  unfold read entry
  cases hlocate : w.locate path with
  | error o => simp
  | ok r =>
    cases hget : w.tree.get? r with
    | none => simp [hget]
    | some e => cases e <;> simp [hget]

theorem write_eq {w : Workspace} {path : Text} {r : Route} (content : Bytes)
    (hlocate : w.locate path = .ok r) (hget : w.tree.get? r ≠ some .directory) :
    w.write path content = .ok (w.withFile r content) := by
  unfold write
  rw [hlocate]
  split
  · rename_i hnone
    cases hnone
  · rename_i r' hr
    cases hr
    split
    · rename_i hdirectory
      exact absurd hdirectory hget
    · rfl

/-- Paths lead where they led before a file was written, and where they lead nowhere the reason is
    the same, unless it is that something was not there or was no directory. -/
theorem locate_withFile_eq {w : Workspace} {path : Text} (place : Route)
    {x : Except FileTree.Obstacle Route} (content : Bytes) (hfound : x ≠ .error .notFound)
    (hdirectory : x ≠ .error .notDirectory) :
    (w.withFile place content).locate path = x ↔ w.locate path = x := by
  unfold locate
  split
  · exact Iff.rfl
  · split
    · exact Iff.rfl
    · split
      · exact Iff.rfl
      · exact FileTree.follow_put_eq content hfound hdirectory
      · exact FileTree.follow_put_eq content hfound hdirectory

theorem locate_withFile {w : Workspace} {path : Text} {r : Route} (place : Route)
    (content : Bytes) :
    (w.withFile place content).locate path = .ok r ↔ w.locate path = .ok r :=
  locate_withFile_eq place content (by simp) (by simp)

theorem get?_withFile_self {w : Workspace} {r : Route} (content : Bytes) (h : w.Takes r) :
    (w.withFile r content).tree.get? r = some (.file content) := by
  rw [withFile, FileTree.get?_put r (h content), if_pos rfl]

theorem get?_withFile_of_ne {w : Workspace} {r place : Route} (content : Bytes) (h : r ≠ place) :
    (w.withFile place content).tree.get? r = w.tree.get? r :=
  FileTree.get?_put_of_ne _ h

theorem withFile_withFile (w : Workspace) (r : Route) (content last : Bytes) :
    (w.withFile r content).withFile r last = w.withFile r last := by
  simp only [withFile, FileTree.put_file_put]

/-- A file that has been written (`withFile`) can be written again. -/
theorem write_withFile {w : Workspace} {path : Text} {r : Route} (content last : Bytes)
    (hlocate : w.locate path = .ok r) (hget : w.tree.get? r ≠ some .directory) :
    (w.withFile r content).write path last = .ok (w.withFile r last) := by
  rw [write_eq last ((locate_withFile r content).2 hlocate)
    (by simp [get?_withFile_self content (takes_of_locate hlocate hget)]), withFile_withFile]

/-- The run of a conversion that has opened its output at the route `target`. -/
def converted (w : Workspace) (given : Text) (output : Path) (target : Route)
    (rendering : Rendering) : Run Path where
  outcome := match rendering.fault with
    | some f => .error (.unconverted given f)
    | none => .ok output
  workspace := w.withFile target rendering.written
  notices := rendering.notices

/-- What a conversion reads: its input, or what it writes itself if the two are one file. -/
def readFrom (settings : Settings) (codec : Codec) (source target : Route) (content : Bytes) :
    Codec.Reading :=
  if source = target then codec.readBack (codec.leadBytes settings) else codec.readLines content

/-- A conversion that can open its output writes there what comes of what it reads (`readFrom`). -/
theorem convertTo_eq_converted {w : Workspace} {input output : Path} {source target : Route}
    (settings : Settings) (codec : Codec) (given : Text) (content : Bytes)
    (hsource : w.locate input.text = .ok source) (htarget : w.locate output.text = .ok target)
    (hfree : w.tree.get? target ≠ some .directory) :
    w.convertTo settings codec given input output content = w.converted given output target
      (.ofReading settings codec (readFrom settings codec source target content)) := by
  have hopened := write_eq [] htarget hfree
  have hsame : w.samePlace input output = decide (source = target) := by
    simp only [samePlace, hsource, htarget]
  have hreading : (if w.samePlace input output then codec.readBack (codec.leadBytes settings)
      else codec.readLines content) = readFrom settings codec source target content := by
    simp only [hsame, decide_eq_true_eq, readFrom]
  rw [convertTo, hopened]
  dsimp only
  rw [hreading, write_withFile [] _ htarget hfree]
  rfl

/-- A conversion into a file other than its input writes that file and nothing else. -/
theorem convertTo_eq {w : Workspace} {input output : Path} {source target : Route} {content : Bytes}
    {script : Text} (settings : Settings) (given : Text) (hsource : w.locate input.text = .ok source)
    (htarget : w.locate output.text = .ok target)
    (hfree : w.tree.get? target ≠ some .directory) (hne : source ≠ target)
    (hscript : Charset.Utf8.decode content = .ok script) :
    w.convertTo settings (Charset.codec .utf8) given input output content =
      { outcome := .ok output
        workspace := w.withFile target (Charset.Utf8.encode (Script.convertText settings script))
        notices := Script.notices (splitLines script) } := by
  rw [convertTo_eq_converted settings _ given content hsource htarget hfree, readFrom, if_neg hne,
    Rendering.ofReading_utf8 settings hscript]
  rfl

end Workspace

/-! ## Input and output -/

namespace Path

theorem not_mem_text_iff {c : Char} (start : Start) {parts : List Text} (hne : parts ≠ [])
    (hc : c ≠ '/') : c ∉ text ⟨start, parts⟩ ↔ ∀ part ∈ parts, c ∉ part := by
  have hstart : c ∉ start.text := by cases start <;> simp [Start.text, hc]
  rw [text_eq start hne, List.mem_append, mem_join hc]
  simp [hstart]

@[simp] theorem name_concat (start : Start) (parents : List Text) (last : Text) :
    name ⟨start, parents ++ [last]⟩ = last := by
  simp [name]

theorem outputPath?_eq_some {settings : Settings} {input output : Path} :
    settings.outputPath? input = some output ↔
      input.name ≠ [] ∧ isName (settings.outputName input.name) = true ∧
        output = ⟨input.start, input.parts.dropLast ++ [settings.outputName input.name]⟩ := by
  simp only [Settings.outputPath?, withName?, Option.ite_none_right_eq_some, Option.some.injEq,
    Bool.and_eq_true, Bool.not_eq_true', List.isEmpty_eq_false_iff, and_assoc, ne_eq,
    @eq_comm _ output]

/-- The output of a conversion (`outputPath?`) stands beside its input. -/
theorem eq_of_outputPath? {settings : Settings} {input output : Path}
    (h : settings.outputPath? input = some output) :
    input = ⟨input.start, input.parts.dropLast ++ [input.name]⟩ ∧
      output = ⟨input.start, input.parts.dropLast ++ [output.name]⟩ ∧ output.name ≠ ['.'] := by
  obtain ⟨hname, hisName, rfl⟩ := outputPath?_eq_some.1 h
  have hne : input.parts ≠ [] := fun he => hname (by simp [name, he])
  refine ⟨?_, by rw [name_concat], fun hdot => ?_⟩
  · rw [name, List.getLast?_eq_some_getLast hne, Option.getD_some, List.dropLast_concat_getLast]
  · rw [name_concat] at hdot
    rw [hdot] at hisName
    cases hisName

end Path

namespace Workspace

/-- A file `other` can be opened beside one that is there, if the system takes its name and its
    path. -/
theorem locate_beside {w : Workspace} {start : Path.Start} {parents : List Text} {name other : Text}
    {source : Route} (hparents : ∀ part ∈ parents, Path.isPart part = true)
    (hname : Path.isPart name = true) (hother : FileTree.isFileName other = true)
    (hlong : FileTree.byteLength (Path.text ⟨start, parents ++ [other]⟩) ≤ FileTree.pathLimit)
    (h : w.locate (Path.text ⟨start, parents ++ [name]⟩) = .ok source) :
    ∃ directory, FileTree.stepFrom directory name = source ∧
      w.locate (Path.text ⟨start, parents ++ [other]⟩) =
        .ok (FileTree.stepFrom directory other) := by
  obtain ⟨hpart, hnul, hshort⟩ := FileTree.isFileName_iff.1 hother
  have hall : ∀ t, Path.isPart t = true → ∀ part ∈ parents ++ [t], Path.isPart part = true := by
    intro t ht part hp
    rcases List.mem_append.1 hp with hp | hp
    · exact hparents part hp
    · rw [List.mem_singleton.1 hp]
      exact ht
  rw [locate_text w start (by simp) (hall name hname)] at h
  split at h
  · cases h
  · rename_i hsourceNul
    split at h
    · cases h
    · obtain ⟨directory, hdirectory, hlast⟩ := FileTree.follow_append_eq_ok.1 h
      obtain ⟨hget, _, hstep⟩ := FileTree.follow_singleton_eq_ok.1 hlast
      -- the parents are free of NUL characters since the path that was followed is
      have hclean : '\x00' ∉ Path.text ⟨start, parents ++ [other]⟩ := by
        have hsource : ∀ part ∈ parents ++ [name], '\x00' ∉ part :=
          (Path.not_mem_text_iff start (by simp) (by decide)).1 (by simpa using hsourceNul)
        refine (Path.not_mem_text_iff start (by simp) (by decide)).2 fun part hp => ?_
        rcases List.mem_append.1 hp with hp | hp
        · exact hsource part (List.mem_append_left _ hp)
        · rw [List.mem_singleton.1 hp]
          exact hnul
      refine ⟨directory, hstep, ?_⟩
      rw [locate_text w start (by simp) (hall other hpart), if_neg (by simpa using hclean),
        if_neg (by omega)]
      exact FileTree.follow_append_eq_ok.2
        ⟨directory, hdirectory, FileTree.follow_singleton_eq_ok.2 ⟨hget, hshort, rfl⟩⟩

/-- The output of a conversion is a place of its own: `source ≠ target`. -/
theorem locate_output {w : Workspace} {settings : Settings} {input output : Path} {source : Route}
    (hparts : ∀ part ∈ input.parts, Path.isPart part = true ∧ part ≠ ['.'])
    (houtput : settings.outputPath? input = some output)
    (hname : FileTree.isFileName output.name = true) (hother : output ≠ input)
    (hlong : FileTree.byteLength output.text ≤ FileTree.pathLimit)
    (hsource : w.locate input.text = .ok source) :
    ∃ target, w.locate output.text = .ok target ∧ source ≠ target := by
  obtain ⟨hinput, hbeside, hdot⟩ := Path.eq_of_outputPath? houtput
  have hmem : input.name ∈ input.parts := by
    have : input.parts = input.parts.dropLast ++ [input.name] := congrArg Path.parts hinput
    rw [this]
    simp
  have hparents : ∀ part ∈ input.parts.dropLast, Path.isPart part = true :=
    fun part hp => (hparts part ((List.dropLast_sublist _).subset hp)).1
  have htext : output.text = Path.text ⟨input.start, input.parts.dropLast ++ [output.name]⟩ :=
    congrArg Path.text hbeside
  rw [hinput] at hsource
  rw [htext] at hlong ⊢
  obtain ⟨directory, hstep, htarget⟩ :=
    locate_beside hparents (hparts _ hmem).1 hname hlong hsource
  -- one place in one directory has one name, and the two paths differ in the name only
  refine ⟨_, htarget, fun he => hother ?_⟩
  have hnames : input.name = output.name :=
    FileTree.stepFrom_injective (hparts _ hmem).2 hdot (hstep.trans he)
  rw [hbeside, ← hnames, ← hinput]

theorem look_eq_directory {w : Workspace} {path : Text} {r : Route} (hlocate : w.locate path = .ok r)
    (hget : w.tree.get? r = some .directory) : w.look path = .ok (some .directory) := by
  simp only [look, entry, hlocate, hget]

/-- A file that the settings take, and whose output has a name, is converted in the encoding of the
    settings, by `convertTo`. -/
theorem convertFile_eq_convertTo {w : Workspace} {codecs : Codecs} {settings : Settings}
    {given : Text} {content : Bytes} {output : Path} {codec : Codec}
    (hnamable : Codecs.isNamable settings.encoding = true)
    (hcodec : codecs.text? settings.encoding = some codec)
    (haccepts : settings.accepts (Path.ofText given) = true)
    (hread : w.read (Path.ofText given).text = .ok content)
    (houtput : settings.outputPath? (Path.ofText given) = some output) :
    w.convertFile codecs settings given =
      w.convertTo settings codec given (Path.ofText given) output content := by
  obtain ⟨source, hsource, hcontent⟩ := read_eq_ok.1 hread
  have hlook : w.look (Path.ofText given).text = .ok (some (.file content)) := by
    simp only [look, entry, hsource, hcontent]
  simp [convertFile, haccepts, hlook, houtput, hnamable, hread, hcodec]

/-- **A file is converted as its text is in memory**: for a file in UTF-8 that the settings take,
    and an output beside it that is another file, is no directory and has a name and a path that the
    system takes, `convertFile` succeeds, writes the text that `Script.convertText` gives at the
    output path and nothing else, and gives rise to the same notices. -/
theorem convertFile_eq_convertText (w : Workspace) (codecs : Codecs) (settings : Settings)
    (given : Text) {script : Text} {content : Bytes} {output : Path}
    (hutf8 : codecs.text? "utf-8" = some (Charset.codec .utf8))
    (hencoding : settings.encoding = "utf-8")
    (haccepts : settings.accepts (Path.ofText given) = true)
    (hread : w.read (Path.ofText given).text = .ok content)
    (hscript : Charset.Utf8.decode content = .ok script)
    (houtput : settings.outputPath? (Path.ofText given) = some output)
    (hname : FileTree.isFileName output.name = true) (hother : output ≠ Path.ofText given)
    (hfree : w.look output.text ≠ .ok (some .directory))
    (hlong : FileTree.byteLength output.text ≤ FileTree.pathLimit) :
    let run := w.convertFile codecs settings given
    let bytes := Charset.Utf8.encode (Script.convertText settings script)
    run.outcome = .ok output ∧ w.write output.text bytes = .ok run.workspace ∧
      run.workspace.read output.text = .ok bytes ∧
      run.notices = Script.notices (splitLines script) ∧ run.log = [] := by
  obtain ⟨source, hsource, hcontent⟩ := read_eq_ok.1 hread
  obtain ⟨target, htarget, hne⟩ := locate_output (fun part => Path.mem_partsOf) houtput hname
    hother hlong hsource
  have hplace : w.tree.get? target ≠ some .directory :=
    fun hget => hfree (look_eq_directory htarget hget)
  have hrun := convertFile_eq_convertTo (by rw [hencoding]; decide) (hencoding ▸ hutf8) haccepts
    hread houtput
  rw [convertTo_eq settings given hsource htarget hplace hne hscript] at hrun
  intro run bytes
  simp only [run, bytes, hrun]
  refine ⟨trivial, write_eq _ htarget hplace, ?_, trivial, trivial⟩
  exact read_eq_ok.2 ⟨target, (locate_withFile target _).2 htarget,
    get?_withFile_self _ (takes_of_locate htarget hplace)⟩

/-- A script with all three terminators and none at its end. -/
def mixedTerminators : Text := "#!/bin/csh\r\nset a = 1\rtop:\n goto top"

/-- A workspace in whose current directory `mixedTerminators` is a file. -/
def mixedWorkspace : Workspace :=
  ⟨FileTree.empty.addFile ["d".toList, "x.csh".toList] (Charset.Utf8.encode mixedTerminators),
    ⟨.root, ["d".toList]⟩⟩

theorem convertFile_mixedTerminators :
    let run := mixedWorkspace.convertFile Charset.codecs .standard "x.csh"
    let bytes := Charset.Utf8.encode (Script.convertText .standard mixedTerminators)
    run.outcome = .ok (Path.ofText "x.sh") ∧
      mixedWorkspace.write (Path.ofText "x.sh").text bytes = .ok run.workspace ∧
      run.workspace.read (Path.ofText "x.sh").text = .ok bytes ∧
      run.notices = Script.notices (splitLines mixedTerminators) ∧ run.log = [] := by
  have hread : mixedWorkspace.read (Path.ofText "x.csh").text =
      .ok (Charset.Utf8.encode mixedTerminators) := eq_ok_of_toOption (by decide +kernel)
  have hscript : Charset.Utf8.decode (Charset.Utf8.encode mixedTerminators) =
      .ok mixedTerminators := eq_ok_of_toOption (by decide +kernel)
  have hlook : mixedWorkspace.look (Path.ofText "x.sh").text = .ok none :=
    eq_ok_of_toOption (by decide +kernel)
  exact convertFile_eq_convertText mixedWorkspace Charset.codecs .standard "x.csh" rfl rfl
    (by decide +kernel) hread hscript (by decide +kernel) (by decide +kernel) (by decide +kernel)
    (by rw [hlook]; simp)
    (by decide +kernel)

/-! ## Paths that are too long -/

/-- A conversion fails if the path of its output is too long (`FileTree.pathLimit`), though its name
    need not be. -/
theorem convertFile_of_tooLong {w : Workspace} {codecs : Codecs} {settings : Settings}
    {given : Text} {content : Bytes} {output : Path} {codec : Codec}
    (hnamable : Codecs.isNamable settings.encoding = true)
    (hcodec : codecs.text? settings.encoding = some codec)
    (haccepts : settings.accepts (Path.ofText given) = true)
    (hread : w.read (Path.ofText given).text = .ok content)
    (houtput : settings.outputPath? (Path.ofText given) = some output)
    (hnul : '\x00' ∉ output.text) (hlong : FileTree.pathLimit < FileTree.byteLength output.text) :
    (w.convertFile codecs settings given).outcome =
      .error (.unconverted given (.system ⟨.tooLong, output.text⟩)) := by
  have hwrite : w.write output.text [] = .error ⟨.tooLong, output.text⟩ := by
    simp only [write, locate_of_tooLong hnul hlong]
  rw [convertFile_eq_convertTo hnamable hcodec haccepts hread houtput]
  simp [convertTo, hwrite, fail, Failure.ofOpening]

/-- A way that enters a directory and leaves it again, many times over, to a file beside it. -/
def detour (name : Text) : Path :=
  ⟨.here, (List.replicate 19 [List.replicate 200 'd', "..".toList]).flatten ++ [name]⟩

/-- A workspace with the directory and the file of the `detour`. -/
def detourWorkspace : Workspace :=
  ⟨(FileTree.empty.addDirectory [List.replicate 200 'd']).addFile ["a.csh".toList]
    (Charset.Utf8.encode "echo\n"), ⟨.root, []⟩⟩

/-- Settings whose output files have long names. -/
def longNames : Settings := { targetExtension := ⟨List.replicate 230 'b'⟩ }

/-- The name of an output may be short enough and the conversion fail all the same: from the current
    directory, the path to the input is still one that the system takes and the path to the output
    is not. -/
theorem convertFile_detour :
    let input := detour "a.csh"
    let output := detour ("a." ++ List.replicate 230 'b')
    longNames.encoding = "utf-8".toList ∧ Path.ofText input.text = input ∧
      longNames.accepts input = true ∧
      detourWorkspace.read input.text = .ok (Charset.Utf8.encode "echo\n") ∧
      Charset.Utf8.decode (Charset.Utf8.encode "echo\n") = .ok "echo\n".toList ∧
      longNames.outputPath? input = some output ∧ FileTree.isFileName output.name = true ∧
      output ≠ input ∧ detourWorkspace.look output.text ≠ .ok (some .directory) ∧
      (detourWorkspace.convertFile Charset.codecs longNames input.text).outcome =
        .error (.unconverted input.text (.system ⟨.tooLong, output.text⟩)) := by
  intro input output
  have hparts : ∀ part ∈ input.parts, Path.isPart part = true ∧ part ≠ ['.'] := by decide +kernel
  have hinput : Path.ofText input.text = input := Path.ofText_text (by decide) hparts
  have hnul : '\x00' ∉ output.text := by decide +kernel
  have hlong : FileTree.pathLimit < FileTree.byteLength output.text := by decide +kernel
  have haccepts : longNames.accepts input = true := by decide +kernel
  have houtput : longNames.outputPath? input = some output := by decide +kernel
  -- the text of the path is too long to be split by evaluation: its parts are followed instead
  have hread : detourWorkspace.read input.text = .ok (Charset.Utf8.encode "echo\n") := by
    have hfollow : detourWorkspace.tree.follow [] input.parts = .ok ["a.csh".toList] :=
      eq_ok_of_toOption (by decide +kernel)
    refine read_eq_ok.2 ⟨["a.csh".toList], ?_, by decide +kernel⟩
    rw [← hfollow]
    refine (locate_text detourWorkspace .here (by decide) fun part hp => (hparts part hp).1).trans ?_
    rw [if_neg (by decide +kernel), if_neg (by decide +kernel)]
    rfl
  have hlook : detourWorkspace.look output.text = .error ⟨.tooLong, output.text⟩ := by
    simp only [look, entry, locate_of_tooLong hnul hlong]
  refine ⟨rfl, hinput, haccepts, hread, eq_ok_of_toOption (by decide +kernel), houtput,
    by decide +kernel, by decide +kernel, by rw [hlook]; simp, ?_⟩
  rw [← hinput] at haccepts hread houtput
  have hcodec : Charset.codecs.text? longNames.encoding = some (Charset.codec .utf8) := rfl
  exact convertFile_of_tooLong rfl hcodec haccepts hread houtput hnul hlong

end Workspace
end Seashell
