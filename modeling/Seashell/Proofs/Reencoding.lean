import Seashell.Charset.Library
import Seashell.Reencoding
import Seashell.Proofs.FileConversion
import Seashell.Proofs.Listing

set_option autoImplicit false

/-! # What a failed re-encoding leaves

Bytes that are no text are noticed before anything is written. That the new encoding has no bytes
for a text, or that there is no such encoding, is only noticed when the file is already empty.

`Workspace.Reencoded` lists what `Workspace.reencodeFile` can come to, with the workspace that it
leaves in each case, and `Workspace.reencodeFile_reencoded` says that there is nothing else.
Whatever it comes to, it `Workspace.Spares` all but its own file: paths lead where they led, and
what was elsewhere is there still. So what happens to one file of a directory is not seen at any
other, and by an induction over the files (`Workspace.leftBehind_reencodeFiles`) each file that is
logged as failed is left as its re-encoding alone would leave it. The system's own names, by which a
directory is re-encoded, stand for the same encodings (`Workspace.reencodeFile_own`). All of this
holds whatever the codecs are, and `Workspace.reencoding_failed` puts it together. -/

namespace Seashell

open Text

/-- The fault is that of a text for which an encoding has no bytes. -/
def FileFault.isEncoding : FileFault → Bool
  | .encoding _ => true
  | _ => false

namespace Workspace

/-! ## Workspaces that differ at some routes -/

/-- Nothing but what is `touched` is changed: every path leads where it led, and all that was
    elsewhere still is there. Files may have been added. -/
structure Spares (w : Workspace) (touched : Route → Prop) (after : Workspace) : Prop where
  locate : ∀ path r, after.locate path = .ok r ↔ w.locate path = .ok r
  get? : ∀ r e, ¬touched r → w.tree.get? r = some e → after.tree.get? r = some e

namespace Spares

variable {w after last : Workspace} {touched : Route → Prop}

theorem refl (w : Workspace) (touched : Route → Prop) : w.Spares touched w :=
  ⟨fun _ _ => Iff.rfl, fun _ _ _ h => h⟩

theorem trans (h : w.Spares touched after) (h' : after.Spares touched last) :
    w.Spares touched last :=
  ⟨fun path r => (h'.locate path r).trans (h.locate path r),
    fun r e hr he => h'.get? r e hr (h.get? r e hr he)⟩

theorem mono {more : Route → Prop} (h : w.Spares touched after) (hmore : ∀ r, touched r → more r) :
    w.Spares more after :=
  ⟨h.locate, fun r e hr he => h.get? r e (fun ht => hr (hmore r ht)) he⟩

theorem read {path : Text} {content : Bytes} (h : w.Spares touched after)
    (hpath : ∀ r, w.locate path = .ok r → ¬touched r) (hread : w.read path = .ok content) :
    after.read path = .ok content := by
  obtain ⟨r, hr, hget⟩ := read_eq_ok.1 hread
  exact read_eq_ok.2 ⟨r, (h.locate path r).2 hr, h.get? r _ (hpath r hr) hget⟩

end Spares

/-- `withFile` spares all else if the file is put at a route that may be touched, or where nothing
    was. -/
theorem spares_withFile {w : Workspace} {touched : Route → Prop} {place : Route} (content : Bytes)
    (h : touched place ∨ w.tree.get? place = none) :
    w.Spares touched (w.withFile place content) := by
  refine ⟨fun path r => locate_withFile place content, fun r e hr he => ?_⟩
  have hne : r ≠ place := by
    rintro rfl
    rcases h with h | h
    · exact hr h
    · rw [h] at he
      cases he
  rw [get?_withFile_of_ne content hne, he]

/-! ## One file -/

theorem get?_eq_none_of_look {w : Workspace} {path : Text} {r : Route}
    (hlook : w.look path = .ok none) (hlocate : w.locate path = .ok r) : w.tree.get? r = none := by
  cases hget : w.tree.get? r with
  | none => rfl
  | some e => simp [look, entry, hlocate, hget] at hlook

/-- After `keepBackup` a backup was in place, or it takes a place where nothing was. -/
theorem keepBackup_eq_ok {w kept : Workspace} {path : Path} {content : Bytes}
    (h : w.keepBackup path content = .ok kept) :
    ∃ backup, backupPath? path = some backup ∧
      ((∃ e, w.look backup.text = .ok (some e)) ∧ kept = w ∨
        ∃ place, w.locate backup.text = .ok place ∧ w.tree.get? place = none ∧
          kept = w.withFile place content) := by
  unfold keepBackup at h
  split at h
  · cases h
  · rename_i backup hbackup
    refine ⟨backup, hbackup, ?_⟩
    split at h
    · cases h
    · rename_i e hlook
      cases h
      exact .inl ⟨⟨e, hlook⟩, rfl⟩
    · rename_i hlook
      cases hlocate : w.locate backup.text with
      | error o => simp [write, hlocate, Except.mapError] at h
      | ok place =>
        have hfree := get?_eq_none_of_look hlook hlocate
        rw [write_eq content hlocate (by simp [hfree])] at h
        cases h
        exact .inr ⟨place, rfl, hfree, rfl⟩

/-- A file was found at `source`, its `content` is the text `t` and, if that is wanted, is kept
    beside it. -/
structure Prepared (w : Workspace) (codecs : Codecs) (r : Reencoding) (path : Path) (source : Route)
    (content : Bytes) (t : Text) (kept : Workspace) : Prop where
  locate : w.locate path.text = .ok source
  get? : w.tree.get? source = some (.file content)
  decode : ∃ codec, codecs.text? r.source = some codec ∧ codec.decode content = .ok t
  keeping : (if r.backup then w.keepBackup path content else .ok w) = .ok kept

/-- The file is empty, and what was in it is only left in a backup that was not there before. -/
structure Emptied (w : Workspace) (backup : Bool) (path : Path) (after : Workspace) : Prop where
  isEmpty : after.read path.text = .ok []
  keeps : ∃ content, w.read path.text = .ok content ∧ (backup = true →
    ∃ beside, backupPath? path = some beside ∧
      (w.look beside.text = .ok none → after.read beside.text = .ok content))

namespace Prepared

variable {w kept : Workspace} {codecs : Codecs} {r : Reencoding} {path : Path} {source : Route}
  {content : Bytes} {t : Text}

/-- A backup is all that is added to `kept`, and nothing is changed for it. -/
theorem spares (h : w.Prepared codecs r path source content t kept) :
    w.Spares (fun _ => False) kept := by
  have hkeeping := h.keeping
  split at hkeeping
  · obtain ⟨backup, _, ⟨_, rfl⟩ | ⟨place, _, hplace, rfl⟩⟩ := keepBackup_eq_ok hkeeping
    · exact .refl _ _
    · exact spares_withFile content (.inr hplace)
  · cases hkeeping
    exact .refl _ _

theorem kept_get? (h : w.Prepared codecs r path source content t kept) :
    kept.tree.get? source = some (.file content) :=
  h.spares.get? source _ id h.get?

theorem kept_ne_directory (h : w.Prepared codecs r path source content t kept) :
    kept.tree.get? source ≠ some .directory := by
  simp [h.kept_get?]

theorem kept_locate (h : w.Prepared codecs r path source content t kept) :
    kept.locate path.text = .ok source :=
  (h.spares.locate _ _).2 h.locate

/-- Whatever is written at the file spares all else. -/
theorem spares_withFile (h : w.Prepared codecs r path source content t kept) (bytes : Bytes) :
    w.Spares (fun s => w.locate path.text = .ok s) (kept.withFile source bytes) :=
  (h.spares.mono fun _ => False.elim).trans (Workspace.spares_withFile bytes (.inl h.locate))

theorem read_withFile (h : w.Prepared codecs r path source content t kept) (bytes : Bytes) :
    (kept.withFile source bytes).read path.text = .ok bytes :=
  read_eq_ok.2 ⟨source, (locate_withFile source bytes).2 h.kept_locate,
    get?_withFile_self bytes (takes_of_locate h.kept_locate h.kept_ne_directory)⟩

/-- A backup that was not there holds the `content`, whatever is written at the file. -/
theorem read_backup (h : w.Prepared codecs r path source content t kept) (bytes : Bytes)
    (hbackup : r.backup = true) :
    ∃ beside, backupPath? path = some beside ∧ (w.look beside.text = .ok none →
      (kept.withFile source bytes).read beside.text = .ok content) := by
  have hkeeping := h.keeping
  rw [if_pos hbackup] at hkeeping
  obtain ⟨beside, hpath, hcases⟩ := keepBackup_eq_ok hkeeping
  refine ⟨beside, hpath, fun hlook => ?_⟩
  rcases hcases with ⟨⟨e, he⟩, _⟩ | ⟨place, hplace, hfree, rfl⟩
  · rw [hlook] at he
    cases he
  · have htakes : w.Takes place := takes_of_locate hplace (by simp [hfree])
    -- the backup took a place where nothing was, and so not that of the file
    have hne : place ≠ source := by
      rintro rfl
      exact absurd (hfree.symm.trans h.get?) (by simp)
    refine read_eq_ok.2 ⟨place, ?_, ?_⟩
    · rw [locate_withFile, locate_withFile]
      exact hplace
    · rw [get?_withFile_of_ne bytes hne, get?_withFile_self content htakes]

theorem read (h : w.Prepared codecs r path source content t kept) :
    w.read path.text = .ok content :=
  read_eq_ok.2 ⟨source, h.locate, h.get?⟩

theorem emptied (h : w.Prepared codecs r path source content t kept) :
    w.Emptied r.backup path (kept.withFile source []) :=
  ⟨h.read_withFile [], content, h.read, h.read_backup []⟩

end Prepared

/-- What `reencodeFile` can come to. -/
inductive Reencoded (w : Workspace) (codecs : Codecs) (r : Reencoding) (path : Path) :
    Run Unit → Prop where
  /-- The file is not read or is no text; nothing is written. -/
  | unread {f : Failure} (h : w.decodeFile codecs r.source path = .error f) :
      w.Reencoded codecs r path { outcome := .error f, workspace := w }
  /-- The file has no backup; nothing is written. -/
  | unkept {f : Failure} {content : Bytes} (h : w.keepBackup path content = .error f) :
      w.Reencoded codecs r path { outcome := .error f, workspace := w }
  /-- The new encoding cannot be asked for; the file is not opened again. -/
  | unnamable {source : Route} {content : Bytes} {t : Text} {kept : Workspace}
      (h : w.Prepared codecs r path source content t kept) :
      w.Reencoded codecs r path { outcome := .error .badEncodingName, workspace := kept }
  /-- The new encoding is not known; the file is empty. -/
  | unknown {source : Route} {content : Bytes} {t : Text} {kept : Workspace}
      (h : w.Prepared codecs r path source content t kept) :
      w.Reencoded codecs r path
        { outcome := .error .unknownEncoding, workspace := kept.withFile source [] }
  /-- The new encoding has no bytes for the text; the file is empty. -/
  | unencodable {source : Route} {content : Bytes} {t : Text} {kept : Workspace}
      {f : Charset.Fault} (h : w.Prepared codecs r path source content t kept) :
      w.Reencoded codecs r path
        { outcome := .error (.file (.encoding f)), workspace := kept.withFile source [] }
  | converted {source : Route} {content : Bytes} {t : Text} {kept : Workspace} (bytes : Bytes)
      (h : w.Prepared codecs r path source content t kept) :
      w.Reencoded codecs r path
        { outcome := .ok (), workspace := kept.withFile source bytes,
          log := if r.silent then [] else [.converted path.text] }

/-- A file that `decodeFile` fails on is not written, either. -/
theorem decodeFile_eq_error {w : Workspace} {codecs : Codecs} {source : Text} {path : Path}
    {f : Failure} (h : w.decodeFile codecs source path = .error f) :
    (∀ fault, f = .file fault → fault.isEncoding = false) ∧
      (f = .unknownEncoding → codecs.text? source = none) := by
  unfold decodeFile at h
  split at h
  · cases h
    simp
  · split at h
    · cases h
      simp [FileFault.isEncoding]
    · split at h
      · rename_i hnone
        cases h
        simp [hnone]
      · split at h
        · cases h
          simp [FileFault.isEncoding]
        · cases h

theorem decodeFile_eq_ok {w : Workspace} {codecs : Codecs} {source : Text} {path : Path}
    {content : Bytes} {t : Text} (h : w.decodeFile codecs source path = .ok (content, t)) :
    w.read path.text = .ok content ∧
      ∃ codec, codecs.text? source = some codec ∧ codec.decode content = .ok t := by
  unfold decodeFile at h
  split at h
  · cases h
  · split at h
    · cases h
    · rename_i hread
      split at h
      · cases h
      · rename_i codec hcodec
        split at h
        · cases h
        · rename_i hdecode
          cases h
          exact ⟨hread, codec, hcodec, hdecode⟩

/-- `keepBackup` fails by the system, or because there is no name for the backup. -/
theorem keepBackup_eq_error {w : Workspace} {path : Path} {content : Bytes} {f : Failure}
    (h : w.keepBackup path content = .error f) :
    f = .badName ∧ backupPath? path = none ∨ ∃ g, f = .file (.system g) := by
  unfold keepBackup at h
  split at h
  · rename_i hnone
    cases h
    exact .inl ⟨rfl, hnone⟩
  · rename_i backup _
    split at h
    · cases h
      exact .inr ⟨_, rfl⟩
    · cases h
    · cases hwrite : w.write backup.text content with
      | ok _ => simp [hwrite, Except.mapError] at h
      | error g =>
        rw [hwrite] at h
        cases h
        exact .inr ⟨g, rfl⟩

/-- `overwrite` leaves a prepared file as it is if the encoding cannot even be asked for, empties it
    if there is no such encoding or it has no bytes for the text, and otherwise gives it the new
    bytes. -/
theorem Prepared.overwrite_cases {w kept : Workspace} {codecs : Codecs} {r : Reencoding} {path : Path}
    {source : Route} {content : Bytes} {t : Text}
    (h : w.Prepared codecs r path source content t kept) :
    let run := kept.overwrite codecs r.target path t
    run = { outcome := .error .badEncodingName, workspace := kept } ∨
      run = { outcome := .error .unknownEncoding, workspace := kept.withFile source [] } ∨
      (∃ f, run =
        { outcome := .error (.file (.encoding f)), workspace := kept.withFile source [] }) ∨
      ∃ bytes, run = { outcome := .ok (), workspace := kept.withFile source bytes } := by
  -- there is a file, so that it is opened and written without fail
  have hfile := h.kept_ne_directory
  have hemptied := write_eq [] h.kept_locate hfile
  intro run
  simp only [run, overwrite, hemptied]
  split
  · exact .inl rfl
  · right
    split
    · exact .inl rfl
    · right
      split
      · exact .inl ⟨_, rfl⟩
      · rename_i bytes _
        simp only [write_withFile [] bytes h.kept_locate hfile]
        exact .inr ⟨bytes, rfl⟩

/-- **What `reencodeFile` comes to** is one of the cases of `Reencoded`. -/
theorem reencodeFile_reencoded (w : Workspace) (codecs : Codecs) (r : Reencoding) (path : Path) :
    w.Reencoded codecs r path (w.reencodeFile codecs r path) := by
  unfold reencodeFile
  split
  · rename_i f hdecode
    exact .unread hdecode
  · rename_i content t hdecode
    obtain ⟨hread, hcodec⟩ := decodeFile_eq_ok hdecode
    obtain ⟨source, hlocate, hget⟩ := read_eq_ok.1 hread
    split
    · rename_i f hkeeping
      split at hkeeping
      · exact .unkept hkeeping
      · cases hkeeping
    · rename_i kept hkeeping
      have h : w.Prepared codecs r path source content t kept := ⟨hlocate, hget, hcodec, hkeeping⟩
      rcases h.overwrite_cases with hrun | hrun | ⟨f, hrun⟩ | ⟨bytes, hrun⟩
      · rw [hrun]
        exact .unnamable h
      · rw [hrun]
        exact .unknown h
      · rw [hrun]
        exact .unencodable h
      · rw [hrun]
        exact .converted bytes h

namespace Reencoded

variable {w : Workspace} {codecs : Codecs} {r : Reencoding} {path : Path} {run : Run Unit}

theorem spares (h : w.Reencoded codecs r path run) :
    w.Spares (fun s => w.locate path.text = .ok s) run.workspace := by
  cases h with
  | unread h => exact .refl _ _
  | unkept h => exact .refl _ _
  | unnamable h => exact h.spares.mono fun _ => False.elim
  | unknown h => exact h.spares_withFile []
  | unencodable h => exact h.spares_withFile []
  | converted bytes h => exact h.spares_withFile bytes

/-- The re-encoding of a single file logs nothing as `failed`. -/
theorem failed_not_mem_log (h : w.Reencoded codecs r path run) (p : Text) (fault : FileFault) :
    LogLine.failed p fault ∉ run.log := by
  cases h with
  | converted bytes h =>
    dsimp only
    split <;> simp
  | _ => simp

/-- Nothing has changed after a `decoding` failure: the bytes of the file are no text. -/
theorem workspace_of_decoding {f : Charset.Fault} (h : w.Reencoded codecs r path run)
    (hfailed : run.outcome = .error (.file (.decoding f))) : run.workspace = w := by
  cases h with
  | unread h => rfl
  | unkept h => rfl
  | _ => cases hfailed

/-- A file is `Emptied` if its text has no bytes. -/
theorem emptied_of_encoding {f : Charset.Fault} (h : w.Reencoded codecs r path run)
    (hfailed : run.outcome = .error (.file (.encoding f))) :
    w.Emptied r.backup path run.workspace := by
  cases h with
  | unread h => cases (decodeFile_eq_error h).1 _ (Except.error.inj hfailed)
  | unkept h => rcases keepBackup_eq_error h with ⟨rfl, _⟩ | ⟨g, rfl⟩ <;> cases hfailed
  | unencodable h => exact h.emptied
  | _ => cases hfailed

/-- A file is `Emptied` if it could be read and the encoding that it should get is not known. -/
theorem emptied_of_unknown (h : w.Reencoded codecs r path run)
    (hfailed : run.outcome = .error .unknownEncoding) (hsource : codecs.text? r.source ≠ none) :
    w.Emptied r.backup path run.workspace := by
  cases h with
  | unread h => exact absurd ((decodeFile_eq_error h).2 (Except.error.inj hfailed)) hsource
  | unkept h => rcases keepBackup_eq_error h with ⟨rfl, _⟩ | ⟨g, rfl⟩ <;> cases hfailed
  | unknown h => exact h.emptied
  | _ => cases hfailed

/-- Whatever else fails, the file has the bytes that it had. -/
theorem read_of_failed {f : Failure} {content : Bytes} (h : w.Reencoded codecs r path run)
    (hfailed : run.outcome = .error f) (hencoding : ∀ g, f ≠ .file (.encoding g))
    (hknown : f = .unknownEncoding → codecs.text? r.source = none)
    (hread : w.read path.text = .ok content) : run.workspace.read path.text = .ok content := by
  cases h with
  | unread h => exact hread
  | unkept h => exact hread
  | unnamable h => exact h.spares.read (fun _ _ => id) hread
  | unknown h =>
    obtain ⟨codec, hcodec, _⟩ := h.decode
    rw [hknown (Except.error.inj hfailed).symm] at hcodec
    cases hcodec
  | unencodable h => exact absurd (Except.error.inj hfailed).symm (hencoding _)
  | converted bytes h => cases hfailed

end Reencoded

/-! ## Files one after the other -/

theorem Apart.of_spares {w after : Workspace} {touched : Route → Prop} {paths : List Path}
    (h : w.Apart paths) (hspares : w.Spares touched after)
    (hpaths : ∀ p ∈ paths, ∀ r, w.locate p.text = .ok r → ¬touched r) : after.Apart paths := by
  constructor
  · intro p hp r hr
    rw [hspares.locate] at hr
    obtain ⟨content, hcontent⟩ := h.files p hp r hr
    exact ⟨content, hspares.get? r _ (hpaths p hp r hr) hcontent⟩
  · refine h.distinct.imp fun hpq r hr hr' => ?_
    rw [hspares.locate] at hr hr'
    exact hpq r hr hr'

/-- `reencodeFiles` changes nothing but these files. -/
theorem spares_reencodeFiles (w : Workspace) (codecs : Codecs) (r : Reencoding)
    (paths : List Path) :
    w.Spares (fun s => ∃ p ∈ paths, w.locate p.text = .ok s)
      (w.reencodeFiles codecs r paths).workspace := by
  induction paths generalizing w with
  | nil => exact .refl _ _
  | cons path rest ih =>
    have hfile := (reencodeFile_reencoded w codecs r path).spares
    have hfirst : w.Spares (fun s => ∃ p ∈ path :: rest, w.locate p.text = .ok s)
        (w.reencodeFile codecs r path).workspace :=
      hfile.mono fun s hs => ⟨path, List.mem_cons_self, hs⟩
    have hlater : (w.reencodeFile codecs r path).workspace.Spares
        (fun s => ∃ p ∈ path :: rest, w.locate p.text = .ok s)
        ((w.reencodeFile codecs r path).workspace.reencodeFiles codecs r rest).workspace :=
      (ih _).mono fun s ⟨p, hp, hs⟩ => ⟨p, List.mem_cons_of_mem _ hp, (hfile.locate _ _).1 hs⟩
    unfold reencodeFiles
    dsimp only
    split
    · exact hfirst.trans hlater
    · exact hfirst.trans hlater
    · exact hfirst

/-- What a file that is logged as failed is left with: it is empty if its text has no bytes, and
    otherwise has the bytes that it had. -/
def LeftBehind (w after : Workspace) (path : Text) (fault : FileFault) : Prop :=
  ∀ content, w.read path = .ok content →
    after.read path = .ok (if fault.isEncoding then [] else content)

theorem Reencoded.leftBehind {w : Workspace} {codecs : Codecs} {r : Reencoding} {path : Path}
    {run : Run Unit} {fault : FileFault} (h : w.Reencoded codecs r path run)
    (hfailed : run.outcome = .error (.file fault)) :
    w.LeftBehind run.workspace path.text fault := by
  intro content hread
  cases fault with
  | encoding f => exact (h.emptied_of_encoding hfailed).isEmpty
  | decoding f => exact h.read_of_failed hfailed (by simp) (by simp) hread
  | system f => exact h.read_of_failed hfailed (by simp) (by simp) hread

namespace LeftBehind

variable {w after last : Workspace} {touched : Route → Prop} {path : Text} {fault : FileFault}

/-- A file stays as it was left by what is done later to other files, those `touched`. -/
theorem later (h : w.LeftBehind after path fault) (hspares : after.Spares touched last)
    (hpath : ∀ r, after.locate path = .ok r → ¬touched r) : w.LeftBehind last path fault :=
  fun content hread => hspares.read hpath (h content hread)

/-- A file is left as if nothing had been done before to other files, those `touched`. -/
theorem earlier (h : after.LeftBehind last path fault) (hspares : w.Spares touched after)
    (hpath : ∀ r, w.locate path = .ok r → ¬touched r) : w.LeftBehind last path fault :=
  fun content hread => h content (hspares.read hpath hread)

end LeftBehind

/-- Every file that `reencodeFiles` logs as failed is left as a re-encoding of it alone would leave
    it. -/
theorem leftBehind_reencodeFiles {w : Workspace} {codecs : Codecs} {r : Reencoding}
    {paths : List Path} {path : Text} {fault : FileFault} (hapart : w.Apart paths)
    (h : LogLine.failed path fault ∈ (w.reencodeFiles codecs r paths).log) :
    ∃ p ∈ paths, p.text = path ∧
      w.LeftBehind (w.reencodeFiles codecs r paths).workspace path fault := by
  induction paths generalizing w with
  | nil => simp [reencodeFiles] at h
  | cons first rest ih =>
    have hfirst := reencodeFile_reencoded w codecs r first
    have hspares := hfirst.spares
    obtain ⟨hnext, hdistinct⟩ := List.pairwise_cons.1 hapart.distinct
    have hrest : (w.reencodeFile codecs r first).workspace.Apart rest :=
      Apart.of_spares ⟨fun q hq => hapart.files q (List.mem_cons_of_mem _ hq), hdistinct⟩ hspares
        fun q hq s hs hs' => hnext q hq s hs' hs
    -- a failure of a later file, seen from before the first one
    have hlater (hlog : LogLine.failed path fault ∈
        ((w.reencodeFile codecs r first).workspace.reencodeFiles codecs r rest).log) :
        ∃ p ∈ first :: rest, p.text = path ∧ w.LeftBehind
          ((w.reencodeFile codecs r first).workspace.reencodeFiles codecs r rest).workspace
            path fault := by
      obtain ⟨q, hq, rfl, hleft⟩ := ih hrest hlog
      refine ⟨q, List.mem_cons_of_mem _ hq, rfl, hleft.earlier hspares ?_⟩
      exact fun s hs hs' => hnext q hq s hs' hs
    unfold reencodeFiles at h ⊢
    dsimp only at h ⊢
    split at h
    · refine hlater ((List.mem_append.1 h).resolve_left ?_)
      exact hfirst.failed_not_mem_log path fault
    · rename_i f hfailed
      rcases List.mem_cons.1 h with heq | hlog
      · cases heq
        refine ⟨first, List.mem_cons_self, rfl, ?_⟩
        refine (hfirst.leftBehind hfailed).later (spares_reencodeFiles _ codecs r rest) ?_
        rintro s hs ⟨q, hq, hs'⟩
        rw [hspares.locate] at hs hs'
        exact hnext q hq s hs hs'
      · exact hlater hlog
    · exact absurd h (hfirst.failed_not_mem_log path fault)

/-! ## The system's own names -/

section

variable {codecs : Codecs}

theorem ownEncoding_eq_ok {name own : Text} (h : ownEncoding codecs name = .ok own) :
    Codecs.isNamable name = true ∧ codecs.ownName? name = some own := by
  unfold ownEncoding at h
  split at h
  · cases h
  · rename_i hnamable
    cases hname : codecs.ownName? name with
    | none => simp [hname] at h
    | some found =>
      rw [hname] at h
      cases h
      exact ⟨by simpa using hnamable, rfl⟩

theorem ownReencoding_eq_ok {r own : Reencoding} (h : ownReencoding codecs r = .ok own) :
    ∃ source target, ownEncoding codecs r.source = .ok source ∧
      ownEncoding codecs r.target = .ok target ∧ own = { r with source, target } := by
  cases hsource : ownEncoding codecs r.source with
  | error f => simp [ownReencoding, hsource, bind, Except.bind] at h
  | ok source =>
    cases htarget : ownEncoding codecs r.target with
    | error f => simp [ownReencoding, hsource, htarget, bind, Except.bind] at h
    | ok target =>
      simp only [ownReencoding, hsource, htarget, bind, Except.bind, pure, Except.pure,
        Except.ok.injEq] at h
      exact ⟨source, target, rfl, rfl, h.symm⟩

theorem isNamable_own {name own : Text} (h : ownEncoding codecs name = .ok own) :
    Codecs.isNamable own = Codecs.isNamable name := by
  obtain ⟨hnamable, hown⟩ := ownEncoding_eq_ok h
  rw [hnamable, Codecs.isNamable]
  simpa using codecs.ownName?_clean hown

/-- By the names of `ownReencoding`, the system's own, a file is re-encoded as by the given ones. -/
theorem reencodeFile_own {r own : Reencoding} (h : ownReencoding codecs r = .ok own) (w : Workspace)
    (path : Path) : w.reencodeFile codecs own path = w.reencodeFile codecs r path := by
  obtain ⟨source, target, hsource, htarget, rfl⟩ := ownReencoding_eq_ok h
  have hread := codecs.text?_ownName? (ownEncoding_eq_ok hsource).2
  have hwritten := codecs.text?_ownName? (ownEncoding_eq_ok htarget).2
  simp only [reencodeFile, decodeFile, overwrite, isNamable_own hsource, isNamable_own htarget, hread,
    hwritten]

theorem reencodeFiles_own {r own : Reencoding} (h : ownReencoding codecs r = .ok own) (w : Workspace)
    (paths : List Path) : w.reencodeFiles codecs own paths = w.reencodeFiles codecs r paths := by
  induction paths generalizing w with
  | nil => rfl
  | cons path rest ih => simp only [reencodeFiles, reencodeFile_own h, ih]

end

/-! ## Directories -/

theorem planReencoding_eq_ok {w : Workspace} {codecs : Codecs} {r own : Reencoding} {root : Path}
    {paths : List Path} (h : w.planReencoding codecs r root = .ok (own, paths)) :
    ownReencoding codecs r = .ok own ∧ w.listFiles root.text r.extensions = .ok paths := by
  cases hroot : w.checkDirectory root with
  | error f => simp [planReencoding, hroot, bind, Except.bind] at h
  | ok _ =>
    cases hown : ownReencoding codecs r with
    | error f => simp [planReencoding, hroot, hown, bind, Except.bind] at h
    | ok found =>
      cases hlist : w.listFiles root.text r.extensions with
      | error f => simp [planReencoding, hroot, hown, hlist, Except.mapError, bind, Except.bind] at h
      | ok listed =>
        simp only [planReencoding, hroot, hown, hlist, Except.mapError, bind, Except.bind, pure,
          Except.pure, Except.ok.injEq, Prod.mk.injEq] at h
        exact ⟨congrArg _ h.1, congrArg _ h.2⟩

theorem leftBehind_reencodeDirectory {w : Workspace} {codecs : Codecs} {r : Reencoding}
    {given path : Text} {fault : FileFault}
    (h : LogLine.failed path fault ∈ (w.reencodeDirectory codecs r given).log) :
    w.LeftBehind (w.reencodeDirectory codecs r given).workspace path fault := by
  unfold reencodeDirectory at h ⊢
  dsimp only at h ⊢
  split at h
  · simp at h
  · rename_i own paths hplan
    obtain ⟨hown, hlist⟩ := planReencoding_eq_ok hplan
    obtain ⟨_, _, _, hleft⟩ := leftBehind_reencodeFiles (apart_listFiles hlist) h
    exact hleft

/-- **A failed re-encoding empties a file whose text has no bytes, and spares all others.** If the
    bytes of a file are no text then nothing at all has changed after `reencodeFile`. If the new
    encoding has no bytes for its text then the file is empty, and so it is if there is no such
    encoding; then a backup that was not there before has what was in it, and nothing else has
    (`Emptied`). After any other failure the file has its bytes. After the re-encoding of a
    directory the same holds of all files that are logged as failed. -/
theorem reencoding_failed (w : Workspace) (codecs : Codecs) (r : Reencoding) :
    (∀ path f, (w.reencodeFile codecs r path).outcome = .error (.file (.decoding f)) →
      (w.reencodeFile codecs r path).workspace = w) ∧
    (∀ path f, (w.reencodeFile codecs r path).outcome = .error (.file (.encoding f)) →
      w.Emptied r.backup path (w.reencodeFile codecs r path).workspace) ∧
    (∀ path, (w.reencodeFile codecs r path).outcome = .error .unknownEncoding →
      codecs.text? r.source ≠ none →
        w.Emptied r.backup path (w.reencodeFile codecs r path).workspace) ∧
    (∀ path f content, (w.reencodeFile codecs r path).outcome = .error f →
      (∀ g, f ≠ .file (.encoding g)) →
      (f = .unknownEncoding → codecs.text? r.source = none) → w.read path.text = .ok content →
        (w.reencodeFile codecs r path).workspace.read path.text = .ok content) ∧
    ∀ given path fault content,
      LogLine.failed path fault ∈ (w.reencodeDirectory codecs r given).log →
        w.read path = .ok content →
          (w.reencodeDirectory codecs r given).workspace.read path =
            .ok (if fault.isEncoding then [] else content) := by
  have hfile (path : Path) := reencodeFile_reencoded w codecs r path
  refine ⟨fun path f => (hfile path).workspace_of_decoding,
    fun path f => (hfile path).emptied_of_encoding, fun path => (hfile path).emptied_of_unknown,
    fun path f content => (hfile path).read_of_failed, ?_⟩
  intro given path fault content hlogged
  exact leftBehind_reencodeDirectory hlogged content

/-- A workspace with a file that ASCII has no bytes for, one that is no text, and one that is both
    in UTF-8 and in ASCII. -/
def threeFiles : Workspace :=
  ⟨((FileTree.empty.addFile ["a.txt".toList] [0xC3, 0xA9]).addFile ["b.txt".toList] [0xFF]).addFile
    ["c.txt".toList] [0x78], ⟨.root, []⟩⟩

/-- From UTF-8 to ASCII, without backups. -/
def toAscii : Reencoding :=
  { source := "utf-8", target := "ascii", extensions := [".txt".toList], backup := false }

/-- What ASCII has no bytes for. -/
def accent : Charset.Fault := .unencodable "ascii" 0 1 'é' .notAscii

/-- What is no text in UTF-8. -/
def strayByte : Charset.Fault := .undecodable "utf-8" 0 1 0xFF .invalidStart

theorem read_threeFiles : threeFiles.read "a.txt" = .ok [0xC3, 0xA9] :=
  eq_ok_of_toOption (by decide +kernel)

theorem outcome_threeFiles :
    (threeFiles.reencodeFile Charset.codecs toAscii (Path.ofText "a.txt")).outcome =
      .error (.file (.encoding accent)) := by decide +kernel

theorem planReencoding_threeFiles :
    threeFiles.planReencoding Charset.codecs toAscii (Path.ofText ".") =
      .ok (toAscii, [Path.ofText "a.txt", Path.ofText "b.txt", Path.ofText "c.txt"]) := by
  have hroutes : threeFiles.selectedRoutes [] (Selection.normalizeExtensions toAscii.extensions) =
      [["a.txt".toList], ["b.txt".toList], ["c.txt".toList]] :=
    (List.mergeSort_of_pairwise (by decide +kernel)).trans (by decide +kernel)
  have hlocate : threeFiles.locate (Path.ofText ".").text = .ok [] :=
    eq_ok_of_toOption (by decide +kernel)
  have hlist : threeFiles.listFiles (Path.ofText ".").text toAscii.extensions = _ :=
    listFiles_eq (directory?_eq_some.2 ⟨hlocate, rfl⟩)
  rw [listed, hroutes] at hlist
  have hroot : threeFiles.checkDirectory (Path.ofText ".") = .ok () :=
    eq_ok_of_toOption (by decide +kernel)
  have hown : ownReencoding Charset.codecs toAscii = .ok toAscii :=
    eq_ok_of_toOption (by decide +kernel)
  simp only [planReencoding, hroot, hown, hlist]
  decide +kernel

theorem log_threeFiles : (threeFiles.reencodeDirectory Charset.codecs toAscii ".").log =
    [.failed "a.txt" (.encoding accent), .failed "b.txt" (.decoding strayByte),
      .converted "c.txt"] := by
  simp only [reencodeDirectory, planReencoding_threeFiles]
  decide +kernel

/-- The file without bytes in ASCII is emptied, and so it is if the new encoding is unknown. The
    file that is no text keeps its byte. -/
theorem reencoding_failed_threeFiles :
    let file := threeFiles.reencodeFile Charset.codecs toAscii (Path.ofText "a.txt")
    let unknown := threeFiles.reencodeFile Charset.codecs { toAscii with target := "ascci" }
      (Path.ofText "a.txt")
    let directory := threeFiles.reencodeDirectory Charset.codecs toAscii "."
    (file.outcome = .error (.file (.encoding accent)) ∧
      file.workspace.read (Path.ofText "a.txt").text = .ok []) ∧
      (unknown.outcome = .error .unknownEncoding ∧
        unknown.workspace.read (Path.ofText "a.txt").text = .ok []) ∧
      (LogLine.failed "a.txt" (.encoding accent) ∈ directory.log ∧
        directory.workspace.read "a.txt" = .ok []) ∧
      LogLine.failed "b.txt" (.decoding strayByte) ∈ directory.log ∧
        directory.workspace.read "b.txt" = .ok [0xFF] := by
  intro file unknown directory
  have hlog : directory.log = _ := log_threeFiles
  have ha : LogLine.failed "a.txt" (.encoding accent) ∈ directory.log := by
    rw [hlog]
    simp
  have hb : LogLine.failed "b.txt" (.decoding strayByte) ∈ directory.log := by
    rw [hlog]
    simp
  have hunknown : unknown.outcome = .error .unknownEncoding := by decide +kernel
  obtain ⟨_, hfile, _, _, hdirectory⟩ := reencoding_failed threeFiles Charset.codecs toAscii
  obtain ⟨_, _, hnowhere, _⟩ :=
    reencoding_failed threeFiles Charset.codecs { toAscii with target := "ascci" }
  refine ⟨⟨outcome_threeFiles, (hfile _ _ outcome_threeFiles).isEmpty⟩,
    ⟨hunknown, (hnowhere _ hunknown (by decide +kernel)).isEmpty⟩,
    ⟨ha, hdirectory _ _ _ _ ha read_threeFiles⟩, hb, ?_⟩
  exact hdirectory _ _ _ _ hb (eq_ok_of_toOption (by decide +kernel))

/-- A re-encoding that fails can lose what is in a file, by itself and in a directory. -/
theorem reencoding_loses_content :
    let file := threeFiles.reencodeFile Charset.codecs toAscii (Path.ofText "a.txt")
    let directory := threeFiles.reencodeDirectory Charset.codecs toAscii "."
    threeFiles.read "a.txt" = .ok [0xC3, 0xA9] ∧
      file.outcome = .error (.file (.encoding accent)) ∧ file.workspace.read "a.txt" = .ok [] ∧
      LogLine.failed "a.txt" (.encoding accent) ∈ directory.log ∧
      directory.workspace.read "a.txt" = .ok [] := by
  intro file directory
  have hlog : directory.log = _ := log_threeFiles
  refine ⟨read_threeFiles, outcome_threeFiles, eq_ok_of_toOption (by decide +kernel),
    by rw [hlog]; simp, ?_⟩
  simp only [directory, reencodeDirectory, planReencoding_threeFiles]
  exact eq_ok_of_toOption (by decide +kernel)

end Workspace
end Seashell
