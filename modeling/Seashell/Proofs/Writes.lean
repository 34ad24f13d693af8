import Seashell.Proofs.Reencoding

set_option autoImplicit false

/-! # What a re-encoding writes

The re-encoding of a file comes down to a list of writes: a backup, if there is room for one, and
then the file itself. `Workspace.withFiles` is the workspace after some writes. As long as files can
be at the places that are written (`Workspace.TakesAll`), each place has in the end what was written
there last, and paths lead where they led.

`Workspace.writes` are the writes of `Workspace.reencodeFile`, by
`Workspace.workspace_reencodeFile`. They depend on where paths lead, on the content of the file and
on whether there is something at the place of its backup, and on nothing else:
`Workspace.writes_congr`. A backup has a longer name than its file and stands beside it, so that two
files whose backups have one place are one file (`Workspace.place?_eq_of_backupPlace?_eq`). -/

namespace Seashell

open Text

/-! ## Several writes -/

namespace Workspace

/-- The workspace after some files have been written one after the other, each by `withFile`. -/
def withFiles (w : Workspace) (writes : List (Route × Bytes)) : Workspace :=
  writes.foldl (fun w write => w.withFile write.1 write.2) w

@[simp] theorem withFiles_nil (w : Workspace) : w.withFiles [] = w := rfl

@[simp] theorem withFiles_cons (w : Workspace) (r : Route) (content : Bytes)
    (writes : List (Route × Bytes)) :
    w.withFiles ((r, content) :: writes) = (w.withFile r content).withFiles writes := rfl

theorem withFiles_append (w : Workspace) (first second : List (Route × Bytes)) :
    w.withFiles (first ++ second) = (w.withFiles first).withFiles second :=
  List.foldl_append

@[simp] theorem here_withFiles (w : Workspace) (writes : List (Route × Bytes)) :
    (w.withFiles writes).here = w.here := by
  induction writes generalizing w with
  | nil => rfl
  | cons write rest ih => exact ih _

theorem get?_withFiles_of_not_mem {w : Workspace} {writes : List (Route × Bytes)} {s : Route}
    (h : s ∉ writes.map (·.1)) : (w.withFiles writes).tree.get? s = w.tree.get? s := by
  induction writes generalizing w with
  | nil => rfl
  | cons write rest ih =>
    rw [List.map_cons, List.mem_cons, not_or] at h
    obtain ⟨r, content⟩ := write
    rw [withFiles_cons, ih h.2, get?_withFile_of_ne content h.1]

/-- Files can be at all places that are written, by `Takes`. -/
def TakesAll (w : Workspace) (writes : List (Route × Bytes)) : Prop :=
  ∀ s ∈ writes.map (·.1), w.Takes s

theorem Takes.withFile {w : Workspace} {r s : Route} (content : Bytes) (hr : w.Takes r)
    (hs : w.Takes s) : (w.withFile r content).Takes s :=
  fun other => FileTree.admits_put (hr content) (hs other)

theorem TakesAll.tail {w : Workspace} {r : Route} {content : Bytes} {writes : List (Route × Bytes)}
    (h : w.TakesAll ((r, content) :: writes)) : (w.withFile r content).TakesAll writes :=
  fun s hs => (h r (by simp)).withFile content (h s (List.mem_cons_of_mem _ hs))

theorem TakesAll.append {w : Workspace} {first second : List (Route × Bytes)}
    (hfirst : w.TakesAll first) (hsecond : w.TakesAll second) :
    (w.withFiles first).TakesAll second := by
  induction first generalizing w with
  | nil => exact hsecond
  | cons write rest ih =>
    exact ih hfirst.tail fun s hs => (hfirst write.1 (by simp)).withFile write.2 (hsecond s hs)

/-- What `withFiles` writes at a route is there afterwards. -/
theorem get?_withFiles_of_mem {w : Workspace} {writes : List (Route × Bytes)} {s : Route}
    (htakes : w.TakesAll writes) (h : s ∈ writes.map (·.1)) :
    ∃ bytes, (s, bytes) ∈ writes ∧ (w.withFiles writes).tree.get? s = some (.file bytes) := by
  induction writes generalizing w with
  | nil => simp at h
  | cons write rest ih =>
    obtain ⟨r, content⟩ := write
    by_cases hlater : s ∈ rest.map (·.1)
    · obtain ⟨bytes, hmem, hget⟩ := ih htakes.tail hlater
      exact ⟨bytes, List.mem_cons_of_mem _ hmem, hget⟩
    · rw [List.map_cons, List.mem_cons, or_iff_left hlater] at h
      subst h
      refine ⟨content, List.mem_cons_self, ?_⟩
      rw [withFiles_cons, get?_withFiles_of_not_mem hlater,
        get?_withFile_self content (htakes s (by simp))]

/-- What is at a route after `withFiles` depends on what was there, and on nothing else. -/
theorem get?_withFiles_congr {w v : Workspace} {s : Route} {writes : List (Route × Bytes)}
    (hw : w.TakesAll writes) (hv : v.TakesAll writes) (h : w.tree.get? s = v.tree.get? s) :
    (w.withFiles writes).tree.get? s = (v.withFiles writes).tree.get? s := by
  induction writes generalizing w v with
  | nil => exact h
  | cons write rest ih =>
    obtain ⟨r, content⟩ := write
    refine ih hw.tail hv.tail ?_
    simp only [withFile, FileTree.get?_put s (hw r (by simp) content),
      FileTree.get?_put s (hv r (by simp) content), h]

theorem locate_withFiles {w : Workspace} (writes : List (Route × Bytes)) {path : Text}
    {x : Except FileTree.Obstacle Route} (hfound : x ≠ .error .notFound)
    (hdirectory : x ≠ .error .notDirectory) :
    (w.withFiles writes).locate path = x ↔ w.locate path = x := by
  induction writes generalizing w with
  | nil => exact Iff.rfl
  | cons write rest ih =>
    obtain ⟨place, content⟩ := write
    rw [withFiles_cons, ih, locate_withFile_eq place content hfound hdirectory]

/-! ## Where a path and its backup lead -/

/-- Where a path leads by `locate`, if it leads anywhere. -/
def place? (w : Workspace) (path : Path) : Option Route := (w.locate path.text).toOption

theorem place?_eq_some {w : Workspace} {path : Path} {r : Route} :
    w.place? path = some r ↔ w.locate path.text = .ok r := by
  unfold place?
  cases w.locate path.text <;> simp [Except.toOption]

/-- Where the path of the backup of a file, `backupPath?`, leads, if it leads anywhere. -/
def backupPlace? (w : Workspace) (path : Path) : Option Route := (backupPath? path).bind w.place?

theorem backupPlace?_eq_some {w : Workspace} {path : Path} {r : Route} :
    w.backupPlace? path = some r ↔
      ∃ backup, backupPath? path = some backup ∧ w.locate backup.text = .ok r := by
  simp only [backupPlace?, Option.bind_eq_some_iff, place?_eq_some]

theorem place?_withFiles (w : Workspace) (writes : List (Route × Bytes)) :
    (w.withFiles writes).place? = w.place? := by
  funext path
  refine Option.ext fun r => ?_
  rw [place?_eq_some, place?_eq_some, locate_withFiles writes (by simp) (by simp)]

/-- `keepBackup` succeeds exactly if the path of the backup leads somewhere. It is written if
    nothing is there. -/
theorem keepBackup_toOption (w : Workspace) (path : Path) (content : Bytes) :
    (w.keepBackup path content).toOption = (w.backupPlace? path).map fun place =>
      w.withFiles (if w.tree.get? place = none then [(place, content)] else []) := by
  unfold keepBackup backupPlace?
  cases hpath : backupPath? path with
  | none => rfl
  | some backup =>
    simp only [Option.bind_some, place?]
    cases hlocate : w.locate backup.text with
    | error o => cases o <;> simp [look, entry, write, hlocate, Except.toOption, Except.mapError]
    | ok place =>
      cases hget : w.tree.get? place with
      | some e => simp [look, entry, hlocate, hget, Except.toOption]
      | none =>
        have hwrite := write_eq (w := w) content hlocate (by simp [hget])
        simp [look, entry, hlocate, hget, hwrite, Except.toOption, Except.mapError]

end Workspace

/-! ## Lengths of paths -/

namespace FileTree

/-- A longer name is the name of something else than a directory in place. -/
theorem stepFrom_backup (r : Route) (name : Text) :
    stepFrom r (name ++ ".bak") = r ++ [name ++ ".bak"] := by
  have hne (t : Text) (ht : t.length ≤ 2) : name ++ ".bak".toList ≠ t := by
    intro he
    have hlength : name.length + 4 = t.length := List.length_append.symm.trans (congrArg _ he)
    omega
  rw [stepFrom, if_neg (hne _ (by simp)), if_neg (hne _ (by simp))]

end FileTree

namespace Path

/-- The last part of a path stands at the end of its `text`. -/
theorem exists_text_eq_append (start : Start) (parents : List Text) :
    ∃ lead, ∀ name, text ⟨start, parents ++ [name]⟩ = lead ++ name := by
  have hjoin : ∃ lead, ∀ name, join ['/'] (parents ++ [name]) = lead ++ name := by
    induction parents with
    | nil => exact ⟨[], fun name => by simp [join]⟩
    | cons part rest ih =>
      obtain ⟨lead, hlead⟩ := ih
      refine ⟨part ++ '/' :: lead, fun name => ?_⟩
      obtain ⟨next, more, hnext⟩ := List.exists_cons_of_ne_nil
        (List.append_ne_nil_of_right_ne_nil rest (List.cons_ne_nil name []))
      have := hlead name
      rw [hnext] at this
      rw [List.cons_append, hnext, join_cons_cons, this]
      simp
  obtain ⟨lead, hlead⟩ := hjoin
  refine ⟨start.text ++ lead, fun name => ?_⟩
  rw [text_eq start (by simp), hlead, List.append_assoc]

/-- The parts of a path are parts of a text that do not stay in place. -/
def IsClean (p : Path) : Prop := ∀ part ∈ p.parts, isPart part = true ∧ part ≠ ['.']

theorem isClean_ofText (t : Text) : (ofText t).IsClean := fun _ => mem_partsOf

theorem eq_of_name_ne_nil {p : Path} (h : p.name ≠ []) :
    p = ⟨p.start, p.parts.dropLast ++ [p.name]⟩ := by
  have hne : p.parts ≠ [] := fun he => h (by simp [name, he])
  rw [name, List.getLast?_eq_some_getLast hne, Option.getD_some, List.dropLast_concat_getLast]

/-- By `backupPath?` a backup stands beside its file. -/
theorem eq_of_backupPath? {p backup : Path} (h : Workspace.backupPath? p = some backup) :
    p.name ≠ [] ∧ backup = ⟨p.start, p.parts.dropLast ++ [p.name ++ ".bak"]⟩ := by
  simp only [Workspace.backupPath?, withName?, Option.ite_none_right_eq_some, Option.some.injEq,
    Bool.and_eq_true, Bool.not_eq_true', List.isEmpty_eq_false_iff] at h
  exact ⟨h.1.1, h.2.symm⟩

theorem isPart_backup {p : Path} (hclean : p.IsClean) (hname : p.name ≠ []) :
    (∀ part ∈ p.parts.dropLast, isPart part = true) ∧ isPart p.name = true ∧
      isPart (p.name ++ ".bak") = true := by
  have hmem : p.name ∈ p.parts := by
    have : p.parts = p.parts.dropLast ++ [p.name] := congrArg Path.parts (eq_of_name_ne_nil hname)
    rw [this]
    simp
  have hpart := (hclean _ hmem).1
  refine ⟨fun part hp => (hclean part ((List.dropLast_sublist _).subset hp)).1, hpart, ?_⟩
  rw [isPart_iff] at hpart ⊢
  simp [hpart.2]

end Path

namespace Workspace

/-- If the backup of a file has a place then so has the file, in the same directory. -/
theorem place?_of_backupPlace? {w : Workspace} {path : Path} {place : Route}
    (hclean : path.IsClean) (h : w.backupPlace? path = some place) :
    ∃ directory, place = directory ++ [path.name ++ ".bak"] ∧
      w.place? path = some (FileTree.stepFrom directory path.name) := by
  obtain ⟨backup, hbackup, hlocate⟩ := backupPlace?_eq_some.1 h
  obtain ⟨hname, rfl⟩ := Path.eq_of_backupPath? hbackup
  obtain ⟨hparents, hpart, hpart'⟩ := Path.isPart_backup hclean hname
  obtain ⟨lead, hlead⟩ := Path.exists_text_eq_append path.start path.parts.dropLast
  have hall (t : Text) (ht : Path.isPart t = true) :
      ∀ part ∈ path.parts.dropLast ++ [t], Path.isPart part = true :=
    List.forall_mem_append.2 ⟨hparents, by simpa using ht⟩
  rw [locate_text w path.start (by simp) (hall _ hpart')] at hlocate
  split at hlocate
  · cases hlocate
  · rename_i hnul
    split at hlocate
    · cases hlocate
    · rename_i hlong
      obtain ⟨directory, hdirectory, hlast⟩ := FileTree.follow_append_eq_ok.1 hlocate
      obtain ⟨hget, hshort, hstep⟩ := FileTree.follow_singleton_eq_ok.1 hlast
      refine ⟨directory, by rw [← hstep, FileTree.stepFrom_backup], place?_eq_some.2 ?_⟩
      -- the name of the file is shorter than that of its backup
      have htext := congrArg Path.text (Path.eq_of_name_ne_nil hname)
      rw [htext, locate_text w path.start (by simp) (hall _ hpart)]
      simp only [hlead, byteLength_append, List.contains_append] at hnul hlong hshort ⊢
      rw [if_neg (by simp_all), if_neg (by omega)]
      exact FileTree.follow_append_eq_ok.2
        ⟨directory, hdirectory, FileTree.follow_singleton_eq_ok.2 ⟨hget, by omega, rfl⟩⟩

/-- Files whose backups have one `backupPlace?` are one file. -/
theorem place?_eq_of_backupPlace?_eq {w : Workspace} {p q : Path} {place : Route}
    (hp : p.IsClean) (hq : q.IsClean) (hplace : w.backupPlace? p = some place)
    (hplace' : w.backupPlace? q = some place) : w.place? p = w.place? q := by
  obtain ⟨directory, hdirectory, hfile⟩ := place?_of_backupPlace? hp hplace
  obtain ⟨directory', hdirectory', hfile'⟩ := place?_of_backupPlace? hq hplace'
  obtain ⟨rfl, hnames⟩ := List.append_inj' (hdirectory.symm.trans hdirectory') rfl
  have hnames : p.name = q.name := List.append_cancel_right (List.singleton_inj.1 hnames)
  rw [hfile, hfile', hnames]

/-! ## The writes of a re-encoding -/

section

variable (codecs : Codecs)

/-- The bytes that a file is left with when a text is written over it: none of its own if the
    encoding cannot even be asked for, and no bytes if there is no such encoding or it cannot show
    the text. -/
def newBytes? (target t : Text) : Option Bytes :=
  if !Codecs.isNamable target then none
  else match codecs.text? target with
    | none => some []
    | some codec => some ((codec.encode [] t).toOption.getD [])

/-- The writes with which a file is kept beside and then written over; none if there is no way to
    keep it. -/
def writesOver (w : Workspace) (r : Reencoding) (path : Path) (source : Route) (content : Bytes)
    (t : Text) : List (Route × Bytes) :=
  let overwriting := (newBytes? codecs r.target t).toList.map (source, ·)
  if r.backup then
    match w.backupPlace? path with
    | none => []
    | some place => (if w.tree.get? place = none then [(place, content)] else []) ++ overwriting
  else overwriting

/-- The writes of `reencodeFile`; none if the file cannot be read. -/
def writes (w : Workspace) (r : Reencoding) (path : Path) : List (Route × Bytes) :=
  match w.place? path, (w.decodeFile codecs r.source path).toOption with
  | some source, some (content, t) => w.writesOver codecs r path source content t
  | _, _ => []

theorem workspace_overwrite {w : Workspace} {path : Path} {source : Route} (target t : Text)
    (hlocate : w.locate path.text = .ok source) (hget : w.tree.get? source ≠ some .directory) :
    (w.overwrite codecs target path t).workspace =
      w.withFiles ((newBytes? codecs target t).toList.map (source, ·)) := by
  have hemptied := write_eq [] hlocate hget
  unfold overwrite newBytes?
  rw [hemptied]
  cases Codecs.isNamable target with
  | false => rfl
  | true =>
    cases codecs.text? target with
    | none => rfl
    | some codec =>
      cases hencode : codec.encode [] t with
      | error f => simp [hencode, Except.toOption]
      | ok bytes => simp [hencode, write_withFile [] bytes hlocate hget, Except.toOption]

section

variable {w kept : Workspace} {r : Reencoding} {path : Path} {content : Bytes} (source : Route)
  (t : Text)

/-- Nothing is written if there is no way to keep the content beside the file. -/
theorem writesOver_of_error {f : Failure}
    (h : (if r.backup then w.keepBackup path content else .ok w) = .error f) :
    w.writesOver codecs r path source content t = [] := by
  unfold writesOver
  cases hbackup : r.backup with
  | false => simp [hbackup] at h
  | true =>
    have hkeeping := w.keepBackup_toOption path content
    rw [hbackup, if_pos rfl] at h
    rw [h] at hkeeping
    rw [Option.map_eq_none_iff.1 hkeeping.symm]
    rfl

/-- The file is written over in the workspace in which its content is kept beside it. -/
theorem withFiles_writesOver
    (h : (if r.backup then w.keepBackup path content else .ok w) = .ok kept) :
    w.withFiles (w.writesOver codecs r path source content t) =
      kept.withFiles ((newBytes? codecs r.target t).toList.map (source, ·)) := by
  unfold writesOver
  cases hbackup : r.backup with
  | false =>
    rw [hbackup] at h
    cases h
    rfl
  | true =>
    have hkeeping := w.keepBackup_toOption path content
    rw [hbackup, if_pos rfl] at h
    rw [h] at hkeeping
    obtain ⟨place, hplace, hkept⟩ := Option.map_eq_some_iff.1 hkeeping.symm
    rw [hplace, ← hkept]
    exact withFiles_append ..

end

variable {codecs}

theorem decodeFile_toOption {w : Workspace} {source : Text} {path : Path} {content : Bytes}
    {t : Text} :
    (w.decodeFile codecs source path).toOption = some (content, t) ↔
      w.decodeFile codecs source path = .ok (content, t) := by
  cases w.decodeFile codecs source path <;> simp [Except.toOption]

/-- **The re-encoding of a file comes down to its `writes`.** -/
theorem workspace_reencodeFile (w : Workspace) (r : Reencoding) (path : Path) :
    (w.reencodeFile codecs r path).workspace = w.withFiles (w.writes codecs r path) := by
  unfold reencodeFile writes
  cases hdecode : w.decodeFile codecs r.source path with
  | error f => cases w.place? path <;> rfl
  | ok found =>
    obtain ⟨content, t⟩ := found
    obtain ⟨hread, hcodec⟩ := decodeFile_eq_ok hdecode
    obtain ⟨source, hlocate, hget⟩ := read_eq_ok.1 hread
    rw [place?_eq_some.2 hlocate]
    simp only [Except.toOption]
    cases hkept : (if r.backup then w.keepBackup path content else .ok w) with
    | error f =>
      rw [writesOver_of_error codecs source t hkept]
      rfl
    | ok kept =>
      have hprepared : w.Prepared codecs r path source content t kept :=
        ⟨hlocate, hget, hcodec, hkept⟩
      rw [withFiles_writesOver codecs source t hkept, ← workspace_overwrite codecs r.target t
        hprepared.kept_locate hprepared.kept_ne_directory]
      dsimp only
      split <;> rfl

/-- By `writes` a re-encoding writes at its file and, where nothing is, at the place of its
    backup. -/
theorem mem_writes {w : Workspace} {r : Reencoding} {path : Path} {s : Route} {bytes : Bytes}
    (h : (s, bytes) ∈ w.writes codecs r path) :
    ∃ source content t, w.place? path = some source ∧ w.tree.get? source = some (.file content) ∧
      w.decodeFile codecs r.source path = .ok (content, t) ∧
      (s = source ∨ r.backup = true ∧ w.backupPlace? path = some s ∧ w.tree.get? s = none ∧
        bytes = content) := by
  unfold writes at h
  split at h
  · rename_i source content t hplace hdecode
    rw [decodeFile_toOption] at hdecode
    obtain ⟨s', hs', hget⟩ := read_eq_ok.1 (decodeFile_eq_ok hdecode).1
    have hsource : s' = source :=
      Option.some.inj ((place?_eq_some.2 hs').symm.trans hplace)
    refine ⟨source, content, t, hplace, hsource ▸ hget, hdecode, ?_⟩
    have hover (hmem : (s, bytes) ∈ (newBytes? codecs r.target t).toList.map (source, ·)) :
        s = source := by
      obtain ⟨_, _, heq⟩ := List.mem_map.1 hmem
      exact (Prod.mk.inj heq).1.symm
    unfold writesOver at h
    dsimp only at h
    split at h
    · rename_i hbackup
      split at h
      · simp at h
      · rename_i place hbackupPlace
        rcases List.mem_append.1 h with hmem | hmem
        · split at hmem
          · rename_i hfree
            obtain ⟨rfl, rfl⟩ := Prod.mk.inj (List.mem_singleton.1 hmem)
            exact .inr ⟨hbackup, hbackupPlace, hfree, rfl⟩
          · simp at hmem
        · exact .inl (hover hmem)
    · exact .inl (hover h)
  · simp at h

/-- Where `writes` goes there was a file, or nothing at all. -/
theorem takesAll_writes (w : Workspace) (r : Reencoding) (path : Path) :
    w.TakesAll (w.writes codecs r path) := by
  intro s hs
  obtain ⟨⟨_, bytes⟩, hmem, rfl⟩ := List.mem_map.1 hs
  obtain ⟨source, content, t, hplace, hget, _, rfl | ⟨_, hbackup, hfree, _⟩⟩ := mem_writes hmem
  · exact takes_of_locate (place?_eq_some.1 hplace) (by simp [hget])
  · obtain ⟨backup, _, hlocate⟩ := backupPlace?_eq_some.1 hbackup
    exact takes_of_locate hlocate (by simp [hfree])

theorem read_congr {w v : Workspace} {path : Path} {s : Route} (hw : w.place? path = some s)
    (hv : v.place? path = some s) (hget : v.tree.get? s = w.tree.get? s) :
    v.read path.text = w.read path.text := by
  rw [place?_eq_some] at hw hv
  simp only [read, entry, hw, hv, hget]

/-- The `writes` of a re-encoding depend on the file, and on whether there is something at the place
    of its backup. -/
theorem writes_congr {w v : Workspace} {r : Reencoding} {path : Path} (hplace : v.place? = w.place?)
    (hsource : ∀ s, w.place? path = some s → v.tree.get? s = w.tree.get? s)
    (hbackup : ∀ s, w.backupPlace? path = some s →
      (v.tree.get? s = none ↔ w.tree.get? s = none)) :
    v.writes codecs r path = w.writes codecs r path := by
  have hbackupPlace : v.backupPlace? path = w.backupPlace? path := by
    rw [backupPlace?, backupPlace?, hplace]
  unfold writes
  rw [hplace]
  cases hs : w.place? path with
  | none => rfl
  | some s =>
    have hread := read_congr hs (hplace ▸ hs) (hsource s hs)
    have hdecode : v.decodeFile codecs r.source path = w.decodeFile codecs r.source path := by
      simp only [decodeFile, hread]
    rw [hdecode]
    split
    · rename_i source content t _ _
      unfold writesOver
      rw [hbackupPlace]
      cases hb : w.backupPlace? path with
      | none => rfl
      | some place => simp only [hbackup place hb]
    · rfl

end
end Workspace
end Seashell
