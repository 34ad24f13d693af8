import Seashell.Proofs.Writes

set_option autoImplicit false

/-! # Files that are re-encoded one after the other

No two files of a listing are written at one place: a file is there from the start, a backup only
takes a place where nothing is, and files of different names have backups of different names
(`Workspace.Selected.not_touches`). So the writes for a file are the same whatever has been done to
the others before (`Workspace.Selected.writes_withFiles`). By induction over the files, with those
that have been re-encoded on the left, `Workspace.reencodeFiles` makes all the writes that the files
would have by themselves (`Workspace.Selected.reencodeFiles_eq`). It goes on after a failure, as
with known encodings no failure is other than that of a file (`Workspace.outcome_reencodeFile`).

From this follows what `Workspace.reencodeDirectory` leaves: each file as by itself
(`Workspace.get?_allWrites`), whatever the order (`Workspace.Selected.get?_perm`), nothing new but
backups (`Workspace.backup_of_created`), and all else as it was. Nothing is assumed of the codecs.
-/

namespace Seashell

open Text

/-- A file can be opened by the name of an encoding: the name can be asked for (`Codecs.isNamable`)
    and stands for an encoding of text. -/
def Codecs.opens (codecs : Codecs) (name : Text) : Bool :=
  Codecs.isNamable name && (codecs.text? name).isSome

theorem Codecs.opens_iff {codecs : Codecs} {name : Text} :
    codecs.opens name = true ↔
      Codecs.isNamable name = true ∧ ∃ codec, codecs.text? name = some codec := by
  simp [opens, Option.isSome_iff_exists]

/-- The name stands for an encoding of text that the system has a name of its own for
    (`Codecs.ownName?`). -/
def Codecs.isTextName (codecs : Codecs) (name : Text) : Bool :=
  codecs.opens name && (codecs.ownName? name).isSome

theorem Codecs.isTextName_iff {codecs : Codecs} {name : Text} :
    codecs.isTextName name = true ↔
      codecs.opens name = true ∧ ∃ own, codecs.ownName? name = some own := by
  simp [isTextName, Option.isSome_iff_exists]

/-- The `source` and the `target` are both known encodings of text. -/
def Reencoding.isKnown (r : Reencoding) (codecs : Codecs) : Bool :=
  codecs.isTextName r.source && codecs.isTextName r.target

namespace Workspace

variable {codecs : Codecs}

/-! ## Failures of a file -/

theorem exists_ownReencoding {r : Reencoding} (hknown : r.isKnown codecs = true) :
    ∃ own, ownReencoding codecs r = .ok own := by
  simp only [Reencoding.isKnown, Bool.and_eq_true, Codecs.isTextName_iff] at hknown
  obtain ⟨⟨hsource, source, hownSource⟩, htarget, target, hownTarget⟩ := hknown
  exact ⟨{ r with source, target }, by
    simp [ownReencoding, ownEncoding, (Codecs.opens_iff.1 hsource).1, hownSource,
      (Codecs.opens_iff.1 htarget).1, hownTarget, bind, Except.bind, pure, Except.pure]⟩

theorem decodeFile_eq_error_file {w : Workspace} {source : Text} {path : Path} {f : Failure}
    (hopens : codecs.opens source = true) (h : w.decodeFile codecs source path = .error f) :
    ∃ fault, f = .file fault := by
  obtain ⟨hnamable, codec, hcodec⟩ := Codecs.opens_iff.1 hopens
  simp only [decodeFile, hnamable, hcodec, Bool.not_true, Bool.false_eq_true, if_false] at h
  split at h
  · cases h
    exact ⟨_, rfl⟩
  · split at h
    · cases h
      exact ⟨_, rfl⟩
    · cases h

theorem outcome_overwrite (w : Workspace) {target : Text} (path : Path) (t : Text)
    (hopens : codecs.opens target = true) :
    (w.overwrite codecs target path t).outcome = .ok () ∨
      ∃ fault, (w.overwrite codecs target path t).outcome = .error (.file fault) := by
  obtain ⟨hnamable, codec, hcodec⟩ := Codecs.opens_iff.1 hopens
  simp only [overwrite, hnamable, hcodec, Bool.not_true, Bool.false_eq_true, if_false]
  split
  · exact .inr ⟨_, rfl⟩
  · split
    · exact .inr ⟨_, rfl⟩
    · split
      · exact .inr ⟨_, rfl⟩
      · exact .inl rfl

/-- With known encodings `reencodeFile` succeeds, or the file cannot be read or written: no other
    failure is possible. -/
theorem outcome_reencodeFile (w : Workspace) {r : Reencoding} {path : Path}
    (hknown : r.isKnown codecs = true) (hbackup : backupPath? path ≠ none) :
    (w.reencodeFile codecs r path).outcome = .ok () ∨
      ∃ fault, (w.reencodeFile codecs r path).outcome = .error (.file fault) := by
  simp only [Reencoding.isKnown, Bool.and_eq_true, Codecs.isTextName_iff] at hknown
  unfold reencodeFile
  split
  · rename_i f hdecode
    obtain ⟨fault, rfl⟩ := decodeFile_eq_error_file hknown.1.1 hdecode
    exact .inr ⟨fault, rfl⟩
  · rename_i content t _
    split
    · rename_i f hkeeping
      split at hkeeping
      · rcases keepBackup_eq_error hkeeping with ⟨_, hnone⟩ | ⟨g, rfl⟩
        · exact absurd hnone hbackup
        · exact .inr ⟨.system g, rfl⟩
      · cases hkeeping
    · rename_i kept _
      rcases outcome_overwrite kept path t hknown.2.1 with hrun | ⟨fault, hrun⟩
      · simp only [hrun]
        exact .inl trivial
      · simp only [hrun]
        exact .inr ⟨fault, rfl⟩

/-! ## Places that are written -/

/-- The re-encoding of `path` writes at the route `s`. -/
def Touches (w : Workspace) (codecs : Codecs) (r : Reencoding) (path : Path) (s : Route) : Prop :=
  s ∈ (w.writes codecs r path).map (·.1)

theorem Touches.cases {w : Workspace} {r : Reencoding} {path : Path} {s : Route}
    (h : w.Touches codecs r path s) :
    w.place? path = some s ∧ w.tree.get? s ≠ none ∨
      w.backupPlace? path = some s ∧ w.tree.get? s = none := by
  obtain ⟨⟨_, bytes⟩, hmem, rfl⟩ := List.mem_map.1 h
  obtain ⟨source, content, t, hplace, hget, _, rfl | ⟨_, hbackup, hfree, _⟩⟩ := mem_writes hmem
  · exact .inl ⟨hplace, by simp [hget]⟩
  · exact .inr ⟨hbackup, hfree⟩

/-- Paths as `listFiles` gives them: they lead to files, no two of them to the same one, and are
    made of names. -/
structure Selected (w : Workspace) (paths : List Path) : Prop where
  apart : w.Apart paths
  clean : ∀ p ∈ paths, p.IsClean
  named : ∀ p ∈ paths, backupPath? p ≠ none

namespace Selected

variable {w : Workspace} {r : Reencoding} {before later paths : List Path} {p : Path}

theorem perm {order : List Path} (h : w.Selected paths) (hperm : order.Perm paths) :
    w.Selected order where
  apart := {
    files := fun p hp => h.apart.files p (hperm.mem_iff.1 hp)
    distinct := (hperm.pairwise_iff fun hpq s hs hs' => hpq s hs' hs).2 h.apart.distinct }
  clean p hp := h.clean p (hperm.mem_iff.1 hp)
  named p hp := h.named p (hperm.mem_iff.1 hp)

/-- Different files of a listing have different places. -/
theorem place?_ne (h : w.Selected (before ++ p :: later)) {q : Path} (hq : q ∈ before ++ later)
    {s : Route} (hs : w.place? p = some s) : w.place? q ≠ some s := by
  rw [place?_eq_some] at hs
  rw [Ne, place?_eq_some]
  obtain ⟨_, hlater, hcross⟩ := List.pairwise_append.1 h.apart.distinct
  rcases List.mem_append.1 hq with hq | hq
  · exact fun hs' => hcross q hq p List.mem_cons_self s hs' hs
  · exact (List.pairwise_cons.1 hlater).1 q hq s hs

/-- What is written for a file is not written for another one: `writes` of two selected files have
    no route in common. -/
theorem not_touches (h : w.Selected (before ++ p :: later)) {q : Path} (hq : q ∈ before ++ later)
    {s : Route} (hs : w.Touches codecs r p s) : ¬w.Touches codecs r q s := by
  intro hs'
  have hpmem : p ∈ before ++ p :: later := by simp
  have hqmem : q ∈ before ++ p :: later := by
    rcases List.mem_append.1 hq with hq | hq
    · exact List.mem_append_left _ hq
    · exact List.mem_append_right _ (List.mem_cons_of_mem _ hq)
  rcases hs.cases with ⟨hplace, hsome⟩ | ⟨hplace, hnone⟩
  · rcases hs'.cases with ⟨hplace', _⟩ | ⟨_, hnone'⟩
    · exact h.place?_ne hq hplace hplace'
    · exact hsome hnone'
  · rcases hs'.cases with ⟨_, hsome'⟩ | ⟨hplace', _⟩
    · exact hsome' hnone
    · have heq := place?_eq_of_backupPlace?_eq (h.clean p hpmem) (h.clean q hqmem) hplace hplace'
      obtain ⟨_, _, hfile⟩ := place?_of_backupPlace? (h.clean p hpmem) hplace
      exact h.place?_ne hq hfile (heq ▸ hfile)

/-- The place of a file, by `place?`, is not written for another one. -/
theorem not_touches_place (h : w.Selected (before ++ p :: later)) {q : Path}
    (hq : q ∈ before ++ later) {s : Route} (hs : w.place? p = some s) : ¬w.Touches codecs r q s := by
  intro hs'
  rcases hs'.cases with ⟨hplace', _⟩ | ⟨_, hnone⟩
  · exact h.place?_ne hq hs hplace'
  · obtain ⟨content, hfile⟩ := h.apart.files p (by simp) s (place?_eq_some.1 hs)
    rw [hnone] at hfile
    cases hfile

/-- The place of a backup that is yet to be made, by `backupPlace?`, is not written for another
    file. -/
theorem not_touches_backup (h : w.Selected (before ++ p :: later)) {q : Path}
    (hq : q ∈ before ++ later) {s : Route} (hs : w.backupPlace? p = some s)
    (hfree : w.tree.get? s = none) : ¬w.Touches codecs r q s := by
  intro hs'
  rcases hs'.cases with ⟨_, hsome⟩ | ⟨hplace', _⟩
  · exact hsome hfree
  · have hqmem : q ∈ before ++ p :: later := by
      rcases List.mem_append.1 hq with hq | hq
      · exact List.mem_append_left _ hq
      · exact List.mem_append_right _ (List.mem_cons_of_mem _ hq)
    have heq := place?_eq_of_backupPlace?_eq (h.clean p (by simp)) (h.clean q hqmem) hs hplace'
    obtain ⟨_, _, hfile⟩ := place?_of_backupPlace? (h.clean p (by simp)) hs
    exact h.place?_ne hq hfile (heq ▸ hfile)

end Selected

/-! ## Files one after the other -/

/-- The `writes` of the re-encodings of some files, each as if it were the only one. -/
def allWrites (w : Workspace) (codecs : Codecs) (r : Reencoding) (paths : List Path) :
    List (Route × Bytes) :=
  paths.flatMap (w.writes codecs r)

theorem mem_allWrites {w : Workspace} {r : Reencoding} {paths : List Path} {s : Route} :
    s ∈ (w.allWrites codecs r paths).map (·.1) ↔ ∃ p ∈ paths, w.Touches codecs r p s := by
  simp only [allWrites, Touches, List.mem_map, List.mem_flatMap]
  constructor
  · rintro ⟨write, ⟨p, hp, hmem⟩, rfl⟩
    exact ⟨p, hp, write, hmem, rfl⟩
  · rintro ⟨p, hp, write, hmem, rfl⟩
    exact ⟨write, ⟨p, hp, hmem⟩, rfl⟩

theorem takesAll_allWrites (w : Workspace) (r : Reencoding) (paths : List Path) :
    w.TakesAll (w.allWrites codecs r paths) := by
  intro s hs
  obtain ⟨p, _, hp⟩ := mem_allWrites.1 hs
  exact takesAll_writes w r p s hp

theorem get?_withFiles_ne_none {w : Workspace} {s : Route} (writes : List (Route × Bytes))
    (h : w.tree.get? s ≠ none) : (w.withFiles writes).tree.get? s ≠ none := by
  induction writes generalizing w with
  | nil => exact h
  | cons write rest ih =>
    obtain ⟨r, content⟩ := write
    refine ih ?_
    cases hadmits : w.tree.admits r (.file content) with
    | false =>
      simp only [withFile, FileTree.put_of_not_admits hadmits]
      exact h
    | true =>
      simp only [withFile, FileTree.get?_put s hadmits]
      split
      · simp
      · exact h

/-- What has been done to the files `before` does not change what is written for `p`. -/
theorem Selected.writes_withFiles {w : Workspace} {r : Reencoding} {before later : List Path}
    {p : Path} (h : w.Selected (before ++ p :: later)) :
    (w.withFiles (w.allWrites codecs r before)).writes codecs r p = w.writes codecs r p := by
  have hspared {s : Route} (hs : ∀ q ∈ before ++ later, ¬w.Touches codecs r q s) :
      (w.withFiles (w.allWrites codecs r before)).tree.get? s = w.tree.get? s := by
    refine get?_withFiles_of_not_mem fun hmem => ?_
    obtain ⟨q, hq, htouches⟩ := mem_allWrites.1 hmem
    exact hs q (List.mem_append_left _ hq) htouches
  refine writes_congr (place?_withFiles w _) ?_ ?_
  · intro s hs
    exact hspared fun q hq => h.not_touches_place hq hs
  · intro s hs
    by_cases hfree : w.tree.get? s = none
    · rw [hspared fun q hq => h.not_touches_backup hq hs hfree]
    · exact iff_of_false (get?_withFiles_ne_none _ hfree) hfree

/-- **Each file is re-encoded as if it were the only one**: after `reencodeFiles` the writes are
    those that the files would have by themselves, and no failure of a file keeps the next from
    being re-encoded. -/
theorem Selected.reencodeFiles_eq {w : Workspace} {r : Reencoding} (before : List Path)
    {paths : List Path} (hknown : r.isKnown codecs = true) (h : w.Selected (before ++ paths)) :
    let run := (w.withFiles (w.allWrites codecs r before)).reencodeFiles codecs r paths
    run.outcome = .ok () ∧ run.workspace = w.withFiles (w.allWrites codecs r (before ++ paths)) := by
  induction paths generalizing before with
  | nil => simp [reencodeFiles]
  | cons p later ih =>
    have hstep : ((w.withFiles (w.allWrites codecs r before)).reencodeFile codecs r p).workspace =
        w.withFiles (w.allWrites codecs r (before ++ [p])) := by
      rw [workspace_reencodeFile, h.writes_withFiles, ← withFiles_append]
      simp [allWrites]
    have hrest := ih (before ++ [p]) (by simpa using h)
    rw [← hstep] at hrest
    have hassoc : before ++ p :: later = before ++ [p] ++ later := by simp
    rw [hassoc]
    unfold reencodeFiles
    dsimp only
    rcases outcome_reencodeFile (w.withFiles (w.allWrites codecs r before)) hknown
      (h.named p (by simp)) with hrun | ⟨fault, hrun⟩
    · rw [hrun]
      exact hrest
    · rw [hrun]
      exact hrest

/-- Where no other file is written, `allWrites` leaves the file as `reencodeFile` does by itself. -/
theorem get?_allWrites {w : Workspace} {r : Reencoding} {before later : List Path} {p : Path}
    {s : Route} (h : ∀ q ∈ before ++ later, ¬w.Touches codecs r q s) :
    (w.withFiles (w.allWrites codecs r (before ++ p :: later))).tree.get? s =
      (w.reencodeFile codecs r p).workspace.tree.get? s := by
  have hspared (v : Workspace) {some : List Path} (hsome : some ⊆ before ++ later) :
      (v.withFiles (w.allWrites codecs r some)).tree.get? s = v.tree.get? s := by
    refine get?_withFiles_of_not_mem fun hmem => ?_
    obtain ⟨q, hq, htouches⟩ := mem_allWrites.1 hmem
    exact h q (hsome hq) htouches
  have hsplit : w.allWrites codecs r (before ++ p :: later) =
      w.allWrites codecs r before ++ (w.writes codecs r p ++ w.allWrites codecs r later) := by
    simp [allWrites]
  rw [hsplit, withFiles_append, withFiles_append, hspared _ (List.subset_append_right _ _),
    workspace_reencodeFile]
  have htakes : w.TakesAll (w.writes codecs r p) := takesAll_writes w r p
  exact get?_withFiles_congr ((takesAll_allWrites w r before).append htakes) htakes
    (hspared w (List.subset_append_left _ _))

/-- What is at a route after `allWrites` does not depend on the order of the files. -/
theorem Selected.get?_perm {w : Workspace} {r : Reencoding} {paths order : List Path}
    (h : w.Selected paths) (hperm : order.Perm paths) (s : Route) :
    (w.withFiles (w.allWrites codecs r order)).tree.get? s =
      (w.withFiles (w.allWrites codecs r paths)).tree.get? s := by
  by_cases hs : ∃ p ∈ paths, w.Touches codecs r p s
  · obtain ⟨p, hp, htouches⟩ := hs
    -- one file alone is written at the route, in either order
    have halone {some : List Path} (hsome : w.Selected some) (hmem : p ∈ some) :
        (w.withFiles (w.allWrites codecs r some)).tree.get? s =
          (w.reencodeFile codecs r p).workspace.tree.get? s := by
      obtain ⟨before, later, rfl⟩ := List.append_of_mem hmem
      exact get?_allWrites fun q hq => hsome.not_touches hq htouches
    rw [halone (h.perm hperm) (hperm.mem_iff.2 hp), halone h hp]
  · have hnot {some : List Path} (hsome : some ⊆ paths) :
        (w.withFiles (w.allWrites codecs r some)).tree.get? s = w.tree.get? s := by
      refine get?_withFiles_of_not_mem fun hmem => hs ?_
      obtain ⟨q, hq, htouches⟩ := mem_allWrites.1 hmem
      exact ⟨q, hsome hq, htouches⟩
    rw [hnot hperm.subset, hnot (List.Subset.refl _)]

/-- What is new after `allWrites` is the backup of one of the files, with what was read from it. -/
theorem backup_of_created {w : Workspace} {r : Reencoding} {paths : List Path} {s : Route} {e : Entry}
    (hnone : w.tree.get? s = none)
    (hget : (w.withFiles (w.allWrites codecs r paths)).tree.get? s = some e) :
    r.backup = true ∧ ∃ p ∈ paths, ∃ backup content, backupPath? p = some backup ∧
      w.locate backup.text = .ok s ∧ w.read p.text = .ok content ∧ e = .file content := by
  have hmem : s ∈ (w.allWrites codecs r paths).map (·.1) := by
    by_contra hnot
    rw [get?_withFiles_of_not_mem hnot, hnone] at hget
    cases hget
  obtain ⟨bytes, hwrite, hbytes⟩ := get?_withFiles_of_mem (takesAll_allWrites w r paths) hmem
  obtain ⟨p, hp, hwrite⟩ := List.mem_flatMap.1 hwrite
  obtain ⟨source, content, t, hplace, hsource, hdecode, rfl | ⟨hbackup, hs, _, rfl⟩⟩ := mem_writes hwrite
  · rw [hnone] at hsource
    cases hsource
  · obtain ⟨backup, hpath, hlocate⟩ := backupPlace?_eq_some.1 hs
    exact ⟨hbackup, p, hp, backup, bytes, hpath, hlocate, (decodeFile_eq_ok hdecode).1,
      Option.some.inj (hget.symm.trans hbytes)⟩

/-- What was there before `allWrites` is as it was, unless it is one of the files. -/
theorem get?_allWrites_of_not_selected {w : Workspace} {r : Reencoding} {paths : List Path} {s : Route}
    {e : Entry} (hget : w.tree.get? s = some e) (hnot : ∀ p ∈ paths, w.locate p.text ≠ .ok s) :
    (w.withFiles (w.allWrites codecs r paths)).tree.get? s = some e := by
  rw [get?_withFiles_of_not_mem, hget]
  intro hmem
  obtain ⟨p, hp, htouches⟩ := mem_allWrites.1 hmem
  rcases htouches.cases with ⟨hplace, _⟩ | ⟨_, hnone⟩
  · exact hnot p hp (place?_eq_some.1 hplace)
  · rw [hnone] at hget
    cases hget

/-! ## Listings -/

theorem isName_of_isPart {t : Text} (hpart : Path.isPart t = true) (hdot : t ≠ ['.']) :
    Path.isName t = true := by
  have htext : Path.text ⟨.here, [t]⟩ = t := by simp [Path.text, Path.Start.text, join]
  have hread : Path.ofText (Path.text ⟨.here, [t]⟩) = ⟨.here, [t]⟩ :=
    Path.ofText_text (by simp) (by simp [hpart, hdot])
  rw [htext] at hread
  have hend : endsWith t ['/'] = false := by
    refine Bool.eq_false_iff.2 fun hsuffix => (Path.isPart_iff.1 hpart).2 ?_
    exact (List.isSuffixOf_iff_suffix.1 hsuffix).subset (by simp)
  have hstart : Path.startOf t = .here := congrArg Path.start hread
  have hparts : Path.partsOf t = [t] := congrArg Path.parts hread
  rw [Path.isName, hstart, hend, hparts]
  rfl

theorem backupPath?_ne_none {p : Path} (hclean : p.IsClean) (hne : p.parts ≠ []) :
    backupPath? p ≠ none := by
  have hlast : p.name = p.parts.getLast hne := by
    rw [Path.name, List.getLast?_eq_some_getLast hne, Option.getD_some]
  have hname : p.name ≠ [] := by
    rw [hlast]
    exact (Path.isPart_iff.1 (hclean _ (List.getLast_mem hne)).1).1
  obtain ⟨_, _, hpart⟩ := Path.isPart_backup hclean hname
  have hdot : p.name ++ ".bak".toList ≠ ['.'] := fun he => by
    have := congrArg List.length he
    simp at this
  simp only [backupPath?, Path.withName?, isName_of_isPart hpart hdot]
  simp [hname]

/-- The files that `listFiles` gives are read by paths of their own. -/
theorem selected_listFiles {w : Workspace} {root : Text} {extensions : List Text}
    {paths : List Path} (h : w.listFiles root extensions = .ok paths) : w.Selected paths := by
  have hpaths : ∀ p ∈ paths, p.IsClean ∧ p.parts ≠ [] := by
    rcases listFiles_eq_ok h with rfl | ⟨directory, _, rfl⟩
    · simp
    · intro p hp
      obtain ⟨parents, name, content, hget, _, _, _, rfl⟩ := mem_listed.1 hp
      refine ⟨fun part hpart => ?_, by simp⟩
      rw [List.append_assoc] at hget hpart
      rcases List.mem_append.1 hpart with hpart | hpart
      · exact Path.mem_partsOf hpart
      · have hname := FileTree.isName_of_get? hget part (List.mem_append_right _ hpart)
        exact ⟨FileTree.isPart_of_isName hname, (FileTree.isName_iff.1 hname).2.1⟩
  exact ⟨apart_listFiles h, fun p hp => (hpaths p hp).1,
    fun p hp => backupPath?_ne_none (hpaths p hp).1 (hpaths p hp).2⟩

theorem exists_directory?_of_look {w : Workspace} {root : Text}
    (h : w.look root = .ok (some .directory)) : ∃ directory, w.directory? root = some directory := by
  unfold look entry at h
  cases hlocate : w.locate root with
  | error o => cases o <;> simp [hlocate] at h
  | ok directory =>
    cases hget : w.tree.get? directory with
    | none => simp [hlocate, hget] at h
    | some e =>
      simp only [hlocate, hget, Except.ok.injEq, Option.some.injEq] at h
      exact ⟨directory, directory?_eq_some.2 ⟨hlocate, h ▸ hget⟩⟩

/-- `listFiles` succeeds on a directory that can be looked at. -/
theorem exists_listFiles {w : Workspace} {root : Text} (extensions : List Text)
    (hroot : w.look root = .ok (some .directory)) :
    ∃ paths, w.listFiles root extensions = .ok paths :=
  (exists_directory?_of_look hroot).elim fun _ h => ⟨_, listFiles_eq h⟩

/-- With known encodings `reencodeDirectory` is `reencodeFiles` of the files listed, and gives back
    the directory. -/
theorem reencodeDirectory_eq {w : Workspace} {r : Reencoding} {given : Text} {paths : List Path}
    (hknown : r.isKnown codecs = true)
    (hroot : w.look (Path.ofText given).text = .ok (some .directory))
    (hpaths : w.listFiles (Path.ofText given).text r.extensions = .ok paths) :
    let run := w.reencodeFiles codecs r paths
    w.reencodeDirectory codecs r given =
      { run with outcome := run.outcome.map fun _ => Path.ofText given } := by
  obtain ⟨own, hown⟩ := exists_ownReencoding hknown
  have hplan : w.planReencoding codecs r (Path.ofText given) = .ok (own, paths) := by
    simp [planReencoding, checkDirectory, hroot, hown, hpaths, bind, Except.bind, Except.mapError,
      pure, Except.pure]
  simp only [reencodeDirectory, hplan, reencodeFiles_own hown]

/-- **Directories are re-encoded file by file.** With known encodings, `reencodeDirectory` gives
    back the directory. Every file of `listFiles` then has the content that `reencodeFile` by itself
    would leave, and so has the place of its backup if nothing was there. What else was there is as
    it was, and what was not there is a backup of a selected file. The order of the files is of no
    consequence. -/
theorem reencodeDirectory_independent (w : Workspace) (codecs : Codecs) (r : Reencoding) (given : Text)
    (hknown : r.isKnown codecs = true)
    (hroot : w.look (Path.ofText given).text = .ok (some .directory)) :
    let run := w.reencodeDirectory codecs r given
    ∃ paths, w.listFiles (Path.ofText given).text r.extensions = .ok paths ∧
      run.outcome = .ok (Path.ofText given) ∧ run.workspace.here = w.here ∧
      (∀ p ∈ paths, ∀ s, w.locate p.text = .ok s →
        run.workspace.tree.get? s = (w.reencodeFile codecs r p).workspace.tree.get? s) ∧
      (∀ p ∈ paths, ∀ backup s, backupPath? p = some backup → w.locate backup.text = .ok s →
        w.tree.get? s = none →
          run.workspace.tree.get? s = (w.reencodeFile codecs r p).workspace.tree.get? s) ∧
      (∀ s e, w.tree.get? s = none → run.workspace.tree.get? s = some e →
        r.backup = true ∧ ∃ p ∈ paths, ∃ backup content, backupPath? p = some backup ∧
          w.locate backup.text = .ok s ∧ w.read p.text = .ok content ∧ e = .file content) ∧
      (∀ s e, w.tree.get? s = some e → (∀ p ∈ paths, w.locate p.text ≠ .ok s) →
        run.workspace.tree.get? s = some e) ∧
      ∀ order : List Path, order.Perm paths → (w.reencodeFiles codecs r order).outcome = .ok () ∧
        ∀ s, (w.reencodeFiles codecs r order).workspace.tree.get? s = run.workspace.tree.get? s := by
  intro run
  obtain ⟨paths, hpaths⟩ := exists_listFiles r.extensions hroot
  have hselected := selected_listFiles hpaths
  obtain ⟨houtcome, hworkspace⟩ := Selected.reencodeFiles_eq [] hknown hselected
  rw [List.nil_append] at hworkspace
  have hrun : run = { w.reencodeFiles codecs r paths with outcome := .ok (Path.ofText given) } := by
    have houtcome : (w.reencodeFiles codecs r paths).outcome = .ok () := houtcome
    simp only [run, reencodeDirectory_eq hknown hroot hpaths, houtcome]
    rfl
  have hafter : run.workspace = w.withFiles (w.allWrites codecs r paths) := by
    rw [hrun]
    exact hworkspace
  refine ⟨paths, hpaths, by rw [hrun], by rw [hafter, here_withFiles], ?_, ?_, ?_, ?_, ?_⟩
  · intro p hp s hs
    obtain ⟨before, later, rfl⟩ := List.append_of_mem hp
    rw [hafter]
    exact get?_allWrites fun q hq => hselected.not_touches_place hq (place?_eq_some.2 hs)
  · intro p hp backup s hbackup hs hfree
    obtain ⟨before, later, rfl⟩ := List.append_of_mem hp
    rw [hafter]
    exact get?_allWrites fun q hq =>
      hselected.not_touches_backup hq (backupPlace?_eq_some.2 ⟨backup, hbackup, hs⟩) hfree
  · intro s e hnone hget
    rw [hafter] at hget
    exact backup_of_created hnone hget
  · intro s e hget hnot
    rw [hafter]
    exact get?_allWrites_of_not_selected hget hnot
  · intro order hperm
    obtain ⟨houtcome', hworkspace'⟩ :=
      Selected.reencodeFiles_eq [] hknown (hselected.perm hperm)
    refine ⟨houtcome', fun s => ?_⟩
    rw [hafter]
    exact (congrArg (·.tree.get? s) hworkspace').trans (hselected.get?_perm hperm s)

/-- A workspace with a file and its backup, a file that is no text in Windows-1252, and another
    one. -/
def keptBefore : Workspace :=
  ⟨(((FileTree.empty.addFile ["a.txt".toList] [0xE9]).addFile ["a.txt.bak".toList] [0xE8]).addFile
    ["b.txt".toList] [0x81]).addFile ["c.md".toList] [0xE7], ⟨.root, []⟩⟩

/-- From Windows-1252 to UTF-8, with the files that are named as backups (`.bak`) selected too. -/
def withBackups : Reencoding := { extensions := [".txt".toList, ".bak".toList] }

theorem listFiles_keptBefore : keptBefore.listFiles (Path.ofText ".").text withBackups.extensions =
    .ok [Path.ofText "a.txt", Path.ofText "a.txt.bak", Path.ofText "b.txt"] := by
  have hroutes : keptBefore.selectedRoutes []
      (Selection.normalizeExtensions withBackups.extensions) =
      [["a.txt".toList], ["a.txt.bak".toList], ["b.txt".toList]] :=
    (List.mergeSort_of_pairwise (by decide +kernel)).trans (by decide +kernel)
  have hlocate : keptBefore.locate (Path.ofText ".").text = .ok [] :=
    eq_ok_of_toOption (by decide +kernel)
  rw [listFiles_eq (directory?_eq_some.2 ⟨hlocate, rfl⟩), listed, hroutes]
  decide +kernel

/-- A backup that is selected itself is re-encoded and kept beside, and is no less the backup of its
    file. -/
theorem reencodeDirectory_independent_keptBefore :
    let run := keptBefore.reencodeDirectory Charset.codecs withBackups "."
    withBackups.isKnown Charset.codecs = true ∧
      keptBefore.look (Path.ofText ".").text = .ok (some .directory) ∧
      run.outcome = .ok (Path.ofText ".") ∧
      run.workspace.tree.get? ["a.txt".toList] = some (.file [0xC3, 0xA9]) ∧
      run.workspace.tree.get? ["a.txt.bak".toList] = some (.file [0xC3, 0xA8]) ∧
      run.workspace.tree.get? ["a.txt.bak.bak".toList] = some (.file [0xE8]) ∧
      run.workspace.tree.get? ["b.txt".toList] = some (.file [0x81]) ∧
      run.workspace.tree.get? ["c.md".toList] = some (.file [0xE7]) := by
  intro run
  have hknown : withBackups.isKnown Charset.codecs = true := by decide +kernel
  have hroot : keptBefore.look (Path.ofText ".").text = .ok (some .directory) :=
    eq_ok_of_toOption (by decide +kernel)
  have hlocate (p : Path) (s : Route) (h : (keptBefore.locate p.text).toOption = some s) :
      keptBefore.locate p.text = .ok s := eq_ok_of_toOption h
  obtain ⟨paths, hpaths, houtcome, _, hfiles, hbackups, _, hothers, _⟩ :=
    reencodeDirectory_independent keptBefore Charset.codecs withBackups "." hknown hroot
  cases Except.ok.inj (listFiles_keptBefore.symm.trans hpaths)
  refine ⟨hknown, hroot, houtcome, ?_, ?_, ?_, ?_, ?_⟩
  · rw [hfiles (Path.ofText "a.txt") (by simp) _ (hlocate _ ["a.txt".toList] (by decide +kernel))]
    decide +kernel
  · rw [hfiles (Path.ofText "a.txt.bak") (by simp) _
      (hlocate _ ["a.txt.bak".toList] (by decide +kernel))]
    decide +kernel
  · rw [hbackups (Path.ofText "a.txt.bak") (by simp) (Path.ofText "a.txt.bak.bak") _
      (by decide +kernel) (hlocate _ ["a.txt.bak.bak".toList] (by decide +kernel))
      (by decide +kernel)]
    decide +kernel
  · rw [hfiles (Path.ofText "b.txt") (by simp) _ (hlocate _ ["b.txt".toList] (by decide +kernel))]
    decide +kernel
  · refine hothers ["c.md".toList] _ (by decide +kernel) ?_
    simp only [List.forall_mem_cons]
    refine ⟨?_, ?_, ?_, by simp⟩ <;>
      rw [Ne, ← place?_eq_some] <;> decide +kernel

end Workspace
end Seashell
