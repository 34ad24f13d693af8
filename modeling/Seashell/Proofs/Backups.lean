import Seashell.Proofs.Independence

set_option autoImplicit false

/-! # The first backup

Files may be re-encoded again and again, with or without success. Nothing that is at the place of a
backup is ever written over, unless that place itself is asked for, so the backup of a file is what
the first request for one found in it.

`Workspace.afterRequests` is the workspace after some requests. No request changes where paths lead
(`Workspace.SameWays`), so that what is assumed of a file, of its backup and of the requests
(`Workspace.Watched`) holds along the whole run. There is one lemma for a step at a place that is
taken (`Workspace.Watched.get?_step`) and one for a step at a place that is free
(`Workspace.Watched.get?_step_of_none`): something appears there exactly if the request is for the
file, asks for a backup and finds a text, which `Workspace.keptBy?` tells. The runs follow by
induction. -/

namespace Seashell

open Text

namespace Workspace

/-! ## Ways that stay the same -/

/-- Every path leads from `v` where it leads from `w`, and no path has become too long or short
    enough; directories are directories still. -/
structure SameWays (w v : Workspace) : Prop where
  place? : v.place? = w.place?
  tooLong : ∀ path, v.locate path = .error .tooLong ↔ w.locate path = .error .tooLong
  directory : ∀ s, v.tree.get? s = some .directory ↔ w.tree.get? s = some .directory

theorem sameWays_withFiles {w : Workspace} {writes : List (Route × Bytes)}
    (h : w.TakesAll writes) : w.SameWays (w.withFiles writes) where
  place? := place?_withFiles w writes
  tooLong _ := locate_withFiles writes (by simp) (by simp)
  directory s := by
    by_cases hs : s ∈ writes.map (·.1)
    · obtain ⟨bytes, _, hget⟩ := get?_withFiles_of_mem h hs
      exact iff_of_false (by simp [hget]) (h s hs).not_directory
    · rw [get?_withFiles_of_not_mem hs]

theorem sameWays_reencodeFile (w : Workspace) (codecs : Codecs) (r : Reencoding) (path : Path) :
    w.SameWays (w.reencodeFile codecs r path).workspace := by
  rw [workspace_reencodeFile]
  exact sameWays_withFiles (takesAll_writes w r path)

/-- What `look` finds is what is at the `place?` of the path. -/
theorem look_eq_ok {w : Workspace} {path : Path} {found : Option Entry} :
    w.look path.text = .ok found ↔
      w.locate path.text ≠ .error .tooLong ∧ (w.place? path).bind w.tree.get? = found := by
  unfold look entry place?
  cases w.locate path.text with
  | error o => cases o <;> simp [Except.toOption]
  | ok s => cases hget : w.tree.get? s <;> simp [Except.toOption, hget]

/-! ## Where the file of a path is -/

/-- A path without a name leads to a directory, whatever its `start`. -/
theorem get?_of_parts_nil {w : Workspace} {start : Path.Start} {s : Route}
    (h : w.place? ⟨start, []⟩ = some s) : w.tree.get? s = some .directory := by
  rw [place?_eq_some] at h
  have hstay {r : Route} (hfollow : w.tree.follow r [['.']] = .ok s) :
      w.tree.get? s = some .directory := by
    obtain ⟨hget, _, hstep⟩ := FileTree.follow_singleton_eq_ok.1 hfollow
    rwa [← hstep]
  cases start with
  | here => exact hstay (r := w.here.parts) h
  | root => exact hstay (r := []) h
  | doubleRoot => exact hstay (r := []) h

/-- The last `FileTree.stepFrom` of a path leads from a directory to its place. -/
theorem last_step {w : Workspace} {path : Path} {source : Route} (hclean : path.IsClean)
    (hname : path.name ≠ []) (h : w.place? path = some source) :
    '\x00' ∉ path.name ∧ ∃ directory, w.tree.get? directory = some .directory ∧
      FileTree.stepFrom directory path.name = source := by
  obtain ⟨hparents, hpart, _⟩ := Path.isPart_backup hclean hname
  have hall : ∀ part ∈ path.parts.dropLast ++ [path.name], Path.isPart part = true :=
    List.forall_mem_append.2 ⟨hparents, by simpa using hpart⟩
  rw [place?_eq_some, congrArg Path.text (Path.eq_of_name_ne_nil hname),
    locate_text w path.start (by simp) hall] at h
  split at h
  · cases h
  · rename_i hnul
    split at h
    · cases h
    · obtain ⟨directory, _, hlast⟩ := FileTree.follow_append_eq_ok.1 h
      obtain ⟨hget, _, hstep⟩ := FileTree.follow_singleton_eq_ok.1 hlast
      have hclear : ∀ part ∈ path.parts.dropLast ++ [path.name], '\x00' ∉ part :=
        (Path.not_mem_text_iff path.start (by simp) (by decide)).1 (by simpa using hnul)
      exact ⟨hclear path.name (by simp), directory, hget, hstep⟩

/-- Where a file is, the path that leads to it ends with its name: the last part is neither one dot
    nor two. -/
theorem name_of_file {w : Workspace} {path : Path} {source : Route} {content : Bytes}
    (hclean : path.IsClean) (hplace : w.place? path = some source)
    (hfile : w.tree.get? source = some (.file content)) :
    Path.isPart path.name = true ∧ path.name ≠ ['.'] ∧ path.name ≠ ['.', '.'] := by
  have hne : path.parts ≠ [] := by
    intro he
    obtain ⟨start, parts⟩ := path
    cases (he : parts = [])
    rw [get?_of_parts_nil hplace] at hfile
    cases hfile
  have hlast : path.name = path.parts.getLast hne := by
    rw [Path.name, List.getLast?_eq_some_getLast hne, Option.getD_some]
  obtain ⟨hpart, hdot⟩ := hclean path.name (hlast ▸ List.getLast_mem hne)
  refine ⟨hpart, hdot, fun hup => ?_⟩
  -- a last step up would lead from a directory to the one above it
  obtain ⟨_, directory, hget, hstep⟩ := last_step hclean (Path.isPart_iff.1 hpart).1 hplace
  rw [hup, FileTree.stepFrom, if_neg (by decide), if_pos rfl] at hstep
  rw [← hstep, FileTree.get?_dropLast hget] at hfile
  cases hfile

end Workspace

/-- The system takes the path `p`: neither its name nor the whole is too long. -/
def Path.isTaken (p : Path) : Bool :=
  FileTree.byteLength p.name ≤ FileTree.nameLimit && FileTree.byteLength p.text ≤ FileTree.pathLimit

namespace Workspace

/-- The backup of a path has its place in the directory from which the last step is made, if the
    system takes its path (`isTaken`). -/
theorem backupPlace?_of_place? {w : Workspace} {path backup : Path} {source : Route}
    (hclean : path.IsClean) (hplace : w.place? path = some source)
    (hbackup : backupPath? path = some backup) (htaken : backup.isTaken = true) :
    ∃ directory, FileTree.stepFrom directory path.name = source ∧
      w.backupPlace? path = some (directory ++ [path.name ++ ".bak"]) := by
  obtain ⟨hname, hbeside⟩ := Path.eq_of_backupPath? hbackup
  obtain ⟨hparents, hpart, hpart'⟩ := Path.isPart_backup hclean hname
  obtain ⟨hnul, _⟩ := last_step hclean hname hplace
  have hbackupName : backup.name = path.name ++ ".bak" := by simp [hbeside, Path.name]
  simp only [Path.isTaken, Bool.and_eq_true, decide_eq_true_eq, hbackupName] at htaken
  have hfileName : FileTree.isFileName (path.name ++ ".bak") = true :=
    FileTree.isFileName_iff.2 ⟨hpart', by simp [hnul], htaken.1⟩
  rw [hbeside] at htaken
  have hlocate := place?_eq_some.1 hplace
  rw [congrArg Path.text (Path.eq_of_name_ne_nil hname)] at hlocate
  obtain ⟨directory, hstep, hother⟩ := locate_beside hparents hpart hfileName htaken.2 hlocate
  refine ⟨directory, hstep, backupPlace?_eq_some.2 ⟨backup, hbackup, ?_⟩⟩
  rw [hbeside, hother, FileTree.stepFrom_backup]

/-- The backup of a file has its place in the directory of the file, if the system takes its path
    (`isTaken`). -/
theorem backupPlace?_of_file {w : Workspace} {path backup : Path} {source : Route} {content : Bytes}
    (hclean : path.IsClean) (hplace : w.place? path = some source)
    (hfile : w.tree.get? source = some (.file content)) (hbackup : backupPath? path = some backup)
    (htaken : backup.isTaken = true) :
    ∃ directory, source = directory ++ [path.name] ∧
      w.backupPlace? path = some (directory ++ [path.name ++ ".bak"]) := by
  obtain ⟨_, hdot, hup⟩ := name_of_file hclean hplace hfile
  obtain ⟨directory, hstep, hbackupPlace⟩ := backupPlace?_of_place? hclean hplace hbackup htaken
  refine ⟨directory, ?_, hbackupPlace⟩
  rw [← hstep, FileTree.stepFrom, if_neg hdot, if_neg hup]

/-- Two paths `p` and `q` to one file have backups at one place. -/
theorem backupPlace?_eq_of_place?_eq {w : Workspace} {p q backup other : Path} {source : Route}
    {content : Bytes} (hp : p.IsClean) (hq : q.IsClean) (hplace : w.place? p = some source)
    (hplace' : w.place? q = some source) (hfile : w.tree.get? source = some (.file content))
    (hbackup : backupPath? p = some backup) (hother : backupPath? q = some other)
    (htaken : backup.isTaken = true) (htaken' : other.isTaken = true) :
    w.backupPlace? q = w.backupPlace? p := by
  obtain ⟨directory, hsource, hbackupPlace⟩ :=
    backupPlace?_of_file hp hplace hfile hbackup htaken
  obtain ⟨directory', hsource', hbackupPlace'⟩ :=
    backupPlace?_of_file hq hplace' hfile hother htaken'
  obtain ⟨rfl, hnames⟩ := List.append_inj' (hsource.symm.trans hsource') rfl
  rw [hbackupPlace, hbackupPlace', List.singleton_inj.1 hnames]

/-! ## Requests -/

end Workspace

/-- A request for `reencodeFile` to re-encode one file, whose path is given as text. -/
structure Request where
  settings : Reencoding
  given : Text

/-- The path of the file. -/
def Request.path (q : Request) : Path := Path.ofText q.given

namespace Workspace

variable {codecs : Codecs}

/-- The workspace after some requests, of which any may fail, `reencodeFile` by `reencodeFile`. -/
def afterRequests (w : Workspace) (codecs : Codecs) : List Request → Workspace
  | [] => w
  | q :: later => (w.reencodeFile codecs q.settings q.path).workspace.afterRequests codecs later

/-- The bytes of the file of `path`, if the request `q` is for that file, asks for a backup and
    finds a text in it. -/
def keptBy? (w : Workspace) (codecs : Codecs) (path : Path) (q : Request) : Option Bytes :=
  if q.settings.backup ∧ w.place? q.path = w.place? path then
    (w.decodeFile codecs q.settings.source q.path).toOption.map (·.1)
  else none

/-- The bytes that the file of `path` has just before the first of some requests that is for it,
    asks for a backup and finds a text in it (`keptBy?`). -/
def firstKept? (w : Workspace) (codecs : Codecs) (path : Path) : List Request → Option Bytes
  | [] => none
  | q :: later =>
    (w.keptBy? codecs path q).or
      ((w.reencodeFile codecs q.settings q.path).workspace.firstKept? codecs path later)

theorem afterRequests_append (w : Workspace) (earlier later : List Request) :
    w.afterRequests codecs (earlier ++ later) =
      (w.afterRequests codecs earlier).afterRequests codecs later := by
  induction earlier generalizing w with
  | nil => rfl
  | cons q rest ih => exact ih _

theorem sameWays_afterRequests (w : Workspace) (codecs : Codecs) (requests : List Request) :
    w.SameWays (w.afterRequests codecs requests) := by
  induction requests generalizing w with
  | nil => exact ⟨rfl, fun _ => Iff.rfl, fun _ => Iff.rfl⟩
  | cons q later ih =>
    have hfirst := sameWays_reencodeFile w codecs q.settings q.path
    have hrest := ih (w.reencodeFile codecs q.settings q.path).workspace
    exact ⟨hrest.place?.trans hfirst.place?,
      fun path => (hrest.tooLong path).trans (hfirst.tooLong path),
      fun s => (hrest.directory s).trans (hfirst.directory s)⟩

/-- What is needed of a path, its `backup` and some `requests`: the backup is not itself asked for,
    and the system takes the path of every backup that is to be made of the file. -/
structure Watched (w : Workspace) (path backup : Path) (requests : List Request) : Prop where
  clean : path.IsClean
  backupPath : backupPath? path = some backup
  taken : backup.isTaken = true
  others : ∀ q ∈ requests, w.place? q.path = w.place? path →
    ∀ other, backupPath? q.path = some other → other.isTaken = true
  spared : ∀ q ∈ requests, ∀ s, w.place? backup = some s → w.place? q.path ≠ some s

namespace Watched

variable {w v : Workspace} {path backup : Path} {q : Request} {requests : List Request}

theorem sameWays (h : w.Watched path backup requests) (hways : w.SameWays v) :
    v.Watched path backup requests where
  clean := h.clean
  backupPath := h.backupPath
  taken := h.taken
  others q hq hplace := by
    rw [hways.place?] at hplace
    exact h.others q hq hplace
  spared q hq s hs := by
    rw [hways.place?] at hs ⊢
    exact h.spared q hq s hs

theorem mono {fewer : List Request} (h : w.Watched path backup requests)
    (hfewer : fewer ⊆ requests) : w.Watched path backup fewer :=
  { h with
    others := fun q hq => h.others q (hfewer hq)
    spared := fun q hq => h.spared q (hfewer hq) }

theorem tail (h : w.Watched path backup (q :: requests)) :
    (w.reencodeFile codecs q.settings q.path).workspace.Watched path backup requests :=
  (h.mono (List.subset_cons_self q requests)).sameWays (sameWays_reencodeFile w codecs q.settings q.path)

theorem backupPlace?_eq (h : w.Watched path backup requests) :
    w.backupPlace? path = w.place? backup := by
  rw [backupPlace?, h.backupPath, Option.bind_some]

/-- What is at the place of the backup stays there when `q` is handled. -/
theorem get?_step {s : Route} {e : Entry} (h : w.Watched path backup (q :: requests))
    (hs : w.place? backup = some s) (he : w.tree.get? s = some e) :
    (w.reencodeFile codecs q.settings q.path).workspace.tree.get? s = some e := by
  rw [workspace_reencodeFile, get?_withFiles_of_not_mem, he]
  intro htouches
  rcases Touches.cases htouches with ⟨hplace, _⟩ | ⟨_, hnone⟩
  · exact h.spared q List.mem_cons_self s hs hplace
  · rw [hnone] at he
    cases he

/-- A request that has something to keep (`keptBy?`) writes it at the empty place of the backup. -/
theorem mem_writes_of_keptBy? {s : Route} {content : Bytes}
    (h : w.Watched path backup (q :: requests)) (hs : w.place? backup = some s)
    (hnone : w.tree.get? s = none) (hkept : w.keptBy? codecs path q = some content) :
    (s, content) ∈ w.writes codecs q.settings q.path := by
  unfold keptBy? at hkept
  split at hkept
  · rename_i hq
    obtain ⟨⟨_, t⟩, hdecode, rfl⟩ := Option.map_eq_some_iff.1 hkept
    rw [decodeFile_toOption] at hdecode
    obtain ⟨source, hlocate, hfile⟩ := read_eq_ok.1 (decodeFile_eq_ok hdecode).1
    have hplace := place?_eq_some.2 hlocate
    have hclean : q.path.IsClean := Path.isClean_ofText q.given
    obtain ⟨hpart, _⟩ := name_of_file hclean hplace hfile
    have hne : q.path.parts ≠ [] := fun he => (Path.isPart_iff.1 hpart).1 (by simp [Path.name, he])
    obtain ⟨other, hother⟩ := Option.ne_none_iff_exists'.1 (backupPath?_ne_none hclean hne)
    have htaken := h.others q List.mem_cons_self hq.2 other hother
    have hbackupPlace := backupPlace?_eq_of_place?_eq h.clean hclean (hq.2 ▸ hplace) hplace
      hfile h.backupPath hother h.taken htaken
    rw [h.backupPlace?_eq, hs] at hbackupPlace
    simp [writes, hplace, hdecode, Except.toOption, writesOver, hq.1, hbackupPlace, hnone]
  · cases hkept

/-- A request puts at the empty place of the backup what `keptBy?` tells, and nothing if that is
    nothing. -/
theorem get?_step_of_none (codecs : Codecs) {s : Route} (h : w.Watched path backup (q :: requests))
    (hs : w.place? backup = some s) (hnone : w.tree.get? s = none) :
    (w.reencodeFile codecs q.settings q.path).workspace.tree.get? s =
      (w.keptBy? codecs path q).map .file := by
  rw [workspace_reencodeFile]
  by_cases htouches : s ∈ (w.writes codecs q.settings q.path).map (·.1)
  · obtain ⟨bytes, hwrite, hget⟩ :=
      get?_withFiles_of_mem (takesAll_writes w q.settings q.path) htouches
    obtain ⟨source, content, t, _, hsource, hdecode, rfl | ⟨hbackup, hplace, _, rfl⟩⟩ :=
      mem_writes hwrite
    · rw [hnone] at hsource
      cases hsource
    · have heq : w.place? q.path = w.place? path :=
        place?_eq_of_backupPlace?_eq (Path.isClean_ofText q.given) h.clean hplace
          (h.backupPlace?_eq.trans hs)
      rw [hget, keptBy?, if_pos ⟨hbackup, heq⟩, hdecode]
      rfl
  · rw [get?_withFiles_of_not_mem htouches, hnone]
    cases hkept : w.keptBy? codecs path q with
    | none => rfl
    | some content =>
      have hmem := h.mem_writes_of_keptBy? hs hnone hkept
      exact absurd (List.mem_map_of_mem hmem) htouches

/-- What is at the place of the backup stays there as long as requests are made: `get?_step` along
    the run. -/
theorem get?_afterRequests {s : Route} {e : Entry} (h : w.Watched path backup requests)
    (hs : w.place? backup = some s) (he : w.tree.get? s = some e) :
    (w.afterRequests codecs requests).tree.get? s = some e := by
  induction requests generalizing w with
  | nil => exact he
  | cons q later ih =>
    have hways := sameWays_reencodeFile w codecs q.settings q.path
    exact ih h.tail (by rw [hways.place?, hs]) (h.get?_step hs he)

/-- If nothing is at the place of the backup, then what the first request for one finds is there
    after some requests: `get?_step_of_none` up to that request, and `get?_afterRequests` from then
    on. -/
theorem get?_afterRequests_of_none {s : Route} (h : w.Watched path backup requests)
    (hs : w.place? backup = some s) (hnone : w.tree.get? s = none) :
    (w.afterRequests codecs requests).tree.get? s = (w.firstKept? codecs path requests).map .file := by
  induction requests generalizing w with
  | nil => exact hnone
  | cons q later ih =>
    have hplace : (w.reencodeFile codecs q.settings q.path).workspace.place? backup = some s := by
      rw [(sameWays_reencodeFile w codecs q.settings q.path).place?, hs]
    have hstep := h.get?_step_of_none codecs hs hnone
    rw [afterRequests, firstKept?]
    cases hkept : w.keptBy? codecs path q with
    | none =>
      rw [hkept] at hstep
      rw [Option.none_or]
      exact ih h.tail hplace hstep
    | some content =>
      rw [hkept] at hstep
      rw [Option.some_or]
      exact h.tail.get?_afterRequests hplace hstep

/-- Without a place for the backup there is none for the file, and nothing of it is ever kept. -/
theorem firstKept?_of_place?_eq_none (h : w.Watched path backup requests)
    (hs : w.place? backup = none) : w.firstKept? codecs path requests = none := by
  induction requests generalizing w with
  | nil => rfl
  | cons q later ih =>
    have hlater := ih h.tail (by rw [(sameWays_reencodeFile w codecs q.settings q.path).place?, hs])
    rw [firstKept?, hlater, Option.or_none]
    unfold keptBy?
    split
    · rename_i hq
      cases hdecode : w.decodeFile codecs q.settings.source q.path with
      | error f => rfl
      | ok found =>
        -- a file that is found has a place for its backup beside it
        obtain ⟨source, hlocate, hfile⟩ := read_eq_ok.1 (decodeFile_eq_ok hdecode).1
        have hplace : w.place? path = some source := hq.2 ▸ place?_eq_some.2 hlocate
        obtain ⟨_, _, hbackup⟩ :=
          backupPlace?_of_file h.clean hplace hfile h.backupPath h.taken
        rw [h.backupPlace?_eq, hs] at hbackup
        cases hbackup
    · rfl

end Watched

/-- **The first backup is kept.** Whatever `requests` are made, of which none is for the backup of a
    file itself: once there is something at the path of the backup it stays as it is, and if there
    is nothing then, at any time, there is what the file had in it just before the first request for
    it that asked for a backup and found a text (`firstKept?`). -/
theorem look_backup_afterRequests (w : Workspace) (codecs : Codecs) (given : Text) {backup : Path}
    (requests : List Request)
    (hbackup : backupPath? (Path.ofText given) = some backup) (htaken : backup.isTaken = true)
    (hothers : ∀ q ∈ requests, w.place? q.path = w.place? (Path.ofText given) →
      ∀ other, backupPath? q.path = some other → other.isTaken = true)
    (hspared : ∀ q ∈ requests, ∀ s, w.place? backup = some s → w.place? q.path ≠ some s) :
    ∀ earlier later, requests = earlier ++ later →
      (∀ e, (w.afterRequests codecs earlier).look backup.text = .ok (some e) →
        (w.afterRequests codecs requests).look backup.text = .ok (some e)) ∧
      (w.look backup.text = .ok none → (w.afterRequests codecs earlier).look backup.text =
        .ok ((w.firstKept? codecs (Path.ofText given) earlier).map .file)) := by
  rintro earlier later rfl
  have hwatched : w.Watched (Path.ofText given) backup (earlier ++ later) :=
    ⟨Path.isClean_ofText given, hbackup, htaken, hothers, hspared⟩
  have hfirst := sameWays_afterRequests w codecs earlier
  have hlast := sameWays_afterRequests (w.afterRequests codecs earlier) codecs later
  constructor
  · intro e hlook
    obtain ⟨hshort, hfound⟩ := look_eq_ok.1 hlook
    obtain ⟨s, hs, he⟩ := Option.bind_eq_some_iff.1 hfound
    have hlater := (hwatched.mono (List.subset_append_right _ _)).sameWays hfirst
    rw [afterRequests_append]
    refine look_eq_ok.2 ⟨fun hlong => hshort ((hlast.tooLong _).1 hlong), ?_⟩
    rw [hlast.place?, hs, Option.bind_some, hlater.get?_afterRequests hs he]
  · intro hlook
    obtain ⟨hshort, hnothing⟩ := look_eq_ok.1 hlook
    have hearlier := hwatched.mono (List.subset_append_left _ _)
    refine look_eq_ok.2 ⟨fun hlong => hshort ((hfirst.tooLong _).1 hlong), ?_⟩
    rw [hfirst.place?]
    cases hs : w.place? backup with
    | none =>
      rw [hearlier.firstKept?_of_place?_eq_none hs]
      rfl
    | some s =>
      rw [hs, Option.bind_some] at hnothing
      rw [Option.bind_some, hearlier.get?_afterRequests_of_none hs hnothing]

/-- A workspace with one file in UTF-8. -/
def oneFile : Workspace := ⟨FileTree.empty.addFile ["a.txt".toList] [0xC3, 0xA9], ⟨.root, []⟩⟩

/-- Requests of which the first finds no text, the second has no bytes for it, and the third
    succeeds. -/
def threeRequests : List Request :=
  [⟨{ source := "ascii", target := "utf-8" }, "a.txt"⟩,
    ⟨{ source := "utf-8", target := "ascii" }, "a.txt"⟩,
    ⟨{ source := "utf-8", target := "utf-16" }, "a.txt"⟩]

/-- The backup of a file has what was in it before it was emptied, whatever the rest of
    `threeRequests` does to it. -/
theorem look_backup_threeRequests :
    let backup := Path.ofText "a.txt.bak"
    backupPath? (Path.ofText "a.txt") = some backup ∧
      backup.isTaken = true ∧ oneFile.look backup.text = .ok none ∧
      (oneFile.afterRequests Charset.codecs threeRequests).look backup.text = .ok (some (.file [0xC3, 0xA9])) ∧
      (oneFile.afterRequests Charset.codecs threeRequests).read "a.txt" = .ok [0xFF, 0xFE] := by
  intro backup
  have hbackup : backupPath? (Path.ofText "a.txt") = some backup := by decide +kernel
  have htaken : backup.isTaken = true := by decide +kernel
  have hlook : oneFile.look backup.text = .ok none := eq_ok_of_toOption (by decide +kernel)
  have hpaths : ∀ q ∈ threeRequests, q.path = Path.ofText "a.txt" := by
    simp [threeRequests, Request.path]
  have hothers : ∀ q ∈ threeRequests, oneFile.place? q.path = oneFile.place? (Path.ofText "a.txt") →
      ∀ other, backupPath? q.path = some other → other.isTaken = true := by
    intro q hq _ other hother
    rw [hpaths q hq, hbackup] at hother
    exact Option.some.inj hother ▸ htaken
  have hspared : ∀ q ∈ threeRequests, ∀ s, oneFile.place? backup = some s →
      oneFile.place? q.path ≠ some s := by
    intro q hq s hs
    rw [hpaths q hq, ← hs]
    decide +kernel
  have hkept : oneFile.firstKept? Charset.codecs (Path.ofText "a.txt") threeRequests = some [0xC3, 0xA9] := by
    decide +kernel
  obtain ⟨_, hfirst⟩ := look_backup_afterRequests oneFile Charset.codecs "a.txt" threeRequests hbackup
    htaken hothers hspared threeRequests [] (by simp)
  refine ⟨hbackup, htaken, hlook, ?_, eq_ok_of_toOption (by decide +kernel)⟩
  rw [hfirst hlook, hkept]
  rfl

/-- The name of a file for which the name of the backup is too long. -/
def longName : Text := List.replicate 252 'a'

/-- A workspace with a file of the name `longName`. -/
def longNamed : Workspace := ⟨FileTree.empty.addFile [longName] [0x78], ⟨.root, []⟩⟩

/-- A request for a file may ask for a backup and find a text and still make no backup: the name of
    a file may be one that the system takes, while that of its backup is too long. -/
theorem backup_refused_longName :
    let q : Request := ⟨{ source := "utf-8", target := "utf-8" }, longName⟩
    let backup : Path := ⟨.here, [longName ++ ".bak"]⟩
    q.settings.backup = true ∧ backupPath? q.path = some backup ∧
      longNamed.tree.get? [longName ++ ".bak"] = none ∧
      longNamed.decodeFile Charset.codecs q.settings.source q.path = .ok ([0x78], "x".toList) ∧
      longNamed.firstKept? Charset.codecs q.path [q] = some [0x78] ∧
      (longNamed.reencodeFile Charset.codecs q.settings q.path).outcome =
        .error (.file (.system ⟨.tooLong, backup.text⟩)) ∧
      longNamed.afterRequests Charset.codecs [q] = longNamed := by
  refine ⟨rfl, by decide +kernel, by decide +kernel,
    eq_ok_of_toOption (by decide +kernel), by decide +kernel, by decide +kernel, by decide +kernel⟩

end Workspace
end Seashell
