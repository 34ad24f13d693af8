import Seashell.Proofs.Backups

set_option autoImplicit false

/-! # There and back between two encodings

Every byte of Windows-1252 that stands for a character stands for one of its own
(`Charset.encode_of_decode_windows1252`), and every text is read back from its bytes in UTF-8
(`Charset.decode_encode_utf8`). So a file can be re-encoded from the one to the other and back
without a change to any of its bytes, wherever these two encodings go by their names:
`Workspace.reencodeFile_there_and_back`.

All that can come in between is a backup whose path the system does not take, and then nothing is
done. `Reencoding.isFeasible` says when this is so, from the path alone, and
`Workspace.reencodeFile_of_encode` is one direction of the way with this condition. -/

namespace Seashell

open Text

namespace Charset

/-! ## One byte per character -/

namespace SingleByte

/-- Every byte of the table is the byte of its character: `ofChar` inverts `toChar`. -/
def IsFaithful (s : SingleByte) : Prop := ∀ b c, s.toChar b = some c → s.ofChar c = some b

theorem decodeFrom_cons_eq_ok {s : SingleByte} {pos : Nat} {b : UInt8} {bs : Bytes} {t : Text} :
    s.decodeFrom pos (b :: bs) = .ok t ↔
      ∃ c rest, s.toChar b = some c ∧ s.decodeFrom (pos + 1) bs = .ok rest ∧ t = c :: rest := by
  rw [decodeFrom]
  cases s.toChar b with
  | none => simp
  | some c =>
    cases s.decodeFrom (pos + 1) bs with
    | error f => simp [andThen, Except.map]
    | ok rest => simp [andThen, Except.map, eq_comm]

/-- The text of some bytes has no other bytes: `encodeFrom` gives back what `decodeFrom` has
    read. -/
theorem IsFaithful.encodeFrom_of_decodeFrom {s : SingleByte} (h : s.IsFaithful) {pos : Nat}
    {bs : Bytes} {t : Text} (hdecode : s.decodeFrom pos bs = .ok t) : s.encodeFrom pos t = .ok bs := by
  induction bs generalizing pos t with
  | nil =>
    cases hdecode
    rfl
  | cons b bs ih =>
    obtain ⟨c, rest, hc, hrest, rfl⟩ := decodeFrom_cons_eq_ok.1 hdecode
    rw [encodeFrom, h b c hc]
    simp [ih hrest, Except.map]

theorem toNat_ofNat_of_lt {n : Nat} (h : n < 0x100) : (Char.ofNat n).toNat = n := by
  have hvalid : n.isValidChar := .inl (by omega)
  rw [Char.ofNat, dif_pos hvalid]
  rfl

/-- The characters of `windowsTable` have the bytes of their places. -/
theorem windowsByte_windowsTable : ∀ i < 32, ((windowsTable[i]?).all fun m =>
    m == 0 || windowsByte (Char.ofNat m) == some (UInt8.ofNat (0x80 + i))) = true := by
  decide

theorem isFaithful_windows1252 : windows1252.IsFaithful := by
  intro b c hc
  have hc : windowsChar b = some c := hc
  unfold windowsChar at hc
  dsimp only at hc
  split at hc
  · rename_i hrange
    split at hc
    · rename_i m hm
      split at hc
      · cases hc
      · rename_i hzero
        have hbyte := windowsByte_windowsTable (b.toNat - 0x80) (by omega)
        have hplace : 0x80 + (b.toNat - 0x80) = b.toNat := by omega
        rw [hm, Option.all_some, hplace, UInt8.ofNat_toNat, beq_false_of_ne hzero, Bool.false_or] at hbyte
        rw [← Option.some.inj hc]
        exact beq_iff_eq.1 hbyte
    · cases hc
  · rename_i hrange
    have hlt : b.toNat < 0x100 := b.toNat_lt
    show windowsByte c = some b
    rw [← Option.some.inj hc, windowsByte, toNat_ofNat_of_lt hlt, if_pos (by omega), UInt8.ofNat_toNat]

end SingleByte

/-! ## UTF-8 -/

namespace Utf8

-- the bound as a numeral: `omega` does not open `UInt8.size`
theorem toNat_ofNat {n : Nat} (h : n < 0x100) : (UInt8.ofNat n).toNat = n :=
  UInt8.toNat_ofNat_of_lt' h

theorem within_ofNat {low high n : Nat} (h : n < 0x100) :
    within low high (UInt8.ofNat n) = true ↔ low ≤ n ∧ n ≤ high := by
  rw [within, toNat_ofNat h, Bool.and_eq_true, decide_eq_true_eq, decide_eq_true_eq]

theorem isTail_ofNat (n : Nat) : isTail (UInt8.ofNat (0x80 + n % 0x40)) = true :=
  (within_ofNat (by omega)).2 (by omega)

theorem low_ofNat (n : Nat) : low (UInt8.ofNat (0x80 + n % 0x40)) = n % 0x40 := by
  rw [low, toNat_ofNat (by omega)]
  omega

variable {n : Nat} (pos : Nat) (bs : Bytes)

theorem decodeFrom_one (h : n < 0x80) :
    decodeFrom pos (UInt8.ofNat n :: bs) = andThen (Char.ofNat n) (decodeFrom (pos + 1) bs) := by
  rw [decodeFrom.eq_def]
  dsimp only
  rw [toNat_ofNat (by omega), if_pos h]

theorem decodeFrom_two (hlow : 0x80 ≤ n) (hhigh : n < 0x800) :
    decodeFrom pos (UInt8.ofNat (0xC0 + n / 0x40) :: UInt8.ofNat (0x80 + n % 0x40) :: bs) =
      andThen (Char.ofNat n) (decodeFrom (pos + 2) bs) := by
  have hlead : (UInt8.ofNat (0xC0 + n / 0x40)).toNat = 0xC0 + n / 0x40 := toNat_ofNat (by omega)
  have hvalue : (0xC0 + n / 0x40 - 0xC0) * 0x40 + n % 0x40 = n := by omega
  rw [decodeFrom_leadTwo _ _ (by omega) (by omega)]
  dsimp only
  rw [if_pos (isTail_ofNat n), hlead, low_ofNat, hvalue]

/-- The second byte of a three-byte form tells overlong forms and surrogates apart. -/
theorem isSecondOfThree_ofNat (hlow : 0x800 ≤ n) (hhigh : n < 0x10000)
    (hvalid : n < 0xD800 ∨ 0xDFFF < n) :
    isSecondOfThree (0xE0 + n / 0x1000) (UInt8.ofNat (0x80 + n / 0x40 % 0x40)) = true := by
  unfold isSecondOfThree
  split
  · exact (within_ofNat (by omega)).2 (by omega)
  · split
    · exact (within_ofNat (by omega)).2 (by omega)
    · exact isTail_ofNat _

theorem decodeFrom_three (hlow : 0x800 ≤ n) (hhigh : n < 0x10000)
    (hvalid : n < 0xD800 ∨ 0xDFFF < n) :
    decodeFrom pos (UInt8.ofNat (0xE0 + n / 0x1000) :: UInt8.ofNat (0x80 + n / 0x40 % 0x40) ::
        UInt8.ofNat (0x80 + n % 0x40) :: bs) =
      andThen (Char.ofNat n) (decodeFrom (pos + 3) bs) := by
  have hvalue : (0xE0 + n / 0x1000 - 0xE0) * 0x1000 + n / 0x40 % 0x40 * 0x40 + n % 0x40 = n := by
    omega
  have hlead : (UInt8.ofNat (0xE0 + n / 0x1000)).toNat = 0xE0 + n / 0x1000 :=
    toNat_ofNat (by omega)
  have hsecond := isSecondOfThree_ofNat hlow hhigh hvalid
  rw [decodeFrom_leadThree _ _ (by omega) (by omega)]
  dsimp only
  rw [hlead, hsecond, Bool.not_true, if_neg Bool.false_ne_true, if_pos (isTail_ofNat n), low_ofNat,
    low_ofNat, hvalue]

/-- The second byte of a four-byte form tells overlong forms and what is no code point apart. -/
theorem isSecondOfFour_ofNat (hlow : 0x10000 ≤ n) (hhigh : n < 0x110000) :
    isSecondOfFour (0xF0 + n / 0x40000) (UInt8.ofNat (0x80 + n / 0x1000 % 0x40)) = true := by
  unfold isSecondOfFour
  split
  · exact (within_ofNat (by omega)).2 (by omega)
  · split
    · exact (within_ofNat (by omega)).2 (by omega)
    · exact isTail_ofNat _

theorem decodeFrom_four (hlow : 0x10000 ≤ n) (hhigh : n < 0x110000) :
    decodeFrom pos (UInt8.ofNat (0xF0 + n / 0x40000) :: UInt8.ofNat (0x80 + n / 0x1000 % 0x40) ::
        UInt8.ofNat (0x80 + n / 0x40 % 0x40) :: UInt8.ofNat (0x80 + n % 0x40) :: bs) =
      andThen (Char.ofNat n) (decodeFrom (pos + 4) bs) := by
  have hvalue : (0xF0 + n / 0x40000 - 0xF0) * 0x40000 + n / 0x1000 % 0x40 * 0x1000 +
      n / 0x40 % 0x40 * 0x40 + n % 0x40 = n := by
    omega
  have hlead : (UInt8.ofNat (0xF0 + n / 0x40000)).toNat = 0xF0 + n / 0x40000 :=
    toNat_ofNat (by omega)
  have hsecond := isSecondOfFour_ofNat hlow hhigh
  rw [decodeFrom_leadFour _ _ (by omega) (by omega)]
  dsimp only
  rw [hlead, hsecond, Bool.not_true, if_neg Bool.false_ne_true, isTail_ofNat, Bool.not_true,
    if_neg Bool.false_ne_true, if_pos (isTail_ofNat n), low_ofNat, low_ofNat, low_ofNat, hvalue]

/-- `decodeFrom` reads a character back from its bytes, whatever comes after them. -/
theorem decodeFrom_encodeChar_append (pos : Nat) (c : Char) (bs : Bytes) :
    decodeFrom pos (encodeChar c ++ bs) =
      andThen c (decodeFrom (pos + (encodeChar c).length) bs) := by
  have hvalid : c.toNat < 0xD800 ∨ 0xDFFF < c.toNat ∧ c.toNat < 0x110000 := c.valid
  have hchar : Char.ofNat c.toNat = c := Char.ofNat_toNat c
  unfold encodeChar
  dsimp only
  split
  · exact (decodeFrom_one pos bs (by omega)).trans (by rw [hchar]; rfl)
  · split
    · exact (decodeFrom_two pos bs (by omega) (by omega)).trans (by rw [hchar]; rfl)
    · split
      · exact (decodeFrom_three pos bs (by omega) (by omega) (by omega)).trans (by rw [hchar]; rfl)
      · exact (decodeFrom_four pos bs (by omega) (by omega)).trans (by rw [hchar]; rfl)

/-- `decodeFrom` reads every text back from its bytes. -/
theorem decodeFrom_encode (pos : Nat) (t : Text) : decodeFrom pos (encode t) = .ok t := by
  induction t generalizing pos with
  | nil => rfl
  | cons c cs ih =>
    rw [encode, List.flatMap_cons, decodeFrom_encodeChar_append, ← encode, ih]
    rfl

end Utf8

theorem encode_of_decode_windows1252 {content : Bytes} {t : Text}
    (h : Charset.windows1252.decode content = .ok t) : Charset.windows1252.encode t = .ok content :=
  SingleByte.isFaithful_windows1252.encodeFrom_of_decodeFrom h

theorem decode_encode_utf8 (t : Text) : Charset.utf8.decode (Utf8.encode t) = .ok t :=
  Utf8.decodeFrom_encode 0 t

end Charset

/-- A name by which the encoding of text `codec` can be asked for. -/
def Codecs.IsNameOf (codecs : Codecs) (name : Text) (codec : Codec) : Prop :=
  isNamable name = true ∧ codecs.text? name = some codec

/-! ## Files whose backups can be kept -/

/-- The system takes the path of the backup, by `backupPath?`, if one is asked for. -/
def Reencoding.isFeasible (r : Reencoding) (path : Path) : Bool :=
  !r.backup || (Workspace.backupPath? path).any Path.isTaken

namespace Workspace

/-- The system takes the path of everything that has a place by `place?`. -/
theorem isTaken_of_place? {w : Workspace} {start : Path.Start} {parents : List Text} {name : Text}
    {s : Route} (hparts : ∀ part ∈ parents ++ [name], Path.isPart part = true)
    (h : w.place? ⟨start, parents ++ [name]⟩ = some s) :
    Path.isTaken ⟨start, parents ++ [name]⟩ = true := by
  have hlocate := place?_eq_some.1 h
  obtain ⟨_, hshort, _, _⟩ := locate_eq_ok.1 hlocate
  rw [locate_text w start (by simp) hparts] at hlocate
  split at hlocate
  · cases hlocate
  · split at hlocate
    · cases hlocate
    · obtain ⟨directory, _, hlast⟩ := FileTree.follow_append_eq_ok.1 hlocate
      obtain ⟨_, hname, _⟩ := FileTree.follow_singleton_eq_ok.1 hlast
      simp only [Path.isTaken, Path.name_concat, hname, hshort, decide_true, Bool.and_self]

/-- `backupPlace?` gives the backup of a path that leads somewhere a place exactly if the system
    takes its path. -/
theorem isSome_backupPlace? {w : Workspace} {path : Path} {source : Route} (hclean : path.IsClean)
    (hplace : w.place? path = some source) :
    (w.backupPlace? path).isSome = (backupPath? path).any Path.isTaken := by
  cases hbackup : backupPath? path with
  | none => simp [backupPlace?, hbackup]
  | some backup =>
    rw [Option.any_some, Bool.eq_iff_iff, Option.isSome_iff_exists]
    constructor
    · rintro ⟨place, h⟩
      obtain ⟨hname, rfl⟩ := Path.eq_of_backupPath? hbackup
      obtain ⟨hparents, _, hpart⟩ := Path.isPart_backup hclean hname
      rw [backupPlace?, hbackup, Option.bind_some] at h
      exact isTaken_of_place? (List.forall_mem_append.2 ⟨hparents, by simpa using hpart⟩) h
    · intro htaken
      obtain ⟨directory, _, h⟩ := backupPlace?_of_place? hclean hplace hbackup htaken
      exact ⟨_, h⟩

variable {w : Workspace} {codecs : Codecs} {r : Reencoding} {path : Path} {content bytes : Bytes}
  {t : Text} {source target : Codec}

/-- By `isFeasible` what is asked to be kept of a file can be kept exactly if the system takes the
    path for it. -/
theorem isFeasible_iff (hclean : path.IsClean) (hread : w.read path.text = .ok content) :
    r.isFeasible path = true ↔
      ∃ kept, (if r.backup then w.keepBackup path content else .ok w) = .ok kept := by
  obtain ⟨place, hlocate, _⟩ := read_eq_ok.1 hread
  cases hbackup : r.backup with
  | false => simp [Reencoding.isFeasible, hbackup]
  | true =>
    have hkeeping := congrArg Option.isSome (keepBackup_toOption w path content)
    rw [Option.isSome_map, isSome_backupPlace? hclean (place?_eq_some.2 hlocate)] at hkeeping
    rw [Reencoding.isFeasible, hbackup, Bool.not_true, Bool.false_or, ← hkeeping, if_pos rfl]
    cases w.keepBackup path content <;> simp [Except.toOption]

theorem Prepared.overwrite_eq {kept : Workspace} {place : Route}
    (h : w.Prepared codecs r path place content t kept) (htarget : codecs.IsNameOf r.target target)
    (hencode : target.encode [] t = .ok bytes) :
    kept.overwrite codecs r.target path t =
      { outcome := .ok (), workspace := kept.withFile place bytes } := by
  have hfile := h.kept_ne_directory
  simp only [overwrite, htarget.1, Bool.not_true, Bool.false_eq_true, if_false,
    write_eq [] h.kept_locate hfile, htarget.2, hencode, write_withFile [] bytes h.kept_locate hfile]

/-- `reencodeFile` gives a file whose text has bytes in the new encoding these, unless its backup
    cannot be kept; then nothing is done. -/
theorem reencodeFile_of_encode (hclean : path.IsClean) (hread : w.read path.text = .ok content)
    (hsource : codecs.IsNameOf r.source source) (hdecode : source.decode content = .ok t)
    (htarget : codecs.IsNameOf r.target target) (hencode : target.encode [] t = .ok bytes) :
    let run := w.reencodeFile codecs r path
    (run.outcome = .ok () ↔ r.isFeasible path = true) ∧
      (run.outcome = .ok () → run.workspace.read path.text = .ok bytes) ∧
      (run.outcome ≠ .ok () → run.workspace = w) := by
  obtain ⟨place, hlocate, hget⟩ := read_eq_ok.1 hread
  have hfile : w.decodeFile codecs r.source path = .ok (content, t) := by
    simp [decodeFile, hsource.1, hread, hsource.2, hdecode]
  rw [isFeasible_iff hclean hread]
  unfold reencodeFile
  rw [hfile]
  dsimp only
  cases hkeeping : (if r.backup then w.keepBackup path content else .ok w) with
  | error f => simp
  | ok kept =>
    have h : w.Prepared codecs r path place content t kept :=
      ⟨hlocate, hget, ⟨source, hsource.2, hdecode⟩, hkeeping⟩
    simp only [h.overwrite_eq htarget hencode]
    simp [h.read_withFile]

/-- `reencodeFile` leaves bytes that are no text as they are. -/
theorem reencodeFile_of_undecodable {f : Charset.Fault} (hread : w.read path.text = .ok content)
    (hsource : codecs.IsNameOf r.source source) (hdecode : source.decode content = .error f) :
    w.reencodeFile codecs r path = { outcome := .error (.file (.decoding f)), workspace := w } := by
  simp [reencodeFile, decodeFile, hsource.1, hread, hsource.2, hdecode]

/-- **A file is re-encoded and gets its bytes back.** From Windows-1252 to UTF-8 `reencodeFile`
    succeeds exactly if the bytes are a text and the backup that is asked for can be kept
    (`isFeasible`), and leaves the file as it is otherwise. Back from UTF-8 to Windows-1252 only the
    backup can fail, and if it does not then the file has the very bytes that it had. -/
theorem reencodeFile_there_and_back (w : Workspace) (codecs : Codecs) (given : Text)
    {content : Bytes} (there back : Reencoding)
    (hwindows : codecs.text? "windows-1252" = some (Charset.codec .windows1252))
    (hutf8 : codecs.text? "utf-8" = some (Charset.codec .utf8))
    (hthere : there.source = "windows-1252" ∧ there.target = "utf-8")
    (hback : back.source = "utf-8" ∧ back.target = "windows-1252")
    (hread : w.read (Path.ofText given).text = .ok content) :
    let path := Path.ofText given
    let first := w.reencodeFile codecs there path
    let second := first.workspace.reencodeFile codecs back path
    (first.outcome = .ok () ↔
        (∃ t, Charset.windows1252.decode content = .ok t) ∧ there.isFeasible path = true) ∧
      (first.outcome ≠ .ok () → first.workspace = w) ∧
      (first.outcome = .ok () →
        (∃ t, Charset.windows1252.decode content = .ok t ∧
          first.workspace.read path.text = .ok (Charset.Utf8.encode t)) ∧
        (second.outcome = .ok () ↔ back.isFeasible path = true) ∧
        (second.outcome = .ok () → second.workspace.read path.text = .ok content) ∧
        (second.outcome ≠ .ok () → second.workspace = first.workspace)) := by
  intro path first second
  have hclean : path.IsClean := Path.isClean_ofText given
  have hnamed : codecs.IsNameOf there.source (Charset.codec .windows1252) ∧
      codecs.IsNameOf there.target (Charset.codec .utf8) := by
    rw [hthere.1, hthere.2]
    exact ⟨⟨by decide, hwindows⟩, by decide, hutf8⟩
  have hnamed' : codecs.IsNameOf back.source (Charset.codec .utf8) ∧
      codecs.IsNameOf back.target (Charset.codec .windows1252) := by
    rw [hback.1, hback.2]
    exact ⟨⟨by decide, hutf8⟩, by decide, hwindows⟩
  cases hdecode : Charset.windows1252.decode content with
  | error f =>
    have hfirst : first = { outcome := .error (.file (.decoding f)), workspace := w } :=
      reencodeFile_of_undecodable hread hnamed.1 hdecode
    simp [hfirst]
  | ok t =>
    obtain ⟨hfirst, hwritten, hleft⟩ :=
      reencodeFile_of_encode hclean hread hnamed.1 hdecode hnamed.2 rfl
    refine ⟨⟨fun h => ⟨⟨t, rfl⟩, hfirst.1 h⟩, fun h => hfirst.2 h.2⟩, hleft, fun h => ?_⟩
    have hread' : first.workspace.read path.text = .ok (Charset.Utf8.encode t) := hwritten h
    exact ⟨⟨t, rfl, hread'⟩, reencodeFile_of_encode hclean hread' hnamed'.1
      (Charset.decode_encode_utf8 t) hnamed'.2 (Charset.encode_of_decode_windows1252 hdecode)⟩

/-- A workspace with a file of three lines, each with a terminator of its own. -/
def terminated : Workspace :=
  ⟨FileTree.empty.addFile ["a.txt".toList] [0x80, 0x0D, 0x0A, 0xE9, 0x0D, 0x99, 0x0A], ⟨.root, []⟩⟩

/-- A euro sign, an accent and the sign of a trade mark take more bytes on the way, and the
    terminators stay what they are. -/
theorem reencodeFile_there_and_back_terminated :
    let path := Path.ofText "a.txt"
    let back : Reencoding := { source := "utf-8", target := "windows-1252" }
    let content : Bytes := [0x80, 0x0D, 0x0A, 0xE9, 0x0D, 0x99, 0x0A]
    let first := terminated.reencodeFile Charset.codecs {} path
    let second := first.workspace.reencodeFile Charset.codecs back path
    terminated.read path.text = .ok content ∧ Reencoding.isFeasible {} path = true ∧
      back.isFeasible path = true ∧ first.outcome = .ok () ∧
      first.workspace.read path.text = .ok [0xE2, 0x82, 0xAC, 0x0D, 0x0A, 0xC3, 0xA9, 0x0D, 0xE2, 0x84,
        0xA2, 0x0A] ∧
      second.outcome = .ok () ∧ second.workspace.read path.text = .ok content := by
  intro path back content first second
  have hread : terminated.read path.text = .ok content := rfl
  have hfeasible : Reencoding.isFeasible {} path = true := rfl
  have hfeasible' : back.isFeasible path = true := rfl
  have hdecode : Charset.windows1252.decode content = .ok "€\r\né\r™\n".toList := rfl
  obtain ⟨hfirst, _, hthen⟩ :=
    reencodeFile_there_and_back terminated Charset.codecs "a.txt" {} back rfl rfl ⟨rfl, rfl⟩
      ⟨rfl, rfl⟩ hread
  have hdone : first.outcome = .ok () := hfirst.2 ⟨⟨_, hdecode⟩, hfeasible⟩
  obtain ⟨⟨t, ht, hwritten⟩, hsecond, hrestored, _⟩ := hthen hdone
  have hdone' : second.outcome = .ok () := hsecond.2 hfeasible'
  refine ⟨hread, hfeasible, hfeasible', hdone, ?_, hdone', hrestored hdone'⟩
  obtain rfl : "€\r\né\r™\n".toList = t := Except.ok.inj (hdecode.symm.trans ht)
  exact hwritten

/-- Bytes that are a text may still not be re-encoded: the name of the file may be one that the
    system takes, while that of its backup is too long. -/
theorem reencoding_refused_longName :
    let path := Path.ofText longName
    let first := longNamed.reencodeFile Charset.codecs {} path
    longNamed.read path.text = .ok [0x78] ∧
      Charset.windows1252.decode [0x78] = .ok "x".toList ∧
      first.outcome = .error (.file (.system ⟨.tooLong, longName ++ ".bak"⟩)) ∧
      first.workspace = longNamed := by
  intro path first
  have hread : longNamed.read path.text = .ok [0x78] := eq_ok_of_toOption (by decide +kernel)
  have hdecode : Charset.windows1252.decode [0x78] = .ok "x".toList := rfl
  have hrefused : longNamed.keepBackup path [0x78] =
      .error (.file (.system ⟨.tooLong, longName ++ ".bak"⟩)) := by
    decide +kernel
  have hfile : longNamed.decodeFile Charset.codecs "windows-1252" path = .ok ([0x78], "x".toList) :=
    eq_ok_of_toOption (by decide +kernel)
  have hfirst : first =
      { outcome := .error (.file (.system ⟨.tooLong, longName ++ ".bak"⟩)), workspace := longNamed } := by
    simp only [first, reencodeFile, hfile, hrefused, if_true]
  refine ⟨hread, hdecode, ?_⟩
  rw [hfirst]
  exact ⟨rfl, rfl⟩

end Workspace
end Seashell
