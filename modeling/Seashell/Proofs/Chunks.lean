import Seashell.Charset.Stream

set_option autoImplicit false

/-! # Reading in chunks

A file is read in chunks, and a chunk may end in the middle of a character. This does no harm. The
decoders of all families go from character to character: they are `Stepwise`, which says what the
first bytes can come to (`Begins`), and is proved for each of them by a look at the bytes of one
character. In UTF-8 the first byte says how many there are, and with it known the decoder is one of
three (`Utf8.decodeFrom_leadTwo`, `Utf8.decodeFrom_leadThree`, `Utf8.decodeFrom_leadFour`). Bytes
that are a text can then be cut anywhere (`Stepwise.exists_isPart`): those up to the cut are a text
and the beginning of a character, which is kept and is a text together with the bytes that follow.

So what is decoded chunk by chunk is what is decoded as a whole (`decodeChunks_of_decodeFrom`), and
a file whose content is a text is read line by line as this text is: `readLines_of_decode`. This is
said of the encodings without a byte order mark, in which scripts are read for what is proved of
their conversion. -/

namespace Seashell.Charset

/-! ## Decoders that go from character to character -/

/-- The decoder `decode` refuses `bs` from their start, wherever they stand. -/
def Refuses (decode : Nat → Bytes → Except Fault Text) (bs : Bytes) (codec : Text) (length : Nat)
    (first : UInt8) (defect : Defect) : Prop :=
  ∀ pos, decode pos bs = .error (.undecodable codec pos (pos + length) first defect)

/-- What the decoder `decode` makes of the first bytes. -/
inductive Begins (decode : Nat → Bytes → Except Fault Text) : Bytes → Prop where
  /-- The bytes begin with a character, whatever follows. -/
  | char (c : Char) (lead bs : Bytes) (hne : lead ≠ [])
      (h : ∀ pos more, decode pos (lead ++ more) = andThen c (decode (pos + lead.length) more)) :
      Begins decode (lead ++ bs)
  /-- More bytes could make a character of them. -/
  | cut {bs : Bytes} (codec : Text) (length : Nat) (first : UInt8) (defect : Defect)
      (hopen : defect.isOpen = true) (h : Refuses decode bs codec length first defect) :
      Begins decode bs
  /-- They are no text, whatever follows. -/
  | wrong {bs : Bytes} (codec : Text) (length : Nat) (first : UInt8) (defect : Defect)
      (h : ∀ more, Refuses decode (bs ++ more) codec length first defect) : Begins decode bs

/-- The decoder goes from character to character: any bytes begin in one of the three ways of
    `Begins`. -/
structure Stepwise (decode : Nat → Bytes → Except Fault Text) : Prop where
  nil : ∀ pos, decode pos [] = .ok []
  begins : ∀ bs, bs ≠ [] → Begins decode bs

theorem andThen_eq_ok {c : Char} {x : Except Fault Text} {t : Text} :
    andThen c x = .ok t ↔ ∃ rest, x = .ok rest ∧ t = c :: rest := by
  cases x with
  | error f => simp [andThen, Except.map]
  | ok rest => simp [andThen, Except.map, eq_comm]

theorem SingleByte.stepwise (s : SingleByte) : Stepwise s.decodeFrom where
  nil _ := by rw [decodeFrom]
  begins bs hne := by
    obtain ⟨b, bs, rfl⟩ := List.exists_cons_of_ne_nil hne
    cases hb : s.toChar b with
    | none =>
      refine .wrong s.codec 1 b s.defect fun more pos => ?_
      simp only [List.cons_append, decodeFrom, hb]
    | some c =>
      refine .char c [b] bs (by simp) fun pos more => ?_
      simp only [List.singleton_append, decodeFrom, hb, List.length_singleton]

namespace Utf8

section

variable {a : UInt8} (pos : Nat) (as : Bytes)

/-- The decoder behind the first byte of a two-byte form. -/
theorem decodeFrom_leadTwo (hlow : 0xC2 ≤ a.toNat) (hhigh : a.toNat < 0xE0) :
    decodeFrom pos (a :: as) =
      match as with
      | [] => fault pos 1 a .unexpectedEnd
      | b :: bs =>
        if isTail b then
          andThen (Char.ofNat ((a.toNat - 0xC0) * 0x40 + low b)) (decodeFrom (pos + 2) bs)
        else fault pos 1 a .invalidContinuation := by
  rw [decodeFrom.eq_def]
  dsimp only
  rw [if_neg (by omega), if_neg (by omega)]
  cases as with
  | nil => rfl
  | cons b bs => exact if_pos hhigh

/-- The decoder behind the first byte of a three-byte form. -/
theorem decodeFrom_leadThree (hlow : 0xE0 ≤ a.toNat) (hhigh : a.toNat < 0xF0) :
    decodeFrom pos (a :: as) =
      match as with
      | [] => fault pos 1 a .unexpectedEnd
      | b :: bs =>
        if !isSecondOfThree a.toNat b then fault pos 1 a .invalidContinuation
        else match bs with
          | [] => fault pos 2 a .unexpectedEnd
          | c :: cs =>
            if isTail c then
              andThen (Char.ofNat ((a.toNat - 0xE0) * 0x1000 + low b * 0x40 + low c))
                (decodeFrom (pos + 3) cs)
            else fault pos 2 a .invalidContinuation := by
  rw [decodeFrom.eq_def]
  dsimp only
  rw [if_neg (by omega), if_neg (by omega)]
  cases as with
  | nil => rfl
  | cons b bs => exact (if_neg (by omega)).trans (if_pos hhigh)

/-- The decoder behind the first byte of a four-byte form. -/
theorem decodeFrom_leadFour (hlow : 0xF0 ≤ a.toNat) (hhigh : a.toNat ≤ 0xF4) :
    decodeFrom pos (a :: as) =
      match as with
      | [] => fault pos 1 a .unexpectedEnd
      | b :: bs =>
        if !isSecondOfFour a.toNat b then fault pos 1 a .invalidContinuation
        else match bs with
          | [] => fault pos 2 a .unexpectedEnd
          | c :: cs =>
            if !isTail c then fault pos 2 a .invalidContinuation
            else match cs with
              | [] => fault pos 3 a .unexpectedEnd
              | d :: ds =>
                if isTail d then
                  andThen (Char.ofNat ((a.toNat - 0xF0) * 0x40000 + low b * 0x1000 + low c * 0x40 +
                    low d)) (decodeFrom (pos + 4) ds)
                else fault pos 3 a .invalidContinuation := by
  rw [decodeFrom.eq_def]
  dsimp only
  rw [if_neg (by omega), if_neg (by omega)]
  cases as with
  | nil => rfl
  | cons b bs => exact (if_neg (by omega)).trans (if_neg (by omega))

end

theorem begins_leadTwo {a : UInt8} (hlow : 0xC2 ≤ a.toNat) (hhigh : a.toNat < 0xE0) (as : Bytes) :
    Begins decodeFrom (a :: as) := by
  have hlead := fun pos as => decodeFrom_leadTwo pos as hlow hhigh
  cases as with
  | nil => exact .cut "utf-8" 1 a .unexpectedEnd rfl fun pos => hlead pos []
  | cons b bs =>
    by_cases hb : isTail b = true
    · exact .char _ [a, b] bs (by simp) fun pos more => (hlead pos (b :: more)).trans (if_pos hb)
    · exact .wrong "utf-8" 1 a .invalidContinuation fun more pos =>
        (hlead pos (b :: (bs ++ more))).trans (if_neg hb)

theorem begins_leadThree {a : UInt8} (hlow : 0xE0 ≤ a.toNat) (hhigh : a.toNat < 0xF0) (as : Bytes) :
    Begins decodeFrom (a :: as) := by
  have hlead := fun pos as => decodeFrom_leadThree pos as hlow hhigh
  cases as with
  | nil => exact .cut "utf-8" 1 a .unexpectedEnd rfl fun pos => hlead pos []
  | cons b bs =>
    by_cases hb : (!isSecondOfThree a.toNat b) = true
    · exact .wrong "utf-8" 1 a .invalidContinuation fun more pos =>
        (hlead pos (b :: (bs ++ more))).trans (if_pos hb)
    · have hsecond := fun pos bs => (hlead pos (b :: bs)).trans (if_neg hb)
      cases bs with
      | nil => exact .cut "utf-8" 2 a .unexpectedEnd rfl fun pos => hsecond pos []
      | cons c cs =>
        by_cases hc : isTail c = true
        · exact .char _ [a, b, c] cs (by simp) fun pos more =>
            (hsecond pos (c :: more)).trans (if_pos hc)
        · exact .wrong "utf-8" 2 a .invalidContinuation fun more pos =>
            (hsecond pos (c :: (cs ++ more))).trans (if_neg hc)

theorem begins_leadFour {a : UInt8} (hlow : 0xF0 ≤ a.toNat) (hhigh : a.toNat ≤ 0xF4) (as : Bytes) :
    Begins decodeFrom (a :: as) := by
  have hlead := fun pos as => decodeFrom_leadFour pos as hlow hhigh
  cases as with
  | nil => exact .cut "utf-8" 1 a .unexpectedEnd rfl fun pos => hlead pos []
  | cons b bs =>
    by_cases hb : (!isSecondOfFour a.toNat b) = true
    · exact .wrong "utf-8" 1 a .invalidContinuation fun more pos =>
        (hlead pos (b :: (bs ++ more))).trans (if_pos hb)
    · have hsecond := fun pos bs => (hlead pos (b :: bs)).trans (if_neg hb)
      cases bs with
      | nil => exact .cut "utf-8" 2 a .unexpectedEnd rfl fun pos => hsecond pos []
      | cons c cs =>
        by_cases hc : (!isTail c) = true
        · exact .wrong "utf-8" 2 a .invalidContinuation fun more pos =>
            (hsecond pos (c :: (cs ++ more))).trans (if_pos hc)
        · have hthird := fun pos cs => (hsecond pos (c :: cs)).trans (if_neg hc)
          cases cs with
          | nil => exact .cut "utf-8" 3 a .unexpectedEnd rfl fun pos => hthird pos []
          | cons d ds =>
            by_cases hd : isTail d = true
            · exact .char _ [a, b, c, d] ds (by simp) fun pos more =>
                (hthird pos (d :: more)).trans (if_pos hd)
            · exact .wrong "utf-8" 3 a .invalidContinuation fun more pos =>
                (hthird pos (d :: (ds ++ more))).trans (if_neg hd)

theorem stepwise : Stepwise decodeFrom where
  nil _ := by rw [decodeFrom]
  begins bs hne := by
    obtain ⟨a, as, rfl⟩ := List.exists_cons_of_ne_nil hne
    by_cases hone : a.toNat < 0x80
    · refine .char (.ofNat a.toNat) [a] as (by simp) fun pos more => ?_
      rw [decodeFrom.eq_def]
      exact if_pos hone
    by_cases hstart : a.toNat < 0xC2 ∨ 0xF4 < a.toNat
    · refine .wrong "utf-8" 1 a .invalidStart fun more pos => ?_
      rw [decodeFrom.eq_def]
      exact (if_neg hone).trans (if_pos hstart)
    by_cases htwo : a.toNat < 0xE0
    · exact begins_leadTwo (by omega) htwo as
    by_cases hthree : a.toNat < 0xF0
    · exact begins_leadThree (by omega) hthree as
    · exact begins_leadFour (by omega) (by omega) as

end Utf8

theorem Utf16.stepwise (o : ByteOrder) : Stepwise (Utf16.decodeFrom o) where
  nil _ := by rw [decodeFrom]
  begins bs hne := by
    fun_cases decodeFrom o 0 bs with
    | case1 => exact absurd rfl hne
    | case2 _ a =>
      refine .cut ("utf-16" ++ o.ending) 1 a .truncated rfl fun pos => ?_
      rw [decodeFrom, fault]
    | case3 _ a b rest n h =>
      refine .char (.ofNat n) [a, b] rest (by simp) fun pos more => ?_
      rw [decodeFrom.eq_def]
      exact if_pos h
    | case4 _ a b rest n h₁ h₂ =>
      refine .wrong ("utf-16" ++ o.ending) 2 a .illegalEncoding fun more pos => ?_
      rw [decodeFrom.eq_def]
      exact (if_neg h₁).trans (if_pos h₂)
    | case5 _ a b n h₁ h₂ =>
      refine .cut ("utf-16" ++ o.ending) 2 a .unexpectedEnd rfl fun pos => ?_
      rw [decodeFrom.eq_def]
      exact (if_neg h₁).trans (if_neg h₂)
    | case6 _ a b n h₁ h₂ c =>
      refine .cut ("utf-16" ++ o.ending) 3 a .unexpectedEnd rfl fun pos => ?_
      rw [decodeFrom.eq_def]
      exact (if_neg h₁).trans (if_neg h₂)
    | case7 _ a b n h₁ h₂ c d rest m h₃ =>
      refine .char (.ofNat (0x10000 + (n - 0xD800) * 0x400 + (m - 0xDC00))) [a, b, c, d] rest (by simp)
        fun pos more => ?_
      rw [decodeFrom.eq_def]
      exact (if_neg h₁).trans ((if_neg h₂).trans (if_pos h₃))
    | case8 _ a b n h₁ h₂ c d rest m h₃ =>
      refine .wrong ("utf-16" ++ o.ending) 2 a .illegalSurrogate fun more pos => ?_
      rw [decodeFrom.eq_def]
      exact (if_neg h₁).trans ((if_neg h₂).trans (if_neg h₃))

theorem Utf32.stepwise (o : ByteOrder) : Stepwise (Utf32.decodeFrom o) where
  nil _ := by rw [decodeFrom]
  begins bs hne := by
    fun_cases decodeFrom o 0 bs with
    | case1 => exact absurd rfl hne
    | case2 _ a b c d rest n h =>
      refine .wrong ("utf-32" ++ o.ending) 4 a .surrogateRange fun more pos => ?_
      rw [decodeFrom.eq_def]
      exact if_pos h
    | case3 _ a b c d rest n h₁ h₂ =>
      refine .wrong ("utf-32" ++ o.ending) 4 a .outOfRange fun more pos => ?_
      rw [decodeFrom.eq_def]
      exact (if_neg h₁).trans (if_pos h₂)
    | case4 _ a b c d rest n h₁ h₂ =>
      refine .char (.ofNat n) [a, b, c, d] rest (by simp) fun pos more => ?_
      rw [decodeFrom.eq_def]
      exact (if_neg h₁).trans (if_neg h₂)
    | case5 _ a rest hshort =>
      refine .cut ("utf-32" ++ o.ending) (1 + rest.length) a .truncated rfl fun pos => ?_
      rw [decodeFrom, fault, Nat.add_assoc]
      exact hshort

/-- The encodings without a byte order mark are decoded from character to character: `Stepwise`,
    family by family. -/
theorem stepwise_decodeFrom (c : Charset) : Stepwise c.decodeFrom := by
  cases c with
  | utf8 => exact Utf8.stepwise
  | utf8Marked => exact Utf8.stepwise
  | ascii => exact SingleByte.ascii.stepwise
  | latin1 => exact SingleByte.latin1.stepwise
  | windows1252 => exact SingleByte.windows1252.stepwise
  | utf16 order => exact Utf16.stepwise _
  | utf32 order => exact Utf32.stepwise _

/-! ## Texts that are cut -/

section

variable {decode : Nat → Bytes → Except Fault Text}

/-- The bytes `bs` are decoded to the text `t`, but for `kept`, those at the end that begin a
    character. -/
def IsPart (decode : Nat → Bytes → Except Fault Text) (pos : Nat) (bs kept : Bytes) (t : Text) :
    Prop :=
  ∃ lead, bs = lead ++ kept ∧ decode pos lead = .ok t ∧
    (kept = [] ∨ ∃ codec stop first defect, defect.isOpen = true ∧
      decode pos bs = .error (.undecodable codec (pos + lead.length) stop first defect))

theorem decodePart_of_isPart {pos : Nat} {bs kept : Bytes} {t : Text}
    (h : IsPart decode pos bs kept t) : decodePart decode false pos bs = .ok (t, kept) := by
  obtain ⟨lead, rfl, hlead, rfl | ⟨codec, stop, first, defect, hopen, hfault⟩⟩ := h
  · rw [List.append_nil, decodePart, hlead]
  · simp [decodePart, hfault, hopen, hlead, Except.map]

theorem IsPart.cons {pos : Nat} {lead bs kept : Bytes} {c : Char} {t : Text}
    (hc : ∀ more, decode pos (lead ++ more) = andThen c (decode (pos + lead.length) more))
    (h : IsPart decode (pos + lead.length) bs kept t) :
    IsPart decode pos (lead ++ bs) kept (c :: t) := by
  obtain ⟨done, rfl, hdone, hkept⟩ := h
  refine ⟨lead ++ done, by rw [List.append_assoc], by rw [hc, hdone]; rfl, hkept.imp_right ?_⟩
  rintro ⟨codec, stop, first, defect, hopen, hfault⟩
  refine ⟨codec, stop, first, defect, hopen, ?_⟩
  rw [hc, hfault, List.length_append, Nat.add_assoc]
  rfl

namespace Stepwise

/-- The induction along a `Stepwise` decoder, from character to character. -/
theorem induction (hd : Stepwise decode) {motive : Bytes → Prop} (nil : motive [])
    (char : ∀ c lead bs,
      (∀ pos more, decode pos (lead ++ more) = andThen c (decode (pos + lead.length) more)) →
        motive bs → motive (lead ++ bs))
    (cut : ∀ bs codec length first defect, defect.isOpen = true →
      Refuses decode bs codec length first defect → motive bs)
    (wrong : ∀ bs codec length first defect,
      (∀ more, Refuses decode (bs ++ more) codec length first defect) → motive bs)
    (bs : Bytes) : motive bs := by
  generalize hsize : bs.length = size
  induction size using Nat.strongRecOn generalizing bs with
  | ind size ih =>
    by_cases hne : bs = []
    · exact hne ▸ nil
    · cases hd.begins bs hne with
      | char c lead bs hlead hstep =>
        refine char c lead bs hstep (ih bs.length ?_ bs rfl)
        have := List.length_pos_iff.2 hlead
        rw [List.length_append] at hsize
        omega
      | cut codec length first defect hopen h => exact cut bs codec length first defect hopen h
      | wrong codec length first defect h => exact wrong bs codec length first defect h

/-- A text is the same wherever its bytes stand: the position `pos` only counts in faults. -/
theorem decode_eq_ok (hd : Stepwise decode) {pos : Nat} {bs : Bytes} {t : Text}
    (h : decode pos bs = .ok t) (other : Nat) : decode other bs = .ok t := by
  induction bs using hd.induction generalizing pos other t with
  | nil => rw [← h, hd.nil, hd.nil]
  | char c lead bs hstep ih =>
    rw [hstep] at h
    obtain ⟨rest, hrest, rfl⟩ := andThen_eq_ok.1 h
    rw [hstep, ih hrest]
    rfl
  | cut bs codec length first defect hopen hfault => cases (hfault pos).symm.trans h
  | wrong bs codec length first defect hfault =>
    have hwhole := hfault [] pos
    rw [List.append_nil] at hwhole
    cases hwhole.symm.trans h

/-- **A text can be cut anywhere.** The bytes up to there are decoded to a text, but for the first
    bytes of a character (`IsPart`), and these are decoded together with the bytes that follow. -/
theorem exists_isPart (hd : Stepwise decode) {pos : Nat} {bs rest : Bytes} {t : Text}
    (h : decode pos (bs ++ rest) = .ok t) :
    ∃ first kept later, IsPart decode pos bs kept first ∧ decode 0 (kept ++ rest) = .ok later ∧
      t = first ++ later := by
  induction bs using hd.induction generalizing pos t with
  | nil => exact ⟨[], [], t, ⟨[], rfl, hd.nil pos, .inl rfl⟩, hd.decode_eq_ok h 0, rfl⟩
  | char c lead bs hstep ih =>
    rw [List.append_assoc, hstep] at h
    obtain ⟨t, hrest, rfl⟩ := andThen_eq_ok.1 h
    obtain ⟨first, kept, later, hpart, hlater, rfl⟩ := ih hrest
    exact ⟨c :: first, kept, later, hpart.cons (hstep pos), hlater, rfl⟩
  | cut bs codec length first defect hopen hfault =>
    exact ⟨[], bs, t, ⟨[], rfl, hd.nil pos, .inr ⟨_, _, _, _, hopen, hfault pos⟩⟩,
      hd.decode_eq_ok h 0, rfl⟩
  | wrong bs codec length first defect hfault => cases (hfault rest pos).symm.trans h

end Stepwise
end

/-! ## Chunks -/

theorem flatten_modifyHead {chunks : List Bytes} (b : UInt8) (h : chunks ≠ []) :
    (chunks.modifyHead (b :: ·)).flatten = b :: chunks.flatten := by
  obtain ⟨chunk, rest, rfl⟩ := List.exists_cons_of_ne_nil h
  simp

theorem chunksFrom_ne_nil (room : Nat) (bs : Bytes) : chunksFrom room bs ≠ [] := by
  fun_induction chunksFrom room bs with
  | case1 => simp
  | case2 b bs ih => simp
  | case3 room b bs ih => simpa using ih

/-- No byte is lost between the chunks of `chunksFrom`. -/
theorem flatten_chunksFrom (room : Nat) (bs : Bytes) : (chunksFrom room bs).flatten = bs := by
  fun_induction chunksFrom room bs with
  | case1 => rfl
  | case2 b bs ih =>
    rw [List.flatten_cons, List.nil_append, flatten_modifyHead b (chunksFrom_ne_nil _ _), ih]
  | case3 room b bs ih => rw [flatten_modifyHead b (chunksFrom_ne_nil _ _), ih]

section

variable {c : Charset} (hc : c.unmarked = c)
include hc

theorem decode_eq_decodeFrom (bs : Bytes) : c.decode bs = c.decodeFrom 0 bs := by
  cases c with
  | utf16 order => cases order <;> first | rfl | cases hc
  | utf32 order => cases order <;> first | rfl | cases hc
  | utf8Marked => cases hc
  | _ => rfl

theorem decodeChunk_eq (final : Bool) (bs : Bytes) :
    c.decodeChunk final bs = decodeUnmarked c final 0 bs := by
  cases c with
  | utf16 order => cases order <;> first | rfl | cases hc
  | utf32 order => cases order <;> first | rfl | cases hc
  | utf8Marked => cases hc
  | _ => rfl

/-- What `decodeChunks` decodes chunk by chunk is what `decodeFrom` decodes as a whole. -/
theorem decodeChunks_of_decodeFrom {kept : Bytes} {chunks : List Bytes} {t : Text}
    (h : c.decodeFrom 0 (kept ++ chunks.flatten) = .ok t) :
    c.decodeChunks kept chunks = ⟨t, none⟩ := by
  induction chunks generalizing kept t with
  | nil =>
    rw [List.flatten_nil, List.append_nil] at h
    simp [decodeChunks, decodeChunk_eq hc, decodeUnmarked, decodePart, h, Except.map]
  | cons chunk rest ih =>
    rw [List.flatten_cons, ← List.append_assoc] at h
    obtain ⟨first, later, t, hpart, hlater, rfl⟩ := (stepwise_decodeFrom c).exists_isPart h
    simp [decodeChunks, decodeChunk_eq hc, decodeUnmarked, decodePart_of_isPart hpart, ih hlater, Except.map]

/-- **A file is read line by line as its text is**, by `Text.readLines`. -/
theorem readLines_of_decode {content : Bytes} {t : Text} (h : c.decode content = .ok t) :
    c.readLines content = ⟨Text.readLines t, none⟩ := by
  rw [decode_eq_decodeFrom hc] at h
  have hchunks : c.decodeFrom 0 ([] ++ (chunks content).flatten) = .ok t := by
    rwa [List.nil_append, chunks, flatten_chunksFrom]
  rw [readLines, decodeChunks_of_decodeFrom hc hchunks]
  rfl

end
end Seashell.Charset
