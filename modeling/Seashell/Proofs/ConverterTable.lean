import Mathlib.Data.List.Nodup
import Mathlib.Data.List.Sort
import Seashell.ConverterTable
import Seashell.Proofs.Text

set_option autoImplicit false

/-! # Registered converters

A table is made by registrations, one after the other (`afterRegistrations`). Seen from outside it
is a map from pairs of an extension and a kind, both in the form in which they are compared:
`maker?` has the entry for such a key, and `maker?_register` says what one registration does to it.
By induction over the registrations, the latest one of a key is the one that counts
(`Registration.IsLatest`).

What the table lists and what it finds are read off that map. Keys occur once (`Distinct`), so that
`mem_pairs` and `kindsFor_eq` say what is listed, and `find_eq` what a search finds, with its two
ways to fail. All of this comes together in `registrations_latest_wins`. -/

namespace Seashell

/-! ## Texts in lower case -/

namespace Text

/-- `lowerAfter` looks at what stands before a text only to see whether it meets a cased letter. -/
theorem lowerAfter_congr {before before' : Text} (h : meetsCased before = meetsCased before')
    (s : Text) : lowerAfter before s = lowerAfter before' s := by
  induction s generalizing before before' with
  | nil => rfl
  | cons c cs ih =>
    have hnext : meetsCased (c :: before) = meetsCased (c :: before') := by
      rw [meetsCased, meetsCased, h]
    rw [lowerAfter, lowerAfter, h, ih hnext]

/-- A dot in front is kept by `lower`, and does not change how the rest is read. -/
theorem lower_dot (s : Text) : lower ('.' :: s) = '.' :: lower s := by
  have hdot : meetsCased ['.'] = meetsCased [] := by decide
  exact congrArg ('.' :: ·) (lowerAfter_congr hdot s)

end Text

namespace ConverterTable

/-! ## The table as a map -/

/-- The entry for `key`, an extension and a kind, both in the form in which they are compared. -/
def maker? (t : ConverterTable) (key : Text × Text) : Option Maker :=
  (t.rows.lookup key.1).bind (·.lookup key.2)

theorem maker?_empty (key : Text × Text) : empty.maker? key = none := rfl

/-- A registration is the entry for its key from then on, and no other `maker?` changes. -/
theorem maker?_register (t : ConverterTable) (extension kind : Text) (maker : Maker)
    (key : Text × Text) :
    (t.register extension kind maker).maker? key =
      if key = (extensionKey extension, Text.lower kind) then some maker else t.maker? key := by
  obtain ⟨e, k⟩ := key
  unfold maker? register kinds
  rw [Assoc.lookup_put]
  by_cases he : e = extensionKey extension
  · subst he
    rw [if_pos (by simp), Option.bind_some, Assoc.lookup_put]
    by_cases hk : k = Text.lower kind
    · simp [hk]
    · cases t.rows.lookup (extensionKey extension) <;> simp [hk]
  · rw [if_neg (by simpa using he), if_neg fun h => he (congrArg Prod.fst h)]

theorem isSome_lookup_register (t : ConverterTable) (extension kind : Text) (maker : Maker)
    (e : Text) :
    ((t.register extension kind maker).rows.lookup e).isSome = true ↔
      e = extensionKey extension ∨ (t.rows.lookup e).isSome = true := by
  rw [register, Assoc.lookup_put]
  by_cases he : e = extensionKey extension <;> simp [he]

/-- Every extension has one row, and every kind one entry in it; `register` keeps it so. -/
structure Distinct (t : ConverterTable) : Prop where
  extensions : (t.rows.map (·.1)).Nodup
  kinds : ∀ row ∈ t.rows, (row.2.map (·.1)).Nodup

namespace Distinct

variable {t : ConverterTable}

theorem empty : Distinct empty := ⟨.nil, by simp [ConverterTable.empty]⟩

theorem kinds_lookup (h : t.Distinct) {e : Text} {ks : List (Text × Maker)}
    (hks : t.rows.lookup e = some ks) : (ks.map (·.1)).Nodup :=
  h.kinds (e, ks) (Assoc.mem_of_lookup hks)

theorem nodup_kinds (h : t.Distinct) (extension : Text) :
    ((t.kinds extension).map (·.1)).Nodup := by
  unfold ConverterTable.kinds
  cases hks : t.rows.lookup (extensionKey extension) with
  | none => simp
  | some ks => exact h.kinds_lookup hks

theorem register (h : t.Distinct) (extension kind : Text) (maker : Maker) :
    (t.register extension kind maker).Distinct := by
  refine ⟨Assoc.nodup_keys_put _ _ h.extensions, fun row hrow => ?_⟩
  rcases Assoc.mem_put hrow with rfl | hrow
  · exact Assoc.nodup_keys_put _ _ (h.nodup_kinds extension)
  · exact h.kinds row hrow

end Distinct

/-! ## What is listed -/

/-- The strict order of `pairs`, by extension and then by kind. -/
def pairLt (a b : Text × Text) : Prop := a.1 < b.1 ∨ a.1 = b.1 ∧ a.2 < b.2

theorem pairLe_trans (a b c : Text × Text) (hab : pairLe a b = true) (hbc : pairLe b c = true) :
    pairLe a c = true := by
  simp only [pairLe, decide_eq_true_eq] at hab hbc ⊢
  rcases hab with hab | ⟨hab, hab'⟩
  · rcases hbc with hbc | ⟨hbc, _⟩
    · exact .inl (List.lt_trans hab hbc)
    · exact .inl (hbc ▸ hab)
  · rcases hbc with hbc | ⟨hbc, hbc'⟩
    · exact .inl (hab ▸ hbc)
    · refine .inr ⟨hab.trans hbc, List.not_lt.2 ?_⟩
      exact List.le_trans (List.not_lt.1 hab') (List.not_lt.1 hbc')

theorem pairLe_total (a b : Text × Text) : (pairLe a b || pairLe b a) = true := by
  simp only [pairLe, Bool.or_eq_true, decide_eq_true_eq]
  by_cases hab : a.1 < b.1
  · exact .inl (.inl hab)
  · by_cases hba : b.1 < a.1
    · exact .inr (.inl hba)
    · have heq : a.1 = b.1 := List.le_antisymm (List.not_lt.1 hba) (List.not_lt.1 hab)
      rcases List.le_total a.2 b.2 with hle | hle
      · exact .inl (.inr ⟨heq, List.not_lt.2 hle⟩)
      · exact .inr (.inr ⟨heq.symm, List.not_lt.2 hle⟩)

theorem pairLt_of_pairLe {a b : Text × Text} (h : pairLe a b = true) (hne : a ≠ b) :
    pairLt a b := by
  simp only [pairLe, decide_eq_true_eq] at h
  rcases h with h | ⟨heq, hle⟩
  · exact .inl h
  · refine .inr ⟨heq, Std.lt_of_le_of_ne (Std.not_lt.1 hle) fun heq' => hne ?_⟩
    exact Prod.ext heq heq'

namespace Distinct

variable {t : ConverterTable}

/-- The `pairs` that are listed are those with an entry. -/
theorem mem_pairs (h : t.Distinct) {key : Text × Text} :
    key ∈ t.pairs ↔ (t.maker? key).isSome = true := by
  rw [pairs, (List.mergeSort_perm _ _).mem_iff, List.mem_flatMap]
  constructor
  · rintro ⟨row, hrow, hkey⟩
    obtain ⟨e, he, rfl⟩ := List.mem_map.1 hkey
    have hlookup : t.rows.lookup row.1 = some row.2 := Assoc.lookup_of_mem h.extensions hrow
    have hentry : row.2.lookup e.1 = some e.2 := Assoc.lookup_of_mem (h.kinds row hrow) he
    simp [maker?, hlookup, hentry]
  · intro hkey
    obtain ⟨maker, hmaker⟩ := Option.isSome_iff_exists.1 hkey
    obtain ⟨ks, hks, hentry⟩ := Option.bind_eq_some_iff.1 hmaker
    exact ⟨(key.1, ks), Assoc.mem_of_lookup hks,
      List.mem_map.2 ⟨(key.2, maker), Assoc.mem_of_lookup hentry, rfl⟩⟩

theorem nodup_pairs (h : t.Distinct) : t.pairs.Nodup := by
  refine (List.mergeSort_perm _ _).nodup_iff.2 (List.nodup_flatMap.2 ⟨fun row hrow => ?_, ?_⟩)
  · have hkinds := h.kinds row hrow
    rw [List.Nodup, List.pairwise_map] at hkinds ⊢
    exact hkinds.imp fun hne heq => hne (congrArg Prod.snd heq)
  · -- pairs from different rows differ in the extension
    refine (List.pairwise_map.1 h.extensions).imp fun hne key hkey hkey' => hne ?_
    obtain ⟨_, _, rfl⟩ := List.mem_map.1 hkey
    obtain ⟨_, _, heq⟩ := List.mem_map.1 hkey'
    exact (congrArg Prod.fst heq).symm

theorem pairwise_pairs (h : t.Distinct) : t.pairs.Pairwise pairLt := by
  have hsorted : t.pairs.Pairwise fun a b => pairLe a b = true :=
    List.pairwise_mergeSort pairLe_trans pairLe_total _
  exact (hsorted.and h.nodup_pairs).imp fun hab => pairLt_of_pairLe hab.1 hab.2

theorem pairwise_kindsFor (h : t.Distinct) (extension : Text) :
    (t.kindsFor extension).Pairwise (· < ·) :=
  Text.pairwise_sort (h.nodup_kinds extension)

theorem mem_kindsFor (h : t.Distinct) {extension kind : Text} :
    kind ∈ t.kindsFor extension ↔ (extensionKey extension, kind) ∈ t.pairs := by
  rw [kindsFor, Text.mem_sort, h.mem_pairs, maker?, ConverterTable.kinds]
  cases hks : t.rows.lookup (extensionKey extension) with
  | none => simp
  | some ks =>
    rw [Option.getD_some, Option.bind_some, Option.isSome_iff_exists, List.mem_map]
    constructor
    · rintro ⟨e, he, rfl⟩
      exact ⟨e.2, Assoc.lookup_of_mem (h.kinds_lookup hks) he⟩
    · rintro ⟨maker, hmaker⟩
      exact ⟨(kind, maker), Assoc.mem_of_lookup hmaker, rfl⟩

/-- The kinds for an extension (`kindsFor`) are listed as they are among the `pairs`. -/
theorem kindsFor_eq (h : t.Distinct) (extension : Text) :
    t.kindsFor extension =
      (t.pairs.filter (·.1 == extensionKey extension)).map (·.2) := by
  have hascending : ((t.pairs.filter (·.1 == extensionKey extension)).map (·.2)).Pairwise
      (· < ·) := by
    rw [List.pairwise_map, List.pairwise_filter]
    refine h.pairwise_pairs.imp fun hlt ha hb => ?_
    rw [beq_iff_eq] at ha hb
    rcases hlt with hlt | ⟨_, hlt⟩
    · rw [ha, hb] at hlt
      exact absurd hlt (List.lt_irrefl _)
    · exact hlt
  refine List.Pairwise.eq_of_mem_iff (h.pairwise_kindsFor extension) hascending fun kind => ?_
  rw [h.mem_kindsFor, List.mem_map]
  constructor
  · intro hpair
    exact ⟨_, List.mem_filter.2 ⟨hpair, beq_self_eq_true _⟩, rfl⟩
  · rintro ⟨key, hkey, rfl⟩
    obtain ⟨hpair, he⟩ := List.mem_filter.1 hkey
    rw [beq_iff_eq] at he
    rwa [← he]

end Distinct

/-! ## What is found -/

theorem extensionKey_dot (extension : Text) :
    extensionKey ('.' :: extension) = extensionKey extension := by
  rw [extensionKey, Text.lower_dot, List.dropWhile_cons_of_pos (by simp), extensionKey]

/-- A table is searched by the ending of the path and by the kind: `find` in terms of `maker?`. -/
theorem find_eq (t : ConverterTable) (path kind : Text) :
    t.find path kind =
      let suffix := (Path.ofText path).suffix
      let key := (extensionKey suffix, Text.lower kind)
      if suffix = [] ∨ (t.rows.lookup key.1).isSome = false then .error (.noConverters path)
      else match t.maker? key with
        | none => .error (.noConversion key.1 key.2)
        | some maker => .ok maker := by
  have hsuffix :
      (Path.ofText path).suffix = [] ∨ ∃ rest, (Path.ofText path).suffix = '.' :: rest := by
    simp only [Path.suffix, Path.suffixOf]
    split
    · exact .inl rfl
    · exact .inr ⟨_, rfl⟩
  unfold find Path.extension?
  rcases hsuffix with hnone | ⟨rest, hrest⟩
  · simp [hnone]
  · simp only [hrest, extensionKey_dot, maker?]
    cases t.rows.lookup (extensionKey rest) with
    | none => simp
    | some ks => cases hentry : ks.lookup (Text.lower kind) <;> simp [hentry]

section Search

variable {t : ConverterTable} {path kind : Text}

theorem find_eq_ok_iff {maker : Maker} :
    t.find path kind = .ok maker ↔ (Path.ofText path).suffix ≠ [] ∧
      t.maker? (extensionKey (Path.ofText path).suffix, Text.lower kind) = some maker := by
  rw [find_eq]
  dsimp only
  split
  · rename_i hmissing
    refine iff_of_false (by simp) ?_
    rintro ⟨hsuffix, hmaker⟩
    rcases hmissing with hnil | hrow
    · exact hsuffix hnil
    · obtain ⟨ks, hks, _⟩ := Option.bind_eq_some_iff.1 hmaker
      simp [hks] at hrow
  · rename_i hknown
    rw [and_iff_right (not_or.1 hknown).1]
    cases t.maker? (extensionKey (Path.ofText path).suffix, Text.lower kind) <;> simp

theorem find_eq_noConverters_iff :
    t.find path kind = .error (.noConverters path) ↔ (Path.ofText path).suffix = [] ∨
      (t.rows.lookup (extensionKey (Path.ofText path).suffix)).isSome = false := by
  rw [find_eq]
  dsimp only
  split
  · rename_i hmissing
    exact iff_of_true rfl hmissing
  · rename_i hknown
    refine iff_of_false ?_ hknown
    cases t.maker? (extensionKey (Path.ofText path).suffix, Text.lower kind) <;> simp

theorem find_eq_noConversion_iff :
    t.find path kind =
        .error (.noConversion (extensionKey (Path.ofText path).suffix) (Text.lower kind)) ↔
      (Path.ofText path).suffix ≠ [] ∧
        (t.rows.lookup (extensionKey (Path.ofText path).suffix)).isSome = true ∧
        t.maker? (extensionKey (Path.ofText path).suffix, Text.lower kind) = none := by
  rw [find_eq]
  dsimp only
  split
  · rename_i hmissing
    refine iff_of_false (by simp) ?_
    rintro ⟨hsuffix, hrow, _⟩
    rcases hmissing with hnil | hnone
    · exact hsuffix hnil
    · simp [hrow] at hnone
  · rename_i hknown
    rw [not_or, Bool.not_eq_false] at hknown
    rw [and_iff_right hknown.1, and_iff_right hknown.2]
    cases t.maker? (extensionKey (Path.ofText path).suffix, Text.lower kind) <;> simp

end Search

/-! ## Registrations -/

end ConverterTable

/-- A maker that is registered for an extension and a kind. -/
structure Registration where
  extension : Text
  kind : Text
  maker : Maker

namespace Registration

/-- What the registration `r` is compared by. -/
def key (r : Registration) : Text × Text :=
  (ConverterTable.extensionKey r.extension, Text.lower r.kind)

/-- The registration `r` is among `rs`, and none after it has its `key`. -/
def IsLatest (rs : List Registration) (r : Registration) : Prop :=
  ∃ earlier later, rs = earlier ++ r :: later ∧ ∀ q ∈ later, q.key ≠ r.key

theorem isLatest_cons {q r : Registration} {rs : List Registration} :
    IsLatest (q :: rs) r ↔ (r = q ∧ ∀ p ∈ rs, p.key ≠ r.key) ∨ IsLatest rs r := by
  constructor
  · rintro ⟨earlier, later, hrs, hlater⟩
    cases earlier with
    | nil =>
      obtain ⟨rfl, rfl⟩ := List.cons.inj hrs
      exact .inl ⟨rfl, hlater⟩
    | cons first rest => exact .inr ⟨rest, later, (List.cons.inj hrs).2, hlater⟩
  · rintro (⟨rfl, hlater⟩ | ⟨earlier, later, rfl, hlater⟩)
    · exact ⟨[], rs, rfl, hlater⟩
    · exact ⟨q :: earlier, later, rfl, hlater⟩

end Registration

namespace ConverterTable

/-- The table `t` after some registrations. -/
def afterRegistrations (t : ConverterTable) : List Registration → ConverterTable
  | [] => t
  | r :: later => (t.register r.extension r.kind r.maker).afterRegistrations later

theorem Distinct.afterRegistrations {t : ConverterTable} (h : t.Distinct) (rs : List Registration) :
    (t.afterRegistrations rs).Distinct := by
  induction rs generalizing t with
  | nil => exact h
  | cons r later ih => exact ih (h.register r.extension r.kind r.maker)

theorem isSome_lookup_afterRegistrations (t : ConverterTable) (rs : List Registration) (e : Text) :
    ((t.afterRegistrations rs).rows.lookup e).isSome = true ↔
      (∃ r ∈ rs, r.key.1 = e) ∨ (t.rows.lookup e).isSome = true := by
  induction rs generalizing t with
  | nil => simp [afterRegistrations]
  | cons r later ih =>
    have hfirst : e = extensionKey r.extension ↔ r.key.1 = e := eq_comm
    rw [afterRegistrations, ih, isSome_lookup_register, List.exists_mem_cons_iff, hfirst, or_assoc,
      or_left_comm]

/-- **The latest registration of a key is its entry**: `maker?` finds it. What was in the table
    before counts if there is none. -/
theorem maker?_afterRegistrations (t : ConverterTable) (rs : List Registration) (key : Text × Text)
    (maker : Maker) :
    (t.afterRegistrations rs).maker? key = some maker ↔
      (∃ r, Registration.IsLatest rs r ∧ r.key = key ∧ r.maker = maker) ∨
        (∀ r ∈ rs, r.key ≠ key) ∧ t.maker? key = some maker := by
  induction rs generalizing t with
  | nil => simp [afterRegistrations, Registration.IsLatest]
  | cons r later ih =>
    rw [afterRegistrations, ih, maker?_register]
    constructor
    · rintro (⟨q, hlatest, hq⟩ | ⟨hlater, hentry⟩)
      · exact .inl ⟨q, Registration.isLatest_cons.2 (.inr hlatest), hq⟩
      · split at hentry
        · rename_i hkey
          subst hkey
          exact .inl ⟨r, Registration.isLatest_cons.2 (.inl ⟨rfl, hlater⟩), rfl,
            Option.some.inj hentry⟩
        · rename_i hkey
          exact .inr ⟨List.forall_mem_cons.2 ⟨Ne.symm hkey, hlater⟩, hentry⟩
    · rintro (⟨q, hlatest, rfl, rfl⟩ | ⟨hnone, hentry⟩)
      · rcases Registration.isLatest_cons.1 hlatest with ⟨rfl, hlater⟩ | hlatest
        · exact .inr ⟨hlater, if_pos rfl⟩
        · exact .inl ⟨q, hlatest, rfl, rfl⟩
      · obtain ⟨hfirst, hlater⟩ := List.forall_mem_cons.1 hnone
        exact .inr ⟨hlater, (if_neg (Ne.symm hfirst)).trans hentry⟩

theorem isSome_maker?_afterRegistrations (t : ConverterTable) (rs : List Registration)
    (key : Text × Text) :
    ((t.afterRegistrations rs).maker? key).isSome = true ↔
      (∃ r ∈ rs, r.key = key) ∨ (t.maker? key).isSome = true := by
  induction rs generalizing t with
  | nil => simp [afterRegistrations]
  | cons r later ih =>
    have hfirst : key = (extensionKey r.extension, Text.lower r.kind) ↔ r.key = key := eq_comm
    rw [afterRegistrations, ih, maker?_register, List.exists_mem_cons_iff, or_assoc, or_left_comm]
    refine or_congr_right ?_
    by_cases hkey : r.key = key
    · simp [if_pos (hfirst.2 hkey), hkey]
    · simp [if_neg (mt hfirst.1 hkey), hkey]

/-- **A table is a map in which the latest registration wins.** It lists the keys of its
    registrations in strictly ascending order (`pairs`), and the kinds for an extension as they
    stand in that list. `find` finds the maker of the latest registration with the ending of the
    path and the kind; it fails with one wording if the path has no ending or no registration has
    it, and with another if none of those that have it is for the kind. -/
theorem registrations_latest_wins (rs : List Registration) :
    let t := empty.afterRegistrations rs
    t.pairs.Pairwise pairLt ∧
      (∀ key, key ∈ t.pairs ↔ ∃ r ∈ rs, r.key = key) ∧
      (∀ extension, (t.kindsFor extension).Pairwise (· < ·) ∧
        t.kindsFor extension =
          (t.pairs.filter (·.1 == extensionKey extension)).map (·.2)) ∧
      ∀ path kind,
        let suffix := (Path.ofText path).suffix
        let key := (extensionKey suffix, Text.lower kind)
        (∀ maker, t.find path kind = .ok maker ↔
          suffix ≠ [] ∧ ∃ r, Registration.IsLatest rs r ∧ r.key = key ∧ r.maker = maker) ∧
        (t.find path kind = .error (.noConverters path) ↔
          suffix = [] ∨ ∀ r ∈ rs, r.key.1 ≠ key.1) ∧
        (t.find path kind = .error (.noConversion key.1 key.2) ↔
          suffix ≠ [] ∧ (∃ r ∈ rs, r.key.1 = key.1) ∧ ∀ r ∈ rs, r.key ≠ key) ∧
        (Fault.noConverters path).message = "No available converters for " ++ path ∧
        (Fault.noConversion key.1 key.2).message =
          "No conversion from " ++ key.1 ++ " to " ++ key.2 := by
  intro t
  have hdistinct : t.Distinct := Distinct.empty.afterRegistrations rs
  have hrow (e : Text) : (t.rows.lookup e).isSome = true ↔ ∃ r ∈ rs, r.key.1 = e :=
    (isSome_lookup_afterRegistrations empty rs e).trans (or_iff_left Bool.false_ne_true)
  have hsome (key : Text × Text) : (t.maker? key).isSome = true ↔ ∃ r ∈ rs, r.key = key :=
    (isSome_maker?_afterRegistrations empty rs key).trans (or_iff_left Bool.false_ne_true)
  refine ⟨hdistinct.pairwise_pairs, fun key => hdistinct.mem_pairs.trans (hsome key),
    fun extension => ⟨hdistinct.pairwise_kindsFor extension, hdistinct.kindsFor_eq extension⟩,
    fun path kind => ⟨fun maker => ?_, ?_, ?_, rfl, rfl⟩⟩
  · rw [find_eq_ok_iff, maker?_afterRegistrations, maker?_empty, or_iff_left (by simp)]
  · rw [find_eq_noConverters_iff, ← Bool.not_eq_true, hrow]
    simp only [not_exists, not_and, ne_eq]
  · rw [find_eq_noConversion_iff, hrow, ← Option.not_isSome_iff_eq_none, hsome]
    simp only [not_exists, not_and, ne_eq]

-- neither the dot nor letter case keeps the second registration from taking the place of the first
example : (empty.afterRegistrations [⟨".TXT", "Enc", .inert⟩,
    ⟨"txt", "eNC", .makes (.converter .reencoding)⟩]).find "A.Txt" "ENC" =
      .ok (.makes (.converter .reencoding)) := by
  decide +kernel

end ConverterTable
end Seashell
