import Seashell.Proofs.ConverterTable

set_option autoImplicit false

/-! # The health of a table of converters

A table keeps its rows, and the entries of a row, in the order in which they were registered first
(`OrderedBy`). This is a fact about association lists (`Assoc.InOrder.put`: a key that is given
again keeps its place), once for the rows and once for the entries of a row, and it is kept by every
registration (`OrderedBy.register`), hence by any number of them.

So the entry that a check of the table complains about (`ConverterTable.fault?`) is the first broken
one in that order (`Registration.IsFirstBroken`), whatever has been registered in its place since.
In a table without a complaint every search ends with a converter or with the answer that there is
none. `registrations_health` is about all tables that registrations make from an empty one. -/

namespace Seashell

/-! ## Entries in the order of their keys -/

namespace Assoc

variable {α β : Type} [BEq α]

/-- The keys of the `entries` are those given, in the order in which they come first there. -/
structure InOrder (given : List α) (entries : List (α × β)) : Prop where
  mem : ∀ a, a ∈ entries.map (·.1) ↔ a ∈ given
  pairwise : (entries.map (·.1)).Pairwise fun a b => given.idxOf a < given.idxOf b

theorem InOrder.nodup {given : List α} {entries : List (α × β)} (h : InOrder given entries) :
    (entries.map (·.1)).Nodup := by
  refine h.pairwise.imp fun hlt heq => ?_
  rw [heq] at hlt
  exact Nat.lt_irrefl _ hlt

variable [LawfulBEq α]

theorem keys_put_of_mem {key : α} (value : β) {entries : List (α × β)}
    (h : key ∈ entries.map (·.1)) : (put key value entries).map (·.1) = entries.map (·.1) := by
  induction entries with
  | nil => simp at h
  | cons e rest ih =>
    by_cases hk : e.1 = key
    · simp [put, hk]
    · have hrest : key ∈ rest.map (·.1) := (List.mem_cons.1 h).resolve_left (Ne.symm hk)
      rw [put, if_neg (by simpa using hk), List.map_cons, ih hrest, List.map_cons]

theorem keys_put_of_not_mem {key : α} (value : β) {entries : List (α × β)}
    (h : key ∉ entries.map (·.1)) :
    (put key value entries).map (·.1) = entries.map (·.1) ++ [key] := by
  induction entries with
  | nil => rfl
  | cons e rest ih =>
    rw [List.map_cons, List.mem_cons, not_or] at h
    have hk : ¬(e.1 == key) = true := fun heq => h.1 (eq_of_beq heq).symm
    rw [put, if_neg hk, List.map_cons, ih h.2, List.map_cons, List.cons_append]

/-- A key that is `put` once more keeps its place, and a new one comes last. -/
theorem InOrder.put {given : List α} {entries : List (α × β)} (h : InOrder given entries) (key : α)
    (value : β) : InOrder (given ++ [key]) (Assoc.put key value entries) := by
  have hplace {a : α} (ha : a ∈ entries.map (·.1)) : (given ++ [key]).idxOf a = given.idxOf a :=
    List.idxOf_append_of_mem ((h.mem a).1 ha)
  have hold : (entries.map (·.1)).Pairwise fun a b =>
      (given ++ [key]).idxOf a < (given ++ [key]).idxOf b := by
    refine h.pairwise.imp_of_mem fun ha hb hlt => ?_
    rwa [hplace ha, hplace hb]
  refine ⟨fun a => ?_, ?_⟩
  · rw [mem_keys_put, h.mem, List.mem_append, List.mem_singleton, or_comm]
  · by_cases hkey : key ∈ entries.map (·.1)
    · rwa [keys_put_of_mem value hkey]
    · rw [keys_put_of_not_mem value hkey, List.pairwise_append]
      refine ⟨hold, List.pairwise_singleton _ _, fun a ha b hb => ?_⟩
      rw [List.mem_singleton.1 hb, hplace ha, List.idxOf_append_of_notMem (mt (h.mem key).2 hkey)]
      exact Nat.lt_add_right _ (List.idxOf_lt_length_iff.2 ((h.mem a).1 ha))

end Assoc

/-! ## The order of registration -/

namespace Registration

/-- The extensions that are registered, in the form in which they are compared. -/
def extensionsOf (rs : List Registration) : List Text := rs.map (·.key.1)

/-- The kinds that are registered for an extension, both in the form in which they are compared. -/
def kindsOf (rs : List Registration) (extension : Text) : List Text :=
  (rs.filter (·.key.1 == extension)).map (·.key.2)

/-- The extension of the first key was registered before that of the second one or, if they have the
    same extension, its kind was registered before for it. -/
def Before (rs : List Registration) (a b : Text × Text) : Prop :=
  (extensionsOf rs).idxOf a.1 < (extensionsOf rs).idxOf b.1 ∨
    a.1 = b.1 ∧ (kindsOf rs a.1).idxOf a.2 < (kindsOf rs a.1).idxOf b.2

theorem Before.asymm {rs : List Registration} {a b : Text × Text} (h : Before rs a b) :
    ¬Before rs b a := by
  rintro (hba | ⟨heq, hba⟩)
  · rcases h with hab | ⟨heq, _⟩
    · omega
    · rw [heq] at hba
      omega
  · rcases h with hab | ⟨_, hab⟩
    · rw [heq] at hab
      omega
    · rw [heq] at hba
      omega

end Registration

namespace ConverterTable

open Registration

/-- The `rows` and the entries of each row are in the order of some registrations. -/
structure OrderedBy (rs : List Registration) (t : ConverterTable) : Prop where
  rows : Assoc.InOrder (extensionsOf rs) t.rows
  inRow : ∀ row ∈ t.rows, Assoc.InOrder (kindsOf rs row.1) row.2

namespace OrderedBy

variable {rs : List Registration} {t : ConverterTable}

theorem empty : OrderedBy [] empty :=
  ⟨⟨fun _ => Iff.rfl, .nil⟩, by simp [ConverterTable.empty]⟩

theorem kinds (h : t.OrderedBy rs) (extension : Text) :
    Assoc.InOrder (kindsOf rs (extensionKey extension)) (t.kinds extension) := by
  unfold ConverterTable.kinds
  cases hks : t.rows.lookup (extensionKey extension) with
  | some ks => exact h.inRow _ (Assoc.mem_of_lookup hks)
  | none =>
    -- without a row for the extension nothing has been registered for it
    have hnone : kindsOf rs (extensionKey extension) = [] := by
      refine List.map_eq_nil_iff.2 (List.filter_eq_nil_iff.2 fun r hr hkey => ?_)
      have hrow := (h.rows.mem _).2 (List.mem_map.2 ⟨r, hr, eq_of_beq hkey⟩)
      obtain ⟨row, hmem, hrow⟩ := List.mem_map.1 hrow
      have := List.lookup_eq_none_iff.1 hks row hmem
      simp [hrow] at this
    rw [hnone]
    exact ⟨fun _ => Iff.rfl, .nil⟩

/-- `register` keeps the order, with the registration behind the others. -/
theorem register (h : t.OrderedBy rs) (r : Registration) :
    (t.register r.extension r.kind r.maker).OrderedBy (rs ++ [r]) := by
  have hkinds (e : Text) :
      kindsOf (rs ++ [r]) e = kindsOf rs e ++ (if r.key.1 = e then [r.key.2] else []) := by
    by_cases he : r.key.1 = e <;> simp [kindsOf, he]
  have hrows : Assoc.InOrder (extensionsOf (rs ++ [r]))
      (t.register r.extension r.kind r.maker).rows := by
    rw [extensionsOf, List.map_append]
    exact h.rows.put r.key.1 _
  refine ⟨hrows, fun row hrow => ?_⟩
  have hlookup := Assoc.lookup_of_mem hrows.nodup hrow
  rw [ConverterTable.register, Assoc.lookup_put] at hlookup
  rw [hkinds]
  split at hlookup
  · rename_i he
    have he : row.1 = r.key.1 := eq_of_beq he
    rw [if_pos he.symm, ← Option.some.inj hlookup, he]
    exact (h.kinds r.extension).put r.key.2 r.maker
  · rename_i he
    rw [if_neg fun heq => he (beq_iff_eq.2 heq.symm), List.append_nil]
    exact h.inRow row (Assoc.mem_of_lookup hlookup)

/-- The order of a table is that of all its registrations, by `register` of each. -/
theorem afterRegistrations (h : t.OrderedBy rs) (later : List Registration) :
    (t.afterRegistrations later).OrderedBy (rs ++ later) := by
  induction later generalizing rs t with
  | nil => rwa [List.append_nil]
  | cons r later ih =>
    rw [List.append_cons]
    exact ih (h.register r)

end OrderedBy

/-! ## The entries of a table -/

/-- The entries of a table with their keys, in the order of its `rows`. -/
def entries (t : ConverterTable) : List ((Text × Text) × Maker) :=
  t.rows.flatMap fun row => row.2.map fun e => ((row.1, e.1), e.2)

theorem fault?_eq (t : ConverterTable) :
    t.fault? = t.entries.findSome? fun e => entryFault? e.1.1 e.1.2 e.2 := by
  unfold fault? entries
  induction t.rows with
  | nil => rfl
  | cons row rest ih =>
    rw [List.flatMap_cons, List.findSome?_append, List.findSome?_map, ← ih, List.findSome?_cons]
    simp only [Function.comp_def]
    cases row.2.findSome? fun e => entryFault? row.1 e.1 e.2 <;> rfl

theorem Distinct.mem_entries {t : ConverterTable} (h : t.Distinct) {key : Text × Text}
    {maker : Maker} : (key, maker) ∈ t.entries ↔ t.maker? key = some maker := by
  unfold entries maker?
  rw [List.mem_flatMap, Option.bind_eq_some_iff]
  constructor
  · rintro ⟨row, hrow, hentry⟩
    obtain ⟨e, he, heq⟩ := List.mem_map.1 hentry
    obtain ⟨rfl, rfl⟩ := Prod.mk.inj heq
    exact ⟨row.2, Assoc.lookup_of_mem h.extensions hrow, Assoc.lookup_of_mem (h.kinds row hrow) he⟩
  · rintro ⟨ks, hks, hmaker⟩
    exact ⟨(key.1, ks), Assoc.mem_of_lookup hks,
      List.mem_map.2 ⟨(key.2, maker), Assoc.mem_of_lookup hmaker, rfl⟩⟩

/-- The `entries` are in the order of registration, by `Before`. -/
theorem OrderedBy.pairwise_entries {rs : List Registration} {t : ConverterTable}
    (h : t.OrderedBy rs) : t.entries.Pairwise fun a b => Before rs a.1 b.1 := by
  rw [entries, List.pairwise_flatMap]
  constructor
  · intro row hrow
    rw [List.pairwise_map]
    exact (List.pairwise_map.1 (h.inRow row hrow).pairwise).imp fun hlt => .inr ⟨rfl, hlt⟩
  · refine (List.pairwise_map.1 h.rows.pairwise).imp fun hlt a ha b hb => .inl ?_
    obtain ⟨_, _, rfl⟩ := List.mem_map.1 ha
    obtain ⟨_, _, rfl⟩ := List.mem_map.1 hb
    exact hlt

/-! ## The first broken entry -/

end ConverterTable

/-- The entry makes a `converter`. -/
def Maker.isSound : Maker → Bool
  | .makes (.converter _) => true
  | .makes (.other _) => false
  | .inert => false

theorem Maker.isSound_iff {maker : Maker} :
    maker.isSound = true ↔ ∃ c, maker = .makes (.converter c) := by
  cases maker with
  | inert => simp [isSound]
  | makes product => cases product <;> simp [isSound]

/-- Among the registrations that count it is the first one, in the order of the first registrations
    of their keys, that makes no converter. -/
structure Registration.IsFirstBroken (rs : List Registration) (r : Registration) : Prop where
  latest : IsLatest rs r
  broken : r.maker.isSound = false
  first : ∀ q, IsLatest rs q → q.maker.isSound = false → q.key = r.key ∨ Before rs r.key q.key

namespace ConverterTable

open Registration

theorem entryFault?_eq_none {extension kind : Text} {maker : Maker} :
    entryFault? extension kind maker = none ↔ maker.isSound = true := by
  cases maker with
  | inert => simp [entryFault?, Maker.isSound]
  | makes product => cases product <;> simp [entryFault?, Maker.isSound]

theorem entryFault?_eq_some {extension kind : Text} {maker : Maker} {f : Fault} :
    entryFault? extension kind maker = some f ↔
      maker = .inert ∧ f = .inertEntry extension kind ∨
        ∃ product, maker = .makes (.other product) ∧ f = .noConverter extension kind product := by
  cases maker with
  | inert => simp [entryFault?, eq_comm]
  | makes product => cases product <;> simp [entryFault?, eq_comm]

/-- What `findSome?` finds in a list that is strictly ordered is found at the least place. -/
theorem findSome?_eq_some_of_pairwise {α β : Type} {before : α → α → Prop} {l : List α}
    {g : α → Option β} {b : β} (hasymm : ∀ a c, before a c → ¬before c a) (h : l.Pairwise before) :
    l.findSome? g = some b ↔
      ∃ a ∈ l, g a = some b ∧ ∀ c ∈ l, g c ≠ none → c = a ∨ before a c := by
  rw [List.findSome?_eq_some_iff]
  constructor
  · rintro ⟨earlier, a, later, rfl, ha, hearlier⟩
    refine ⟨a, by simp, ha, fun c hc hne => ?_⟩
    rcases List.mem_append.1 hc with hc | hc
    · exact absurd (hearlier c hc) hne
    · have hlater := (List.pairwise_cons.1 (List.pairwise_append.1 h).2.1).1
      exact (List.mem_cons.1 hc).imp_right (hlater c)
  · rintro ⟨a, ha, hb, hleast⟩
    obtain ⟨earlier, later, rfl⟩ := List.append_of_mem ha
    refine ⟨earlier, a, later, rfl, hb, fun c hc => ?_⟩
    by_contra hne
    have hca : before c a := (List.pairwise_append.1 h).2.2 c hc a List.mem_cons_self
    rcases hleast c (List.mem_append_left _ hc) hne with rfl | hac
    · exact hasymm _ _ hca hca
    · exact hasymm _ _ hca hac

section

variable (rs : List Registration)

theorem mem_entries_afterRegistrations {key : Text × Text} {maker : Maker} :
    (key, maker) ∈ (empty.afterRegistrations rs).entries ↔
      ∃ r, IsLatest rs r ∧ r.key = key ∧ r.maker = maker := by
  rw [(Distinct.empty.afterRegistrations rs).mem_entries, maker?_afterRegistrations, maker?_empty,
    or_iff_left (by simp)]

theorem fault?_afterRegistrations_eq_none :
    (empty.afterRegistrations rs).fault? = none ↔ ∀ r, IsLatest rs r → r.maker.isSound = true := by
  rw [fault?_eq, List.findSome?_eq_none_iff]
  simp only [entryFault?_eq_none, Prod.forall, mem_entries_afterRegistrations]
  constructor
  · intro h r hr
    exact h r.key.1 r.key.2 r.maker ⟨r, hr, rfl, rfl⟩
  · rintro h extension kind maker ⟨r, hr, _, rfl⟩
    exact h r hr

theorem fault?_afterRegistrations_eq_some {f : Fault} :
    (empty.afterRegistrations rs).fault? = some f ↔
      ∃ r, IsFirstBroken rs r ∧ entryFault? r.key.1 r.key.2 r.maker = some f := by
  have hdistinct : (empty.afterRegistrations rs).Distinct := Distinct.empty.afterRegistrations rs
  have hordered : (empty.afterRegistrations rs).entries.Pairwise fun a b => Before rs a.1 b.1 :=
    (OrderedBy.empty.afterRegistrations rs).pairwise_entries
  have hbroken {maker : Maker} {extension kind : Text} :
      entryFault? extension kind maker ≠ none ↔ maker.isSound = false := by
    rw [Ne, entryFault?_eq_none, Bool.not_eq_true]
  rw [fault?_eq, findSome?_eq_some_of_pairwise (fun _ _ => Before.asymm) hordered]
  constructor
  · rintro ⟨⟨key, maker⟩, hmem, hfault, hfirst⟩
    obtain ⟨r, hr, rfl, rfl⟩ := (mem_entries_afterRegistrations rs).1 hmem
    refine ⟨r, ⟨hr, hbroken.1 (Option.ne_none_iff_exists'.2 ⟨f, hfault⟩), fun q hq hq' => ?_⟩, hfault⟩
    have hentry := (mem_entries_afterRegistrations rs).2 ⟨q, hq, rfl, rfl⟩
    exact (hfirst _ hentry (hbroken.2 hq')).imp_left (congrArg Prod.fst)
  · rintro ⟨r, ⟨hr, _, hfirst⟩, hfault⟩
    have hentry := (mem_entries_afterRegistrations rs).2 ⟨r, hr, rfl, rfl⟩
    refine ⟨(r.key, r.maker), hentry, hfault, ?_⟩
    rintro ⟨key, maker⟩ hmem hne
    obtain ⟨q, hq, rfl, rfl⟩ := (mem_entries_afterRegistrations rs).1 hmem
    refine (hfirst q hq (hbroken.1 hne)).imp_left fun hkey => ?_
    -- a key has one entry
    rw [hdistinct.mem_entries] at hentry hmem
    rw [hkey] at hmem ⊢
    exact congrArg (Prod.mk r.key) (Option.some.inj (hmem.symm.trans hentry))

end

/-- **A table is checked for what would be found in it.** `fault?` gives no complaint exactly if the
    latest registration of every key makes a converter. A complaint is about the first key, in the
    order in which extensions and then the kinds of one extension were registered first, whose
    latest registration makes none (`IsFirstBroken`). Without a complaint every search gives a
    converter or says that there is none for the path or for the kind. -/
theorem registrations_health (rs : List Registration) :
    let t := empty.afterRegistrations rs
    (t.fault? = none ↔ ∀ r, IsLatest rs r → ∃ c, r.maker = .makes (.converter c)) ∧
      (∀ f, t.fault? = some f ↔ ∃ r, IsFirstBroken rs r ∧
        (r.maker = .inert ∧ f = .inertEntry r.key.1 r.key.2 ∨
          ∃ product, r.maker = .makes (.other product) ∧
            f = .noConverter r.key.1 r.key.2 product)) ∧
      (∀ extension kind, (Fault.inertEntry extension kind).message =
        "Factory for " ++ extension ++ " -> " ++ kind ++ " is not callable") ∧
      (∀ extension kind product, (Fault.noConverter extension kind product).message =
        "Factory for " ++ extension ++ " -> " ++ kind ++ " returned " ++ product ++
          ", not a Converter") ∧
      (t.fault? = none → ∀ path kind,
        (∃ c, t.make path kind = .ok (some (.converter c))) ∨
          t.make path kind = .error (.noConverters path) ∨
          t.make path kind = .error
            (.noConversion (extensionKey (Path.ofText path).suffix) (Text.lower kind))) := by
  intro t
  have hsound : t.fault? = none ↔ ∀ r, IsLatest rs r → ∃ c, r.maker = .makes (.converter c) := by
    simp only [t, fault?_afterRegistrations_eq_none, Maker.isSound_iff]
  refine ⟨hsound, fun f => ?_, fun _ _ => rfl, fun _ _ _ => rfl, fun hnone path kind => ?_⟩
  · simp only [t, fault?_afterRegistrations_eq_some, entryFault?_eq_some]
  · unfold make
    cases hfind : t.find path kind with
    | ok maker =>
      obtain ⟨_, hmaker⟩ := find_eq_ok_iff.1 hfind
      rw [maker?_afterRegistrations, maker?_empty, or_iff_left (by simp)] at hmaker
      obtain ⟨r, hr, _, rfl⟩ := hmaker
      obtain ⟨c, hc⟩ := hsound.1 hnone r hr
      exact .inl ⟨c, by rw [hc]⟩
    | error f =>
      rw [find_eq] at hfind
      dsimp only at hfind
      split at hfind
      · cases hfind
        exact .inr (.inl rfl)
      · split at hfind
        · cases hfind
          exact .inr (.inr rfl)
        · cases hfind

-- the second extension is complained about only once the first has no broken entry any more
example :
    let registered (e k : Text) (maker : Maker) : Registration := ⟨e, k, maker⟩
    let first := [registered "a" "x" .inert, registered "b" "x" (.makes (.other "object")),
      registered ".A" "y" (.makes (.other "NoneType")),
      registered "a" "X" (.makes (.converter .script))]
    (empty.afterRegistrations first).fault? = some (.noConverter "a" "y" "NoneType") ∧
      (empty.afterRegistrations (first ++ [registered "a" "Y" (.makes (.converter .script))])).fault? =
        some (.noConverter "b" "x" "object") := by
  decide

end ConverterTable
end Seashell
