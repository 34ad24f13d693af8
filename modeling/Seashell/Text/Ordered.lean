import Seashell.Text.Basic

set_option autoImplicit false

/-! # Sets and maps of texts

A finite set of texts is kept as its members in ascending order (`TextSet`), and a finite map as its
entries in ascending order of the keys (`TextMap`). So equal sets and equal maps are equal as data,
and both are ready to be written. Both carry the proof of their order, and `insert` keeps it: a new
member or entry is put in its place (`place`), where `pairwise_place` says that the order stays
strict. -/

namespace Seashell

/-! ## Sets -/

/-- A finite set of texts: its members in ascending order. -/
structure TextSet where
  toList : List Text
  ascending : toList.Pairwise (· < ·)
deriving DecidableEq

namespace TextSet

/-- The set without members. -/
def empty : TextSet := ⟨[], .nil⟩

/-- Puts `t` in its place among texts in ascending order. -/
def place (t : Text) : List Text → List Text
  | [] => [t]
  | u :: us => if t < u then t :: u :: us else if t = u then u :: us else u :: place t us

theorem mem_place {t x : Text} {us : List Text} : x ∈ place t us ↔ x = t ∨ x ∈ us := by
  induction us with
  | nil => simp [place]
  | cons u us ih => grind [place]

theorem pairwise_place {t : Text} {us : List Text} (h : us.Pairwise (· < ·)) :
    (place t us).Pairwise (· < ·) := by
  induction us with
  | nil => simp [place]
  | cons u us ih =>
    obtain ⟨hu, hus⟩ := List.pairwise_cons.1 h
    rw [place]
    split
    · rename_i htu
      refine List.pairwise_cons.2 ⟨fun x hx => ?_, h⟩
      rcases List.mem_cons.1 hx with rfl | hx
      · exact htu
      · exact List.lt_trans htu (hu x hx)
    · split
      · exact h
      · rename_i hlt hne
        refine List.pairwise_cons.2 ⟨fun x hx => ?_, ih hus⟩
        rcases mem_place.1 hx with rfl | hx
        · exact Std.lt_of_le_of_ne (Std.not_lt.1 hlt) (Ne.symm hne)
        · exact hu x hx

/-- The set with one more member, by `place`. -/
def insert (s : TextSet) (t : Text) : TextSet := ⟨place t s.toList, pairwise_place s.ascending⟩

/-- The set of the members of the list `ts`. -/
def ofList (ts : List Text) : TextSet := ts.foldl insert empty

end TextSet

/-! ## Maps -/

/-- A finite map from texts: its entries in ascending order of the keys. -/
structure TextMap (α : Type) where
  entries : List (Text × α)
  ascending : entries.Pairwise (·.1 < ·.1)
deriving DecidableEq

namespace TextMap

variable {α : Type}

/-- The map without entries. -/
def empty : TextMap α := ⟨[], .nil⟩

/-- The value under `key`. -/
def get? (m : TextMap α) (key : Text) : Option α := m.entries.lookup key

/-- Puts `value` under `key` in its place among entries in ascending order; an entry of the same key
    is replaced. -/
def place (key : Text) (value : α) : List (Text × α) → List (Text × α)
  | [] => [(key, value)]
  | e :: es =>
    if key < e.1 then (key, value) :: e :: es
    else if key = e.1 then (key, value) :: es
    else e :: place key value es

theorem key_of_mem_place {key : Text} {value : α} {x : Text × α} {es : List (Text × α)}
    (h : x ∈ place key value es) : x.1 = key ∨ x ∈ es := by
  induction es with
  | nil => simp_all [place]
  | cons e es ih => grind [place]

theorem pairwise_place {key : Text} {value : α} {es : List (Text × α)}
    (h : es.Pairwise (·.1 < ·.1)) : (place key value es).Pairwise (·.1 < ·.1) := by
  induction es with
  | nil => simp [place]
  | cons e es ih =>
    obtain ⟨he, hes⟩ := List.pairwise_cons.1 h
    rw [place]
    split
    · rename_i hlt
      refine List.pairwise_cons.2 ⟨fun x hx => ?_, h⟩
      rcases List.mem_cons.1 hx with rfl | hx
      · exact hlt
      · exact List.lt_trans hlt (he x hx)
    · split
      · rename_i heq
        exact List.pairwise_cons.2 ⟨fun x hx => heq ▸ he x hx, hes⟩
      · rename_i hlt hne
        refine List.pairwise_cons.2 ⟨fun x hx => ?_, ih hes⟩
        rcases key_of_mem_place hx with hk | hx
        · exact hk ▸ Std.lt_of_le_of_ne (Std.not_lt.1 hlt) (Ne.symm hne)
        · exact he x hx

/-- The map with `value` put under `key`, by `place`. -/
def insert (m : TextMap α) (key : Text) (value : α) : TextMap α :=
  ⟨place key value m.entries, pairwise_place m.ascending⟩

end TextMap
end Seashell
