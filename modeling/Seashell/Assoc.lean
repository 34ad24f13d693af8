set_option autoImplicit false

/-! # Entries in order of arrival

Association lists that keep the order in which their keys came first, as a table has it into which
entries are put one after the other. `Assoc.put` replaces the value of a key where it stands, so
that a key keeps its place however often it is put; core's `List.lookup` reads the lists.

What a table needs to know of them is said by `lookup_put` (what is found after an entry was put)
and by `nodup_keys_put` (keys stay distinct). Under distinct keys, to be found and to be among the
entries is the same (`mem_of_lookup`, `lookup_of_mem`). File trees, tables of converters, pools of
trackers and the records of documents are all kept in this way. -/

namespace Seashell.Assoc

variable {α β : Type} [BEq α]

/-- Puts `value` under `key`: in place if the key is there, at the end otherwise. -/
def put (key : α) (value : β) : List (α × β) → List (α × β)
  | [] => [(key, value)]
  | (k, v) :: rest => if k == key then (k, value) :: rest else (k, v) :: put key value rest

variable [LawfulBEq α]

/-- `put` adds no key but the one put. -/
theorem mem_keys_put {key a : α} {value : β} {entries : List (α × β)} :
    a ∈ (put key value entries).map (·.1) ↔ a = key ∨ a ∈ entries.map (·.1) := by
  induction entries with
  | nil => simp [put]
  | cons e rest ih =>
    by_cases hk : e.1 = key
    · simp [put, hk]
    · rw [put, if_neg (by simpa using hk), List.map_cons, List.mem_cons, ih, List.map_cons,
        List.mem_cons]
      exact or_left_comm

/-- Keys stay distinct under `put`. -/
theorem nodup_keys_put (key : α) (value : β) {entries : List (α × β)}
    (h : (entries.map (·.1)).Nodup) : ((put key value entries).map (·.1)).Nodup := by
  induction entries with
  | nil => simp [put]
  | cons e rest ih =>
    rw [List.map_cons, List.nodup_cons] at h
    by_cases hk : e.1 = key
    · rw [put, if_pos (by simpa using hk), List.map_cons, List.nodup_cons]
      exact h
    · rw [put, if_neg (by simpa using hk), List.map_cons, List.nodup_cons]
      exact ⟨fun hm => (mem_keys_put.mp hm).elim hk h.1, ih h.2⟩

/-- What `put` has put is found under its key, and nothing else changes. -/
@[simp] theorem lookup_put (key other : α) (value : β) (entries : List (α × β)) :
    (put key value entries).lookup other =
      if other == key then some value else entries.lookup other := by
  induction entries with
  | nil => cases h : other == key <;> simp [put, List.lookup_cons, h]
  | cons e rest ih =>
    obtain ⟨k, v⟩ := e
    by_cases hk : k = key
    · subst hk
      cases h : other == k <;> simp [put, List.lookup_cons, h]
    · rw [put, if_neg (by simpa using hk), List.lookup_cons, List.lookup_cons, ih]
      cases ho : other == k with
      | false => rfl
      | true =>
        have : (other == key) = false := by simpa [eq_of_beq ho] using hk
        simp [this]

/-- `put` adds no entry but the one put. -/
theorem mem_put {key : α} {value : β} {e : α × β} {entries : List (α × β)}
    (h : e ∈ put key value entries) : e = (key, value) ∨ e ∈ entries := by
  induction entries with
  | nil => exact .inl (List.mem_singleton.1 h)
  | cons first rest ih =>
    by_cases hk : first.1 = key
    · rw [put, if_pos (by simpa using hk), hk] at h
      rcases List.mem_cons.1 h with h | h
      · exact .inl h
      · exact .inr (List.mem_cons_of_mem _ h)
    · rw [put, if_neg (by simpa using hk)] at h
      rcases List.mem_cons.1 h with h | h
      · exact .inr (h ▸ List.mem_cons_self)
      · exact (ih h).imp_right (List.mem_cons_of_mem _)

/-- What `List.lookup` finds under a key is among the entries. -/
theorem mem_of_lookup {key : α} {value : β} {entries : List (α × β)}
    (h : entries.lookup key = some value) : (key, value) ∈ entries := by
  obtain ⟨before, after, rfl, _⟩ := List.lookup_eq_some_iff.1 h
  simp

/-- What is among entries of distinct keys is found by `List.lookup`. -/
theorem lookup_of_mem {key : α} {value : β} {entries : List (α × β)}
    (hdistinct : (entries.map (·.1)).Nodup) (h : (key, value) ∈ entries) :
    entries.lookup key = some value := by
  obtain ⟨before, after, rfl⟩ := List.append_of_mem h
  refine List.lookup_eq_some_iff.2 ⟨before, after, rfl, fun e he => ?_⟩
  -- the key of an entry before it is another one
  rw [List.map_append, List.nodup_append] at hdistinct
  have := hdistinct.2.2 e.1 (List.mem_map_of_mem he) key (by simp)
  simpa using this.symm

end Seashell.Assoc
