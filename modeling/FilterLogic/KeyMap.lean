/-!
# Maps keyed by text

A `KeyMap` is a list of entries in strictly ascending order of key, where text is ordered by code
point. Strictness makes the keys distinct, so a map is determined by what it looks up, and every
walk over a map visits the keys in ascending order. Writing a key that is already present replaces
its value: of several entries for one key the last one wins.
-/

namespace FilterLogic

/-- Entries in strictly ascending order of key. -/
def AscendingKeys {α : Type u} (entries : List (String × α)) : Prop :=
  entries.Pairwise fun a b => a.1 < b.1

namespace AscendingKeys

/-- Puts a value under a key, before the first greater key and in place of an equal one. -/
def insert {α : Type u} (key : String) (value : α) : List (String × α) → List (String × α)
  | [] => [(key, value)]
  | (k, v) :: rest =>
    if key < k then (key, value) :: (k, v) :: rest
    else if k < key then (k, v) :: insert key value rest
    else (key, value) :: rest

/-- The value under a key. -/
def find? {α : Type u} (key : String) : List (String × α) → Option α
  | [] => none
  | (k, v) :: rest => if k = key then some v else find? key rest

theorem mem_insert {α : Type u} {key : String} {value : α} {entries : List (String × α)}
    {e : String × α} (h : e ∈ insert key value entries) : e = (key, value) ∨ e ∈ entries := by
  induction entries with
  | nil => simpa [insert] using h
  | cons head rest ih =>
    obtain ⟨k, v⟩ := head
    simp only [insert] at h
    split at h
    · simpa using h
    · split at h
      · rcases List.mem_cons.1 h with h | h
        · exact .inr (by simp [h])
        · rcases ih h with h | h
          · exact .inl h
          · exact .inr (by simp [h])
      · rcases List.mem_cons.1 h with h | h
        · exact .inl h
        · exact .inr (by simp [h])

theorem of_insert {α : Type u} {entries : List (String × α)} (h : AscendingKeys entries)
    (key : String) (value : α) : AscendingKeys (insert key value entries) := by
  induction entries with
  | nil => simp [insert, AscendingKeys]
  | cons head rest ih =>
    obtain ⟨k, v⟩ := head
    obtain ⟨hhead, hrest⟩ := List.pairwise_cons.1 h
    simp only [insert]
    split
    · next hlt =>
      refine List.pairwise_cons.2 ⟨fun e he => ?_, h⟩
      rcases List.mem_cons.1 he with rfl | he
      · exact hlt
      · exact String.lt_trans hlt (hhead e he)
    · next hnlt =>
      split
      · next hgt =>
        refine List.pairwise_cons.2 ⟨fun e he => ?_, ih hrest⟩
        rcases mem_insert he with rfl | he
        · exact hgt
        · exact hhead e he
      · next hngt =>
        have hkey : key = k :=
          String.le_antisymm (String.not_lt.1 hngt) (String.not_lt.1 hnlt)
        subst hkey
        exact List.pairwise_cons.2 ⟨hhead, hrest⟩

theorem find?_insert {α : Type u} {entries : List (String × α)} (h : AscendingKeys entries)
    (key : String) (value : α) (k : String) :
    find? k (insert key value entries) = if key = k then some value else find? k entries := by
  induction entries with
  | nil => simp [insert, find?]
  | cons head rest ih =>
    obtain ⟨k', v⟩ := head
    obtain ⟨hhead, hrest⟩ := List.pairwise_cons.1 h
    simp only [insert]
    split
    · simp [find?]
    · next hnlt =>
      split
      · next hgt =>
        have hne : k' ≠ key := fun he => String.lt_irrefl key (he ▸ hgt)
        simp only [find?, ih hrest]
        by_cases hk : k' = k
        · subst hk
          simp [Ne.symm hne]
        · simp [hk]
      · next hngt =>
        have hkey : key = k' :=
          String.le_antisymm (String.not_lt.1 hngt) (String.not_lt.1 hnlt)
        subst hkey
        simp only [find?]
        split <;> rfl

end AscendingKeys

/-- A map from text to values, listed in ascending order of key. -/
structure KeyMap (α : Type u) where
  entries : List (String × α)
  ascending : AscendingKeys entries

namespace KeyMap

variable {α : Type u} {β : Type v}

/-- The map without entries. -/
def empty : KeyMap α := ⟨[], List.Pairwise.nil⟩

instance : Inhabited (KeyMap α) := ⟨empty⟩

/-- Writes a value under a key. -/
def insert (m : KeyMap α) (key : String) (value : α) : KeyMap α :=
  ⟨AscendingKeys.insert key value m.entries, m.ascending.of_insert key value⟩

/-- The value under a key. -/
def get? (m : KeyMap α) (key : String) : Option α := AscendingKeys.find? key m.entries

/-- Whether a key is present. -/
def contains (m : KeyMap α) (key : String) : Bool := (m.get? key).isSome

/-- The keys in ascending order. -/
def keys (m : KeyMap α) : List String := m.entries.map (·.1)

/-- The values in ascending order of their keys. -/
def values (m : KeyMap α) : List α := m.entries.map (·.2)

/-- The number of keys. -/
def size (m : KeyMap α) : Nat := m.entries.length

/-- Whether the map has no key. -/
def isEmpty (m : KeyMap α) : Bool := m.entries.isEmpty

/-- The map written entry by entry, so that the last entry for a key wins. -/
def ofList (entries : List (String × α)) : KeyMap α :=
  entries.foldl (fun m e => m.insert e.1 e.2) empty

@[ext] theorem ext {m n : KeyMap α} (h : m.entries = n.entries) : m = n := by
  cases m; cases n; cases h; rfl

@[simp] theorem get?_empty (key : String) : (empty : KeyMap α).get? key = none := rfl

theorem get?_insert (m : KeyMap α) (key : String) (value : α) (k : String) :
    (m.insert key value).get? k = if key = k then some value else m.get? k :=
  m.ascending.find?_insert key value k

@[simp] theorem get?_insert_self (m : KeyMap α) (key : String) (value : α) :
    (m.insert key value).get? key = some value := by
  simp [get?_insert]

end KeyMap

end FilterLogic
