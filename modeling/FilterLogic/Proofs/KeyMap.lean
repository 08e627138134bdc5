import FilterLogic.KeyMap
import FilterLogic.Proofs.Outcome
import Mathlib.Data.List.Perm.Basic
import Mathlib.Data.List.Sort

/-!
# What a map holds

A map is told by what it has under each key, since its entries stand in strictly ascending order.
After entries are written one by one, the last one under a key is what the map has there, so the
order in which entries with different keys are written makes no difference.
-/

namespace FilterLogic

namespace AscendingKeys

variable {α : Type u} {entries : List (String × α)} {key : String} {value : α}

/-- The key of the first entry is under no later one. -/
theorem find?_head (h : AscendingKeys ((key, value) :: entries)) : find? key entries = none := by
  obtain ⟨hhead, -⟩ := List.pairwise_cons.mp h
  induction entries with
  | nil => rfl
  | cons entry rest ih =>
      obtain ⟨k, v⟩ := entry
      have hlt : key < k := hhead (k, v) (by simp)
      have hne : k ≠ key := fun heq => String.lt_irrefl key (heq ▸ hlt)
      rw [find?, if_neg hne]
      refine ih ?_ fun e he => hhead e (by simp [he])
      obtain ⟨-, hrest⟩ := List.pairwise_cons.mp h
      exact List.pairwise_cons.mpr
        ⟨fun e he => hhead e (by simp [he]), (List.pairwise_cons.mp hrest).2⟩

/-- What is found under a key is the value of its entry. -/
theorem find?_eq_some_iff (h : AscendingKeys entries) :
    find? key entries = some value ↔ (key, value) ∈ entries := by
  induction entries with
  | nil => simp [find?]
  | cons entry rest ih =>
      obtain ⟨k, v⟩ := entry
      obtain ⟨hhead, hrest⟩ := List.pairwise_cons.mp h
      rw [find?, List.mem_cons]
      by_cases hk : k = key
      · subst hk
        have hnot : (k, value) ∉ rest := fun hmem => String.lt_irrefl k (hhead _ hmem)
        simp [hnot, eq_comm]
      · rw [if_neg hk, ih hrest]
        simp [Ne.symm hk]

/-- Entries with lesser keys than one entry come before it. -/
theorem mem_of_lt {before after : List (String × α)} {entry other : String × α}
    (h : AscendingKeys (before ++ entry :: after)) (hother : other ∈ before ++ entry :: after)
    (hlt : other.1 < entry.1) : other ∈ before := by
  rcases List.mem_append.mp hother with hother | hother
  · exact hother
  · obtain ⟨-, htail, -⟩ := List.pairwise_append.mp h
    rcases List.mem_cons.mp hother with rfl | hother
    · exact absurd hlt (String.lt_irrefl _)
    · exact absurd (String.lt_trans hlt ((List.pairwise_cons.mp htail).1 other hother))
        (String.lt_irrefl _)

/-- Ascending entries are told by their members. -/
theorem eq_of_mem_iff {entries' : List (String × α)} (h : AscendingKeys entries)
    (h' : AscendingKeys entries') (hmem : ∀ entry, entry ∈ entries ↔ entry ∈ entries') :
    entries = entries' := by
  have : Std.Irrefl fun a b : String × α => a.1 < b.1 := ⟨fun a => String.lt_irrefl a.1⟩
  have : Std.Antisymm fun a b : String × α => a.1 < b.1 :=
    ⟨fun a b hab hba => absurd (String.lt_trans hab hba) (String.lt_irrefl a.1)⟩
  exact List.Pairwise.eq_of_mem_iff h h' hmem

end AscendingKeys

/-- The value of the last entry under a key. -/
def lastUnder {α : Type u} (entries : List (String × α)) (key : String) : Option α :=
  entries.reverse.lookup key

section LastUnder

variable {α : Type u} {entries : List (String × α)} {key : String} {value : α}

theorem lastUnder_append (first last : List (String × α)) (key : String) :
    lastUnder (first ++ last) key = (lastUnder last key).or (lastUnder first key) := by
  rw [lastUnder, List.reverse_append, List.lookup_append]
  rfl

theorem lastUnder_cons (entry : String × α) (entries : List (String × α)) (key : String) :
    lastUnder (entry :: entries) key =
      (lastUnder entries key).or (if entry.1 = key then some entry.2 else none) := by
  rw [← List.singleton_append, lastUnder_append]
  congr 1
  rw [lastUnder, List.reverse_singleton, List.lookup_cons]
  by_cases h : entry.1 = key
  · rw [if_pos h, beq_iff_eq.mpr h.symm]
  · rw [if_neg h, beq_eq_false_iff_ne.mpr (Ne.symm h), List.lookup_nil]

theorem mem_of_lastUnder (h : lastUnder entries key = some value) : (key, value) ∈ entries := by
  obtain ⟨before, after, hentries, -⟩ := List.lookup_eq_some_iff.mp h
  rw [← List.mem_reverse, hentries]
  exact List.mem_append_right _ (List.mem_cons_self ..)

/-- There is a last entry under exactly the keys that have one. -/
theorem isSome_lastUnder : (lastUnder entries key).isSome = true ↔ key ∈ entries.map (·.1) := by
  rw [lastUnder, List.lookup_isSome_iff, List.mem_map]
  constructor
  · rintro ⟨entry, hentry, hkey⟩
    exact ⟨entry, List.mem_reverse.mp hentry, (beq_iff_eq.mp hkey).symm⟩
  · rintro ⟨entry, hentry, rfl⟩
    exact ⟨entry, List.mem_reverse.mpr hentry, beq_self_eq_true _⟩

/-- Where keys are distinct, every entry is the last one under its key. -/
theorem lastUnder_eq_some_iff (h : (entries.map (·.1)).Nodup) :
    lastUnder entries key = some value ↔ (key, value) ∈ entries := by
  induction entries with
  | nil => simp [lastUnder]
  | cons entry rest ih =>
      obtain ⟨k, v⟩ := entry
      obtain ⟨hhead, hrest⟩ := List.nodup_cons.mp h
      rw [lastUnder_cons, Option.or_eq_some_iff, List.mem_cons, ih hrest]
      by_cases hk : k = key
      · subst hk
        have hnone : lastUnder rest k = none :=
          Option.not_isSome_iff_eq_none.mp fun hsome => hhead (isSome_lastUnder.mp hsome)
        have hnot : (k, value) ∉ rest := fun hmem => hhead (List.mem_map.mpr ⟨_, hmem, rfl⟩)
        simp [hnone, hnot, eq_comm]
      · simp [hk, Ne.symm hk]

end LastUnder

namespace KeyMap

variable {α : Type u}

theorem get?_eq_some_iff {m : KeyMap α} {key : String} {value : α} :
    m.get? key = some value ↔ (key, value) ∈ m.entries :=
  m.ascending.find?_eq_some_iff

/-- A map is told by what it has under each key. -/
theorem ext_get? {m n : KeyMap α} (h : ∀ key, m.get? key = n.get? key) : m = n := by
  apply KeyMap.ext
  apply m.ascending.eq_of_mem_iff n.ascending
  rintro ⟨key, value⟩
  rw [← get?_eq_some_iff, ← get?_eq_some_iff, h key]

theorem ascending_keys (m : KeyMap α) : m.keys.Pairwise (· < ·) :=
  List.pairwise_map.mpr m.ascending

theorem nodup_keys (m : KeyMap α) : m.keys.Nodup :=
  List.nodup_iff_pairwise_ne.mpr (m.ascending_keys.imp String.ne_of_lt)

theorem mem_keys {m : KeyMap α} {key : String} : key ∈ m.keys ↔ m.contains key = true := by
  rw [contains, Option.isSome_iff_exists, keys, List.mem_map]
  simp [get?_eq_some_iff]

theorem isEmpty_iff {m : KeyMap α} : m.isEmpty = true ↔ ∀ key, key ∉ m.keys := by
  rw [isEmpty, List.isEmpty_iff, ← List.eq_nil_iff_forall_not_mem, keys, List.map_eq_nil_iff]

/-- Maps that contain the same keys list them alike, whatever they have under them. -/
theorem keys_eq_of_contains {β : Type v} {m : KeyMap α} {n : KeyMap β}
    (h : ∀ key, m.contains key = n.contains key) : m.keys = n.keys := by
  apply List.Pairwise.eq_of_mem_iff m.ascending_keys n.ascending_keys
  intro key
  rw [mem_keys, mem_keys, h key]

/-- Entries written one after the other leave the last one under each key. -/
theorem get?_foldl_insert (m : KeyMap α) (entries : List (String × α)) (key : String) :
    (entries.foldl (fun m entry => m.insert entry.1 entry.2) m).get? key =
      (lastUnder entries key).or (m.get? key) := by
  induction entries generalizing m with
  | nil => rfl
  | cons entry rest ih =>
      rw [List.foldl_cons, ih, get?_insert, lastUnder_cons, Option.or_assoc]
      congr 1
      by_cases h : entry.1 = key
      · simp [h]
      · simp [h]

theorem get?_ofList (entries : List (String × α)) (key : String) :
    (ofList entries).get? key = lastUnder entries key := by
  rw [ofList, get?_foldl_insert, get?_empty, Option.or_none]

theorem mem_keys_ofList {entries : List (String × α)} {key : String} :
    key ∈ (ofList entries).keys ↔ key ∈ entries.map (·.1) := by
  rw [mem_keys, contains, get?_ofList, isSome_lastUnder]

/-- Of written entries nothing is in the map that has not been written. -/
theorem mem_of_mem_ofList {entries : List (String × α)} {entry : String × α}
    (h : entry ∈ (ofList entries).entries) : entry ∈ entries := by
  have hget : (ofList entries).get? entry.1 = some entry.2 := get?_eq_some_iff.mpr h
  rw [get?_ofList] at hget
  exact mem_of_lastUnder hget

/-- Entries in strictly ascending order of key are written as they stand. -/
theorem ofList_entries (m : KeyMap α) : ofList m.entries = m := by
  apply ext_get?
  intro key
  rw [get?_ofList]
  apply Option.ext
  intro value
  rw [lastUnder_eq_some_iff m.nodup_keys, get?_eq_some_iff]

/-- The order in which entries with distinct keys are written makes no difference. -/
theorem ofList_of_perm {entries entries' : List (String × α)} (hperm : entries.Perm entries')
    (hkeys : (entries.map (·.1)).Nodup) : ofList entries = ofList entries' := by
  apply ext_get?
  intro key
  have hkeys' : (entries'.map (·.1)).Nodup := (hperm.map _).nodup_iff.mp hkeys
  rw [get?_ofList, get?_ofList]
  apply Option.ext
  intro value
  rw [lastUnder_eq_some_iff hkeys, lastUnder_eq_some_iff hkeys', hperm.mem_iff]

section Walks

variable {ε : Type w} {β : Type v} {step : String × α → Except ε β} {m : KeyMap α}

/-- A walk over a map fails at the least key whose step fails. -/
theorem mapM_eq_error {e : ε} : m.entries.mapM step = .error e ↔
    ∃ key value, m.get? key = some value ∧ step (key, value) = .error e ∧
      ∀ key' value', key' < key → m.get? key' = some value' →
        ∃ b, step (key', value') = .ok b := by
  have hasc := m.ascending
  rw [Outcome.mapM_eq_error]
  constructor
  · rintro ⟨before, ⟨key, value⟩, after, hentries, hbefore, he⟩
    have hmem : (key, value) ∈ m.entries := by simp [hentries]
    refine ⟨key, value, get?_eq_some_iff.mpr hmem, he, fun key' value' hlt hvalue' => ?_⟩
    have hmem' := get?_eq_some_iff.mp hvalue'
    rw [hentries] at hasc hmem'
    exact hbefore _ (hasc.mem_of_lt hmem' hlt)
  · rintro ⟨key, value, hvalue, he, hleast⟩
    obtain ⟨before, after, hentries⟩ := List.append_of_mem (get?_eq_some_iff.mp hvalue)
    refine ⟨before, (key, value), after, hentries, ?_, he⟩
    rintro ⟨key', value'⟩ hmem
    have hvalue' : m.get? key' = some value' := by
      apply get?_eq_some_iff.mpr
      rw [hentries]
      exact List.mem_append_left _ hmem
    rw [hentries] at hasc
    exact hleast key' value'
      ((List.pairwise_append.mp hasc).2.2 _ hmem _ (List.mem_cons_self ..)) hvalue'

/-- What a walk puts under keys is what its steps give there, if every result stands under the key
of its entry. -/
theorem lastUnder_of_mapM {γ : Type x} {keyed : β → String × γ} {results : List β}
    (h : m.entries.mapM step = .ok results)
    (hkept : ∀ entry b, step entry = .ok b → (keyed b).1 = entry.1) {key : String} {c : γ} :
    lastUnder (results.map keyed) key = some c ↔
      ∃ value b, m.get? key = some value ∧ step (key, value) = .ok b ∧ (keyed b).2 = c := by
  have hkeys : ((results.map keyed).map (·.1)).Nodup := by
    rw [List.map_map, show (fun e : String × γ => e.1) ∘ keyed = fun b => (keyed b).1 from rfl,
      Outcome.map_of_mapM h hkept]
    exact m.nodup_keys
  rw [lastUnder_eq_some_iff hkeys, List.mem_map]
  constructor
  · rintro ⟨b, hb, hkeyed⟩
    obtain ⟨⟨key', value⟩, hvalue, hstep⟩ := Outcome.exists_of_mem_mapM h hb
    obtain rfl : key = key' := (congrArg Prod.fst hkeyed).symm.trans (hkept _ _ hstep)
    exact ⟨value, b, get?_eq_some_iff.mpr hvalue, hstep, by rw [hkeyed]⟩
  · rintro ⟨value, b, hvalue, hstep, rfl⟩
    obtain ⟨b', hb', hstep'⟩ := Outcome.exists_of_mapM h (get?_eq_some_iff.mp hvalue)
    obtain rfl := Except.ok.inj (hstep.symm.trans hstep')
    exact ⟨b, hb', Prod.ext (hkept _ _ hstep) rfl⟩

end Walks

end KeyMap

end FilterLogic
