import FilterLogic.Proofs.Json.Order
import FilterLogic.Proofs.KeyMap

/-!
# Values read from text

The integers that a text denotes fit words, so every record that is read has fields that can be
compared as the operands of its type can.
-/

namespace FilterLogic.Json

theorem gather_lt {word : Nat} (h : word < wordLimit) (digits : List Nat) :
    (gather word digits).1 < wordLimit := by
  induction digits generalizing word with
  | nil => exact h
  | cons d rest ih =>
      rw [gather]
      split_ifs with hfits
      · exact ih hfits
      · exact h

/-- An integer that a numeral denotes fits a word. -/
theorem Numeral.isWord_of_value? {numeral : Numeral} {n : Int}
    (h : numeral.value? = some (.integer n)) : IsWord n := by
  have hnever (x : Option Binary64) : x.map Number.double ≠ some (.integer n) := by
    cases x <;> simp
  have hword : (gather 0 numeral.whole).1 < wordLimit := gather_lt (by decide) _
  rw [value?] at h
  split at h
  · split at h
    · next word hgather =>
      rw [hgather] at hword
      split_ifs at h with hpositive hnegative
      · cases h
        rw [wordLimit, Nat.pow_eq] at hword
        constructor <;> omega
      · cases h
        simp only [Bool.and_eq_true, decide_eq_true_eq, Nat.pow_eq] at hnegative
        constructor <;> omega
      · exact absurd h (hnever _)
    · exact absurd h (hnever _)
  · exact absurd h (hnever _)

namespace Value

/-- Only a numeral denotes a number. -/
theorem exists_numeral_of_ofSource {room : Nat} {source : Source} {number : Number}
    (h : ofSource room source = some (.number number)) :
    ∃ numeral : Numeral, numeral.value? = some number := by
  cases source with
  | number numeral =>
      obtain ⟨_, hnumber, hvalue⟩ := Option.map_eq_some_iff.mp h
      cases hvalue
      exact ⟨numeral, hnumber⟩
  | null => cases h
  | bool b => cases h
  | text pieces => simp [ofSource] at h
  | array items => cases room <;> simp [ofSource] at h
  | object members => cases room <;> simp [ofSource] at h

theorem readable_of_ofSource {room : Nat} {source : Source} {v : Value}
    (h : ofSource room source = some v) : v.Readable := by
  cases v with
  | number number =>
      obtain ⟨numeral, hnumber⟩ := exists_numeral_of_ofSource h
      cases number with
      | integer n => exact Numeral.isWord_of_value? hnumber
      | double x => trivial
  | _ => trivial

/-- The values of members are those that their sources denote. -/
theorem exists_source_of_ofMembers {room : Nat} {members : List (List Piece × Source)}
    {fields : List (String × Value)} (h : ofMembers room members = some fields)
    {field : String × Value} (hfield : field ∈ fields) :
    ∃ source, ofSource room source = some field.2 := by
  induction members generalizing fields with
  | nil =>
      cases h
      cases hfield
  | cons member members ih =>
      obtain ⟨pieces, source⟩ := member
      simp only [ofMembers, Option.bind_eq_bind, Option.bind_eq_some_iff] at h
      obtain ⟨name, -, value, hvalue, rest, hrest, hfields⟩ := h
      cases hfields
      rcases List.mem_cons.mp hfield with rfl | hfield
      · exact ⟨source, hvalue⟩
      · exact ih hrest hfield

/-- An object has the fields of its members, the last one under each name. -/
theorem exists_members_of_ofSource {room : Nat} {source : Source}
    {fields : List (String × Value)} (h : ofSource room source = some (.object fields)) :
    ∃ room' members written, room = room' + 1 ∧ ofMembers room' members = some written ∧
      fields = (KeyMap.ofList written).entries := by
  cases source with
  | object members =>
      cases room with
      | zero => cases h
      | succ room' =>
          obtain ⟨written, hwritten, hfields⟩ := Option.map_eq_some_iff.mp h
          cases hfields
          exact ⟨room', members, written, rfl, hwritten, rfl⟩
  | null => cases h
  | bool b => cases h
  | number numeral => simp [ofSource] at h
  | text pieces => simp [ofSource] at h
  | array items => cases room <;> simp [ofSource] at h

/-- The fields of a record hold no integers beyond the words. -/
def ReadableFields (record : Value) : Prop :=
  ∀ name x, record.field? name = some x → x.Readable

/-- Every record that is read from text has readable fields. -/
theorem readableFields_of_parse? {text : String} {record : Value}
    (h : parse? text = some record) : record.ReadableFields := by
  intro name x hx
  obtain ⟨source, -, h⟩ := Option.bind_eq_some_iff.mp h
  cases record with
  | object fields =>
      obtain ⟨room, members, written, -, hwritten, rfl⟩ := exists_members_of_ofSource h
      have hget : (KeyMap.ofList written).get? name = some x := hx
      rw [KeyMap.get?_ofList] at hget
      obtain ⟨source, hsource⟩ := exists_source_of_ofMembers hwritten (mem_of_lastUnder hget)
      exact readable_of_ofSource hsource
  | _ => cases hx

end Value

end FilterLogic.Json
