import FilterLogic.Proofs.Json.Literals
import FilterLogic.Proofs.Json.Reading
import Mathlib.Data.List.Forall2

/-!
# Values are read back from their text

The compact text of a value without doubles is read back as the value, if the value is one that a
text can denote: its integers fit words, its objects list their fields in ascending order, and its
nesting is within the limit. All values that are read from text are such values.

Reading goes in two stages, so a text is followed through both: what form it has, however much room
there is for the steps of the reading, and what that form denotes.
-/

namespace FilterLogic.Json

namespace Source

/-- Characters that are read as a source, wherever the text does not run on as a numeral. They begin
with neither white space nor a closing bracket. -/
structure Reads (cs : List Char) (s : Source) : Prop where
  begins : ∃ c rest, cs = c :: rest ∧ isSpace c = false ∧ c ≠ ']'
  reads {fuel : Nat} {rest : List Char} (hfuel : cs.length ≤ fuel + 1)
    (hrest : rest.head?.any continuesNumeral = false) :
    readValue (fuel + 1) (cs ++ rest) = some (s, rest)

/-- Characters that are read as a member of an object: a written name, a colon and a source. -/
def ReadsMember (part : List Char) (member : List Piece × Source) : Prop :=
  ∃ (name : String) (cs : List Char), part = quote name ++ ':' :: cs ∧
    member.1 = Piece.ofText name ∧ Reads cs member.2

theorem skipSpace_cons {c : Char} (hc : isSpace c = false) (rest : List Char) :
    skipSpace (c :: rest) = c :: rest := by
  rw [skipSpace, List.dropWhile_cons, hc]
  rfl

/-- A numeral begins with neither white space nor a closing bracket. -/
theorem not_isSpace_of_numeral {c : Char} (hc : c = '-' ∨ c.isDigit = true) :
    isSpace c = false ∧ c ≠ ']' := by
  constructor
  · by_contra hspace
    simp only [Bool.not_eq_false, isSpace, Bool.or_eq_true, beq_iff_eq] at hspace
    rcases hspace with ((rfl | rfl) | rfl) | rfl <;> exact absurd hc (by decide)
  · rintro rfl
    exact absurd hc (by decide)

/-- Where neither a literal nor a bracket begins, a numeral is read. -/
theorem readValue_numeral (fuel : Nat) {c : Char} (hc : c = '-' ∨ c.isDigit = true)
    (rest : List Char) : readValue (fuel + 1) (c :: rest) =
      (readNumeral (c :: rest)).map fun found => (.number found.1, found.2) := by
  rw [readValue, skipSpace_cons (not_isSpace_of_numeral hc).1]
  split
  case h_7 => cases readNumeral (c :: rest) <;> rfl
  -- the other forms begin with characters that are no digits
  all_goals
    rename_i heq
    cases heq
    exact absurd hc (by decide)

namespace Reads

variable {fuel : Nat} {rest : List Char}

theorem null : Reads "null".toList .null where
  begins := ⟨'n', _, rfl, rfl, by decide⟩
  reads _ _ := rfl

theorem bool (b : Bool) : Reads (Value.bool b).compactChars (.bool b) where
  begins := by cases b <;> exact ⟨_, _, rfl, rfl, by decide⟩
  reads _ _ := by cases b <;> rfl

theorem text (s : String) : Reads (quote s) (.text (Piece.ofText s)) where
  begins := ⟨'"', _, rfl, rfl, by decide⟩
  reads {fuel rest} _ _ := by
    have htext : quote s ++ rest = '"' :: (s.toList.flatMap escapeChar ++ '"' :: rest) := by
      simp [quote]
    rw [htext, readValue, skipSpace_cons rfl]
    simp [readPieces_quoted]

theorem integer (n : Int) : Reads (Number.integer n).render (.number (Source.integer n)) := by
  obtain ⟨c, cs, hrender, hc⟩ : ∃ c cs, (Number.integer n).render = c :: cs ∧
      (c = '-' ∨ c.isDigit = true) := by
    by_cases hneg : n < 0
    · exact ⟨'-', Nat.toDigits 10 n.natAbs, by simp [Number.render, hneg], .inl rfl⟩
    · obtain ⟨c, cs, hdigits⟩ := List.exists_cons_of_ne_nil (Nat.toDigits_ne_nil (n := n.natAbs))
      have hmem : c ∈ Nat.toDigits 10 n.natAbs := hdigits ▸ List.mem_cons_self
      have hc := Nat.isDigit_of_mem_toDigits (by decide) (by decide) hmem
      exact ⟨c, cs, by simp [Number.render, hneg, hdigits], .inr hc⟩
  refine ⟨⟨c, cs, hrender, not_isSpace_of_numeral hc⟩, fun {fuel rest} _ hrest => ?_⟩
  have hread := readNumeral_render n hrest
  rw [hrender, List.cons_append] at hread ⊢
  rw [readValue_numeral fuel hc, hread]
  rfl

/-- The fuel is enough if it is the length of what is read. -/
theorem readValue_append {cs : List Char} {s : Source} (h : Reads cs s) (hfuel : cs.length ≤ fuel)
    (hrest : rest.head?.any continuesNumeral = false) :
    readValue fuel (cs ++ rest) = some (s, rest) := by
  obtain ⟨c, cs', rfl, -⟩ := h.begins
  cases fuel with
  | zero => cases hfuel
  | succ fuel => exact h.reads hfuel hrest

/-- The last item of an array. -/
theorem readItems_last {part : List Char} {item : Source} (h : Reads part item)
    (hfuel : part.length ≤ fuel) :
    readItems (fuel + 1) (part ++ ']' :: rest) = some ([item], rest) := by
  rw [readItems, h.readValue_append hfuel rfl]
  simp [skipSpace_cons (c := ']') rfl]

/-- An item of an array before others. -/
theorem readItems_cons {part cs : List Char} {item : Source} {items : List Source}
    (h : Reads part item) (hfuel : part.length ≤ fuel)
    (hitems : readItems fuel cs = some (items, rest)) :
    readItems (fuel + 1) (part ++ ',' :: cs) = some (item :: items, rest) := by
  rw [readItems, h.readValue_append hfuel rfl]
  simp [skipSpace_cons (c := ',') rfl, hitems]

end Reads

namespace ReadsMember

variable {fuel : Nat} {part cs rest : List Char} {member : List Piece × Source}

/-- The last member of an object. -/
theorem readMembers_last (h : ReadsMember part member) (hfuel : part.length ≤ fuel) :
    readMembers (fuel + 1) (part ++ '}' :: rest) = some ([member], rest) := by
  obtain ⟨name, value, rfl, hname, hvalue⟩ := h
  have htext : quote name ++ ':' :: value ++ '}' :: rest =
      '"' :: (name.toList.flatMap escapeChar ++ '"' :: ':' :: (value ++ '}' :: rest)) := by
    simp [quote]
  have hread : readValue fuel (value ++ '}' :: rest) = some (member.2, '}' :: rest) :=
    hvalue.readValue_append (by simp at hfuel; omega) rfl
  rw [htext, readMembers, skipSpace_cons rfl]
  simp [readPieces_quoted, skipSpace_cons (c := ':') rfl, hread, skipSpace_cons (c := '}') rfl,
    ← hname]

/-- A member of an object before others. -/
theorem readMembers_cons {members : List (List Piece × Source)} (h : ReadsMember part member)
    (hfuel : part.length ≤ fuel) (hmembers : readMembers fuel cs = some (members, rest)) :
    readMembers (fuel + 1) (part ++ ',' :: cs) = some (member :: members, rest) := by
  obtain ⟨name, value, rfl, hname, hvalue⟩ := h
  have htext : quote name ++ ':' :: value ++ ',' :: cs =
      '"' :: (name.toList.flatMap escapeChar ++ '"' :: ':' :: (value ++ ',' :: cs)) := by
    simp [quote]
  have hread : readValue fuel (value ++ ',' :: cs) = some (member.2, ',' :: cs) :=
    hvalue.readValue_append (by simp at hfuel; omega) rfl
  rw [htext, readMembers, skipSpace_cons rfl]
  simp [readPieces_quoted, skipSpace_cons (c := ':') rfl, hread, skipSpace_cons (c := ',') rfl,
    hmembers, ← hname]

end ReadsMember

/-- Parts with commas between them are read up to the bracket that ends the list, if each part is
read before a comma and before that bracket. Every part takes one step of the reading. -/
theorem read_joinChars {α : Type} {R : List Char → α → Prop} {closing : Char}
    {read : Nat → List Char → Option (List α × List Char)}
    (hlast : ∀ {part a fuel rest}, R part a → part.length ≤ fuel →
      read (fuel + 1) (part ++ closing :: rest) = some ([a], rest))
    (hcons : ∀ {part a fuel cs as rest}, R part a → part.length ≤ fuel →
      read fuel cs = some (as, rest) → read (fuel + 1) (part ++ ',' :: cs) = some (a :: as, rest))
    {parts : List (List Char)} {as : List α} (h : List.Forall₂ R parts as) (hne : parts ≠ [])
    {fuel : Nat} (hfuel : (joinChars [','] parts).length < fuel) (rest : List Char) :
    read fuel (joinChars [','] parts ++ closing :: rest) = some (as, rest) := by
  induction h generalizing fuel with
  | nil => exact absurd rfl hne
  | @cons part a parts as hpart hparts ih =>
      obtain ⟨fuel, rfl⟩ := Nat.exists_eq_succ_of_ne_zero (Nat.ne_zero_of_lt hfuel)
      cases hparts with
      | nil => exact hlast hpart (Nat.le_of_lt_succ hfuel)
      | @cons next _ parts _ _ _ =>
          have htext : joinChars [','] (part :: next :: parts) ++ closing :: rest =
              part ++ ',' :: (joinChars [','] (next :: parts) ++ closing :: rest) := by
            simp [joinChars]
          have hlength : (joinChars [','] (part :: next :: parts)).length =
              part.length + 1 + (joinChars [','] (next :: parts)).length := by
            simp [joinChars, Nat.add_assoc, Nat.add_comm 1]
          rw [htext]
          exact hcons hpart (by omega) (ih (List.cons_ne_nil _ _) (by omega))

/-- A joined list begins with its first part. -/
theorem exists_joinChars (separator part : List Char) (parts : List (List Char)) :
    ∃ more, joinChars separator (part :: parts) = part ++ more := by
  cases parts with
  | nil => exact ⟨[], (List.append_nil part).symm⟩
  | cons next parts => exact ⟨_, List.append_assoc ..⟩

namespace Reads

variable {parts : List (List Char)}

/-- An array is read if its items are. -/
theorem array {items : List Source} (h : List.Forall₂ Reads parts items) :
    Reads ('[' :: joinChars [','] parts ++ [']']) (.array items) where
  begins := ⟨'[', _, rfl, rfl, by decide⟩
  reads {fuel rest} hfuel _ := by
    cases h with
    | nil => rfl
    | @cons part item parts items hpart hparts =>
        have hread : readItems fuel (joinChars [','] (part :: parts) ++ ']' :: rest) =
            some (item :: items, rest) :=
          read_joinChars readItems_last readItems_cons (.cons hpart hparts) (List.cons_ne_nil _ _)
            (by simp at hfuel; omega) rest
        -- the first item begins with a character that does not end the array
        obtain ⟨c, cs, rfl, hspace, hne⟩ := hpart.begins
        obtain ⟨more, hmore⟩ := exists_joinChars [','] (c :: cs) parts
        rw [hmore, List.append_assoc, List.cons_append] at hread
        rw [hmore, readValue, List.append_assoc, List.cons_append, skipSpace_cons rfl]
        simp [skipSpace_cons hspace, hne, hread]

/-- An object is read if its members are. -/
theorem object {members : List (List Piece × Source)} (h : List.Forall₂ ReadsMember parts members) :
    Reads ('{' :: joinChars [','] parts ++ ['}']) (.object members) where
  begins := ⟨'{', _, rfl, rfl, by decide⟩
  reads {fuel rest} hfuel _ := by
    cases h with
    | nil => rfl
    | @cons part member parts members hpart hparts =>
        have hread : readMembers fuel (joinChars [','] (part :: parts) ++ '}' :: rest) =
            some (member :: members, rest) :=
          read_joinChars ReadsMember.readMembers_last ReadsMember.readMembers_cons
            (.cons hpart hparts) (List.cons_ne_nil _ _) (by simp at hfuel; omega) rest
        obtain ⟨name, value, rfl, -⟩ := hpart
        obtain ⟨more, hmore⟩ := exists_joinChars [','] (quote name ++ ':' :: value) parts
        rw [hmore, quote] at hread
        simp only [List.append_assoc, List.cons_append, List.nil_append] at hread
        rw [hmore, quote, readValue, List.append_assoc, List.cons_append, skipSpace_cons rfl]
        simp [skipSpace_cons (c := '"') rfl, hread]

end Reads

/-- Characters that are read as a source are a text of that source. -/
theorem Reads.ofChars? {cs : List Char} {s : Source} (h : Reads cs s) : ofChars? cs = some s := by
  have hread : readValue (cs.length + 1) (cs ++ []) = some (s, []) :=
    h.reads (Nat.le_succ cs.length) rfl
  rw [List.append_nil] at hread
  rw [Source.ofChars?, hread]
  rfl

end Source

namespace Value

open Source (Reads ReadsMember)

/-- A value in which no double occurs. -/
inductive DoubleFree : Value → Prop
  | null : DoubleFree .null
  | bool (b : Bool) : DoubleFree (.bool b)
  | integer (n : Int) : DoubleFree (.number (.integer n))
  | text (s : String) : DoubleFree (.text s)
  | array {items} (h : ∀ item ∈ items, DoubleFree item) : DoubleFree (.array items)
  | object {fields} (h : ∀ field ∈ fields, DoubleFree field.2) : DoubleFree (.object fields)

mutual

/-- Looks for a double in a value. -/
def decideDoubleFree : (v : Value) → Decidable v.DoubleFree
  | .null => .isTrue .null
  | .bool b => .isTrue (.bool b)
  | .number (.integer n) => .isTrue (.integer n)
  | .number (.double _) => .isFalse nofun
  | .text s => .isTrue (.text s)
  | .array items =>
    have := decideDoubleFreeItems items
    decidable_of_iff (∀ item ∈ items, item.DoubleFree) ⟨.array, fun | .array h => h⟩
  | .object fields =>
    have := decideDoubleFreeFields fields
    decidable_of_iff (∀ field ∈ fields, field.2.DoubleFree) ⟨.object, fun | .object h => h⟩

/-- Looks for a double in the items of an array. -/
def decideDoubleFreeItems : (items : List Value) → Decidable (∀ item ∈ items, item.DoubleFree)
  | [] => .isTrue nofun
  | item :: items =>
    have := decideDoubleFree item
    have := decideDoubleFreeItems items
    decidable_of_iff (item.DoubleFree ∧ ∀ item ∈ items, item.DoubleFree) List.forall_mem_cons.symm

/-- Looks for a double in the fields of an object. -/
def decideDoubleFreeFields :
    (fields : List (String × Value)) → Decidable (∀ field ∈ fields, field.2.DoubleFree)
  | [] => .isTrue nofun
  | (name, value) :: fields =>
    have := decideDoubleFree value
    have := decideDoubleFreeFields fields
    decidable_of_iff (value.DoubleFree ∧ ∀ field ∈ fields, field.2.DoubleFree) (by simp)

end

instance : DecidablePred DoubleFree := decideDoubleFree

/-- A value that a text can denote without doubles, with room for nested arrays and objects. -/
inductive Canonical : Nat → Value → Prop
  | null (room) : Canonical room .null
  | bool (room b) : Canonical room (.bool b)
  | integer (room) {n} (h : IsWord n) : Canonical room (.number (.integer n))
  | text (room s) : Canonical room (.text s)
  | array {room items} (h : ∀ item ∈ items, Canonical room item) :
      Canonical (room + 1) (.array items)
  | object {room fields} (hkeys : AscendingKeys fields)
      (h : ∀ field ∈ fields, Canonical room field.2) : Canonical (room + 1) (.object fields)

section Sources

variable {room : Nat}

/-- Items denote what each of them denotes. -/
theorem ofItems_of_forall₂ {sources : List Source} {items : List Value}
    (h : List.Forall₂ (fun source item => ofSource room source = some item) sources items) :
    ofItems room sources = some items := by
  induction h with
  | nil => rfl
  | cons hitem _ ih => simp [ofItems, hitem, ih]

/-- Members denote what each of them denotes, under its name. -/
theorem ofMembers_of_forall₂ {members : List (List Piece × Source)} {fields : List (String × Value)}
    (h : List.Forall₂ (fun member field => Piece.text? member.1 = some field.1 ∧
      ofSource room member.2 = some field.2) members fields) :
    ofMembers room members = some fields := by
  induction h with
  | nil => rfl
  | cons hfield _ ih => simp [ofMembers, hfield, ih]

theorem exists_items {D : Source → Value → Prop} {items : List Value}
    (h : ∀ item ∈ items, ∃ s, Reads item.compactChars s ∧ D s item) :
    ∃ sources, List.Forall₂ Reads (compactItems items) sources ∧
      List.Forall₂ D sources items := by
  induction items with
  | nil => exact ⟨[], .nil, .nil⟩
  | cons item items ih =>
      obtain ⟨⟨s, hreads, hitem⟩, hitems⟩ := List.forall_mem_cons.mp h
      obtain ⟨sources, hsources, hrest⟩ := ih hitems
      exact ⟨s :: sources, .cons hreads hsources, .cons hitem hrest⟩

/-- If each of several values is read from what is written for it, so are the members of an object
that holds them. -/
theorem exists_members {α : Type} (write : α → Value) {D : Source → α → Prop}
    {fields : List (String × α)}
    (h : ∀ field ∈ fields, ∃ s, Reads (write field.2).compactChars s ∧ D s field.2) :
    ∃ members, List.Forall₂ ReadsMember
        (compactFields (fields.map fun field => (field.1, write field.2))) members ∧
      List.Forall₂ (fun member field => Piece.text? member.1 = some field.1 ∧ D member.2 field.2)
        members fields := by
  induction fields with
  | nil => exact ⟨[], .nil, .nil⟩
  | cons field fields ih =>
      obtain ⟨⟨s, hreads, hfield⟩, hfields⟩ := List.forall_mem_cons.mp h
      obtain ⟨members, hmembers, hrest⟩ := ih hfields
      have hmember : ReadsMember (quote field.1 ++ ':' :: (write field.2).compactChars)
          (Piece.ofText field.1, s) := ⟨field.1, _, rfl, rfl, hreads⟩
      exact ⟨_ :: members, .cons hmember hmembers,
        .cons ⟨Piece.text?_ofText field.1, hfield⟩ hrest⟩

/-- What is written for a canonical value is read as a source that denotes the value. -/
theorem Canonical.exists_source {v : Value} (h : Canonical room v) :
    ∃ s, Reads v.compactChars s ∧ ofSource room s = some v := by
  induction h with
  | null => exact ⟨_, .null, rfl⟩
  | bool room b => exact ⟨_, .bool b, rfl⟩
  | @integer room n hn =>
      refine ⟨_, .integer n, ?_⟩
      rw [ofSource, value?_integer hn, Option.map_some]
  | text room s =>
      refine ⟨_, .text s, ?_⟩
      rw [ofSource, Piece.text?_ofText, Option.map_some]
  | array _ ih =>
      obtain ⟨sources, hreads, hsources⟩ := exists_items ih
      refine ⟨_, .array hreads, ?_⟩
      rw [ofSource, ofItems_of_forall₂ hsources, Option.map_some]
  | @object room fields hkeys _ ih =>
      obtain ⟨members, hreads, hmembers⟩ :=
        exists_members id (D := fun s v => ofSource room s = some v) ih
      have hfields : (KeyMap.ofList fields).entries = fields :=
        congrArg KeyMap.entries (KeyMap.ofList_entries ⟨fields, hkeys⟩)
      refine ⟨_, .object (by simpa using hreads), ?_⟩
      rw [ofSource, ofMembers_of_forall₂ hmembers, Option.map_some, hfields]

/-- A canonical value is read back from its compact text. -/
theorem parse?_compact {v : Value} (h : Canonical depthLimit v) : parse? v.compact = some v := by
  obtain ⟨s, hreads, hs⟩ := h.exists_source
  rw [parse?, compact, Source.parse?, String.toList_ofList, hreads.ofChars?]
  exact hs

end Sources

/-- The values of items are those that their sources denote. -/
theorem exists_source_of_ofItems {room : Nat} {sources : List Source} {items : List Value}
    (h : ofItems room sources = some items) {item : Value} (hitem : item ∈ items) :
    ∃ source, ofSource room source = some item := by
  induction sources generalizing items with
  | nil =>
      cases h
      cases hitem
  | cons source sources ih =>
      simp only [ofItems, Option.bind_eq_bind, Option.bind_eq_some_iff] at h
      obtain ⟨first, hfirst, rest, hrest, hitems⟩ := h
      cases hitems
      rcases List.mem_cons.mp hitem with rfl | hitem
      · exact ⟨source, hfirst⟩
      · exact ih hrest hitem

/-- An array has the items that are written in it. -/
theorem exists_items_of_ofSource {room : Nat} {source : Source} {items : List Value}
    (h : ofSource room source = some (.array items)) :
    ∃ room' sources, room = room' + 1 ∧ ofItems room' sources = some items := by
  cases source with
  | array sources =>
      cases room with
      | zero => cases h
      | succ room' =>
          obtain ⟨written, hwritten, hitems⟩ := Option.map_eq_some_iff.mp h
          cases hitems
          exact ⟨room', sources, rfl, hwritten⟩
  | null => cases h
  | bool b => cases h
  | number numeral => simp [ofSource] at h
  | text pieces => simp [ofSource] at h
  | object members => cases room <;> simp [ofSource] at h

/-- What a text denotes is canonical, unless it has doubles. -/
theorem canonical_of_ofSource {v : Value} (hfree : v.DoubleFree) {room : Nat} {source : Source}
    (h : ofSource room source = some v) : Canonical room v := by
  induction hfree generalizing room source with
  | null => exact .null room
  | bool b => exact .bool room b
  | integer n =>
      have hreadable := readable_of_ofSource h
      exact .integer room hreadable
  | text s => exact .text room s
  | array _ ih =>
      obtain ⟨room, sources, rfl, hitems⟩ := exists_items_of_ofSource h
      refine .array fun item hitem => ?_
      obtain ⟨source, hsource⟩ := exists_source_of_ofItems hitems hitem
      exact ih item hitem hsource
  | object _ ih =>
      obtain ⟨room, members, written, rfl, hwritten, rfl⟩ := exists_members_of_ofSource h
      refine .object (KeyMap.ofList written).ascending fun field hfield => ?_
      obtain ⟨source, hsource⟩ := exists_source_of_ofMembers hwritten
        (KeyMap.mem_of_mem_ofList hfield)
      exact ih field hfield hsource

end Value

end FilterLogic.Json
