import FilterLogic.Proofs.Json.RoundTrip
import FilterLogic.Request.Raw

/-!
# Submitted requests are read back

A request can be submitted in several forms: as objects or as arrays, with fields that nobody looks
at, without values, with several filters for one key. It is written in one form only, and reading
that form gives the same request again, so that writing it once more changes nothing.

The written form nests values as deeply as every form that is read does. That is why a value that
was within the limit of nesting is so again.
-/

namespace FilterLogic

open Json Json.Source

namespace RawFilter

variable {room : Nat} {f : RawFilter}

/-- In both forms of a filter there is less room for its value by one. -/
theorem exists_fields_of_ofSource {s : Source} (h : ofSource room s = some f) :
    ∃ room' property operator value, room = room' + 1 ∧
      ofFields room' property operator value = some f := by
  unfold ofSource at h
  split at h
  · exact ⟨_, _, _, _, rfl, h⟩
  · exact ⟨_, _, _, _, rfl, h⟩
  · simp only [Option.bind_eq_bind, Option.bind_eq_some_iff] at h
    obtain ⟨members, -, property, -, operator, -, value, -, h⟩ := h
    exact ⟨_, property, operator, value, rfl, h⟩
  · cases h

/-- What is written for a filter with a canonical value is read as the filter. -/
theorem exists_source_of_canonical (h : f.value.Canonical room) :
    ∃ s, Reads f.toValue.compactChars s ∧ ofSource (room + 1) s = some f := by
  obtain ⟨s, hreads, hs⟩ := h.exists_source
  have hmembers : List.Forall₂ ReadsMember
      (Value.compactFields [("ref", .text f.property), ("operator", .text f.operator),
        ("value", f.value)])
      [(Piece.ofText "ref", .text (Piece.ofText f.property)),
        (Piece.ofText "operator", .text (Piece.ofText f.operator)), (Piece.ofText "value", s)] :=
    .cons ⟨_, _, rfl, rfl, .text _⟩ (.cons ⟨_, _, rfl, rfl, .text _⟩
      (.cons ⟨_, _, rfl, rfl, hreads⟩ .nil))
  refine ⟨_, .object hmembers, ?_⟩
  simp [ofSource, named?, exactlyOnce?, once?, ofFields, text?, hs]

/-- The value of a filter that is read is one that a text can denote, or there was none and it is
null. -/
theorem canonical_of_ofFields {property operator : Source} {value : Option Source}
    (h : ofFields room property operator value = some f) (hfree : f.value.DoubleFree) :
    f.value.Canonical room := by
  unfold ofFields at h
  simp only [Option.bind_eq_bind, Option.bind_eq_some_iff] at h
  obtain ⟨_, -, _, -, h⟩ := h
  cases value with
  | none =>
      cases h
      exact .null room
  | some source =>
      obtain ⟨v, hvalue, hf⟩ := Option.bind_eq_some_iff.mp h
      cases hf
      exact Value.canonical_of_ofSource hfree hvalue

/-- A filter that is read is read again from what is written for it, with the same room. -/
theorem exists_source {s : Source} (h : ofSource room s = some f) (hfree : f.value.DoubleFree) :
    ∃ s', Reads f.toValue.compactChars s' ∧ ofSource room s' = some f := by
  obtain ⟨room, property, operator, value, rfl, hfields⟩ := exists_fields_of_ofSource h
  exact exists_source_of_canonical (canonical_of_ofFields hfields hfree)

end RawFilter

namespace RawRequest

variable {room : Nat} {r : RawRequest}

/-- In both forms of a request the filters are an object, and there is less room for each of them by
two. -/
theorem exists_members_of_ofSource {s : Source} (h : ofSource room s = some r) :
    ∃ room' members filters, room = room' + 2 ∧ filtersOf room' members = some filters ∧
      r.filters = KeyMap.ofList filters := by
  obtain ⟨room, filters, combineWith, rfl, hfields⟩ : ∃ room' filters combineWith,
      room = room' + 1 ∧ ofFields room' filters combineWith = some r := by
    unfold ofSource at h
    split at h
    · exact ⟨_, _, _, rfl, h⟩
    · simp only [Option.bind_eq_bind, Option.bind_eq_some_iff] at h
      obtain ⟨members, -, filters, -, combineWith, -, h⟩ := h
      exact ⟨_, filters, combineWith, rfl, h⟩
    · cases h
  unfold ofFields at hfields
  split at hfields
  · simp only [Option.bind_eq_bind, Option.bind_eq_some_iff] at hfields
    obtain ⟨members, -, filters, hfilters, _, -, hr⟩ := hfields
    cases hr
    exact ⟨_, members, filters, rfl, hfilters, rfl⟩
  · cases hfields

theorem exists_source_of_filtersOf {members : List (String × Source)}
    {filters : List (String × RawFilter)} (h : filtersOf room members = some filters)
    {entry : String × RawFilter} (hentry : entry ∈ filters) :
    ∃ s, RawFilter.ofSource room s = some entry.2 := by
  induction members generalizing filters with
  | nil =>
      cases h
      cases hentry
  | cons member members ih =>
      obtain ⟨key, item⟩ := member
      simp only [filtersOf, Option.bind_eq_bind, Option.bind_eq_some_iff] at h
      obtain ⟨f, hf, rest, hrest, hfilters⟩ := h
      cases hfilters
      rcases List.mem_cons.mp hentry with rfl | hentry
      · exact ⟨item, hf⟩
      · exact ih hrest hentry

/-- Members denote the filters that each of them denotes, under its name. -/
theorem filtersOf_of_forall₂ {members : List (List Piece × Source)}
    {filters : List (String × RawFilter)}
    (h : List.Forall₂ (fun member entry => Piece.text? member.1 = some entry.1 ∧
      RawFilter.ofSource room member.2 = some entry.2) members filters) :
    ∃ named, named? members = some named ∧ filtersOf room named = some filters := by
  induction h with
  | nil => exact ⟨[], rfl, rfl⟩
  | @cons member entry _ _ hentry _ ih =>
      obtain ⟨named, hnamed, hfilters⟩ := ih
      refine ⟨(entry.1, member.2) :: named, ?_, ?_⟩
      · simp [named?, hentry.1, hnamed]
      · simp [filtersOf, hentry.2, hfilters]

/-- A request that is read is read again from what is written for it, with the same room. -/
theorem exists_source {s : Source} (h : ofSource room s = some r)
    (hfree : ∀ entry ∈ r.filters.entries, entry.2.value.DoubleFree) :
    ∃ s', Reads r.toValue.compactChars s' ∧ ofSource room s' = some r := by
  obtain ⟨room, members, filters, rfl, hfilters, hr⟩ := exists_members_of_ofSource h
  have hentries : ∀ entry ∈ r.filters.entries, ∃ s', Reads entry.2.toValue.compactChars s' ∧
      RawFilter.ofSource room s' = some entry.2 := by
    intro entry hentry
    have hmem : entry ∈ filters := KeyMap.mem_of_mem_ofList (hr ▸ hentry)
    obtain ⟨s', hs'⟩ := exists_source_of_filtersOf hfilters hmem
    exact RawFilter.exists_source hs' (hfree entry hentry)
  obtain ⟨written, hwritten, hdenoted⟩ := Value.exists_members RawFilter.toValue
    (D := fun s f => RawFilter.ofSource room s = some f) hentries
  obtain ⟨named, hnamed, hnames⟩ := filtersOf_of_forall₂ hdenoted
  have hmembers : List.Forall₂ ReadsMember
      (Value.compactFields [("filters", .object (r.filters.entries.map fun entry =>
        (entry.1, entry.2.toValue))), ("combineWith", .text r.combineWith)])
      [(Piece.ofText "filters", .object written),
        (Piece.ofText "combineWith", .text (Piece.ofText r.combineWith))] :=
    .cons ⟨_, _, rfl, rfl, .object hwritten⟩ (.cons ⟨_, _, rfl, rfl, .text _⟩ .nil)
  refine ⟨_, .object hmembers, ?_⟩
  simp [ofSource, named?, exactlyOnce?, once?, ofFields, text?, hnamed, hnames,
    KeyMap.ofList_entries]

/-- A request without doubles that is read in any of its forms is read again from the form in which
it is written, and it is written in the same way again. -/
theorem parse?_written {text : String} {r : RawRequest} (h : parse? text = some r)
    (hfree : ∀ entry ∈ r.filters.entries, entry.2.value.DoubleFree) :
    ∃ again, parse? r.toValue.compact = some again ∧ again = r ∧
      again.toValue.compact = r.toValue.compact := by
  obtain ⟨s, -, hs⟩ := Option.bind_eq_some_iff.mp h
  obtain ⟨s', hreads, hs'⟩ := exists_source hs hfree
  refine ⟨r, ?_, rfl, rfl⟩
  rw [parse?, Value.compact, Source.parse?, String.toList_ofList, hreads.ofChars?]
  exact hs'

/-- An array for the request, filters as an array and as an object with its fields in another order,
one field that nobody looks at, a value that is missing and a key that is given twice. -/
theorem parse?_written_mixed_forms :
    let text := "[\x7b\"b\":[\"n\",\"=\"],\"a\":[\"n\",\"<\",null]," ++
      "\"a\":\x7b\"x\":1.5,\"value\":[-7,true],\"operator\":\"in\",\"ref\":\"m\"\x7d\x7d,\"b\"]"
    ∃ r, parse? text = some r ∧
      r.toValue.compact = "\x7b\"filters\":\x7b" ++
        "\"a\":\x7b\"ref\":\"m\",\"operator\":\"in\",\"value\":[-7,true]\x7d," ++
        "\"b\":\x7b\"ref\":\"n\",\"operator\":\"=\",\"value\":null\x7d\x7d," ++
        "\"combineWith\":\"b\"\x7d" ∧
      ∃ again, parse? r.toValue.compact = some again ∧ again = r ∧
        again.toValue.compact = r.toValue.compact := by
  intro text
  have hwritten : (parse? text).map (fun r => r.toValue.compact) =
      some ("\x7b\"filters\":\x7b" ++
        "\"a\":\x7b\"ref\":\"m\",\"operator\":\"in\",\"value\":[-7,true]\x7d," ++
        "\"b\":\x7b\"ref\":\"n\",\"operator\":\"=\",\"value\":null\x7d\x7d," ++
        "\"combineWith\":\"b\"\x7d") := by
    decide +kernel
  have hfree : ∀ r ∈ parse? text, ∀ entry ∈ r.filters.entries, entry.2.value.DoubleFree := by
    decide +kernel
  obtain ⟨r, hr, hcompact⟩ := Option.map_eq_some_iff.mp hwritten
  exact ⟨r, hr, hcompact, parse?_written hr (hfree r hr)⟩

end RawRequest

end FilterLogic
