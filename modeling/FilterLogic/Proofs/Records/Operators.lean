import FilterLogic.Proofs.Json.Order
import FilterLogic.Proofs.Records.Fields
import FilterLogic.Proofs.Resolution.Operands

/-!
# How the operators hang together

Every operator looks at one field of a record. Of a field that is not there IS NULL is true and
nothing else. Of a value that is there the comparisons tell how it is ordered with the operand,
lists and ranges are told by comparisons, and an operator and its negation are never both true or
false, but for patterns, which are for texts only.
-/

namespace FilterLogic

namespace Operator

/-- The operands that a predicate can be built from: a pattern is a text, and a range has bounds. -/
def Takes : Operator → Json.Value → Prop
  | .like, v => ∃ pattern, v = .text pattern
  | .notLike, v => ∃ pattern, v = .text pattern
  | .between, v => ∃ low high, v = .array [low, high]
  | .notBetween, v => ∃ low high, v = .array [low, high]
  | _, _ => True

/-- The orders of a value and the operand for which a comparison is true. -/
def accepts? : Operator → Option (Ordering → Bool)
  | .equals => some Ordering.isEq
  | .notEquals => some Ordering.isNe
  | .greaterThan => some Ordering.isGT
  | .greaterThanOrEqual => some Ordering.isGE
  | .lessThan => some Ordering.isLT
  | .lessThanOrEqual => some Ordering.isLE
  | _ => none

/-- The operators whose operand is a pattern. -/
def patterns : List Operator := [.like, .notLike]

/-- The comparisons with a single operand. -/
def comparisons : List Operator :=
  [.equals, .notEquals, .greaterThan, .greaterThanOrEqual, .lessThan, .lessThanOrEqual]

theorem exists_accepts? {op : Operator} (h : op ∈ comparisons) :
    ∃ accept, op.accepts? = some accept := by
  cases op <;> first | exact ⟨_, rfl⟩ | exact absurd h (by decide)

/-- The comparison that is true of one order only. -/
def ofOrdering : Ordering → Operator
  | .lt => .lessThan
  | .eq => .equals
  | .gt => .greaterThan

end Operator

namespace Predicate

variable {property : Property} {op op' : Operator} {v x record : Json.Value} {p : Predicate}
  {answer : Bool} {e : Error}

section Building

variable {name : String} {expected : Bool}

theorem build_comparison {accept : Ordering → Bool} (h : op.accepts? = some accept) :
    build property op v = .ok (comparison property.name v accept) := by
  cases op <;> cases h <;> rfl

theorem exists_like_eq_ok :
    (∃ p, like name v expected = .ok p) ↔ ∃ pattern, v = .text pattern := by
  cases v with
  | text pattern => exact iff_of_true ⟨_, rfl⟩ ⟨pattern, rfl⟩
  | _ => exact iff_of_false (fun ⟨_, h⟩ => nomatch h) (fun ⟨_, h⟩ => nomatch h)

theorem exists_range_eq_ok :
    (∃ p, range name op v expected = .ok p) ↔ ∃ low high, v = .array [low, high] := by
  constructor
  · rintro ⟨p, hp⟩
    obtain ⟨⟨low, high⟩, hbounds, -⟩ := Outcome.bind_eq_ok.mp hp
    exact ⟨low, high, Operand.bounds_eq_ok.mp hbounds⟩
  · rintro ⟨low, high, rfl⟩
    exact ⟨_, rfl⟩

/-- Only patterns and ranges are particular about their operands. -/
theorem exists_build_eq_ok : (∃ p, build property op v = .ok p) ↔ op.Takes v := by
  cases op with
  | like => exact exists_like_eq_ok
  | notLike => exact exists_like_eq_ok
  | between => exact exists_range_eq_ok
  | notBetween => exact exists_range_eq_ok
  | _ => exact iff_of_true ⟨_, rfl⟩ trivial

/-- What is reported of an operand that no predicate can be built from: the kind of what is no
pattern, or the number of values in what is no range. -/
inductive Refusal (property : Property) (op : Operator) (v : Json.Value) : Error → Prop
  | pattern (hop : op ∈ Operator.patterns) (h : ∀ pattern, v ≠ .text pattern) :
      Refusal property op v (.valueType property.name .text v.kind)
  | range {source : Error} (hop : op.cardinality = .range)
      (h : Operand.bounds op v = .error source) : Refusal property op v source

theorem like_eq_error : like name v expected = .error e ↔
    (∀ pattern, v ≠ .text pattern) ∧ e = .valueType name .text v.kind := by
  cases v with
  | text pattern => exact iff_of_false (fun h => nomatch h) (fun h => h.1 pattern rfl)
  | _ => simp [like, eq_comm]

theorem range_eq_error :
    range name op v expected = .error e ↔ Operand.bounds op v = .error e :=
  Outcome.bind_ok_eq_error

theorem build_eq_error : build property op v = .error e ↔ Refusal property op v e := by
  constructor
  · intro h
    cases op with
    | like =>
        obtain ⟨hpattern, rfl⟩ := like_eq_error.mp h
        exact .pattern (by decide) hpattern
    | notLike =>
        obtain ⟨hpattern, rfl⟩ := like_eq_error.mp h
        exact .pattern (by decide) hpattern
    | between => exact .range rfl (range_eq_error.mp h)
    | notBetween => exact .range rfl (range_eq_error.mp h)
    | _ => cases h
  · intro h
    cases h with
    | pattern hop hpattern =>
        simp only [Operator.patterns, List.mem_cons, List.not_mem_nil, or_false] at hop
        rcases hop with rfl | rfl
        all_goals exact like_eq_error.mpr ⟨hpattern, rfl⟩
    | range hop hbounds =>
        cases op with
        | between => exact range_eq_error.mpr hbounds
        | notBetween => exact range_eq_error.mpr hbounds
        | _ => cases hop

theorem exists_onField_of_like (h : like name v expected = .ok p) :
    ∃ test, p = onField name test := by
  obtain ⟨pattern, rfl⟩ := exists_like_eq_ok.mp ⟨p, h⟩
  cases h
  exact ⟨_, rfl⟩

theorem exists_onField_of_range (h : range name op v expected = .ok p) :
    ∃ test, p = onField name test := by
  obtain ⟨low, high, rfl⟩ := exists_range_eq_ok.mp ⟨p, h⟩
  cases h
  exact ⟨_, rfl⟩

/-- Every operator but IS NULL tests a field that is there. -/
theorem exists_onField_of_build (hop : op ≠ .isNull) (h : build property op v = .ok p) :
    ∃ test, p = onField property.name test := by
  cases op with
  | isNull => exact absurd rfl hop
  | isNotNull =>
      cases h
      refine ⟨fun _ => true, congrArg Predicate.mk (funext fun record => ?_)⟩
      cases present? property.name record <;> rfl
  | like => exact exists_onField_of_like h
  | notLike => exact exists_onField_of_like h
  | between => exact exists_onField_of_range h
  | notBetween => exact exists_onField_of_range h
  | _ =>
      cases h
      exact ⟨_, rfl⟩

/-- Without a field IS NULL is true, and nothing else is. -/
theorem holds_of_absent (h : build property op v = .ok p)
    (habsent : present? property.name record = none) :
    p.holds record = decide (op = .isNull) := by
  by_cases hop : op = .isNull
  · subst hop
    cases h
    simp [habsent]
  · obtain ⟨test, rfl⟩ := exists_onField_of_build hop h
    rw [holds_onField_of_absent habsent, decide_eq_false hop]

end Building

/-- The answer of an operator with an operand that a predicate can be built from. -/
def Answers (property : Property) (op : Operator) (v record : Json.Value) (answer : Bool) : Prop :=
  ∃ p, build property op v = .ok p ∧ p.holds record = answer

/-- One operator is true and the other one false. -/
def Opposed (property : Property) (op op' : Operator) (v record : Json.Value) : Prop :=
  ∃ answer, Answers property op v record answer ∧ Answers property op' v record !answer

theorem answers_iff (h : build property op v = .ok p) :
    Answers property op v record answer ↔ p.holds record = answer := by
  constructor
  · rintro ⟨q, hq, hanswer⟩
    rw [h] at hq
    cases hq
    exact hanswer
  · intro hanswer
    exact ⟨p, h, hanswer⟩

section Present

variable {low high : Json.Value} (hfield : Present property.name x record)

include hfield

theorem answers_onField {test : Json.Value → Bool}
    (h : build property op v = .ok (onField property.name test)) :
    Answers property op v record answer ↔ test x = answer := by
  rw [answers_iff h, holds_onField (present?_eq_some_iff.mpr hfield)]

theorem answers_comparison {accept : Ordering → Bool} (h : op.accepts? = some accept) :
    Answers property op v record answer ↔ compares v accept x = answer :=
  answers_onField hfield (build_comparison h)

/-- Two operators that expect opposite results of one test. -/
theorem opposed_of_test {test test' : Json.Value → Bool} {result : Bool}
    (h : build property op v = .ok (onField property.name test))
    (h' : build property op' v = .ok (onField property.name test'))
    (htest : test x = (result == true)) (htest' : test' x = (result == false)) :
    Opposed property op op' v record := by
  refine ⟨result, (answers_onField hfield h).mpr ?_, (answers_onField hfield h').mpr ?_⟩
  · rw [htest, beq_true]
  · rw [htest', beq_false]

/-- Of a value that is ordered with the operand, one of <, = and > is true. -/
theorem existsUnique_comparison {o : Ordering} (ho : x.order? v = some o) :
    ∃! op, op ∈ [Operator.lessThan, .equals, .greaterThan] ∧ Answers property op v record true := by
  have hanswers : ∀ op ∈ [Operator.lessThan, .equals, .greaterThan],
      (Answers property op v record true ↔ op = Operator.ofOrdering o) := by
    intro op hop
    simp only [List.mem_cons, List.not_mem_nil, or_false] at hop
    rcases hop with rfl | rfl | rfl
    all_goals
      rw [answers_comparison hfield rfl, compares_of_order ho]
      cases o <;> decide
  have hmem : Operator.ofOrdering o ∈ [Operator.lessThan, .equals, .greaterThan] := by
    cases o <;> decide
  exact ⟨_, ⟨hmem, (hanswers _ hmem).mpr rfl⟩, fun op hop => (hanswers op hop.1).mp hop.2⟩

/-- A comparison that accepts what one of two others accepts is true where one of these is. -/
theorem answers_or {op₁ op₂ : Operator} {accept accept₁ accept₂ : Ordering → Bool}
    (h : op.accepts? = some accept) (h₁ : op₁.accepts? = some accept₁)
    (h₂ : op₂.accepts? = some accept₂) (hor : ∀ o, accept o = (accept₁ o || accept₂ o)) :
    Answers property op v record true ↔
      Answers property op₁ v record true ∨ Answers property op₂ v record true := by
  rw [answers_comparison hfield h, answers_comparison hfield h₁, answers_comparison hfield h₂]
  cases horder : x.order? v with
  | none => simp [compares_of_incomparable horder]
  | some o => simp [compares_of_order horder, hor]

theorem answers_isIn : Answers property .isIn v record true ↔
    ∃ item ∈ Operand.candidates v, Answers property .equals item record true := by
  have hequals (item : Json.Value) :
      Answers property .equals item record true ↔ x.order? item = some .eq := by
    rw [answers_comparison hfield rfl]
    cases horder : x.order? item with
    | none => simp [compares_of_incomparable horder]
    | some o => simp [compares_of_order horder]
  rw [answers_onField hfield rfl, beq_true]
  simp [isAmong, hequals]

theorem answers_between : Answers property .between (.array [low, high]) record true ↔
    Answers property .greaterThanOrEqual low record true ∧
      Answers property .lessThanOrEqual high record true := by
  rw [answers_onField hfield rfl, answers_comparison hfield rfl, answers_comparison hfield rfl,
    beq_true, isWithin, Bool.and_eq_true]

theorem opposed_isIn : Opposed property .isIn .notIn v record :=
  opposed_of_test hfield rfl rfl rfl rfl

theorem opposed_between : Opposed property .between .notBetween (.array [low, high]) record :=
  opposed_of_test hfield rfl rfl rfl rfl

theorem opposed_like {s : String} (hx : x = .text s) (pattern : String) :
    Opposed property .like .notLike (.text pattern) record := by
  subst hx
  exact opposed_of_test hfield rfl rfl rfl rfl

theorem answers_like_of_not_text (hx : ∀ s, x ≠ .text s) {pattern : String} {expected : Bool}
    (h : build property op (.text pattern) = like property.name (.text pattern) expected) :
    Answers property op (.text pattern) record false := by
  rw [answers_onField hfield h]
  split
  · exact absurd rfl (hx _)
  · rfl

end Present

/-- What the operators on a property say of a record with a value in the field, told by each
other. -/
structure Coherent (property : Property) (x record : Json.Value) : Prop where
  null (v : Json.Value) :
    Answers property .isNotNull v record true ∧ Answers property .isNull v record false
  /-- Comparable values are ordered in one way, unless they are integers that no text has. -/
  ordered {v : Json.Value} (hx : x.Readable) (hv : v.Readable) (h : x.Comparable v) :
    ∃! op, op ∈ [Operator.lessThan, .equals, .greaterThan] ∧ Answers property op v record true
  lessThanOrEqual (v : Json.Value) : Answers property .lessThanOrEqual v record true ↔
    Answers property .lessThan v record true ∨ Answers property .equals v record true
  greaterThanOrEqual (v : Json.Value) : Answers property .greaterThanOrEqual v record true ↔
    Answers property .greaterThan v record true ∨ Answers property .equals v record true
  notEquals (v : Json.Value) : Answers property .notEquals v record true ↔
    Answers property .lessThan v record true ∨ Answers property .greaterThan v record true
  /-- No comparison is true of incomparable values. -/
  incomparable {v : Json.Value} {op : Operator} (h : ¬ x.Comparable v)
    (hop : op ∈ Operator.comparisons) : Answers property op v record false
  isIn (v : Json.Value) : Answers property .isIn v record true ↔
    ∃ item ∈ Operand.candidates v, Answers property .equals item record true
  between (low high : Json.Value) : Answers property .between (.array [low, high]) record true ↔
    Answers property .greaterThanOrEqual low record true ∧
      Answers property .lessThanOrEqual high record true
  notIn (v : Json.Value) : Opposed property .isIn .notIn v record
  notBetween (low high : Json.Value) :
    Opposed property .between .notBetween (.array [low, high]) record
  like {s : String} (h : x = .text s) (pattern : String) :
    Opposed property .like .notLike (.text pattern) record
  /-- Of a value that is no text no pattern is true, and none is not true either. -/
  noText (h : ∀ s, x ≠ .text s) (pattern : String) :
    Answers property .like (.text pattern) record false ∧
      Answers property .notLike (.text pattern) record false

theorem coherent_of_present (hfield : Present property.name x record) :
    Coherent property x record where
  null v := ⟨(answers_iff rfl).mpr (by simp [present?_eq_some_iff.mpr hfield]),
    (answers_iff rfl).mpr (by simp [present?_eq_some_iff.mpr hfield])⟩
  ordered hx hv h := by
    obtain ⟨o, ho⟩ := h.exists_order? hx hv
    exact existsUnique_comparison hfield ho
  lessThanOrEqual v := answers_or hfield rfl rfl rfl fun o => by cases o <;> rfl
  greaterThanOrEqual v := answers_or hfield rfl rfl rfl fun o => by cases o <;> rfl
  notEquals v := answers_or hfield rfl rfl rfl fun o => by cases o <;> rfl
  incomparable h hop := by
    obtain ⟨accept, haccept⟩ := Operator.exists_accepts? hop
    rw [answers_comparison hfield haccept]
    exact compares_of_incomparable (Json.Value.order?_of_not_comparable h)
  isIn v := answers_isIn hfield
  between low high := answers_between hfield
  notIn v := opposed_isIn hfield
  notBetween low high := opposed_between hfield
  like h pattern := opposed_like hfield h pattern
  noText h pattern := ⟨answers_like_of_not_text hfield h rfl, answers_like_of_not_text hfield h rfl⟩

/-- A predicate can be built from every operand but those that are no pattern and no range. On a
record without the field IS NULL is true and nothing else, whatever the operand. On a record with a
value in the field the operators are told by each other. -/
theorem operators_coherent (property : Property) (record : Json.Value) :
    (∀ op v, (∃ p, build property op v = .ok p) ↔ op.Takes v) ∧
    (Absent property.name record → ∀ op v, op.Takes v →
      Answers property op v record (decide (op = .isNull))) ∧
    ∀ x, Present property.name x record → Coherent property x record := by
  refine ⟨fun op v => exists_build_eq_ok, fun habsent op v htakes => ?_,
    fun x hfield => coherent_of_present hfield⟩
  obtain ⟨p, hp⟩ := exists_build_eq_ok.mpr htakes
  exact ⟨p, hp, holds_of_absent hp (present?_eq_none_iff.mpr habsent)⟩

/-- A name is ordered with another name and not with a number. Among its equals it is told in a list
of values of several kinds. An age that is null is null, and nothing else. -/
theorem operators_coherent_name :
    let record := Json.Value.object [("age", .null), ("name", .text "Bob")]
    let name := Property.withDefaults "name" .text
    let age := Property.withDefaults "age" .integer
    (∃! op, op ∈ [Operator.lessThan, .equals, .greaterThan] ∧
        Answers name op (.text "Bill") record true) ∧
      Answers name .notEquals (.number (.integer 1)) record false ∧
      Answers name .isIn (.array [.number (.integer 1), .text "Bob"]) record true ∧
      Opposed name .isIn .notIn (.array [.number (.integer 1), .text "Bob"]) record ∧
      Answers age .isNull .null record true ∧
      Answers age .notBetween (.array [.number (.integer 1), .number (.integer 5)]) record
        false := by
  intro record name age
  obtain ⟨-, -, hname⟩ := operators_coherent name record
  obtain ⟨-, hage, -⟩ := operators_coherent age record
  have hbob := hname (.text "Bob") ⟨rfl, nofun⟩
  have hnull := hage (.null rfl)
  refine ⟨hbob.ordered trivial trivial (.texts _ _), hbob.incomparable nofun (by decide), ?_,
    hbob.notIn _, hnull .isNull _ trivial, hnull .notBetween _ ⟨_, _, rfl⟩⟩
  exact (hbob.isIn _).mpr ⟨.text "Bob", by simp [Operand.candidates], _, rfl, by decide⟩

end Predicate

end FilterLogic
