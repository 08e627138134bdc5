import FilterLogic.Proofs.Resolution.Agreement
import FilterLogic.Proofs.Sql.Placeholders

/-!
# Placeholders and parameters

The segments and the parameters of a fragment are built beside each other and numbered only when the
fragment is rendered. That the n-th placeholder of the text belongs to the n-th parameter is an
invariant: builders establish it and combinations keep it.

## Implementation notes

The invariant relates segments to a number of parameters and is put together segment by segment, as
the fragments are. It asks of a text that it is read as it stands and begins with no digit, which
would lengthen the number of a placeholder before it.
-/

namespace FilterLogic

namespace Sql

/-- Text that can stand between placeholders. -/
def IsSeparate (text : String) : Prop :=
  IsPlain text.toList ∧ text.toList.head?.any Char.isDigit = false ∧ text ≠ ""

/-- A fixed text without quotes and without the beginning of a placeholder. -/
def isConnecting (text : String) : Bool :=
  text.toList.all isOrdinary && text.toList.head?.any fun c => !c.isDigit

theorem isSeparate_of_isConnecting {text : String} (h : isConnecting text) : IsSeparate text := by
  obtain ⟨hall, hhead⟩ := (Bool.and_eq_true _ _).mp h
  obtain ⟨c, hc, hdigit⟩ := (Option.any_eq_true _ _).mp hhead
  refine ⟨isPlain_of_all_isOrdinary hall, ?_, ?_⟩
  · rw [hc]
    simpa using hdigit
  · rintro rfl
    exact nomatch hc

/-- Segments with places for a number of parameters, and text that can stand between them. -/
inductive Places : List Segment → Nat → Prop
  | nil : Places [] 0
  | text {text segments count} (htext : IsSeparate text) (h : Places segments count) :
      Places (.text text :: segments) count
  | placeholder {segments count} (h : Places segments count) :
      Places (.placeholder :: segments) (count + 1)

namespace Places

variable {segments segments' : List Segment} {count count' : Nat}

theorem connecting {text : String} (htext : isConnecting text) (h : Places segments count) :
    Places (.text text :: segments) count :=
  .text (isSeparate_of_isConnecting htext) h

theorem append (h : Places segments count) (h' : Places segments' count') :
    Places (segments ++ segments') (count + count') := by
  induction h with
  | nil => rwa [List.nil_append, Nat.zero_add]
  | text htext _ ih => exact .text htext ih
  | placeholder _ ih =>
      rw [Nat.add_right_comm]
      exact .placeholder ih

/-- Text before and after segments makes no place more. -/
theorem enclosed (h : Places segments count) {before after : String}
    (hbefore : isConnecting before) (hafter : isConnecting after) :
    Places (.text before :: segments ++ [.text after]) count :=
  (connecting hbefore h).append (connecting hafter .nil)

end Places

section OperatorParts

variable {op : Operator} (value : Json.Value)

theorem operatorPart_of_none (h : op.cardinality = .none) :
    operatorPart op value = .ok ([.text (" " ++ op.symbol)], []) := by
  cases op with
  | isNull | isNotNull => rfl
  | _ => cases h

theorem operatorPart_of_single (h : op.cardinality = .single) :
    operatorPart op value =
      .ok ([.text (" " ++ comparisonSymbol op ++ " "), .placeholder], [value]) := by
  cases op with
  | isNull | isNotNull | isIn | notIn | between | notBetween => cases h
  | _ => rfl

theorem operatorPart_of_list (h : op.cardinality = .list) :
    operatorPart op value =
      .ok (.text (" " ++ op.symbol ++ " (") ::
        placeholderList (Operand.candidates value).length ++ [.text ")"],
        Operand.candidates value) := by
  cases op with
  | isIn | notIn => rfl
  | _ => cases h

theorem operatorPart_of_range (h : op.cardinality = .range) :
    operatorPart op value = Operand.bounds op value >>= fun (low, high) =>
      .ok ([.text (" " ++ op.symbol ++ " "), .placeholder, .text " AND ", .placeholder],
        [low, high]) := by
  cases op with
  | between | notBetween => rfl
  | _ => cases h

end OperatorParts

namespace Fragment

/-- A fragment with a place for each of its parameters. -/
def Aligned (f : Fragment) : Prop := Places f.segments f.parameters.length

/-- A connective between two aligned fragments keeps them aligned. -/
theorem Aligned.join {l r : Fragment} (hl : l.Aligned) (hr : r.Aligned) {connective : String}
    (h : isConnecting connective) : (join connective l r).Aligned := by
  have hinner : Places (l.segments ++ .text connective :: r.segments)
      (l.parameters.length + r.parameters.length) :=
    hl.append (.connecting h hr)
  have hsegments := hinner.enclosed (show isConnecting "(" by decide)
    (show isConnecting ")" by decide)
  rw [Aligned, Fragment.join, List.length_append]
  simpa using hsegments

theorem Aligned.negate {f : Fragment} (hf : f.Aligned) : (Condition.negate f).Aligned :=
  hf.enclosed (show isConnecting "NOT (" by decide) (show isConnecting ")" by decide)

/-- The fragments that come from building and combining, whatever the dialects and the values. -/
inductive Composed : Fragment → Prop
  | build {dialect property op value f} (h : build dialect property op value = .ok f) : Composed f
  | conjoin {l r f} (hl : Composed l) (hr : Composed r) (h : Condition.conjoin l r = .ok f) :
      Composed f
  | disjoin {l r f} (hl : Composed l) (hr : Composed r) (h : Condition.disjoin l r = .ok f) :
      Composed f
  | negate {f} (hf : Composed f) : Composed (Condition.negate f)

end Fragment

end Sql

end FilterLogic
