import FilterLogic.Proofs.Resolution.Lookup
import FilterLogic.Proofs.Text.Trimming

/-!
# How operators are spelt

An operator is named by its symbol and by its code, in any case and with blanks around it. Symbols
and codes overlap, but only those of one operator are equal, so that a text names one operator at
most and the order in which operators are tried makes no difference.
-/

namespace FilterLogic

namespace Text

/-- Only the small letters of ASCII have other capitals among them. -/
theorem toUpper_eq_self {c : Char} (h : c.toNat < 97 ∨ 122 < c.toNat) : c.toUpper = c := by
  refine dif_neg fun hc => ?_
  have hlow : 97 ≤ c.toNat := hc.1
  have hhigh : c.toNat ≤ 122 := hc.2
  omega

theorem toUpper_of_isBlank {c : Char} (h : isBlank c = true) : c.toUpper = c := by
  apply toUpper_eq_self
  by_contra hletter
  simp only [isBlank, Bool.or_eq_true, Bool.and_eq_true, decide_eq_true_eq, beq_iff_eq] at h
  omega

/-- A text whose ASCII capitals are all ASCII has no other capitals. -/
theorem upper_eq_toUpper {s : String} (h : ∀ c ∈ s.toUpper.toList, c.toNat < 0x80) :
    upper s = s.toUpper := by
  rw [← String.toList_inj, upper, String.toList_ofList, String.toUpper, String.toList_map,
    List.map_eq_flatMap]
  refine List.flatMap_congr fun c hc => if_pos ?_
  by_contra hwide
  have hsame : c.toUpper = c := toUpper_eq_self (.inr (by omega))
  apply hwide
  rw [← hsame]
  refine h _ ?_
  rw [String.toUpper, String.toList_map]
  exact List.mem_map_of_mem hc

end Text

open Text

namespace Operator

variable {op op' : Operator} {s word : String}

/-- Whether a word is the symbol or the code of an operator. -/
def Spells (op : Operator) (word : String) : Prop := op.symbol = word ∨ op.code = word

instance (op : Operator) (word : String) : Decidable (op.Spells word) :=
  inferInstanceAs (Decidable (_ ∨ _))

theorem spells_symbol (op : Operator) : op.Spells op.symbol := .inl rfl

theorem spells_code (op : Operator) : op.Spells op.code := .inr rfl

/-- No word spells two operators. -/
theorem Spells.unique (h : op.Spells word) (h' : op'.Spells word) : op = op' := by
  have hdistinct : ∀ op ∈ all, ∀ op' ∈ all,
      op.Spells op'.symbol ∨ op.Spells op'.code → op = op' := by
    decide +kernel
  apply hdistinct op (mem_all op) op' (mem_all op')
  rcases h' with rfl | rfl
  · exact .inl h
  · exact .inr h

/-- A word that spells an operator is in ASCII capitals, without blanks at its ends. -/
structure Plain (word : String) : Prop where
  ascii : ∀ c ∈ word.toList, c.toNat < 0x80
  capital : ∀ c ∈ word.toList, c.toUpper = c
  first : ∀ c ∈ word.toList.head?, isBlank c = false
  last : ∀ c ∈ word.toList.getLast?, isBlank c = false

theorem Spells.plain (h : op.Spells word) : Plain word := by
  have hplain : ∀ op ∈ all, ∀ word ∈ [op.symbol, op.code],
      word.toList.all (fun c => c.toNat < 0x80 && c.toUpper == c) = true ∧
        word.toList.head?.all (!isBlank ·) = true ∧
          word.toList.getLast?.all (!isBlank ·) = true := by
    decide +kernel
  have hword : word ∈ [op.symbol, op.code] := by
    rcases h with rfl | rfl
    · exact List.mem_cons_self ..
    · exact List.mem_cons_of_mem _ (List.mem_cons_self ..)
  obtain ⟨hletters, hfirst, hlast⟩ := hplain op (mem_all op) word hword
  simp only [List.all_eq_true, Bool.and_eq_true, decide_eq_true_eq, beq_iff_eq] at hletters
  simp only [Option.all_eq_true, Bool.not_eq_true'] at hfirst hlast
  exact ⟨fun c hc => (hletters c hc).1, fun c hc => (hletters c hc).2, hfirst, hlast⟩

/-- Whether a text names an operator: in upper case, what it has between blanks spells it. -/
def NamedBy (op : Operator) (text : String) : Prop :=
  ∃ core, TrimsTo text core ∧ op.Spells (upper core)

variable {text : String}

theorem namedBy_iff : op.NamedBy text ↔ op.Spells (normalize text) := by
  constructor
  · rintro ⟨core, hcore, hspells⟩
    rwa [normalize, trim_eq_iff.mpr hcore]
  · intro hspells
    exact ⟨trim text, trimsTo_trim text, hspells⟩

theorem NamedBy.unique (h : op.NamedBy text) (h' : op'.NamedBy text) : op = op' :=
  (namedBy_iff.mp h).unique (namedBy_iff.mp h')

/-- A search through all operators, in any order, finds the one that a word spells. -/
theorem find?_eq_some_iff {ops : List Operator} (hops : ∀ op, op ∈ ops) :
    ops.find? (fun op => op.symbol == word || op.code == word) = some op ↔ op.Spells word := by
  have hmatch (op : Operator) : (op.symbol == word || op.code == word) = true ↔ op.Spells word := by
    rw [Bool.or_eq_true, beq_iff_eq, beq_iff_eq, Spells]
  constructor
  · intro h
    have hfound := List.find?_some h
    exact (hmatch op).mp hfound
  · intro hspells
    cases h : ops.find? fun op => op.symbol == word || op.code == word with
    | none =>
        have hfails := List.find?_eq_none.mp h op (hops op)
        exact absurd ((hmatch op).mpr hspells) hfails
    | some found =>
        have hfound := List.find?_some h
        rw [((hmatch found).mp hfound).unique hspells]

theorem parse?_eq_some_iff : parse? text = some op ↔ op.NamedBy text := by
  rw [parse?, namedBy_iff]
  exact find?_eq_some_iff mem_all

theorem require_eq_ok_iff : require text = .ok op ↔ op.NamedBy text :=
  require_eq_ok.trans parse?_eq_some_iff

/-- The symbol or the code in any case, with blanks around it, names the operator. -/
theorem namedBy_of_toUpper {left body right : String}
    (hleft : ∀ c ∈ left.toList, isBlank c = true) (hright : ∀ c ∈ right.toList, isBlank c = true)
    (h : op.Spells body.toUpper) : op.NamedBy (left ++ body ++ right) := by
  have hplain := h.plain
  -- a blank is its own capital, so one at an end of the text would be at an end of the word
  have hblank {c : Char} (hc : isBlank c.toUpper = false) : isBlank c = false := by
    by_contra hne
    have htrue : isBlank c = true := Bool.not_eq_false _ ▸ hne
    rw [toUpper_of_isBlank htrue, htrue] at hc
    cases hc
  have hlist : body.toUpper.toList = body.toList.map Char.toUpper := String.toList_map
  refine ⟨body, ⟨⟨left.toList, right.toList, ?_, hleft, hright⟩, fun c hc => ?_,
    fun c hc => ?_⟩, ?_⟩
  · rw [String.toList_append, String.toList_append]
  · apply hblank
    apply hplain.first
    rw [hlist, List.head?_map]
    exact Option.mem_map_of_mem _ hc
  · apply hblank
    apply hplain.last
    rw [hlist, List.getLast?_map]
    exact Option.mem_map_of_mem _ hc
  · rwa [upper_eq_toUpper hplain.ascii]

theorem Spells.namedBy (h : op.Spells word) : op.NamedBy word := by
  have hcapital : word.toUpper = word := by
    rw [← String.toList_inj, String.toUpper, String.toList_map]
    rw [List.map_congr_left h.plain.capital, List.map_id']
  have hnamed : op.NamedBy ("" ++ word ++ "") :=
    namedBy_of_toUpper (by simp) (by simp) (by rwa [hcapital])
  rwa [String.empty_append, String.append_empty] at hnamed

theorem require_trim (text : String) : require (trim text) = require text := by
  rw [require, require, parse?, parse?, normalize, normalize, trim_trim]

/-- An operator is read back from the JSON it is written as. -/
theorem parseJson?_compact (op : Operator) :
    op.toValue.compact = "\"" ++ op.symbol ++ "\"" ∧
      parseJson? op.toValue.compact = some (.ok op) := by
  cases op <;> exact ⟨by decide +kernel, by decide +kernel⟩

/-- Which texts are read as an operator, and that all others are refused with what is left of them
after trimming. -/
theorem reading_decided :
    (∀ text op, require text = .ok op ↔ op.NamedBy text) ∧
    (∀ text op op', NamedBy op text → NamedBy op' text → op = op') ∧
    (∀ ops : List Operator, (∀ op, op ∈ ops) → ∀ text,
      ops.find? (fun op => op.symbol == normalize text || op.code == normalize text) =
        parse? text) ∧
    (∀ (op : Operator) (left body right : String), (∀ c ∈ left.toList, isBlank c = true) →
      (∀ c ∈ right.toList, isBlank c = true) → op.Spells body.toUpper →
        require (left ++ body ++ right) = .ok op) ∧
    (∀ op : Operator, op.toValue.compact = "\"" ++ op.symbol ++ "\"" ∧
      parseJson? op.toValue.compact = some (.ok op) ∧
      require op.symbol = .ok op ∧ require op.code = .ok op) ∧
    ∀ text, (∀ op : Operator, ¬ op.NamedBy text) → ∃ core, TrimsTo text core ∧
      require text = .error (.unknownOperator core) ∧
      require core = .error (.unknownOperator core) := by
  refine ⟨fun _ _ => require_eq_ok_iff, fun _ _ _ h h' => h.unique h', fun ops hops text => ?_,
    fun op left body right hleft hright h => ?_, fun op => ?_, fun text h => ?_⟩
  · apply Option.ext
    intro op
    rw [find?_eq_some_iff hops, parse?_eq_some_iff, namedBy_iff]
  · exact require_eq_ok_iff.mpr (namedBy_of_toUpper hleft hright h)
  · obtain ⟨hwritten, hread⟩ := parseJson?_compact op
    exact ⟨hwritten, hread, require_eq_ok_iff.mpr op.spells_symbol.namedBy,
      require_eq_ok_iff.mpr op.spells_code.namedBy⟩
  · have hnone : parse? text = none :=
      Option.eq_none_iff_forall_ne_some.mpr fun op hop => h op (parse?_eq_some_iff.mp hop)
    have herror : require text = .error (.unknownOperator (trim text)) :=
      require_eq_error.mpr ⟨hnone, rfl⟩
    exact ⟨trim text, trimsTo_trim text, herror, (require_trim text).trans herror⟩

/-- One text that is read as an operator, and one that is refused. -/
theorem reading_of_texts :
    require "\t NOT liKe\n" = .ok .notLike ∧
      ∃ core, TrimsTo " likes " core ∧ require " likes " = .error (.unknownOperator core) ∧
        require core = .error (.unknownOperator core) := by
  constructor
  · have hleft : ∀ c ∈ "\t ".toList, isBlank c = true := List.all_eq_true.mp (by decide +kernel)
    have hright : ∀ c ∈ "\n".toList, isBlank c = true := List.all_eq_true.mp (by decide +kernel)
    exact reading_decided.2.2.2.1 .notLike "\t " "NOT liKe" "\n" hleft hright (by decide +kernel)
  · refine reading_decided.2.2.2.2.2 " likes " fun op h => ?_
    have hread := (reading_decided.1 " likes " op).mpr h
    rw [show require " likes " = .error (.unknownOperator "likes") by decide +kernel] at hread
    cases hread

end Operator

end FilterLogic
