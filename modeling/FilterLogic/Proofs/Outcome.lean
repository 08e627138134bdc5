import Mathlib.Data.List.Forall2

/-!
# Outcomes

How results and errors pass through a chain of steps, for any kind of error.
-/

namespace FilterLogic.Outcome

variable {ε : Type u} {α β : Type v}

@[simp] theorem ok_bind (a : α) (f : α → Except ε β) : (Except.ok a >>= f) = f a := rfl

@[simp] theorem error_bind (e : ε) (f : α → Except ε β) :
    (Except.error e >>= f) = .error e := rfl

theorem exists_eq_ok {x : Except ε α} : (∃ a, x = .ok a) ↔ ∀ e, x ≠ .error e := by
  cases x with
  | error e => simp
  | ok a => simp

/-- A chain has a result exactly if each of its steps has one. -/
theorem bind_eq_ok {x : Except ε α} {f : α → Except ε β} {b : β} :
    x >>= f = .ok b ↔ ∃ a, x = .ok a ∧ f a = .ok b := by
  cases x with
  | error e => simp
  | ok a => simp

/-- A chain fails with the error of the first step that has one. -/
theorem bind_eq_error {x : Except ε α} {f : α → Except ε β} {e : ε} :
    x >>= f = .error e ↔ x = .error e ∨ ∃ a, x = .ok a ∧ f a = .error e := by
  cases x with
  | error e => simp
  | ok a => simp

/-- A last step that has results only adds no error. -/
theorem bind_ok_eq_error {x : Except ε α} {f : α → β} {e : ε} :
    (x >>= fun a => .ok (f a)) = .error e ↔ x = .error e := by
  cases x with
  | error e => simp
  | ok a => simp

theorem map_eq_ok {x : Except ε α} {f : α → β} {b : β} :
    x.map f = .ok b ↔ ∃ a, x = .ok a ∧ f a = b := by
  cases x with
  | error e => simp [Except.map]
  | ok a => simp [Except.map]

/-- Putting errors under others changes no result. -/
theorem mapError_eq_ok {ε' : Type w} {x : Except ε α} {f : ε → ε'} {a : α} :
    x.mapError f = .ok a ↔ x = .ok a := by
  constructor
  · intro h
    cases x with
    | error e => cases h
    | ok b =>
        cases h
        rfl
  · intro h
    cases h
    rfl

theorem mapError_eq_error {ε' : Type w} {x : Except ε α} {f : ε → ε'} {e : ε'} :
    x.mapError f = .error e ↔ ∃ source, x = .error source ∧ e = f source := by
  cases x with
  | error source =>
      constructor
      · intro h
        cases h
        exact ⟨source, rfl, rfl⟩
      · rintro ⟨_, hsource, rfl⟩
        cases hsource
        rfl
  | ok a =>
      constructor
      · intro h
        cases h
      · rintro ⟨_, hsource, -⟩
        cases hsource

/-- Errors can be put under others at each step of a chain. -/
theorem mapError_bind {ε' : Type w} (x : Except ε α) (f : α → Except ε β) (g : ε → ε') :
    (x >>= f).mapError g = (x.mapError g >>= fun a => (f a).mapError g) := by
  cases x with
  | error e => rfl
  | ok a => rfl

section Lists

variable {γ : Type w} {step : γ → Except ε β} {items : List γ}

/-- A step for each item of a list has results exactly if each item has one. -/
theorem mapM_eq_ok {results : List β} :
    items.mapM step = .ok results ↔ List.Forall₂ (fun c b => step c = .ok b) items results := by
  induction items generalizing results with
  | nil =>
      rw [List.mapM_nil, List.forall₂_nil_left_iff]
      exact ⟨fun h => (Except.ok.inj h).symm, fun h => h ▸ rfl⟩
  | cons c items ih =>
      rw [List.mapM_cons, bind_eq_ok, List.forall₂_cons_left_iff]
      constructor
      · rintro ⟨b, hb, hrest⟩
        obtain ⟨bs, hbs, hresults⟩ := bind_eq_ok.mp hrest
        exact ⟨b, bs, hb, ih.mp hbs, (Except.ok.inj hresults).symm⟩
      · rintro ⟨b, bs, hb, hbs, rfl⟩
        exact ⟨b, hb, bind_eq_ok.mpr ⟨bs, ih.mpr hbs, rfl⟩⟩

theorem exists_of_mapM {results : List β} (h : items.mapM step = .ok results) {c : γ}
    (hc : c ∈ items) : ∃ b ∈ results, step c = .ok b := by
  induction mapM_eq_ok.mp h with
  | nil => cases hc
  | cons hb hrest ih =>
      rcases List.mem_cons.mp hc with rfl | hc
      · exact ⟨_, List.mem_cons_self .., hb⟩
      · obtain ⟨b, hmem, hb⟩ := ih (mapM_eq_ok.mpr hrest) hc
        exact ⟨b, List.mem_cons_of_mem _ hmem, hb⟩

theorem exists_of_mem_mapM {results : List β} (h : items.mapM step = .ok results) {b : β}
    (hb : b ∈ results) : ∃ c ∈ items, step c = .ok b := by
  induction mapM_eq_ok.mp h with
  | nil => cases hb
  | cons hc hrest ih =>
      rcases List.mem_cons.mp hb with rfl | hb
      · exact ⟨_, List.mem_cons_self .., hc⟩
      · obtain ⟨c, hmem, hc⟩ := ih (mapM_eq_ok.mpr hrest) hb
        exact ⟨c, List.mem_cons_of_mem _ hmem, hc⟩

/-- A step for each item of a list fails at the first item that has no result. -/
theorem mapM_eq_error {e : ε} :
    items.mapM step = .error e ↔ ∃ before c after, items = before ++ c :: after ∧
      (∀ d ∈ before, ∃ b, step d = .ok b) ∧ step c = .error e := by
  induction items with
  | nil => simp [pure, Except.pure]
  | cons c items ih =>
      rw [List.mapM_cons, bind_eq_error]
      constructor
      · rintro (hhere | ⟨b, hb, hrest⟩)
        · exact ⟨[], c, items, rfl, by simp, hhere⟩
        · rcases bind_eq_error.mp hrest with hlater | ⟨bs, -, hnever⟩
          · obtain ⟨before, d, after, rfl, hbefore, hd⟩ := ih.mp hlater
            exact ⟨c :: before, d, after, rfl, List.forall_mem_cons.mpr ⟨⟨b, hb⟩, hbefore⟩, hd⟩
          · cases hnever
      · rintro ⟨before, d, after, hitems, hbefore, hd⟩
        cases before with
        | nil =>
            obtain ⟨rfl, rfl⟩ := List.cons_eq_cons.mp hitems
            exact .inl hd
        | cons c' before =>
            obtain ⟨rfl, rfl⟩ := List.cons_eq_cons.mp hitems
            obtain ⟨⟨b, hb⟩, hbefore⟩ := List.forall_mem_cons.mp hbefore
            refine .inr ⟨b, hb, bind_eq_error.mpr (.inl (ih.mpr ?_))⟩
            exact ⟨before, d, after, rfl, hbefore, hd⟩

/-- What every step keeps, the results of all steps have in the order of the items. -/
theorem map_of_mapM {δ : Type x} {results : List β} {f : γ → δ} {g : β → δ}
    (h : items.mapM step = .ok results) (hkept : ∀ c b, step c = .ok b → g b = f c) :
    results.map g = items.map f := by
  induction mapM_eq_ok.mp h with
  | nil => rfl
  | cons hb hrest ih => rw [List.map_cons, List.map_cons, hkept _ _ hb, ih (mapM_eq_ok.mpr hrest)]

/-- All steps have results exactly if each of them has one. -/
theorem exists_mapM_eq_ok :
    (∃ results, items.mapM step = .ok results) ↔ ∀ c ∈ items, ∃ b, step c = .ok b := by
  constructor
  · rintro ⟨results, h⟩ c hc
    obtain ⟨b, -, hb⟩ := exists_of_mapM h hc
    exact ⟨b, hb⟩
  · intro hsteps
    rw [exists_eq_ok]
    intro e he
    obtain ⟨before, c, after, rfl, -, hc⟩ := mapM_eq_error.mp he
    obtain ⟨b, hb⟩ := hsteps c (List.mem_append_right _ List.mem_cons_self)
    rw [hb] at hc
    cases hc

end Lists

/-- Two computations that end alike: with the same error, or with related results. -/
inductive Agree (R : α → β → Prop) : Except ε α → Except ε β → Prop
  | ok {a b} (h : R a b) : Agree R (.ok a) (.ok b)
  | error (e : ε) : Agree R (.error e) (.error e)

namespace Agree

/-- A computation agrees with itself. -/
theorem refl (x : Except ε α) : Agree Eq x x := by
  cases x with
  | error e => exact .error e
  | ok a => exact .ok rfl

/-- Chains agree if their first steps do, and the rest does from related results on. -/
theorem bind {α' β' : Type v} {R : α → β → Prop} {S : α' → β' → Prop} {x : Except ε α}
    {y : Except ε β} {f : α → Except ε α'} {g : β → Except ε β'} (h : Agree R x y)
    (hrest : ∀ a b, R a b → Agree S (f a) (g b)) : Agree S (x >>= f) (y >>= g) := by
  cases h with
  | ok h => exact hrest _ _ h
  | error e => exact .error e

theorem mapError {ε' : Type w} {R : α → β → Prop} {x : Except ε α} {y : Except ε β}
    (h : Agree R x y) (f : ε → ε') : Agree R (x.mapError f) (y.mapError f) := by
  cases h with
  | ok h => exact .ok h
  | error e => exact .error (f e)

theorem mono {R S : α → β → Prop} {x : Except ε α} {y : Except ε β} (h : Agree R x y)
    (hsub : ∀ a b, R a b → S a b) : Agree S x y := by
  cases h with
  | ok h => exact .ok (hsub _ _ h)
  | error e => exact .error e

end Agree

end FilterLogic.Outcome
