import FilterLogic.Error

/-!
# Computations with a log of calls

A logged computation may fail, and lists the calls it made in order, also when it fails. What is
computed and what is called are read off one definition, so a statement about the calls is about
the computation that runs.
-/

namespace FilterLogic

/-- A value or an error, with the calls that were made on the way. -/
structure Logged (κ : Type u) (α : Type v) where
  calls : List κ
  outcome : Except Error α

namespace Logged

variable {κ : Type u} {α β : Type v}

/-- A value without calls. -/
def pure (a : α) : Logged κ α := ⟨[], .ok a⟩

/-- A check or a computation without calls. -/
def lift (e : Except Error α) : Logged κ α := ⟨[], e⟩

/-- A computation after a call. -/
def after (call : κ) (e : Except Error α) : Logged κ α := ⟨[call], e⟩

/-- One computation after the other, unless the first one fails. -/
def bind (x : Logged κ α) (f : α → Logged κ β) : Logged κ β :=
  match x.outcome with
  | .ok a => ⟨x.calls ++ (f a).calls, (f a).outcome⟩
  | .error e => ⟨x.calls, .error e⟩

instance : Monad (Logged κ) where
  pure := Logged.pure
  bind := Logged.bind

/-- The computation with its error put under another. -/
def mapError (f : Error → Error) (x : Logged κ α) : Logged κ α :=
  ⟨x.calls, x.outcome.mapError f⟩

@[simp] theorem outcome_pure (a : α) : (Pure.pure a : Logged κ α).outcome = .ok a := rfl

@[simp] theorem calls_pure (a : α) : (Pure.pure a : Logged κ α).calls = [] := rfl

@[simp] theorem outcome_lift (e : Except Error α) : (lift e : Logged κ α).outcome = e := rfl

@[simp] theorem calls_lift (e : Except Error α) : (lift e : Logged κ α).calls = [] := rfl

@[simp] theorem outcome_after (call : κ) (e : Except Error α) : (after call e).outcome = e := rfl

@[simp] theorem calls_after (call : κ) (e : Except Error α) : (after call e).calls = [call] := rfl

@[simp] theorem outcome_bind (x : Logged κ α) (f : α → Logged κ β) :
    (x >>= f).outcome = x.outcome >>= fun a => (f a).outcome := by
  obtain ⟨calls, outcome⟩ := x
  cases outcome <;> rfl

theorem calls_bind_ok {x : Logged κ α} {a : α} (h : x.outcome = .ok a) (f : α → Logged κ β) :
    (x >>= f).calls = x.calls ++ (f a).calls := by
  change (Logged.bind x f).calls = _
  simp [Logged.bind, h]

theorem calls_bind_error {x : Logged κ α} {e : Error} (h : x.outcome = .error e)
    (f : α → Logged κ β) : (x >>= f).calls = x.calls := by
  change (Logged.bind x f).calls = _
  simp [Logged.bind, h]

end Logged

end FilterLogic
