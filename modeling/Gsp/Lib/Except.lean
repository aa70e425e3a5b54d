import Mathlib.Logic.Basic

/-!
# Code with errors

These lemmas peel monadic code with errors apart.
-/

namespace Except

universe u v

variable {Error : Type u} {Value Result : Type v}

@[simp]
theorem ok_bind (value : Value) (rest : Value → Except Error Result) :
    (Except.ok value >>= rest) = rest value := rfl

theorem bind_eq_ok {first : Except Error Value} {rest : Value → Except Error Result}
    {result : Result} :
    (first >>= rest) = .ok result ↔ ∃ value, first = .ok value ∧ rest value = .ok result := by
  cases first with
  | error error => simp [bind, Except.bind]
  | ok value => simp [bind, Except.bind]

theorem map_eq_ok {first : Except Error Value} {change : Value → Result} {result : Result} :
    first.map change = .ok result ↔ ∃ value, first = .ok value ∧ change value = result := by
  cases first with
  | error error => simp [Except.map]
  | ok value => simp [Except.map]

end Except
