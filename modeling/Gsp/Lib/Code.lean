import Mathlib.Logic.Basic

/-!
# Code as a tree of operations

A computation performs operations one at a time and continues with what each
returns. `Code` is the tree of all its courses.
-/

/-- Code that performs operations and ends with a value. -/
inductive Code (Op : Type) (Result : Op → Type) (Value : Type) where
  | done (value : Value)
  | call (op : Op) (next : Result op → Code Op Result Value)

namespace Code

variable {Op : Type} {Result : Op → Type} {Value Other : Type}

/-- One piece of code after the other. -/
def bind : Code Op Result Value → (Value → Code Op Result Other) → Code Op Result Other
  | .done value, next => next value
  | .call op rest, next => .call op fun result => (rest result).bind next

instance : Monad (Code Op Result) where
  pure := .done
  bind := .bind

/-- A single operation. -/
def perform (op : Op) : Code Op Result (Result op) :=
  .call op .done

/-- The operation the code is about to perform. -/
def nextOp : Code Op Result Value → Option Op
  | .done _ => none
  | .call op _ => some op

end Code
