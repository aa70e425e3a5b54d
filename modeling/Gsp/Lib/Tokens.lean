import Mathlib.Data.Multiset.Filter

/-!
# Tokens

Rights to things are tokens, and what someone holds is a multiset of them, each
token with the thing it is a right to.
-/

namespace Tokens

variable {Thing Token : Type} [DecidableEq Thing] [DecidableEq Token] {thing other : Thing}

/-- How many of each token there are. -/
def amount (tokens : Multiset Token) : Token → ℕ := fun token => tokens.count token

/-- Tokens of one thing. -/
def own (thing : Thing) (tokens : Multiset Token) : Multiset (Thing × Token) :=
  tokens.map (Prod.mk thing)

section Amounts

variable (first token : Token) (tokens more : Multiset Token)

@[simp]
theorem amount_zero : amount 0 token = 0 :=
  Multiset.count_zero token

@[simp]
theorem amount_add : amount (tokens + more) token = amount tokens token + amount more token :=
  Multiset.count_add token tokens more

@[simp]
theorem amount_cons :
    amount (first ::ₘ tokens) token = amount tokens token + if token = first then 1 else 0 :=
  Multiset.count_cons token first tokens

@[simp]
theorem amount_singleton : amount {first} token = if token = first then 1 else 0 :=
  Multiset.count_singleton token first

end Amounts

omit [DecidableEq Thing] [DecidableEq Token] in
theorem own_add (tokens more : Multiset Token) :
    own thing (tokens + more) = own thing tokens + own thing more :=
  Multiset.map_add _ _ _

omit [DecidableEq Thing] [DecidableEq Token] in
theorem own_pair (first second : Token) :
    own thing {first, second} = own thing {second} + own thing {first} := by
  rw [← own_add, Multiset.add_comm]
  rfl

omit [DecidableEq Thing] [DecidableEq Token] in
/-- Nothing is held of any thing. -/
theorem eq_own_zero (tokens : Multiset (Thing × Token)) : tokens = own thing 0 + tokens :=
  (Multiset.zero_add tokens).symm

theorem count_own (tokens : Multiset Token) (token : Token) :
    (own thing tokens).count (thing, token) = amount tokens token :=
  Multiset.count_map_eq_count' _ tokens (Prod.mk_right_injective thing) token

theorem count_own_of_ne (tokens : Multiset Token) (token : Token) (ne : other ≠ thing) :
    (own thing tokens).count (other, token) = 0 := by
  rw [Multiset.count_eq_zero]
  intro mem
  rcases Multiset.mem_map.mp mem with ⟨_, _, same⟩
  exact ne (congrArg Prod.fst same).symm

/-- A token that is held can be set apart. -/
theorem exists_own {tokens : Multiset (Thing × Token)} {token : Token}
    (held : 0 < tokens.count (thing, token)) : ∃ kept, tokens = own thing {token} + kept :=
  Multiset.exists_cons_of_mem (Multiset.count_pos.mp held)

end Tokens
