import Mathlib.Algebra.BigOperators.Finprod

/-!
# Shares of threads

What threads hold is added up; there may be any number of threads, of which all but
finitely many hold nothing. When one thread changes what it holds, the sum is what the
others hold together with what it holds now, and what a law says of all sums it says of
each share.
-/

namespace Shares

variable {Thread Ghost Amount : Type} [AddCommMonoid Amount]

/-- What all threads hold. -/
noncomputable def total (share : Ghost → Amount) (ghosts : Thread → Ghost) : Amount :=
  ∑ᶠ thread, share (ghosts thread)

/-- What the other threads hold. -/
noncomputable def others (share : Ghost → Amount) (thread : Thread) (ghosts : Thread → Ghost) :
    Amount :=
  ∑ᶠ (other) (_ : other ≠ thread), share (ghosts other)

/-- All but finitely many threads hold nothing. -/
def Few (share : Ghost → Amount) (ghosts : Thread → Ghost) : Prop :=
  Function.HasFiniteSupport fun thread => share (ghosts thread)

variable {share : Ghost → Amount} {ghosts : Thread → Ghost} {thread other : Thread}

theorem few_of_finite [Finite Thread] (share : Ghost → Amount) (ghosts : Thread → Ghost) :
    Few share ghosts :=
  Set.toFinite _

/-- No thread holds anything. -/
theorem few_of_nothing (nothing : ∀ thread, share (ghosts thread) = 0) : Few share ghosts := by
  rw [Few, funext nothing]
  exact Function.hasFiniteSupport_fun_zero

theorem total_of_nothing (nothing : ∀ thread, share (ghosts thread) = 0) :
    total share ghosts = 0 :=
  finsum_eq_zero_of_forall_eq_zero nothing

/-- The total is what one thread holds and what the others do. -/
theorem Few.total_eq (few : Few share ghosts) (thread : Thread) :
    total share ghosts = others share thread ghosts + share (ghosts thread) := by
  rw [add_comm]
  exact (add_finsum_cond_ne thread few).symm

/-- Each of the others holds a part of what they hold. -/
theorem Few.exists_others (few : Few share ghosts) (ne : other ≠ thread) :
    ∃ rest, others share thread ghosts = rest + share (ghosts other) := by
  have fewer : Function.HasFiniteSupport
      fun other => ∑ᶠ _ : other ≠ thread, share (ghosts other) := by
    apply few.subset
    intro other held
    rw [Function.mem_support] at held ⊢
    intro nothing
    simp [nothing] at held
  classical
  have split := add_finsum_cond_ne other fewer
  rw [finsum_eq_if, if_pos ne, add_comm] at split
  exact ⟨_, split.symm⟩

/-- What holds of each share and of sums holds of what the others hold. -/
theorem others_induction (share : Ghost → Amount) (ghosts : Thread → Ghost)
    (Holds : Amount → Prop) (zero : Holds 0)
    (add : ∀ amount more, Holds amount → Holds more → Holds (amount + more))
    (each : ∀ other ≠ thread, Holds (share (ghosts other))) :
    Holds (others share thread ghosts) :=
  finsum_mem_induction Holds zero add each

section Update

variable [DecidableEq Thread]

theorem others_update (next : Ghost) :
    others share thread (Function.update ghosts thread next) = others share thread ghosts := by
  apply finsum_congr
  intro other
  apply finsum_congr
  intro ne
  rw [Function.update_of_ne ne]

theorem Few.update (few : Few share ghosts) (thread : Thread) (next : Ghost) :
    Few share (Function.update ghosts thread next) := by
  apply (few.insert thread).subset
  intro other held
  by_cases same : other = thread
  · exact Or.inl same
  · right
    rwa [Function.mem_support, Function.update_of_ne same] at held

/-- A thread changes the total by its own share. -/
theorem Few.total_update (few : Few share ghosts) (thread : Thread) (next : Ghost) :
    total share (Function.update ghosts thread next) =
      others share thread ghosts + share next := by
  rw [(few.update thread next).total_eq thread, others_update, Function.update_self]

end Update

section Finite

variable [Finite Thread]

theorem total_eq (share : Ghost → Amount) (thread : Thread) (ghosts : Thread → Ghost) :
    total share ghosts = others share thread ghosts + share (ghosts thread) :=
  (few_of_finite share ghosts).total_eq thread

theorem total_update [DecidableEq Thread] (next : Ghost) :
    total share (Function.update ghosts thread next) =
      others share thread ghosts + share next :=
  (few_of_finite share ghosts).total_update thread next

theorem exists_others (share : Ghost → Amount) (ghosts : Thread → Ghost) (ne : other ≠ thread) :
    ∃ rest, others share thread ghosts = rest + share (ghosts other) :=
  (few_of_finite share ghosts).exists_others ne

end Finite

end Shares
