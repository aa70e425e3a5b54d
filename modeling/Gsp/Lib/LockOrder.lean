import Mathlib.Data.Fintype.Card
import Mathlib.Logic.Relation
import Mathlib.Order.Basic

/-!
# Lock order

If every thread only wants locks that rank above those it holds, then no threads wait
for each other in a circle.
-/

variable {Thread Lock Rank : Type}

/-- A thread wants a lock that another one holds. -/
def WaitsFor (wants holds : Thread → Lock → Prop) (thread other : Thread) : Prop :=
  ∃ lock, wants thread lock ∧ holds other lock

/-- Wanted locks rank above held ones. -/
def Ranked [LT Rank] (wants holds : Thread → Lock → Prop) (rank : Lock → Rank) : Prop :=
  ∀ thread lock held, wants thread lock → holds thread held → rank held < rank lock

namespace Ranked

variable [Preorder Rank] {wants holds : Thread → Lock → Prop} {rank : Lock → Rank}
  {thread other : Thread}

/-- Along a chain of waiting threads the ranks do not fall. -/
theorem exists_le_of_transGen (ranked : Ranked wants holds rank)
    (chain : Relation.TransGen (WaitsFor wants holds) thread other) :
    ∃ lock held, wants thread lock ∧ holds other held ∧ rank lock ≤ rank held := by
  induction chain with
  | single waits =>
      rcases waits with ⟨lock, wanted, held⟩
      exact ⟨lock, lock, wanted, held, le_refl _⟩
  | tail _ waits ih =>
      rcases ih with ⟨lock, held, wanted, holding, below⟩
      rcases waits with ⟨next, nextWanted, nextHeld⟩
      have above := ranked _ next held nextWanted holding
      exact ⟨lock, next, wanted, nextHeld, below.trans above.le⟩

/-- Threads that take their locks by rank do not wait in a circle. -/
theorem acyclic (ranked : Ranked wants holds rank) (thread : Thread) :
    ¬Relation.TransGen (WaitsFor wants holds) thread thread := by
  intro circle
  rcases ranked.exists_le_of_transGen circle with ⟨lock, held, wanted, holding, below⟩
  have above := ranked thread lock held wanted holding
  exact absurd (above.trans_le below) (lt_irrefl _)

/-- No thread waits for itself, and no two for each other. -/
theorem not_waitsFor_of_waitsFor (ranked : Ranked wants holds rank)
    (waits : WaitsFor wants holds thread other) : ¬WaitsFor wants holds other thread := by
  intro back
  exact ranked.acyclic thread (.tail (.single waits) back)

/-- A thread that waits does so in the end for one that does not wait. -/
theorem exists_running [Finite Thread] (ranked : Ranked wants holds rank) (thread : Thread) :
    ∃ other, Relation.ReflTransGen (WaitsFor wants holds) thread other ∧
      ∀ next, ¬WaitsFor wants holds other next := by
  let behind : Thread → Thread → Prop := Function.swap (Relation.TransGen (WaitsFor wants holds))
  have transitive : IsTrans Thread behind := ⟨fun _ _ _ first second => second.trans first⟩
  have irreflexive : Std.Irrefl behind := ⟨ranked.acyclic⟩
  induction thread using (Finite.wellFounded_of_trans_of_irrefl behind).induction with
  | _ thread ih =>
      by_cases waits : ∃ next, WaitsFor wants holds thread next
      · rcases waits with ⟨next, waits⟩
        rcases ih next (.single waits) with ⟨other, chain, running⟩
        exact ⟨other, .head waits chain, running⟩
      · exact ⟨thread, .refl, not_exists.mp waits⟩

end Ranked
