import Gsp.Lib.Machine

/-!
# First-in first-out queues

What a bounded queue of items promises to its users, as a machine whose labels
are requests with their answers. A write is stored as a whole or refused, a peek
shows a front part which is empty only for an empty queue, and a removal drops
from the front as much as there is.
-/

universe u

namespace Fifo

/-- What is asked of a queue. -/
inductive Request (Item : Type u) where
  | write (items : List Item)
  | peek
  | remove (count : ℕ)
  | reset

/-- What it answers. -/
inductive Answer (Item : Type u) where
  | stored (accepted : Bool)
  | seen (items : List Item)
  | done
deriving DecidableEq

variable {Item : Type u}

/-- What a request with its answer does to the queue. -/
inductive Step : List Item → Request Item × Answer Item → List Item → Prop where
  | accept (queue items : List Item) : Step queue (.write items, .stored true) (queue ++ items)
  | refuse (queue items : List Item) : Step queue (.write items, .stored false) queue
  | peek (front rest : List Item) (nonempty : front ++ rest ≠ [] → front ≠ []) :
      Step (front ++ rest) (.peek, .seen front) (front ++ rest)
  | remove (queue : List Item) (count : ℕ) :
      Step queue (.remove count, .done) (queue.drop (min count queue.length))
  | reset (queue : List Item) : Step queue (.reset, .done) []

/-- The queue machine, empty at the start. -/
def machine (Item : Type u) : Machine (List Item) (Request Item × Answer Item) where
  Initial queue := queue = []
  Step := Step

end Fifo
