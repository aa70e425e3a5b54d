import Gsp.Lib.Ring
import Gsp.Lib.Word

/-!
# The call history of a thread

`ThreadCallHistory` of `Log.h` and `Log.cpp`: a ring of the signatures of the
last calls of a thread, dumped newest first. The running counter is never taken
modulo the size of the ring, only its uses as an index are.
-/

namespace Gsp.DummyClient

/-- `MAX_HISTORY`. -/
def maxHistory : ℕ := 1024

instance : NeZero maxHistory := ⟨by decide⟩

/-- A null pointer is `none`. -/
structure ThreadCallHistory where
  mCounter : ℕ
  mThreadId : ℤ
  mHistory : Vector (Option String) maxHistory

namespace ThreadCallHistory

/-- The array starts zeroed. -/
def construct (tid : ℤ) : ThreadCallHistory := ⟨0, tid, .replicate maxHistory none⟩

/-- `Append`; the counter is a `uint64_t`. -/
def append (history : ThreadCallHistory) (funsig : String) : ThreadCallHistory :=
  { history with
    mHistory := history.mHistory.set (Ring.slot maxHistory history.mCounter) (some funsig)
    mCounter := (history.mCounter + 1) % 2 ^ 64 }

/-- How many slots have been written. -/
def count (history : ThreadCallHistory) : ℕ :=
  if history.mCounter < maxHistory then history.mCounter else maxHistory

/-- `mHistory[(mCounter-i) % MAX_HISTORY]`. -/
def entry (history : ThreadCallHistory) (i : ℕ) : Option String :=
  history.mHistory.get (Ring.slot maxHistory (Word.sub64 history.mCounter i))

/-- The lines written for a thread and its signatures. -/
def report (mThreadId : ℤ) (signatures : List String) : List String :=
  ("===== Recent Call History [Thread:" ++ toString mThreadId ++ "]") ::
    (signatures.map ("   " ++ ·) ++ ["===== End of Recent Call History", ""])

/-- `DumpOut`, line by line. There is no result if a null pointer is written out. -/
def dumpOut (history : ThreadCallHistory) : Option (List String) := do
  let signatures ← (List.range' 1 history.count).mapM history.entry
  some (report history.mThreadId signatures)

/-- A history after these calls of `Append`. -/
def ofCalls (tid : ℤ) (signatures : List String) : ThreadCallHistory :=
  signatures.foldl append (construct tid)

/-! ## The ring and the bounded list -/

/-- The ring after these signatures have been appended. -/
structure Keeps (tid : ℤ) (history : ThreadCallHistory) (signatures : List String) : Prop where
  counter : history.mCounter = signatures.length
  thread : history.mThreadId = tid
  holds : Ring.Holds history.mHistory signatures

variable {tid : ℤ} {history : ThreadCallHistory} {signatures : List String}

theorem Keeps.construct (tid : ℤ) : Keeps tid (construct tid) [] :=
  ⟨rfl, rfl, .nil _⟩

theorem Keeps.append (keeps : Keeps tid history signatures)
    (few : signatures.length + 1 < 2 ^ 64) (funsig : String) :
    Keeps tid (history.append funsig) (signatures ++ [funsig]) := by
  constructor
  · change (history.mCounter + 1) % 2 ^ 64 = _
    rw [List.length_append, List.length_singleton, keeps.counter]
    exact Nat.mod_eq_of_lt few
  · exact keeps.thread
  · exact keeps.holds.push keeps.counter funsig

theorem Keeps.ofCalls (tid : ℤ) (few : signatures.length < 2 ^ 64) :
    Keeps tid (.ofCalls tid signatures) signatures := by
  induction signatures using List.reverseRecOn with
  | nil => exact .construct tid
  | append_singleton signatures funsig ih =>
      rw [List.length_append, List.length_singleton] at few
      rw [ThreadCallHistory.ofCalls, List.foldl_append, List.foldl_cons, List.foldl_nil]
      exact (ih (Nat.lt_of_succ_lt few)).append few funsig

theorem Keeps.count_eq (keeps : Keeps tid history signatures) :
    history.count = (signatures.reverse.take maxHistory).length := by
  rw [List.length_take, List.length_reverse, count, keeps.counter]
  split <;> omega

/-- The index of the loop does not wrap, and its slot holds the signature. -/
theorem Keeps.entry_eq (keeps : Keeps tid history signatures) (few : signatures.length < 2 ^ 64)
    {i : ℕ} (positive : 1 ≤ i) (within : i ≤ history.count) :
    i ≤ history.mCounter ∧ history.entry i = signatures.reverse[i - 1]? := by
  rw [keeps.count_eq, List.length_take, List.length_reverse] at within
  have small : i ≤ maxHistory := within.trans (Nat.min_le_left ..)
  have old : i ≤ signatures.length := within.trans (Nat.min_le_right ..)
  refine ⟨by rwa [keeps.counter], ?_⟩
  rw [entry, keeps.counter, Word.sub64_eq old (by omega)]
  exact keeps.holds.get_back positive old small

theorem Keeps.dumpOut_eq (keeps : Keeps tid history signatures)
    (few : signatures.length < 2 ^ 64) :
    history.dumpOut = some (report tid (signatures.reverse.take maxHistory)) := by
  have read : (List.range' 1 history.count).mapM history.entry =
      some (signatures.reverse.take maxHistory) := by
    rw [keeps.count_eq]
    apply Ring.mapM_range'
    intro index less
    rw [← keeps.count_eq] at less
    have within : 1 + index ≤ history.count := by omega
    have below : index < maxHistory := by
      rw [keeps.count_eq, List.length_take] at less
      exact less.trans_le (Nat.min_le_left ..)
    rw [(keeps.entry_eq few (Nat.le_add_right 1 index) within).2, Nat.add_sub_cancel_left,
      List.getElem?_take_of_lt below]
  rw [dumpOut, read, keeps.thread]
  rfl

/-- After fewer than `2 ^ 64` appends a dump shows the bounded list of the last
signatures, newest first. Each index that it computes is a difference of the
counter and a smaller number, and leads to a slot that has been written. -/
theorem dumpOut_ofCalls (tid : ℤ) (few : signatures.length < 2 ^ 64) :
    (ofCalls tid signatures).dumpOut =
        some (report tid (signatures.reverse.take maxHistory)) ∧
      signatures.foldl (Ring.push maxHistory) [] = signatures.reverse.take maxHistory ∧
      ∀ i, 1 ≤ i → i ≤ (ofCalls tid signatures).count →
        i ≤ (ofCalls tid signatures).mCounter ∧ ((ofCalls tid signatures).entry i).isSome := by
  have keeps := Keeps.ofCalls tid few
  refine ⟨keeps.dumpOut_eq few, Ring.foldl_push maxHistory signatures, ?_⟩
  intro i positive within
  rcases keeps.entry_eq few positive within with ⟨below, entry_eq⟩
  refine ⟨below, ?_⟩
  rw [keeps.counter] at below
  have less : i - 1 < signatures.reverse.length := by
    rw [List.length_reverse]
    omega
  rw [entry_eq, List.getElem?_eq_getElem less, Option.isSome_some]

/-- One signature more than there are slots: the first one is gone. -/
theorem dumpOut_ofCalls_wrapped :
    (ofCalls 7 ("main" :: List.replicate maxHistory "run")).dumpOut =
      some (report 7 (List.replicate maxHistory "run")) := by
  have few : ("main" :: List.replicate maxHistory "run").length < 2 ^ 64 := by
    rw [List.length_cons, List.length_replicate]
    decide
  have last_eq : ("main" :: List.replicate maxHistory "run").reverse.take maxHistory =
      List.replicate maxHistory "run" := by
    rw [List.reverse_cons, List.reverse_replicate]
    exact List.take_left' List.length_replicate
  have dumped := (dumpOut_ofCalls 7 few).1
  rwa [last_eq] at dumped

end ThreadCallHistory

end Gsp.DummyClient
