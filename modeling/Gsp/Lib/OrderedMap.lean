import Mathlib.Algebra.Order.Ring.Int
import Mathlib.Data.List.Basic
import Mathlib.Order.Basic

/-!
# Ordered maps

`std::map` as the list of its entries in increasing order of their keys. An
insertion keeps an entry that is already there. A sweep is the loop which visits
the entries in order and, at each, changes its value or erases it and goes on
behind it; its iterator splits the entries into those before it and the rest.
-/

universe u v

/-- A map as the list of its entries in the order of the keys. -/
structure OrderedMap (Key : Type u) [LinearOrder Key] (Value : Type v) where
  entries : List (Key × Value)
  sorted : entries.Pairwise fun first second => first.1 < second.1

namespace OrderedMap

variable {Key : Type u} [LinearOrder Key] {Value : Type v}

/-- No entries. -/
def empty : OrderedMap Key Value := ⟨[], .nil⟩

/-! ## Insertion -/

/-- A new entry takes its place; an old one stays. -/
def insertEntry (key : Key) (value : Value) : List (Key × Value) → List (Key × Value)
  | [] => [(key, value)]
  | entry :: rest =>
      if key < entry.1 then (key, value) :: entry :: rest
      else if key = entry.1 then entry :: rest
      else entry :: insertEntry key value rest

/-- A new entry has a key that no old one has. -/
theorem mem_insertEntry {key : Key} {value : Value} {entries : List (Key × Value)}
    (sorted : entries.Pairwise fun first second => first.1 < second.1) (entry : Key × Value) :
    entry ∈ insertEntry key value entries ↔
      entry ∈ entries ∨ entry = (key, value) ∧ ∀ other ∈ entries, other.1 ≠ key := by
  induction entries with
  | nil => simp [insertEntry]
  | cons first rest ih =>
      rw [List.pairwise_cons] at sorted
      rcases sorted with ⟨least, sortedRest⟩
      rw [insertEntry, List.forall_mem_cons]
      by_cases before : key < first.1
      · have unused : first.1 ≠ key ∧ ∀ other ∈ rest, other.1 ≠ key :=
          ⟨before.ne', fun other otherMem => (before.trans (least other otherMem)).ne'⟩
        rw [if_pos before, List.mem_cons, or_comm, and_iff_left unused]
      · by_cases here : key = first.1
        · rw [if_neg before, if_pos here]
          constructor
          · exact Or.inl
          · rintro (old | ⟨_, unused, _⟩)
            · exact old
            · exact absurd here.symm unused
        · rw [if_neg before, if_neg here, List.mem_cons, ih sortedRest, List.mem_cons, or_assoc,
            and_iff_right (Ne.symm here)]

theorem sorted_insertEntry {key : Key} {value : Value} {entries : List (Key × Value)}
    (sorted : entries.Pairwise fun first second => first.1 < second.1) :
    (insertEntry key value entries).Pairwise fun first second => first.1 < second.1 := by
  induction entries with
  | nil => exact List.pairwise_singleton ..
  | cons first rest ih =>
      have least := (List.pairwise_cons.mp sorted).1
      have sortedRest := (List.pairwise_cons.mp sorted).2
      rw [insertEntry]
      split
      · rename_i before
        refine List.pairwise_cons.mpr ⟨?_, sorted⟩
        intro entry entryMem
        rcases List.mem_cons.mp entryMem with rfl | later
        · exact before
        · exact before.trans (least entry later)
      · rename_i notBefore
        split
        · exact sorted
        · rename_i notHere
          refine List.pairwise_cons.mpr ⟨?_, ih sortedRest⟩
          intro entry entryMem
          rcases (mem_insertEntry sortedRest entry).mp entryMem with later | ⟨rfl, _⟩
          · exact least entry later
          · exact lt_of_le_of_ne (not_lt.mp notBefore) (Ne.symm notHere)

/-- `insert` of `std::map`. -/
def insert (key : Key) (value : Value) (map : OrderedMap Key Value) : OrderedMap Key Value :=
  ⟨insertEntry key value map.entries, sorted_insertEntry map.sorted⟩

/-- Inserting leaves a key that is there alone. -/
theorem mem_insert {key : Key} {value : Value} {map : OrderedMap Key Value}
    (entry : Key × Value) :
    entry ∈ (map.insert key value).entries ↔
      entry ∈ map.entries ∨ entry = (key, value) ∧ ∀ other ∈ map.entries, other.1 ≠ key :=
  mem_insertEntry map.sorted entry

/-! ## Lookup -/

/-- The value of a key. -/
def find (key : Key) (map : OrderedMap Key Value) : Option Value :=
  (map.entries.find? (·.1 = key)).map Prod.snd

theorem mem_of_find {key : Key} {value : Value} {map : OrderedMap Key Value}
    (found : map.find key = some value) : (key, value) ∈ map.entries := by
  rcases Option.map_eq_some_iff.mp found with ⟨⟨other, _⟩, first, rfl⟩
  have same := List.find?_some first
  rw [decide_eq_true_eq] at same
  subst same
  exact List.mem_of_find?_eq_some first

/-! ## Removal -/

/-- Drops the entry of a key. -/
def erase (key : Key) (map : OrderedMap Key Value) : OrderedMap Key Value :=
  ⟨map.entries.filter (·.1 ≠ key), map.sorted.filter _⟩

/-- `map[key] = value`. -/
def assign (key : Key) (value : Value) (map : OrderedMap Key Value) : OrderedMap Key Value :=
  (map.erase key).insert key value

theorem mem_of_mem_erase {key : Key} {map : OrderedMap Key Value} {entry : Key × Value}
    (entryMem : entry ∈ (map.erase key).entries) : entry ∈ map.entries :=
  List.mem_of_mem_filter entryMem

theorem mem_of_mem_assign {key : Key} {value : Value} {map : OrderedMap Key Value}
    {entry : Key × Value} (entryMem : entry ∈ (map.assign key value).entries) :
    entry ∈ map.entries ∨ entry = (key, value) := by
  rcases (mem_insert entry).mp entryMem with old | ⟨new, _⟩
  · exact Or.inl (mem_of_mem_erase old)
  · exact Or.inr new

/-! ## Sweeps -/

/-- The loop from an iterator on. -/
def sweepFrom (visit : Value → Option Value) (front : List (Key × Value)) :
    List (Key × Value) → List (Key × Value)
  | [] => front
  | (key, value) :: rest =>
      match visit value with
      | none => sweepFrom visit front rest
      | some value => sweepFrom visit (front ++ [(key, value)]) rest

/-- An entry with its value changed, unless it is erased. -/
def visitEntry (visit : Value → Option Value) (entry : Key × Value) : Option (Key × Value) :=
  (visit entry.2).map (entry.1, ·)

omit [LinearOrder Key] in
theorem sweepFrom_eq (visit : Value → Option Value) (front rest : List (Key × Value)) :
    sweepFrom visit front rest = front ++ rest.filterMap (visitEntry visit) := by
  induction rest generalizing front with
  | nil => exact (List.append_nil front).symm
  | cons entry rest ih =>
      rcases entry with ⟨key, value⟩
      cases visited : visit value with
      | none =>
          have erased : visitEntry visit (key, value) = none := by simp [visitEntry, visited]
          simp only [sweepFrom, visited]
          rw [ih, List.filterMap_cons_none erased]
      | some next =>
          have kept : visitEntry visit (key, value) = some (key, next) := by
            simp [visitEntry, visited]
          simp only [sweepFrom, visited]
          rw [ih, List.filterMap_cons_some kept, List.append_assoc, List.singleton_append]

theorem sorted_sweepFrom (visit : Value → Option Value) {entries : List (Key × Value)}
    (sorted : entries.Pairwise fun first second => first.1 < second.1) :
    (sweepFrom visit [] entries).Pairwise fun first second => first.1 < second.1 := by
  rw [sweepFrom_eq, List.nil_append]
  apply sorted.filterMap
  rintro first second before _ firstVisited _ secondVisited
  rcases Option.map_eq_some_iff.mp firstVisited with ⟨_, _, rfl⟩
  rcases Option.map_eq_some_iff.mp secondVisited with ⟨_, _, rfl⟩
  exact before

/-- Visits all entries in order; an entry stays with its new value or is dropped. -/
def sweep (visit : Value → Option Value) (map : OrderedMap Key Value) : OrderedMap Key Value :=
  ⟨sweepFrom visit [] map.entries, sorted_sweepFrom visit map.sorted⟩

/-- A sweep keeps what its visit keeps. -/
theorem mem_sweep {visit : Value → Option Value} {map : OrderedMap Key Value} {key : Key}
    {next : Value} :
    (key, next) ∈ (map.sweep visit).entries ↔
      ∃ value, (key, value) ∈ map.entries ∧ visit value = some next := by
  change (key, next) ∈ sweepFrom visit [] map.entries ↔ _
  rw [sweepFrom_eq, List.nil_append, List.mem_filterMap]
  constructor
  · rintro ⟨⟨_, value⟩, entryMem, visited⟩
    rcases Option.map_eq_some_iff.mp visited with ⟨_, visited, same⟩
    cases same
    exact ⟨value, entryMem, visited⟩
  · rintro ⟨value, entryMem, visited⟩
    exact ⟨(key, value), entryMem, Option.map_eq_some_iff.mpr ⟨next, visited, rfl⟩⟩

end OrderedMap
