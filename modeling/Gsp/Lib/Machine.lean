import Mathlib.Algebra.Order.Ring.Int
import Mathlib.Data.List.Basic
import Gsp.Lib.Except

/-!
# Labelled machines

A machine is a set of initial states and a labelled step relation. This file
collects the induction rules used over whole runs: an invariant of every
reachable state, a forward simulation, and the rule which splits a property of
all states of a run into a condition on each of its steps. A step function with
errors is run by `follow`.
-/

universe u v w

/-! One or two processes are numbered by `Fin` literals. -/

instance oneProcess : NeZero 1 := ⟨Nat.one_ne_zero⟩

instance twoProcesses : NeZero 2 := ⟨Nat.succ_ne_zero 1⟩

/-- Initial states and labelled steps. -/
structure Machine (State : Type u) (Label : Type v) where
  /-- The states a run may start from. -/
  Initial : State → Prop
  /-- One labelled step. -/
  Step : State → Label → State → Prop

namespace Machine

variable {State : Type u} {Label : Type v} {machine : Machine State Label}

/-- A finite run; the list holds the state before each step and its label. -/
inductive Run (machine : Machine State Label) : State → List (State × Label) → State → Prop where
  | nil (state : State) : machine.Run state [] state
  | snoc {first middle last : State} {steps : List (State × Label)} {label : Label}
      (run : machine.Run first steps middle) (step : machine.Step middle label last) :
      machine.Run first (steps ++ [(middle, label)]) last

theorem Run.cons {first middle last : State} {steps : List (State × Label)} {label : Label}
    (step : machine.Step first label middle) (run : machine.Run middle steps last) :
    machine.Run first ((first, label) :: steps) last := by
  induction run with
  | nil => exact (Run.nil first).snoc step
  | snoc _ next ih => exact ih.snoc next

/-- Runs that meet are one run. -/
theorem Run.append {first middle last : State} {earlier later : List (State × Label)}
    (front : machine.Run first earlier middle) (back : machine.Run middle later last) :
    machine.Run first (earlier ++ later) last := by
  induction back with
  | nil => rwa [List.append_nil]
  | snoc _ step ih =>
      rw [← List.append_assoc]
      exact ih.snoc step

/-- Runs a step function until it refuses a label. -/
def follow {Refusal : Type w} (next : State → Label → Except Refusal State) (state : State) :
    List Label → Except Refusal State
  | [] => .ok state
  | label :: labels => do
      let state ← next state label
      follow next state labels

/-- Following labels is a run, whose steps have what each successful step has. -/
theorem exists_run_of_follow {Refusal : Type w} {next : State → Label → Except Refusal State}
    {Fine : State → Label → Prop}
    (stepped : ∀ before label after, next before label = .ok after →
      machine.Step before label after ∧ Fine before label)
    {first last : State} {labels : List Label} (followed : follow next first labels = .ok last) :
    ∃ steps, machine.Run first steps last ∧ steps.map Prod.snd = labels ∧
      ∀ step ∈ steps, Fine step.1 step.2 := by
  induction labels generalizing first with
  | nil =>
      cases followed
      exact ⟨[], .nil _, rfl, by simp⟩
  | cons label labels ih =>
      rcases Except.bind_eq_ok.mp followed with ⟨middle, made, rest⟩
      rcases ih rest with ⟨steps, run, same, fine⟩
      rcases stepped _ _ _ made with ⟨step, now⟩
      exact ⟨(first, label) :: steps, run.cons step, by simp [same],
        List.forall_mem_cons.mpr ⟨now, fine⟩⟩

/-- Given labels make up a run that ends in a state that passes a check. -/
theorem exists_run_of_check {Refusal : Type w} {next : State → Label → Except Refusal State}
    {Fine : State → Label → Prop}
    (stepped : ∀ before label after, next before label = .ok after →
      machine.Step before label after ∧ Fine before label)
    {first : State} {labels : List Label} {check : State → Bool}
    (checked : (follow next first labels).toOption.any check = true) :
    ∃ steps last, machine.Run first steps last ∧ steps.map Prod.snd = labels ∧
      (∀ step ∈ steps, Fine step.1 step.2) ∧ check last = true := by
  cases followed : follow next first labels with
  | error _ =>
      rw [followed] at checked
      cases checked
  | ok last =>
      rw [followed] at checked
      rcases exists_run_of_follow stepped followed with ⟨steps, run, same, fine⟩
      exact ⟨steps, last, run, same, fine, checked⟩

/-- A function that follows the steps of a machine gives its runs. -/
theorem run_of_follow {Refusal : Type w} {next : State → Label → Except Refusal State}
    (stepped : ∀ before label after, next before label = .ok after →
      machine.Step before label after)
    {first last : State} {labels : List Label} (followed : follow next first labels = .ok last) :
    ∃ steps, machine.Run first steps last ∧ steps.map Prod.snd = labels := by
  have both : ∀ before label after, next before label = .ok after →
      machine.Step before label after ∧ True :=
    fun before label after step => ⟨stepped before label after step, trivial⟩
  rcases exists_run_of_follow both followed with ⟨steps, run, labels, _⟩
  exact ⟨steps, run, labels⟩

/-- The state ends some run from an initial state. -/
def Reachable (machine : Machine State Label) (state : State) : Prop :=
  ∃ first steps, machine.Initial first ∧ machine.Run first steps state

/-- The states a run goes through, its last one included. -/
def visited (steps : List (State × Label)) (last : State) : List State :=
  steps.map Prod.fst ++ [last]

theorem visited_append (earlier later : List (State × Label)) (last : State) :
    visited (earlier ++ later) last = earlier.map Prod.fst ++ visited later last := by
  rw [visited, visited, List.map_append, List.append_assoc]

theorem Run.first_mem {first last : State} {steps : List (State × Label)}
    (run : machine.Run first steps last) : first ∈ visited steps last := by
  induction run with
  | nil => exact List.mem_singleton_self _
  | snoc _ _ ih =>
      rw [visited_append]
      rcases List.mem_append.mp ih with earlier | here
      · exact List.mem_append_left _ earlier
      · rw [List.mem_singleton.mp here]
        exact List.mem_append_right _ List.mem_cons_self

theorem Reachable.ofInitial {state : State} (initial : machine.Initial state) :
    machine.Reachable state :=
  ⟨state, [], initial, .nil state⟩

/-- What can be reached is closed under steps. -/
theorem Reachable.step {state next : State} {label : Label}
    (reachable : machine.Reachable state) (step : machine.Step state label next) :
    machine.Reachable next := by
  rcases reachable with ⟨first, steps, initial, run⟩
  exact ⟨first, steps ++ [(state, label)], initial, run.snoc step⟩

theorem Reachable.follow {Refusal : Type w} {next : State → Label → Except Refusal State}
    {state last : State} {labels : List Label} (reachable : machine.Reachable state)
    (stepped : ∀ before label after, next before label = .ok after →
      machine.Step before label after)
    (followed : Machine.follow next state labels = .ok last) : machine.Reachable last := by
  induction labels generalizing state with
  | nil =>
      cases followed
      exact reachable
  | cons label labels ih =>
      rcases Except.bind_eq_ok.mp followed with ⟨middle, step, rest⟩
      exact ih (reachable.step (stepped _ _ _ step)) rest

/-- Given labels lead to a reachable state that passes a check. -/
theorem Reachable.exists_of_check {Refusal : Type w}
    {next : State → Label → Except Refusal State} {state : State} {labels : List Label}
    {check : State → Bool} (reachable : machine.Reachable state)
    (stepped : ∀ before label after, next before label = .ok after →
      machine.Step before label after)
    (checked : (Machine.follow next state labels).toOption.any check = true) :
    ∃ last, machine.Reachable last ∧ check last = true := by
  cases followed : Machine.follow next state labels with
  | error _ =>
      rw [followed] at checked
      cases checked
  | ok last =>
      rw [followed] at checked
      exact ⟨last, reachable.follow stepped followed, checked⟩

/-- The steps of a run are steps from reachable states. -/
theorem Run.step_of_mem {first last : State} {steps : List (State × Label)}
    (run : machine.Run first steps last) (initial : machine.Initial first) :
    ∀ step ∈ steps, machine.Reachable step.1 ∧ ∃ next, machine.Step step.1 step.2 next := by
  induction run with
  | nil => simp
  | snoc run step ih =>
      refine List.forall_mem_append.mpr ⟨ih, List.forall_mem_singleton.mpr ?_⟩
      exact ⟨⟨_, _, initial, run⟩, _, step⟩

/-- A step of a run ends a run. -/
theorem Run.split {first last before : State} {label : Label}
    {steps earlier later : List (State × Label)} (run : machine.Run first steps last)
    (split : steps = earlier ++ (before, label) :: later) :
    machine.Run first earlier before ∧
      ∃ after, machine.Step before label after ∧ machine.Run after later last := by
  induction run generalizing later with
  | nil => exact absurd split (by simp)
  | @snoc middle last steps entering run step ih =>
      rcases List.eq_nil_or_concat later with rfl | ⟨rest, final, rfl⟩
      · rcases List.append_inj' split rfl with ⟨rfl, same⟩
        cases same
        exact ⟨run, last, step, .nil last⟩
      · rw [List.concat_eq_append, ← List.cons_append, ← List.append_assoc] at split
        rcases List.append_inj' split rfl with ⟨shorter, same⟩
        cases same
        rcases ih shorter with ⟨front, after, made, back⟩
        rw [List.concat_eq_append]
        exact ⟨front, after, made, back.snoc step⟩

theorem Run.eq_of_nil {first last : State} (run : machine.Run first [] last) : last = first := by
  generalize none : ([] : List (State × Label)) = steps at run
  cases run with
  | nil => rfl
  | snoc run step => simp at none

theorem Run.head_eq {first last before : State} {label : Label} {later : List (State × Label)}
    (run : machine.Run first ((before, label) :: later) last) : before = first :=
  (run.split (List.nil_append _).symm).1.eq_of_nil

/-- A state that a run goes through ends a run. -/
theorem Run.exists_front {first last state : State} {steps : List (State × Label)}
    (run : machine.Run first steps last) (passed : state ∈ visited steps last) :
    ∃ earlier later, steps = earlier ++ later ∧ machine.Run first earlier state := by
  rcases List.mem_append.mp passed with before | final
  · rcases List.mem_map.mp before with ⟨step, stepMem, rfl⟩
    rcases List.append_of_mem stepMem with ⟨earlier, later, split⟩
    exact ⟨earlier, step :: later, split, (run.split split).1⟩
  · rw [List.mem_singleton.mp final]
    exact ⟨steps, [], (List.append_nil steps).symm, run⟩

/-- A property kept by every step from a reachable state is kept by every run. -/
theorem Run.keeps {Holds : State → Prop} {first last : State} {steps : List (State × Label)}
    (run : machine.Run first steps last) (reachable : machine.Reachable first) (holds : Holds first)
    (preserved : ∀ before label after, machine.Reachable before → Holds before →
      machine.Step before label after → Holds after) : machine.Reachable last ∧ Holds last := by
  induction run with
  | nil => exact ⟨reachable, holds⟩
  | snoc run step ih =>
      rcases ih with ⟨reached, held⟩
      exact ⟨reached.step step, preserved _ _ _ reached held step⟩

/-- A property of the initial states kept by every step holds in every reachable state. -/
theorem Reachable.invariant {Holds : State → Prop} {state : State}
    (reachable : machine.Reachable state)
    (initially : ∀ first, machine.Initial first → Holds first)
    (preserved : ∀ before label after, machine.Reachable before → Holds before →
      machine.Step before label after → Holds after) : Holds state := by
  rcases reachable with ⟨first, steps, initial, run⟩
  exact (run.keeps (.ofInitial initial) (initially first initial) preserved).2

/-- A forward simulation carries every run to a run of the simulating machine
with the same labels. -/
theorem Run.simulate {Abstract : Type w} (abstract : Machine Abstract Label)
    (Related : State → Abstract → Prop) {first last : State} {start : Abstract}
    {steps : List (State × Label)} (run : machine.Run first steps last)
    (related : Related first start)
    (forward : ∀ state image label next, Related state image → machine.Step state label next →
      ∃ target, abstract.Step image label target ∧ Related next target) :
    ∃ images target, abstract.Run start images target ∧ Related last target ∧
      images.map Prod.snd = steps.map Prod.snd := by
  induction run with
  | nil => exact ⟨[], start, .nil start, related, rfl⟩
  | snoc run step ih =>
      rcases ih with ⟨images, image, imageRun, imageRelated, labels⟩
      rcases forward _ _ _ _ imageRelated step with ⟨target, imageStep, targetRelated⟩
      exact ⟨_, target, imageRun.snoc imageStep, targetRelated, by simp [labels]⟩

/-- A run whose steps are all fine stays good. -/
theorem Run.good_of_fine {Good : State → Prop} {Fine : State → Label → Prop}
    {first last : State} {steps : List (State × Label)}
    (run : machine.Run first steps last) (initial : machine.Initial first)
    (initially : Good first)
    (preserved : ∀ before label after, machine.Reachable before → Good before →
      machine.Step before label after → Fine before label → Good after)
    (fine : ∀ step ∈ steps, Fine step.1 step.2) : ∀ state ∈ visited steps last, Good state := by
  induction run with
  | nil => simpa [visited] using initially
  | @snoc middle last steps label run step ih =>
      have earlier := ih fun step stepMem => fine step (List.mem_append_left _ stepMem)
      have middleGood := earlier middle (List.mem_append_right _ List.mem_cons_self)
      have now := fine (middle, label) (List.mem_append_right _ List.mem_cons_self)
      simp only [visited, List.map_append, List.map_cons, List.map_nil, List.forall_mem_append,
        List.forall_mem_singleton] at earlier ⊢
      exact ⟨earlier, preserved _ _ _ ⟨_, _, initial, run⟩ middleGood step now⟩

/-- If a run stays good as long as its steps are fine, good states show it, and
the state after the first step that is not fine does not, then all states of a run
show it exactly when all its steps are fine. -/
theorem Run.shown_iff_fine {Good Shown : State → Prop} {Fine : State → Label → Prop}
    {first last : State} {steps : List (State × Label)}
    (run : machine.Run first steps last) (initial : machine.Initial first)
    (initially : Good first) (shown_of_good : ∀ state, Good state → Shown state)
    (stays : ∀ before label after, machine.Reachable before → Good before →
      machine.Step before label after → Fine before label → Good after)
    (leaves : ∀ before label after, machine.Reachable before → Good before →
      machine.Step before label after → Shown after → Fine before label) :
    (∀ state ∈ visited steps last, Shown state) ↔ ∀ step ∈ steps, Fine step.1 step.2 := by
  constructor
  · induction run with
    | nil => simp
    | @snoc middle last steps label run step ih =>
        intro shown
        simp only [visited, List.map_append, List.map_cons, List.map_nil, List.forall_mem_append,
          List.forall_mem_singleton] at shown ih ⊢
        have earlier := ih shown.1
        have good := run.good_of_fine initial initially stays earlier middle
          (List.mem_append_right _ List.mem_cons_self)
        exact ⟨earlier, leaves _ _ _ ⟨_, _, initial, run⟩ good step shown.2⟩
  · intro fine state stateMem
    exact shown_of_good state (run.good_of_fine initial initially stays fine state stateMem)

/-- If at every good reachable state a step leads to a good state exactly when
it is fine, then a run stays good exactly when all its steps are fine. -/
theorem Run.good_iff_fine {Good : State → Prop} {Fine : State → Label → Prop}
    {first last : State} {steps : List (State × Label)}
    (run : machine.Run first steps last) (initial : machine.Initial first)
    (initially : Good first)
    (exact_step : ∀ before label after, machine.Reachable before → Good before →
      machine.Step before label after → (Good after ↔ Fine before label)) :
    (∀ state ∈ visited steps last, Good state) ↔ ∀ step ∈ steps, Fine step.1 step.2 := by
  apply run.shown_iff_fine initial initially fun _ good => good
  · intro before label after reachable good step fine
    exact (exact_step before label after reachable good step).mpr fine
  · intro before label after reachable good step shown
    exact (exact_step before label after reachable good step).mp shown

/-- If a run stays good as long as its steps are fine, and the first step that is
not fine is visible in every later state, then its last state shows whether all
its steps were fine. -/
theorem Run.same_iff_fine {Good Same : State → Prop} {Fine : State → Label → Prop}
    {first last : State} {steps : List (State × Label)}
    (run : machine.Run first steps last) (initial : machine.Initial first)
    (initially : Good first) (same_of_good : ∀ state, Good state → Same state)
    (same_before : ∀ before label after, machine.Step before label after → Same after → Same before)
    (stays : ∀ before label after, machine.Reachable before → Good before →
      machine.Step before label after → Fine before label → Good after)
    (leaves : ∀ before label after, machine.Reachable before → Good before →
      machine.Step before label after → Same after → Fine before label) :
    Same last ↔ ∀ step ∈ steps, Fine step.1 step.2 := by
  constructor
  · induction run with
    | nil => simp
    | @snoc middle last steps label run step ih =>
        intro same
        have earlier := ih (same_before _ _ _ step same)
        have good := run.good_of_fine initial initially stays earlier middle
          (List.mem_append_right _ List.mem_cons_self)
        have now := leaves _ _ _ ⟨_, _, initial, run⟩ good step same
        exact List.forall_mem_append.mpr ⟨earlier, by simpa using now⟩
  · intro fine
    apply same_of_good
    exact run.good_of_fine initial initially stays fine last
      (List.mem_append_right _ List.mem_cons_self)

end Machine
