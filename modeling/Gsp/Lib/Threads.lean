import Mathlib.Logic.Function.Basic
import Gsp.Lib.Code
import Gsp.Lib.Machine

/-!
# Interleaved threads

Threads run code on a shared state, one operation at a time and in any order. A
thread whose code has ended starts again with the code of the mode it has ended
in.

Properties are proved thread by thread. Each thread has a ghost: what it holds
and knows. A `Discipline` relates the shared state to the ghosts of all threads
and says what every operation has to meet. Code is `Safe` from a ghost when each
operation meets this, in any shared state the other threads may have left behind,
and leaves the thread with a ghost from which the rest is safe. If the code of
every mode is safe, then every operation of every run meets its requirement.

What a discipline says may be about the past of a run: the logged program keeps the
operations performed so far beside its state.
-/

/-- What the threads run, and what their operations do. -/
structure Program (Thread Mode State Input Refusal : Type) {Op : Type} (Result : Op → Type) where
  /-- The code of a mode. -/
  body : Thread → Mode → Code Op Result Mode
  /-- An operation of a thread; the input stands for what the outside decides. -/
  perform : Thread → Input → (op : Op) → State → Except Refusal (Result op × State)

/-- The shared state and the code each thread still has to run. -/
structure Config (Thread Mode State : Type) {Op : Type} (Result : Op → Type) where
  state : State
  code : Thread → Code Op Result Mode

/-- An operation that a thread has performed, and the state before it. -/
structure Performed (Thread Input Op State : Type) where
  thread : Thread
  input : Input
  op : Op
  state : State

/-- A configuration with a log. -/
def Config.beside {Thread Mode State Log Op : Type} {Result : Op → Type}
    (config : Config Thread Mode State Result) (log : Log) :
    Config Thread Mode (State × Log) Result :=
  ⟨(config.state, log), config.code⟩

namespace Program

variable {Thread Mode State Input Refusal Op : Type} {Result : Op → Type} [DecidableEq Thread]

/-- One operation of a thread, or its change to the next code. -/
def step (program : Program Thread Mode State Input Refusal Result)
    (config : Config Thread Mode State Result) (label : Thread × Input) :
    Except Refusal (Config Thread Mode State Result) :=
  match config.code label.1 with
  | .done mode =>
      .ok { config with code := Function.update config.code label.1 (program.body label.1 mode) }
  | .call op next =>
      match program.perform label.1 label.2 op config.state with
      | .error refusal => .error refusal
      | .ok (result, state) => .ok ⟨state, Function.update config.code label.1 (next result)⟩

/-- A step goes on to the next code or performs an operation. -/
theorem step_cases {program : Program Thread Mode State Input Refusal Result}
    {config after : Config Thread Mode State Result} {thread : Thread} {input : Input}
    (step : program.step config (thread, input) = .ok after) :
    (∃ mode, config.code thread = .done mode ∧ after =
      { config with code := Function.update config.code thread (program.body thread mode) }) ∨
    ∃ op next result state, config.code thread = .call op next ∧
      program.perform thread input op config.state = .ok (result, state) ∧
      after = ⟨state, Function.update config.code thread (next result)⟩ := by
  simp only [Program.step] at step
  split at step
  · next mode about =>
      cases step
      exact Or.inl ⟨mode, about, rfl⟩
  · next op next about =>
      split at step
      · cases step
      · next result state performed =>
          cases step
          exact Or.inr ⟨op, next, result, state, about, performed, rfl⟩

theorem follow_done {program : Program Thread Mode State Input Refusal Result}
    {config : Config Thread Mode State Result}
    {last : Except Refusal (Config Thread Mode State Result)}
    {thread : Thread} {input : Input} {labels : List (Thread × Input)} {mode : Mode}
    (about : config.code thread = .done mode)
    (rest : Machine.follow program.step { config with
      code := Function.update config.code thread (program.body thread mode) } labels = last) :
    Machine.follow program.step config ((thread, input) :: labels) = last := by
  rw [Machine.follow, Program.step]
  simp only [about]
  exact rest

theorem follow_call {program : Program Thread Mode State Input Refusal Result}
    {config : Config Thread Mode State Result}
    {last : Except Refusal (Config Thread Mode State Result)}
    {thread : Thread} {input : Input} {labels : List (Thread × Input)} {op : Op}
    {next : Result op → Code Op Result Mode} {result : Result op} {state : State}
    (about : config.code thread = .call op next)
    (performed : program.perform thread input op config.state = .ok (result, state))
    (rest : Machine.follow program.step
      ⟨state, Function.update config.code thread (next result)⟩ labels = last) :
    Machine.follow program.step config ((thread, input) :: labels) = last := by
  rw [Machine.follow, Program.step]
  simp only [about, performed]
  exact rest

/-- All interleavings, from given states and modes. -/
def machine (program : Program Thread Mode State Input Refusal Result) (Starts : State → Prop)
    (mode : Thread → Mode) : Machine (Config Thread Mode State Result) (Thread × Input) where
  Initial config := Starts config.state ∧ ∀ thread, config.code thread = .done (mode thread)
  Step before label after := program.step before label = .ok after

/-- What the ghosts mean, which operations are considered and what they have to meet. -/
structure Discipline (Thread State Op Ghost : Type) where
  Inv : State → (Thread → Ghost) → Prop
  Allowed : Thread → Op → State → Prop
  Fine : Thread → Op → State → Prop

variable {Ghost : Type} (program : Program Thread Mode State Input Refusal Result)
  (discipline : Discipline Thread State Op Ghost)

/-- From the ghost the operation is fine, and it leads to a ghost as described. -/
def Steps (thread : Thread) (op : Op) (ghost : Ghost) (post : Result op → Ghost → Prop) : Prop :=
  ∀ state ghosts, discipline.Inv state ghosts → ghosts thread = ghost →
    discipline.Fine thread op state ∧
    ∀ input result after, discipline.Allowed thread op state →
      program.perform thread input op state = .ok (result, after) →
      ∃ next, discipline.Inv after (Function.update ghosts thread next) ∧ post result next

/-- Every operation of the code steps, and the code ends as described. -/
def Safe (thread : Thread) {Value : Type} :
    Code Op Result Value → Ghost → (Value → Ghost → Prop) → Prop
  | .done value, ghost, post => post value ghost
  | .call op next, ghost, post =>
      program.Steps discipline thread op ghost fun result after =>
        Safe thread (next result) after post

variable {program discipline} {thread : Thread} {Value Other : Type} {ghost : Ghost}

/-- A step may promise less. -/
theorem Steps.mono {op : Op} {post others : Result op → Ghost → Prop}
    (steps : program.Steps discipline thread op ghost post)
    (weaker : ∀ result next, post result next → others result next) :
    program.Steps discipline thread op ghost others := by
  intro state ghosts inv held
  rcases steps state ghosts inv held with ⟨fine, goes⟩
  refine ⟨fine, ?_⟩
  intro input result after allowed performed
  rcases goes input result after allowed performed with ⟨next, kept, holds⟩
  exact ⟨next, kept, weaker result next holds⟩

theorem Safe.mono {code : Code Op Result Value} {post others : Value → Ghost → Prop}
    (safe : program.Safe discipline thread code ghost post)
    (weaker : ∀ value after, post value after → others value after) :
    program.Safe discipline thread code ghost others := by
  induction code generalizing ghost with
  | done value => exact weaker value ghost safe
  | call op next ih => exact Steps.mono safe fun result _ later => ih result later

/-- One after the other. -/
theorem Safe.bind {code : Code Op Result Value} {next : Value → Code Op Result Other}
    {middle : Value → Ghost → Prop} {post : Other → Ghost → Prop}
    (first : program.Safe discipline thread code ghost middle)
    (second : ∀ value after, middle value after →
      program.Safe discipline thread (next value) after post) :
    program.Safe discipline thread (code >>= next) ghost post := by
  induction code generalizing ghost with
  | done value => exact second value ghost first
  | call op rest ih => exact Steps.mono first fun result _ later => ih result later

/-- A value that meets the postcondition is safe. -/
theorem safe_pure {value : Value} {post : Value → Ghost → Prop} (holds : post value ghost) :
    program.Safe discipline thread (pure value) ghost post :=
  holds

variable (program discipline)

/-- Every thread is safe with the ghost it has. -/
def Sound (ends : Thread → Mode → Ghost → Prop) (config : Config Thread Mode State Result) : Prop :=
  ∃ ghosts, discipline.Inv config.state ghosts ∧
    ∀ thread, program.Safe discipline thread (config.code thread) (ghosts thread) (ends thread)

variable {program discipline} {ends : Thread → Mode → Ghost → Prop}
  {config : Config Thread Mode State Result}

theorem Sound.fine (sound : program.Sound discipline ends config) {op : Op}
    {next : Result op → Code Op Result Mode} (about : config.code thread = .call op next) :
    discipline.Fine thread op config.state := by
  rcases sound with ⟨ghosts, inv, safe⟩
  have now := safe thread
  rw [about] at now
  exact (now config.state ghosts inv rfl).1

/-- The step of a thread is considered when its operation is. -/
def AllowedStep (discipline : Discipline Thread State Op Ghost)
    (config : Config Thread Mode State Result) (label : Thread × Input) : Prop :=
  ∀ op, (config.code label.1).nextOp = some op → discipline.Allowed label.1 op config.state

/-- A step of a sound program leads to a sound one. -/
theorem Sound.step (bodies : ∀ thread mode ghost, ends thread mode ghost →
      program.Safe discipline thread (program.body thread mode) ghost (ends thread))
    (sound : program.Sound discipline ends config) {label : Thread × Input}
    {after : Config Thread Mode State Result}
    (allowed : AllowedStep discipline config label) (step : program.step config label = .ok after) :
    program.Sound discipline ends after := by
  rcases label with ⟨thread, input⟩
  rcases sound with ⟨ghosts, inv, safe⟩
  have mine := safe thread
  have others {code : Code Op Result Mode} {next : Ghost}
      (own : program.Safe discipline thread code next (ends thread)) (other : Thread) :
      program.Safe discipline other (Function.update config.code thread code other)
        (Function.update ghosts thread next other) (ends other) := by
    by_cases same : other = thread
    · subst same
      rwa [Function.update_self, Function.update_self]
    · rw [Function.update_of_ne same, Function.update_of_ne same]
      exact safe other
  rcases step_cases step with ⟨mode, about, rfl⟩ | ⟨op, next, result, state, about, performed, rfl⟩
  · rw [about] at mine
    refine ⟨ghosts, inv, ?_⟩
    have kept := others (bodies thread mode _ mine)
    rwa [Function.update_eq_self] at kept
  · rw [about] at mine
    have now := allowed op (congrArg Code.nextOp about)
    rcases (mine config.state ghosts inv rfl).2 input result state now performed with
      ⟨later, kept, rest⟩
    exact ⟨_, kept, others rest⟩

/-- When every operation is considered, every operation of every run is fine. -/
theorem sound_of_reachable {Starts : State → Prop} {mode : Thread → Mode}
    (everything : ∀ thread op state, discipline.Allowed thread op state)
    (bodies : ∀ thread mode ghost, ends thread mode ghost →
      program.Safe discipline thread (program.body thread mode) ghost (ends thread))
    (starts : ∀ state, Starts state → ∃ ghosts, discipline.Inv state ghosts ∧
      ∀ thread, ends thread (mode thread) (ghosts thread))
    (reachable : (program.machine Starts mode).Reachable config) :
    program.Sound discipline ends config := by
  apply reachable.invariant
  · rintro first ⟨initial, modes⟩
    rcases starts first.state initial with ⟨ghosts, inv, ready⟩
    refine ⟨ghosts, inv, ?_⟩
    intro thread
    rw [modes thread]
    exact ready thread
  · intro before label after _ sound step
    exact sound.step bodies (fun op _ => everything label.1 op before.state) step

/-! ## Logs -/

section Logged

/-- The program with the operations performed so far beside its state. -/
def logged (program : Program Thread Mode State Input Refusal Result) :
    Program Thread Mode (State × List (Performed Thread Input Op State)) Input Refusal
      Result where
  body := program.body
  perform thread input op logged :=
    (program.perform thread input op logged.1).map fun performed =>
      (performed.1, performed.2, logged.2 ++ [⟨thread, input, op, logged.1⟩])

/-- The operations of a run. -/
def performed (steps : List (Config Thread Mode State Result × (Thread × Input))) :
    List (Performed Thread Input Op State) :=
  steps.filterMap fun step =>
    (step.1.code step.2.1).nextOp.map fun op => ⟨step.2.1, step.2.2, op, step.1.state⟩

omit [DecidableEq Thread] in
theorem performed_append
    (earlier later : List (Config Thread Mode State Result × (Thread × Input))) :
    performed (earlier ++ later) = performed earlier ++ performed later :=
  List.filterMap_append

variable {program : Program Thread Mode State Input Refusal Result}
  {discipline : Discipline Thread (State × List (Performed Thread Input Op State)) Op Ghost}
  {config after first last : Config Thread Mode State Result}
  {steps : List (Config Thread Mode State Result × (Thread × Input))}

omit [DecidableEq Thread] in
theorem logged_perform {input : Input} {op : Op} {state : State}
    {log : List (Performed Thread Input Op State)} {result : Result op}
    {later : State × List (Performed Thread Input Op State)}
    (made : program.logged.perform thread input op (state, log) = .ok (result, later)) :
    ∃ next, program.perform thread input op state = .ok (result, next) ∧
      later = (next, log ++ [⟨thread, input, op, state⟩]) := by
  simp only [logged] at made
  cases performed : program.perform thread input op state with
  | error refusal =>
      rw [performed] at made
      cases made
  | ok value =>
      rw [performed] at made
      cases made
      exact ⟨value.2, rfl, rfl⟩

/-- Every step can be logged. -/
theorem logged_step {label : Thread × Input} (step : program.step config label = .ok after)
    (log : List (Performed Thread Input Op State)) :
    program.logged.step (config.beside log) label =
      .ok (after.beside (log ++ performed [(config, label)])) := by
  rcases label with ⟨thread, input⟩
  rcases step_cases step with ⟨mode, about, rfl⟩ | ⟨op, next, result, state, about, made, rfl⟩
  · simp only [Program.step, Config.beside, about, logged, performed, List.filterMap, Code.nextOp,
      Option.map_none, List.append_nil]
  · simp only [Program.step, Config.beside, about, logged, made, performed, List.filterMap,
      Code.nextOp, Option.map_some, Except.map]

/-- Along a run whose operations are all considered the logged program stays sound. -/
theorem sound_of_run {Starts : State → Prop} {mode : Thread → Mode}
    (run : (program.machine Starts mode).Run first steps last)
    (bodies : ∀ thread mode ghost, ends thread mode ghost →
      program.logged.Safe discipline thread (program.body thread mode) ghost (ends thread))
    (sound : program.logged.Sound discipline ends (first.beside []))
    (allowed : ∀ step ∈ steps, ∀ log, AllowedStep discipline (step.1.beside log) step.2) :
    program.logged.Sound discipline ends (last.beside (performed steps)) := by
  induction run with
  | nil => exact sound
  | @snoc middle last steps label run step ih =>
      have earlier := ih fun step stepMem => allowed step (List.mem_append_left _ stepMem)
      have now := allowed (middle, label) (List.mem_append_right _ List.mem_cons_self)
      rw [performed_append]
      exact earlier.step bodies (now _) (logged_step step _)

end Logged

end Program
