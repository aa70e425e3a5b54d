import Gsp.Lib.Threads

/-!
# Threads without interruption

A thread may run its code to the end before any other thread acts. What it can do
so is proved along the code, from an assertion on the state to another, and is a
run of the machine of all interleavings.
-/

namespace Program

variable {Thread Mode State Input Refusal Op : Type} {Result : Op → Type}

/-- The thread can run the code to its end, where it has this value and leaves this state. -/
inductive Completes (program : Program Thread Mode State Input Refusal Result) (thread : Thread)
    {Value : Type} : Code Op Result Value → State → Value → State → Prop where
  | done (value : Value) (state : State) : Completes program thread (.done value) state value state
  | call {op : Op} {next : Result op → Code Op Result Value} {state middle last : State}
      {input : Input} {result : Result op} {value : Value}
      (performed : program.perform thread input op state = .ok (result, middle))
      (rest : Completes program thread (next result) middle value last) :
      Completes program thread (.call op next) state value last

/-- From every state of the first assertion the code can be run to this value and to a
state of the second. -/
def Carries (program : Program Thread Mode State Input Refusal Result) (thread : Thread)
    {Value : Type} (before : State → Prop) (code : Code Op Result Value) (value : Value)
    (after : State → Prop) : Prop :=
  ∀ state, before state → ∃ last, program.Completes thread code state value last ∧ after last

variable {program : Program Thread Mode State Input Refusal Result} {thread : Thread}
  {Value Other : Type} {before between after : State → Prop}

/-- Code that completes is followed by the code behind it. -/
theorem Completes.bind {code : Code Op Result Value} {next : Value → Code Op Result Other}
    {state middle last : State} {value : Value} {result : Other}
    (first : program.Completes thread code state value middle)
    (second : program.Completes thread (next value) middle result last) :
    program.Completes thread (code >>= next) state result last := by
  induction first with
  | done => exact second
  | call performed _ ih => exact .call performed (ih second)

/-! ## Assertions -/

theorem carries_pure (value : Value) :
    program.Carries thread before (pure value) value before :=
  fun state holds => ⟨state, .done value state, holds⟩

/-- One operation, with an input that suits it. -/
theorem carries_perform {op : Op} {result : Result op}
    (performs : ∀ state, before state → ∃ input last,
      program.perform thread input op state = .ok (result, last) ∧ after last) :
    program.Carries thread before (.perform op) result after := by
  intro state holds
  rcases performs state holds with ⟨input, last, performed, kept⟩
  exact ⟨last, .call performed (.done result last), kept⟩

/-- One after the other. -/
theorem Carries.bind {code : Code Op Result Value} {next : Value → Code Op Result Other}
    {value : Value} {result : Other} (first : program.Carries thread before code value between)
    (second : program.Carries thread between (next value) result after) :
    program.Carries thread before (code >>= next) result after := by
  intro state holds
  rcases first state holds with ⟨middle, completes, kept⟩
  rcases second middle kept with ⟨last, rest, holdsLast⟩
  exact ⟨last, completes.bind rest, holdsLast⟩

/-- Carried code may promise less. -/
theorem Carries.mono {code : Code Op Result Value} {value : Value} {weaker : State → Prop}
    (carries : program.Carries thread before code value after)
    (implies : ∀ state, after state → weaker state) :
    program.Carries thread before code value weaker := by
  intro state holds
  rcases carries state holds with ⟨last, completes, kept⟩
  exact ⟨last, completes, implies last kept⟩

/-! ## Runs -/

variable [DecidableEq Thread] {Starts : State → Prop} {modes : Thread → Mode}
  {codes : Thread → Code Op Result Mode} {state last : State}

/-- Code that is run to its end is a run in which only its thread acts. -/
theorem Completes.run {code : Code Op Result Mode} {mode : Mode}
    (completes : program.Completes thread code state mode last) (about : codes thread = code) :
    ∃ steps, (program.machine Starts modes).Run ⟨state, codes⟩ steps
        ⟨last, Function.update codes thread (.done mode)⟩ ∧
      ∀ step ∈ steps, step.2.1 = thread := by
  induction completes generalizing codes with
  | done mode state =>
      refine ⟨[], ?_, fun _ stepMem => absurd stepMem List.not_mem_nil⟩
      rw [← about, Function.update_eq_self]
      exact .nil _
  | @call op next state middle last input result mode performed rest ih =>
      have rewritten : Function.update codes thread (next result) thread = next result :=
        Function.update_self ..
      rcases ih rewritten with ⟨steps, run, own⟩
      rw [Function.update_idem] at run
      have step : (program.machine Starts modes).Step ⟨state, codes⟩ (thread, input)
          ⟨middle, Function.update codes thread (next result)⟩ := by
        simp only [machine, Program.step, about, performed]
      exact ⟨_, run.cons step, List.forall_mem_cons.mpr ⟨rfl, own⟩⟩

/-- A thread that has ended goes on with its next code, run to the end. -/
theorem Completes.runBody {mode next : Mode} (input : Input) (about : codes thread = .done mode)
    (completes : program.Completes thread (program.body thread mode) state next last) :
    ∃ steps, (program.machine Starts modes).Run ⟨state, codes⟩ steps
        ⟨last, Function.update codes thread (.done next)⟩ ∧
      ∀ step ∈ steps, step.2.1 = thread := by
  have start : (program.machine Starts modes).Step ⟨state, codes⟩ (thread, input)
      ⟨state, Function.update codes thread (program.body thread mode)⟩ := by
    simp only [machine, Program.step, about]
  have body : Function.update codes thread (program.body thread mode) thread =
      program.body thread mode :=
    Function.update_self ..
  rcases completes.run body with ⟨steps, run, own⟩
  rw [Function.update_idem] at run
  exact ⟨_, run.cons start, List.forall_mem_cons.mpr ⟨rfl, own⟩⟩

end Program
