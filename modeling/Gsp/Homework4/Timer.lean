import Gsp.Lib.BinaryHeap
import Gsp.Lib.Except
import Mathlib.Data.Int.Order.Basic

/-!
# The timer

`Timer.cpp` and `Timer.h`. The queue is a `std::priority_queue`, which is a heap in
a `std::vector`, by `TimerJobComparator` the least tick first. When the vector is
full, the next job moves it to new storage, and references into the old one dangle.
What `GetTickCount64` returns is given from outside, and so are the jobs that the
tasks push while they run.
-/

namespace Gsp.Homework4

variable {Owner Task : Type}

/-- A task, its owner and when it is due. -/
structure TimerJobElement (Owner Task : Type) where
  mOwner : Owner
  mTask : Task
  mExecutionTick : ℤ

/-- How large the next storage of a full vector is. -/
structure Growth where
  next : ℕ → ℕ
  grows : ∀ size, size < next size

/-- The heap with what is known of its vector; `storage` counts the moves. -/
structure TimerJobPriorityQueue (Owner Task : Type) where
  c : Array (TimerJobElement Owner Task)
  capacity : ℕ
  storage : ℕ
  ordered : BinaryHeap.Ordered (BinaryHeap.keyAt TimerJobElement.mExecutionTick c)
  fits : c.size ≤ capacity

/-- A `const TimerJobElement&`. -/
structure TimerJobReference where
  storage : ℕ
  index : ℕ

/-- A reference that dangles is used. -/
inductive TimerFault where
  | dangling

/-- A job that is pushed for later than now. -/
abbrev LaterJob (Owner Task : Type) (tickCount : ℤ) :=
  {job : TimerJobElement Owner Task // tickCount < job.mExecutionTick}

/-- What a call of `DoTimerJob` does, in order. -/
inductive TimerEvent (Owner Task : Type) where
  | enterLock (owner : Owner)
  | run (job : TimerJobElement Owner Task)
  | leaveLock (owner : Owner)
  | pop (removed : Option (TimerJobElement Owner Task))

namespace TimerJobPriorityQueue

/-- A new queue has no storage yet. -/
def empty : TimerJobPriorityQueue Owner Task where
  c := #[]
  capacity := 0
  storage := 0
  ordered := by
    intro index _
    rw [@BinaryHeap.keyAt_of_le _ _ _ _ index (Nat.zero_le _)]
    exact le_top
  fits := le_rfl

/-- `push`, which moves a full vector. -/
def push (growth : Growth) (queue : TimerJobPriorityQueue Owner Task)
    (job : TimerJobElement Owner Task) : TimerJobPriorityQueue Owner Task where
  c := BinaryHeap.push TimerJobElement.mExecutionTick queue.c job
  capacity := if queue.c.size < queue.capacity then queue.capacity else growth.next queue.c.size
  storage := if queue.c.size < queue.capacity then queue.storage else queue.storage + 1
  ordered := BinaryHeap.push_ordered queue.ordered job
  fits := by
    have grows := growth.grows queue.c.size
    rw [BinaryHeap.size_push]
    split <;> omega

/-- `pop`. -/
def pop (queue : TimerJobPriorityQueue Owner Task) : TimerJobPriorityQueue Owner Task where
  c := BinaryHeap.pop TimerJobElement.mExecutionTick queue.c
  capacity := queue.capacity
  storage := queue.storage
  ordered := BinaryHeap.pop_ordered queue.ordered
  fits := by
    have fits := queue.fits
    rw [BinaryHeap.size_pop]
    omega

/-- `top`, of a queue that is not empty. -/
def top (queue : TimerJobPriorityQueue Owner Task) : TimerJobReference := ⟨queue.storage, 0⟩

/-- What a reference refers to. -/
def read (reference : TimerJobReference) (queue : TimerJobPriorityQueue Owner Task) :
    Except TimerFault (TimerJobElement Owner Task) :=
  if reference.storage = queue.storage then
    match queue.c[reference.index]? with
    | some job => .ok job
    | none => .error .dangling
  else .error .dangling

/-- A task pushes its jobs. -/
def pushAll (growth : Growth) {tickCount : ℤ} (queue : TimerJobPriorityQueue Owner Task)
    (jobs : List (LaterJob Owner Task tickCount)) : TimerJobPriorityQueue Owner Task :=
  jobs.foldl (fun queue job => queue.push growth job.1) queue

/-- How many jobs are due. -/
def due (tickCount : ℤ) (queue : TimerJobPriorityQueue Owner Task) : ℕ :=
  queue.c.toList.countP (·.mExecutionTick ≤ tickCount)

variable {growth : Growth} {queue : TimerJobPriorityQueue Owner Task} {tickCount : ℤ}
  {job : TimerJobElement Owner Task}

@[simp]
theorem pushAll_cons (growth : Growth) (queue : TimerJobPriorityQueue Owner Task)
    (first : LaterJob Owner Task tickCount) (jobs : List (LaterJob Owner Task tickCount)) :
    queue.pushAll growth (first :: jobs) = (queue.push growth first.1).pushAll growth jobs :=
  rfl

/-- The pushed jobs are added to the queue. -/
theorem pushAll_perm (growth : Growth) (queue : TimerJobPriorityQueue Owner Task)
    (jobs : List (LaterJob Owner Task tickCount)) :
    (queue.pushAll growth jobs).c.toList.Perm (queue.c.toList ++ jobs.map Subtype.val) := by
  induction jobs generalizing queue with
  | nil =>
      rw [List.map_nil, List.append_nil]
      rfl
  | cons first jobs ih =>
      have pushed : (queue.push growth first.1).c.toList.Perm (first.1 :: queue.c.toList) :=
        BinaryHeap.push_perm _ queue.c first.1
      refine (ih (queue.push growth first.1)).trans ?_
      rw [List.map_cons]
      exact (pushed.append_right _).trans List.perm_middle.symm

/-- A due job stays first. -/
theorem pushAll_root (growth : Growth) (first : queue.c[0]? = some job)
    (isDue : job.mExecutionTick ≤ tickCount) (jobs : List (LaterJob Owner Task tickCount)) :
    (queue.pushAll growth jobs).c[0]? = some job := by
  induction jobs generalizing queue with
  | nil => exact first
  | cons later jobs ih =>
      apply ih
      rcases Array.getElem?_eq_some_iff.mp first with ⟨nonempty, root⟩
      have stays : queue.c[0].mExecutionTick ≤ later.1.mExecutionTick := by
        rw [root]
        exact isDue.trans later.2.le
      exact (BinaryHeap.push_root nonempty stays).trans first

/-- The first job is taken off the queue. -/
theorem pop_perm (first : queue.c[0]? = some job) :
    queue.c.toList.Perm (job :: queue.pop.c.toList) := by
  rcases Array.getElem?_eq_some_iff.mp first with ⟨nonempty, root⟩
  have split := BinaryHeap.pop_perm TimerJobElement.mExecutionTick nonempty
  rwa [root] at split

/-- What is left after a due job has pushed its jobs and has been popped. -/
theorem round_perm (growth : Growth) (first : queue.c[0]? = some job)
    (isDue : job.mExecutionTick ≤ tickCount) (jobs : List (LaterJob Owner Task tickCount)) :
    (queue.c.toList ++ jobs.map Subtype.val).Perm
      (job :: (queue.pushAll growth jobs).pop.c.toList) :=
  (pushAll_perm growth queue jobs).symm.trans (pop_perm (pushAll_root growth first isDue jobs))

/-- A round runs one due job and may add others. -/
theorem due_round (growth : Growth) (first : queue.c[0]? = some job)
    (isDue : job.mExecutionTick ≤ tickCount) (jobs : List (LaterJob Owner Task tickCount)) :
    queue.due tickCount = (queue.pushAll growth jobs).pop.due tickCount + 1 := by
  have counted := (round_perm growth first isDue jobs).countP_eq (·.mExecutionTick ≤ tickCount)
  have later : (jobs.map Subtype.val).countP (·.mExecutionTick ≤ tickCount) = 0 := by
    rw [List.countP_eq_zero]
    intro pushed pushedMem
    rcases List.mem_map.mp pushedMem with ⟨later, _, rfl⟩
    simpa using later.2
  rw [List.countP_append, later, List.countP_cons_of_pos (by simpa using isDue)] at counted
  exact counted

/-! ### Storage -/

theorem size_pushAll (growth : Growth) (queue : TimerJobPriorityQueue Owner Task)
    (jobs : List (LaterJob Owner Task tickCount)) :
    (queue.pushAll growth jobs).c.size = queue.c.size + jobs.length := by
  have pushed := (pushAll_perm growth queue jobs).length_eq
  rwa [List.length_append, List.length_map] at pushed

/-- Jobs for which there is room leave the vector where it is. -/
theorem pushAll_of_room (growth : Growth) {jobs : List (LaterJob Owner Task tickCount)}
    (room : queue.c.size + jobs.length ≤ queue.capacity) :
    (queue.pushAll growth jobs).storage = queue.storage ∧
      (queue.pushAll growth jobs).capacity = queue.capacity := by
  induction jobs generalizing queue with
  | nil => exact ⟨rfl, rfl⟩
  | cons first jobs ih =>
      rw [List.length_cons] at room
      have spare : queue.c.size < queue.capacity := by omega
      have size_eq : (queue.push growth first.1).c.size = queue.c.size + 1 :=
        BinaryHeap.size_push ..
      have storage_eq : (queue.push growth first.1).storage = queue.storage := if_pos spare
      have capacity_eq : (queue.push growth first.1).capacity = queue.capacity := if_pos spare
      rw [pushAll_cons, ← storage_eq, ← capacity_eq]
      apply ih
      omega

theorem storage_le_push (growth : Growth) (queue : TimerJobPriorityQueue Owner Task)
    (job : TimerJobElement Owner Task) : queue.storage ≤ (queue.push growth job).storage := by
  rw [push]
  split
  · exact le_rfl
  · exact Nat.le_succ _

/-- Pushing moves the storage forward only. -/
theorem storage_le_pushAll (growth : Growth) (queue : TimerJobPriorityQueue Owner Task)
    (jobs : List (LaterJob Owner Task tickCount)) :
    queue.storage ≤ (queue.pushAll growth jobs).storage := by
  induction jobs generalizing queue with
  | nil => exact le_rfl
  | cons first jobs ih => exact (storage_le_push growth queue first.1).trans (ih _)

/-- One job too many moves the vector. -/
theorem storage_lt_pushAll (growth : Growth) {jobs : List (LaterJob Owner Task tickCount)}
    (full : queue.capacity < queue.c.size + jobs.length) :
    queue.storage < (queue.pushAll growth jobs).storage := by
  induction jobs generalizing queue with
  | nil =>
      have fits := queue.fits
      rw [List.length_nil] at full
      omega
  | cons first jobs ih =>
      have size_eq : (queue.push growth first.1).c.size = queue.c.size + 1 :=
        BinaryHeap.size_push ..
      rw [List.length_cons] at full
      by_cases spare : queue.c.size < queue.capacity
      · have storage_eq : (queue.push growth first.1).storage = queue.storage := if_pos spare
        have capacity_eq : (queue.push growth first.1).capacity = queue.capacity := if_pos spare
        rw [pushAll_cons, ← storage_eq]
        apply ih
        omega
      · have moved : (queue.push growth first.1).storage = queue.storage + 1 := if_neg spare
        have later := storage_le_pushAll growth (queue.push growth first.1) jobs
        exact (Nat.lt_of_succ_le moved.ge).trans_le later

/-- The reference still refers to the job that has pushed. -/
theorem read_of_room (growth : Growth) (first : queue.c[0]? = some job)
    (isDue : job.mExecutionTick ≤ tickCount) {jobs : List (LaterJob Owner Task tickCount)}
    (room : queue.c.size + jobs.length ≤ queue.capacity) :
    (queue.pushAll growth jobs).read queue.top = .ok job := by
  have root : (queue.pushAll growth jobs).c[queue.top.index]? = some job :=
    pushAll_root growth first isDue jobs
  have same : queue.top.storage = (queue.pushAll growth jobs).storage :=
    (pushAll_of_room growth room).1.symm
  rw [read, if_pos same, root]

/-- A reference read after the storage moved is dangling. -/
theorem read_of_full (growth : Growth) {jobs : List (LaterJob Owner Task tickCount)}
    (full : queue.capacity < queue.c.size + jobs.length) :
    (queue.pushAll growth jobs).read queue.top = .error .dangling := by
  rw [read, if_neg]
  exact (storage_lt_pushAll growth full).ne

end TimerJobPriorityQueue

open TimerJobPriorityQueue

/-- `DoTimerJob`, when `GetTickCount64` has returned `tickCount`; `pushes` are the
jobs pushed by the tasks in the order in which they are run. -/
def doTimerJob (growth : Growth) (tickCount : ℤ) (queue : TimerJobPriorityQueue Owner Task)
    (pushes : ℕ → List (LaterJob Owner Task tickCount)) :
    Except TimerFault (List (TimerEvent Owner Task) × TimerJobPriorityQueue Owner Task) :=
  match first : queue.c[0]? with
  | none => .ok ([], queue)
  | some timerJobElem =>
      if later : tickCount < timerJobElem.mExecutionTick then .ok ([], queue)
      else do
        let running := queue.pushAll growth (pushes 0)
        have shrinks : running.pop.due tickCount < queue.due tickCount := by
          rw [due_round growth first (not_lt.mp later) (pushes 0)]
          exact Nat.lt_succ_self _
        -- `LeaveLock` is called through the reference that was taken before the task ran.
        let unlocked ← running.read queue.top
        let (events, last) ← doTimerJob growth tickCount running.pop fun run => pushes (run + 1)
        .ok (.enterLock timerJobElem.mOwner :: .run timerJobElem :: .leaveLock unlocked.mOwner ::
          .pop running.c[0]? :: events, last)
termination_by queue.due tickCount

/-- What is done for one job. -/
def performed (job : TimerJobElement Owner Task) : List (TimerEvent Owner Task) :=
  [.enterLock job.mOwner, .run job, .leaveLock job.mOwner, .pop (some job)]

/-- The jobs pushed by the first tasks. -/
def pushed {tickCount : ℤ} (pushes : ℕ → List (LaterJob Owner Task tickCount)) (runs : ℕ) :
    List (TimerJobElement Owner Task) :=
  (List.range runs).flatMap fun run => (pushes run).map Subtype.val

/-- The due jobs have been run, each once, by their ticks and between the locks of
their own owners; the others and those pushed meanwhile are left. -/
def Performs {tickCount : ℤ} (queue : TimerJobPriorityQueue Owner Task)
    (pushes : ℕ → List (LaterJob Owner Task tickCount))
    (result : Except TimerFault
      (List (TimerEvent Owner Task) × TimerJobPriorityQueue Owner Task)) : Prop :=
  ∃ (ran : List (TimerJobElement Owner Task)) (last : TimerJobPriorityQueue Owner Task),
    result = .ok (ran.flatMap performed, last) ∧
    ran.Perm (queue.c.toList.filter (·.mExecutionTick ≤ tickCount)) ∧
    ran.Pairwise (fun first second => first.mExecutionTick ≤ second.mExecutionTick) ∧
    last.c.toList.Perm
      (queue.c.toList.filter (tickCount < ·.mExecutionTick) ++ pushed pushes ran.length)

/-- No task pushes a job while the vector is full: when a task runs, those before it
have been popped. -/
def Room {tickCount : ℤ} (queue : TimerJobPriorityQueue Owner Task)
    (pushes : ℕ → List (LaterJob Owner Task tickCount)) : Prop :=
  ∀ run < queue.due tickCount,
    queue.c.size + (pushed pushes (run + 1)).length ≤ queue.capacity + run

/-! ## One round -/

variable {growth : Growth} {queue : TimerJobPriorityQueue Owner Task} {tickCount : ℤ}
  {job : TimerJobElement Owner Task} {pushes : ℕ → List (LaterJob Owner Task tickCount)}

theorem doTimerJob_of_due_eq_zero (nothing : queue.due tickCount = 0) :
    doTimerJob growth tickCount queue pushes = .ok ([], queue) := by
  rw [doTimerJob]
  split
  · rfl
  · rename_i job first
    have jobMem : job ∈ queue.c.toList := by
      rcases Array.getElem?_eq_some_iff.mp first with ⟨nonempty, rfl⟩
      exact Array.getElem_mem_toList nonempty
    have later := List.countP_eq_zero.mp nothing job jobMem
    rw [dif_pos (by simpa using later)]

/-- The first job is due if any is. -/
theorem exists_first_due (something : 0 < queue.due tickCount) :
    ∃ job, queue.c[0]? = some job ∧ job.mExecutionTick ≤ tickCount := by
  rcases List.countP_pos_iff.mp something with ⟨job, jobMem, isDue⟩
  have nonempty : 0 < queue.c.size := List.length_pos_of_mem jobMem
  have least := BinaryHeap.root_le queue.ordered nonempty job jobMem
  exact ⟨queue.c[0], Array.getElem?_eq_getElem nonempty, least.trans (by simpa using isDue)⟩

/-- A job that pushes beyond the capacity reads a dangling reference. -/
theorem doTimerJob_of_full (first : queue.c[0]? = some job)
    (isDue : job.mExecutionTick ≤ tickCount)
    (full : queue.capacity < queue.c.size + (pushes 0).length) :
    doTimerJob growth tickCount queue pushes = .error .dangling := by
  rw [doTimerJob]
  split
  · rename_i nothing
    rw [nothing] at first
    cases first
  · rename_i root isRoot
    cases isRoot.symm.trans first
    rw [dif_neg (not_lt.mpr isDue)]
    simp only [read_of_full growth full]
    rfl

/-- A job that pushes within the capacity is followed by the others. -/
theorem doTimerJob_of_room (first : queue.c[0]? = some job)
    (isDue : job.mExecutionTick ≤ tickCount)
    (room : queue.c.size + (pushes 0).length ≤ queue.capacity) :
    doTimerJob growth tickCount queue pushes =
      (doTimerJob growth tickCount (queue.pushAll growth (pushes 0)).pop
        fun run => pushes (run + 1)).map fun rest => (performed job ++ rest.1, rest.2) := by
  have root := pushAll_root growth first isDue (pushes 0)
  rw [doTimerJob]
  split
  · rename_i nothing
    rw [nothing] at first
    cases first
  · rename_i other isRoot
    cases isRoot.symm.trans first
    rw [dif_neg (not_lt.mpr isDue)]
    simp only [read_of_room growth first isDue room, root]
    rfl

/-! ## The whole call -/

theorem pushed_succ (pushes : ℕ → List (LaterJob Owner Task tickCount)) (runs : ℕ) :
    pushed pushes (runs + 1) =
      (pushes 0).map Subtype.val ++ pushed (fun run => pushes (run + 1)) runs := by
  rw [pushed, List.range_succ_eq_map, List.flatMap_cons, List.flatMap_map]
  rfl

/-- Pushed jobs are not due. -/
theorem filter_due_later (jobs : List (LaterJob Owner Task tickCount)) :
    (jobs.map Subtype.val).filter (·.mExecutionTick ≤ tickCount) = [] ∧
      (jobs.map Subtype.val).filter (tickCount < ·.mExecutionTick) = jobs.map Subtype.val := by
  constructor
  · rw [List.filter_eq_nil_iff]
    intro job jobMem
    rcases List.mem_map.mp jobMem with ⟨later, _, rfl⟩
    simpa using later.2
  · rw [List.filter_eq_self]
    intro job jobMem
    rcases List.mem_map.mp jobMem with ⟨later, _, rfl⟩
    simpa using later.2

theorem performs_nothing (nothing : queue.due tickCount = 0) :
    Performs queue pushes (.ok ([], queue)) := by
  rw [due, List.countP_eq_zero] at nothing
  have dueJobs : queue.c.toList.filter (·.mExecutionTick ≤ tickCount) = [] :=
    List.filter_eq_nil_iff.mpr nothing
  have others : queue.c.toList.filter (tickCount < ·.mExecutionTick) = queue.c.toList := by
    rw [List.filter_eq_self]
    intro job jobMem
    simpa using nothing job jobMem
  refine ⟨[], queue, rfl, ?_, List.Pairwise.nil, ?_⟩
  · rw [dueJobs]
  · rw [others]
    exact (List.append_nil _).symm ▸ List.Perm.refl _

/-- A round before the rest of the call. -/
theorem performs_round (first : queue.c[0]? = some job) (isDue : job.mExecutionTick ≤ tickCount)
    {rest : List (TimerEvent Owner Task) × TimerJobPriorityQueue Owner Task}
    (performs : Performs (queue.pushAll growth (pushes 0)).pop (fun run => pushes (run + 1))
      (.ok rest)) :
    Performs queue pushes (.ok (performed job ++ rest.1, rest.2)) := by
  rcases performs with ⟨ran, last, result, ranPerm, sorted, lastPerm⟩
  cases result
  have round := round_perm growth first isDue (pushes 0)
  rcases filter_due_later (pushes 0) with ⟨noneDue, allLater⟩
  refine ⟨job :: ran, last, rfl, ?_, ?_, ?_⟩
  · have dues := round.filter (·.mExecutionTick ≤ tickCount)
    rw [List.filter_append, noneDue, List.append_nil,
      List.filter_cons_of_pos (by simpa using isDue)] at dues
    exact (ranPerm.cons job).trans dues.symm
  · refine List.pairwise_cons.mpr ⟨?_, sorted⟩
    intro other otherMem
    have root := pushAll_root growth first isDue (pushes 0)
    rcases Array.getElem?_eq_some_iff.mp root with ⟨nonempty, isRoot⟩
    have least := BinaryHeap.root_le (queue.pushAll growth (pushes 0)).ordered nonempty other
    rw [isRoot] at least
    apply least
    have left := (List.mem_filter.mp (ranPerm.subset otherMem)).1
    exact (pop_perm root).symm.subset (List.mem_cons_of_mem _ left)
  · have others := round.filter (tickCount < ·.mExecutionTick)
    rw [List.filter_append, allLater, List.filter_cons_of_neg (by simpa using isDue)] at others
    rw [List.length_cons, pushed_succ, ← List.append_assoc]
    exact lastPerm.trans (others.symm.append_right _)

/-- What returns has run the due jobs in order. -/
theorem performs_of_ok {result : List (TimerEvent Owner Task) × TimerJobPriorityQueue Owner Task}
    (returned : doTimerJob growth tickCount queue pushes = .ok result) :
    Performs queue pushes (.ok result) := by
  induction due_eq : queue.due tickCount generalizing queue pushes result with
  | zero =>
      rw [doTimerJob_of_due_eq_zero due_eq] at returned
      cases returned
      exact performs_nothing due_eq
  | succ count ih =>
      have something : 0 < queue.due tickCount := due_eq ▸ Nat.succ_pos count
      rcases exists_first_due something with ⟨job, first, isDue⟩
      by_cases room : queue.c.size + (pushes 0).length ≤ queue.capacity
      · rw [doTimerJob_of_room first isDue room] at returned
        rcases Except.map_eq_ok.mp returned with ⟨rest, restReturned, rfl⟩
        have fewer := due_round growth first isDue (pushes 0)
        exact performs_round first isDue (ih restReturned (by omega))
      · rw [doTimerJob_of_full first isDue (not_le.mp room)] at returned
        cases returned

/-- The room of a call is that of its first round and of the rest. -/
theorem room_iff (growth : Growth) (first : queue.c[0]? = some job)
    (isDue : job.mExecutionTick ≤ tickCount)
    (fits : queue.c.size + (pushes 0).length ≤ queue.capacity) :
    Room queue pushes ↔
      Room (queue.pushAll growth (pushes 0)).pop fun run => pushes (run + 1) := by
  have size_eq : (queue.pushAll growth (pushes 0)).pop.c.size =
      (queue.pushAll growth (pushes 0)).c.size - 1 := BinaryHeap.size_pop ..
  have capacity_eq : (queue.pushAll growth (pushes 0)).pop.capacity = queue.capacity :=
    (pushAll_of_room growth fits).2
  have nonempty : 0 < queue.c.size := (Array.getElem?_eq_some_iff.mp first).1
  rw [size_pushAll] at size_eq
  rw [Room, Room, due_round growth first isDue (pushes 0), Nat.forall_lt_succ_left, size_eq,
    capacity_eq]
  simp only [pushed_succ pushes, List.length_append, List.length_map]
  have start : (pushed (fun run => pushes (run + 1)) 0).length = 0 := rfl
  rw [start, and_iff_right (by omega)]
  apply forall₂_congr
  intro run _
  omega

/-- The loop returns exactly when there is room for every push. -/
theorem exists_ok_iff_room :
    (∃ result, doTimerJob growth tickCount queue pushes = .ok result) ↔ Room queue pushes := by
  induction due_eq : queue.due tickCount generalizing queue pushes with
  | zero =>
      refine iff_of_true ⟨_, doTimerJob_of_due_eq_zero due_eq⟩ ?_
      intro run less
      rw [due_eq] at less
      cases less
  | succ count ih =>
      have something : 0 < queue.due tickCount := due_eq ▸ Nat.succ_pos count
      rcases exists_first_due something with ⟨job, first, isDue⟩
      by_cases room : queue.c.size + (pushes 0).length ≤ queue.capacity
      · have fewer := due_round growth first isDue (pushes 0)
        rw [room_iff growth first isDue room, ← ih (by omega), doTimerJob_of_room first isDue room]
        constructor
        · rintro ⟨_, returned⟩
          rcases Except.map_eq_ok.mp returned with ⟨rest, returned, _⟩
          exact ⟨rest, returned⟩
        · rintro ⟨rest, returned⟩
          exact ⟨_, Except.map_eq_ok.mpr ⟨rest, returned, rfl⟩⟩
      · rw [doTimerJob_of_full first isDue (not_le.mp room)]
        refine iff_of_false ?_ ?_
        · rintro ⟨_, ⟨⟩⟩
        · intro rooms
          have now := rooms 0 (by omega)
          rw [pushed_succ, List.length_append, List.length_map] at now
          omega

/-- A call of `DoTimerJob` does what it should if and only if no task pushes a job
while the vector of the queue is full. -/
theorem performs_iff_room (growth : Growth) (tickCount : ℤ)
    (queue : TimerJobPriorityQueue Owner Task)
    (pushes : ℕ → List (LaterJob Owner Task tickCount)) :
    Performs queue pushes (doTimerJob growth tickCount queue pushes) ↔ Room queue pushes := by
  rw [← @exists_ok_iff_room _ _ growth]
  constructor
  · rintro ⟨ran, last, result, _⟩
    exact ⟨_, result⟩
  · rintro ⟨result, returned⟩
    rw [returned]
    exact performs_of_ok returned

/-- The only job of a queue pushes another one: the vector has room for one, so that
`LeaveLock` is called through a reference that dangles. -/
theorem not_always_performs :
    ¬∀ (growth : Growth) (tickCount : ℤ) (queue : TimerJobPriorityQueue ℕ ℕ)
      (pushes : ℕ → List (LaterJob ℕ ℕ tickCount)),
      Performs queue pushes (doTimerJob growth tickCount queue pushes) := by
  intro performs
  let growth : Growth := ⟨(· + 1), Nat.lt_succ_self⟩
  let job : TimerJobElement ℕ ℕ := ⟨1, 1, 0⟩
  let again : LaterJob ℕ ℕ 0 := ⟨⟨1, 1, 5⟩, by decide⟩
  have items : (TimerJobPriorityQueue.empty.push growth job).c.toList = [job] :=
    List.perm_singleton.mp (BinaryHeap.push_perm ..)
  have first : (TimerJobPriorityQueue.empty.push growth job).c[0]? = some job := by
    rw [← Array.getElem?_toList, items]
    rfl
  have full : (TimerJobPriorityQueue.empty.push growth job).capacity <
      (TimerJobPriorityQueue.empty.push growth job).c.size + [again].length := by
    rw [← Array.length_toList, items]
    decide
  rcases performs growth 0 _ fun _ => [again] with ⟨_, _, result, _⟩
  rw [doTimerJob_of_full first le_rfl full] at result
  cases result

end Gsp.Homework4
