import Gsp.Homework5.LockOrder
import Gsp.Homework5.Safe

/-!
# Workers that wait for each other

The order of the locks gives every run without a last release in `FlushSend`: no
worker waits for itself or for one that waits for it. With such a release there is a
run in which a worker waits for its own `mSendBufferLock` while it holds `mLock`, so
that no session can be accepted or returned any more.
-/

namespace Gsp.Homework5.Locking

open Program

variable {workers : ℕ}

theorem Held.start (raw : RawMemory) : Held (.start workers raw) fun _ => [] := by
  constructor
  · intro lock thread
    exact ⟨nofun, nofun⟩
  · intro thread
    exact List.nodup_nil

/-- The worker is about to take the lock. -/
def Wants (config : Running workers) (worker : Fin workers) (lock : Lock) : Prop :=
  (config.code (.worker worker)).nextOp = some (.enterLock lock)

/-- The worker owns the lock. -/
def Holds (config : Running workers) (worker : Fin workers) (lock : Lock) : Prop :=
  config.state.owner lock = some (.worker worker)

instance (config : Running workers) (worker : Fin workers) (lock : Lock) :
    Decidable (Wants config worker lock) :=
  inferInstanceAs (Decidable (_ = _))

instance (config : Running workers) (worker : Fin workers) (lock : Lock) :
    Decidable (Holds config worker lock) :=
  inferInstanceAs (Decidable (_ = _))

/-- No worker waits for itself, no two wait for each other, and none with a
`mSendBufferLock` comes to take `mLock` or that lock again. -/
structure DeadlockFree (config : Running workers) : Prop where
  alone : ∀ worker, ¬WaitsFor (Wants config) (Holds config) worker worker
  inPairs : ∀ worker other, WaitsFor (Wants config) (Holds config) worker other →
    ¬WaitsFor (Wants config) (Holds config) other worker
  flushing : ∀ worker session, Holds config worker (.mSendBufferLock session) →
    ¬Wants config worker .mLock ∧ ¬Wants config worker (.mSendBufferLock session)

/-- The operation about to be made does not release the last reference of a client
session with a `mSendBufferLock` held. -/
def Spares (config : Running workers) (label : Thread workers × Input) : Prop :=
  ∀ operation, (config.code label.1).nextOp = some operation →
    config.state.Spares label.1 operation

variable {config : Running workers}

theorem ranked_of_sound (sound : (program workers).Sound (discipline workers) Mode.Ends config) :
    Ranked (Wants config) (Holds config) Lock.rank := by
  intro worker lock held wanted holding
  cases code : config.code (.worker worker) with
  | done mode =>
      rw [Wants, code] at wanted
      cases wanted
  | call op next =>
      rw [Wants, code] at wanted
      cases wanted
      exact sound.fine code ⟨worker, rfl⟩ held holding

theorem deadlockFree_of_ranked (ranked : Ranked (Wants config) (Holds config) Lock.rank) :
    DeadlockFree config := by
  constructor
  · intro worker waits
    exact ranked.not_waitsFor_of_waitsFor waits waits
  · intro worker other waits
    exact ranked.not_waitsFor_of_waitsFor waits
  · intro worker session holding
    constructor
    · intro wanted
      exact absurd (ranked worker _ _ wanted holding) (Nat.not_lt_zero _)
    · intro wanted
      exact absurd (ranked worker _ _ wanted holding) (Nat.lt_irrefl _)

/-- Without a last release in `FlushSend` there is no deadlock. -/
theorem deadlockFree_of_spares {first last : Running workers}
    {steps : List (Running workers × (Thread workers × Input))}
    (run : (lockingServer workers).Run first steps last)
    (initial : (lockingServer workers).Initial first)
    (spares : ∀ step ∈ steps, Spares step.1 step.2) :
    ∀ config ∈ Machine.visited steps last, DeadlockFree config := by
  have sound : ∀ config ∈ Machine.visited steps last,
      (program workers).Sound (discipline workers) Mode.Ends config := by
    refine run.good_of_fine initial ?_ ?_ spares
    · rcases initial with ⟨⟨raw, start⟩, modes⟩
      refine ⟨fun _ => [], ?_, ?_⟩
      · rw [start]
        exact Held.start raw
      · intro thread
        rw [modes thread]
        cases thread <;> exact rfl
    · intro before label after _ sound step spared
      exact sound.step (fun thread mode _ ends => secure_body thread mode ends) spared step
  intro config visited
  exact deadlockFree_of_ranked (ranked_of_sound (sound config visited))

/-- A call that succeeds or fails, without a packet. -/
def calls (success : Bool) : Input := ⟨success, none, []⟩

/-- The server before its first operation, on zeroed memory. -/
def started (workers : ℕ) : Running workers :=
  ⟨.start workers ⟨fun _ _ => 0, fun _ _ => 0⟩, fun thread => .done (Mode.start thread)⟩

/-! ## A release in `FlushSend` that is not the last -/

/-- The front of the free list at the start. -/
def frontClient : ClientId := ⟨maxConnection - 1, by decide⟩

/-- A completion of a session that brings in these bytes. -/
def completes (client : ClientId) (mIoType : IOType) (window : WsaBuf) (data : List UInt8) :
    Input :=
  ⟨true, some ⟨⟨.client client, mIoType, window⟩, true, data.length⟩, data⟩

/-- Every decrement of a client session leaves a reference. -/
def Leaves (config : Running workers) (label : Thread workers × Input) : Prop :=
  match (config.code label.1).nextOp with
  | some (.decrementRefCount (.client client)) =>
      (config.state.session (.client client)).mRefCount ≠ 1
  | _ => True

instance (config : Running workers) (label : Thread workers × Input) :
    Decidable (Leaves config label) := by
  unfold Leaves
  split <;> infer_instance

theorem Leaves.spares {label : Thread workers × Input} (leaves : Leaves config label) :
    Spares config label := by
  intro operation about
  rw [Leaves, about] at leaves
  cases operation with
  | decrementRefCount session =>
      cases session with
      | client client => exact fun _ _ => leaves
      | server index => trivial
  | _ => trivial

/-- A step that keeps to `Leaves`; any other is refused. -/
def leavingStep (config : Running workers) (label : Thread workers × Input) :
    Except Refusal (Running workers) :=
  if Leaves config label then (program workers).step config label else .error .crash

theorem step_of_leavingStep {label : Thread workers × Input} {after : Running workers}
    (made : leavingStep config label = .ok after) :
    (lockingServer workers).Step config label after ∧ Spares config label := by
  rw [leavingStep] at made
  split at made
  · next leaves => exact ⟨made, leaves.spares⟩
  · cases made

/-- A client is accepted, a worker receives from it and is about to send the bytes back;
then `WSASend` fails. -/
def failedSend : List (Thread 2 × Input) :=
  List.replicate 11 (.main, calls true) ++
    List.replicate 18 (.worker 0, completes frontClient .ioAccept ⟨0, none⟩ []) ++
    List.replicate 15 (.worker 0, completes frontClient .ioRecvZero ⟨0, none⟩ []) ++
    List.replicate 33 (.worker 0, completes frontClient .ioRecv ⟨clientBufSize, some 0⟩ [7]) ++
    [(.worker 0, calls false)]

/-- The context of the send is deleted, the session disconnected, and the receive that
was in flight completes. -/
def afterFailedSend : List (Thread 2 × Input) :=
  List.replicate 13 (.worker 0, calls true) ++
    List.replicate 9 (.worker 0, completes frontClient .ioRecvZero ⟨0, none⟩ [])

/-- The worker has its `mSendBufferLock` when it releases one of three references. -/
theorem deadlockFree_of_spares_failedSend : ∃ steps middle last,
    (lockingServer 2).Run (started 2) steps last ∧
    steps.map Prod.snd = failedSend ++ afterFailedSend ∧
    middle ∈ Machine.visited steps last ∧
    Holds middle 0 (.mSendBufferLock (.client frontClient)) ∧
    (middle.code (.worker 0)).nextOp = some (.decrementRefCount (.client frontClient)) ∧
    (middle.state.session (.client frontClient)).mRefCount = 3 ∧
    (last.state.session (.client frontClient)).mRefCount = 2 ∧
    ∀ config ∈ Machine.visited steps last, DeadlockFree config := by
  have checked : (Machine.follow leavingStep (started 2) failedSend).toOption.any (fun middle =>
      (Holds middle 0 (.mSendBufferLock (.client frontClient)) ∧
        (middle.code (.worker 0)).nextOp = some (.decrementRefCount (.client frontClient)) ∧
        (middle.state.session (.client frontClient)).mRefCount = 3) ∧
      (Machine.follow leavingStep middle afterFailedSend).toOption.any (fun last =>
        (last.state.session (.client frontClient)).mRefCount = 2) = true) = true := by
    decide +kernel
  rcases Machine.exists_run_of_check (fun _ _ _ => step_of_leavingStep) checked with
    ⟨earlier, middle, front, earlierLabels, earlierSpares, passed⟩
  rcases of_decide_eq_true passed with ⟨⟨holding, releasing, three⟩, rest⟩
  rcases Machine.exists_run_of_check (fun _ _ _ => step_of_leavingStep) rest with
    ⟨later, last, back, laterLabels, laterSpares, two⟩
  have run := front.append back
  refine ⟨_, middle, last, run, ?_, ?_, holding, releasing, three, of_decide_eq_true two, ?_⟩
  · rw [List.map_append, earlierLabels, laterLabels]
  · rw [Machine.visited_append]
    exact List.mem_append_right _ back.first_mem
  · apply deadlockFree_of_spares run
    · exact ⟨⟨_, rfl⟩, fun _ => rfl⟩
    · exact List.forall_mem_append.mpr ⟨earlierSpares, laterSpares⟩

/-! ## The accepting loop -/

/-- A session has been issued, and its accept context is in flight. -/
def State.issue (client : ClientId) (rest : List ClientId) (state : State workers) :
    State workers :=
  { state.setSession (.client client) { state.session (.client client) with mRefCount := 2 } with
    inFlight := ⟨.client client, .ioAccept, ⟨0, none⟩⟩ :: state.inFlight
    manager :=
      { state.manager with
        mFreeSessionList := rest
        mCurrentIssueCount := state.manager.mCurrentIssueCount + 1 } }

/-- One iteration, in which every call succeeds. -/
theorem follow_acceptClientSession {state : State workers} {code : Thread workers → Task Mode}
    {client : ClientId} {rest : List ClientId} (about : code .main = .done .accepting)
    (unlocked : state.owner (.classLock .ioAccept) = none)
    (below : Word.sub64 state.manager.mCurrentIssueCount state.manager.mCurrentReturnCount <
      maxConnection)
    (list : state.manager.mFreeSessionList = client :: rest)
    (zero : (state.session (.client client)).mRefCount = 0) :
    Machine.follow (program workers).step ⟨state, code⟩ (List.replicate 9 (.main, calls true)) =
      .ok ⟨state.issue client rest, code⟩ := by
  apply Program.follow_done
  · exact about
  apply Program.follow_call
  · rfl
  · simp only [program, State.perform, below, decide_true]
    rfl
  apply Program.follow_call
  · rfl
  · simp only [program, State.perform, list]
    rfl
  apply Program.follow_call
  · rfl
  · rfl
  apply Program.follow_call
  · rfl
  · simp only [program, State.perform, zero, zero_add]
    rfl
  -- `new` under the lock of the pool
  apply Program.follow_call
  · rfl
  · simp only [program, State.perform, State.setSession, unlocked]
    rfl
  apply Program.follow_call
  · rfl
  · rfl
  apply Program.follow_call
  · rfl
  · simp only [program, State.perform, State.setSession, State.setOwner, Function.update_self]
    rfl
  apply Program.follow_call
  · rfl
  · rfl
  have owner : Function.update state.owner (.classLock .ioAccept) none = state.owner := by
    rw [← unlocked, Function.update_eq_self]
  have kept : Function.update code .main (.done .accepting : Task Mode) = code := by
    rw [← about, Function.update_eq_self]
  simp only [Function.update_idem, owner]
  exact congrArg (fun code : Thread workers → Task Mode =>
    (.ok ⟨state.issue client rest, code⟩ : Except Refusal (Running workers))) kept

theorem follow_acceptClientSessions {state : State workers} {code : Thread workers → Task Mode}
    (about : code .main = .done .accept) (unlocked : state.owner .mLock = none) :
    Machine.follow (program workers).step ⟨state, code⟩ (List.replicate 2 (.main, calls true)) =
      .ok ⟨state.setOwner .mLock (some .main), Function.update code .main (.done .accepting)⟩ := by
  apply Program.follow_done
  · exact about
  apply Program.follow_call
  · rfl
  · simp only [program, State.perform, unlocked]
    rfl
  simp only [Function.update_idem]
  rfl

theorem follow_leave {state : State workers} {code : Thread workers → Task Mode}
    (about : code .main = .done .accepting)
    (full : ¬Word.sub64 state.manager.mCurrentIssueCount state.manager.mCurrentReturnCount <
      maxConnection) :
    Machine.follow (program workers).step ⟨state, code⟩ (List.replicate 3 (.main, calls true)) =
      .ok ⟨state.setOwner .mLock none, Function.update code .main (.done .accept)⟩ := by
  apply Program.follow_done
  · exact about
  apply Program.follow_call
  · rfl
  · simp only [program, State.perform, full, decide_false]
    rfl
  apply Program.follow_call
  · rfl
  · rfl
  simp only [Function.update_idem]
  rfl

/-- The server in the middle of the loop, when these sessions have been issued and
these are left. -/
def accepting (workers : ℕ) (raw : RawMemory) (taken free : List ClientId) : State workers :=
  { State.start workers raw with
    session
      | .client client =>
          { (State.start workers raw).session (.client client) with
            mRefCount := if client ∈ taken then 2 else 0 }
      | .server index => (State.start workers raw).session (.server index)
    inFlight := taken.map fun client => ⟨.client client, .ioAccept, ⟨0, none⟩⟩
    manager := ⟨free, taken.length, 0⟩
    owner := Function.update (fun _ => none) .mLock (some .main) }

/-- The code of the threads while the main thread is in this mode. -/
def atMode (mode : Mode) (thread : Thread workers) : Task Mode :=
  .done (if thread = .main then mode else Mode.start thread)

theorem issue_accepting (raw : RawMemory) (taken free : List ClientId) (client : ClientId) :
    (accepting workers raw taken (client :: free)).issue client free =
      accepting workers raw (client :: taken) free := by
  have session : ((accepting workers raw taken (client :: free)).issue client free).session =
      (accepting workers raw (client :: taken) free).session := by
    funext self
    by_cases same : self = .client client
    · subst same
      simp [State.issue, State.setSession, accepting]
    · simp only [State.issue, State.setSession, Function.update_of_ne same]
      cases self with
      | server index => rfl
      | client other =>
        have ne : other ≠ client := fun eq => same (congrArg _ eq)
        simp [accepting, ne]
  simp only [State.issue] at session ⊢
  rw [session]
  rfl

theorem stepped (before : Running workers) (label : Thread workers × Input)
    (after : Running workers) (step : (program workers).step before label = .ok after) :
    (lockingServer workers).Step before label after :=
  step

/-- The main thread issues the sessions that are left. -/
theorem reachable_accepting {raw : RawMemory} {taken free : List ClientId}
    (distinct : (taken ++ free).Nodup) (room : taken.length + free.length ≤ maxConnection)
    (reachable : (lockingServer workers).Reachable
      ⟨accepting workers raw taken free, atMode .accepting⟩) :
    (lockingServer workers).Reachable
      ⟨accepting workers raw (free.reverse ++ taken) [], atMode .accepting⟩ := by
  induction free generalizing taken with
  | nil => exact reachable
  | cons client free ih =>
      have fresh : client ∉ taken := by
        intro clientMem
        exact List.disjoint_of_nodup_append distinct clientMem List.mem_cons_self
      have below : Word.sub64 taken.length 0 < maxConnection := by
        rw [List.length_cons] at room
        rw [Word.sub64_eq (Nat.zero_le _)]
        · omega
        · exact Nat.lt_of_le_of_lt (by omega) (by decide : maxConnection < 2 ^ 64)
      have issued : (lockingServer workers).Reachable
          ⟨accepting workers raw (client :: taken) free, atMode .accepting⟩ := by
        rw [← issue_accepting]
        apply reachable.follow stepped
        apply follow_acceptClientSession
        · rfl
        · rfl
        · exact below
        · rfl
        · simp [accepting, fresh, State.start, Session.construct]
      rw [List.reverse_cons, List.append_assoc]
      apply ih
      · exact (List.perm_middle.nodup_iff).mp distinct
      · simpa [Nat.add_right_comm, Nat.add_assoc] using room
      · exact issued

theorem update_atMode (before after : Mode) :
    Function.update (atMode before) (.main : Thread workers) (.done after) = atMode after := by
  funext thread
  cases thread with
  | main => exact Function.update_self ..
  | _ => rfl

/-- The loop ends when every session is issued. -/
theorem reachable_left {raw : RawMemory} {taken : List ClientId}
    (everyone : taken.length = maxConnection)
    (reachable : (lockingServer workers).Reachable
      ⟨accepting workers raw taken [], atMode .accepting⟩) :
    (lockingServer workers).Reachable
      ⟨{ accepting workers raw taken [] with owner := fun _ => none }, atMode .accept⟩ := by
  have full : ¬Word.sub64 taken.length 0 < maxConnection := by
    rw [everyone]
    decide
  have left := reachable.follow stepped (follow_leave rfl full)
  rw [update_atMode] at left
  have unlocked : Function.update (Function.update (fun _ => none) Lock.mLock
      (some (.main : Thread workers))) .mLock none = fun _ => none := by
    rw [Function.update_idem]
    exact Function.update_eq_self ..
  rw [← unlocked]
  exact left

/-- The server when every session has been accepted for and the main thread sleeps. -/
def accepted (workers : ℕ) (raw : RawMemory) : Running workers :=
  ⟨{ accepting workers raw (prepareClientSessions maxConnection (Nat.le_refl _)).reverse [] with
      owner := fun _ => none }, atMode .accept⟩

theorem accepting_nil (raw : RawMemory) :
    (State.start workers raw).setOwner .mLock (some .main) =
      accepting workers raw [] (prepareClientSessions maxConnection (Nat.le_refl _)) := by
  have session : (State.start workers raw).session = (accepting workers raw []
      (prepareClientSessions maxConnection (Nat.le_refl _))).session := by
    funext self
    cases self <;> rfl
  simp only [State.setOwner]
  rw [session]
  rfl

theorem reachable_accepted (raw : RawMemory) :
    (lockingServer workers).Reachable (accepted workers raw) := by
  have start : (lockingServer workers).Reachable ⟨State.start workers raw, atMode .accept⟩ := by
    apply Machine.Reachable.ofInitial
    refine ⟨⟨raw, rfl⟩, ?_⟩
    intro thread
    cases thread <;> rfl
  have entered := start.follow stepped (follow_acceptClientSessions rfl rfl)
  rw [update_atMode, accepting_nil] at entered
  have distinct := nodup_prepareClientSessions (Nat.le_refl maxConnection)
  have length := length_prepareClientSessions (Nat.le_refl maxConnection)
  have issued := reachable_accepting (by simpa using distinct)
    (by simpa using Nat.le_of_eq length) entered
  rw [List.append_nil] at issued
  exact reachable_left (by rw [List.length_reverse, length]) issued

/-! ## A last release in `FlushSend` -/

/-- The end of the free list at the start. -/
def lastClient : ClientId := ⟨0, by decide⟩

/-- The first worker is about to send what it has received; the second disconnects the
session and handles the disconnect; then `WSASend` fails. -/
def lastRelease : List (Thread 2 × Input) :=
  List.replicate 18 (.worker 0, completes lastClient .ioAccept ⟨0, none⟩ []) ++
    List.replicate 15 (.worker 0, completes lastClient .ioRecvZero ⟨0, none⟩ []) ++
    List.replicate 32 (.worker 0, completes lastClient .ioRecv ⟨clientBufSize, some 0⟩ [7]) ++
    List.replicate 9 (.worker 1, completes lastClient .ioRecvZero ⟨0, none⟩ []) ++
    [(.worker 1, calls false)] ++
    List.replicate 14 (.worker 1, calls true) ++
    List.replicate 7 (.worker 1, completes lastClient .ioDisconnect ⟨0, none⟩ []) ++
    List.replicate 9 (.worker 0, calls false)

/-- The worker waits for the lock it took before its `WSASend` failed. -/
theorem lastRelease_deadlocks : ∃ config, (lockingServer 2).Reachable config ∧
    Holds config 0 (.mSendBufferLock (.client lastClient)) ∧
    Wants config 0 (.mSendBufferLock (.client lastClient)) ∧ ¬DeadlockFree config := by
  have checked : (Machine.follow (program 2).step
      (accepted 2 ⟨fun _ _ => 0, fun _ _ => 0⟩) lastRelease).toOption.any (fun config =>
        Holds config 0 (.mSendBufferLock (.client lastClient)) ∧
          Wants config 0 (.mSendBufferLock (.client lastClient))) = true := by
    decide +kernel
  rcases (reachable_accepted _).exists_of_check stepped checked with ⟨config, reachable, holds⟩
  rcases of_decide_eq_true holds with ⟨holding, wanting⟩
  refine ⟨config, reachable, holding, wanting, ?_⟩
  intro free
  exact free.alone 0 ⟨_, wanting, holding⟩

end Gsp.Homework5.Locking
