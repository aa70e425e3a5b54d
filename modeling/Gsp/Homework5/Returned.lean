import Gsp.Homework5.RecvOwner

/-!
# Sessions as they are returned

`ReturnClientSession` puts a session back as it was constructed, but for
`mSendPendingCount`: `SessionReset` leaves it alone, and a send that has failed is never
counted down. A reference added after the last one has been released is overlooked
altogether: then the session goes back with that reference and with a send in flight.
-/

namespace Gsp.Homework5.Locking.Owners

open Program Tokens

variable {workers : ℕ} {config : Running workers} {client : ClientId}

/-- The session is as constructed. -/
def Fresh (session : Session) : Prop :=
  ∃ rawRecv rawSend, session = .construct rawRecv rawSend clientBufSize

/-- The step takes the completion of a send of the client for a failure. -/
def FailsSend (client : ClientId) (config : Running workers) (label : Thread workers × Input) :
    Prop :=
  (config.code label.1).nextOp = some .getQueuedCompletionStatus ∧
    ∃ packet ∈ label.2.packet,
      packet.context.mSessionObject = .client client ∧ packet.context.mIoType = .ioSend ∧
        (packet.ret = false ∨ packet.dwTransferred = 0)

instance (config : Running workers) (label : Thread workers × Input) :
    Decidable (FailsSend client config label) :=
  inferInstanceAs (Decidable (_ ∧ ∃ packet ∈ label.2.packet, _))

/-- The thread is about to put the session into the free list. -/
def PutsBack (config : Running workers) (thread : Thread workers) (client : ClientId) : Prop :=
  (config.code thread).nextOp = some (.pushFreeSession client)

instance (config : Running workers) (thread : Thread workers) :
    Decidable (PutsBack config thread client) :=
  inferInstanceAs (Decidable (_ = _))

/-- A renewed session is fresh when none of its sends failed. -/
theorem fresh_iff_of_renewed {session : Session} {failed : ℕ} (renewed : Renewed session failed) :
    Fresh session ↔ failed = 0 := by
  rcases renewed with ⟨rawRecv, rawSend, rfl⟩
  constructor
  · rintro ⟨_, _, fresh⟩
    have pending : (failed : ℤ) = 0 := congrArg Session.mSendPendingCount fresh
    exact_mod_cast pending
  · rintro rfl
    exact ⟨rawRecv, rawSend, rfl⟩

theorem failsSend_performed (step : Running workers × (Thread workers × Input)) :
    (performed [step]).countP (failsSend client) = 0 ↔ ¬FailsSend client step.1 step.2 := by
  rcases step with ⟨config, thread, input⟩
  rw [performed, FailsSend]
  cases about : (config.code thread).nextOp with
  | none => simp [about]
  | some operation =>
      cases operation with
      | getQueuedCompletionStatus =>
          cases packet : input.packet <;> simp [about, packet, failsSend, List.countP_cons]
      | _ => simp [about, failsSend]

/-- No step fails a send when none of them does. -/
theorem countP_failsSend (steps : List (Running workers × (Thread workers × Input))) :
    (performed steps).countP (failsSend client) = 0 ↔
      ∀ step ∈ steps, ¬FailsSend client step.1 step.2 := by
  induction steps with
  | nil => simp [performed]
  | cons step steps ih =>
      rw [List.forall_mem_cons, ← ih, ← failsSend_performed, ← Nat.add_eq_zero_iff,
        ← List.countP_append, ← performed_append, List.singleton_append]

/-- While no worker adds a reference to a session that has none, a session is returned as
it was constructed unless one of its sends has failed. -/
theorem fresh_iff_of_referenced {first last before : Running workers}
    {label : Thread workers × Input}
    {steps earlier later : List (Running workers × (Thread workers × Input))}
    (run : (lockingServer workers).Run first steps last)
    (initial : (lockingServer workers).Initial first)
    (referenced : ∀ step ∈ steps, Referenced step.1 step.2)
    (split : steps = earlier ++ (before, label) :: later) (puts : PutsBack before label.1 client) :
    Fresh (before.state.session (.client client)) ↔
      ∀ step ∈ earlier, ¬FailsSend client step.1 step.2 := by
  have sound := sound_of_referenced (run.split split).1 initial fun step stepMem =>
    referenced step (split ▸ List.mem_append_left _ stepMem)
  rw [← countP_failsSend]
  cases code : before.code label.1 with
  | done mode =>
      rw [PutsBack, code] at puts
      cases puts
  | call operation next =>
      rw [PutsBack, code] at puts
      cases puts
      exact fresh_iff_of_renewed (sound.fine code)

/-! ## A session that is returned as it was constructed -/

/-- A step that meets the condition, and in which no send of the first session fails. -/
def succeedingStep (config : Running workers) (label : Thread workers × Input) :
    Except Refusal (Running workers) :=
  if FailsSend frontClient config label then .error .crash else referencedStep config label

theorem step_of_succeedingStep (before : Running workers) (label : Thread workers × Input)
    (after : Running workers) (made : succeedingStep before label = .ok after) :
    (lockingServer workers).Step before label after ∧
      Referenced before label ∧ ¬FailsSend frontClient before label := by
  rw [succeedingStep] at made
  split at made
  · cases made
  · next succeeds =>
      rcases step_of_referencedStep _ _ _ made with ⟨step, referenced⟩
      exact ⟨step, referenced, succeeds⟩

/-- It has received a byte and sent it back. -/
theorem fresh_iff_of_referenced_sendsOne : ∃ earlier before input later last,
    (lockingServer 2).Run (started 2) (earlier ++ (before, (.worker 0, input)) :: later) last ∧
    (earlier ++ (before, (.worker 0, input)) :: later).map Prod.snd = receivesOne ++ sendsOne ∧
    PutsBack before (.worker 0) frontClient ∧
    Fresh (before.state.session (.client frontClient)) ∧
    last.state.manager.mFreeSessionList.head? = some frontClient := by
  have checked : (Machine.follow succeedingStep (started 2)
      ((receivesOne ++ sendsOne).take 144)).toOption.any (fun before =>
        PutsBack before (.worker 0) frontClient ∧
        (Machine.follow succeedingStep before ((receivesOne ++ sendsOne).drop 144)).toOption.any
          (fun last => last.state.manager.mFreeSessionList.head? = some frontClient) = true) =
      true := by
    decide +kernel
  rcases Machine.exists_run_of_check step_of_succeedingStep checked with
    ⟨earlier, middle, front, earlierLabels, earlierFine, passed⟩
  rcases of_decide_eq_true passed with ⟨puts, rest⟩
  rcases Machine.exists_run_of_check step_of_succeedingStep rest with
    ⟨back, last, returning, laterLabels, laterFine, returned⟩
  rcases back with _ | ⟨⟨before, thread, input⟩, later⟩
  · cases laterLabels
  · rcases returning.head_eq with rfl
    have split := laterLabels
    rcases List.cons.inj split with ⟨same, _⟩
    cases same
    have run := front.append returning
    have fresh := fresh_iff_of_referenced run ⟨⟨_, rfl⟩, fun _ => rfl⟩
      (List.forall_mem_append.mpr ⟨fun step stepMem => (earlierFine step stepMem).1,
        fun step stepMem => (laterFine step stepMem).1⟩) rfl puts
    refine ⟨earlier, before, _, later, last, run, ?_, puts,
      fresh.mpr fun step stepMem => (earlierFine step stepMem).2, of_decide_eq_true returned⟩
    rw [List.map_append, earlierLabels, laterLabels, List.take_append_drop]

/-! ## Sessions that are not -/

/-- The byte is sent back, but the completion of the send fails. -/
def failsOne : List (Thread 2 × Input) :=
  List.replicate 37 (.worker 0, completes frontClient .ioRecv ⟨clientBufSize, some 0⟩ [7]) ++
    List.replicate 14
      (.worker 0, ⟨true, some ⟨⟨.client frontClient, .ioSend, ⟨1, some 0⟩⟩, false, 0⟩, []⟩) ++
    List.replicate 9 (.worker 0, completes frontClient .ioRecvZero ⟨0, none⟩ []) ++
    List.replicate 12 (.worker 0, completes frontClient .ioDisconnect ⟨0, none⟩ [])

theorem mSendPendingCount_of_fresh {session : Session} (fresh : Fresh session) :
    session.mSendPendingCount = 0 := by
  rcases fresh with ⟨_, _, rfl⟩
  rfl

/-- A session goes back with the count of a send that has failed, though every reference
was added in time; and one goes back with a late reference and its send in flight. -/
theorem failsOne_lateReference :
    (∃ steps last, (lockingServer 2).Run (started 2) steps last ∧
      (∀ step ∈ steps, Referenced step.1 step.2) ∧ PutsBack last (.worker 0) frontClient ∧
      (last.state.session (.client frontClient)).mSendPendingCount = 1 ∧
      ¬Fresh (last.state.session (.client frontClient))) ∧
    ∃ config, (lockingServer 2).Reachable config ∧ PutsBack config (.worker 1) lastClient ∧
      (config.state.session (.client lastClient)).mRefCount = 1 ∧
      (config.state.session (.client lastClient)).mSendPendingCount = 1 ∧
      ¬Fresh (config.state.session (.client lastClient)) := by
  have used {session : Session} (pending : session.mSendPendingCount = 1) : ¬Fresh session := by
    intro fresh
    rw [mSendPendingCount_of_fresh fresh] at pending
    cases pending
  constructor
  · have checked : (Machine.follow referencedStep (started 2)
        (receivesOne ++ failsOne)).toOption.any (fun last =>
          PutsBack last (.worker 0) frontClient ∧
            (last.state.session (.client frontClient)).mSendPendingCount = 1) = true := by
      decide +kernel
    rcases Machine.exists_run_of_check step_of_referencedStep checked with
      ⟨steps, last, run, _, referenced, passed⟩
    rcases of_decide_eq_true passed with ⟨puts, pending⟩
    exact ⟨steps, last, run, referenced, puts, pending, used pending⟩
  · have checked : (Machine.follow (program 2).step (accepted 2 ⟨fun _ _ => 0, fun _ _ => 0⟩)
        lateReference).toOption.any (fun config => PutsBack config (.worker 1) lastClient ∧
          (config.state.session (.client lastClient)).mRefCount = 1 ∧
          (config.state.session (.client lastClient)).mSendPendingCount = 1) = true := by
      decide +kernel
    rcases (reachable_accepted _).exists_of_check stepped checked with ⟨config, reachable, passed⟩
    rcases of_decide_eq_true passed with ⟨puts, referenced, pending⟩
    exact ⟨config, reachable, puts, referenced, pending, used pending⟩

end Gsp.Homework5.Locking.Owners
