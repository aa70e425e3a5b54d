import Gsp.Homework5.Completions
import Gsp.Homework5.Deadlock

/-!
# The owner of the receive buffer

`mRecvBuffer` has no lock. It has one owner all the same, as long as no worker adds a
reference to a session that has none left: then a session is issued only once at a
time, each of its receives leads to the next, and what a receive brings is committed
where the last `PostRecv` has put its window.

`FlushSend` does add such a reference when the session is disconnected and returned
between its look at `mConnected` and its `AddRef`. The session is then returned once
more when that send completes, and two `AcceptEx` are made for it.
-/

namespace Gsp.Homework5.Locking.Owners

open Program Tokens

variable {workers : ℕ} {config : Running workers}

/-- The client session to which a worker is about to add a reference. -/
def addsTo (config : Running workers) (label : Thread workers × Input) : Option ClientId :=
  match label.1, (config.code label.1).nextOp with
  | .worker _, some (.incrementRefCount (.client client)) => some client
  | _, _ => none

/-- A worker about to add a reference to a client session finds one. -/
def Referenced (config : Running workers) (label : Thread workers × Input) : Prop :=
  ∀ client ∈ addsTo config label, 0 < (config.state.session (.client client)).mRefCount

instance (config : Running workers) (label : Thread workers × Input) :
    Decidable (Referenced config label) :=
  match sought : addsTo config label with
  | none => .isTrue (by simp [Referenced, sought])
  | some client =>
      decidable_of_iff (0 < (config.state.session (.client client)).mRefCount)
        (by simp [Referenced, sought])

/-- A step with the reference held is allowed by the discipline. -/
theorem Referenced.allowed {label : Thread workers × Input} (referenced : Referenced config label)
    (log : List (Entry workers)) : AllowedStep (discipline workers) (config.beside log) label := by
  intro operation about
  cases operation with
  | incrementRefCount session =>
      cases session with
      | server index => trivial
      | client client =>
          rintro ⟨index, worker⟩
          simp only [Config.beside] at about
          apply referenced client
          rw [worker] at about
          simp only [addsTo, worker, about, Option.mem_def]
  | _ => trivial

/-- The thread is about to use `mRecvBuffer` of the client. -/
def Touches (config : Running workers) (thread : Thread workers) (client : ClientId) : Prop :=
  match (config.code thread).nextOp with
  | some (.recvBuffer session _) | some (.memcpy session _ _ _) => session = .client client
  | _ => False

/-- One receive of a client is in flight at most, and nobody uses its buffer then. -/
structure SoleOwner (config : Running workers) : Prop where
  single : ∀ client, (receivers client config.state).length ≤ 1
  untouched : ∀ thread client, Touches config thread client → receivers client config.state = []

/-- Only a session with another buffer changes a buffer. -/
theorem mRecvBuffer_setSession {state : State workers} {client : ClientId} (self : SessionId)
    (value : Session)
    (same : self = .client client → value.mRecvBuffer = (state.session self).mRecvBuffer) :
    ((state.setSession self value).session (.client client)).mRecvBuffer =
      (state.session (.client client)).mRecvBuffer := by
  simp only [State.setSession]
  by_cases here : SessionId.client client = self
  · subst here
    rw [Function.update_self]
    exact same rfl
  · rw [Function.update_of_ne here]

/-- Whoever does not use the buffer leaves it as it is. -/
theorem mRecvBuffer_of_not_touches {thread : Thread workers} {input : Input}
    {operation : Operation} {result : operation.Result} {state after : State workers}
    {client : ClientId}
    (performed : State.perform thread input operation state = .ok (result, after))
    (untouched : touches client ⟨thread, input, operation, state⟩ = false) :
    (after.session (.client client)).mRecvBuffer =
      (state.session (.client client)).mRecvBuffer := by
  cases operation with
  | crash => exact result.elim
  | recvBuffer self call =>
      cases performed
      apply mRecvBuffer_setSession
      rintro rfl
      simp [touches] at untouched
  | exchangeConnected | storeConnected | incrementRefCount | decrementRefCount | storeRefCount
  | addSendPendingCount | sendBuffer =>
      cases performed
      exact mRecvBuffer_setSession _ _ fun _ => rfl
  | memcpy self dest source len =>
      cases source with
      | none => cases performed
      | some source =>
          cases performed
          exact mRecvBuffer_setSession _ _ fun _ => rfl
  | getQueuedCompletionStatus =>
      simp only [State.perform] at performed
      split at performed
      · cases performed
        rfl
      · next packet packet_eq =>
          split at performed
          · cases performed
            apply mRecvBuffer_setSession
            intro owner
            rw [arrive_of_not_receives _ owner]
            intro received
            rw [touches, packet_eq] at untouched
            exact of_decide_eq_false untouched received
          · cases performed
  | submit context =>
      simp only [State.perform] at performed
      split at performed <;> cases performed <;> rfl
  | enterLock lock =>
      simp only [State.perform] at performed
      split at performed <;> cases performed
      rfl
  | popFreeSession =>
      simp only [State.perform] at performed
      split at performed <;> cases performed
      rfl
  | pushSendRequest | frontSendRequest | popSendRequest =>
      cases thread with
      | worker index =>
          cases performed
          rfl
      | _ => cases performed
  | _ =>
      cases performed
      rfl

/-! ## The start -/

/-- Nothing is held. -/
def Ghost.nothing : Ghost workers := ⟨[], 0, none⟩

theorem Ghost.share_nothing (client : ClientId) :
    Ghost.share client (.nothing : Ghost workers) = 0 := by
  funext token
  exact Multiset.count_zero _

theorem law_start (raw : RawMemory) (client : ClientId) :
    Law client (view client (State.start workers raw, []))
      (view client (State.start workers raw, [])).carried := by
  have once : (prepareClientSessions maxConnection (Nat.le_refl _)).count client ≤ 1 :=
    List.nodup_iff_count_le_one.mp (nodup_prepareClientSessions (Nat.le_refl _)) client
  have carried (token : Token) : (view client (State.start workers raw, [])).carried token =
      if token = .free then (prepareClientSessions maxConnection (Nat.le_refl _)).count client
      else 0 := by
    simp [view, View.carried, State.start, amount_replicate]
  have session : (view client (State.start workers raw, [])).session =
      .construct (raw.recv (.client client)) (raw.send (.client client)) clientBufSize :=
    rfl
  refine ⟨?_, rfl, rfl, fun _ => ⟨_, rfl⟩, fun _ => ⟨_, rfl⟩, by rintro _ ⟨⟩⟩
  constructor <;> simp [carried, pooled, mayReceive, session, Session.construct, once]
  rfl

/-- At the start every thread owns nothing. -/
theorem guarded_start (raw : RawMemory) :
    Guarded (State.start workers raw, []) fun _ => Ghost.nothing where
  few client := Shares.few_of_nothing fun _ => Ghost.share_nothing client
  owners lock thread := by
    constructor <;> exact nofun
  law client := by
    rw [Shares.total_of_nothing fun _ => Ghost.share_nothing client, zero_add]
    exact law_start raw client
  knows thread := by
    refine ⟨List.nodup_nil, nofun, ?_⟩
    intro client counting
    simp [Ghost.share_nothing] at counting

/-- The program is sound from the start. -/
theorem sound_start {first : Running workers} (initial : (lockingServer workers).Initial first) :
    (program workers).logged.Sound (discipline workers) Ends (first.beside []) := by
  rcases initial with ⟨⟨raw, start⟩, modes⟩
  refine ⟨fun _ => Ghost.nothing, ?_, ?_⟩
  · rw [Config.beside, start]
    exact guarded_start raw
  · intro thread
    rw [Config.beside, modes thread]
    cases thread <;> exact rfl

/-! ## Runs -/

section Runs

variable {first last before : Running workers} {label : Thread workers × Input}
  {steps earlier later : List (Running workers × (Thread workers × Input))}

/-- A run is sound with what has been performed. -/
theorem sound_of_referenced (run : (lockingServer workers).Run first steps last)
    (initial : (lockingServer workers).Initial first)
    (referenced : ∀ step ∈ steps, Referenced step.1 step.2) :
    (program workers).logged.Sound (discipline workers) Ends (last.beside (performed steps)) := by
  apply sound_of_run run
  · exact fun thread mode ghost ends => secure_body mode ends
  · exact sound_start initial
  · exact fun step stepMem => (referenced step stepMem).allowed

/-- Every receive in flight has the right to change the buffer. -/
theorem length_receives (contexts : List Context) :
    (contexts.filter (receives ·.mIoType)).length ≤
      (contexts.map fun context => amount (brings context.mIoType)).sum .start +
        (contexts.map fun context => amount (brings context.mIoType)).sum .baton := by
  induction contexts with
  | nil => exact Nat.zero_le _
  | cons context contexts ih =>
      have right : receives context.mIoType = true →
          0 < amount (brings context.mIoType) .start + amount (brings context.mIoType) .baton := by
        cases context.mIoType <;> simp [receives, brings]
      rw [List.filter_cons]
      simp only [List.map_cons, List.sum_cons, Pi.add_apply]
      split
      · next receiving =>
          have positive := right receiving
          rw [List.length_cons]
          omega
      · omega

/-- The receives of a session are counted by its tokens. -/
theorem length_receivers (client : ClientId) (state : State workers) (log : List (Entry workers)) :
    (receivers client state).length ≤
      (view client (state, log)).carried .start + (view client (state, log)).carried .baton := by
  have same : receivers client state =
      (view client (state, log)).inFlight.filter (receives ·.mIoType) := by
    simp only [receivers, view, List.filter_filter]
    apply List.filter_congr
    intro context _
    simp [Bool.and_comm]
  rw [same]
  apply (length_receives _).trans
  simp [View.carried, amount_replicate]

/-- Where the program is sound a session has one receiver. -/
theorem soleOwner_of_sound {log : List (Entry workers)}
    (sound : (program workers).logged.Sound (discipline workers) Ends (config.beside log)) :
    SoleOwner config := by
  constructor
  · intro client
    rcases sound with ⟨ghosts, guarded, _⟩
    have few := length_receivers client config.state log
    have receiving := (guarded.law client).receiving
    simp only [mayReceive, pooled, Pi.add_apply, Config.beside] at receiving
    omega
  · intro thread client touching
    rw [Touches] at touching
    cases about : config.code thread with
    | done mode =>
        rw [about] at touching
        exact touching.elim
    | call operation next =>
        have fine := sound.fine about
        rw [about] at touching
        cases operation with
        | recvBuffer self call =>
            cases touching
            exact fine.1
        | memcpy self dest source len =>
            cases touching
            exact fine
        | _ => exact touching.elim

/-- While no worker adds a reference to a session that has none, the receive buffer of
each session has one owner, and what a receive brings is committed where it was posted. -/
theorem soleOwner_of_referenced (run : (lockingServer workers).Run first steps last)
    (initial : (lockingServer workers).Initial first)
    (referenced : ∀ step ∈ steps, Referenced step.1 step.2) :
    (∀ config ∈ Machine.visited steps last, SoleOwner config) ∧
    ∀ earlier before label later client transferred, steps = earlier ++ (before, label) :: later →
      (before.code label.1).nextOp = some (.recvBuffer (.client client) (.commit transferred)) →
      Filled client label.1 transferred (before.state.session (.client client)).mRecvBuffer
        ((performed earlier).filter (touches client)) := by
  constructor
  · intro config passed
    rcases run.exists_front passed with ⟨earlier, later, split, front⟩
    apply soleOwner_of_sound (sound_of_referenced front initial ?_)
    intro step stepMem
    exact referenced step (split ▸ List.mem_append_left _ stepMem)
  · intro earlier before label later client transferred split about
    have sound := sound_of_referenced (run.split split).1 initial fun step stepMem =>
      referenced step (split ▸ List.mem_append_left _ stepMem)
    cases code : before.code label.1 with
    | done mode =>
        rw [code] at about
        cases about
    | call operation next =>
        rw [code] at about
        cases about
        exact (sound.fine code).2 transferred rfl

end Runs

/-! ## A connection from start to end -/

/-- A step of the server in which a worker finds a reference where it adds one. -/
def referencedStep (config : Running workers) (label : Thread workers × Input) :
    Except Refusal (Running workers) :=
  if Referenced config label then (program workers).step config label else .error .crash

theorem step_of_referencedStep (before : Running workers) (label : Thread workers × Input)
    (after : Running workers) (made : referencedStep before label = .ok after) :
    (lockingServer workers).Step before label after ∧ Referenced before label := by
  rw [referencedStep] at made
  split at made
  · next referenced => exact ⟨made, referenced⟩
  · cases made

/-- A session is accepted for, and the next `AcceptEx` fails. -/
def acceptsOne : List (Thread 2 × Input) :=
  List.replicate 19 (.main, calls true) ++ [(.main, calls false)] ++
    List.replicate 4 (.main, calls true)

/-- A client connects, and the worker waits for its first byte and takes it from the
completion port. -/
def receivesOne : List (Thread 2 × Input) :=
  acceptsOne ++
    List.replicate 18 (.worker 0, completes frontClient .ioAccept ⟨0, none⟩ []) ++
    List.replicate 15 (.worker 0, completes frontClient .ioRecvZero ⟨0, none⟩ []) ++
    List.replicate 2 (.worker 0, completes frontClient .ioRecv ⟨clientBufSize, some 0⟩ [7])

/-- The byte is sent back, the next receive fails in `WSARecv`, and the session is
disconnected and returned. -/
def sendsOne : List (Thread 2 × Input) :=
  List.replicate 37 (.worker 0, completes frontClient .ioRecv ⟨clientBufSize, some 0⟩ [7]) ++
    List.replicate 10 (.worker 0, completes frontClient .ioSend ⟨1, some 0⟩ [7]) ++
    List.replicate 11 (.worker 0, completes frontClient .ioRecvZero ⟨0, none⟩ []) ++
    [(.worker 0, calls false)] ++
    List.replicate 14 (.worker 0, calls true) ++
    List.replicate 18 (.worker 0, completes frontClient .ioDisconnect ⟨0, none⟩ [])

theorem soleOwner_of_referenced_sendsOne : ∃ earlier middle input later last,
    (lockingServer 2).Run (started 2) (earlier ++ (middle, (.worker 0, input)) :: later) last ∧
    (earlier ++ (middle, (.worker 0, input)) :: later).map Prod.snd = receivesOne ++ sendsOne ∧
    (middle.code (.worker 0)).nextOp = some (.recvBuffer (.client frontClient) (.commit 1)) ∧
    last.state.manager.mFreeSessionList.head? = some frontClient ∧
    (∀ config ∈ Machine.visited (earlier ++ (middle, (.worker 0, input)) :: later) last,
      SoleOwner config) ∧
    Filled frontClient (.worker 0) 1 (middle.state.session (.client frontClient)).mRecvBuffer
      ((performed earlier).filter (touches frontClient)) := by
  have checked : (Machine.follow referencedStep (started 2) receivesOne).toOption.any
      (fun middle =>
        (middle.code (.worker 0)).nextOp = some (.recvBuffer (.client frontClient) (.commit 1)) ∧
        (Machine.follow referencedStep middle sendsOne).toOption.any (fun last =>
          last.state.manager.mFreeSessionList.head? = some frontClient) = true) = true := by
    decide +kernel
  rcases Machine.exists_run_of_check step_of_referencedStep checked with
    ⟨earlier, middle, front, earlierLabels, earlierReferenced, passed⟩
  rcases of_decide_eq_true passed with ⟨about, rest⟩
  rcases Machine.exists_run_of_check step_of_referencedStep rest with
    ⟨back, last, returning, laterLabels, laterReferenced, returned⟩
  rcases back with _ | ⟨⟨before, thread, input⟩, later⟩
  · cases laterLabels
  · rcases returning.head_eq with rfl
    have split := laterLabels
    rw [sendsOne, List.replicate_succ] at split
    rcases List.cons.inj split with ⟨same, _⟩
    cases same
    have run := front.append returning
    have owner := soleOwner_of_referenced run ⟨⟨_, rfl⟩, fun _ => rfl⟩
      (List.forall_mem_append.mpr ⟨earlierReferenced, laterReferenced⟩)
    refine ⟨earlier, before, _, later, last, run, ?_, about, of_decide_eq_true returned, owner.1,
      owner.2 _ _ _ _ _ _ rfl about⟩
    rw [List.map_append, earlierLabels, laterLabels]

/-! ## A late reference -/

/-- The worker is about to add the reference for a send when the session is disconnected
and returned as far as its receive buffer; then the send goes out. -/
def lateReference : List (Thread 2 × Input) :=
  List.replicate 18 (.worker 0, completes lastClient .ioAccept ⟨0, none⟩ []) ++
    List.replicate 15 (.worker 0, completes lastClient .ioRecvZero ⟨0, none⟩ []) ++
    List.replicate 30 (.worker 0, completes lastClient .ioRecv ⟨clientBufSize, some 0⟩ [7]) ++
    List.replicate 9 (.worker 1, completes lastClient .ioRecvZero ⟨0, none⟩ []) ++
    [(.worker 1, calls false)] ++
    List.replicate 14 (.worker 1, calls true) ++
    List.replicate 9 (.worker 1, completes lastClient .ioDisconnect ⟨0, none⟩ []) ++
    List.replicate 9 (.worker 0, calls true) ++
    List.replicate 3 (.worker 1, calls true)

/-- The session goes back to the free list, and again when the send completes. -/
def returnsTwice : List (Thread 2 × Input) :=
  List.replicate 28 (.worker 1, completes lastClient .ioSend ⟨1, some 0⟩ [7]) ++
    List.replicate 20 (.main, calls true)

/-- Two `AcceptEx` are in flight for one session. -/
theorem lateReference_acceptsTwice : ∃ config, (lockingServer 2).Reachable config ∧
    config.state.inFlight.take 2 = List.replicate 2 ⟨.client lastClient, .ioAccept, ⟨0, none⟩⟩ ∧
    ¬SoleOwner config := by
  have checked : (Machine.follow (program 2).step (accepted 2 ⟨fun _ _ => 0, fun _ _ => 0⟩)
      (lateReference ++ returnsTwice)).toOption.any (fun config =>
        config.state.inFlight.take 2 =
          List.replicate 2 ⟨.client lastClient, .ioAccept, ⟨0, none⟩⟩) = true := by
    decide +kernel
  rcases (reachable_accepted _).exists_of_check stepped checked with ⟨config, reachable, holds⟩
  have both := of_decide_eq_true holds
  refine ⟨config, reachable, both, ?_⟩
  intro owner
  have single := owner.single lastClient
  rw [receivers, ← List.take_append_drop 2 config.state.inFlight, both, List.filter_append,
    List.length_append] at single
  exact absurd (Nat.le_trans (Nat.le_add_right _ _) single) (by decide)

end Gsp.Homework5.Locking.Owners
