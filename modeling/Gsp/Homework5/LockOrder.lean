import Gsp.Homework5.Locking
import Gsp.Lib.LockOrder

/-!
# The order of the locks

`ReturnClientSession` takes `mLock` before a `mSendBufferLock`, and the lock of a
context pool is taken with either of them held. Only a `ReleaseRef` made in
`FlushSend` goes against this order, when it releases the last reference of a client
session: then it returns the session with its `mSendBufferLock` held. As long as this
does not happen, every function takes the locks in their order and leaves them again.
-/

namespace Gsp.Homework5.Locking

/-- The place of a lock in the order in which locks are taken. -/
def Lock.rank : Lock → ℕ
  | .mLock => 0
  | .mSendBufferLock _ => 1
  | .classLock _ => 2

variable {workers : ℕ}

/-- A worker, not the main thread or a thread that connects. -/
def Thread.IsWorker (thread : Thread workers) : Prop := ∃ index, thread = .worker index

/-- Taking or leaving a lock. -/
def Operation.isOnLock : Operation → Bool
  | .enterLock _ | .leaveLock _ => true
  | _ => false

/-- What an operation asks of the state: a worker takes locks in their order. -/
def State.Fine (thread : Thread workers) (operation : Operation) (state : State workers) : Prop :=
  match operation with
  | .enterLock lock => thread.IsWorker →
      ∀ held, state.owner held = some thread → held.rank < lock.rank
  | _ => True

/-- A worker with a `mSendBufferLock` does not release the last reference of a client
session. -/
def State.Spares (thread : Thread workers) (operation : Operation) (state : State workers) :
    Prop :=
  match operation with
  | .decrementRefCount (.client client) => thread.IsWorker →
      (∃ session, state.owner (.mSendBufferLock session) = some thread) →
      (state.session (.client client)).mRefCount ≠ 1
  | _ => True

/-- The ghosts are the locks of the threads. -/
structure Held (state : State workers) (ghosts : Thread workers → List Lock) : Prop where
  owners : ∀ lock thread, state.owner lock = some thread ↔ lock ∈ ghosts thread
  once : ∀ thread, (ghosts thread).Nodup

/-- The ghost of a thread is the list of the locks it holds. -/
def discipline (workers : ℕ) :
    Program.Discipline (Thread workers) (State workers) Operation (List Lock) where
  Inv := Held
  Allowed := State.Spares
  Fine := State.Fine

section Rules

open Program State

variable {thread : Thread workers} {locks : List Lock}

theorem owner_perform {input : Input} {operation : Operation} {state after : State workers}
    {result : operation.Result} (other : operation.isOnLock = false)
    (performed : State.perform thread input operation state = .ok (result, after)) :
    after.owner = state.owner := by
  cases operation with
  | enterLock lock => cases other
  | leaveLock lock => cases other
  | memcpy session dest source len =>
      cases source with
      | none => cases performed
      | some source =>
          cases performed
          rfl
  | pushSendRequest session | frontSendRequest | popSendRequest =>
      cases thread with
      | worker index =>
          cases performed
          rfl
      | _ => cases performed
  | submit context | popFreeSession =>
      simp only [State.perform] at performed
      split at performed <;> cases performed <;> rfl
  | getQueuedCompletionStatus =>
      simp only [State.perform] at performed
      split at performed
      · cases performed
        rfl
      · split at performed <;> cases performed
        rfl
  | crash => cases performed
  | _ =>
      cases performed
      rfl

variable (thread)

/-- The operation keeps to the discipline. -/
abbrev Goes (operation : Operation) (locks : List Lock)
    (post : operation.Result → List Lock → Prop) : Prop :=
  (program workers).Steps (discipline workers) thread operation locks post

/-- The code keeps to the discipline. -/
abbrev Secure {Value : Type} (task : Task Value) (locks : List Lock)
    (post : Value → List Lock → Prop) : Prop :=
  (program workers).Safe (discipline workers) thread task locks post

/-- The code ends with the locks it began with. -/
abbrev Keeps {Value : Type} (task : Task Value) (locks : List Lock) : Prop :=
  Secure thread task locks fun _ next => next = locks

variable {thread}

/-- Only the owners of the locks matter. -/
theorem Held.keep {state after : State workers} {ghosts : Thread workers → List Lock}
    (held : Held state ghosts) (owner : after.owner = state.owner) :
    Held after (Function.update ghosts thread (ghosts thread)) := by
  rw [Function.update_eq_self]
  constructor
  · rw [owner]
    exact held.owners
  · exact held.once

/-- An operation on something else than a lock. -/
theorem goes_other {operation : Operation} (other : operation.isOnLock = false) :
    Goes thread operation locks fun _ next => next = locks := by
  rintro state ghosts held rfl
  constructor
  · cases operation with
    | enterLock lock => cases other
    | _ => trivial
  · intro input result after _ performed
    have owner := owner_perform other performed
    exact ⟨_, held.keep owner, rfl⟩

/-- A lock changes its owner; other threads do not own it before or after. -/
theorem Held.setOwner {state : State workers} {ghosts : Thread workers → List Lock}
    (held : Held state ghosts) {lock : Lock} {owner : Option (Thread workers)} {next : List Lock}
    (once : next.Nodup) (mine : owner = some thread ↔ lock ∈ next)
    (others : ∀ other ≠ thread, owner ≠ some other ∧ lock ∉ ghosts other)
    (rest : ∀ other ≠ lock, other ∈ ghosts thread ↔ other ∈ next) :
    Held (state.setOwner lock owner) (Function.update ghosts thread next) := by
  constructor
  · intro other holder
    by_cases sameLock : other = lock
    · subst sameLock
      simp only [State.setOwner, Function.update_self]
      by_cases same : holder = thread
      · subst same
        rwa [Function.update_self]
      · rw [Function.update_of_ne same]
        rcases others holder same with ⟨notOwner, notHeld⟩
        exact ⟨fun owns => absurd owns notOwner, fun holds => absurd holds notHeld⟩
    · simp only [State.setOwner, Function.update_of_ne sameLock]
      by_cases same : holder = thread
      · subst same
        rw [Function.update_self]
        exact (held.owners other holder).trans (rest other sameLock)
      · rw [Function.update_of_ne same]
        exact held.owners other holder
  · intro holder
    by_cases same : holder = thread
    · subst same
      rwa [Function.update_self]
    · rw [Function.update_of_ne same]
      exact held.once holder

/-- Locks are taken in their order; only a thread that is no worker may wait for itself. -/
theorem goes_enterLock {lock : Lock}
    (above : thread.IsWorker → ∀ held ∈ locks, held.rank < lock.rank) :
    Goes thread (.enterLock lock) locks fun _ next => next = lock :: locks ∧ lock ∉ locks := by
  rintro state ghosts held rfl
  constructor
  · intro works other owner
    exact above works other ((held.owners other thread).mp owner)
  · intro input result after _ performed
    simp only [program, State.perform] at performed
    split at performed
    · next free =>
        cases performed
        have unheld (other : Thread workers) : lock ∉ ghosts other := by
          intro lockMem
          have owner := (held.owners lock other).mpr lockMem
          rw [free] at owner
          cases owner
        refine ⟨_, ?_, rfl, unheld thread⟩
        apply held.setOwner
        · exact List.nodup_cons.mpr ⟨unheld thread, held.once thread⟩
        · exact ⟨fun _ => List.mem_cons_self, fun _ => rfl⟩
        · intro other ne
          exact ⟨fun same => ne (Option.some.inj same).symm, unheld other⟩
        · intro other ne
          exact ⟨List.mem_cons_of_mem lock, List.mem_of_ne_of_mem ne⟩
    · cases performed

/-- A lock that is left is no longer held. -/
theorem goes_leaveLock {lock : Lock} :
    Goes thread (.leaveLock lock) (lock :: locks) fun _ next => next = locks := by
  rintro state ghosts held about
  refine ⟨trivial, ?_⟩
  intro input result after _ performed
  cases performed
  refine ⟨_, ?_, rfl⟩
  have once := held.once thread
  rw [about] at once
  rcases List.nodup_cons.mp once with ⟨notMem, rest⟩
  have owner := (held.owners lock thread).mpr (by rw [about]; exact List.mem_cons_self)
  apply held.setOwner
  · exact rest
  · exact ⟨nofun, fun lockMem => absurd lockMem notMem⟩
  · intro other ne
    refine ⟨nofun, ?_⟩
    intro lockMem
    have owns := (held.owners lock other).mpr lockMem
    rw [owner] at owns
    exact ne (Option.some.inj owns).symm
  · intro other ne
    rw [about]
    exact ⟨List.mem_of_ne_of_mem ne, List.mem_cons_of_mem lock⟩

/-- The reference a worker releases with a `mSendBufferLock` is not the last. -/
theorem goes_decrementRefCount (session : SessionId) :
    Goes thread (.decrementRefCount session) locks fun (count : ℤ) next =>
      next = locks ∧ (count = 0 → ∀ client, session = .client client → thread.IsWorker →
        ∀ other, .mSendBufferLock other ∉ locks) := by
  rintro state ghosts held rfl
  refine ⟨trivial, ?_⟩
  intro input result after spares performed
  cases performed
  refine ⟨_, held.keep rfl, rfl, ?_⟩
  rintro zero client rfl works other lockMem
  have owner := (held.owners _ thread).mpr lockMem
  exact spares works ⟨other, owner⟩ (by omega)

/-! ## The functions -/

theorem secure_act {operation : Operation} {post : operation.Result → List Lock → Prop}
    (goes : Goes thread operation locks post) : Secure thread (act operation) locks post :=
  goes

variable {Value Other : Type} {task : Task Value} {rest : Value → Task Other}

theorem secure_crash {post : Value → List Lock → Prop} : Secure thread crash locks post := by
  apply Steps.mono (goes_other rfl)
  exact fun result _ _ => result.elim

/-- One after the other. -/
theorem Keeps.bind {post : Other → List Lock → Prop} (keeps : Keeps thread task locks)
    (later : ∀ value, Secure thread (rest value) locks post) :
    Secure thread (task >>= rest) locks post := by
  apply Safe.bind keeps
  rintro value _ rfl
  exact later value

theorem keeps_pure (value : Value) : Keeps thread (pure value) locks :=
  rfl

theorem keeps_crashAssert (condition : Bool) : Keeps thread (crashAssert condition) locks := by
  cases condition
  · exact secure_crash
  · exact rfl

/-- An operation on no lock leaves the held locks alone. -/
theorem keeps_act {operation : Operation} (other : operation.isOnLock = false) :
    Keeps thread (act operation) locks :=
  goes_other other

/-- A block under a lock; a thread that is no worker may hold the lock and be stuck. -/
theorem keeps_guarded {lock : Lock}
    (above : thread.IsWorker → ∀ held ∈ locks, held.rank < lock.rank)
    (inside : lock ∉ locks → Keeps thread task (lock :: locks)) :
    Keeps thread (guarded lock task) locks := by
  apply Safe.bind (secure_act (goes_enterLock above))
  rintro _ _ ⟨rfl, notHeld⟩
  apply (inside notHeld).bind
  intro value
  apply Safe.bind (secure_act goes_leaveLock)
  rintro _ _ rfl
  exact rfl

/-- Where a thread releases references: without a lock, in `FlushSend`, or in the
accepting loop. -/
inductive Place (thread : Thread workers) : List Lock → Prop where
  | free : Place thread []
  | flushing (works : thread.IsWorker) (session : SessionId) :
      Place thread [.mSendBufferLock session]
  | accepting (idle : ¬thread.IsWorker) : Place thread [.mLock]

/-- Wherever a reference is released only locks of low rank are held. -/
theorem Place.below (place : Place thread locks) : ∀ held ∈ locks, held.rank < 2 := by
  cases place <;> simp [Lock.rank]

theorem keeps_classLock (place : Place thread locks) (mIoType : IOType) :
    Keeps thread (guarded (.classLock mIoType) (pure ())) locks := by
  apply keeps_guarded
  · intro _
    exact place.below
  · intro _
    exact keeps_pure ()

theorem keeps_addRef (session : SessionId) : Keeps thread (addRef session) locks := by
  refine Keeps.bind (keeps_act rfl) ?_
  intro count
  exact keeps_crashAssert _

theorem keeps_sessionReset (client : ClientId) :
    Keeps thread (sessionReset client) [.mLock] := by
  refine Keeps.bind (keeps_act rfl) ?_
  intro _
  refine Keeps.bind (keeps_act rfl) ?_
  intro _
  refine Keeps.bind (keeps_act rfl) ?_
  intro _
  have above (_ : thread.IsWorker) : ∀ held ∈ [Lock.mLock],
      held.rank < (Lock.mSendBufferLock (.client client)).rank := by
    simp [Lock.rank]
  apply Safe.bind (secure_act (goes_enterLock above))
  rintro _ _ ⟨rfl, _⟩
  refine Keeps.bind (keeps_act rfl) ?_
  intro _
  exact goes_leaveLock

/-- Called without a lock; or by the accepting loop, which then waits for itself. -/
theorem keeps_returnClientSession (client : ClientId)
    (unlocked : locks = [] ∨ ¬thread.IsWorker ∧ .mLock ∈ locks) :
    Keeps thread (returnClientSession client) locks := by
  apply keeps_guarded
  · intro works
    rcases unlocked with rfl | ⟨idle, _⟩
    · simp
    · exact absurd works idle
  · intro notHeld
    rcases unlocked with rfl | ⟨_, lockMem⟩
    · refine Keeps.bind (keeps_act rfl) ?_
      intro connected
      refine Keeps.bind (keeps_act rfl) ?_
      intro count
      apply (keeps_crashAssert _).bind
      intro _
      apply (keeps_sessionReset client).bind
      intro _
      refine Keeps.bind (keeps_act rfl) ?_
      intro _
      exact keeps_act rfl
    · exact absurd lockMem notHeld

/-- The last reference is released below the locks that its release takes. -/
theorem keeps_releaseRef (place : Place thread locks) (session : SessionId) :
    Keeps thread (releaseRef session) locks := by
  apply Safe.bind (secure_act (goes_decrementRefCount session))
  rintro (ret : ℤ) _ ⟨rfl, notLast⟩
  apply (keeps_crashAssert _).bind
  intro _
  by_cases zero : ret = 0
  · rw [if_pos zero]
    cases session with
    | server index => exact keeps_pure ()
    | client client =>
        apply keeps_returnClientSession
        cases place with
        | free => exact Or.inl rfl
        | flushing works session =>
            exact absurd List.mem_cons_self (notLast zero client rfl works session)
        | accepting idle => exact Or.inr ⟨idle, List.mem_cons_self⟩
  · rw [if_neg zero]
    exact keeps_pure ()

/-- A context is made with its pool locked for a moment. -/
theorem keeps_newContext (place : Place thread locks) (session : SessionId) (mIoType : IOType) :
    Keeps thread (newContext session mIoType) locks := by
  apply (keeps_classLock place mIoType).bind
  intro _
  apply (keeps_addRef session).bind
  intro _
  exact keeps_pure _

theorem keeps_deleteIoContext (place : Place thread locks) (context : Context) :
    Keeps thread (deleteIoContext context) locks := by
  apply (keeps_releaseRef place context.mSessionObject).bind
  intro _
  by_cases unknown : context.mIoType = .ioNone
  · rw [if_pos unknown]
    exact secure_crash
  · rw [if_neg unknown]
    exact keeps_classLock place context.mIoType

theorem keeps_post (place : Place thread locks) (context : Context) :
    Keeps thread (post context) locks := by
  refine Keeps.bind (keeps_act rfl) ?_
  rintro (posted : Bool)
  cases posted
  · apply (keeps_deleteIoContext place context).bind
    intro _
    exact keeps_pure false
  · exact keeps_pure true

/-- An overlapped call leaves the held locks alone. -/
theorem keeps_request (place : Place thread locks) (session : SessionId) (mIoType : IOType) :
    Keeps thread (newContext session mIoType >>= post) locks := by
  apply (keeps_newContext place session mIoType).bind
  exact keeps_post place

theorem keeps_disconnectRequest (place : Place thread locks) (session : SessionId) :
    Keeps thread (disconnectRequest session) locks := by
  refine Keeps.bind (keeps_act rfl) ?_
  rintro (connected : Bool)
  cases connected
  · exact keeps_pure ()
  · apply (keeps_newContext place session .ioDisconnect).bind
    intro context
    apply (keeps_post place context).bind
    intro _
    exact keeps_pure ()

theorem keeps_preRecv (place : Place thread locks) (session : SessionId) :
    Keeps thread (preRecv session) locks := by
  refine Keeps.bind (keeps_act rfl) ?_
  rintro (connected : Bool)
  cases connected
  · exact keeps_pure false
  · exact keeps_request place session .ioRecvZero

theorem keeps_postRecv (place : Place thread locks) (session : SessionId) :
    Keeps thread (postRecv session) locks := by
  refine Keeps.bind (keeps_act rfl) ?_
  rintro (connected : Bool)
  cases connected
  · exact keeps_pure false
  refine Keeps.bind (keeps_act rfl) ?_
  rintro (free : ℕ)
  by_cases full : free = 0
  · rw [if_pos full]
    exact keeps_pure false
  · rw [if_neg full]
    apply (keeps_newContext place session .ioRecv).bind
    intro recvContext
    refine Keeps.bind (keeps_act rfl) ?_
    intro len
    refine Keeps.bind (keeps_act rfl) ?_
    intro buf
    exact keeps_post place _

/-- `PostSend` leaves its lock on every path. -/
theorem keeps_postSend (session : SessionId) (data : Option ℕ) (len : ℕ) :
    Keeps thread (postSend session data len) [] := by
  refine Keeps.bind (keeps_act rfl) ?_
  rintro (connected : Bool)
  cases connected
  · exact keeps_pure false
  apply keeps_guarded
  · simp
  · intro _
    refine Keeps.bind (keeps_act rfl) ?_
    rintro (free : ℕ)
    by_cases full : free < len
    · rw [if_pos full]
      exact keeps_pure false
    · rw [if_neg full]
      refine Keeps.bind (keeps_act rfl) ?_
      intro _
      refine Keeps.bind (keeps_act rfl) ?_
      intro destData
      refine Keeps.bind (keeps_act rfl) ?_
      intro _
      refine Keeps.bind (keeps_act rfl) ?_
      intro _
      exact keeps_pure true

theorem keeps_echoBack (session : SessionId) : Keeps thread (echoBack session) [] := by
  refine Keeps.bind (keeps_act rfl) ?_
  rintro (len : ℕ)
  by_cases nothing : len = 0
  · rw [if_pos nothing]
    exact keeps_pure ()
  · rw [if_neg nothing]
    refine Keeps.bind (keeps_act rfl) ?_
    intro start
    apply (keeps_postSend session start len).bind
    intro sent
    cases sent
    · exact keeps_pure ()
    · exact keeps_act rfl

/-- Only a worker flushes, so `mSendBufferLock` is released before the session is. -/
theorem keeps_flushSend (works : thread.IsWorker) (session : SessionId) :
    Keeps thread (flushSend session) [] := by
  refine Keeps.bind (keeps_act rfl) ?_
  rintro (connected : Bool)
  cases connected
  · apply (keeps_disconnectRequest .free session).bind
    intro _
    exact keeps_pure true
  have place : Place thread [.mSendBufferLock session] := .flushing works session
  apply keeps_guarded
  · simp
  · intro _
    refine Keeps.bind (keeps_act rfl) ?_
    rintro (contiguious : ℕ)
    refine Keeps.bind (keeps_act rfl) ?_
    rintro (pending : ℤ)
    by_cases nothing : contiguious = 0
    · rw [if_pos nothing]
      exact keeps_pure _
    rw [if_neg nothing]
    by_cases sending : 0 < pending
    · rw [if_pos sending]
      exact keeps_pure false
    rw [if_neg sending]
    apply (keeps_newContext place session .ioSend).bind
    intro sendContext
    refine Keeps.bind (keeps_act rfl) ?_
    intro len
    refine Keeps.bind (keeps_act rfl) ?_
    intro buf
    apply (keeps_post place _).bind
    intro posted
    cases posted
    · apply (keeps_disconnectRequest place session).bind
      intro _
      exact keeps_pure true
    · refine Keeps.bind (keeps_act rfl) ?_
      intro _
      refine Keeps.bind (keeps_act rfl) ?_
      intro pending
      exact keeps_pure _

/-- A completed send leaves its lock on every path. -/
theorem keeps_sendCompletion (session : SessionId) (transferred : ℕ) :
    Keeps thread (sendCompletion session transferred) [] := by
  apply keeps_guarded
  · simp
  · intro _
    refine Keeps.bind (keeps_act rfl) ?_
    intro _
    exact keeps_act rfl

theorem keeps_setUpSocket (calls : List SetUp) : Keeps thread (setUpSocket calls) locks := by
  induction calls with
  | nil => exact keeps_pure true
  | cons call calls ih =>
      refine Keeps.bind (keeps_act rfl) ?_
      rintro (resultOk : Bool)
      cases resultOk
      · exact keeps_pure false
      · exact ih

/-- An accepted connection leaves every lock that it takes. -/
theorem keeps_acceptCompletion (client : ClientId) :
    Keeps thread (acceptCompletion client) [] := by
  refine Keeps.bind (keeps_act rfl) ?_
  rintro (connected : Bool)
  cases connected
  · apply (keeps_setUpSocket _).bind
    intro resultOk
    cases resultOk
    · exact keeps_disconnectRequest .free _
    · apply (keeps_preRecv .free _).bind
      intro _
      exact keeps_pure ()
  · exact secure_crash

theorem keeps_connectRequest (index : ℕ) : Keeps thread (connectRequest index) [] := by
  refine Keeps.bind (keeps_act rfl) ?_
  rintro (connected : Bool)
  cases connected
  · apply (keeps_setUpSocket _).bind
    intro resultOk
    cases resultOk
    · exact keeps_pure false
    · apply (keeps_newContext .free _ .ioConnect).bind
      intro context
      apply (keeps_post .free context).bind
      intro _
      exact keeps_pure true
  · exact secure_crash

theorem keeps_connectCompletion (index : ℕ) : Keeps thread (connectCompletion index) [] := by
  refine Keeps.bind (keeps_act rfl) ?_
  rintro (updated : Bool)
  cases updated
  · exact keeps_pure ()
  apply (keeps_setUpSocket _).bind
  intro resultOk
  cases resultOk
  · exact secure_crash
  apply (keeps_preRecv .free _).bind
  intro _
  refine Keeps.bind (keeps_act rfl) ?_
  intro connected
  exact keeps_crashAssert _

/-! ## The loops -/

/-- Every completion handler leaves the locks that it takes. -/
theorem keeps_dispatch (session : SessionId) (context : Context) (dwTransferred : ℕ) :
    Keeps thread (dispatch session context dwTransferred) [] := by
  unfold dispatch
  split
  · apply (keeps_connectCompletion _).bind
    intro _
    exact keeps_pure true
  · apply (keeps_releaseRef .free _).bind
    intro _
    exact keeps_pure true
  · apply (keeps_acceptCompletion _).bind
    intro _
    exact keeps_pure true
  · exact keeps_postRecv .free _
  · apply (keeps_sendCompletion _ dwTransferred).bind
    intro _
    exact keeps_pure _
  · refine Keeps.bind (keeps_act rfl) ?_
    intro _
    apply (keeps_echoBack _).bind
    intro _
    exact keeps_preRecv .free _
  · exact secure_crash

/-- What a thread holds between two rounds of its loop. -/
def Mode.Ends (thread : Thread workers) (mode : Mode) (locks : List Lock) : Prop :=
  match thread, mode with
  | .main, .accepting => locks = [.mLock]
  | _, _ => locks = []

/-- A handler closes its session with no lock held. -/
theorem keeps_closeJob (session : SessionId) (context : Context) (completionOk : Bool) :
    Keeps thread (closeJob session context completionOk) [] := by
  cases completionOk
  · apply (keeps_disconnectRequest .free session).bind
    intro _
    apply (keeps_deleteIoContext .free context).bind
    intro _
    exact keeps_pure _
  · apply (keeps_deleteIoContext .free context).bind
    intro _
    exact keeps_pure _

/-- A turn of `DoIocpJob` starts and ends with no lock held. -/
theorem keeps_doIocpJob : Keeps thread doIocpJob [] := by
  refine Keeps.bind (keeps_act rfl) ?_
  rintro (_ | ⟨context, ret, dwTransferred⟩)
  · exact keeps_pure _
  · dsimp only
    split
    · exact keeps_closeJob ..
    · apply (keeps_dispatch ..).bind
      intro completionOk
      exact keeps_closeJob ..

/-- A turn of `DoSendJob` starts and ends with no lock held. -/
theorem keeps_doSendJob (works : thread.IsWorker) : Keeps thread doSendJob [] := by
  refine Keeps.bind (keeps_act rfl) ?_
  rintro (_ | session)
  · exact keeps_pure _
  · apply (keeps_flushSend works session).bind
    intro flushed
    cases flushed
    · exact keeps_pure _
    · refine Keeps.bind (keeps_act rfl) ?_
      intro _
      exact keeps_pure _

theorem not_isWorker_main : ¬(Thread.main : Thread workers).IsWorker := by
  rintro ⟨index, impossible⟩
  cases impossible

/-- The accepting loop starts under the lock of the manager. -/
theorem secure_acceptClientSessions : Secure (Thread.main : Thread workers) acceptClientSessions []
    (Mode.Ends (Thread.main : Thread workers)) := by
  have above (works : (Thread.main : Thread workers).IsWorker) :
      ∀ held ∈ ([] : List Lock), held.rank < Lock.mLock.rank :=
    absurd works not_isWorker_main
  apply Safe.bind (secure_act (goes_enterLock above))
  rintro _ _ ⟨rfl, _⟩
  exact rfl

theorem secure_leave {mode : Mode} (left : mode ≠ .accepting) :
    Secure (Thread.main : Thread workers) (leaveLock .mLock >>= fun _ => return mode) [.mLock]
      (Mode.Ends (Thread.main : Thread workers)) := by
  apply Safe.bind (secure_act goes_leaveLock)
  rintro _ _ rfl
  cases mode with
  | accepting => exact absurd rfl left
  | _ => exact rfl

/-- A round of the accepting loop keeps the lock of the manager. -/
theorem secure_acceptClientSession :
    Secure (Thread.main : Thread workers) acceptClientSession [.mLock]
      (Mode.Ends (Thread.main : Thread workers)) := by
  have place : Place (Thread.main : Thread workers) [.mLock] := .accepting not_isWorker_main
  refine Keeps.bind (keeps_act rfl) ?_
  rintro (below : Bool)
  cases below
  · exact secure_leave (by decide)
  · refine Keeps.bind (keeps_act rfl) ?_
    intro newClient
    refine Keeps.bind (keeps_act rfl) ?_
    intro _
    apply (keeps_addRef _).bind
    intro _
    apply (keeps_request place (.client newClient) .ioAccept).bind
    intro posted
    cases posted
    · exact secure_leave (by decide)
    · exact rfl

/-- Every turn of a thread takes its locks in order. -/
theorem secure_body (thread : Thread workers) (mode : Mode) (ends : mode.Ends thread locks) :
    Secure thread (body thread mode) locks (Mode.Ends thread) := by
  cases thread with
  | worker index =>
      cases ends
      cases mode with
      | sendJob => exact keeps_doSendJob ⟨index, rfl⟩
      | _ => exact keeps_doIocpJob
  | connecting index =>
      cases ends
      apply (keeps_connectRequest index).bind
      intro _
      exact keeps_pure mode
  | main =>
      cases mode with
      | accept =>
          cases ends
          exact secure_acceptClientSessions
      | accepting =>
          cases ends
          exact secure_acceptClientSession
      | _ => exact ends

end Rules

end Gsp.Homework5.Locking
