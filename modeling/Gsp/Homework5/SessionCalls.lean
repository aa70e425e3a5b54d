import Gsp.Homework5.Locking
import Gsp.Homework5.Overtaken
import Gsp.Lib.Uninterrupted

/-!
# The functions of a session without interruption

The functions of a session are given twice: as steps, and cut into operations. A
thread that runs the operations of a function with no other thread in between does
what the step does, if no other thread holds a lock that the function takes.
-/

namespace Gsp.Homework5.Locking

open Program

variable {workers : ℕ}

/-- A context as Winsock sees it. -/
def view (self : SessionId) (context : OverlappedIOContext) : Context :=
  ⟨self, context.mIoType, context.mWsaBuf⟩

/-- The state holds these sessions, their contexts in flight and this pool. -/
structure Mirrors (session : SessionId → SessionState) (manager : ClientSessionManager)
    (state : State workers) : Prop where
  sessions : ∀ self, state.session self = (session self).toSession
  inFlight : ∀ self, (state.inFlight.filter fun context => context.mSessionObject = self).Perm
    ((session self).inFlight.map (view self))
  manager : state.manager = manager
  counts : ∀ self, 0 ≤ (session self).mRefCount ∧ (session self).mRefCount < 2 ^ 31

/-- The same inside a function on one session, with the locks that are taken and the
queues of the workers. -/
structure Stands (sessions : SessionId → SessionState) (owner : Lock → Option (Thread workers))
    (requests : Fin workers → List SessionId) (scope : SessionScope) (state : State workers) :
    Prop where
  mirrors : Mirrors (Function.update sessions scope.self scope.session) scope.manager state
  owner : state.owner = owner
  requests : state.LSendRequestSessionList = requests

/-- Run without interruption the code does to a state what leads from one scope to the
other, and ends with this value. -/
structure Does (thread : Thread workers) (sessions : SessionId → SessionState)
    (owner : Lock → Option (Thread workers)) (requests : Fin workers → List SessionId)
    {Value : Type} (scope : SessionScope) (code : Task Value) (value : Value)
    (after : SessionScope) : Prop where
  self : after.self = scope.self
  carries : (program workers).Carries thread (Stands sessions owner requests scope) code value
    (Stands sessions owner requests after)

variable {thread : Thread workers} {sessions : SessionId → SessionState}
  {owner : Lock → Option (Thread workers)} {requests : Fin workers → List SessionId}
  {scope middle after : SessionScope} {self : SessionId} {state : State workers}
  {Value Other : Type}

/-! ## States -/

namespace Stands

/-- Both models agree on the session of the scope. -/
theorem session (stands : Stands sessions owner requests scope state) :
    state.session scope.self = scope.session.toSession := by
  have same := stands.mirrors.sessions scope.self
  rwa [Function.update_self] at same

/-- A reference count that stands fits its word. -/
theorem count (stands : Stands sessions owner requests scope state) :
    0 ≤ scope.session.mRefCount ∧ scope.session.mRefCount < 2 ^ 31 := by
  have bounds := stands.mirrors.counts scope.self
  rwa [Function.update_self] at bounds

/-- The session changes, and perhaps the contexts in flight. -/
theorem change (stands : Stands sessions owner requests scope state) {session : SessionState}
    {inFlight : List Context}
    (own : (inFlight.filter fun context => context.mSessionObject = scope.self).Perm
      (session.inFlight.map (view scope.self)))
    (others : ∀ other, other ≠ scope.self →
      (inFlight.filter fun context => context.mSessionObject = other).Perm
        (state.inFlight.filter fun context => context.mSessionObject = other))
    (count : 0 ≤ session.mRefCount ∧ session.mRefCount < 2 ^ 31) :
    Stands sessions owner requests { scope with session }
      { state.setSession scope.self session.toSession with inFlight } := by
  refine ⟨⟨?_, ?_, stands.mirrors.manager, ?_⟩, stands.owner, stands.requests⟩
  · intro other
    by_cases here : other = scope.self
    · subst here
      simp only [State.setSession, Function.update_self]
    · have same := stands.mirrors.sessions other
      simp only [State.setSession, Function.update_of_ne here] at same ⊢
      exact same
  · intro other
    by_cases here : other = scope.self
    · subst here
      rw [Function.update_self]
      exact own
    · have same := stands.mirrors.inFlight other
      rw [Function.update_of_ne here] at same ⊢
      exact (others other here).trans same
  · intro other
    by_cases here : other = scope.self
    · subst here
      rw [Function.update_self]
      exact count
    · have same := stands.mirrors.counts other
      rw [Function.update_of_ne here] at same ⊢
      exact same

/-- Both models agree on the contexts in flight. -/
theorem inFlight (stands : Stands sessions owner requests scope state) :
    (state.inFlight.filter fun context => context.mSessionObject = scope.self).Perm
      (scope.session.inFlight.map (view scope.self)) := by
  have same := stands.mirrors.inFlight scope.self
  rwa [Function.update_self] at same

/-- Writing the session of the scope shows in both models. -/
theorem setSession (stands : Stands sessions owner requests scope state) {session : SessionState}
    (same : session.inFlight = scope.session.inFlight)
    (count : 0 ≤ session.mRefCount ∧ session.mRefCount < 2 ^ 31) :
    Stands sessions owner requests { scope with session }
      (state.setSession scope.self session.toSession) :=
  stands.change (same ▸ stands.inFlight) (fun _ _ => .refl _) count

/-- What the operations do not see may change. -/
theorem unseen (stands : Stands sessions owner requests scope state) {session : SessionState}
    (same : session.toSession = scope.session.toSession)
    (inFlight : session.inFlight = scope.session.inFlight) :
    Stands sessions owner requests { scope with session } state := by
  have count : 0 ≤ session.mRefCount ∧ session.mRefCount < 2 ^ 31 := by
    rw [congrArg Session.mRefCount same]
    exact stands.count
  have changed := stands.setSession inFlight count
  rwa [same, ← stands.session, State.setSession, Function.update_eq_self] at changed

/-- Taking a lock leaves the sessions alone. -/
theorem setOwner (stands : Stands sessions owner requests scope state) (lock : Lock)
    (taken : Option (Thread workers)) :
    Stands sessions (Function.update owner lock taken) requests scope
      (state.setOwner lock taken) :=
  ⟨{ stands.mirrors with }, stands.owner ▸ rfl, stands.requests⟩

theorem setSendRequests (stands : Stands sessions owner requests scope state)
    (worker : Fin workers) (queue : List SessionId) :
    Stands sessions owner (Function.update requests worker queue) scope
      (state.setSendRequests worker queue) :=
  ⟨{ stands.mirrors with }, stands.owner, stands.requests ▸ rfl⟩

end Stands

/-! ## Code -/

/-- Nothing is done by a value. -/
theorem does_pure (value : Value) : Does thread sessions owner requests scope (pure value) value
    scope :=
  ⟨rfl, carries_pure value⟩

/-- What is done in two parts is done by their sequence. -/
theorem Does.bind {code : Task Value} {next : Value → Task Other} {value : Value} {result : Other}
    (first : Does thread sessions owner requests scope code value middle)
    (second : Does thread sessions owner requests middle (next value) result after) :
    Does thread sessions owner requests scope (code >>= next) result after :=
  ⟨second.self.trans first.self, first.carries.bind second.carries⟩

/-- The same, for what follows the session is still the same. -/
theorem Does.next {code : Task Value} {next : Value → Task Other} {value : Value} {result : Other}
    (first : Does thread sessions owner requests scope code value middle)
    (second : middle.self = scope.self →
      Does thread sessions owner requests middle (next value) result after) :
    Does thread sessions owner requests scope (code >>= next) result after :=
  first.bind (second first.self)

/-- The coarse model may change what the fine one does not have. -/
theorem Does.unseen {code : Task Value} {value : Value} {session : SessionState}
    (does : Does thread sessions owner requests scope code value after)
    (same : session.toSession = after.session.toSession)
    (inFlight : session.inFlight = after.session.inFlight) :
    Does thread sessions owner requests scope code value { after with session } :=
  ⟨does.self, does.carries.mono fun _ stands => stands.unseen same inFlight⟩

theorem Does.seen (scope : SessionScope) {code : Task Value} {value : Value}
    {session : SessionState}
    (does : Does thread sessions owner requests { scope with session } code value after)
    (same : session.toSession = scope.session.toSession)
    (inFlight : session.inFlight = scope.session.inFlight) :
    Does thread sessions owner requests scope code value after :=
  ⟨does.self, fun state stands => does.carries state (stands.unseen same inFlight)⟩

/-- The reference count of a session is in bounds. -/
theorem does_of_count {code : Task Value} {value : Value} (same : after.self = scope.self)
    (does : 0 ≤ scope.session.mRefCount → scope.session.mRefCount < 2 ^ 31 →
      Does thread sessions owner requests scope code value after) :
    Does thread sessions owner requests scope code value after := by
  refine ⟨same, ?_⟩
  intro state stands
  exact (does stands.count.1 stands.count.2).carries state stands

/-- Nothing is asked of the outside. -/
def Input.silent : Input := ⟨true, none, []⟩

/-- A read that agrees with the scope is done. -/
theorem does_read {operation : Operation} {value : operation.Result}
    (reads : ∀ state : State workers, Stands sessions owner requests scope state →
      State.perform thread .silent operation state = .ok (value, state)) :
    Does thread sessions owner requests scope (act operation) value scope :=
  ⟨rfl, carries_perform fun state stands => ⟨_, _, reads state stands, stands⟩⟩

/-- A write that agrees with the scope is done. -/
theorem does_write {operation : Operation} {value : operation.Result} {session : SessionState}
    (same : session.inFlight = scope.session.inFlight)
    (count : 0 ≤ session.mRefCount ∧ session.mRefCount < 2 ^ 31)
    (writes : ∀ state : State workers, state.session scope.self = scope.session.toSession →
      State.perform thread .silent operation state =
        .ok (value, state.setSession scope.self session.toSession)) :
    Does thread sessions owner requests scope (act operation) value { scope with session } :=
  ⟨rfl, carries_perform fun state stands =>
    ⟨_, _, writes state stands.session, stands.setSession same count⟩⟩

/-- An assertion that holds is passed. -/
theorem does_crashAssert {condition : Bool} (holds : condition = true) :
    Does thread sessions owner requests scope (crashAssert condition) () scope := by
  rw [crashAssert, if_pos holds]
  exact does_pure ()

/-- A free lock is entered. -/
theorem carries_enterLock {lock : Lock} (free : owner lock = none) :
    (program workers).Carries thread (Stands sessions owner requests scope) (enterLock lock) ()
      (Stands sessions (Function.update owner lock (some thread)) requests scope) := by
  refine carries_perform fun state stands => ⟨.silent, _, ?_, stands.setOwner lock (some thread)⟩
  simp only [program, State.perform, stands.owner, free]

/-- An entered lock is left free again. -/
theorem carries_leaveLock {lock : Lock} (free : owner lock = none) :
    (program workers).Carries thread
      (Stands sessions (Function.update owner lock (some thread)) requests scope) (leaveLock lock)
      () (Stands sessions owner requests scope) := by
  have left : Function.update (Function.update owner lock (some thread)) lock none = owner := by
    rw [Function.update_idem, ← free, Function.update_eq_self]
  exact carries_perform fun state stands => ⟨.silent, _, rfl, left ▸ stands.setOwner lock none⟩

theorem carries_guarded {lock : Lock} {code : Task Value} {value : Value}
    {later : Fin workers → List SessionId} (free : owner lock = none)
    (block : (program workers).Carries thread
      (Stands sessions (Function.update owner lock (some thread)) requests scope) code value
      (Stands sessions (Function.update owner lock (some thread)) later after)) :
    (program workers).Carries thread (Stands sessions owner requests scope) (guarded lock code)
      value (Stands sessions owner later after) :=
  (carries_enterLock free).bind (block.bind ((carries_leaveLock free).bind (carries_pure value)))

/-- A guarded block does what its body does. -/
theorem does_guarded {lock : Lock} {code : Task Value} {value : Value} (free : owner lock = none)
    (block : Does thread sessions (Function.update owner lock (some thread)) requests scope code
      value after) :
    Does thread sessions owner requests scope (guarded lock code) value after :=
  ⟨block.self, carries_guarded free block.carries⟩

theorem does_isConnected (isSelf : scope.self = self) :
    Does thread sessions owner requests scope (isConnected self) scope.session.mConnected
      scope := by
  subst isSelf
  refine does_read fun state stands => ?_
  simp only [State.perform, stands.session]

theorem does_loadRefCount (isSelf : scope.self = self) :
    Does thread sessions owner requests scope (loadRefCount self) scope.session.mRefCount
      scope := by
  subst isSelf
  refine does_read fun state stands => ?_
  simp only [State.perform, stands.session]

theorem does_loadSendPendingCount (isSelf : scope.self = self) :
    Does thread sessions owner requests scope (loadSendPendingCount self)
      scope.session.mSendPendingCount scope := by
  subst isSelf
  refine does_read fun state stands => ?_
  simp only [State.perform, stands.session]

theorem does_exchangeConnected (isSelf : scope.self = self) (connected : Bool) :
    Does thread sessions owner requests scope (exchangeConnected self connected)
      scope.session.mConnected (scope.update ({ · with mConnected := connected })) := by
  subst isSelf
  refine does_of_count rfl fun lower upper => does_write rfl ⟨lower, upper⟩ fun state same => ?_
  simp only [State.perform, same]

theorem does_recvBuffer (isSelf : scope.self = self) (call : BufferCall) :
    Does thread sessions owner requests scope (recvBuffer self call)
      (scope.session.mRecvBuffer.onCall call).1 (scope.update fun session =>
        { session with mRecvBuffer := (session.mRecvBuffer.onCall call).2 }) := by
  subst isSelf
  refine does_of_count rfl fun lower upper => does_write rfl ⟨lower, upper⟩ fun state same => ?_
  simp only [State.perform, same]

theorem does_sendBuffer (isSelf : scope.self = self) (call : BufferCall) :
    Does thread sessions owner requests scope (sendBuffer self call)
      (scope.session.mSendBuffer.onCall call).1 (scope.update fun session =>
        { session with mSendBuffer := (session.mSendBuffer.onCall call).2 }) := by
  subst isSelf
  refine does_of_count rfl fun lower upper => does_write rfl ⟨lower, upper⟩ fun state same => ?_
  simp only [State.perform, same]

theorem does_addSendPendingCount (isSelf : scope.self = self) (change : ℤ) :
    Does thread sessions owner requests scope (addSendPendingCount self change) ()
      (scope.update fun session =>
        { session with mSendPendingCount := session.mSendPendingCount + change }) := by
  subst isSelf
  refine does_of_count rfl fun lower upper => does_write rfl ⟨lower, upper⟩ fun state same => ?_
  simp only [State.perform, same]

/-- An operation on the pool. -/
theorem does_manage {operation : Operation} {value : operation.Result}
    {manager : ClientSessionManager}
    (manages : ∀ state : State workers, state.manager = scope.manager →
      State.perform thread .silent operation state = .ok (value, { state with manager })) :
    Does thread sessions owner requests scope (act operation) value { scope with manager } := by
  refine ⟨rfl, carries_perform fun state stands => ⟨_, _, manages state stands.mirrors.manager, ?_⟩⟩
  exact ⟨{ stands.mirrors with manager := rfl }, stands.owner, stands.requests⟩

/-! ## References and contexts -/

/-- `AddRef` adds a reference in both models. -/
theorem does_addRef (isSelf : scope.self = self) (added : scope.addRef = .ok after) :
    Does thread sessions owner requests scope (addRef self) () after := by
  subst isSelf
  simp only [SessionScope.addRef] at added
  split at added
  case isFalse => cases added
  case isTrue positive =>
    cases added
    refine does_of_count rfl fun lower upper => ?_
    have count : Word.wrap32 (scope.session.mRefCount + 1) = scope.session.mRefCount + 1 := by
      apply Word.wrap32_eq (by omega)
      by_contra large
      have least : scope.session.mRefCount + 1 = 2 ^ 31 := by omega
      rw [least] at positive
      exact absurd positive (by decide)
    have increments : Does thread sessions owner requests scope (incrementRefCount scope.self)
        (scope.session.mRefCount + 1) (scope.update
          ({ · with mRefCount := Word.wrap32 (scope.session.mRefCount + 1) })) := by
      refine does_write rfl ⟨?_, ?_⟩ fun state same => ?_
      · exact positive.le
      · exact (Word.wrap32_mem _).2
      · simp only [State.perform, same, count]
    exact increments.bind (does_crashAssert (decide_eq_true (count ▸ positive)))

theorem does_storeConnected (isSelf : scope.self = self) :
    Does thread sessions owner requests scope (storeConnected self) ()
      (scope.update ({ · with mConnected := false })) := by
  subst isSelf
  refine does_of_count rfl fun lower upper => does_write rfl ⟨lower, upper⟩ fun state same => ?_
  simp only [State.perform, same]

theorem does_storeRefCount (isSelf : scope.self = self) :
    Does thread sessions owner requests scope (storeRefCount self) ()
      (scope.update ({ · with mRefCount := 0 })) := by
  subst isSelf
  refine does_write rfl ⟨le_rfl, Int.pow_pos (by decide)⟩ fun state same => ?_
  simp only [State.perform, same]

theorem does_pushFreeSession {client : ClientId} :
    Does thread sessions owner requests scope (act (.pushFreeSession client)) ()
      { scope with
        manager := { scope.manager with
          mFreeSessionList := client :: scope.manager.mFreeSessionList } } :=
  does_manage fun state same => by simp only [State.perform, same]

theorem does_countReturn :
    Does thread sessions owner requests scope (act .countReturn) ()
      { scope with
        manager := { scope.manager with
          mCurrentReturnCount := scope.manager.mCurrentReturnCount + 1 } } :=
  does_manage fun state same => by simp only [State.perform, same]

/-- `SessionReset` empties the session in both models. -/
theorem does_sessionReset {client : ClientId} (isSelf : scope.self = .client client)
    (free : owner (.mSendBufferLock (.client client)) = none) :
    Does thread sessions owner requests scope (sessionReset client) ()
      (scope.update SessionState.sessionReset) := by
  have reset : Does thread sessions owner requests scope (sessionReset client) ()
      ((((scope.update ({ · with mConnected := false })).update
        ({ · with mRefCount := 0 })).update fun session =>
          { session with mRecvBuffer := (session.mRecvBuffer.onCall .bufferReset).2 }).update
            fun session =>
              { session with mSendBuffer := (session.mSendBuffer.onCall .bufferReset).2 }) := by
    refine (does_storeConnected isSelf).bind ((does_storeRefCount (by exact isSelf)).bind
      ((does_recvBuffer (by exact isSelf) .bufferReset).bind ⟨rfl, ?_⟩))
    exact (carries_enterLock free).bind
      ((does_sendBuffer (by exact isSelf) .bufferReset).carries.bind (carries_leaveLock free))
  exact reset.unseen rfl rfl

/-- A session whose last reference is released needs these locks. -/
def Open (owner : Lock → Option (Thread workers)) (self : SessionId) : Prop :=
  owner .mLock = none ∧ owner (.mSendBufferLock self) = none

/-- `ReturnClientSession` puts the session back in both models. -/
theorem does_returnClientSession {client : ClientId} (isSelf : scope.self = .client client)
    (free : Open owner (.client client)) (returned : scope.returnClientSession client = .ok after) :
    Does thread sessions owner requests scope (returnClientSession client) () after := by
  simp only [SessionScope.returnClientSession] at returned
  split at returned
  case isFalse => cases returned
  case isTrue unused =>
    cases returned
    refine does_guarded free.1 ?_
    have unlocked : Function.update owner .mLock (some thread) (.mSendBufferLock (.client client)) =
        none := by
      rw [Function.update_of_ne (by simp), free.2]
    have asserted : (!scope.session.mConnected && decide (scope.session.mRefCount = 0)) = true := by
      simp [unused]
    refine (does_isConnected isSelf).bind ((does_loadRefCount isSelf).bind
      ((does_crashAssert asserted).bind ((does_sessionReset isSelf unlocked).bind
        (does_pushFreeSession.bind ?_))))
    exact does_countReturn.unseen rfl rfl

theorem does_onRelease (isSelf : scope.self = self) (free : Open owner self)
    (released : scope.onRelease = .ok after) :
    Does thread sessions owner requests scope (onRelease self) () after := by
  subst isSelf
  cases isSelf : scope.self with
  | client client =>
      rw [SessionScope.onRelease, isSelf] at released
      rw [isSelf] at free
      exact does_returnClientSession isSelf free released
  | server index =>
      rw [SessionScope.onRelease, isSelf] at released
      cases released
      exact does_pure ()

theorem self_releaseRef (released : scope.releaseRef = .ok after) : after.self = scope.self := by
  simp only [SessionScope.releaseRef] at released
  split at released
  · cases released
  split at released
  · simp only [SessionScope.onRelease, SessionScope.returnClientSession] at released
    split at released
    · split at released
      · cases released
        rfl
      · cases released
    · cases released
      rfl
  · cases released
    rfl

theorem does_releaseRef (isSelf : scope.self = self)
    (free : scope.session.mRefCount = 1 → Open owner self)
    (released : scope.releaseRef = .ok after) :
    Does thread sessions owner requests scope (releaseRef self) () after := by
  subst isSelf
  refine does_of_count (self_releaseRef released) fun lower upper => ?_
  have count : Word.wrap32 (scope.session.mRefCount - 1) = scope.session.mRefCount - 1 :=
    Word.wrap32_eq (by omega) (by omega)
  simp only [SessionScope.releaseRef, count] at released
  split at released
  case isTrue => cases released
  case isFalse notNegative =>
    have bounds : 0 ≤ scope.session.mRefCount - 1 ∧ scope.session.mRefCount - 1 < 2 ^ 31 := by
      omega
    have decrements : Does thread sessions owner requests scope (decrementRefCount scope.self)
        (scope.session.mRefCount - 1)
        (scope.update ({ · with mRefCount := scope.session.mRefCount - 1 })) := by
      refine does_write rfl bounds fun state same => ?_
      simp only [State.perform, same]
    refine decrements.bind ((does_crashAssert (decide_eq_true bounds.1)).bind ?_)
    split at released
    case isTrue last =>
      rw [if_pos last]
      exact does_onRelease rfl (free (by omega)) released
    case isFalse more =>
      cases released
      rw [if_neg more]
      exact does_pure ()

/-- The pools of the contexts are not locked. -/
def PoolsOpen (owner : Lock → Option (Thread workers)) : Prop :=
  ∀ mIoType, owner (.classLock mIoType) = none

/-- A new context is made in both models. -/
theorem does_newContext (isSelf : scope.self = self) (pools : PoolsOpen owner)
    {mIoType : IOType} {mWsaBuf : WsaBuf} {reason : DisconnectReason} {posted : List UInt8}
    {context : OverlappedIOContext}
    (created : scope.newContext mIoType mWsaBuf reason posted = .ok (context, after)) :
    Does thread sessions owner requests scope (newContext self mIoType)
      ⟨self, mIoType, ⟨0, none⟩⟩ after ∧ view self context = ⟨self, mIoType, mWsaBuf⟩ := by
  rcases Except.bind_eq_ok.mp created with ⟨added, adds, rest⟩
  cases rest
  refine ⟨?_, rfl⟩
  refine (does_guarded (pools mIoType) (does_pure ())).bind ((does_addRef isSelf adds).bind ?_)
  exact (does_pure _).unseen rfl rfl

/-- `DeleteIoContext` gives the reference back in both models. -/
theorem does_deleteIoContext (isSelf : scope.self = self) (pools : PoolsOpen owner)
    (free : scope.session.mRefCount = 1 → Open owner self) {context : OverlappedIOContext}
    (deleted : scope.deleteIoContext context = .ok after) :
    Does thread sessions owner requests scope (deleteIoContext (view self context)) () after := by
  rcases Except.bind_eq_ok.mp deleted with ⟨released, releases, rest⟩
  split at rest
  case isTrue => cases rest
  case isFalse known =>
    cases rest
    refine (does_releaseRef isSelf free releases).bind ?_
    have kind : ¬(view self context).mIoType = .ioNone := known
    rw [if_neg kind]
    exact (does_guarded (pools _) (does_pure ())).unseen rfl rfl

/-- An overlapped call that Winsock accepts is in flight. -/
theorem does_submit (isSelf : scope.self = self) (context : OverlappedIOContext) :
    Does thread sessions owner requests scope (submit (view self context)) true
      (scope.update (.submit context)) := by
  subst isSelf
  refine ⟨rfl, carries_perform fun state stands => ⟨.silent, _, rfl, ?_⟩⟩
  have own : ((view scope.self context :: state.inFlight).filter fun other =>
      other.mSessionObject = scope.self).Perm
      ((scope.session.submit context).inFlight.map (view scope.self)) := by
    rw [List.filter_cons_of_pos (by simp [view]), SessionState.submit, List.map_append]
    exact (stands.inFlight.cons _).trans (List.perm_append_singleton _ _).symm
  have others (other : SessionId) (ne : other ≠ scope.self) :
      ((view scope.self context :: state.inFlight).filter (·.mSessionObject = other)).Perm
        (state.inFlight.filter (·.mSessionObject = other)) :=
    .of_eq (List.filter_cons_of_neg (by simp [view, Ne.symm ne]))
  have same : state.setSession scope.self (scope.session.submit context).toSession = state := by
    have current : (scope.session.submit context).toSession = state.session scope.self :=
      stands.session.symm
    rw [current, State.setSession, Function.update_eq_self]
  have changed := stands.change own others stands.count
  rwa [same] at changed

/-- An overlapped call that Winsock refuses changes nothing. -/
theorem does_submit_refused (context : Context) :
    Does thread sessions owner requests scope (submit context) false scope :=
  ⟨rfl, carries_perform fun state stands => ⟨⟨false, none, []⟩, state, rfl, stands⟩⟩

/-- A context that Winsock accepts. -/
theorem does_post (isSelf : scope.self = self) (context : OverlappedIOContext) :
    Does thread sessions owner requests scope (post (view self context)) true
      (scope.update (.submit context)) :=
  (does_submit isSelf context).bind (does_pure true)

/-- A context that Winsock refuses. -/
theorem does_post_refused (isSelf : scope.self = self) (pools : PoolsOpen owner)
    (free : scope.session.mRefCount = 1 → Open owner self) {context : OverlappedIOContext}
    (deleted : scope.deleteIoContext context = .ok after) :
    Does thread sessions owner requests scope (post (view self context)) false after :=
  (does_submit_refused _).bind
    ((does_deleteIoContext isSelf pools free deleted).bind (does_pure false))

/-! ## Sending and receiving -/

/-- A new context only counts. -/
theorem toSession_newContext {mIoType : IOType} {mWsaBuf : WsaBuf} {reason : DisconnectReason}
    {posted : List UInt8} {context : OverlappedIOContext}
    (created : scope.newContext mIoType mWsaBuf reason posted = .ok (context, after)) :
    after.session.toSession =
      { scope.session.toSession with
        mRefCount := Word.wrap32 (scope.session.mRefCount + 1) } := by
  rcases Except.bind_eq_ok.mp created with ⟨added, adds, rest⟩
  cases rest
  simp only [SessionScope.addRef] at adds
  split at adds
  · cases adds
    rfl
  · cases adds

theorem does_preRecv (isSelf : scope.self = self) (pools : PoolsOpen owner)
    (free : Open owner self) {winsock : Winsock} {result : Bool}
    (received : scope.preRecv winsock = .ok (result, after)) :
    Does thread sessions owner requests scope (preRecv self) result after := by
  refine (does_isConnected isSelf).bind ?_
  simp only [SessionScope.preRecv] at received
  cases connected : scope.session.mConnected with
  | false =>
      rw [if_pos connected] at received
      cases received
      exact does_pure false
  | true =>
      rw [if_neg (by simp [connected])] at received
      rcases Except.bind_eq_ok.mp received with ⟨⟨context, made⟩, creates, rest⟩
      rcases does_newContext isSelf pools creates with ⟨news, viewed⟩
      refine news.bind ?_
      rw [← viewed]
      simp only at rest
      split at rest
      · cases rest
        exact does_post (news.self.trans isSelf) context
      · rcases Except.bind_eq_ok.mp rest with ⟨deleted, deletes, rest⟩
        cases rest
        exact does_post_refused (news.self.trans isSelf) pools (fun _ => free) deletes

theorem does_disconnectRequest (isSelf : scope.self = self) (pools : PoolsOpen owner)
    (free : Word.wrap32 (scope.session.mRefCount + 1) = 1 → Open owner self)
    {dr : DisconnectReason} {winsock : Winsock}
    (requested : scope.disconnectRequest dr winsock = .ok after) :
    Does thread sessions owner requests scope (disconnectRequest self) () after := by
  simp only [SessionScope.disconnectRequest] at requested
  cases connected : scope.session.mConnected with
  | false =>
      rw [if_pos connected] at requested
      cases requested
      have exchanged : Does thread sessions owner requests scope (exchangeConnected self false)
          scope.session.mConnected (scope.update ({ · with mConnected := false })) :=
        does_exchangeConnected isSelf false
      rw [connected] at exchanged
      have closed : Does thread sessions owner requests scope (disconnectRequest self) ()
          (scope.update ({ · with mConnected := false })) :=
        exchanged.bind (does_pure ())
      refine closed.unseen ?_ rfl
      rw [← connected]
      rfl
  | true =>
      rw [if_neg (by simp [connected])] at requested
      have exchanged : Does thread sessions owner requests scope (exchangeConnected self false)
          scope.session.mConnected (scope.update ({ · with mConnected := false })) :=
        does_exchangeConnected isSelf false
      rw [connected] at exchanged
      refine exchanged.bind ?_
      rw [if_pos rfl]
      rcases Except.bind_eq_ok.mp requested with ⟨⟨context, made⟩, creates, rest⟩
      rcases does_newContext (by exact isSelf) pools creates with ⟨news, viewed⟩
      have counted := congrArg Session.mRefCount (toSession_newContext creates)
      refine news.bind ?_
      rw [← viewed]
      simp only at rest
      split at rest
      · cases rest
        exact (does_post (news.self.trans isSelf) context).bind (does_pure ())
      · rcases Except.bind_eq_ok.mp rest with ⟨deleted, deletes, rest⟩
        cases rest
        refine ((does_post_refused (news.self.trans isSelf) pools ?_ deletes).bind
          (does_pure ())).unseen rfl rfl
        intro last
        exact free (counted.symm.trans last)

/-- A new context leaves the buffers alone. -/
theorem newContext_query {mIoType : IOType} {mWsaBuf : WsaBuf} {reason : DisconnectReason}
    {posted : List UInt8} {context : OverlappedIOContext}
    (created : (scope.update .query).newContext mIoType mWsaBuf reason posted =
      .ok (context, after)) :
    ∃ made, scope.newContext mIoType mWsaBuf reason posted = .ok (context, made) ∧
      made.update .query = after := by
  rcases Except.bind_eq_ok.mp created with ⟨added, adds, rest⟩
  cases rest
  by_cases positive : 0 < Word.wrap32 (scope.session.mRefCount + 1)
  · have same := (if_pos positive).symm.trans adds
    cases same
    have adds : scope.addRef =
        .ok (scope.update ({ · with mRefCount := Word.wrap32 (scope.session.mRefCount + 1) })) :=
      if_pos positive
    rw [SessionScope.newContext, adds]
    exact ⟨_, rfl, rfl⟩
  · cases (if_neg positive).symm.trans adds

theorem does_postRecv (isSelf : scope.self = self) (pools : PoolsOpen owner)
    (free : Open owner self) {winsock : Winsock} {result : Bool}
    (received : scope.postRecv winsock = .ok (result, after)) :
    Does thread sessions owner requests scope (postRecv self) result after := by
  refine (does_isConnected isSelf).bind ?_
  simp only [SessionScope.postRecv] at received
  cases connected : scope.session.mConnected with
  | false =>
      rw [if_pos connected] at received
      cases received
      exact does_pure false
  | true =>
      rw [if_neg (by simp [connected])] at received
      have queried : Does thread sessions owner requests scope (recvBuffer self .getFreeSpaceSize)
          scope.session.mRecvBuffer.getFreeSpaceSize.1 (scope.update .query) :=
        does_recvBuffer isSelf .getFreeSpaceSize
      rw [if_pos rfl]
      refine queried.bind ?_
      by_cases full : scope.session.mRecvBuffer.getFreeSpaceSize.1 = 0
      · rw [if_pos full] at received ⊢
        cases received
        exact does_pure false
      · rw [if_neg full] at received ⊢
        rcases Except.bind_eq_ok.mp received with ⟨⟨context, made⟩, creates, rest⟩
        rcases newContext_query creates with ⟨earlier, createsEarlier, rfl⟩
        rcases does_newContext (by exact isSelf) pools createsEarlier with ⟨news, viewed⟩
        refine news.bind ?_
        have same : earlier.self = self := news.self.trans isSelf
        have again : Does thread sessions owner requests earlier
            (recvBuffer self .getFreeSpaceSize) earlier.session.mRecvBuffer.getFreeSpaceSize.1
            (earlier.update .query) :=
          does_recvBuffer same .getFreeSpaceSize
        have start : Does thread sessions owner requests (earlier.update .query)
            (recvBuffer self .getBuffer) (earlier.update .query).session.mRecvBuffer.getBuffer
            (earlier.update .query) :=
          does_recvBuffer (by exact same) .getBuffer
        refine again.bind (start.bind ?_)
        have buffer := congrArg Session.mRecvBuffer (toSession_newContext createsEarlier)
        simp only at buffer
        have window : view self context = ⟨self, .ioRecv,
            ⟨Word.toUInt32 earlier.session.mRecvBuffer.getFreeSpaceSize.1,
              some (earlier.update .query).session.mRecvBuffer.getBuffer⟩⟩ := by
          rw [viewed]
          simp only [SessionScope.update, SessionState.query, buffer]
        rw [← window]
        simp only at rest
        split at rest
        · cases rest
          exact does_post (by exact same) context
        · rcases Except.bind_eq_ok.mp rest with ⟨deleted, deletes, rest⟩
          cases rest
          exact does_post_refused (by exact same) pools (fun _ => free) deletes

/-- `RecvCompletion` commits the same bytes in both models. -/
theorem does_recvCompletion (isSelf : scope.self = self) (completion : Completion) :
    Does thread sessions owner requests scope (recvCompletion self completion.dwTransferred) ()
      (scope.update (.recvCompletion completion)) :=
  (does_recvBuffer isSelf (.commit completion.dwTransferred)).unseen rfl rfl

/-- `SendCompletion` removes the same bytes in both models. -/
theorem does_sendCompletion (isSelf : scope.self = self)
    (free : owner (.mSendBufferLock self) = none) (context : OverlappedIOContext)
    (transferred : ℕ) :
    Does thread sessions owner requests scope (sendCompletion self transferred) ()
      (scope.update (.sendCompletion context transferred)) := by
  refine does_guarded free ?_
  refine (does_sendBuffer isSelf (.remove transferred)).bind ?_
  exact (does_addSendPendingCount (by exact isSelf) (-1)).unseen rfl rfl

theorem does_disconnectCompletion (isSelf : scope.self = self)
    (free : scope.session.mRefCount = 1 → Open owner self)
    (completed : scope.disconnectCompletion = .ok after) :
    Does thread sessions owner requests scope (disconnectCompletion self) () after := by
  have released : Does thread sessions owner requests
      (scope.update (.record .disconnectCompleted)) (disconnectCompletion self) () after :=
    does_releaseRef (by exact isSelf) free completed
  exact released.seen scope rfl rfl

/-- A worker puts a session behind its own list. -/
theorem carries_pushSendRequest (worker : Fin workers) :
    (program workers).Carries (.worker worker) (Stands sessions owner requests scope)
      (act (.pushSendRequest self)) ()
      (Stands sessions owner (Function.update requests worker (requests worker ++ [self]))
        scope) := by
  refine carries_perform fun state stands => ⟨.silent, _, rfl, ?_⟩
  rw [stands.requests]
  exact stands.setSendRequests worker _

theorem does_memcpy (isSelf : scope.self = self) (dest source len : ℕ) :
    Does thread sessions owner requests scope (act (.memcpy self dest (some source) len)) ()
      (scope.update fun session =>
        { session with
          mSendBuffer :=
            { session.mSendBuffer with
              mBuffer := Region.write session.mSendBuffer.mBuffer dest
                (Region.read session.mRecvBuffer.mBuffer source len) } }) := by
  subst isSelf
  refine does_of_count rfl fun lower upper => does_write rfl ⟨lower, upper⟩ fun state same => ?_
  simp only [State.perform, same]
  rfl

/-- `PostSend` of what the receive buffer shows. -/
theorem carries_postSend {worker : Fin workers} (isSelf : scope.self = self)
    (free : owner (.mSendBufferLock self) = none) {start len : ℕ} {data : List UInt8}
    (shows : Region.read scope.session.mRecvBuffer.mBuffer start len = data)
    {queue left : List SendRequest} {posted : Bool} {session : SessionState}
    (current : requests worker = queue.map SendRequest.session)
    (posts : scope.session.postSend self data queue = (posted, left, session)) :
    (program workers).Carries (.worker worker) (Stands sessions owner requests scope)
      (postSend self (some start) len) posted
      (Stands sessions owner
        (Function.update requests worker (left.map SendRequest.session))
        { scope with session }) := by
  have length : data.length = len := by
    rw [← shows, Region.length_read]
  have unchanged : Function.update requests worker (queue.map SendRequest.session) = requests := by
    rw [← current, Function.update_eq_self]
  have pushed : Function.update requests worker (requests worker ++ [self]) =
      Function.update requests worker
        ((queue ++ [SendRequest.mk self (connections scope.session.trace)]).map
          SendRequest.session) := by
    rw [List.map_append, current, List.map_singleton]
  simp only [SessionState.postSend, length] at posts
  refine (does_isConnected isSelf).carries.bind ?_
  cases connected : scope.session.mConnected with
  | false =>
      rw [if_pos connected] at posts
      cases posts
      rw [unchanged]
      exact (does_pure false).carries
  | true =>
      rw [if_neg (by simp [connected])] at posts
      rw [if_pos rfl]
      refine carries_guarded free ?_
      have queried : Does (.worker worker) sessions
          (Function.update owner (.mSendBufferLock self) (some (.worker worker))) requests scope
          (sendBuffer self .getFreeSpaceSize) scope.session.mSendBuffer.getFreeSpaceSize.1
          (scope.update fun session =>
            { session with mSendBuffer := session.mSendBuffer.getFreeSpaceSize.2 }) :=
        does_sendBuffer isSelf .getFreeSpaceSize
      refine queried.carries.bind ?_
      by_cases full : scope.session.mSendBuffer.getFreeSpaceSize.1 < len
      · rw [if_pos full] at posts ⊢
        cases posts
        rw [unchanged]
        exact carries_pure false
      · rw [if_neg full] at posts ⊢
        cases posts
        refine (carries_pushSendRequest worker).bind ?_
        rw [pushed]
        refine (does_sendBuffer (by exact isSelf) .getBuffer).carries.bind ?_
        refine (does_memcpy (by exact isSelf) _ start len).carries.bind ?_
        refine (does_sendBuffer (by exact isSelf) (.commit len)).carries.bind ?_
        subst shows
        exact carries_pure true

/-- `EchoBack` stores the received bytes in both models. -/
theorem carries_echoBack {worker : Fin workers} (isSelf : scope.self = self)
    (free : owner (.mSendBufferLock self) = none)
    (wellFormed : scope.session.mRecvBuffer.WellFormed) {queue left : List SendRequest}
    {session : SessionState} (current : requests worker = queue.map SendRequest.session)
    (echoes : scope.session.echoBack self queue = (left, session)) :
    (program workers).Carries (.worker worker) (Stands sessions owner requests scope)
      (echoBack self) ()
      (Stands sessions owner
        (Function.update requests worker (left.map SendRequest.session))
        { scope with session }) := by
  have unchanged : Function.update requests worker (queue.map SendRequest.session) = requests := by
    rw [← current, Function.update_eq_self]
  have length : Does (.worker worker) sessions owner requests scope
      (recvBuffer self .getContiguiousBytes) scope.session.mRecvBuffer.getContiguiousBytes scope :=
    does_recvBuffer isSelf .getContiguiousBytes
  simp only [SessionState.echoBack] at echoes
  refine length.carries.bind ?_
  by_cases empty : scope.session.mRecvBuffer.getContiguiousBytes = 0
  · rw [if_pos empty] at echoes ⊢
    cases echoes
    rw [unchanged]
    exact carries_pure ()
  · rw [if_neg empty] at echoes ⊢
    have nonempty : 0 < scope.session.mRecvBuffer.mARegionSize := by
      rw [wellFormed.getContiguiousBytes_eq] at empty
      exact Nat.pos_of_ne_zero empty
    have start : Does (.worker worker) sessions owner requests scope
        (recvBuffer self .getBufferStart) (some scope.session.mRecvBuffer.mARegionPointer)
        scope := by
      have position : scope.session.mRecvBuffer.getBufferStart =
          some scope.session.mRecvBuffer.mARegionPointer := by
        rw [CircularBuffer.getBufferStart, if_pos nonempty]
      rw [← position]
      exact does_recvBuffer isSelf .getBufferStart
    refine start.carries.bind ?_
    have shows : Region.read scope.session.mRecvBuffer.mBuffer
        scope.session.mRecvBuffer.mARegionPointer scope.session.mRecvBuffer.getContiguiousBytes =
          scope.session.mRecvBuffer.peek := by
      rw [wellFormed.peek_eq_bytesA, wellFormed.getContiguiousBytes_eq, CircularBuffer.bytesA]
    cases posts : scope.session.postSend self scope.session.mRecvBuffer.peek queue with
    | mk posted rest =>
      rcases rest with ⟨queued, sent⟩
      refine (carries_postSend isSelf free shows current posts).bind ?_
      rw [posts] at echoes
      cases posted with
      | false =>
          cases echoes
          exact carries_pure ()
      | true =>
          cases echoes
          exact (does_recvBuffer (by exact isSelf) (.remove _)).carries

theorem mRefCount_deleteIoContext (more : 1 < scope.session.mRefCount)
    (upper : scope.session.mRefCount ≤ 2 ^ 30) {context : OverlappedIOContext}
    (deleted : scope.deleteIoContext context = .ok after) :
    after.session.mRefCount = scope.session.mRefCount - 1 := by
  rcases Except.bind_eq_ok.mp deleted with ⟨released, releases, rest⟩
  have same : Except.ok ⟨scope.self,
      { scope.session with mRefCount := scope.session.mRefCount - 1 }, scope.manager⟩ =
        Except.ok released :=
    (SessionScope.releaseRef_eq more upper).symm.trans releases
  cases same
  split at rest
  · cases rest
  · cases rest
    rfl

/-- A buffer lock leaves the pools open. -/
theorem PoolsOpen.enter (pools : PoolsOpen owner) (self : SessionId)
    (taken : Option (Thread workers)) :
    PoolsOpen (Function.update owner (.mSendBufferLock self) taken) := by
  intro mIoType
  rw [Function.update_of_ne (by simp)]
  exact pools mIoType

theorem does_getContiguiousBytes (isSelf : scope.self = self) :
    Does thread sessions owner requests scope (sendBuffer self .getContiguiousBytes)
      scope.session.mSendBuffer.getContiguiousBytes scope :=
  does_sendBuffer isSelf .getContiguiousBytes

theorem does_getBufferStart (isSelf : scope.self = self) :
    Does thread sessions owner requests scope (sendBuffer self .getBufferStart)
      scope.session.mSendBuffer.getBufferStart scope :=
  does_sendBuffer isSelf .getBufferStart

/-- A send that Winsock refuses is not the last reference, so closing returns nothing. -/
theorem does_refuseSend (isSelf : scope.self = self) (pools : PoolsOpen owner)
    (more : 1 < scope.session.mRefCount) (upper : scope.session.mRefCount ≤ 2 ^ 30)
    {context : OverlappedIOContext} {deleted : SessionScope} {dr : DisconnectReason}
    {winsock : Winsock} (deletes : scope.deleteIoContext context = .ok deleted)
    (closes : deleted.disconnectRequest dr winsock = .ok after) :
    Does thread sessions owner requests scope (post (view self context)) false deleted ∧
      Does thread sessions owner requests deleted (disconnectRequest self) () after := by
  have deleting : Does thread sessions owner requests scope (post (view self context)) false
      deleted :=
    does_post_refused isSelf pools (by omega) deletes
  have counted := mRefCount_deleteIoContext more upper deletes
  have notFirst : Word.wrap32 (deleted.session.mRefCount + 1) ≠ 1 := by
    rw [counted, Word.wrap32_eq (by omega) (by omega)]
    omega
  exact ⟨deleting, does_disconnectRequest (deleting.self.trans isSelf) pools
    (absurd · notFirst) closes⟩

theorem does_flushSend (isSelf : scope.self = self) (pools : PoolsOpen owner)
    (free : Open owner self) (held : scope.session.mConnected = true → scope.session.Held)
    {winsock : Winsock} {result : Bool}
    (flushed : scope.flushSend winsock = .ok (result, after)) :
    Does thread sessions owner requests scope (flushSend self) result after := by
  refine (does_isConnected isSelf).bind ?_
  simp only [SessionScope.flushSend] at flushed
  cases connected : scope.session.mConnected with
  | false =>
      rw [if_pos connected] at flushed
      rcases Except.bind_eq_ok.mp flushed with ⟨closed, closes, rest⟩
      cases rest
      exact (does_disconnectRequest isSelf pools (fun _ => free) closes).bind (does_pure true)
  | true =>
      rw [if_neg (by simp [connected])] at flushed
      rw [if_pos rfl]
      rcases held connected with ⟨positive, upper⟩
      refine does_guarded free.2 ?_
      have inside : PoolsOpen
          (Function.update owner (.mSendBufferLock self) (some thread)) :=
        pools.enter self (some thread)
      refine (does_getContiguiousBytes isSelf).bind ((does_loadSendPendingCount isSelf).bind ?_)
      by_cases empty : scope.session.mSendBuffer.getContiguiousBytes = 0
      · rw [if_pos empty] at flushed ⊢
        cases flushed
        exact does_pure _
      rw [if_neg empty] at flushed ⊢
      by_cases pending : 0 < scope.session.mSendPendingCount
      · rw [if_pos pending] at flushed ⊢
        cases flushed
        exact does_pure false
      rw [if_neg pending] at flushed ⊢
      rcases Except.bind_eq_ok.mp flushed with ⟨⟨context, made⟩, creates, rest⟩
      rcases does_newContext isSelf inside creates with ⟨news, viewed⟩
      refine news.bind ?_
      have same : made.self = self := news.self.trans isSelf
      have unchanged := toSession_newContext creates
      have counted := congrArg Session.mRefCount unchanged
      have buffer := congrArg Session.mSendBuffer unchanged
      simp only at counted buffer
      have exactly : Word.wrap32 (scope.session.mRefCount + 1) = scope.session.mRefCount + 1 :=
        Word.wrap32_eq (by omega) (by omega)
      rw [exactly] at counted
      refine (does_getContiguiousBytes same).bind ((does_getBufferStart same).bind ?_)
      have window : view self context = ⟨self, .ioSend,
          ⟨Word.toUInt32 made.session.mSendBuffer.getContiguiousBytes,
            made.session.mSendBuffer.getBufferStart⟩⟩ := by
        rw [viewed, buffer]
      rw [← window]
      simp only at rest
      split at rest
      · cases rest
        refine (does_post same context).bind ?_
        refine (does_addSendPendingCount (by exact same) 1).bind ?_
        exact (does_loadSendPendingCount (by exact same)).bind (does_pure _)
      · rcases Except.bind_eq_ok.mp rest with ⟨deleted, deletes, rest⟩
        rcases Except.bind_eq_ok.mp rest with ⟨closed, closes, rest⟩
        cases rest
        rcases does_refuseSend same inside (by omega) (by omega) deletes closes with
          ⟨refused, closing⟩
        exact refused.bind (closing.bind (does_pure true))

/-! ## Connecting -/

theorem does_setUp (call : SetUp) (resultOk : Bool) :
    Does thread sessions owner requests scope (setUp call) resultOk scope :=
  ⟨rfl, carries_perform fun state stands => ⟨⟨resultOk, none, []⟩, state, rfl, stands⟩⟩

/-- Calls that all succeed set the socket up. -/
theorem does_setUpSocket : (calls : List SetUp) →
    Does thread sessions owner requests scope (setUpSocket calls) true scope
  | [] => does_pure true
  | call :: calls => (does_setUp call true).bind (does_setUpSocket calls)

/-- The first call that fails ends the set-up. -/
theorem does_setUpSocket_failed (call : SetUp) (calls : List SetUp) :
    Does thread sessions owner requests scope (setUpSocket (call :: calls)) false scope :=
  (does_setUp call false).bind (does_pure false)

theorem does_postAccept {client : ClientId} (isSelf : scope.self = .client client)
    (pools : PoolsOpen owner) {winsock : Winsock}
    (posted : scope.postAccept winsock = .ok (true, after)) :
    Does thread sessions owner requests scope (postAccept client) true after := by
  rcases Except.bind_eq_ok.mp posted with ⟨⟨context, made⟩, creates, rest⟩
  rcases does_newContext isSelf pools creates with ⟨news, viewed⟩
  refine news.bind ?_
  rw [← viewed]
  simp only at rest
  split at rest
  · cases rest
    exact does_post (news.self.trans isSelf) context
  · rcases Except.bind_eq_ok.mp rest with ⟨deleted, deletes, rest⟩
    cases rest

theorem does_acceptCompletion {client : ClientId} (isSelf : scope.self = .client client)
    (pools : PoolsOpen owner) (free : Open owner (.client client)) {winsock : Winsock}
    (accepted : scope.acceptCompletion winsock = .ok after) :
    Does thread sessions owner requests scope (acceptCompletion client) () after := by
  refine (does_exchangeConnected isSelf true).bind ?_
  simp only [SessionScope.acceptCompletion] at accepted
  split at accepted
  · cases accepted
  next closed =>
  rw [if_neg closed]
  split at accepted
  · refine (does_setUpSocket_failed _ _).bind ?_
    exact does_disconnectRequest (by exact isSelf) pools (fun _ => free) accepted
  · refine (does_setUpSocket _).bind ?_
    rcases Except.bind_eq_ok.mp accepted with ⟨⟨preRecvOk, waiting⟩, receives, rest⟩
    have waits : Does thread sessions owner requests
        (scope.update ({ · with mConnected := true, attached := true }))
        (preRecv (.client client)) preRecvOk waiting :=
      does_preRecv (by exact isSelf) pools free receives
    have unattached : Does thread sessions owner requests
        (scope.update ({ · with mConnected := true })) (preRecv (.client client)) preRecvOk
        waiting :=
      waits.seen (scope.update _) rfl rfl
    refine unattached.bind ?_
    simp only at rest
    split at rest
    · cases rest
      exact does_pure ()
    · cases rest
      exact (does_pure ()).unseen rfl rfl

theorem does_connectRequest {index : ℕ} (isSelf : scope.self = .server index)
    (pools : PoolsOpen owner) (free : Open owner (.server index)) {winsock : Winsock}
    {result : Bool} (requested : scope.connectRequest winsock = .ok (result, after)) :
    Does thread sessions owner requests scope (connectRequest index) result after := by
  refine (does_isConnected isSelf).bind ?_
  simp only [SessionScope.connectRequest] at requested
  split at requested
  · cases requested
  next closed =>
  rw [if_neg closed]
  split at requested
  · cases requested
    exact (does_setUpSocket_failed _ _).bind (does_pure false)
  split at requested
  · cases requested
    exact (does_setUpSocket_failed _ _).bind (does_pure false)
  · refine (does_setUpSocket _).bind ?_
    rcases Except.bind_eq_ok.mp requested with ⟨⟨context, made⟩, creates, rest⟩
    rcases does_newContext (by exact isSelf) pools creates with ⟨news, viewed⟩
    refine (news.seen scope rfl rfl).bind ?_
    have same : made.self = .server index := news.self.trans isSelf
    rw [← viewed]
    simp only at rest
    split at rest
    · cases rest
      exact (does_post same context).bind (does_pure true)
    · rcases Except.bind_eq_ok.mp rest with ⟨deleted, deletes, rest⟩
      cases rest
      exact (does_post_refused same pools (fun _ => free) deletes).bind (does_pure true)

theorem does_connectCompletion {index : ℕ} (isSelf : scope.self = .server index)
    (pools : PoolsOpen owner) (free : Open owner (.server index)) {winsock : Winsock}
    (connected : scope.connectCompletion winsock = .ok after) :
    Does thread sessions owner requests scope (connectCompletion index) () after := by
  simp only [SessionScope.connectCompletion] at connected
  split at connected
  · cases connected
    exact (does_setUp _ false).bind (does_pure ())
  split at connected
  · cases connected
  split at connected
  · cases connected
  · refine (does_setUp _ true).bind ((does_setUpSocket _).bind ?_)
    rcases Except.bind_eq_ok.mp connected with ⟨⟨preRecvOk, waiting⟩, receives, rest⟩
    have waits : Does thread sessions owner requests scope (preRecv (.server index)) preRecvOk
        waiting :=
      does_preRecv isSelf pools free receives
    refine waits.bind ?_
    refine (does_exchangeConnected (waits.self.trans isSelf) true).bind ?_
    simp only at rest
    split at rest
    · cases rest
    · next closed =>
        cases rest
        rw [eq_false_of_ne_true closed]
        exact (does_crashAssert rfl).unseen rfl rfl

/-! ## The worker threads -/

theorem toSession_dequeue (session : SessionState) (context : OverlappedIOContext)
    (completion : Completion) :
    (session.dequeue context completion).toSession =
      arrive ⟨view self context, completion.ret, completion.dwTransferred⟩ completion.data
        session.toSession := by
  simp only [SessionState.dequeue, arrive, view]
  cases context.mIoType <;> cases completion.ret <;> cases context.mWsaBuf.buf <;> rfl

/-- A completion is dequeued in both models. -/
theorem does_getQueuedCompletionStatus (isSelf : scope.self = self)
    {context : OverlappedIOContext} {completion : Completion}
    (inFlight : context ∈ scope.session.inFlight) (reports : completion.Reports context) :
    Does thread sessions owner requests scope (act .getQueuedCompletionStatus)
      (some ⟨view self context, completion.ret, completion.dwTransferred⟩)
      (scope.update (.dequeue context completion)) := by
  subst isSelf
  refine ⟨rfl, carries_perform fun state stands => ?_⟩
  have taken : (state.inFlight.filter (·.mSessionObject = scope.self)).Perm
      (view scope.self context ::
        (scope.session.inFlight.erase context).map (view scope.self)) :=
    stands.inFlight.trans ((List.perm_cons_erase inFlight).map (view scope.self))
  have present : view scope.self context ∈ state.inFlight :=
    (List.mem_filter.mp (taken.mem_iff.mpr List.mem_cons_self)).1
  have rest : state.inFlight.Perm
      (view scope.self context :: state.inFlight.erase (view scope.self context)) :=
    List.perm_cons_erase present
  refine ⟨⟨true, some ⟨view scope.self context, completion.ret, completion.dwTransferred⟩,
    completion.data⟩, _, if_pos ⟨present, reports⟩, ?_⟩
  have own : ((state.inFlight.erase (view scope.self context)).filter
      (·.mSessionObject = scope.self)).Perm
      ((scope.session.dequeue context completion).inFlight.map (view scope.self)) := by
    have filtered := rest.filter (·.mSessionObject = scope.self)
    rw [List.filter_cons_of_pos (by simp [view])] at filtered
    exact (filtered.symm.trans taken).cons_inv
  have others (other : SessionId) (ne : other ≠ scope.self) :
      ((state.inFlight.erase (view scope.self context)).filter (·.mSessionObject = other)).Perm
        (state.inFlight.filter (·.mSessionObject = other)) := by
    have filtered := rest.filter (·.mSessionObject = other)
    rw [List.filter_cons_of_neg (by simp [view, Ne.symm ne])] at filtered
    exact filtered.symm
  have changed := stands.change own others stands.count
  rw [toSession_dequeue, ← stands.session] at changed
  exact changed

/-- The session is disconnected and the context deleted. -/
theorem does_closeJob_failed (isSelf : scope.self = self) (pools : PoolsOpen owner)
    (free : Open owner self) {dr : DisconnectReason} {context : OverlappedIOContext}
    {winsock : Winsock} (disconnects : scope.disconnectRequest dr winsock = .ok middle)
    (deletes : middle.deleteIoContext context = .ok after) :
    Does thread sessions owner requests scope (closeJob self (view self context) false) .sendJob
      after := by
  refine (does_disconnectRequest isSelf pools (fun _ => free) disconnects).next fun same => ?_
  exact (does_deleteIoContext (same.trans isSelf) pools (fun _ => free) deletes).bind (does_pure _)

/-- A handler ends its session in both models. -/
theorem does_closeJob (isSelf : scope.self = self) (pools : PoolsOpen owner)
    (free : Open owner self) {completionOk : Bool} {context : OverlappedIOContext}
    {winsock : Winsock} (closed : scope.closeJob completionOk context winsock = .ok after) :
    Does thread sessions owner requests scope (closeJob self (view self context) completionOk)
      .sendJob after := by
  cases completionOk with
  | true => exact (does_deleteIoContext isSelf pools (fun _ => free) closed).bind (does_pure _)
  | false =>
      rcases Except.bind_eq_ok.mp closed with ⟨disconnected, disconnects, deletes⟩
      exact does_closeJob_failed isSelf pools free disconnects deletes

/-- A failed completion closes the session in both models. -/
theorem does_failJob (isSelf : scope.self = self) (pools : PoolsOpen owner)
    (free : Open owner self) {context : OverlappedIOContext} {winsock : Winsock}
    (failed : scope.failJob context winsock = .ok after) :
    Does thread sessions owner requests scope (closeJob self (view self context) false) .sendJob
      after := by
  simp only [SessionScope.failJob] at failed
  split at failed
  · rcases Except.bind_eq_ok.mp failed with ⟨disconnected, disconnects, deletes⟩
    have closes : Does thread sessions owner requests (scope.update (.record .sendFailed))
        (closeJob self (view self context) false) .sendJob after :=
      does_closeJob_failed (by exact isSelf) pools free disconnects deletes
    exact closes.seen scope rfl rfl
  · rcases Except.bind_eq_ok.mp failed with ⟨disconnected, disconnects, deletes⟩
    exact does_closeJob_failed isSelf pools free disconnects deletes

/-- `DoIocpJob` after a context has been dequeued. -/
def handleJob (session : SessionId) (context : Context) (completion : Completion) : Task Mode :=
  if (completion.ret = false ∨ completion.dwTransferred = 0) ∧
      (context.mIoType = .ioRecv ∨ context.mIoType = .ioSend) then
    closeJob session context false
  else do
    let completionOk ← dispatch session context completion.dwTransferred
    closeJob session context completionOk

/-- A dispatch and the end of `DoIocpJob`. -/
theorem does_dispatch {completionOk : Bool} {context : OverlappedIOContext}
    {completion : Completion} {winsock : Winsock} (isSelf : scope.self = self)
    (pools : PoolsOpen owner) (free : Open owner self)
    (transferred : ¬((completion.ret = false ∨ completion.dwTransferred = 0) ∧
      (context.mIoType = .ioRecv ∨ context.mIoType = .ioSend)))
    (dispatched : Does thread sessions owner requests scope
      (dispatch self (view self context) completion.dwTransferred) completionOk middle)
    (closed : middle.closeJob completionOk context winsock = .ok after) :
    Does thread sessions owner requests scope (handleJob self (view self context) completion)
      .sendJob after := by
  have code : handleJob self (view self context) completion = (do
      let completionOk ← dispatch self (view self context) completion.dwTransferred
      closeJob self (view self context) completionOk) :=
    if_neg transferred
  rw [code]
  exact dispatched.next fun same => does_closeJob (same.trans isSelf) pools free closed

/-- A completion other than a receive is handled in both models. -/
theorem does_handleJob (isSelf : scope.self = self) (pools : PoolsOpen owner)
    (free : Open owner self) {context : OverlappedIOContext} {completion : Completion}
    {winsock : Winsock}
    (handled : scope.doIocpJob context completion winsock = .ok (.idle, after)) :
    Does thread sessions owner requests scope (handleJob self (view self context) completion)
      .sendJob after := by
  by_cases failed : (completion.ret = false ∨ completion.dwTransferred = 0) ∧
      (context.mIoType = .ioRecv ∨ context.mIoType = .ioSend)
  · rw [SessionScope.doIocpJob, if_pos failed] at handled
    rcases Except.bind_eq_ok.mp handled with ⟨closed, closes, rest⟩
    cases rest
    have code : handleJob self (view self context) completion =
        closeJob self (view self context) false :=
      if_pos failed
    rw [code]
    exact does_failJob isSelf pools free closes
  · rw [SessionScope.doIocpJob, if_neg failed] at handled
    subst isSelf
    cases kind : context.mIoType with
    | ioNone => simp [kind] at handled
    | ioRecv => simp [kind] at handled
    | ioConnect =>
        cases isSelf : scope.self with
        | client client => simp [kind, isSelf] at handled
        | server index =>
            rw [isSelf] at free
            simp only [kind, isSelf] at handled
            rcases Except.bind_eq_ok.mp handled with ⟨connected, connects, rest⟩
            rcases Except.bind_eq_ok.mp rest with ⟨closed, closes, rest⟩
            cases rest
            refine does_dispatch isSelf pools free failed ?_ closes
            simp only [dispatch, view, kind]
            exact (does_connectCompletion isSelf pools free connects).bind (does_pure true)
    | ioDisconnect =>
        simp only [kind] at handled
        rcases Except.bind_eq_ok.mp handled with ⟨completed, completes, rest⟩
        rcases Except.bind_eq_ok.mp rest with ⟨closed, closes, rest⟩
        cases rest
        refine does_dispatch rfl pools free failed ?_ closes
        simp only [dispatch, view, kind]
        exact (does_disconnectCompletion rfl (fun _ => free) completes).bind (does_pure true)
    | ioAccept =>
        cases isSelf : scope.self with
        | server index => simp [kind, isSelf] at handled
        | client client =>
            rw [isSelf] at free
            simp only [kind, isSelf] at handled
            rcases Except.bind_eq_ok.mp handled with ⟨accepted, accepts, rest⟩
            rcases Except.bind_eq_ok.mp rest with ⟨closed, closes, rest⟩
            cases rest
            refine does_dispatch isSelf pools free failed ?_ closes
            simp only [dispatch, view, kind]
            exact (does_acceptCompletion isSelf pools free accepts).bind (does_pure true)
    | ioRecvZero =>
        simp only [kind] at handled
        rcases Except.bind_eq_ok.mp handled with ⟨⟨completionOk, posted⟩, posts, rest⟩
        rcases Except.bind_eq_ok.mp rest with ⟨closed, closes, rest⟩
        cases rest
        refine does_dispatch rfl pools free failed ?_ closes
        simp only [dispatch, view, kind]
        exact does_postRecv rfl pools free posts
    | ioSend =>
        simp only [kind] at handled
        rcases Except.bind_eq_ok.mp handled with ⟨closed, closes, rest⟩
        cases rest
        refine does_dispatch rfl pools free failed ?_ closes
        simp only [dispatch, view, kind]
        exact (does_sendCompletion rfl free.2 context completion.dwTransferred).bind (does_pure _)

/-- A handler ends, or a receive goes on. -/
theorem doIocpJob_cases {context : OverlappedIOContext} {completion : Completion}
    {winsock : Winsock} {job : Job}
    (handled : scope.doIocpJob context completion winsock = .ok (job, after)) :
    job = .idle ∨ (context.mIoType = .ioRecv ∧ completion.ret = true ∧
      completion.dwTransferred ≠ 0 ∧ job = .recvCompleted scope.self context ∧
      after = scope.update (.recvCompletion completion)) := by
  by_cases failed : (completion.ret = false ∨ completion.dwTransferred = 0) ∧
      (context.mIoType = .ioRecv ∨ context.mIoType = .ioSend)
  · rw [SessionScope.doIocpJob, if_pos failed] at handled
    rcases Except.bind_eq_ok.mp handled with ⟨closed, closes, rest⟩
    cases rest
    exact Or.inl rfl
  · rw [SessionScope.doIocpJob, if_neg failed] at handled
    split at handled
    case h_6 kind =>
      cases handled
      simp only [kind, true_or, and_true, not_or, Bool.not_eq_false] at failed
      exact Or.inr ⟨kind, failed.1, failed.2, rfl, rfl⟩
    case h_7 => cases handled
    all_goals
      simp only [Except.bind_eq_ok, Except.ok.injEq, Prod.mk.injEq] at handled
      grind

/-- A receive is handled up to its entry in the list of the worker. -/
theorem carries_handleJob {worker : Fin workers} (isSelf : scope.self = self)
    (pools : PoolsOpen owner) (free : Open owner self) {context : OverlappedIOContext}
    {completion : Completion} {winsock : Winsock} (kind : context.mIoType = .ioRecv)
    (ret : completion.ret = true) (transferred : completion.dwTransferred ≠ 0)
    (wellFormed : (scope.session.recvCompletion completion).mRecvBuffer.WellFormed)
    {queue left : List SendRequest} {session : SessionState}
    (current : requests worker = queue.map SendRequest.session)
    (echoes : (scope.session.recvCompletion completion).echoBack self queue = (left, session))
    (finished : SessionScope.finishRecv context winsock { scope with session } = .ok after) :
    (program workers).Carries (.worker worker) (Stands sessions owner requests scope)
      (handleJob self (view self context) completion) .sendJob
      (Stands sessions owner (Function.update requests worker (left.map SendRequest.session))
        after) := by
  have code : handleJob self (view self context) completion = (do
      let completionOk ← dispatch self (view self context) completion.dwTransferred
      closeJob self (view self context) completionOk) := by
    refine if_neg ?_
    simp [ret, transferred]
  have dispatched : dispatch self (view self context) completion.dwTransferred = (do
      recvCompletion self completion.dwTransferred
      echoBack self
      preRecv self) := by
    simp only [dispatch, view, kind]
  rw [code, dispatched]
  rcases Except.bind_eq_ok.mp finished with ⟨⟨completionOk, waiting⟩, receives, closes⟩
  have waits : Does (.worker worker) sessions owner
      (Function.update requests worker (left.map SendRequest.session)) { scope with session }
      (preRecv self) completionOk waiting :=
    does_preRecv (by exact isSelf) pools free receives
  have echoed : (program workers).Carries (.worker worker)
      (Stands sessions owner requests (scope.update (.recvCompletion completion))) (echoBack self)
      () (Stands sessions owner (Function.update requests worker (left.map SendRequest.session))
        { scope with session }) :=
    carries_echoBack (by exact isSelf) free.2 wellFormed current echoes
  refine ((does_recvCompletion isSelf completion).carries.bind
    (echoed.bind waits.carries)).bind ?_
  exact (does_closeJob (waits.self.trans isSelf) pools free closes).carries

end Gsp.Homework5.Locking
