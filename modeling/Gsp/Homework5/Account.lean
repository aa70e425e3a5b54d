import Gsp.Homework5.Effects

/-!
# Who holds a session

The numbers that decide when a client session is closed and returned: its
reference count, its flags, and how many of its contexts play each role, to
accept, to wait for bytes, to receive, to send or to disconnect. While a
completion is handled its context still counts as a reference but its role is
over or has gone to a new context; it is then `spent`.

`Balanced` is the law of these numbers. `account` reads them off a session, and
every function of a session acts on its account as the function of the same name
here.
-/

namespace Gsp.Homework5

/-- The counts that bear on a session. -/
@[ext]
structure Account where
  refCount : ℤ
  issueRef : ℤ
  connected : ℤ
  disconnects : ℤ
  pending : ℤ
  failedSends : ℤ
  accept : ℤ
  recvZero : ℤ
  recv : ℤ
  send : ℤ
  disconnect : ℤ
  other : ℤ
  spent : ℤ
  issued : Bool
  lost : Bool

/-- What keeps a connection from ever being closed has happened to it. -/
def lost : List Event → Bool
  | [] => false
  | .issued :: _ => false
  | .acceptExFailed :: _ => true
  | .acceptPreRecvFailed :: _ => true
  | .disconnectExFailed :: _ => true
  | .connectCompleted :: _ => true
  | _ :: earlier => lost earlier

namespace Account

/-- How the counts belong together. -/
structure Balanced (account : Account) : Prop where
  references : account.refCount = account.issueRef + account.accept + account.recvZero +
    account.recv + account.send + account.disconnect + account.spent
  flags : 0 ≤ account.connected ∧ 0 ≤ account.disconnects ∧ 0 ≤ account.failedSends ∧
    0 ≤ account.issueRef ∧ account.issueRef ≤ 1
  roles : 0 ≤ account.accept ∧ 0 ≤ account.recvZero ∧ 0 ≤ account.recv ∧ 0 ≤ account.send ∧
    0 ≤ account.disconnect ∧ account.other = 0 ∧ 0 ≤ account.spent
  receiving : account.accept + account.recvZero + account.recv ≤ 1
  sending : account.pending = account.send + account.failedSends
  oneSend : account.send + account.failedSends ≤ 1
  closing : account.disconnects + account.connected + account.accept ≤ 1
  support : account.connected + account.accept + account.disconnect ≤ account.issueRef
  alive : account.issued = true → 0 < account.refCount
  free : account.issued = false → account.refCount = 0
  reserved : account.lost = false →
    account.issueRef = account.connected + account.accept + account.disconnect

/-- While nothing is lost, a connected session waits for bytes or receives them. -/
def Listening (account : Account) : Prop :=
  account.lost = false → 0 < account.connected → 0 < account.recvZero + account.recv

/-- A new context accepted by Winsock. -/
def post : IOType → Account → Account
  | .ioAccept, account =>
      { account with refCount := account.refCount + 1, accept := account.accept + 1 }
  | .ioRecvZero, account =>
      { account with refCount := account.refCount + 1, recvZero := account.recvZero + 1 }
  | .ioRecv, account =>
      { account with refCount := account.refCount + 1, recv := account.recv + 1 }
  | .ioSend, account =>
      { account with refCount := account.refCount + 1, send := account.send + 1 }
  | .ioDisconnect, account =>
      { account with
        refCount := account.refCount + 1
        disconnect := account.disconnect + 1
        disconnects := account.disconnects + 1 }
  | _, account => { account with refCount := account.refCount + 1, other := account.other + 1 }

/-- A new context that Winsock has refused. -/
def abandon : IOType → Account → Account
  | .ioDisconnect, account => { account with disconnects := account.disconnects + 1 }
  | _, account => account

/-- The role of a context is over. -/
def spend : IOType → Account → Account
  | .ioAccept, account => { account with accept := account.accept - 1, spent := account.spent + 1 }
  | .ioRecvZero, account =>
      { account with recvZero := account.recvZero - 1, spent := account.spent + 1 }
  | .ioRecv, account => { account with recv := account.recv - 1, spent := account.spent + 1 }
  | .ioSend, account => { account with send := account.send - 1, spent := account.spent + 1 }
  | .ioDisconnect, account =>
      { account with disconnect := account.disconnect - 1, spent := account.spent + 1 }
  | _, account => { account with other := account.other - 1, spent := account.spent + 1 }

/-- The spent context is deleted. -/
def discard (account : Account) : Account :=
  if account.refCount = 1 then
    { account with
      refCount := 0
      issueRef := 0
      connected := 0
      issued := false
      spent := account.spent - 1 }
  else { account with refCount := account.refCount - 1, spent := account.spent - 1 }

namespace Balanced

variable {account : Account}

/-- A connected session with no receiver may post one. -/
theorem postReceiver (balanced : account.Balanced) (connected : account.connected = 1)
    {kind : IOType} (receiver : kind = .ioRecvZero ∨ kind = .ioRecv)
    (unused : account.accept + account.recvZero + account.recv = 0) :
    (account.post kind).Balanced := by
  rcases balanced with ⟨references, flags, roles, receiving, sending, oneSend, closing, support,
    alive, free, reserved⟩
  rcases receiver with rfl | rfl <;> constructor <;> simp only [post] <;> grind

/-- A connected session with no send pending may post one. -/
theorem postSend (balanced : account.Balanced) (connected : account.connected = 1)
    (idle : account.pending ≤ 0) :
    Balanced { account.post .ioSend with pending := account.pending + 1 } := by
  rcases balanced with ⟨references, flags, roles, receiving, sending, oneSend, closing, support,
    alive, free, reserved⟩
  constructor <;> simp only [post] <;> grind

/-- A session is closed by its only disconnect. -/
theorem disconnectPosted (balanced : account.Balanced) (connected : account.connected = 1) :
    Balanced ({ account with connected := 0 }.post .ioDisconnect) := by
  rcases balanced with ⟨references, flags, roles, receiving, sending, oneSend, closing, support,
    alive, free, reserved⟩
  constructor <;> simp only [post] <;> grind

/-- Without a disconnect in flight the session is lost. -/
theorem disconnectRefused (balanced : account.Balanced) (connected : account.connected = 1) :
    Balanced { { account with connected := 0 }.abandon .ioDisconnect with lost := true } := by
  rcases balanced with ⟨references, flags, roles, receiving, sending, oneSend, closing, support,
    alive, free, reserved⟩
  constructor <;> simp only [abandon] <;> grind

/-- The role of a receiver ends with its completion. -/
theorem spendReceiver (balanced : account.Balanced) {kind : IOType}
    (present : (kind = .ioRecvZero ∧ 0 < account.recvZero) ∨
      (kind = .ioRecv ∧ 0 < account.recv)) :
    (account.spend kind).Balanced := by
  rcases balanced with ⟨references, flags, roles, receiving, sending, oneSend, closing, support,
    alive, free, reserved⟩
  rcases present with ⟨rfl, positive⟩ | ⟨rfl, positive⟩ <;> constructor <;> simp only [spend] <;>
    grind

/-- `AcceptCompletion` turns the role of its context into the connected flag. -/
theorem spendAccept (balanced : account.Balanced) (present : 0 < account.accept) :
    Balanced { account.spend .ioAccept with connected := 1 } := by
  rcases balanced with ⟨references, flags, roles, receiving, sending, oneSend, closing, support,
    alive, free, reserved⟩
  constructor <;> simp only [spend] <;> grind

theorem spendSend (balanced : account.Balanced) (present : 0 < account.send) :
    Balanced { account.spend .ioSend with pending := account.pending - 1 } := by
  rcases balanced with ⟨references, flags, roles, receiving, sending, oneSend, closing, support,
    alive, free, reserved⟩
  constructor <;> simp only [spend] <;> grind

/-- The failure path leaves `mSendPendingCount` as it is. -/
theorem failSend (balanced : account.Balanced) (present : 0 < account.send) :
    Balanced { account.spend .ioSend with failedSends := account.failedSends + 1 } := by
  rcases balanced with ⟨references, flags, roles, receiving, sending, oneSend, closing, support,
    alive, free, reserved⟩
  constructor <;> simp only [spend] <;> grind

theorem spendDisconnect (balanced : account.Balanced) (present : 0 < account.disconnect) :
    Balanced { account.spend .ioDisconnect with
      refCount := account.refCount - 1, issueRef := 0 } := by
  rcases balanced with ⟨references, flags, roles, receiving, sending, oneSend, closing, support,
    alive, free, reserved⟩
  constructor <;> simp only [spend] <;> grind

/-- A free session is issued with its accept in flight. -/
theorem issuePosted (balanced : account.Balanced) (free : account.issued = false) :
    Balanced ({ account with
      refCount := account.refCount + 1, issueRef := 1, issued := true, disconnects := 0,
      lost := false }.post .ioAccept) := by
  rcases balanced with ⟨references, flags, roles, receiving, sending, oneSend, closing, support,
    alive, unissued, reserved⟩
  constructor <;> simp only [post] <;> grind

/-- A free session is issued, and lost at once. -/
theorem issueRefused (balanced : account.Balanced) (free : account.issued = false) :
    Balanced { account with
      refCount := account.refCount + 1, issueRef := 1, issued := true, disconnects := 0,
      lost := true } := by
  rcases balanced with ⟨references, flags, roles, receiving, sending, oneSend, closing, support,
    alive, unissued, reserved⟩
  constructor <;> simp only <;> grind

theorem lose (balanced : account.Balanced) : Balanced { account with lost := true } := by
  rcases balanced with ⟨references, flags, roles, receiving, sending, oneSend, closing, support,
    alive, free, reserved⟩
  exact ⟨references, flags, roles, receiving, sending, oneSend, closing, support, alive, free,
    fun kept => by cases kept⟩

/-- A session has at most five references. -/
theorem bounds (balanced : account.Balanced) (spent : account.spent ≤ 1) :
    account.refCount ≤ 5 := by
  rcases balanced with ⟨references, flags, roles, receiving, sending, oneSend, closing, support,
    alive, free, reserved⟩
  omega

/-- A context that is handled counts as a reference. -/
theorem positive (balanced : account.Balanced) (spent : 0 < account.spent) :
    0 < account.refCount := by
  rcases balanced with ⟨references, flags, roles, receiving, sending, oneSend, closing, support,
    alive, free, reserved⟩
  omega

/-- Only a closed session is down to the context that is being deleted. -/
theorem last (balanced : account.Balanced) (spent : 0 < account.spent)
    (only : account.refCount = 1) : account.connected = 0 := by
  rcases balanced with ⟨references, flags, roles, receiving, sending, oneSend, closing, support,
    alive, free, reserved⟩
  omega

/-- The handled context gives its reference back. -/
theorem discard (balanced : account.Balanced) (spent : 0 < account.spent) :
    account.discard.Balanced := by
  rcases balanced with ⟨references, flags, roles, receiving, sending, oneSend, closing, support,
    alive, free, reserved⟩
  simp only [Account.discard]
  split <;> constructor <;> simp only <;> grind

end Balanced

end Account

namespace SessionState

variable {session : SessionState}

/-! ## Counting contexts -/

/-- A completion moves a context from Winsock to its handler. -/
theorem perm_dequeue {context : OverlappedIOContext} (inFlight : context ∈ session.inFlight)
    (completion : Completion) : (session.dequeue context completion).live.Perm session.live := by
  have back := (List.perm_cons_erase inFlight).symm
  exact List.perm_middle.trans (back.append_right session.handled)

theorem perm_post (context : OverlappedIOContext) :
    (session.post context).live.Perm (context :: session.live) := by
  simp only [live, post, List.append_assoc, List.singleton_append]
  exact List.perm_middle

theorem tokens_dequeue {context : OverlappedIOContext} (inFlight : context ∈ session.inFlight)
    (completion : Completion) (kind : IOType) :
    (session.dequeue context completion).tokens kind = session.tokens kind :=
  Tally.tally_perm (perm_dequeue inFlight completion) kind

theorem tokens_post (context : OverlappedIOContext) (kind : IOType) :
    (session.post context).tokens kind =
      session.tokens kind + if context.mIoType = kind then 1 else 0 := by
  rw [tokens, Tally.tally_perm (perm_post context), Tally.tally_cons, tokens]

theorem tokens_erase {context : OverlappedIOContext} (handled : context ∈ session.handled)
    (kind : IOType) :
    tally OverlappedIOContext.mIoType (session.inFlight ++ session.handled.erase context) kind +
      (if context.mIoType = kind then 1 else 0) = session.tokens kind := by
  rw [tokens, live, Tally.tally_append, Tally.tally_append, Nat.add_assoc,
    Tally.tally_erase handled]

theorem tokens_discard {context : OverlappedIOContext} (handled : context ∈ session.handled)
    (kind : IOType) :
    (session.discard context).tokens kind + (if context.mIoType = kind then 1 else 0) =
      session.tokens kind := by
  have erased := tokens_erase handled kind
  simp only [discard]
  split
  · exact erased
  · exact erased

/-! ## The account of a session -/

/-- The contexts of a kind whose role is not over. -/
def role (spent : Option IOType) (session : SessionState) (kind : IOType) : ℤ :=
  session.tokens kind - if spent = some kind then 1 else 0

/-- The counts of a session; `spent` is the type of a context whose role is over. -/
def account (spent : Option IOType) (session : SessionState) : Account where
  refCount := session.mRefCount
  issueRef := issueRef session.trace
  connected := session.mConnected.toNat
  disconnects := disconnectsMade session.trace
  pending := session.mSendPendingCount
  failedSends := failedSends session.trace
  accept := session.role spent .ioAccept
  recvZero := session.role spent .ioRecvZero
  recv := session.role spent .ioRecv
  send := session.role spent .ioSend
  disconnect := session.role spent .ioDisconnect
  other := session.role spent .ioNone + session.role spent .ioConnect
  spent := if spent.isSome then 1 else 0
  issued := issued session.trace
  lost := lost session.trace

theorem role_post (spent : Option IOType) (context : OverlappedIOContext) (kind : IOType) :
    (session.post context).role spent kind =
      session.role spent kind + if context.mIoType = kind then 1 else 0 := by
  rw [role, role, tokens_post]
  split <;> split <;> omega

theorem account_post (spent : Option IOType) (context : OverlappedIOContext) :
    (session.post context).account spent = (session.account spent).post context.mIoType := by
  simp only [account, role_post]
  cases kind : context.mIoType <;>
    simp [kind, Account.post, post, issueRef, disconnectsMade, failedSends, issued, lost] <;> omega

theorem account_abandon (spent : Option IOType) (context : OverlappedIOContext) :
    (session.abandon context).account spent = (session.account spent).abandon context.mIoType := by
  have roles (kind : IOType) : (session.abandon context).role spent kind =
      session.role spent kind := rfl
  simp only [account, roles]
  cases kind : context.mIoType <;>
    simp [kind, Account.abandon, abandon, issueRef, disconnectsMade, failedSends, issued, lost]

theorem account_dequeue {context : OverlappedIOContext} (inFlight : context ∈ session.inFlight)
    (completion : Completion) :
    (session.dequeue context completion).account none = session.account none := by
  have roles (kind : IOType) : (session.dequeue context completion).role none kind =
      session.role none kind := by
    rw [role, role, tokens_dequeue inFlight]
  simp only [account, roles]
  rfl

/-- Handling a context ends its role. -/
theorem account_some (kind : IOType) :
    session.account (some kind) = (session.account none).spend kind := by
  cases kind <;> simp [account, role, Account.spend] <;> omega

theorem length_tokens (contexts : List OverlappedIOContext) :
    contexts.length = tally OverlappedIOContext.mIoType contexts .ioAccept +
      tally OverlappedIOContext.mIoType contexts .ioRecvZero +
      tally OverlappedIOContext.mIoType contexts .ioRecv +
      tally OverlappedIOContext.mIoType contexts .ioSend +
      tally OverlappedIOContext.mIoType contexts .ioDisconnect +
      tally OverlappedIOContext.mIoType contexts .ioNone +
      tally OverlappedIOContext.mIoType contexts .ioConnect := by
  induction contexts with
  | nil => rfl
  | cons context rest ih =>
      simp only [List.length_cons, Tally.tally_cons, ih]
      cases context.mIoType <;> simp <;> omega

/-- One reference for having been issued and one for each context. -/
theorem references_eq {spent : Option IOType} (balanced : (session.account spent).Balanced) :
    session.mRefCount = issueRef session.trace + session.live.length := by
  have references := balanced.references
  have others := balanced.roles.2.2.2.2.2.1
  have counted : session.live.length = session.tokens .ioAccept + session.tokens .ioRecvZero +
      session.tokens .ioRecv + session.tokens .ioSend + session.tokens .ioDisconnect +
      session.tokens .ioNone + session.tokens .ioConnect := length_tokens session.live
  rcases spent with _ | kind
  · simp only [account, role, reduceCtorEq, if_false, Option.isSome_none, Bool.false_eq_true]
      at references others
    omega
  · cases kind <;> simp [account, role] at references others <;> omega

/-- The last deletion of a handler. -/
theorem account_discard {context : OverlappedIOContext} (handled : context ∈ session.handled) :
    (session.discard context).account none =
      (session.account (some context.mIoType)).discard := by
  have roles (kind : IOType) : (session.discard context).role none kind =
      session.role (some context.mIoType) kind := by
    have counted := tokens_discard handled kind
    simp only [role, Option.some.injEq, reduceCtorEq, if_false]
    split at counted
    · simp_all
      omega
    · simp_all
  simp only [account, roles, Account.discard]
  by_cases last : session.mRefCount = 1 <;>
    simp [discard, last, recycle, drop, sessionReset, issueRef, disconnectsMade, failedSends,
      issued, lost]

end SessionState

end Gsp.Homework5
