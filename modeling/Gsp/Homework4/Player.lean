import Gsp.Lib.Except
import Gsp.Lib.Machine
import Gsp.Lib.OrderedMap
import Gsp.Lib.SharedPointers
import Gsp.Lib.Word
import Mathlib.Data.Int.Order.Basic

/-!
# The buffs of a player

`Player.cpp` and `PlayerManager.cpp`. A player belongs to a client session for
good; the pointer of the session is never destroyed and left out. Texts that are
printed are left out too, and so is the event of a buff in `OnTick`, which
`GCEDispatch` drops.

`GetSharedFromThis` makes an owner of its own of the raw pointer, so that the
player is deleted with it. The bodies of `DoSyncAfter` and `GCEDispatch` are not
written yet: their arguments are destroyed when they return.

What the list of buffs is for is said by the record of a session: the buffs
added in it, and how often the list has decayed since.
-/

namespace Gsp.Homework4

/-! ## Players -/

/-- Why the server stops. -/
inductive PlayerFault where
  /-- `CRASH_ASSERT(false)` in `~Player`. -/
  | crashAssert
  deriving DecidableEq

/-- The map leads from an id to a `shared_ptr` of a player. -/
structure PlayerManager where
  mCurrentIssueId : ℤ
  mPlayerMap : OrderedMap ℤ ℕ

/-- `GPlayerManager` and the pointers of players, which are numbered in the pool. -/
structure PlayerWorld where
  manager : PlayerManager
  shared : SharedPointers ℕ

/-- A pointer is destroyed, and the player deleted if it is the last one of its owner. -/
def PlayerWorld.destroy (pointer : ℕ) (world : PlayerWorld) : Except PlayerFault PlayerWorld :=
  match world.shared.destroy pointer with
  | (some _, _) => .error .crashAssert
  | (none, shared) => .ok { world with shared }

/-- `GetSharedFromThis` of the player with this number. -/
def PlayerWorld.getSharedFromThis (number : ℕ) (world : PlayerWorld) : ℕ × PlayerWorld :=
  let (pointer, shared) := world.shared.construct number
  (pointer, { world with shared })

namespace PlayerManager

/-- The constructor. -/
def construct : PlayerManager := ⟨0, .empty⟩

/-- The pointer that the map has for an id is destroyed. -/
def dropPlayer (playerId : ℤ) (world : PlayerWorld) : Except PlayerFault PlayerWorld :=
  match world.manager.mPlayerMap.find playerId with
  | some old => world.destroy old
  | none => .ok world

/-- The pointer is copied into the map and destroyed with the parameter. -/
def registerPlayer (player : ℕ) (world : PlayerWorld) : Except PlayerFault (ℤ × PlayerWorld) := do
  let mCurrentIssueId := Word.wrap32 (world.manager.mCurrentIssueId + 1)
  let world ← dropPlayer mCurrentIssueId { world with shared := world.shared.copy player }
  let manager := ⟨mCurrentIssueId, world.manager.mPlayerMap.assign mCurrentIssueId player⟩
  let world ← PlayerWorld.destroy player { world with manager }
  pure (mCurrentIssueId, world)

/-- `UnregisterPlayer`. -/
def unregisterPlayer (playerId : ℤ) (world : PlayerWorld) : Except PlayerFault PlayerWorld := do
  let world ← dropPlayer playerId world
  let mPlayerMap := world.manager.mPlayerMap.erase playerId
  pure { world with manager := { world.manager with mPlayerMap } }

end PlayerManager

/-- The list leads from the id of a buff to its time. -/
structure Player where
  mPlayerId : ℤ
  mHeartBeat : ℤ
  mIsAlive : Bool
  mBuffList : OrderedMap ℤ ℤ

namespace Player

/-- `PlayerReset`. -/
def playerReset (player : Player) (world : PlayerWorld) :
    Except PlayerFault (Player × PlayerWorld) := do
  let world ← PlayerManager.unregisterPlayer player.mPlayerId world
  pure ({ player with mPlayerId := -1, mHeartBeat := -1, mIsAlive := false }, world)

/-- The constructor, which resets a raw player. -/
def construct (mPlayerId mHeartBeat : ℤ) (mIsAlive : Bool) (world : PlayerWorld) :
    Except PlayerFault (Player × PlayerWorld) :=
  playerReset ⟨mPlayerId, mHeartBeat, mIsAlive, .empty⟩ world

/-- The instance is a parameter of a function without a body. -/
def doSyncAfter (pointer : ℕ) (world : PlayerWorld) : Except PlayerFault PlayerWorld :=
  world.destroy pointer

/-- `OnTick` of the player with this number. -/
def onTick (number : ℕ) (player : Player) (world : PlayerWorld) :
    Except PlayerFault PlayerWorld :=
  if player.mIsAlive then
    if 0 < player.mHeartBeat then
      let (pointer, world) := world.getSharedFromThis number
      doSyncAfter pointer world
    else .ok world
  else .ok world

/-- `Start` of the player with this number. -/
def start (number : ℕ) (heartbeat : ℤ) (player : Player) (world : PlayerWorld) :
    Except PlayerFault (Player × PlayerWorld) := do
  let player := { player with mIsAlive := true, mHeartBeat := heartbeat }
  let (pointer, world) := world.getSharedFromThis number
  let (mPlayerId, world) ← PlayerManager.registerPlayer pointer world
  let player := { player with mPlayerId }
  let world ← player.onTick number world
  pure (player, world)

/-- `AddBuff`. -/
def addBuff (buffId duration : ℤ) (player : Player) : Player :=
  { player with mBuffList := player.mBuffList.insert buffId duration }

/-- The body of the loop: the time that is left, unless the buff has expired. -/
def decay (mHeartBeat time : ℤ) : Option ℤ :=
  let time := Word.wrap32 (time - mHeartBeat)
  if time ≤ 0 then none else some time

/-- `DecayTickBuff`. -/
def decayTickBuff (player : Player) : Player :=
  { player with mBuffList := player.mBuffList.sweep (decay player.mHeartBeat) }

end Player

/-! ## Sessions -/

/-- A buff that was added, and the calls of `DecayTickBuff` since. -/
structure Buff where
  id : ℤ
  duration : ℤ
  decays : ℕ

/-- What is left of the duration. -/
def Buff.remaining (heartbeat : ℤ) (buff : Buff) : ℤ := buff.duration - heartbeat * buff.decays

/-- The record of a session. -/
structure PlayerSession where
  heartbeat : ℤ
  added : List Buff

namespace PlayerSession

/-- A buff with this id has this much time left. -/
def Present (session : PlayerSession) (id time : ℤ) : Prop :=
  ∃ buff ∈ session.added, buff.id = id ∧ buff.remaining session.heartbeat = time ∧ 0 < time

/-- A buff is not added while its id is present. -/
def addBuff (buffId duration : ℤ) (session : PlayerSession) : PlayerSession :=
  if session.added.any fun buff => buff.id = buffId ∧ 0 < buff.remaining session.heartbeat then
    session
  else { session with added := session.added ++ [⟨buffId, duration, 0⟩] }

/-- `DecayTickBuff`. -/
def decayTickBuff (session : PlayerSession) : PlayerSession :=
  { session with
    added := session.added.map fun buff => { buff with decays := buff.decays + 1 } }

end PlayerSession

/-! ## Runs -/

/-- A call on a player. -/
inductive PlayerCall where
  | start (heartbeat : ℤ)
  | addBuff (fromPlayerId buffId duration : ℤ)
  | decayTickBuff
  | playerReset

namespace PlayerCall

/-- What a call does to a player. -/
def run (number : ℕ) (player : Player) (world : PlayerWorld) :
    PlayerCall → Except PlayerFault (Player × PlayerWorld)
  | start heartbeat => player.start number heartbeat world
  | addBuff _ buffId duration => .ok (player.addBuff buffId duration, world)
  | decayTickBuff => .ok (player.decayTickBuff, world)
  | playerReset => player.playerReset world

/-- What a call adds to the record. -/
def record (session : Option PlayerSession) : PlayerCall → Option PlayerSession
  | start heartbeat => some ⟨heartbeat, []⟩
  | addBuff _ buffId duration => session.map (.addBuff buffId duration)
  | decayTickBuff => session.map .decayTickBuff
  | playerReset => none

/-- A session is started between sessions, and the other calls are made in one;
the heartbeat and durations are positive `int`s. -/
def Allowed (session : Option PlayerSession) : PlayerCall → Prop
  | start heartbeat => session = none ∧ 0 < heartbeat ∧ heartbeat < 2 ^ 31
  | addBuff _ _ duration => session ≠ none ∧ 0 < duration ∧ duration < 2 ^ 31
  | decayTickBuff => session ≠ none
  | playerReset => session ≠ none

end PlayerCall

/-- The players of the pool with the world they share, and the records of their sessions. -/
structure Players where
  players : ℕ → Player
  world : PlayerWorld
  sessions : ℕ → Option PlayerSession

/-- A player takes a call. -/
def Players.next (state : Players) (label : ℕ × PlayerCall) : Except PlayerFault Players := do
  let (player, world) ← label.2.run label.1 (state.players label.1) state.world
  pure {
    players := Function.update state.players label.1 player
    world
    sessions := Function.update state.sessions label.1
      (label.2.record (state.sessions label.1)) }

/-- The players are constructed before the first call. -/
def playing : Machine Players (ℕ × PlayerCall) where
  Initial state :=
    (∀ number, ∃ mPlayerId mHeartBeat mIsAlive,
      Player.construct mPlayerId mHeartBeat mIsAlive ⟨.construct, .empty⟩ =
        .ok (state.players number, state.world)) ∧
    ∀ number, state.sessions number = none
  Step before label after := before.next label = .ok after

/-- The calls make up sessions of the players. -/
def Sessions (sessions : ℕ → Option PlayerSession) : List (ℕ × PlayerCall) → Prop
  | [] => True
  | label :: rest => label.2.Allowed (sessions label.1) ∧
      Sessions (Function.update sessions label.1 (label.2.record (sessions label.1))) rest

/-- The list holds the buffs of the session that have time left, each with that time. -/
def Player.Agrees (player : Player) (session : Option PlayerSession) : Prop :=
  ∀ id time, (id, time) ∈ player.mBuffList.entries ↔
    ∃ current, session = some current ∧ current.Present id time

namespace Players

/-- The list of a player is right. -/
def ListAgrees (number : ℕ) (state : Players) : Prop :=
  (state.players number).Agrees (state.sessions number)

/-- All calls return, and the lists are right before, between and after them. -/
def Kept (state : Players) (calls : List (ℕ × PlayerCall)) : Prop :=
  ∀ earlier, earlier <+: calls →
    ∃ now, Machine.follow next state earlier = .ok now ∧ ∀ number, now.ListAgrees number

/-- No player is deleted: an id that is given out or unregistered is not in the map,
and a player that starts does not tick. -/
def Survives (state : Players) : ℕ × PlayerCall → Prop
  | (_, .start heartbeat) => heartbeat ≤ 0 ∧
      state.world.manager.mPlayerMap.find
        (Word.wrap32 (state.world.manager.mCurrentIssueId + 1)) = none
  | (number, .playerReset) =>
      state.world.manager.mPlayerMap.find (state.players number).mPlayerId = none
  | (_, _) => True

end Players

/-! ## Records -/

/-- What the calls of a session leave unchanged or within range. -/
structure PlayerSession.Sound (session : PlayerSession) (player : Player) : Prop where
  heartbeat : player.mHeartBeat = session.heartbeat
  positive : 0 < session.heartbeat
  small : session.heartbeat < 2 ^ 31
  durations : ∀ buff ∈ session.added, buff.duration < 2 ^ 31

namespace PlayerSession

variable {session : PlayerSession} {player : Player} {id time buffId duration : ℤ}

theorem pos_of_present (present : session.Present id time) : 0 < time := by
  rcases present with ⟨_, _, _, _, positive⟩
  exact positive

/-- A buff is added with its whole duration, if its id is not present. -/
theorem present_addBuff (positive : 0 < duration) :
    (session.addBuff buffId duration).Present id time ↔
      session.Present id time ∨
        (id, time) = (buffId, duration) ∧ ∀ left, ¬session.Present buffId left := by
  rw [addBuff]
  split
  · rename_i taken
    rcases List.any_eq_true.mp taken with ⟨buff, buffMem, holds⟩
    rcases of_decide_eq_true holds with ⟨same, left⟩
    have present : session.Present buffId _ := ⟨buff, buffMem, same, rfl, left⟩
    constructor
    · exact Or.inl
    · rintro (old | ⟨_, unused⟩)
      · exact old
      · exact absurd present (unused _)
  · rename_i free
    have unused : ∀ left, ¬session.Present buffId left := by
      rintro left ⟨buff, buffMem, same, rfl, stays⟩
      exact free (List.any_eq_true.mpr ⟨buff, buffMem, decide_eq_true ⟨same, stays⟩⟩)
    rw [and_iff_left unused, Present, Present]
    simp only [List.mem_append, List.mem_singleton, or_and_right, exists_or, exists_eq_left]
    refine or_congr Iff.rfl ?_
    rw [Buff.remaining, Int.natCast_zero, Int.mul_zero, Int.sub_zero, Prod.mk.injEq]
    constructor
    · rintro ⟨rfl, rfl, _⟩
      exact ⟨rfl, rfl⟩
    · rintro ⟨rfl, rfl⟩
      exact ⟨rfl, rfl, positive⟩

/-- Each sweep takes one heartbeat off. -/
theorem remaining_succ (heartbeat : ℤ) (buff : Buff) :
    Buff.remaining heartbeat { buff with decays := buff.decays + 1 } =
      buff.remaining heartbeat - heartbeat := by
  change buff.duration - heartbeat * ((buff.decays + 1 : ℕ) : ℤ) = _
  rw [Buff.remaining, Int.natCast_succ, Int.mul_add, Int.mul_one, Int.sub_sub]

@[simp]
theorem heartbeat_decayTickBuff (session : PlayerSession) :
    session.decayTickBuff.heartbeat = session.heartbeat :=
  rfl

theorem present_decayTickBuff (positive : 0 < session.heartbeat) :
    session.decayTickBuff.Present id time ↔
      session.Present id (time + session.heartbeat) ∧ 0 < time := by
  constructor
  · rintro ⟨buff, buffMem, rfl, rfl, left⟩
    rcases List.mem_map.mp buffMem with ⟨old, oldMem, rfl⟩
    rw [heartbeat_decayTickBuff, remaining_succ] at left ⊢
    refine ⟨⟨old, oldMem, rfl, ?_, ?_⟩, left⟩
    · omega
    · omega
  · rintro ⟨⟨old, oldMem, rfl, remaining_eq, _⟩, left⟩
    refine ⟨_, List.mem_map_of_mem oldMem, rfl, ?_, left⟩
    rw [heartbeat_decayTickBuff, remaining_succ, remaining_eq]
    omega

/-- The time of a buff is never more than its duration. -/
theorem Sound.time_lt (sound : session.Sound player) (present : session.Present id time) :
    time < 2 ^ 31 := by
  rcases present with ⟨buff, buffMem, _, rfl, _⟩
  have duration_lt := sound.durations buff buffMem
  have elapsed := Int.mul_nonneg sound.positive.le (Int.natCast_nonneg buff.decays)
  rw [Buff.remaining]
  omega

end PlayerSession

/-! ## Calls -/

namespace Player

variable {player : Player} {session : PlayerSession} {buffId duration : ℤ}

theorem agrees_some :
    player.Agrees (some session) ↔
      ∀ id time, (id, time) ∈ player.mBuffList.entries ↔ session.Present id time := by
  simp [Agrees]

theorem agrees_none : player.Agrees none ↔ player.mBuffList.entries = [] := by
  simp [Agrees, List.eq_nil_iff_forall_not_mem]

/-- An added buff is there in both. -/
theorem agrees_addBuff (agrees : player.Agrees (some session)) (positive : 0 < duration) :
    (player.addBuff buffId duration).Agrees (some (session.addBuff buffId duration)) := by
  rw [agrees_some] at agrees ⊢
  intro id time
  have unused : (∀ other ∈ player.mBuffList.entries, other.1 ≠ buffId) ↔
      ∀ left, ¬session.Present buffId left := by
    constructor
    · intro free left present
      exact free _ ((agrees buffId left).mpr present) rfl
    · rintro free ⟨_, left⟩ otherMem rfl
      exact free left ((agrees _ left).mp otherMem)
  rw [PlayerSession.present_addBuff positive, ← agrees, ← unused]
  exact OrderedMap.mem_insert (id, time)

theorem decay_eq_some {mHeartBeat time left : ℤ} (lower : 0 < time) (upper : time < 2 ^ 31)
    (positive : 0 < mHeartBeat) (small : mHeartBeat < 2 ^ 31) :
    decay mHeartBeat time = some left ↔ time = left + mHeartBeat ∧ 0 < left := by
  have unwrapped : Word.wrap32 (time - mHeartBeat) = time - mHeartBeat :=
    Word.wrap32_eq (by omega) (by omega)
  rw [decay, unwrapped]
  split
  · constructor
    · rintro ⟨⟩
    · omega
  · rw [Option.some.injEq]
    omega

/-- A sweep removes the same buffs from both. -/
theorem agrees_decayTickBuff (sound : session.Sound player)
    (agrees : player.Agrees (some session)) :
    player.decayTickBuff.Agrees (some session.decayTickBuff) := by
  rw [agrees_some] at agrees ⊢
  intro id left
  rw [PlayerSession.present_decayTickBuff sound.positive, ← agrees]
  have small := sound.small
  have positive := sound.positive
  rw [← sound.heartbeat] at small positive ⊢
  have decays : ∀ time, (id, time) ∈ player.mBuffList.entries →
      (decay player.mHeartBeat time = some left ↔ time = left + player.mHeartBeat ∧ 0 < left) := by
    intro time entryMem
    have present := (agrees id time).mp entryMem
    exact decay_eq_some (PlayerSession.pos_of_present present) (sound.time_lt present) positive
      small
  calc (id, left) ∈ player.decayTickBuff.mBuffList.entries
      ↔ ∃ time, (id, time) ∈ player.mBuffList.entries ∧
          decay player.mHeartBeat time = some left := OrderedMap.mem_sweep
    _ ↔ ∃ time, (id, time) ∈ player.mBuffList.entries ∧
          time = left + player.mHeartBeat ∧ 0 < left :=
        exists_congr fun time => and_congr_right (decays time)
    _ ↔ (id, left + player.mHeartBeat) ∈ player.mBuffList.entries ∧ 0 < left := by
        constructor
        · rintro ⟨_, entryMem, rfl, stays⟩
          exact ⟨entryMem, stays⟩
        · rintro ⟨entryMem, stays⟩
          exact ⟨_, entryMem, rfl, stays⟩

end Player

namespace Player

variable {number : ℕ} {player after : Player} {world next : PlayerWorld} {heartbeat : ℤ}

/-- Neither `PlayerReset` nor `Start` clears the list. -/
theorem mBuffList_playerReset (done : player.playerReset world = .ok (after, next)) :
    after.mBuffList = player.mBuffList := by
  rcases Except.bind_eq_ok.mp done with ⟨_, _, made⟩
  cases made
  rfl

/-- `Start` leaves the list as it is. -/
theorem mBuffList_start (done : player.start number heartbeat world = .ok (after, next)) :
    after.mBuffList = player.mBuffList := by
  rcases Except.bind_eq_ok.mp done with ⟨_, _, rest⟩
  rcases Except.bind_eq_ok.mp rest with ⟨_, _, made⟩
  cases made
  rfl

end Player

namespace PlayerCall

variable {number : ℕ} {player : Player} {world : PlayerWorld} {session : PlayerSession}
  {call : PlayerCall}

/-- A call within a session. -/
def InSession : PlayerCall → Prop
  | addBuff _ _ duration => 0 < duration ∧ duration < 2 ^ 31
  | decayTickBuff => True
  | start _ | playerReset => False

/-- A call within a session keeps the list and the record together. -/
theorem agrees_run (inSession : call.InSession) (sound : session.Sound player)
    (agrees : player.Agrees (some session)) :
    ∃ after later, call.run number player world = .ok (after, world) ∧
      call.record (some session) = some later ∧ later.Sound after ∧ after.Agrees (some later) := by
  cases call with
  | start heartbeat => cases inSession
  | playerReset => cases inSession
  | addBuff fromPlayerId buffId duration =>
      refine ⟨_, _, rfl, rfl, ?_, Player.agrees_addBuff agrees inSession.1⟩
      rcases sound with ⟨heartbeat, positive, small, durations⟩
      rw [PlayerSession.addBuff]
      split
      · exact ⟨heartbeat, positive, small, durations⟩
      · refine ⟨heartbeat, positive, small, ?_⟩
        intro buff buffMem
        rcases List.mem_append.mp buffMem with earlier | new
        · exact durations buff earlier
        · rw [List.mem_singleton.mp new]
          exact inSession.2
  | decayTickBuff =>
      refine ⟨_, _, rfl, rfl, ?_, Player.agrees_decayTickBuff sound agrees⟩
      rcases sound with ⟨heartbeat, positive, small, durations⟩
      refine ⟨heartbeat, positive, small, ?_⟩
      intro buff buffMem
      rcases List.mem_map.mp buffMem with ⟨earlier, earlierMem, rfl⟩
      exact durations earlier earlierMem

end PlayerCall

/-! ## Pointers -/

namespace PlayerWorld

variable {world made : PlayerWorld} {pointer number : ℕ}

/-- The pointers of the map do not share a player. -/
def Sole (world : PlayerWorld) : Prop :=
  ∀ entry ∈ world.manager.mPlayerMap.entries, world.shared.Sole entry.2

/-- A player whose last owner goes fails its assertion. -/
theorem destroy_of_sole (sole : world.shared.Sole pointer) :
    world.destroy pointer = .error .crashAssert := by
  have last := sole.destroy_ne_none
  rw [destroy]
  split
  · rfl
  · next destroyed =>
      rw [destroyed] at last
      exact absurd rfl last

/-- The player goes with the pointer that `GetSharedFromThis` has made of it. -/
theorem destroy_getSharedFromThis (world : PlayerWorld) (number : ℕ) :
    (world.getSharedFromThis number).2.destroy (world.getSharedFromThis number).1 =
      .error .crashAssert :=
  destroy_of_sole (SharedPointers.sole_construct number world.shared)

/-- An owner made from `this` shares no control block with the others. -/
theorem Sole.getSharedFromThis (sole : world.Sole) (number : ℕ) :
    (world.getSharedFromThis number).2.Sole :=
  fun entry entryMem => (sole entry entryMem).construct number

end PlayerWorld

namespace PlayerManager

variable {world : PlayerWorld} {playerId : ℤ} {pointer old : ℕ}

theorem dropPlayer_of_none (unused : world.manager.mPlayerMap.find playerId = none) :
    dropPlayer playerId world = .ok world := by
  simp only [dropPlayer, unused]

/-- Dropping the entry of a player deletes the player. -/
theorem dropPlayer_of_some (found : world.manager.mPlayerMap.find playerId = some old)
    (sole : world.shared.Sole old) : dropPlayer playerId world = .error .crashAssert := by
  simp only [dropPlayer, found]
  exact PlayerWorld.destroy_of_sole sole

theorem unregisterPlayer_of_none (unused : world.manager.mPlayerMap.find playerId = none) :
    unregisterPlayer playerId world = .ok { world with
      manager := { world.manager with
        mPlayerMap := world.manager.mPlayerMap.erase playerId } } := by
  rw [unregisterPlayer, dropPlayer_of_none unused]
  rfl

/-- Erasing the entry of a player deletes the player. -/
theorem unregisterPlayer_of_some (found : world.manager.mPlayerMap.find playerId = some old)
    (sole : world.shared.Sole old) : unregisterPlayer playerId world = .error .crashAssert := by
  rw [unregisterPlayer, dropPlayer_of_some found sole]
  rfl

/-- A new number is assigned. -/
theorem registerPlayer_of_none
    (unused : world.manager.mPlayerMap.find
      (Word.wrap32 (world.manager.mCurrentIssueId + 1)) = none)
    (sole : world.shared.Sole pointer) :
    ∃ playerId next, registerPlayer pointer world = .ok (playerId, next) ∧
      next.shared = world.shared ∧ ∀ entry ∈ next.manager.mPlayerMap.entries,
        entry ∈ world.manager.mPlayerMap.entries ∨ entry.2 = pointer := by
  have back := SharedPointers.destroy_copy (sole.once.trans_ne Nat.one_ne_zero)
  have kept := @dropPlayer_of_none { world with shared := world.shared.copy pointer } _ unused
  simp only [registerPlayer, kept, Except.ok_bind, PlayerWorld.destroy, back]
  refine ⟨_, _, rfl, rfl, ?_⟩
  intro entry entryMem
  rcases OrderedMap.mem_of_mem_assign entryMem with earlier | rfl
  · exact Or.inl earlier
  · exact Or.inr rfl

/-- Assigning over the entry of a player deletes that player. -/
theorem registerPlayer_of_some
    (found : world.manager.mPlayerMap.find
      (Word.wrap32 (world.manager.mCurrentIssueId + 1)) = some old)
    (sole : world.shared.Sole old) (different : old ≠ pointer) :
    registerPlayer pointer world = .error .crashAssert := by
  have gone := @dropPlayer_of_some { world with shared := world.shared.copy pointer } _ _ found
    (sole.copy different)
  simp only [registerPlayer, gone]
  rfl

end PlayerManager

/-! ## Calls that return -/

namespace Player

variable {number : ℕ} {player : Player} {world : PlayerWorld} {heartbeat : ℤ}

/-- The pointer for the next tick is the last one of its owner. -/
theorem onTick_of_pos (alive : player.mIsAlive = true) (positive : 0 < player.mHeartBeat) :
    player.onTick number world = .error .crashAssert := by
  rw [onTick, if_pos alive, if_pos positive]
  exact PlayerWorld.destroy_getSharedFromThis world number

theorem onTick_of_nonpos (alive : player.mIsAlive = true) (nonpos : player.mHeartBeat ≤ 0) :
    player.onTick number world = .ok world := by
  rw [onTick, if_pos alive, if_neg (not_lt.mpr nonpos)]

/-- A player that starts with a heartbeat is deleted, here or by the map before. -/
theorem start_of_pos (positive : 0 < heartbeat) :
    player.start number heartbeat world = .error .crashAssert := by
  rw [start]
  cases registered : PlayerManager.registerPlayer (world.getSharedFromThis number).1
      (world.getSharedFromThis number).2 with
  | error fault =>
      cases fault
      simp only [registered]
      rfl
  | ok issued =>
      simp only [registered, Except.ok_bind]
      rw [onTick_of_pos rfl positive]
      rfl

/-- Without a heartbeat `Start` only registers the player. -/
theorem start_of_nonpos (sole : world.Sole) (nonpos : heartbeat ≤ 0)
    (unused : world.manager.mPlayerMap.find
      (Word.wrap32 (world.manager.mCurrentIssueId + 1)) = none) :
    ∃ after next, player.start number heartbeat world = .ok (after, next) ∧ next.Sole := by
  have new := SharedPointers.sole_construct number world.shared
  rcases @PlayerManager.registerPlayer_of_none (world.getSharedFromThis number).2 _ unused new with
    ⟨playerId, next, registered, shared_eq, issued⟩
  refine ⟨⟨playerId, heartbeat, true, player.mBuffList⟩, next, ?_, ?_⟩
  · simp only [PlayerWorld.getSharedFromThis] at registered
    simp only [start, PlayerWorld.getSharedFromThis, registered, Except.ok_bind]
    rw [onTick_of_nonpos rfl nonpos]
    rfl
  · intro entry entryMem
    rw [shared_eq]
    rcases issued entry entryMem with earlier | same
    · exact sole.getSharedFromThis number entry earlier
    · rw [same]
      exact new

/-- A reset of a player that is not registered returns. -/
theorem playerReset_of_none (sole : world.Sole)
    (unused : world.manager.mPlayerMap.find player.mPlayerId = none) :
    ∃ after next, player.playerReset world = .ok (after, next) ∧ next.Sole := by
  have unregistered := PlayerManager.unregisterPlayer_of_none unused
  refine ⟨⟨-1, -1, false, player.mBuffList⟩, ⟨⟨world.manager.mCurrentIssueId,
    world.manager.mPlayerMap.erase player.mPlayerId⟩, world.shared⟩, ?_,
    fun entry entryMem => sole entry (OrderedMap.mem_of_mem_erase entryMem)⟩
  simp only [playerReset, unregistered, Except.ok_bind]
  rfl

/-- A reset of a registered player deletes it. -/
theorem playerReset_of_some (sole : world.Sole) {old : ℕ}
    (found : world.manager.mPlayerMap.find player.mPlayerId = some old) :
    player.playerReset world = .error .crashAssert := by
  rw [playerReset, PlayerManager.unregisterPlayer_of_some found
    (sole _ (OrderedMap.mem_of_find found))]
  rfl

/-- The player that has the next id in the map is deleted. -/
theorem start_of_issued (sole : world.Sole) {old : ℕ}
    (found : world.manager.mPlayerMap.find
      (Word.wrap32 (world.manager.mCurrentIssueId + 1)) = some old) :
    player.start number heartbeat world = .error .crashAssert := by
  have oldSole := sole _ (OrderedMap.mem_of_find found)
  have crashed := @PlayerManager.registerPlayer_of_some (world.getSharedFromThis number).2
    (world.getSharedFromThis number).1 _ found (oldSole.construct number) oldSole.less.ne
  rw [start]
  simp only [crashed]
  rfl

end Player

namespace Players

variable {state : Players} {label : ℕ × PlayerCall}

/-- The pointers of the map stay the only ones of their owners. -/
theorem run_of_survives (sole : state.world.Sole) (survives : state.Survives label) :
    ∃ player world, label.2.run label.1 (state.players label.1) state.world = .ok (player, world) ∧
      world.Sole := by
  rcases label with ⟨number, call⟩
  cases call with
  | start heartbeat => exact Player.start_of_nonpos sole survives.1 survives.2
  | addBuff fromPlayerId buffId duration => exact ⟨_, _, rfl, sole⟩
  | decayTickBuff => exact ⟨_, _, rfl, sole⟩
  | playerReset => exact Player.playerReset_of_none sole survives

/-- A call that a player survives returns. -/
theorem next_of_survives (sole : state.world.Sole) (survives : state.Survives label) :
    ∃ after, state.next label = .ok after ∧ after.world.Sole := by
  rcases run_of_survives sole survives with ⟨player, world, ran, kept⟩
  refine ⟨⟨Function.update state.players label.1 player, world,
    Function.update state.sessions label.1 (label.2.record (state.sessions label.1))⟩, ?_, kept⟩
  simp only [next, ran, Except.ok_bind]
  rfl

/-- A call that a player does not survive fails the assertion. -/
theorem run_of_not_survives (sole : state.world.Sole) (deleted : ¬state.Survives label) :
    label.2.run label.1 (state.players label.1) state.world = .error .crashAssert := by
  rcases label with ⟨number, call⟩
  cases call with
  | start heartbeat =>
      by_cases positive : 0 < heartbeat
      · exact Player.start_of_pos positive
      · cases found : state.world.manager.mPlayerMap.find
            (Word.wrap32 (state.world.manager.mCurrentIssueId + 1)) with
        | none => exact absurd ⟨not_lt.mp positive, found⟩ deleted
        | some old => exact Player.start_of_issued sole found
  | addBuff fromPlayerId buffId duration => exact absurd trivial deleted
  | decayTickBuff => exact absurd trivial deleted
  | playerReset =>
      cases found : state.world.manager.mPlayerMap.find (state.players number).mPlayerId with
      | none => exact absurd found deleted
      | some old => exact Player.playerReset_of_some sole found

theorem next_of_not_survives (sole : state.world.Sole) (deleted : ¬state.Survives label) :
    state.next label = .error .crashAssert := by
  simp only [next, run_of_not_survives sole deleted]
  rfl

/-- In every reachable state each owner has a control block of its own. -/
theorem sole_of_reachable (reachable : playing.Reachable state) : state.world.Sole := by
  apply reachable.invariant
  · rintro first ⟨constructed, _⟩
    rcases constructed 0 with ⟨mPlayerId, mHeartBeat, mIsAlive, made⟩
    have world_eq : _ = first.world := congrArg Prod.snd (Except.ok.inj made)
    rw [← world_eq]
    intro entry entryMem
    cases entryMem
  · intro before label after _ sole step
    by_cases survives : before.Survives label
    · rcases next_of_survives sole survives with ⟨made, stepped, kept⟩
      rw [Except.ok.inj (step.symm.trans stepped)]
      exact kept
    · cases step.symm.trans (next_of_not_survives sole survives)

/-- After any calls, which calls return. -/
theorem next_eq_ok_iff (reachable : playing.Reachable state) :
    (∃ after, state.next label = .ok after) ↔ state.Survives label := by
  have sole := sole_of_reachable reachable
  constructor
  · rintro ⟨after, done⟩
    by_contra deleted
    cases done.symm.trans (next_of_not_survives sole deleted)
  · intro survives
    rcases next_of_survives sole survives with ⟨after, done, _⟩
    exact ⟨after, done⟩

/-! ## Within a session -/

/-- A player is in a session, and its list is right. -/
def InStep (number : ℕ) (state : Players) : Prop :=
  ∃ session, state.sessions number = some session ∧ session.Sound (state.players number) ∧
    (state.players number).Agrees (some session)

/-- In step, the list has the buffs that are present. -/
theorem InStep.listAgrees {number : ℕ} (inStep : state.InStep number) :
    state.ListAgrees number := by
  rcases inStep with ⟨session, current, _, agrees⟩
  rwa [ListAgrees, current]

/-- A call is about one player. -/
theorem inStep_next {number : ℕ} {after : Players} (done : state.next label = .ok after)
    (inSession : label.1 = number → label.2.InSession) (inStep : state.InStep number) :
    after.InStep number := by
  rcases label with ⟨acting, call⟩
  rcases inStep with ⟨session, current, sound, agrees⟩
  rcases Except.bind_eq_ok.mp done with ⟨⟨player, world⟩, ran, made⟩
  cases made
  by_cases here : acting = number
  · subst here
    rcases PlayerCall.agrees_run (inSession rfl) sound agrees with
      ⟨next, later, same, recorded, soundAfter, agreesAfter⟩
    cases ran.symm.trans same
    refine ⟨later, ?_, ?_, ?_⟩
    · simp only [Function.update_self, current, recorded]
    · simpa only [Function.update_self] using soundAfter
    · simpa only [Function.update_self] using agreesAfter
  · have other : number ≠ acting := Ne.symm here
    refine ⟨session, ?_, ?_, ?_⟩
    · simpa only [Function.update_of_ne other] using current
    · simpa only [Function.update_of_ne other] using sound
    · simpa only [Function.update_of_ne other] using agrees

/-- However a player has come into a session with the right list, `AddBuff` and
`DecayTickBuff` keep its list right, in any order and between calls about others. -/
theorem listAgrees_of_inSession {number : ℕ} {first last : Players}
    {steps : List (Players × (ℕ × PlayerCall))} (run : playing.Run first steps last)
    (inStep : first.InStep number)
    (inSession : ∀ step ∈ steps, step.2.1 = number → step.2.2.InSession) :
    ∀ state ∈ Machine.visited steps last, state.ListAgrees number := by
  have all : ∀ state ∈ Machine.visited steps last, state.InStep number := by
    induction run with
    | nil => simpa [Machine.visited] using inStep
    | @snoc middle last steps label run step ih =>
        rw [List.forall_mem_append, List.forall_mem_singleton] at inSession
        have earlier := ih inSession.1
        have now := earlier middle (List.mem_append_right _ List.mem_cons_self)
        simp only [Machine.visited, List.map_append, List.map_cons, List.map_nil,
          List.forall_mem_append, List.forall_mem_singleton] at earlier ⊢
        exact ⟨earlier, inStep_next step inSession.2 now⟩
  exact fun state stateMem => (all state stateMem).listAgrees

/-! ## All sessions -/

/-- Of the calls that make up sessions of the players all return, with the right
lists at every moment, if and only if there are none: the first session is not
survived. -/
theorem kept_iff_nil {calls : List (ℕ × PlayerCall)} (initial : playing.Initial state)
    (sessions : Sessions state.sessions calls) : state.Kept calls ↔ calls = [] := by
  constructor
  · intro kept
    cases calls with
    | nil => rfl
    | cons label rest =>
        rcases kept [label] ⟨rest, rfl⟩ with ⟨now, followed, _⟩
        rcases Except.bind_eq_ok.mp followed with ⟨after, done, _⟩
        rcases label with ⟨number, call⟩
        have none := initial.2 number
        cases call with
        | start heartbeat =>
            have survives := (next_eq_ok_iff (.ofInitial initial)).mp ⟨after, done⟩
            exact absurd sessions.1.2.1 (not_lt.mpr survives.1)
        | addBuff _ _ _ => exact absurd none sessions.1.1
        | decayTickBuff => exact absurd none sessions.1
        | playerReset => exact absurd none sessions.1
  · rintro rfl earlier isPrefix
    rw [List.prefix_nil] at isPrefix
    subst isPrefix
    refine ⟨state, rfl, ?_⟩
    intro number
    rcases initial.1 number with ⟨mPlayerId, mHeartBeat, mIsAlive, made⟩
    rw [ListAgrees, initial.2 number, Player.agrees_none]
    have reset := Player.mBuffList_playerReset made
    rw [reset]
    rfl

/-- The pool at the start. -/
def constructed : Players :=
  ⟨fun _ => ⟨-1, -1, false, .empty⟩, ⟨.construct, .empty⟩, fun _ => none⟩

theorem initial_constructed : playing.Initial constructed :=
  ⟨fun _ => ⟨0, 0, false, rfl⟩, fun _ => rfl⟩

/-- Two sessions of one player, the first with a buff that has not run out. -/
def twoSessions : List (ℕ × PlayerCall) :=
  [(0, .start 1), (0, .addBuff 0 1 5), (0, .decayTickBuff), (0, .playerReset), (0, .start 1)]

theorem sessions_twoSessions : Sessions constructed.sessions twoSessions :=
  ⟨⟨rfl, by decide, by decide⟩, ⟨Option.some_ne_none _, by decide, by decide⟩,
    Option.some_ne_none _, Option.some_ne_none _, ⟨rfl, by decide, by decide⟩, trivial⟩

theorem kept_iff_nil_twoSessions : ¬constructed.Kept twoSessions := by
  rw [kept_iff_nil initial_constructed sessions_twoSessions]
  decide

/-- The first call of the two sessions deletes the player. -/
theorem not_always_kept :
    Machine.follow next constructed [(0, .start 1)] = .error .crashAssert ∧
      ¬∀ state calls, playing.Initial state → Sessions state.sessions calls →
        state.Kept calls := by
  have crashed : Machine.follow next constructed [(0, .start 1)] = .error .crashAssert := rfl
  refine ⟨crashed, ?_⟩
  intro always
  rcases always _ _ initial_constructed sessions_twoSessions [(0, .start 1)] ⟨_, rfl⟩ with
    ⟨now, followed, _⟩
  cases crashed.symm.trans followed

end Players

end Gsp.Homework4
