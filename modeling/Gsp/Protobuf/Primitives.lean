import Gsp.Protobuf.Buffered

/-!
# Reads of a coded stream

What each read of a coherent stream returns, and that a stream on which a read
fails can still be destroyed.
-/

namespace Gsp.Protobuf.CodedInputStream

open Wire

variable {α β : Type} {stream next : CodedInputStream}

/-- A call comes to what parsing the visible bytes comes to. -/
def Agrees (stream : CodedInputStream) (outcome : Outcome α) : Option (α × List UInt8) → Prop
  | some (value, rest) => ∃ next, outcome = .returned value next ∧ Moved stream next rest
  | none => ∃ next, outcome = .failed next ∧ next.Releasable

/-- The call agrees with the parser on every stream that may recurse `depth` times. -/
def Reads (depth : ℕ) (read : Reader α) (parse : Parser α) : Prop :=
  ∀ stream, stream.Coherent → stream.recursionDepth + depth = stream.recursionLimit →
    Agrees stream (read stream) (parse stream.visible)

theorem Agrees.of_moved {outcome : Outcome α} {middle : List UInt8}
    {parsed : Option (α × List UInt8)} (moved : Moved stream next middle)
    (agrees : Agrees next outcome parsed) : Agrees stream outcome parsed := by
  rcases parsed with _ | ⟨value, rest⟩
  · exact agrees
  · rcases agrees with ⟨last, returned, further⟩
    exact ⟨last, returned, moved.trans further⟩

theorem Reads.pure {depth : ℕ} (value : α) : Reads depth (pure value) (pure value) :=
  fun stream coherent _ => ⟨stream, rfl, .refl coherent⟩

theorem Reads.fail {depth : ℕ} : Reads depth (fail : Reader α) refuse :=
  fun stream coherent _ => ⟨stream, rfl, coherent.releasable⟩

/-- A call is made, and what is called after it goes on from its stream. -/
theorem bind_apply (read : Reader α) (more : α → Reader β) :
    (read >>= more) stream =
      match read stream with
      | .returned value next => more value next
      | .failed next => .failed next
      | .undefined => .undefined :=
  rfl

theorem reader_id_map (read : Reader α) : id <$> read = read := by
  funext stream
  change (read >>= pure) stream = _
  rw [bind_apply]
  cases read stream <;> rfl

theorem reader_bind_assoc {γ : Type} (read : Reader α) (more : α → Reader β)
    (last : β → Reader γ) : read >>= more >>= last = read >>= fun value => more value >>= last := by
  funext stream
  rw [bind_apply, bind_apply, bind_apply]
  cases read stream <;> rfl

instance : LawfulMonad Reader :=
  .mk' Reader reader_id_map (fun _ _ => rfl) reader_bind_assoc

theorem bind_of_returned {read : Reader α} {more : α → Reader β} {value : α}
    (returned : read stream = .returned value next) : (read >>= more) stream = more value next := by
  rw [bind_apply, returned]

theorem bind_of_failed {read : Reader α} {more : α → Reader β}
    (failed : read stream = .failed next) : (read >>= more) stream = .failed next := by
  rw [bind_apply, failed]

/-- A call and what is called after it. -/
theorem Agrees.bind {read : Reader α} {parse : Parser α} {more : α → Reader β}
    {parseMore : α → Parser β} {bytes : List UInt8}
    (first : Agrees stream (read stream) (parse bytes))
    (second : ∀ value next rest, Moved stream next rest →
      Agrees next (more value next) (parseMore value rest)) :
    Agrees stream ((read >>= more) stream) ((parse >>= parseMore) bytes) := by
  rcases parsed : parse bytes with _ | ⟨value, rest⟩
  · rw [parsed] at first
    rcases first with ⟨next, failed, releasable⟩
    rw [Wire.bind_of_none parsed]
    exact ⟨next, bind_of_failed failed, releasable⟩
  · rw [parsed] at first
    rcases first with ⟨next, returned, moved⟩
    rw [Wire.bind_of_some parsed, bind_of_returned returned]
    exact (second value next rest moved).of_moved moved

theorem Reads.bind {depth : ℕ} {read : Reader α} {parse : Parser α} {more : α → Reader β}
    {parseMore : α → Parser β} (first : Reads depth read parse)
    (second : ∀ value, Reads depth (more value) (parseMore value)) :
    Reads depth (read >>= more) (parse >>= parseMore) := by
  intro stream coherent budget
  refine Agrees.bind (first stream coherent budget) ?_
  intro value next rest moved
  have budget_next : next.recursionDepth + depth = next.recursionLimit := by
    rw [moved.recursionDepth_eq, moved.recursionLimit_eq]
    exact budget
  have further := second value next moved.coherent budget_next
  rwa [moved.visible_eq] at further

/-! ## Bytes -/

theorem take_eq_some {size : ℕ} {bytes : List UInt8} (le : size ≤ bytes.length) :
    take size bytes = some (bytes.take size, bytes.drop size) :=
  if_pos le

theorem take_eq_none {size : ℕ} {bytes : List UInt8} (lt : bytes.length < size) :
    take size bytes = none :=
  if_neg (Nat.not_le.mpr lt)

/-- All bytes are in the buffer. -/
theorem Coherent.agrees_inBuffer (coherent : stream.Coherent) {size : ℕ}
    (le : size ≤ stream.bufferSize) :
    Agrees stream (.returned (stream.buffer.take size) (stream.advance size))
      (take size stream.visible) := by
  rw [take_eq_some (le.trans coherent.bufferSize_le)]
  exact ⟨_, by rw [coherent.take_buffer le], coherent.advance le⟩

/-- Raw bytes are read across the blocks of the stream. -/
theorem readRaw_refresh {size : ℕ} (lt : stream.bufferSize < size)
    (refreshed : (stream.advance stream.bufferSize).refresh = (true, next)) :
    stream.readRaw size =
      match next.readRaw (size - stream.bufferSize) with
      | .returned bytes last => .returned (stream.buffer ++ bytes) last
      | .failed last => .failed last
      | .undefined => .undefined := by
  rw [readRaw, if_pos lt]
  split
  · rename_i found eq
    obtain rfl : found = next := (Prod.mk.inj (eq.symm.trans refreshed)).2
    rfl
  · rename_i eq
    cases eq.symm.trans refreshed

theorem readRaw_failed {size : ℕ} (lt : stream.bufferSize < size)
    (refreshed : (stream.advance stream.bufferSize).refresh = (false, next)) :
    stream.readRaw size = .failed next := by
  rw [readRaw, if_pos lt]
  split
  · rename_i eq
    cases eq.symm.trans refreshed
  · rename_i found eq
    obtain rfl : found = next := (Prod.mk.inj (eq.symm.trans refreshed)).2
    rfl

/-- Bytes that are spread over several blocks. -/
theorem Coherent.readRaw (coherent : stream.Coherent) (size : ℕ) :
    Agrees stream (stream.readRaw size) (take size stream.visible) := by
  induction left_eq : stream.input.data.length - stream.input.position using
    Nat.strong_induction_on generalizing stream size with
  | h left ih =>
      by_cases enough : size ≤ stream.bufferSize
      · rw [CodedInputStream.readRaw, if_neg (by omega)]
        exact coherent.agrees_inBuffer enough
      · have lt : stream.bufferSize < size := by omega
        have moved := coherent.advance (le_refl stream.bufferSize)
        have emptied : (stream.advance stream.bufferSize).buffer = [] :=
          List.drop_eq_nil_of_le le_rfl
        have rest_length : (stream.visible.drop stream.bufferSize).length =
            stream.visible.length - stream.bufferSize := List.length_drop
        rcases moved.coherent.refresh emptied with
          ⟨nothing, last, refreshed, _, at_end⟩ | ⟨last, refreshed, _, further⟩
        · rw [moved.visible_eq] at nothing
          rw [nothing, List.length_nil] at rest_length
          rw [readRaw_failed lt refreshed, take_eq_none (by omega)]
          exact ⟨last, rfl, at_end.coherent.releasable⟩
        · have decreases := refresh_decreases refreshed
          have smaller : last.input.data.length - last.input.position < left := by
            rw [← left_eq]
            exact decreases
          have agrees := ih _ smaller further.coherent (size - stream.bufferSize) rfl
          rw [further.visible_eq, moved.visible_eq] at agrees
          rw [readRaw_refresh lt refreshed]
          by_cases short : stream.visible.length < size
          · rw [take_eq_none (by omega)] at agrees
            rcases agrees with ⟨final, failed, releasable⟩
            rw [take_eq_none short]
            exact ⟨final, by rw [failed], releasable⟩
          · rw [take_eq_some (by omega)] at agrees
            rcases agrees with ⟨final, returned, rest_moved⟩
            have count : size = stream.bufferSize + (size - stream.bufferSize) := by omega
            have front := coherent.take_buffer (le_refl stream.bufferSize)
            rw [bufferSize, List.take_length] at front
            have bytes_eq : stream.buffer ++
                (stream.visible.drop stream.bufferSize).take (size - stream.bufferSize) =
                  stream.visible.take size := by
              conv_rhs => rw [count, List.take_add]
              rw [bufferSize, front]
            rw [List.drop_drop, ← count] at rest_moved
            rw [take_eq_some (by omega)]
            refine ⟨final, ?_, moved.trans (further.trans rest_moved)⟩
            simp only [returned, bytes_eq]

theorem reads_readFixed (depth size : ℕ) : Reads depth (readFixed size) (take size) := by
  intro stream coherent _
  by_cases enough : size ≤ stream.bufferSize
  · rw [readFixed, if_pos enough]
    exact coherent.agrees_inBuffer enough
  · rw [readFixed, if_neg enough]
    exact coherent.readRaw size

theorem reads_readLittleEndian32 (depth : ℕ) : Reads depth readLittleEndian32 fixed32 :=
  (reads_readFixed depth 4).bind fun _ => .pure _

theorem reads_readLittleEndian64 (depth : ℕ) : Reads depth readLittleEndian64 fixed64 :=
  (reads_readFixed depth 8).bind fun _ => .pure _

theorem toInt_toInt32 (length : UInt32) :
    length.toInt32.toInt = Int.bmod length.toNat (2 ^ 32) := by
  rw [← Int32.toInt_toBitVec]
  simp [BitVec.toInt_eq_toNat_bmod]

theorem toInt_of_lt {length : UInt32} (lt : length.toNat < 2 ^ 31) :
    length.toInt32.toInt = length.toNat := by
  rw [toInt_toInt32]
  apply Int.bmod_eq_of_le_mul_two <;> omega

theorem toInt_neg {length : UInt32} (le : 2 ^ 31 ≤ length.toNat) : length.toInt32.toInt < 0 := by
  have length_lt := length.toNat_lt
  have wrapped : Int.bmod length.toNat (2 ^ 32) = length.toNat - 2 ^ 32 := by
    rw [← Int.sub_bmod_right]
    apply Int.bmod_eq_of_le_mul_two <;> omega
  rw [toInt_toInt32, wrapped]
  omega

theorem Coherent.visible_lt (coherent : stream.Coherent) : stream.visible.length < 2 ^ 31 := by
  have length_eq := coherent.visible_length
  have short := coherent.short
  have limit_le := coherent.limit_le
  rw [intMax] at limit_le
  omega

theorem reads_readString (depth : ℕ) (length : UInt32) :
    Reads depth (readString length.toInt32.toInt) (take length.toNat) := by
  intro stream coherent _
  have visible_lt := coherent.visible_lt
  by_cases negative : 2 ^ 31 ≤ length.toNat
  · rw [readString, if_pos (toInt_neg negative), take_eq_none (by omega)]
    exact ⟨stream, rfl, coherent.releasable⟩
  · rw [readString, toInt_of_lt (by omega), if_neg (by omega), Int.toNat_natCast]
    by_cases enough : length.toNat ≤ stream.bufferSize
    · rw [if_pos (by omega)]
      exact coherent.agrees_inBuffer enough
    · rw [if_neg (by omega)]
      exact coherent.readRaw length.toNat

/-- The stream after bytes behind the buffer have been skipped. -/
def skipped (stream : CodedInputStream) (count : ℕ) : CodedInputStream :=
  { stream with
    buffer := []
    totalBytesRead := stream.totalBytesRead + count
    input :=
      { stream.input with
        lastReturnedSize := 0
        position := stream.input.position + count } }

theorem Coherent.skipped (coherent : stream.Coherent) (none_after : stream.afterLimit = [])
    {count : ℕ} (in_limit : stream.totalBytesRead + count ≤ stream.currentLimit)
    (in_data : stream.input.position + count ≤ stream.input.data.length) :
    Moved stream (skipped stream count) (stream.visible.drop (stream.bufferSize + count)) := by
  have position_add := coherent.position_add
  have read_eq := coherent.read_eq
  have none_held : (CodedInputStream.skipped stream count).bufferSize +
      stream.afterLimit.length = 0 := by
    rw [none_after]
    rfl
  have position_eq : (CodedInputStream.skipped stream count).currentPosition =
      stream.totalBytesRead + count := by
    rw [currentPosition]
    exact congrArg (stream.totalBytesRead + count - ·) none_held
  have held_eq : [] ++ stream.afterLimit =
      (stream.input.data.drop (CodedInputStream.skipped stream count).currentPosition).take
        (stream.totalBytesRead + count -
          (CodedInputStream.skipped stream count).currentPosition) := by
    rw [position_eq, Nat.sub_self, List.take_zero, none_after]
    rfl
  have after_eq : stream.afterLimit.length =
      stream.totalBytesRead + count - stream.currentLimit := by
    rw [none_after, List.length_nil]
    omega
  have next_coherent : (CodedInputStream.skipped stream count).Coherent :=
    ⟨⟨coherent.overflow_eq, congrArg (· + count) read_eq, in_data, coherent.short,
      coherent.limit_le, none_held ▸ Nat.zero_le _, held_eq, position_eq ▸ in_limit,
      Or.inl none_held⟩, after_eq⟩
  have alike : Alike stream (CodedInputStream.skipped stream count) :=
    ⟨rfl, rfl, rfl, rfl, rfl, rfl⟩
  rw [none_after, List.length_nil] at position_add
  have further : (CodedInputStream.skipped stream count).currentPosition =
      stream.currentPosition + (stream.bufferSize + count) := by omega
  exact moved_of_position next_coherent alike further

/-- Skipping agrees with taking the bytes and forgetting them. -/
theorem reads_skip (depth : ℕ) (length : UInt32) :
    Reads depth (skip length.toInt32.toInt) (do let _ ← take length.toNat; pure ()) := by
  intro stream coherent _
  have visible_lt := coherent.visible_lt
  have visible_length := coherent.visible_length
  have position_add := coherent.position_add
  have afterLimit_eq := coherent.afterLimit_eq
  have read_eq := coherent.read_eq
  have read_le := coherent.read_le
  have short := coherent.short
  have refused (lt : stream.visible.length < length.toNat) :
      (do let _ ← take length.toNat; pure () : Parser Unit) stream.visible = none := by
    change ((take length.toNat stream.visible).bind _) = none
    rw [take_eq_none lt]
    rfl
  have taken (le : length.toNat ≤ stream.visible.length) :
      (do let _ ← take length.toNat; pure () : Parser Unit) stream.visible =
        some ((), stream.visible.drop length.toNat) := by
    change ((take length.toNat stream.visible).bind _) = _
    rw [take_eq_some le]
    rfl
  by_cases negative : 2 ^ 31 ≤ length.toNat
  · rw [skip, if_pos (toInt_neg negative), refused (by omega)]
    exact ⟨stream, rfl, coherent.releasable⟩
  · rw [skip, toInt_of_lt (by omega), if_neg (by omega), Int.toNat_natCast]
    by_cases enough : length.toNat ≤ stream.bufferSize
    · rw [if_pos (by omega), taken (enough.trans coherent.bufferSize_le)]
      exact ⟨_, rfl, coherent.advance enough⟩
    · rw [if_neg (by omega)]
      by_cases limited : 0 < stream.afterLimit.length
      · rw [if_pos limited, refused (by omega)]
        exact ⟨_, rfl, (coherent.advance le_rfl).coherent.releasable⟩
      · have none_after : stream.afterLimit = [] := List.length_eq_zero_iff.mp (by omega)
        have emptied (next : CodedInputStream) (overflow : next.overflowBytes = 0)
            (buffer : next.buffer = []) (after : next.afterLimit = []) : next.Releasable :=
          ⟨overflow, Or.inl (by rw [bufferSize, buffer, after]; rfl)⟩
        rw [if_neg limited]
        by_cases beyond : min stream.currentLimit stream.totalBytesLimit -
            stream.totalBytesRead < length.toNat - stream.bufferSize
        · rw [refused (by omega), if_pos beyond]
          split
          · exact ⟨_, rfl, emptied _ coherent.overflow_eq rfl none_after⟩
          · exact ⟨_, rfl, emptied _ coherent.overflow_eq rfl none_after⟩
        · simp only [if_neg beyond, ArrayInputStream.skip]
          by_cases past : stream.input.data.length - stream.input.position <
              length.toNat - stream.bufferSize
          · simp only [refused (by omega), if_pos past, Bool.false_eq_true, if_false]
            exact ⟨_, rfl, emptied _ coherent.overflow_eq rfl none_after⟩
          · have moved := coherent.skipped none_after
              (show stream.totalBytesRead + (length.toNat - stream.bufferSize) ≤ _ by omega)
              (by omega)
            rw [Nat.add_sub_of_le (by omega)] at moved
            simp only [taken (by omega), if_neg past, if_true]
            exact ⟨_, rfl, moved⟩

/-! ## Varints -/

theorem varint32_eq (bytes : List UInt8) :
    varint32 bytes =
      (Varint.decode kMaxVarintBytes bytes).map
        fun (number, rest) => (UInt32.ofNat number, rest) := by
  change (Varint.decode kMaxVarintBytes bytes).bind _ = _
  cases Varint.decode kMaxVarintBytes bytes <;> rfl

theorem varint64_eq (bytes : List UInt8) :
    varint64 bytes =
      (Varint.decode kMaxVarintBytes bytes).map
        fun (number, rest) => (UInt64.ofNat number, rest) := by
  change (Varint.decode kMaxVarintBytes bytes).bind _ = _
  cases Varint.decode kMaxVarintBytes bytes <;> rfl

theorem decides_of_varintInBuffer (inBuffer : stream.varintInBuffer = true) :
    Varint.Decides kMaxVarintBytes stream.buffer := by
  rw [varintInBuffer, Bool.or_eq_true, decide_eq_true_eq] at inBuffer
  rcases inBuffer with long | ended
  · exact Or.inl long
  · right
    rcases last_eq : stream.buffer.getLast? with _ | last
    · simp [last_eq] at ended
    · simp only [last_eq, decide_eq_true_eq] at ended
      refine ⟨last, List.mem_of_getLast? last_eq, ?_⟩
      rw [← Varint.and_128_eq_zero_iff last.toNat_lt]
      exact congrArg UInt8.toNat ended

/-- The fast path agrees with the parser on all that is visible. -/
theorem Coherent.fromArray (coherent : stream.Coherent) (inBuffer : stream.varintInBuffer = true)
    {value : ℕ → α} {code : FromArray α}
    (matched : FromArray.Matches kMaxVarintBytes value stream.buffer code) :
    (∃ (number : α) (ptr : List UInt8), code = .done number ptr ∧
      Agrees stream (.returned number { stream with buffer := ptr })
        ((Varint.decode kMaxVarintBytes stream.visible).map
          fun (number, rest) => (value number, rest))) ∨
    (code = .corrupt ∧ stream.buffer ≠ [] ∧
      Varint.decode kMaxVarintBytes stream.visible = none) := by
  have decides := decides_of_varintInBuffer inBuffer
  have code_eq := matched decides
  rcases decoded : Varint.decode kMaxVarintBytes stream.buffer with _ | ⟨number, ptr⟩
  · right
    refine ⟨by rw [code_eq, decoded], ?_, ?_⟩
    · rintro empty
      rcases decides with long | ⟨_, mem, _⟩ <;> simp [empty, kMaxVarintBytes] at *
    · rw [coherent.visible_eq]
      exact Varint.decode_append_none decides decoded _
  · left
    rcases Varint.exists_consumed decoded with ⟨consumed, buffer_eq, _⟩
    have size_le : consumed.length ≤ stream.bufferSize := by
      rw [bufferSize, buffer_eq, List.length_append]
      omega
    have ptr_eq : { stream with buffer := ptr } = stream.advance consumed.length := by
      rw [CodedInputStream.advance]
      congr 1
      rw [buffer_eq, List.drop_left]
    have moved := coherent.advance size_le
    refine ⟨value number, ptr, by rw [code_eq, decoded], ?_⟩
    rw [ptr_eq]
    have behind := Varint.decode_append decoded
      ((stream.input.data.drop stream.totalBytesRead).take
        (stream.currentLimit - stream.totalBytesRead))
    rw [← coherent.visible_eq] at behind
    rw [behind, Option.map_some]
    refine ⟨_, rfl, ?_⟩
    have rest_eq : stream.visible.drop consumed.length =
        ptr ++ (stream.input.data.drop stream.totalBytesRead).take
          (stream.currentLimit - stream.totalBytesRead) := by
      rw [coherent.visible_eq, buffer_eq, List.append_assoc, List.drop_left]
    rwa [rest_eq] at moved

/-- Filling an empty buffer finds more of what is visible, unless nothing is. -/
theorem Coherent.fillBuffer (coherent : stream.Coherent) :
    (stream.visible = [] ∧ ∃ next, stream.fillBuffer = (false, next) ∧ next.Releasable) ∨
    (∃ next, stream.fillBuffer = (true, next) ∧ next.buffer ≠ [] ∧
      Moved stream next stream.visible) := by
  have filled {next : CodedInputStream} (nonempty : next.buffer ≠ []) :
      next.fillBuffer = (true, next) := by
    rw [CodedInputStream.fillBuffer, if_neg nonempty]
  by_cases empty : stream.buffer = []
  · rw [CodedInputStream.fillBuffer, if_pos empty]
    rcases coherent.refresh empty with
      ⟨nothing, next, refreshed, _, moved⟩ | ⟨next, refreshed, nonempty, moved⟩
    · left
      refine ⟨nothing, next, ?_, moved.coherent.releasable⟩
      split
      · rename_i eq
        cases eq.symm.trans refreshed
      · rename_i found eq
        obtain rfl : found = next := (Prod.mk.inj (eq.symm.trans refreshed)).2
        rfl
    · right
      refine ⟨next, ?_, nonempty, moved⟩
      split
      · rename_i found eq
        obtain rfl : found = next := (Prod.mk.inj (eq.symm.trans refreshed)).2
        exact filled nonempty
      · rename_i eq
        cases eq.symm.trans refreshed
  · exact Or.inr ⟨stream, filled empty, empty, .refl coherent⟩

/-- One more digit of the slow path; the tenth one keeps one bit. -/
theorem toNat_or_digit64 {result : UInt64} {count : ℕ} (le : count ≤ 9)
    (inside : result.toNat < 2 ^ (7 * count)) (byte : UInt8) :
    (result ||| (byte.toUInt32 &&& 0x7F).toUInt64 <<< UInt64.ofNat (7 * count)).toNat =
      result.toNat + byte.toNat % 128 % 2 ^ (64 - 7 * count) * 2 ^ (7 * count) := by
  have shift_eq : (UInt64.ofNat (7 * count)).toNat % 64 = 7 * count := by
    rw [UInt64.toNat_ofNat']
    omega
  have power : 2 ^ 64 = 2 ^ (64 - 7 * count) * 2 ^ (7 * count) := by
    rw [← pow_add, Nat.sub_add_cancel (by omega)]
  have shifted : (byte.toNat % 128) <<< (7 * count) % 2 ^ 64 =
      (byte.toNat % 128 % 2 ^ (64 - 7 * count)) <<< (7 * count) := by
    rw [Nat.shiftLeft_eq, Nat.shiftLeft_eq, power, Nat.mul_mod_mul_right]
  rw [UInt64.toNat_or, UInt64.toNat_shiftLeft, UInt32.toNat_toUInt64, toNat_digit, shift_eq,
    shifted, Varint.or_shiftLeft inside]

theorem ofNat_or_digit64 {result : UInt64} {count : ℕ} (le : count ≤ 9)
    (inside : result.toNat < 2 ^ (7 * count)) (byte : UInt8) :
    result ||| (byte.toUInt32 &&& 0x7F).toUInt64 <<< UInt64.ofNat (7 * count) =
      UInt64.ofNat (result.toNat + byte.toNat % 128 * 2 ^ (7 * count)) := by
  have power : 2 ^ 64 = 2 ^ (64 - 7 * count) * 2 ^ (7 * count) := by
    rw [← pow_add, Nat.sub_add_cancel (by omega)]
  have shifted : byte.toNat % 128 * 2 ^ (7 * count) % 2 ^ 64 =
      byte.toNat % 128 % 2 ^ (64 - 7 * count) * 2 ^ (7 * count) := by
    rw [power, Nat.mul_mod_mul_right]
  have sum_eq := toNat_or_digit64 le inside byte
  have sum_lt := (result ||| (byte.toUInt32 &&& 0x7F).toUInt64 <<<
    UInt64.ofNat (7 * count)).toNat_lt
  apply UInt64.toNat_inj.mp
  rw [sum_eq, ← shifted] at sum_lt ⊢
  rw [UInt64.toNat_ofNat', ← Nat.add_mod_mod, Nat.mod_eq_of_lt sum_lt]

/-- The loop of the slow path, with `result` for the digits that have been read. -/
theorem Coherent.readVarint64SlowLoop (coherent : stream.Coherent) {result : UInt64} {left : ℕ}
    (le : left ≤ kMaxVarintBytes) (inside : result.toNat < 2 ^ (7 * (kMaxVarintBytes - left))) :
    Agrees stream (readVarint64SlowLoop result left stream)
      ((Varint.decode left stream.visible).map fun (number, rest) =>
        (UInt64.ofNat (result.toNat + number * 2 ^ (7 * (kMaxVarintBytes - left))), rest)) := by
  induction left generalizing stream result with
  | zero => exact ⟨stream, rfl, coherent.releasable⟩
  | succ left ih =>
      have count_le : kMaxVarintBytes - (left + 1) ≤ 9 := by
        rw [kMaxVarintBytes]
        omega
      generalize count_eq : kMaxVarintBytes - (left + 1) = count at inside count_le ⊢
      rcases coherent.fillBuffer with
        ⟨nothing, next, fill_eq, releasable⟩ | ⟨next, fill_eq, nonempty, moved⟩
      · rw [nothing, Varint.decode_nil]
        exact ⟨next, by simp only [CodedInputStream.readVarint64SlowLoop, fill_eq], releasable⟩
      · rcases List.exists_cons_of_ne_nil nonempty with ⟨byte, tail, buffer_eq⟩
        have visible_eq : stream.visible = byte :: (next.visible.drop 1) := by
          have front := moved.coherent.visible_eq
          rw [buffer_eq, List.cons_append] at front
          rw [← moved.visible_eq, front, List.drop_one, List.tail_cons]
        have size_pos : 1 ≤ next.bufferSize := by
          rw [bufferSize, buffer_eq, List.length_cons]
          omega
        have advanced := moved.trans (moved.coherent.advance size_pos)
        have bit : byte.toUInt32 &&& 0x80 = 0 ↔ byte.toNat < 128 := by
          rw [← Varint.and_128_eq_zero_iff byte.toNat_lt, ← UInt32.toNat_inj, UInt32.toNat_and]
          rfl
        simp only [CodedInputStream.readVarint64SlowLoop, fill_eq, buffer_eq, List.headD_cons,
          count_eq]
        by_cases small : byte.toNat < 128
        · rw [if_pos (bit.mpr small), visible_eq, Varint.decode_last small, Option.map_some,
            ofNat_or_digit64 count_le inside, Nat.mod_eq_of_lt small]
          exact ⟨_, rfl, advanced⟩
        · rw [if_neg (small ∘ bit.mp), visible_eq, Varint.decode_more small]
          cases left with
          | zero => exact ⟨_, rfl, advanced.coherent.releasable⟩
          | succ left =>
              have most : kMaxVarintBytes = 10 := rfl
              have next_count : kMaxVarintBytes - (left + 1) = count + 1 := by omega
              have digit_eq : byte.toNat % 128 = byte.toNat - 128 := by
                have byte_lt := byte.toNat_lt
                omega
              have digit_fits : byte.toNat - 128 < 2 ^ (64 - 7 * count) :=
                (show byte.toNat - 128 < 2 ^ 8 by have := byte.toNat_lt; omega).trans_le
                  (Nat.pow_le_pow_right (by decide) (by omega))
              have sum_eq := toNat_or_digit64 count_le inside byte
              rw [digit_eq, Nat.mod_eq_of_lt digit_fits] at sum_eq
              have power : 2 ^ (7 * (count + 1)) = 128 * 2 ^ (7 * count) := by
                rw [Nat.mul_add, pow_add, Nat.mul_comm]
                rfl
              have digit_le := Nat.mul_le_mul_right (2 ^ (7 * count))
                (show byte.toNat - 128 ≤ 127 by have := byte.toNat_lt; omega)
              have sum_lt : result.toNat + (byte.toNat - 128) * 2 ^ (7 * count) <
                  2 ^ (7 * (count + 1)) := by
                have bound := Nat.add_lt_add_of_lt_of_le inside digit_le
                rw [power]
                exact bound.trans_eq (by ring)
              rw [← sum_eq, ← next_count] at sum_lt
              have agrees := ih (moved.coherent.advance size_pos).coherent (by omega) sum_lt
              rw [(moved.coherent.advance size_pos).visible_eq, next_count, sum_eq] at agrees
              rw [Option.map_map]
              have values (number : ℕ) :
                  result.toNat + (byte.toNat - 128 + 128 * number) * 2 ^ (7 * count) =
                    result.toNat + (byte.toNat - 128) * 2 ^ (7 * count) +
                      number * 2 ^ (7 * (count + 1)) := by
                rw [power]
                ring
              refine Agrees.of_moved (moved.trans (moved.coherent.advance size_pos)) ?_
              simpa only [Function.comp_def, values] using agrees

theorem reads_readVarint64Slow (depth : ℕ) : Reads depth readVarint64Slow varint64 := by
  intro stream coherent _
  have agrees := coherent.readVarint64SlowLoop le_rfl
    (show (0 : UInt64).toNat < 2 ^ (7 * (kMaxVarintBytes - kMaxVarintBytes)) by decide)
  rw [varint64_eq]
  simp only [UInt64.toNat_zero, Nat.zero_add, Nat.sub_self, Nat.mul_zero, pow_zero,
    Nat.mul_one] at agrees
  exact agrees

theorem reads_readVarint64Fallback (depth : ℕ) : Reads depth readVarint64Fallback varint64 := by
  intro stream coherent budget
  rw [readVarint64Fallback]
  split
  · rename_i inBuffer
    rw [varint64_eq]
    rcases coherent.fromArray inBuffer (matches_readVarint64FromArray stream.buffer) with
      ⟨number, ptr, code_eq, agrees⟩ | ⟨code_eq, _, refused⟩
    · rw [code_eq]
      exact agrees
    · rw [code_eq, refused]
      exact ⟨stream, rfl, coherent.releasable⟩
  · exact reads_readVarint64Slow depth stream coherent budget

/-- A number of one byte at the front of the buffer. -/
theorem Coherent.oneByte (coherent : stream.Coherent) {byte : UInt8} {tail : List UInt8}
    (buffer_eq : stream.buffer = byte :: tail) (small : byte < 0x80) (value : ℕ → α) :
    Agrees stream (.returned (value byte.toNat) (stream.advance 1))
      ((Varint.decode kMaxVarintBytes stream.visible).map
        fun (number, rest) => (value number, rest)) := by
  have size_pos : 1 ≤ stream.bufferSize := by
    rw [bufferSize, buffer_eq, List.length_cons]
    omega
  have moved := coherent.advance size_pos
  have visible_eq : stream.visible = byte :: stream.visible.drop 1 := by
    rw [coherent.visible_eq, buffer_eq]
    rfl
  have decoded : Varint.decode kMaxVarintBytes stream.visible =
      some (byte.toNat, stream.visible.drop 1) := by
    conv_lhs => rw [visible_eq]
    exact Varint.decode_last small
  rw [decoded]
  exact ⟨_, rfl, moved⟩

/-- A varint is read wherever the blocks end. -/
theorem reads_readVarint64 (depth : ℕ) : Reads depth readVarint64 varint64 := by
  intro stream coherent budget
  have fallback := reads_readVarint64Fallback depth stream coherent budget
  rw [readVarint64]
  split
  · rename_i byte tail buffer_eq
    split
    · rename_i small
      have same : byte.toUInt64 = UInt64.ofNat byte.toNat := by
        apply UInt64.toNat_inj.mp
        rw [UInt8.toNat_toUInt64, UInt64.toNat_ofNat_of_lt' (byte.toNat_lt.trans (by decide))]
      rw [varint64_eq, same]
      exact coherent.oneByte buffer_eq small UInt64.ofNat
    · exact fallback
  · exact fallback

theorem reads_readVarint32Slow (depth : ℕ) : Reads depth readVarint32Slow varint32 := by
  have reads : Reads depth readVarint32Slow
      (varint64 >>= fun result => Pure.pure result.toUInt32) :=
    (reads_readVarint64Fallback depth).bind fun result => .pure result.toUInt32
  intro stream coherent budget
  have agrees := reads stream coherent budget
  have truncated : (varint64 >>= fun result => Pure.pure result.toUInt32 : Parser UInt32)
      stream.visible = varint32 stream.visible := by
    rw [varint32_eq]
    change (varint64 stream.visible).bind _ = _
    rw [varint64_eq]
    rcases Varint.decode kMaxVarintBytes stream.visible with _ | ⟨number, rest⟩
    · rfl
    · have same : (UInt64.ofNat number).toUInt32 = UInt32.ofNat number := by
        apply UInt32.toNat_inj.mp
        rw [UInt64.toNat_toUInt32, UInt64.toNat_ofNat', UInt32.toNat_ofNat']
        omega
      exact congrArg (fun value => some (value, rest)) same
  rwa [truncated] at agrees

theorem reads_readVarint32Fallback (depth : ℕ) : Reads depth readVarint32Fallback varint32 := by
  intro stream coherent budget
  rw [readVarint32Fallback]
  split
  · rename_i inBuffer
    rw [varint32_eq]
    rcases coherent.fromArray inBuffer (matches_readVarint32FromArray stream.buffer) with
      ⟨number, ptr, code_eq, agrees⟩ | ⟨code_eq, _, refused⟩
    · rw [code_eq]
      exact agrees
    · rw [code_eq, refused]
      exact ⟨stream, rfl, coherent.releasable⟩
  · exact reads_readVarint32Slow depth stream coherent budget

/-- A varint is cut to its low word. -/
theorem reads_readVarint32 (depth : ℕ) : Reads depth readVarint32 varint32 := by
  intro stream coherent budget
  have fallback := reads_readVarint32Fallback depth stream coherent budget
  rw [readVarint32]
  split
  · rename_i byte tail buffer_eq
    split
    · rename_i small
      have same : byte.toUInt32 = UInt32.ofNat byte.toNat := by
        apply UInt32.toNat_inj.mp
        rw [UInt8.toNat_toUInt32, UInt32.toNat_ofNat_of_lt' (byte.toNat_lt.trans (by decide))]
      rw [varint32_eq, same]
      exact coherent.oneByte buffer_eq small UInt32.ofNat
    · exact fallback
  · exact fallback

end Gsp.Protobuf.CodedInputStream
