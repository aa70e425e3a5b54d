import Gsp.Protobuf.Primitives

/-!
# Tags, limits and skipped fields

A tag that cannot be read leaves the message end as it is, the end of the visible
bytes marks it. A limit cuts the visible bytes off, and taking it back shows the
bytes behind it. Skipping a field agrees with the parser for every depth that the
stream may still recurse.
-/

namespace Gsp.Protobuf.CodedInputStream

open Wire WireFormatLite

variable {α : Type} {stream next : CodedInputStream}

/-! ## Failed reads of a varint -/

theorem recomputeBufferLimits_alike (stream : CodedInputStream) :
    Alike stream stream.recomputeBufferLimits := by
  rw [recomputeBufferLimits]
  simp only
  split <;> exact ⟨rfl, rfl, rfl, rfl, rfl, rfl⟩

/-- A refreshed buffer keeps the limits of the stream. -/
theorem refresh_alike (stream : CodedInputStream) : Alike stream stream.refresh.2 := by
  have data_eq : stream.input.next.2.data = stream.input.data := by
    rw [ArrayInputStream.next]
    split <;> rfl
  rw [refresh]
  split
  · exact .refl stream
  · rcases next_eq : stream.input.next with ⟨_ | block, input⟩
    · rw [next_eq] at data_eq
      exact ⟨data_eq, rfl, rfl, rfl, rfl, rfl⟩
    · rw [next_eq] at data_eq
      have recomputed {filled : CodedInputStream} (alike : Alike stream filled) :
          Alike stream filled.recomputeBufferLimits :=
        alike.trans (recomputeBufferLimits_alike filled)
      simp only
      split
      · exact recomputed ⟨data_eq, rfl, rfl, rfl, rfl, rfl⟩
      · exact recomputed ⟨data_eq, rfl, rfl, rfl, rfl, rfl⟩

theorem fillBuffer_alike (stream : CodedInputStream) : Alike stream stream.fillBuffer.2 := by
  fun_induction fillBuffer stream with
  | case1 stream empty next refreshed ih =>
      have alike := refresh_alike stream
      rw [refreshed] at alike
      exact alike.trans ih
  | case2 stream empty next refreshed =>
      have alike := refresh_alike stream
      rwa [refreshed] at alike
  | case3 stream filled => exact .refl stream

theorem alike_of_slowLoop {result : UInt64} {left : ℕ}
    (failed : readVarint64SlowLoop result left stream = .failed next) : Alike stream next := by
  induction left generalizing stream result with
  | zero =>
      cases failed
      exact .refl _
  | succ left ih =>
      have alike := fillBuffer_alike stream
      rcases fill_eq : stream.fillBuffer with ⟨_ | _, filled⟩
      · rw [fill_eq] at alike
        simp only [readVarint64SlowLoop, fill_eq, Outcome.failed.injEq] at failed
        exact failed ▸ alike
      · rw [fill_eq] at alike
        simp only [readVarint64SlowLoop, fill_eq] at failed
        split at failed
        · cases failed
        · have advanced : Alike filled (filled.advance 1) := ⟨rfl, rfl, rfl, rfl, rfl, rfl⟩
          exact alike.trans (advanced.trans (ih failed))

theorem alike_of_readVarint64 (failed : readVarint64 stream = .failed next) :
    Alike stream next := by
  have fallback (failed : readVarint64Fallback stream = .failed next) : Alike stream next := by
    rw [readVarint64Fallback] at failed
    split at failed
    · split at failed
      · cases failed
      · cases failed
        exact .refl stream
      · cases failed
    · exact alike_of_slowLoop failed
  rw [readVarint64] at failed
  split at failed
  · split at failed
    · cases failed
    · exact fallback failed
  · exact fallback failed

/-! ## Reading tags -/

/-- Coherence is about the buffer and the limits alone. -/
theorem Coherent.marked (coherent : stream.Coherent) (lastTag : UInt32) (legitimate : Bool)
    (depth : ℕ) :
    { stream with
      lastTag := lastTag
      legitimateMessageEnd := legitimate
      recursionDepth := depth }.Coherent :=
  ⟨⟨coherent.overflow_eq, coherent.read_eq, coherent.read_le, coherent.short, coherent.limit_le,
    coherent.held_le, coherent.held_eq, coherent.position_le, coherent.returned_le⟩,
    coherent.afterLimit_eq⟩

theorem Alike.tagged (alike : Alike stream next) (tag : UInt32) :
    Alike stream { next with lastTag := tag } :=
  ⟨alike.data_eq, alike.currentLimit_eq, alike.totalBytesLimit_eq, alike.recursionDepth_eq,
    alike.recursionLimit_eq, alike.legitimate_eq⟩

theorem Moved.tagged {rest : List UInt8} (moved : Moved stream next rest) (tag : UInt32) :
    Moved stream { next with lastTag := tag } rest :=
  ⟨moved.toAlike.tagged tag, moved.coherent.marked _ _ _, moved.visible_eq, moved.suffix⟩

/-- At the end of what is visible the message end becomes legitimate. -/
def atMessageEnd (stream : CodedInputStream) : CodedInputStream :=
  { stream with legitimateMessageEnd := true }

theorem Moved.atMessageEnd {rest : List UInt8} (moved : Moved stream next rest) :
    Moved stream.atMessageEnd next.atMessageEnd rest :=
  ⟨⟨moved.data_eq, moved.currentLimit_eq, moved.totalBytesLimit_eq, moved.recursionDepth_eq,
    moved.recursionLimit_eq, rfl⟩, moved.coherent.marked _ _ _, moved.visible_eq, moved.suffix⟩

/-- What is found where a field may start. -/
def Finds (stream : CodedInputStream) (outcome : Outcome UInt32) : Front → Prop
  | .atEnd => ∃ next, outcome = .returned 0 next ∧ Moved stream.atMessageEnd next []
  | .stopped => ∃ next, outcome = .returned 0 next ∧ Alike stream next ∧ next.Releasable
  | .tag tag rest => ∃ next, outcome = .returned tag next ∧ Moved stream next rest

theorem Finds.of_moved {outcome : Outcome UInt32} {front : Front}
    (moved : Moved stream next stream.visible) (finds : Finds next outcome front) :
    Finds stream outcome front := by
  cases front with
  | atEnd =>
      rcases finds with ⟨last, returned, further⟩
      exact ⟨last, returned, moved.atMessageEnd.trans further⟩
  | stopped =>
      rcases finds with ⟨last, returned, alike, releasable⟩
      exact ⟨last, returned, moved.toAlike.trans alike, releasable⟩
  | tag tag rest =>
      rcases finds with ⟨last, returned, further⟩
      exact ⟨last, returned, moved.trans further⟩

/-- A tag is a varint that is not zero. -/
theorem front_of_varint32 {bytes : List UInt8} (nonempty : bytes ≠ []) :
    front bytes =
      match varint32 bytes with
      | some (tag, rest) => if tag = 0 then .stopped else .tag tag rest
      | none => .stopped :=
  if_neg nonempty

/-- A number has been read where a tag may stand. -/
theorem finds_number {outcome : Outcome UInt32} {tag : UInt32} {rest : List UInt8}
    (nonempty : stream.visible ≠ []) (parsed : varint32 stream.visible = some (tag, rest))
    (agrees : Agrees stream outcome (some (tag, rest))) :
    Finds stream outcome (front stream.visible) := by
  rcases agrees with ⟨next, returned, moved⟩
  rw [front_of_varint32 nonempty, parsed]
  by_cases zero : tag = 0
  · simp only [zero, if_true]
    exact ⟨next, zero ▸ returned, moved.toAlike, moved.coherent.releasable⟩
  · simp only [zero, if_false]
    exact ⟨next, returned, moved⟩

theorem finds_of_agrees {number : UInt32}
    (agrees : Agrees stream (.returned number next) (varint32 stream.visible)) :
    Finds stream (.returned number next) (front stream.visible) := by
  rcases parsed : varint32 stream.visible with _ | ⟨tag, rest⟩
  · rw [parsed] at agrees
    rcases agrees with ⟨_, failed, _⟩
    cases failed
  · have nonempty : stream.visible ≠ [] := by
      intro nothing
      rw [nothing, varint32_eq, Varint.decode_nil] at parsed
      cases parsed
    rw [parsed] at agrees
    have same : number = tag := by
      rcases agrees with ⟨_, returned, _⟩
      exact (Outcome.returned.inj returned).1
    subst same
    exact finds_number nonempty parsed agrees

/-- No number can be read where a tag may stand. -/
theorem finds_nothing {outcome : Outcome UInt32} (nonempty : stream.visible ≠ [])
    (refused : varint32 stream.visible = none) (returned : outcome = .returned 0 next)
    (alike : Alike stream next) (releasable : next.Releasable) :
    Finds stream outcome (front stream.visible) := by
  rw [front_of_varint32 nonempty, refused]
  exact ⟨next, returned, alike, releasable⟩

theorem varint32_eq_varint64 (bytes : List UInt8) :
    varint32 bytes = (varint64 bytes).map fun (number, rest) => (number.toUInt32, rest) := by
  rw [varint32_eq, varint64_eq]
  rcases Varint.decode kMaxVarintBytes bytes with _ | ⟨number, rest⟩
  · rfl
  · have same : UInt32.ofNat number = (UInt64.ofNat number).toUInt32 := by
      apply UInt32.toNat_inj.mp
      rw [UInt64.toNat_toUInt32, UInt64.toNat_ofNat', UInt32.toNat_ofNat']
      omega
    exact congrArg (fun value => some (value, rest)) same

section ReadTag

variable (coherent : stream.Coherent) {depth : ℕ}
  (budget : stream.recursionDepth + depth = stream.recursionLimit)

include coherent budget

/-- A tag is found in the bytes ahead. -/
theorem Coherent.readTagVarint (nonempty : stream.visible ≠ []) :
    Finds stream (readTagVarint stream) (front stream.visible) := by
  have agrees := reads_readVarint64 depth stream coherent budget
  have parsed32 := varint32_eq_varint64 stream.visible
  rcases parsed : varint64 stream.visible with _ | ⟨number, rest⟩
  · rw [parsed] at agrees parsed32
    rcases agrees with ⟨next, failed, releasable⟩
    exact finds_nothing nonempty parsed32 (by rw [CodedInputStream.readTagVarint, failed])
      (alike_of_readVarint64 failed) releasable
  · rw [parsed] at agrees parsed32
    rcases agrees with ⟨next, returned, moved⟩
    refine finds_number nonempty parsed32 ⟨next, ?_, moved⟩
    rw [CodedInputStream.readTagVarint, returned]

/-- A tag is found in the bytes ahead, or the end of them. -/
theorem Coherent.readTagSlow : Finds stream (readTagSlow stream) (front stream.visible) := by
  rw [CodedInputStream.readTagSlow]
  by_cases empty : stream.buffer = []
  · rw [if_pos empty]
    rcases coherent.refresh empty with
      ⟨nothing, next, refreshed, _, moved⟩ | ⟨next, refreshed, nonempty, moved⟩
    · have position_le := moved.coherent.read_le
      have read_eq := moved.coherent.read_eq
      have short := moved.coherent.short
      rw [refreshed, nothing]
      simp only [if_neg (show ¬next.totalBytesLimit ≤
        next.totalBytesRead - next.afterLimit.length by omega)]
      refine ⟨_, rfl, ⟨moved.data_eq, moved.currentLimit_eq, moved.totalBytesLimit_eq,
        moved.recursionDepth_eq, moved.recursionLimit_eq, rfl⟩, moved.coherent.marked _ _ _,
        moved.visible_eq, List.nil_suffix⟩
    · have budget_next : next.recursionDepth + depth = next.recursionLimit := by
        rw [moved.recursionDepth_eq, moved.recursionLimit_eq]
        exact budget
      have visible_nonempty : next.visible ≠ [] := by
        rw [moved.coherent.visible_eq]
        exact List.append_ne_nil_of_left_ne_nil nonempty _
      have finds := moved.coherent.readTagVarint budget_next visible_nonempty
      rw [moved.visible_eq] at finds
      rw [refreshed]
      exact finds.of_moved moved
  · rw [if_neg empty]
    apply coherent.readTagVarint budget
    rw [coherent.visible_eq]
    exact List.append_ne_nil_of_left_ne_nil empty _

/-- A tag is found on the slow path as on the fast one. -/
theorem Coherent.readTagFallback :
    Finds stream (readTagFallback stream) (front stream.visible) := by
  rw [CodedInputStream.readTagFallback]
  split
  · rename_i inBuffer
    rcases coherent.fromArray inBuffer (matches_readVarint32FromArray stream.buffer) with
      ⟨number, ptr, code_eq, agrees⟩ | ⟨code_eq, nonempty, refused⟩
    · rw [← varint32_eq] at agrees
      rw [code_eq]
      exact finds_of_agrees agrees
    · have visible_nonempty : stream.visible ≠ [] := by
        rw [coherent.visible_eq]
        exact List.append_ne_nil_of_left_ne_nil nonempty _
      have refused32 : varint32 stream.visible = none := by rw [varint32_eq, refused]; rfl
      rw [code_eq]
      exact finds_nothing visible_nonempty refused32 rfl (.refl stream) coherent.releasable
  · split
    · rename_i limited
      have afterLimit_eq := coherent.afterLimit_eq
      have nothing : stream.visible = [] := by
        rw [coherent.visible_eq, limited.1, Nat.sub_eq_zero_of_le (by omega), List.take_zero]
        rfl
      rw [nothing]
      exact ⟨_, rfl, .refl stream.atMessageEnd, coherent.marked _ _ _, nothing, List.nil_suffix⟩
    · exact coherent.readTagSlow budget

/-- The tag that has been found is the last tag. -/
theorem Coherent.readTag :
    Finds stream (readTag stream) (front stream.visible) ∧
      ∃ tag next, readTag stream = .returned tag next ∧ next.lastTag = tag := by
  have tagged {outcome : Outcome UInt32} (finds : Finds stream outcome (front stream.visible)) :
      ∃ tag next, outcome = .returned tag next ∧
        Finds stream (setLastTag tag next) (front stream.visible) := by
    generalize front stream.visible = found at finds ⊢
    rcases found with _ | _ | ⟨tag, rest⟩
    · rcases finds with ⟨next, returned, moved⟩
      exact ⟨0, next, returned, _, rfl, moved.tagged 0⟩
    · rcases finds with ⟨next, returned, alike, releasable⟩
      exact ⟨0, next, returned, _, rfl, alike.tagged 0, releasable⟩
    · rcases finds with ⟨next, returned, moved⟩
      exact ⟨tag, next, returned, _, rfl, moved.tagged tag⟩
  have fallback : Finds stream ((CodedInputStream.readTagFallback >>= setLastTag) stream)
        (front stream.visible) ∧
      ∃ tag next, (CodedInputStream.readTagFallback >>= setLastTag) stream = .returned tag next ∧
        next.lastTag = tag := by
    rcases tagged (coherent.readTagFallback budget) with ⟨tag, next, returned, finds⟩
    rw [bind_of_returned returned]
    exact ⟨finds, _, _, rfl, rfl⟩
  rw [CodedInputStream.readTag]
  split
  · rename_i byte tail buffer_eq
    split
    · rename_i small
      have same : byte.toUInt32 = UInt32.ofNat byte.toNat := by
        apply UInt32.toNat_inj.mp
        rw [UInt8.toNat_toUInt32, UInt32.toNat_ofNat_of_lt' (byte.toNat_lt.trans (by decide))]
      have agrees := coherent.oneByte buffer_eq small UInt32.ofNat
      rw [← varint32_eq] at agrees
      rcases tagged (finds_of_agrees agrees) with ⟨_, _, returned, finds⟩
      cases returned
      rw [same]
      exact ⟨finds, _, _, rfl, rfl⟩
    · exact fallback
  · exact fallback

end ReadTag

/-! ## Expected tags -/

/-- A tag that is expected and found is what `ReadTag` would have found. -/
theorem Coherent.expectTag (coherent : stream.Coherent) {expected : UInt32}
    (nonzero : expected ≠ 0) :
    expectTag expected stream = .returned false stream ∨
      ∃ next rest, expectTag expected stream = .returned true next ∧ Moved stream next rest ∧
        front stream.visible = .tag expected rest := by
  have found {number : ℕ} {rest : List UInt8} (same : UInt32.ofNat number = expected)
      (decoded : Varint.decode kMaxVarintBytes stream.visible = some (number, rest)) :
      front stream.visible = .tag expected rest := by
    have nonempty : stream.visible ≠ [] := by
      intro nothing
      rw [nothing, Varint.decode_nil] at decoded
      cases decoded
    rw [front_of_varint32 nonempty, varint32_eq, decoded]
    simp only [Option.map_some, same, if_neg nonzero]
  rw [CodedInputStream.expectTag]
  split
  · rename_i one
    rcases buffer_eq : stream.buffer with _ | ⟨byte, tail⟩
    · exact Or.inl rfl
    · simp only
      split
      · rename_i same
        right
        have size_pos : 1 ≤ stream.bufferSize := by
          rw [bufferSize, buffer_eq, List.length_cons]
          omega
        have byte_eq : byte.toNat = expected.toNat := by rw [← same, UInt8.toNat_toUInt32]
        have small : byte.toNat < 128 := by
          rw [byte_eq]
          exact UInt32.lt_iff_toNat_lt.mp one
        have decoded : Varint.decode kMaxVarintBytes stream.visible =
            some (byte.toNat, stream.visible.drop 1) := by
          rw [coherent.visible_eq, buffer_eq]
          exact Varint.decode_last small
        have same_number : UInt32.ofNat byte.toNat = expected := by
          rw [byte_eq, UInt32.ofNat_toNat]
        exact ⟨_, _, rfl, coherent.advance size_pos, found same_number decoded⟩
      · exact Or.inl rfl
  · split
    · rename_i two
      have expected_lt : expected.toNat < 2 ^ 14 := UInt32.lt_iff_toNat_lt.mp two
      rcases buffer_eq : stream.buffer with _ | ⟨byte0, _ | ⟨byte1, tail⟩⟩
      · exact Or.inl rfl
      · exact Or.inl rfl
      · simp only
        split
        · rename_i same
          right
          have size_pos : 2 ≤ stream.bufferSize := by
            rw [bufferSize, buffer_eq, List.length_cons, List.length_cons]
            omega
          have byte0_eq : byte0.toNat = expected.toNat % 128 + 128 := by
            rw [same.1, toNat_marked]
          have byte1_eq : byte1.toNat = expected.toNat / 128 := by
            have shifted : (expected >>> 7).toNat = expected.toNat / 128 := by
              rw [UInt32.toNat_shiftRight]
              exact Nat.shiftRight_eq_div_pow _ _
            rw [same.2, UInt32.toNat_toUInt8, shifted]
            omega
          have decoded : Varint.decode kMaxVarintBytes stream.visible =
              some (byte0.toNat - 128 + 128 * byte1.toNat, stream.visible.drop 2) := by
            rw [coherent.visible_eq, buffer_eq]
            exact Varint.decode_two (by omega) (by omega)
          have same_number : UInt32.ofNat (byte0.toNat - 128 + 128 * byte1.toNat) = expected := by
            have number_eq : byte0.toNat - 128 + 128 * byte1.toNat = expected.toNat := by omega
            rw [number_eq, UInt32.ofNat_toNat]
          exact ⟨_, _, rfl, coherent.advance size_pos, found same_number decoded⟩
        · exact Or.inl rfl
    · exact Or.inl rfl

/-- The visible bytes have come to their end, or it is not known yet. -/
theorem Coherent.expectAtEnd (coherent : stream.Coherent) :
    expectAtEnd stream = .returned false stream ∨
      ∃ next, expectAtEnd stream = .returned true next ∧ Moved stream.atMessageEnd next [] ∧
        front stream.visible = .atEnd := by
  rw [CodedInputStream.expectAtEnd]
  split
  · rename_i ended
    right
    have afterLimit_eq := coherent.afterLimit_eq
    have nothing : stream.visible = [] := by
      rw [coherent.visible_eq, ended.1, Nat.sub_eq_zero_of_le (by omega), List.take_zero]
      rfl
    rw [nothing]
    exact ⟨_, rfl, ⟨⟨rfl, rfl, rfl, rfl, rfl, rfl⟩, coherent.marked _ _ _, nothing,
      List.nil_suffix⟩, rfl⟩
  · exact Or.inl rfl

/-! ## Limits -/

theorem Coherent.held_limited (coherent : stream.Coherent) {limit : ℕ}
    (position_le : stream.currentPosition ≤ limit) :
    { stream with currentLimit := limit }.Held :=
  ⟨coherent.overflow_eq, coherent.read_eq, coherent.read_le, coherent.short, coherent.limit_le,
    coherent.held_le, coherent.held_eq, position_le, coherent.returned_le⟩

/-- A limit cuts off what is visible. -/
theorem Coherent.pushLimit (coherent : stream.Coherent) (length : UInt32) :
    ∃ next, pushLimit length.toInt32.toInt stream = .returned stream.currentLimit next ∧
      next.Coherent ∧ next.visible = stream.visible.take length.toNat ∧
      next.currentPosition = stream.currentPosition ∧
      Alike { stream with currentLimit := next.currentLimit } next := by
  have visible_length := coherent.visible_length
  have short := coherent.short
  have limit_le := coherent.limit_le
  have position_le := coherent.position_le
  have length_lt := length.toNat_lt
  rw [CodedInputStream.pushLimit]
  generalize limit_eq : (if 0 ≤ length.toInt32.toInt ∧
      length.toInt32.toInt ≤ ↑intMax - ↑stream.currentPosition then
        stream.currentPosition + length.toInt32.toInt.toNat else intMax) = limit
  -- Whether or not the limit fits an int, it is as good as the length.
  have cases : limit = stream.currentPosition + length.toNat ∨
      (limit = intMax ∧ intMax < stream.currentPosition + length.toNat) := by
    by_cases negative : 2 ^ 31 ≤ length.toNat
    · have below := toInt_neg negative
      rw [if_neg (by omega)] at limit_eq
      right
      refine ⟨limit_eq.symm, ?_⟩
      rw [intMax]
      omega
    · rw [toInt_of_lt (by omega)] at limit_eq
      split at limit_eq
      · rw [Int.toNat_natCast] at limit_eq
        exact Or.inl limit_eq.symm
      · right
        exact ⟨limit_eq.symm, by omega⟩
  have limited := coherent.held_limited
    (show stream.currentPosition ≤ min limit stream.currentLimit by omega)
  rcases limited.recompute with ⟨recomputed, position_eq⟩
  have alike := recomputeBufferLimits_alike
    { stream with currentLimit := min limit stream.currentLimit }
  have same_position : { stream with
      currentLimit := min limit stream.currentLimit }.currentPosition =
        stream.currentPosition := rfl
  rw [same_position] at position_eq
  refine ⟨_, rfl, recomputed, ?_, position_eq, ?_⟩
  · rw [visible, visible, position_eq, alike.currentLimit_eq, alike.data_eq, List.take_take,
      List.take_eq_take_iff, List.length_drop]
    dsimp only
    omega
  · rw [alike.currentLimit_eq]
    exact alike

/-- Taking a limit back, once everything before it has been read. -/
theorem Coherent.popLimit {inner last : CodedInputStream} {length : ℕ}
    (coherent : stream.Coherent) (inner_coherent : inner.Coherent)
    (inner_visible : inner.visible = stream.visible.take length)
    (inner_position : inner.currentPosition = stream.currentPosition)
    (inner_alike : Alike { stream with currentLimit := inner.currentLimit } inner)
    (moved : Moved inner.atMessageEnd last []) :
    ∃ next, popLimit stream.currentLimit last = .returned () next ∧
      Moved { stream with legitimateMessageEnd := false } next (stream.visible.drop length) := by
  have visible_length := coherent.visible_length
  have inner_length := inner_coherent.visible_length
  have last_length := moved.coherent.visible_length
  have last_limit : last.currentLimit = inner.currentLimit := moved.currentLimit_eq
  have last_data : last.input.data = inner.input.data := moved.data_eq
  have inner_data : inner.input.data = stream.input.data := inner_alike.data_eq
  rw [inner_visible, List.length_take, inner_position, inner_data] at inner_length
  rw [moved.visible_eq, List.length_nil, last_limit, last_data, inner_data] at last_length
  have position_le : last.currentPosition ≤ stream.currentLimit := by omega
  rcases (moved.coherent.held_limited position_le).recompute with ⟨recomputed, position_eq⟩
  have position_add : { { last with
      currentLimit := stream.currentLimit }.recomputeBufferLimits with
        legitimateMessageEnd := false }.currentPosition =
      stream.currentPosition + min length stream.visible.length := by
    have last_position : last.currentPosition =
        stream.currentPosition + min length stream.visible.length := by omega
    exact position_eq.trans last_position
  have alike := recomputeBufferLimits_alike { last with currentLimit := stream.currentLimit }
  have all : stream.visible.drop length =
      stream.visible.drop (min length stream.visible.length) := by
    rw [List.drop_eq_drop_iff]
    omega
  refine ⟨_, rfl, all ▸ ?_⟩
  refine moved_of_position (recomputed.marked _ _ _) ?_ position_add
  exact ⟨alike.data_eq.trans (last_data.trans inner_data), alike.currentLimit_eq,
    alike.totalBytesLimit_eq.trans (moved.totalBytesLimit_eq.trans inner_alike.totalBytesLimit_eq),
    alike.recursionDepth_eq.trans (moved.recursionDepth_eq.trans inner_alike.recursionDepth_eq),
    alike.recursionLimit_eq.trans (moved.recursionLimit_eq.trans inner_alike.recursionLimit_eq),
    rfl⟩

end Gsp.Protobuf.CodedInputStream
