import Gsp.Protobuf.CodedOutputStream

/-!
# Blocks of an array that is written

However the array is cut into blocks, a write puts its bytes behind those that
have been written, as far as the array reaches, and leaves the bytes behind them
alone. There is an error from the first byte on that has no room.
-/

namespace Gsp.Protobuf.CodedOutputStream

variable {stream next last : CodedOutputStream} {bytes : List UInt8}

/-- All bytes of the array up to the end of the buffer have been asked for. -/
structure Coherent (stream : CodedOutputStream) : Prop where
  size_eq : stream.output.size = stream.data.length
  position_le : stream.output.position ≤ stream.output.size
  buffer_le : stream.bufferSize ≤ stream.output.position
  total_eq : stream.totalBytes = stream.output.position

/-- The bytes before the cursor. -/
def written (stream : CodedOutputStream) : List UInt8 := stream.data.take stream.cursor

/-- The bytes that have not been written. -/
def behind (stream : CodedOutputStream) : List UInt8 := stream.data.drop stream.cursor

/-- The bytes have been written behind those of `stream`, as far as there is room. -/
structure Wrote (stream : CodedOutputStream) (bytes : List UInt8) (next : CodedOutputStream) :
    Prop where
  coherent : next.Coherent
  length_eq : next.data.length = stream.data.length
  written_eq : next.written = (stream.written ++ bytes).take stream.data.length
  behind_eq : next.behind = stream.behind.drop bytes.length
  error_eq : next.hadError =
    (stream.hadError || decide (stream.data.length < stream.cursor + bytes.length))

namespace Coherent

theorem cursor_le (coherent : stream.Coherent) : stream.cursor ≤ stream.data.length := by
  have size_eq := coherent.size_eq
  have position_le := coherent.position_le
  rw [cursor]
  omega

theorem written_length (coherent : stream.Coherent) : stream.written.length = stream.cursor := by
  have cursor_le := coherent.cursor_le
  rw [written, List.length_take]
  omega

theorem byteCount_eq (coherent : stream.Coherent) : stream.byteCount = stream.cursor := by
  rw [byteCount, cursor, coherent.total_eq]

theorem refl (coherent : stream.Coherent) : Wrote stream [] stream := by
  have cursor_le := coherent.cursor_le
  refine ⟨coherent, rfl, ?_, rfl, ?_⟩
  · rw [List.append_nil, List.take_of_length_le]
    rw [coherent.written_length]
    exact cursor_le
  · have fits : ¬stream.data.length < stream.cursor + ([] : List UInt8).length := by
      simpa using cursor_le
    rw [decide_eq_false fits, Bool.or_false]

end Coherent

namespace Wrote

/-- The cursor moves by what was written. -/
theorem cursor_eq (coherent : stream.Coherent) (wrote : Wrote stream bytes next) :
    next.cursor = min (stream.cursor + bytes.length) stream.data.length := by
  have lengths := congrArg List.length wrote.written_eq
  rw [wrote.coherent.written_length, List.length_take, List.length_append,
    coherent.written_length] at lengths
  omega

theorem take_take_append (bytes more : List UInt8) (size : ℕ) :
    (bytes.take size ++ more).take size = (bytes ++ more).take size := by
  rw [List.take_append, List.take_append, List.take_take, Nat.min_self, List.length_take]
  congr 2
  omega

/-- Writes one after the other. -/
theorem trans (coherent : stream.Coherent) {more : List UInt8} (first : Wrote stream bytes next)
    (second : Wrote next more last) : Wrote stream (bytes ++ more) last := by
  have cursor_eq := first.cursor_eq coherent
  refine ⟨second.coherent, second.length_eq.trans first.length_eq, ?_, ?_, ?_⟩
  · rw [second.written_eq, first.written_eq, first.length_eq, take_take_append, List.append_assoc]
  · rw [second.behind_eq, first.behind_eq, List.drop_drop, List.length_append]
  · rw [second.error_eq, first.error_eq, first.length_eq, cursor_eq, List.length_append,
      Bool.or_assoc]
    congr 1
    rw [← Bool.decide_or]
    apply decide_eq_decide.mpr
    omega

/-- The array once everything has found room. -/
theorem data_eq (coherent : stream.Coherent) (wrote : Wrote stream bytes next)
    (fits : stream.cursor + bytes.length ≤ stream.data.length) :
    next.data = stream.written ++ bytes ++ stream.data.drop (stream.cursor + bytes.length) := by
  have whole : next.data = next.written ++ next.behind := (List.take_append_drop _ _).symm
  have length_eq : (stream.written ++ bytes).length = stream.cursor + bytes.length := by
    rw [List.length_append, coherent.written_length]
  rw [whole, wrote.written_eq, wrote.behind_eq, behind, List.drop_drop,
    List.take_of_length_le (by omega)]

end Wrote

/-! ## Putting bytes into the buffer -/

/-- Bytes that fit the buffer are written to it. -/
theorem Coherent.put (coherent : stream.Coherent) (fits : bytes.length ≤ stream.bufferSize) :
    Wrote stream bytes (stream.put bytes) := by
  have size_eq := coherent.size_eq
  have position_le := coherent.position_le
  have buffer_le := coherent.buffer_le
  have cursor_le := coherent.cursor_le
  have cursor_eq : stream.cursor = stream.output.position - stream.bufferSize := rfl
  have put_cursor : (stream.put bytes).cursor = stream.cursor + bytes.length := by
    simp only [CodedOutputStream.put, cursor]
    omega
  have front_length : (stream.data.take stream.cursor ++ bytes).length =
      stream.cursor + bytes.length := by
    rw [List.length_append, List.length_take]
    omega
  have put_length : (stream.put bytes).data.length = stream.data.length := by
    simp only [CodedOutputStream.put, List.length_append, List.length_take, List.length_drop]
    omega
  refine ⟨⟨size_eq.trans put_length.symm, position_le, ?_, coherent.total_eq⟩, put_length, ?_, ?_,
    ?_⟩
  · exact (Nat.sub_le _ _).trans buffer_le
  · have roomy : (stream.written ++ bytes).length ≤ stream.data.length := by
      rw [List.length_append, coherent.written_length]
      omega
    rw [List.take_of_length_le roomy, written, put_cursor]
    exact List.take_left' front_length
  · rw [behind, put_cursor, behind, List.drop_drop]
    exact List.drop_left' front_length
  · have roomy : ¬stream.data.length < stream.cursor + bytes.length := by omega
    rw [decide_eq_false roomy, Bool.or_false]
    rfl

/-- A refresh finds a block, unless the array has been written to its end. -/
theorem Coherent.refresh (coherent : stream.Coherent) (empty : stream.bufferSize = 0) :
    (∃ next, stream.refresh = (true, next) ∧ Wrote stream [] next) ∨
    (stream.cursor = stream.data.length ∧ ∃ next, stream.refresh = (false, next) ∧
      next.Coherent ∧ next.data = stream.data ∧ next.cursor = stream.cursor ∧
      next.hadError = true) := by
  have size_eq := coherent.size_eq
  have position_le := coherent.position_le
  have total_eq := coherent.total_eq
  have cursor_eq : stream.cursor = stream.output.position := by
    rw [cursor, empty, Nat.sub_zero]
  by_cases inside : stream.output.position < stream.output.size
  · left
    refine ⟨_, by rw [CodedOutputStream.refresh, ArrayOutputStream.next, if_pos inside], ?_⟩
    have next_cursor (size : ℕ) : stream.output.position + size - size = stream.cursor := by
      omega
    have kept := coherent.refl
    refine ⟨⟨size_eq, ?_, Nat.le_add_left _ _, ?_⟩, rfl, ?_, ?_, kept.error_eq⟩
    · dsimp only
      omega
    · dsimp only
      omega
    · rw [written, cursor]
      dsimp only
      rw [next_cursor]
      exact kept.written_eq
    · rw [behind, cursor]
      dsimp only
      rw [next_cursor]
      exact kept.behind_eq
  · right
    have refreshed : stream.refresh =
        (false, { stream with
          output := { stream.output with lastReturnedSize := 0 }
          bufferSize := 0
          hadError := true }) := by
      simp only [CodedOutputStream.refresh, ArrayOutputStream.next, if_neg inside]
    exact ⟨by omega, _, refreshed, ⟨size_eq, position_le, Nat.zero_le _, total_eq⟩, rfl,
      cursor_eq.symm, rfl⟩

theorem writeRaw_refresh (lt : stream.bufferSize < bytes.length)
    (refreshed : (stream.put (bytes.take stream.bufferSize)).refresh = (true, next)) :
    stream.writeRaw bytes = next.writeRaw (bytes.drop stream.bufferSize) := by
  rw [writeRaw, if_pos lt]
  split
  · rename_i found eq
    obtain rfl : found = next := (Prod.mk.inj (eq.symm.trans refreshed)).2
    rfl
  · rename_i eq
    cases eq.symm.trans refreshed

theorem writeRaw_failed (lt : stream.bufferSize < bytes.length)
    (refreshed : (stream.put (bytes.take stream.bufferSize)).refresh = (false, next)) :
    stream.writeRaw bytes = next := by
  rw [writeRaw, if_pos lt]
  split
  · rename_i eq
    cases eq.symm.trans refreshed
  · rename_i found eq
    exact (Prod.mk.inj (eq.symm.trans refreshed)).2

/-- Bytes that are spread over several blocks. -/
theorem Coherent.writeRaw (coherent : stream.Coherent) (bytes : List UInt8) :
    Wrote stream bytes (stream.writeRaw bytes) := by
  induction left_eq : stream.output.size - stream.output.position using
    Nat.strong_induction_on generalizing stream bytes with
  | h left ih =>
      by_cases enough : bytes.length ≤ stream.bufferSize
      · rw [CodedOutputStream.writeRaw, if_neg (by omega)]
        exact coherent.put enough
      · have lt : stream.bufferSize < bytes.length := by omega
        have taken_length : (bytes.take stream.bufferSize).length = stream.bufferSize := by
          rw [List.length_take]
          omega
        have putted := @Coherent.put _ (bytes.take stream.bufferSize) coherent taken_length.le
        have emptied : (stream.put (bytes.take stream.bufferSize)).bufferSize = 0 := by
          simp only [CodedOutputStream.put, taken_length, Nat.sub_self]
        rcases putted.coherent.refresh emptied with
          ⟨next, refreshed, found⟩ |
          ⟨full, next, refreshed, next_coherent, data_eq, cursor_eq, error⟩
        · have decreases := refresh_decreases refreshed
          have smaller : next.output.size - next.output.position < left := by
            rw [← left_eq]
            exact decreases
          have rest := ih _ smaller found.coherent (bytes.drop stream.bufferSize) rfl
          have both := putted.trans coherent (found.trans putted.coherent rest)
          rw [List.nil_append, List.take_append_drop] at both
          rw [writeRaw_refresh lt refreshed]
          exact both
        · have put_cursor := putted.cursor_eq coherent
          have put_length := putted.length_eq
          have cursor_le := coherent.cursor_le
          have size_eq := coherent.size_eq
          have position_le := coherent.position_le
          have buffer_le := coherent.buffer_le
          have whole : stream.cursor + stream.bufferSize = stream.data.length := by
            have cursor_eq : stream.cursor = stream.output.position - stream.bufferSize := rfl
            omega
          rw [writeRaw_failed lt refreshed]
          have full_length : next.data.length = stream.data.length := data_eq ▸ put_length
          refine ⟨next_coherent, full_length, ?_, ?_, ?_⟩
          · have same : next.written = (stream.put (bytes.take stream.bufferSize)).written := by
              rw [written, data_eq, cursor_eq]
              rfl
            rw [same, putted.written_eq, List.take_append, List.take_append, List.take_take,
              coherent.written_length]
            congr 2
            omega
          · have behind_length : stream.behind.length = stream.data.length - stream.cursor :=
              List.length_drop
            rw [behind, List.drop_of_length_le (by omega), List.drop_of_length_le (by omega)]
          · rw [error, decide_eq_true (by omega), Bool.or_true]

end Gsp.Protobuf.CodedOutputStream
