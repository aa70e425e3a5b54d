import Gsp.MyPacket.Schemas

/-!
# Messages that are sent and read back

What holds of the seven messages whatever the sizes of the blocks are in which
streams see their arrays: parsing is what the format says, serializing writes the
bytes of the format, and reading them back gives the message.
-/

namespace Gsp.MyPacket

open Gsp.Protobuf CodedInputStream WireFormatLite Wire Generated MessageLite

namespace MessageName

/-- Two messages with the same members have the same sizes to cache. -/
theorem cacheSizes_merge (name : MessageName) (target source : name.Message) :
    cacheSizes (name.schema.merge (clear target) source) = cacheSizes source := by
  cases name with
  | loginRequest => rcases source with ⟨_ | _, _⟩ <;> rfl
  | position => rcases source with ⟨_ | _, _ | _, _ | _, _⟩ <;> rfl
  | loginResult =>
      rcases source with ⟨_ | _, _ | _, _ | ⟨_ | _, _ | _, _ | _, _⟩, _⟩ <;> rfl
  | chatRequest => rcases source with ⟨_ | _, _ | _, _⟩ <;> rfl
  | chatResult => rcases source with ⟨_ | _, _ | _, _⟩ <;> rfl
  | moveRequest => rcases source with ⟨_ | _, _ | ⟨_ | _, _ | _, _ | _, _⟩, _⟩ <;> rfl
  | moveResult => rcases source with ⟨_ | _, _ | ⟨_ | _, _ | _, _ | _, _⟩, _⟩ <;> rfl

theorem isInitialized_cacheSizes (name : MessageName) (message : name.Message) :
    isInitialized (cacheSizes message) = isInitialized message := by
  cases name with
  | loginRequest => rcases message with ⟨_ | _, _⟩ <;> rfl
  | position => rcases message with ⟨_ | _, _ | _, _ | _, _⟩ <;> rfl
  | loginResult =>
      rcases message with ⟨_ | _, _ | _, _ | ⟨_ | _, _ | _, _ | _, _⟩, _⟩ <;> rfl
  | chatRequest => rcases message with ⟨_ | _, _ | _, _⟩ <;> rfl
  | chatResult => rcases message with ⟨_ | _, _ | _, _⟩ <;> rfl
  | moveRequest => rcases message with ⟨_ | _, _ | ⟨_ | _, _ | _, _ | _, _⟩, _⟩ <;> rfl
  | moveResult => rcases message with ⟨_ | _, _ | ⟨_ | _, _ | _, _ | _, _⟩, _⟩ <;> rfl

end MessageName

/-! ## Parsing -/

/-- A parser that reads the bytes in blocks of this size. -/
def parsed (name : MessageName) (message : name.Message) (data : List UInt8) (blockSize : ℤ) :
    Outcome name.Message :=
  parseFromCodedStream message (.construct (.construct data blockSize))

/-- The parser ends with a stream that can be destroyed. -/
theorem exists_parsed (name : MessageName) (message : name.Message) {data : List UInt8}
    (short : data.length < kDefaultTotalBytesLimit) (blockSize : ℤ) :
    ∃ last, last.Releasable ∧
      parsed name message data blockSize =
        match name.schema.parse isInitialized (clear message) data with
        | some result => .returned result last
        | none => .failed last := by
  have parses := name.parsesAs.parseFromCodedStream short blockSize message
  rcases format : name.schema.parse isInitialized (clear message) data with _ | result
  · rw [format] at parses
    rcases parses with ⟨last, failed, releasable⟩
    exact ⟨last, releasable, failed⟩
  · rw [format] at parses
    rcases parses with ⟨last, returned, releasable⟩
    exact ⟨last, releasable, returned⟩

/-- The parser returns what the format gives, whatever the blocks are, and the stream
can be destroyed. -/
theorem parsed_eq (name : MessageName) (message : name.Message) {data : List UInt8}
    (short : data.length < kDefaultTotalBytesLimit) (blockSize : ℤ) :
    ∃ last, last.backUpInputToCurrentPosition.isSome ∧
      parsed name message data blockSize =
        match name.schema.parse isInitialized (clear message) data with
        | some result => .returned result last
        | none => .failed last := by
  rcases exists_parsed name message short blockSize with ⟨last, releasable, returned⟩
  exact ⟨last, releasable.backUp, returned⟩

/-- A login in blocks of one byte. -/
theorem parsed_eq_login : ∃ last, last.backUpInputToCurrentPosition.isSome ∧
    parsed .loginRequest ⟨none, 0⟩ [8, 5] 1 = .returned ⟨some 5, 0⟩ last :=
  parsed_eq .loginRequest ⟨none, 0⟩ (show [8, 5].length < kDefaultTotalBytesLimit by decide) 1

/-- A parser that has read all records of its bytes. -/
theorem parsed_of_read {name : MessageName} {message result : name.Message} {data : List UInt8}
    (short : data.length < kDefaultTotalBytesLimit) (blockSize : ℤ)
    (read : name.schema.read defaultRecursionLimit (clear message) data =
      name.schema.read defaultRecursionLimit result []) :
    ∃ last, parsed name message data blockSize =
      if isInitialized result then .returned result last else .failed last := by
  rcases exists_parsed name message short blockSize with ⟨last, _, returned⟩
  refine ⟨last, ?_⟩
  rw [Schema.read_nil] at read
  rw [returned, Schema.parse, read]
  cases initialized : isInitialized result <;> simp [initialized]

/-! ## Serializing -/

/-- A message that is written behind a header, in blocks of this size. -/
def serialized (name : MessageName) (message : name.Message) (header data : List UInt8)
    (blockSize : ℤ) : Option (Bool × name.Message × CodedOutputStream) :=
  serializeToCodedStream message ((CodedOutputStream.construct data blockSize).writeRaw header)

/-- `ByteSize` is the length of what is written. -/
theorem MessageName.length_encode (name : MessageName) {message : name.Message}
    (fits : byteSize message ≤ intMax) :
    (name.schema.encode message).length = byteSize message :=
  (@name.serializesAs.byteSize_eq _ _ _ message ((Nat.min_le_left _ _).trans fits)).symm

/-- The call returns whether there is room for the bytes of the format. -/
theorem exists_serialized (name : MessageName) {message : name.Message} {header data : List UInt8}
    (initialized : isInitialized message) (fits : byteSize message ≤ intMax)
    (behind : header.length ≤ data.length) (blockSize : ℤ) :
    ∃ next, serialized name message header data blockSize =
        some (decide (header.length + byteSize message ≤ data.length), cacheSizes message, next) ∧
      next.data = (header ++ name.schema.encode message).take data.length ++
        data.drop (header.length + byteSize message) := by
  have size_eq := @name.serializesAs.byteSize_eq _ _ _ message ((Nat.min_le_left _ _).trans fits)
  rcases coherent_construct data blockSize with ⟨coherent, data_eq, cursor_eq, clean⟩
  have wrote := coherent.writeRaw header
  have nothing : (CodedOutputStream.construct data blockSize).written = [] := by
    rw [CodedOutputStream.written, cursor_eq, List.take_zero]
  have everything : (CodedOutputStream.construct data blockSize).behind = data := by
    rw [CodedOutputStream.behind, cursor_eq, List.drop_zero, data_eq]
  have header_clean :
      ((CodedOutputStream.construct data blockSize).writeRaw header).hadError = false := by
    rw [wrote.error_eq, clean, data_eq, cursor_eq, decide_eq_false (by omega)]
    rfl
  rcases name.serializesAs.serializePartial (size_eq ▸ fits) wrote.coherent header_clean with
    ⟨next, serialized_partial, message_wrote⟩
  have both := wrote.trans coherent message_wrote
  have error_eq : next.hadError =
      decide (data.length < header.length + byteSize message) := by
    rw [both.error_eq, clean, data_eq, cursor_eq, List.length_append, size_eq, Nat.zero_add,
      Bool.false_or]
  have returned : (!next.hadError) =
      decide (header.length + byteSize message ≤ data.length) := by
    rw [error_eq, ← decide_not]
    apply decide_eq_decide.mpr
    omega
  refine ⟨next, ?_, ?_⟩
  · rw [serialized, serializeToCodedStream, if_pos initialized, serialized_partial, returned]
  · have whole : next.data = next.written ++ next.behind := (List.take_append_drop _ _).symm
    rw [whole, both.written_eq, both.behind_eq, nothing, everything, data_eq, List.nil_append,
      List.length_append, size_eq]

/-- The bytes of the format are written, as many as `ByteSize` says, however the array
is cut into blocks; the call returns whether there is room for them. -/
theorem serialized_eq (name : MessageName) {message : name.Message} {header data : List UInt8}
    (initialized : isInitialized message) (fits : byteSize message ≤ intMax)
    (behind : header.length ≤ data.length) (blockSize : ℤ) :
    (name.schema.encode message).length = byteSize message ∧
      ∃ next, serialized name message header data blockSize =
          some (decide (header.length + byteSize message ≤ data.length), cacheSizes message, next) ∧
        next.data = (header ++ name.schema.encode message).take data.length ++
          data.drop (header.length + byteSize message) :=
  ⟨name.length_encode fits, exists_serialized name initialized fits behind blockSize⟩

/-- The room ends inside the message. -/
theorem serialized_eq_short :
    (MessageName.loginRequest.schema.encode ⟨some 5, 0⟩).length = 2 ∧
      ∃ next, serialized .loginRequest ⟨some 5, 0⟩ [1] [0, 0] 1 =
          some (false, ⟨some 5, 2⟩, next) ∧
        next.data = ([1] ++ MessageName.loginRequest.schema.encode ⟨some 5, 0⟩).take 2 ++ [] :=
  @serialized_eq .loginRequest ⟨some 5, 0⟩ [1] [0, 0] (by decide) (by decide) (by decide) 1

/-! ## Reading back -/

/-- A message that has been written is read back, in whatever blocks the two are done. -/
theorem parsed_serialized (name : MessageName) {message : name.Message} (target : name.Message)
    {header data : List UInt8} (initialized : isInitialized message)
    (short : byteSize message < kDefaultTotalBytesLimit)
    (room : header.length + byteSize message ≤ data.length) (writeBlock readBlock : ℤ) :
    ∃ sized next result last,
      serialized name message header data writeBlock = some (true, sized, next) ∧
      parsed name target ((next.data.drop header.length).take (byteSize message)) readBlock =
        .returned result last ∧
      result = mergeFrom (clear target) message ∧ cacheSizes result = sized := by
  have limit_le : kDefaultTotalBytesLimit ≤ intMax := by decide
  have fits : byteSize message ≤ intMax := by omega
  have size_eq := name.length_encode fits
  rcases exists_serialized name initialized fits (show header.length ≤ data.length by omega)
    writeBlock with
    ⟨next, written, data_eq⟩
  have all : (header ++ name.schema.encode message).length ≤ data.length := by
    rw [List.length_append, size_eq]
    exact room
  have message_eq : (next.data.drop header.length).take (byteSize message) =
      name.schema.encode message := by
    rw [data_eq, List.take_of_length_le all, List.append_assoc, List.drop_left, ← size_eq,
      List.take_left]
  have read := @name.lawful.read_encode _ defaultRecursionLimit _ _ (clear target) message
    (by decide) (size_eq ▸ fits) []
  rw [List.append_nil] at read
  rcases parsed_of_read (size_eq ▸ short) readBlock read with ⟨last, returned⟩
  have sizes_eq := name.cacheSizes_merge target message
  have result_initialized :
      isInitialized (name.schema.merge (clear target) message) = true := by
    rw [← name.isInitialized_cacheSizes, sizes_eq, name.isInitialized_cacheSizes]
    exact initialized
  rw [result_initialized, if_pos rfl] at returned
  rw [decide_eq_true room] at written
  exact ⟨_, next, _, last, written, message_eq ▸ returned,
    (name.mergesAs.mergeFrom_eq _ _).symm, sizes_eq⟩

theorem parsed_serialized_login :
    ∃ sized next result last,
      serialized .loginRequest ⟨some 5, 0⟩ [1] [0, 0, 0, 0] 3 = some (true, sized, next) ∧
      parsed .loginRequest ⟨none, 0⟩ ((next.data.drop 1).take 2) 1 = .returned result last ∧
      result = ⟨some 5, 0⟩ ∧ cacheSizes result = sized :=
  @parsed_serialized .loginRequest ⟨some 5, 0⟩ ⟨none, 0⟩ [1] [0, 0, 0, 0] (by decide) (by decide)
    (by decide) 3 1

/-- Several messages one after the other are merged. -/
theorem parsed_concat (name : MessageName) (target : name.Message)
    {messages : List name.Message}
    (short : (messages.map byteSize).sum < kDefaultTotalBytesLimit) (blockSize : ℤ) :
    ∃ last, parsed name target (messages.flatMap name.schema.encode) blockSize =
      if isInitialized (messages.foldl mergeFrom (clear target)) then
        .returned (messages.foldl mergeFrom (clear target)) last
      else .failed last := by
  have limit_le : kDefaultTotalBytesLimit ≤ intMax := by decide
  have size_eq {message : name.Message} (fits : byteSize message ≤ intMax) :=
    @name.serializesAs.byteSize_eq _ _ _ message ((Nat.min_le_left _ _).trans fits)
  have reads {messages : List name.Message} (short : (messages.map byteSize).sum ≤ intMax)
      (start : name.Message) :
      (messages.flatMap name.schema.encode).length = (messages.map byteSize).sum ∧
        name.schema.read defaultRecursionLimit start (messages.flatMap name.schema.encode) =
          name.schema.read defaultRecursionLimit (messages.foldl mergeFrom start) [] := by
    induction messages generalizing start with
    | nil => exact ⟨rfl, rfl⟩
    | cons message messages ih =>
        rw [List.map_cons, List.sum_cons] at short
        have fits : byteSize message ≤ intMax := by omega
        rcases ih (by omega) (mergeFrom start message) with ⟨rest_length, rest_read⟩
        rw [List.flatMap_cons, List.length_append, List.map_cons, List.sum_cons, rest_length,
          size_eq fits, List.foldl_cons]
        refine ⟨rfl, ?_⟩
        rw [name.lawful.read_encode (by decide) (size_eq fits ▸ fits), ← name.mergesAs.mergeFrom_eq]
        exact rest_read
  rcases reads (short.le.trans limit_le) (clear target) with ⟨length_eq, read⟩
  exact parsed_of_read (length_eq ▸ short) blockSize read

/-- The later login wins. -/
theorem parsed_concat_login :
    ∃ last, parsed .loginRequest ⟨none, 0⟩
        ([⟨some 5, 0⟩, ⟨some 7, 0⟩].flatMap MessageName.loginRequest.schema.encode) (-1) =
      .returned ⟨some 7, 0⟩ last :=
  @parsed_concat .loginRequest ⟨none, 0⟩ [⟨some 5, 0⟩, ⟨some 7, 0⟩] (by decide) (-1)

/-- Records in any order, whose fields may have been written in more bytes than needed,
with others between them that the message does not know. -/
theorem parsed_records (name : MessageName) (target : name.Message)
    {records : List (List UInt8 × (name.Message → name.Message))}
    (are_records : ∀ record ∈ records,
      name.schema.IsRecord defaultRecursionLimit record.1 record.2)
    (short : (records.flatMap (·.1)).length < kDefaultTotalBytesLimit) (blockSize : ℤ) :
    ∃ last, parsed name target (records.flatMap (·.1)) blockSize =
      if isInitialized (records.foldl (fun message record => record.2 message) (clear target)) then
        .returned (records.foldl (fun message record => record.2 message) (clear target)) last
      else .failed last := by
  have read := @name.lawful.read_records _ defaultRecursionLimit _ _ (clear target) records
    are_records []
  rw [List.append_nil] at read
  exact parsed_of_read short blockSize read

/-- A `fixed32` that is not known, and a value in two bytes where one is enough. -/
theorem parsed_records_login :
    ∃ last, parsed .loginRequest ⟨none, 0⟩
        ([Varint.encode 21 ++ [1, 2, 3, 4], Varint.encode 8 ++ [0x85, 0]].flatMap id) 1 =
      .returned ⟨some 5, 0⟩ last := by
  have unknown : MessageName.loginRequest.schema.IsRecord defaultRecursionLimit
      (Varint.encode (21 : UInt32).toNat ++ [1, 2, 3, 4]) id :=
    .unknown (by decide) (by decide) (by decide) (takes_tag 21) fun _ => rfl
  have known : MessageName.loginRequest.schema.IsRecord defaultRecursionLimit
      (Varint.encode 8 ++ [0x85, 0]) fun message => { message with playerId := some 5 } :=
    .field List.mem_cons_self (takes_tag 8) fun _ _ => rfl
  exact @parsed_records .loginRequest ⟨none, 0⟩
    [(_, id), (_, fun message => { message with playerId := some 5 })]
    (List.forall_mem_cons.mpr ⟨unknown, List.forall_mem_singleton.mpr known⟩)
    (by simp [Varint.encode, kDefaultTotalBytesLimit]) 1

/-! ## Groups -/

/-- No field of a message is a group. -/
theorem find_startGroup (name : MessageName) {number : UInt32} (small : number.toNat < 2 ^ 29) :
    name.schema.find? (·.tag = makeTag number .startGroup) = none := by
  have no_groups : name.schema.all fun rule => getTagWireType rule.tag ≠ some .startGroup := by
    cases name <;> decide
  rw [List.find?_eq_none]
  intro rule mem same
  have not_group := List.all_eq_true.mp no_groups rule mem
  rw [of_decide_eq_true same, (getTag_makeTag small .startGroup).2] at not_group
  simp at not_group

/-- Groups that nest before the records of a message are skipped up to the recursion
limit, from which on the message is refused. -/
theorem parsed_nestedGroups (name : MessageName) {message : name.Message} (target : name.Message)
    (initialized : isInitialized message) {numbers : List UInt32}
    (small : ∀ number ∈ numbers, number.toNat < 2 ^ 29)
    (short : (nestedGroups numbers).length + byteSize message < kDefaultTotalBytesLimit)
    (blockSize : ℤ) :
    ∃ last, parsed name target (nestedGroups numbers ++ name.schema.encode message) blockSize =
      if numbers.length ≤ defaultRecursionLimit then
        .returned (mergeFrom (clear target) message) last
      else .failed last := by
  have limit_le : kDefaultTotalBytesLimit ≤ intMax := by decide
  have fits : byteSize message ≤ intMax := by omega
  have size_eq := @name.serializesAs.byteSize_eq _ _ _ message ((Nat.min_le_left _ _).trans fits)
  have data_short : (nestedGroups numbers ++ name.schema.encode message).length <
      kDefaultTotalBytesLimit := by
    rw [List.length_append, ← size_eq]
    exact short
  have read := @name.lawful.read_encode _ defaultRecursionLimit _ _ (clear target) message
    (by decide) (size_eq ▸ fits) []
  rw [List.append_nil, ← name.mergesAs.mergeFrom_eq] at read
  have result_initialized : isInitialized (mergeFrom (clear target) message) = true := by
    rw [name.mergesAs.mergeFrom_eq, ← name.isInitialized_cacheSizes, name.cacheSizes_merge,
      name.isInitialized_cacheSizes]
    exact initialized
  cases numbers with
  | nil =>
      rcases parsed_of_read data_short blockSize read with ⟨last, returned⟩
      rw [result_initialized, if_pos rfl] at returned
      exact ⟨last, returned⟩
  | cons number numbers =>
      have number_small := small number List.mem_cons_self
      have skipped := @skipField_nestedGroups defaultRecursionLimit (name.schema.encode message)
        number numbers small
      have unknown := find_startGroup name number_small
      have found := front_of_takes (takes_tag (makeTag number .startGroup))
        (makeTag_ne_zero number_small (by decide)) (nestedGroups numbers ++
          (Varint.encode (makeTag number .endGroup).toNat ++ name.schema.encode message))
      have goes_on : getTagWireType (makeTag number .startGroup) ≠ some .endGroup := by
        rw [(getTag_makeTag number_small .startGroup).2]
        nofun
      have data_eq : nestedGroups (number :: numbers) ++ name.schema.encode message =
          Varint.encode (makeTag number .startGroup).toNat ++ (nestedGroups numbers ++
            (Varint.encode (makeTag number .endGroup).toNat ++ name.schema.encode message)) := by
        simp only [nestedGroups, List.append_assoc]
      have deep_iff : (number :: numbers).length ≤ defaultRecursionLimit ↔
          numbers.length < defaultRecursionLimit := Nat.succ_le_iff
      simp only [deep_iff]
      by_cases shallow : numbers.length < defaultRecursionLimit
      · rw [if_pos shallow] at skipped
        have read_groups := @name.lawful.read_unknown _ defaultRecursionLimit _ _ (clear target)
          _ _ _ _ found unknown goes_on skipped
        rw [← data_eq, read] at read_groups
        rcases parsed_of_read data_short blockSize read_groups with ⟨last, returned⟩
        rw [result_initialized, if_pos rfl] at returned
        simp only [if_pos shallow]
        exact ⟨last, returned⟩
      · rw [if_neg shallow] at skipped
        rcases exists_parsed name target data_short blockSize with ⟨last, _, returned⟩
        have refused : name.schema.read defaultRecursionLimit (clear target)
            (nestedGroups (number :: numbers) ++ name.schema.encode message) = none := by
          rw [data_eq, Schema.read, Schema.readLoop_unknown found unknown goes_on,
            bind_of_none skipped]
        rw [Schema.parse, refused] at returned
        simp only [if_neg shallow]
        exact ⟨last, returned⟩

theorem parsed_nestedGroups_login :
    ∃ last, parsed .loginRequest ⟨none, 0⟩
        (nestedGroups [2, 3] ++ MessageName.loginRequest.schema.encode ⟨some 5, 0⟩) 1 =
      .returned ⟨some 5, 0⟩ last := by
  have tags : (makeTag 2 .startGroup).toNat = 19 ∧ (makeTag 2 .endGroup).toNat = 20 ∧
      (makeTag 3 .startGroup).toNat = 27 ∧ (makeTag 3 .endGroup).toNat = 28 := by decide
  have length_eq : (nestedGroups [2, 3]).length = 4 := by
    simp [nestedGroups, Varint.encode, tags]
  have short : (nestedGroups [2, 3]).length + byteSize (⟨some 5, 0⟩ : LoginRequest) <
      kDefaultTotalBytesLimit := by
    rw [length_eq]
    decide
  exact @parsed_nestedGroups .loginRequest ⟨some 5, 0⟩ ⟨none, 0⟩ (by decide) [2, 3] (by simp)
    short 1

end Gsp.MyPacket
