import Gsp.Lib.Varint
import Gsp.Protobuf.CodedInputStream

/-!
# The wire format

What the format says about a list of bytes, without buffers and limits: a parser
either refuses or gives a value and the bytes that it has left. A message ends
with its bytes, at a tag that is zero or cut off, or at the end of a group.
-/

namespace Gsp.Protobuf

/-! ## Tags -/

namespace WireFormatLite

theorem getTagWireType_eq_some_iff {tag : UInt32} {type : WireType} :
    getTagWireType tag = some type ↔ type.code = tag &&& 7 := by
  rw [getTagWireType]
  generalize tag &&& 7 = code
  constructor
  · intro found
    simpa using List.find?_some found
  · intro same
    subst same
    cases type <;> rfl

theorem toNat_makeTag {number : UInt32} (type : WireType) (small : number.toNat < 2 ^ 29) :
    (makeTag number type).toNat = 8 * number.toNat + type.code.toNat := by
  have code_lt : type.code.toNat < 2 ^ 3 := by cases type <;> decide
  have shifted : (number <<< 3).toNat = number.toNat <<< 3 := by
    rw [UInt32.toNat_shiftLeft]
    apply Nat.mod_eq_of_lt
    change number.toNat <<< 3 < 2 ^ 32
    rw [Nat.shiftLeft_eq]
    omega
  rw [makeTag, UInt32.toNat_or, shifted, Nat.or_comm, Varint.or_shiftLeft code_lt]
  omega

/-- A tag is its number and its wire type. -/
theorem eq_makeTag_iff {number tag : UInt32} {type : WireType} (small : number.toNat < 2 ^ 29) :
    tag = makeTag number type ↔
      getTagFieldNumber tag = number ∧ getTagWireType tag = some type := by
  have code_lt : type.code.toNat < 8 := by cases type <;> decide
  have number_eq : (getTagFieldNumber tag).toNat = tag.toNat / 8 := by
    rw [getTagFieldNumber, UInt32.toNat_shiftRight]
    exact Nat.shiftRight_eq_div_pow _ _
  have code_eq : (tag &&& 7).toNat = tag.toNat % 8 := by
    rw [UInt32.toNat_and]
    exact Nat.and_two_pow_sub_one_eq_mod _ 3
  rw [getTagWireType_eq_some_iff, ← UInt32.toNat_inj, ← UInt32.toNat_inj, ← UInt32.toNat_inj,
    toNat_makeTag type small, number_eq, code_eq]
  omega

/-- A tag gives its field number and its type back. -/
theorem getTag_makeTag {number : UInt32} (small : number.toNat < 2 ^ 29) (type : WireType) :
    getTagFieldNumber (makeTag number type) = number ∧
      getTagWireType (makeTag number type) = some type :=
  (eq_makeTag_iff small).mp rfl

end WireFormatLite

/-! ## Parsers -/

namespace Wire

/-- Takes a value off the front of the bytes, or refuses them. -/
abbrev Parser (α : Type) : Type := StateT (List UInt8) Option α

/-- No value. -/
def refuse {α : Type} : Parser α := fun _ => none

/-- So many bytes. -/
def take (size : ℕ) : Parser (List UInt8) := fun bytes =>
  if size ≤ bytes.length then some (bytes.take size, bytes.drop size) else none

/-- A number of at most ten bytes. -/
def varint : Parser ℕ := Varint.decode 10

/-- The low 32 bits of a varint. -/
def varint32 : Parser UInt32 := do
  let value ← varint
  pure (UInt32.ofNat value)

/-- The low 64 bits of a varint. -/
def varint64 : Parser UInt64 := do
  let value ← varint
  pure (UInt64.ofNat value)

/-- Four bytes, little-endian. -/
def fixed32 : Parser UInt32 := do
  let bytes ← take 4
  pure (UInt32.ofNat (Pointer.decode bytes))

/-- Eight bytes, little-endian. -/
def fixed64 : Parser UInt64 := do
  let bytes ← take 8
  pure (UInt64.ofNat (Pointer.decode bytes))

/-- Bytes behind their length. -/
def delimited : Parser (List UInt8) := do
  let length ← varint32
  take length.toNat

/-- What stands where a field may start. -/
inductive Front where
  | atEnd
  /-- A tag that is zero, too long or cut off. -/
  | stopped
  | tag (tag : UInt32) (rest : List UInt8)
deriving DecidableEq

/-- What the bytes begin with. -/
def front (bytes : List UInt8) : Front :=
  if bytes = [] then .atEnd
  else
    match varint32 bytes with
    | some (tag, rest) => if tag = 0 then .stopped else .tag tag rest
    | none => .stopped

/-- How a sequence of fields has ended. -/
inductive Ending where
  | atEnd
  | stopped
  | endGroup (tag : UInt32)
deriving DecidableEq

open WireFormatLite

/-- Skips a field, where `skipMessage` skips the fields of a group that is nested less deep. -/
def skipFieldWith (skipMessage : ℕ → Parser Ending) (depth : ℕ) (tag : UInt32) : Parser Unit :=
  match getTagWireType tag with
  | some .varint => do
      let _ ← varint64
      pure ()
  | some .fixed64 => do
      let _ ← fixed64
      pure ()
  | some .lengthDelimited => do
      let _ ← delimited
      pure ()
  | some .startGroup =>
      match depth with
      | 0 => refuse
      | depth + 1 => do
          let ending ← skipMessage depth
          if ending = .endGroup (makeTag (getTagFieldNumber tag) .endGroup) then pure ()
          else refuse
  | some .endGroup => refuse
  | some .fixed32 => do
      let _ ← fixed32
      pure ()
  | none => refuse

/-- Skips at most `fuel` fields. -/
def skipMessageLoop : ℕ → ℕ → Parser Ending
  | 0, _ => refuse
  | fuel + 1, depth => fun bytes =>
      match front bytes with
      | .atEnd => some (.atEnd, [])
      | .stopped => some (.stopped, [])
      | .tag tag rest =>
          if getTagWireType tag = some .endGroup then some (.endGroup tag, rest)
          else
            (do
              skipFieldWith (skipMessageLoop fuel) depth tag
              skipMessageLoop fuel depth) rest

/-- Skips records up to an end. -/
def skipMessage (depth : ℕ) : Parser Ending := fun bytes =>
  skipMessageLoop (bytes.length + 1) depth bytes

/-- Skips the value after a tag. -/
def skipField (depth : ℕ) (tag : UInt32) : Parser Unit := skipFieldWith skipMessage depth tag

section SkipMessageLoop

variable {fuel depth : ℕ} {bytes rest : List UInt8} {tag : UInt32}

theorem skipMessageLoop_atEnd (found : front bytes = .atEnd) :
    skipMessageLoop (fuel + 1) depth bytes = some (.atEnd, []) := by
  simp only [skipMessageLoop, found]

theorem skipMessageLoop_stopped (found : front bytes = .stopped) :
    skipMessageLoop (fuel + 1) depth bytes = some (.stopped, []) := by
  simp only [skipMessageLoop, found]

theorem skipMessageLoop_endGroup (found : front bytes = .tag tag rest)
    (ends : getTagWireType tag = some .endGroup) :
    skipMessageLoop (fuel + 1) depth bytes = some (.endGroup tag, rest) := by
  simp only [skipMessageLoop, found, if_pos ends]

theorem skipMessageLoop_field (found : front bytes = .tag tag rest)
    (goes_on : getTagWireType tag ≠ some .endGroup) :
    skipMessageLoop (fuel + 1) depth bytes =
      (skipFieldWith (skipMessageLoop fuel) depth tag >>= fun _ =>
        skipMessageLoop fuel depth) rest := by
  simp only [skipMessageLoop, found, if_neg goes_on]

end SkipMessageLoop

/-! ## Parsers one after the other -/

section Bind

variable {α β : Type} {parse : Parser α} {more : α → Parser β} {bytes rest : List UInt8} {value : α}

theorem bind_of_some (parsed : parse bytes = some (value, rest)) :
    (parse >>= more) bytes = more value rest := by
  change (parse bytes).bind _ = _
  rw [parsed]
  rfl

theorem bind_of_none (refused : parse bytes = none) : (parse >>= more) bytes = none := by
  change (parse bytes).bind _ = _
  rw [refused]
  rfl

theorem exists_of_bind {result : β} (parsed : (parse >>= more) bytes = some (result, rest)) :
    ∃ value middle, parse bytes = some (value, middle) ∧
      more value middle = some (result, rest) := by
  rcases first : parse bytes with _ | ⟨value, middle⟩
  · rw [bind_of_none first] at parsed
    cases parsed
  · rw [bind_of_some first] at parsed
    exact ⟨value, middle, rfl, parsed⟩

end Bind

/-! ## What parsers consume -/

section Consumed

variable {α β : Type}

/-- The parser takes these bytes, whatever is behind them. -/
def Takes (parse : Parser α) (bytes : List UInt8) (value : α) : Prop :=
  ∀ behind, parse (bytes ++ behind) = some (value, behind)

/-- What has been parsed depends on what has been consumed. -/
def Local (parse : Parser α) : Prop :=
  ∀ bytes value rest, parse bytes = some (value, rest) →
    ∃ consumed, bytes = consumed ++ rest ∧ Takes parse consumed value

/-- No bytes are made up. -/
def Shrinks (parse : Parser α) : Prop :=
  ∀ bytes value rest, parse bytes = some (value, rest) → rest <:+ bytes

theorem Takes.pure (value : α) : Takes (pure value) [] value := fun _ => rfl

/-- What is taken in two parts is taken by their sequence. -/
theorem Takes.bind {parse : Parser α} {more : α → Parser β} {bytes after : List UInt8} {value : α}
    {result : β} (first : Takes parse bytes value) (second : Takes (more value) after result) :
    Takes (parse >>= more) (bytes ++ after) result := by
  intro behind
  rw [List.append_assoc, bind_of_some (first _)]
  exact second behind

theorem Takes.map {parse : Parser α} {bytes : List UInt8} {value : α}
    (takes : Takes parse bytes value) (convert : α → β) :
    Takes (parse >>= fun value => Pure.pure (convert value)) bytes (convert value) := by
  intro behind
  rw [bind_of_some (takes behind)]
  rfl

/-- Parsers that read nothing behind do so in sequence. -/
theorem Local.bind {parse : Parser α} {more : α → Parser β} (first : Local parse)
    (second : ∀ value, Local (more value)) : Local (parse >>= more) := by
  intro bytes result rest parsed
  rcases exists_of_bind parsed with ⟨value, middle, parsed_first, parsed_second⟩
  rcases first bytes value middle parsed_first with ⟨consumed, rfl, takes⟩
  rcases second value middle result rest parsed_second with ⟨further, rfl, takes_further⟩
  exact ⟨consumed ++ further, by rw [List.append_assoc], takes.bind takes_further⟩

theorem Local.pure (value : α) : Local (pure value) := by
  intro bytes result rest parsed
  cases parsed
  exact ⟨[], rfl, Takes.pure value⟩

theorem Local.refuse : Local (refuse : Parser α) :=
  fun _ _ _ parsed => nomatch parsed

theorem Local.shrinks {parse : Parser α} (is_local : Local parse) : Shrinks parse := by
  intro bytes value rest parsed
  rcases is_local bytes value rest parsed with ⟨consumed, rfl, _⟩
  exact List.suffix_append consumed rest

theorem Shrinks.bind {parse : Parser α} {more : α → Parser β} (first : Shrinks parse)
    (second : ∀ value, Shrinks (more value)) : Shrinks (parse >>= more) := by
  intro bytes result rest parsed
  rcases exists_of_bind parsed with ⟨value, middle, parsed_first, parsed_second⟩
  exact (second value middle result rest parsed_second).trans
    (first bytes value middle parsed_first)

theorem takes_take (bytes : List UInt8) : Takes (take bytes.length) bytes bytes := by
  intro behind
  rw [take, if_pos (by rw [List.length_append]; omega), List.take_left, List.drop_left]

theorem local_take (size : ℕ) : Local (take size) := by
  intro bytes value rest parsed
  rw [take] at parsed
  split at parsed
  · rename_i enough
    cases parsed
    have length_eq : (bytes.take size).length = size := by
      rw [List.length_take]
      omega
    have takes := takes_take (bytes.take size)
    rw [length_eq] at takes
    exact ⟨bytes.take size, (List.take_append_drop size bytes).symm, takes⟩
  · cases parsed

theorem local_varint : Local varint := by
  intro bytes value rest parsed
  rcases Varint.exists_consumed parsed with ⟨consumed, bytes_eq, _, _, _, again⟩
  exact ⟨consumed, bytes_eq, again⟩

theorem local_varint32 : Local varint32 := local_varint.bind fun _ => .pure _

theorem local_varint64 : Local varint64 := local_varint.bind fun _ => .pure _

theorem local_fixed32 : Local fixed32 := (local_take 4).bind fun _ => .pure _

theorem local_fixed64 : Local fixed64 := (local_take 8).bind fun _ => .pure _

theorem local_delimited : Local delimited := local_varint32.bind fun _ => local_take _

/-! ### Tags -/

/-- The shortest bytes of a number that fits. -/
theorem takes_varint32 {value : ℕ} (fits : value < 2 ^ 64) :
    Takes varint32 (Varint.encode value) (UInt32.ofNat value) := by
  intro behind
  have decoded : varint (Varint.encode value ++ behind) = some (value, behind) :=
    Varint.decode_encode (fits.trans (by decide)) (by decide) behind
  rw [varint32, bind_of_some decoded]
  rfl

/-- A tag in front is found whatever stands behind it. -/
theorem front_of_takes {bytes : List UInt8} {tag : UInt32} (takes : Takes varint32 bytes tag)
    (nonzero : tag ≠ 0) (behind : List UInt8) : front (bytes ++ behind) = .tag tag behind := by
  have nonempty : bytes ++ behind ≠ [] := by
    intro nothing
    have parsed := takes behind
    rw [nothing] at parsed
    cases parsed
  rw [front, if_neg nonempty, takes]
  exact if_neg nonzero

/-- A tag that has been found would be found with other bytes behind it. -/
theorem exists_front {bytes rest : List UInt8} {tag : UInt32}
    (found : front bytes = .tag tag rest) :
    ∃ consumed, bytes = consumed ++ rest ∧ 0 < consumed.length ∧ tag ≠ 0 ∧
      ∀ behind, front (consumed ++ behind) = .tag tag behind := by
  have nonempty : bytes ≠ [] := by
    intro nothing
    rw [nothing] at found
    cases found
  rw [front, if_neg nonempty] at found
  rcases parsed : varint32 bytes with _ | ⟨number, after⟩
  · rw [parsed] at found
    cases found
  · rw [parsed] at found
    by_cases zero : number = 0
    · simp [zero] at found
    · simp only [if_neg zero, Front.tag.injEq] at found
      rcases found with ⟨rfl, rfl⟩
      rcases local_varint32 bytes number after parsed with ⟨consumed, rfl, takes⟩
      refine ⟨consumed, rfl, ?_, zero, front_of_takes takes zero⟩
      apply List.length_pos_of_ne_nil
      rintro rfl
      have nothing_taken := takes []
      cases nothing_taken

end Consumed

end Wire

end Gsp.Protobuf
