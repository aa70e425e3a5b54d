import Gsp.Protobuf.Tags

/-!
# Skipped fields

Skipping a field of a coherent stream agrees with the parser of the wire format,
for any depth that the stream may still recurse and any number of fields in its
groups. The loop over the fields of a group ends, since each tag takes a byte.
-/

namespace Gsp.Protobuf.WireFormatLite

open CodedInputStream Wire

variable {α : Type} {stream next : CodedInputStream}

/-- How the skipping of a message agrees with the parser. -/
def SkipsMessage (stream : CodedInputStream) (outcome : Outcome Unit) :
    Option (Ending × List UInt8) → Prop
  | some (.endGroup tag, rest) =>
      ∃ next, outcome = .returned () next ∧ next.lastTag = tag ∧ Moved stream next rest
  | some (_, _) => ∃ next, outcome = .returned () next ∧ next.lastTag = 0 ∧ next.Releasable
  | none => ∃ next, outcome = .failed next ∧ next.Releasable

theorem SkipsMessage.of_moved {outcome : Outcome Unit} {middle : List UInt8}
    {parsed : Option (Ending × List UInt8)} (moved : Moved stream next middle)
    (skips : SkipsMessage next outcome parsed) : SkipsMessage stream outcome parsed := by
  rcases parsed with _ | ⟨_ | _ | tag, rest⟩
  · exact skips
  · exact skips
  · exact skips
  · rcases skips with ⟨last, returned, tag_eq, further⟩
    exact ⟨last, returned, tag_eq, moved.trans further⟩

theorem makeTag_ne_zero (fieldNumber : UInt32) : makeTag fieldNumber .endGroup ≠ 0 := by
  intro zero
  have bits := congrArg UInt32.toNat zero
  rw [makeTag, UInt32.toNat_or, UInt32.toNat_zero, Nat.or_eq_zero_iff] at bits
  exact absurd bits.2 (by decide)

/-- A tag that has been found takes a byte. -/
theorem length_lt_of_front {bytes rest : List UInt8} {tag : UInt32}
    (found : front bytes = .tag tag rest) : tag ≠ 0 ∧ rest.length < bytes.length := by
  rcases exists_front found with ⟨consumed, rfl, positive, nonzero, _⟩
  rw [List.length_append]
  exact ⟨nonzero, by omega⟩

/-- A group of fewer than `bound` bytes is skipped as the parser skips it. -/
def GroupAgrees (bound : ℕ) (skipGroup : Reader Unit) (parseGroup : ℕ → Parser Ending) : Prop :=
  ∀ (stream : CodedInputStream) (depth : ℕ), stream.Coherent →
    stream.recursionDepth + depth = stream.recursionLimit → stream.visible.length < bound →
    SkipsMessage stream (skipGroup stream) (parseGroup depth stream.visible)

section Group

variable {bound depth : ℕ} {skipGroup : Reader Unit} {parseGroup : ℕ → Parser Ending}

/-- A group, whose fields are skipped one level deeper. -/
theorem GroupAgrees.group (group : GroupAgrees bound skipGroup parseGroup)
    (coherent : stream.Coherent)
    (budget : stream.recursionDepth + (depth + 1) = stream.recursionLimit)
    (short : stream.visible.length < bound) {expected : UInt32} (nonzero : expected ≠ 0) :
    Agrees stream
      ((do
        incrementRecursionDepth
        skipGroup
        decrementRecursionDepth
        lastTagWas expected) stream)
      ((do
        let ending ← parseGroup depth
        if ending = .endGroup expected then pure () else refuse : Parser Unit) stream.visible) := by
  have deeper : incrementRecursionDepth stream =
      .returned () { stream with recursionDepth := stream.recursionDepth + 1 } :=
    if_pos (by dsimp only; omega)
  have skips := group _ depth (coherent.marked stream.lastTag stream.legitimateMessageEnd
    (stream.recursionDepth + 1)) (by dsimp only; omega) short
  have lowered (last : CodedInputStream) : decrementRecursionDepth last =
      .returned () { last with recursionDepth := last.recursionDepth - 1 } := rfl
  have shallower {last : CodedInputStream} (releasable : last.Releasable) :
      { last with recursionDepth := last.recursionDepth - 1 }.Releasable := releasable
  have same : { stream with recursionDepth := stream.recursionDepth + 1 }.visible =
      stream.visible := rfl
  rw [same] at skips
  rw [bind_of_returned deeper]
  rcases parsed : parseGroup depth stream.visible with _ | ⟨ending, rest⟩
  · rw [parsed] at skips
    rcases skips with ⟨last, failed, releasable⟩
    rw [bind_of_none parsed, bind_of_failed failed]
    exact ⟨last, rfl, releasable⟩
  · rw [parsed] at skips
    rw [bind_of_some parsed]
    cases ending with
    | endGroup tag =>
        rcases skips with ⟨last, returned, tag_eq, moved⟩
        rw [bind_of_returned returned, bind_of_returned (lowered last), lastTagWas]
        by_cases ends : tag = expected
        · rw [if_pos (tag_eq.trans ends), if_pos (congrArg Ending.endGroup ends)]
          have depth_eq : last.recursionDepth - 1 = stream.recursionDepth := by
            rw [moved.recursionDepth_eq]
            exact Nat.add_sub_cancel _ _
          exact ⟨_, rfl, ⟨moved.data_eq, moved.currentLimit_eq, moved.totalBytesLimit_eq,
            depth_eq, moved.recursionLimit_eq, moved.legitimate_eq⟩,
            moved.coherent.marked _ _ _, moved.visible_eq, moved.suffix⟩
        · rw [if_neg (fun same_tag => ends (tag_eq.symm.trans same_tag)),
            if_neg (ends ∘ Ending.endGroup.inj)]
          exact ⟨_, rfl, shallower moved.coherent.releasable⟩
    | atEnd =>
        rcases skips with ⟨last, returned, tag_eq, releasable⟩
        rw [bind_of_returned returned, bind_of_returned (lowered last), lastTagWas,
          if_neg (fun same_tag => nonzero (same_tag.symm.trans tag_eq)), if_neg (by simp)]
        exact ⟨_, rfl, shallower releasable⟩
    | stopped =>
        rcases skips with ⟨last, returned, tag_eq, releasable⟩
        rw [bind_of_returned returned, bind_of_returned (lowered last), lastTagWas,
          if_neg (fun same_tag => nonzero (same_tag.symm.trans tag_eq)), if_neg (by simp)]
        exact ⟨_, rfl, shallower releasable⟩

/-- One field of any wire type. -/
theorem GroupAgrees.field (group : GroupAgrees bound skipGroup parseGroup)
    (coherent : stream.Coherent) (budget : stream.recursionDepth + depth = stream.recursionLimit)
    (short : stream.visible.length < bound) (tag : UInt32) :
    Agrees stream (skipFieldWith skipGroup tag stream)
      (Wire.skipFieldWith parseGroup depth tag stream.visible) := by
  rw [skipFieldWith]
  unfold Wire.skipFieldWith
  cases getTagWireType tag with
  | none => exact Reads.fail stream coherent budget
  | some type =>
      cases type with
      | varint =>
          exact ((reads_readVarint64 depth).bind fun _ => .pure ()) stream coherent budget
      | fixed64 =>
          exact ((reads_readLittleEndian64 depth).bind fun _ => .pure ()) stream coherent budget
      | lengthDelimited =>
          have reads := (reads_readVarint32 depth).bind fun length => reads_skip depth length
          simp only [delimited, bind_assoc]
          exact reads stream coherent budget
      | startGroup =>
          cases depth with
          | zero =>
              have refused : incrementRecursionDepth stream =
                  .failed { stream with recursionDepth := stream.recursionDepth + 1 } :=
                if_neg (by dsimp only; omega)
              exact ⟨_, bind_of_failed refused, coherent.releasable⟩
          | succ depth =>
              exact group.group coherent budget short (makeTag_ne_zero _)
      | endGroup => exact Reads.fail stream coherent budget
      | fixed32 =>
          exact ((reads_readLittleEndian32 depth).bind fun _ => .pure ()) stream coherent budget

end Group

/-- The loop over the fields of a message agrees as far as both can count. -/
theorem groupAgrees_loop (fuel parserFuel : ℕ) :
    GroupAgrees (min fuel parserFuel) (skipMessageLoop fuel) (Wire.skipMessageLoop parserFuel) := by
  induction fuel generalizing parserFuel with
  | zero => exact fun _ _ _ _ short => absurd short (by omega)
  | succ fuel ih =>
      cases parserFuel with
      | zero => exact fun _ _ _ _ short => absurd short (by omega)
      | succ parserFuel =>
          intro stream depth coherent budget short
          rcases coherent.readTag budget with ⟨finds, found, next, returned, tag_eq⟩
          rw [skipMessageLoop, bind_of_returned returned]
          rw [returned] at finds
          rcases front_eq : front stream.visible with _ | _ | ⟨tag, rest⟩
          · rw [front_eq] at finds
            rcases finds with ⟨last, same, moved⟩
            cases same
            rw [Wire.skipMessageLoop_atEnd front_eq]
            exact ⟨next, rfl, tag_eq, moved.coherent.releasable⟩
          · rw [front_eq] at finds
            rcases finds with ⟨last, same, alike, releasable⟩
            cases same
            rw [Wire.skipMessageLoop_stopped front_eq]
            exact ⟨next, rfl, tag_eq, releasable⟩
          · rw [front_eq] at finds
            rcases finds with ⟨last, same, moved⟩
            cases same
            rcases length_lt_of_front front_eq with ⟨nonzero, shorter⟩
            have budget_next : next.recursionDepth + depth = next.recursionLimit := by
              rw [moved.recursionDepth_eq, moved.recursionLimit_eq]
              exact budget
            have visible_eq := moved.visible_eq
            rw [if_neg nonzero]
            by_cases ends : getTagWireType found = some .endGroup
            · rw [if_pos ends, Wire.skipMessageLoop_endGroup front_eq ends]
              exact ⟨next, rfl, tag_eq, moved⟩
            · rw [if_neg ends, Wire.skipMessageLoop_field front_eq ends]
              have field := (ih parserFuel).field moved.coherent budget_next
                (by rw [visible_eq]; omega) found
              rw [visible_eq] at field
              rcases parsed : Wire.skipFieldWith (Wire.skipMessageLoop parserFuel) depth found rest
                with _ | ⟨_, after⟩
              · rw [parsed] at field
                rcases field with ⟨last, failed, releasable⟩
                rw [bind_of_failed failed, bind_of_none parsed]
                exact ⟨last, rfl, releasable⟩
              · rw [parsed] at field
                rcases field with ⟨last, skipped, further⟩
                have suffix_length := further.suffix.length_le
                rw [visible_eq] at suffix_length
                have budget_last : last.recursionDepth + depth = last.recursionLimit := by
                  rw [further.recursionDepth_eq, further.recursionLimit_eq]
                  exact budget_next
                have again := ih parserFuel last depth further.coherent budget_last
                  (by rw [further.visible_eq]; omega)
                rw [further.visible_eq] at again
                rw [bind_of_returned skipped, bind_of_some parsed]
                exact again.of_moved (moved.trans further)

/-- All that is visible is left to be read. -/
theorem length_visible_le (coherent : stream.Coherent) :
    stream.visible.length ≤ stream.bytesLeft := by
  have visible_length := coherent.visible_length
  have position_add := coherent.position_add
  have read_eq := coherent.read_eq
  rw [bytesLeft, ArrayInputStream.remaining, List.length_drop]
  omega

/-- Skipping a field agrees with the parser. -/
theorem agrees_skipField (coherent : stream.Coherent) {depth : ℕ}
    (budget : stream.recursionDepth + depth = stream.recursionLimit) (tag : UInt32) :
    Agrees stream (skipField tag stream) (Wire.skipField depth tag stream.visible) := by
  have group : GroupAgrees (stream.visible.length + 1) skipMessage Wire.skipMessage := by
    intro stream depth coherent budget _
    have long := length_visible_le coherent
    exact groupAgrees_loop (stream.bytesLeft + 1) (stream.visible.length + 1) stream depth coherent
      budget (by omega)
  exact group.field coherent budget (Nat.lt_succ_self _) tag

end Gsp.Protobuf.WireFormatLite
