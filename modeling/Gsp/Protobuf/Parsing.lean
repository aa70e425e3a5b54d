import Mathlib.Data.List.Nodup
import Gsp.Protobuf.MessageFormat
import Gsp.Protobuf.SkipField

/-!
# Parsed messages

The code that is generated for a message reads it as its schema says. After a
field the code expects the tag of the next one and goes on there without a turn
of its loop, which reads the same records as the loop would.

A nested message ends at its limit if its format ends with its bytes, and the
limit is taken back behind them.
-/

namespace Gsp.Protobuf

open CodedInputStream WireFormatLite Wire Generated

variable {M N : Type} {stream next : CodedInputStream} {depth : ℕ}

/-! ## Before the end of a message -/

/-- The stream may recurse `depth` times and has not found a message end. -/
structure Inside (stream : CodedInputStream) (depth : ℕ) : Prop where
  coherent : stream.Coherent
  budget : stream.recursionDepth + depth = stream.recursionLimit
  unended : stream.legitimateMessageEnd = false

theorem Inside.moved {rest : List UInt8} (inside : Inside stream depth)
    (moved : Moved stream next rest) : Inside next depth where
  coherent := moved.coherent
  budget := by
    rw [moved.recursionDepth_eq, moved.recursionLimit_eq]
    exact inside.budget
  unended := moved.legitimate_eq.trans inside.unended

/-- How the merging of a message agrees with its format. -/
def Merges (stream : CodedInputStream) (outcome : Outcome M) :
    Option ((M × Ending) × List UInt8) → Prop
  | some ((message, .atEnd), _) =>
      ∃ next, outcome = .returned message next ∧ Moved stream.atMessageEnd next []
  | some ((message, .stopped), _) =>
      ∃ next, outcome = .returned message next ∧ Alike stream next ∧ next.Releasable
  | some ((message, .endGroup _), rest) =>
      ∃ next, outcome = .returned message next ∧ Moved stream next rest
  | none => ∃ next, outcome = .failed next ∧ next.Releasable

theorem Merges.of_moved {outcome : Outcome M} {middle : List UInt8}
    {parsed : Option ((M × Ending) × List UInt8)} (moved : Moved stream next middle)
    (merges : Merges next outcome parsed) : Merges stream outcome parsed := by
  rcases parsed with _ | ⟨⟨message, _ | _ | tag⟩, rest⟩
  · exact merges
  · rcases merges with ⟨last, returned, further⟩
    exact ⟨last, returned, moved.atMessageEnd.trans further⟩
  · rcases merges with ⟨last, returned, alike, releasable⟩
    exact ⟨last, returned, moved.toAlike.trans alike, releasable⟩
  · rcases merges with ⟨last, returned, further⟩
    exact ⟨last, returned, moved.trans further⟩

/-- A call within a message and the merging that comes after it. -/
theorem Merges.bind {α : Type} {read : Reader α} {parse : Parser α} {more : α → Reader M}
    {parseMore : α → Parser (M × Ending)} {bytes : List UInt8}
    (first : Agrees stream (read stream) (parse bytes))
    (second : ∀ value next rest, Moved stream next rest →
      Merges next (more value next) (parseMore value rest)) :
    Merges stream ((read >>= more) stream) ((parse >>= parseMore) bytes) := by
  rcases parsed : parse bytes with _ | ⟨value, rest⟩
  · rw [parsed] at first
    rcases first with ⟨next, failed, releasable⟩
    rw [Wire.bind_of_none parsed]
    exact ⟨next, bind_of_failed failed, releasable⟩
  · rw [parsed] at first
    rcases first with ⟨next, returned, moved⟩
    rw [Wire.bind_of_some parsed, bind_of_returned returned]
    exact (second value next rest moved).of_moved moved

/-! ## Fields -/

/-- The code for a field reads what the rule says. -/
structure Field.ReadsAs (field : Field M) (rule : Rule M) : Prop where
  small : field.number.toNat < 2 ^ 29
  tag_eq : rule.tag = makeTag field.number field.wireType
  tag_ne_zero : rule.tag ≠ 0
  reads : ∀ (message : M) (stream : CodedInputStream) (depth : ℕ), Inside stream depth →
    Agrees stream (field.parse message stream) (rule.read depth message stream.visible)

/-- Each field expects the tag of the next one. -/
def Chained : List (Field M) → Prop
  | [] => True
  | [field] => field.expected = none
  | field :: next :: fields =>
      field.expected = some (makeTag next.number next.wireType) ∧ Chained (next :: fields)

theorem Chained.tail {field : Field M} {fields : List (Field M)}
    (chained : Chained (field :: fields)) : Chained fields := by
  cases fields with
  | nil => trivial
  | cons next fields => exact chained.2

/-- The code for a message reads what the schema says. -/
structure ParsesAs (M : Type) [Generated M] (schema : Schema M) : Prop where
  fields_read : List.Forall₂ Field.ReadsAs (fields : List (Field M)) schema
  chained : Chained (fields : List (Field M))
  distinct : ((fields : List (Field M)).map (·.number)).Nodup

section Lookup

variable {listed : List (Field M)} {schema : Schema M}

theorem find_eq_none (listed_read : List.Forall₂ Field.ReadsAs listed schema) {tag : UInt32}
    (absent : getTagFieldNumber tag ∉ listed.map (·.number)) :
    schema.find? (·.tag = tag) = none := by
  induction listed_read with
  | nil => rfl
  | cons reads _ ih =>
      rw [List.map_cons, List.mem_cons, not_or] at absent
      have other : ¬_ = tag := fun same =>
        absent.1 ((eq_makeTag_iff reads.small).mp (same.symm.trans reads.tag_eq)).1
      rw [List.find?_cons_of_neg (by simpa using other)]
      exact ih absent.2

/-- The label that a tag leads to, unless the field is not read. -/
theorem lookup (listed_read : List.Forall₂ Field.ReadsAs listed schema)
    (distinct : (listed.map (·.number)).Nodup) (chained : Chained listed) (tag : UInt32) :
    (∃ field rest rule rules, listed.dropWhile (·.number ≠ getTagFieldNumber tag) = field :: rest ∧
      getTagWireType tag = some field.wireType ∧ schema.find? (·.tag = tag) = some rule ∧
      List.Forall₂ Field.ReadsAs (field :: rest) (rule :: rules) ∧ (rule :: rules) <:+ schema ∧
      Chained (field :: rest)) ∨
    (schema.find? (·.tag = tag) = none ∧
      ∀ field rest, listed.dropWhile (·.number ≠ getTagFieldNumber tag) = field :: rest →
        getTagWireType tag ≠ some field.wireType) := by
  induction listed_read with
  | nil => exact Or.inr ⟨rfl, fun _ _ found => nomatch found⟩
  | @cons field rule listed schema reads listed_read ih =>
      rw [List.map_cons, List.nodup_cons] at distinct
      by_cases here : getTagFieldNumber tag = field.number
      · have stays : (field :: listed).dropWhile (·.number ≠ getTagFieldNumber tag) =
            field :: listed :=
          List.dropWhile_cons_of_neg (by simp [here])
        by_cases typed : getTagWireType tag = some field.wireType
        · left
          have same : rule.tag = tag :=
            reads.tag_eq.trans ((eq_makeTag_iff reads.small).mpr ⟨here, typed⟩).symm
          exact ⟨field, listed, rule, schema, stays, typed,
            List.find?_cons_of_pos (by simpa using same), .cons reads listed_read,
            List.suffix_refl _, chained⟩
        · right
          have other : rule.tag ≠ tag := fun same =>
            typed ((eq_makeTag_iff reads.small).mp (same.symm.trans reads.tag_eq)).2
          constructor
          · rw [List.find?_cons_of_neg (by simpa using other)]
            exact find_eq_none listed_read (here ▸ distinct.1)
          · intro found rest stopped
            rw [stays] at stopped
            injection stopped with same
            exact same ▸ typed
      · have other : rule.tag ≠ tag := fun same =>
          here ((eq_makeTag_iff reads.small).mp (same.symm.trans reads.tag_eq)).1
        have goes_on : (field :: listed).dropWhile (·.number ≠ getTagFieldNumber tag) =
            listed.dropWhile (·.number ≠ getTagFieldNumber tag) :=
          List.dropWhile_cons_of_pos (by simpa using Ne.symm here)
        rw [goes_on, List.find?_cons_of_neg (by simpa using other)]
        rcases ih distinct.2 chained.tail with
          ⟨found, rest, known, rules, stops, typed, is_known, rest_read, suffix, rest_chained⟩ |
          absent
        · exact Or.inl ⟨found, rest, known, rules, stops, typed, is_known, rest_read,
            suffix.trans (List.suffix_cons _ _), rest_chained⟩
        · exact Or.inr absent

theorem nodup_tags (listed_read : List.Forall₂ Field.ReadsAs listed schema)
    (distinct : (listed.map (·.number)).Nodup) : (schema.map (·.tag)).Nodup := by
  have numbers : (schema.map (·.tag)).map getTagFieldNumber = listed.map (·.number) := by
    clear distinct
    induction listed_read with
    | nil => rfl
    | cons reads _ ih =>
        rw [List.map_cons, List.map_cons, List.map_cons, ih,
          ((eq_makeTag_iff reads.small).mp reads.tag_eq).1]
  rw [← numbers] at distinct
  exact List.Nodup.of_map _ distinct

end Lookup

/-! ## The loop over the fields -/

section Loop

variable [Generated M] {schema : Schema M}

/-- The loop agrees with the format as far as both can count. -/
def LoopAgrees (schema : Schema M) (fuel parserFuel : ℕ) : Prop :=
  ∀ (message : M) (stream : CodedInputStream) (depth : ℕ), Inside stream depth →
    stream.visible.length < min fuel parserFuel →
    Merges stream (mergePartialLoop fuel message stream)
      (schema.readLoop depth parserFuel message stream.visible)

/-- What the loop does once the fields that follow each other have been read. -/
def afterFields (fuel : ℕ) (parsed : M × Bool) : Reader M :=
  if parsed.2 then pure parsed.1 else mergePartialLoop fuel parsed.1

theorem parseFields_last {fuel : ℕ} {field : Field M} {listed : List (Field M)}
    (last : field.expected = none) (message : M) :
    parseFields (field :: listed) message >>= afterFields fuel =
      field.parse message >>= fun message =>
        expectAtEnd >>= fun ended => afterFields fuel (message, ended) := by
  simp only [parseFields, last, bind_assoc, pure_bind]

theorem parseFields_following {fuel : ℕ} {field : Field M} {listed : List (Field M)} {tag : UInt32}
    (expected : field.expected = some tag) (message : M) :
    parseFields (field :: listed) message >>= afterFields fuel =
      field.parse message >>= fun message => expectTag tag >>= fun found =>
        if found then parseFields listed message >>= afterFields fuel
        else mergePartialLoop fuel message := by
  simp only [parseFields, expected, bind_assoc]
  congr 1
  funext message
  congr 1
  funext found
  cases found <;> rfl

/-- Fields that follow each other are read as the loop would read them. -/
theorem merges_parseFields {fuel : ℕ}
    (loop : ∀ parserFuel, LoopAgrees schema fuel parserFuel)
    (known : ∀ rule ∈ schema, schema.find? (·.tag = rule.tag) = some rule)
    {field : Field M} {listed : List (Field M)} {rule : Rule M} {rules : Schema M}
    (listed_read : List.Forall₂ Field.ReadsAs (field :: listed) (rule :: rules))
    (suffix : (rule :: rules) <:+ schema) (chained : Chained (field :: listed))
    (parserFuel : ℕ) (message : M) (inside : Inside stream depth)
    (short : stream.visible.length < min fuel parserFuel) :
    Merges stream ((parseFields (field :: listed) message >>= afterFields fuel) stream)
      ((rule.read depth message >>= schema.readLoop depth parserFuel) stream.visible) := by
  induction listed generalizing field rule rules parserFuel message stream with
  | nil =>
      rcases listed_read with _ | ⟨reads, _⟩
      have last : field.expected = none := chained
      rw [parseFields_last last]
      refine Merges.bind (reads.reads message stream depth inside) ?_
      intro value next rest moved
      have inside_next := inside.moved moved
      have suffix_length := moved.suffix.length_le
      have next_short : next.visible.length < min fuel parserFuel := by
        rw [moved.visible_eq]
        omega
      have goes_on := loop parserFuel value next depth inside_next next_short
      rw [moved.visible_eq] at goes_on
      rcases inside_next.coherent.expectAtEnd with
        unknown | ⟨last, ended, at_end, found⟩
      · rw [bind_of_returned unknown]
        exact goes_on
      · cases parserFuel with
        | zero => omega
        | succ parserFuel =>
            rw [moved.visible_eq] at found
            rw [bind_of_returned ended, Schema.readLoop_atEnd found]
            exact ⟨last, rfl, at_end⟩
  | cons following listed ih =>
      rcases listed_read with _ | ⟨reads, rest_read⟩
      rcases rest_read with _ | ⟨following_reads, rest_read⟩
      rename_i following_rule rules
      rcases chained with ⟨expected, rest_chained⟩
      have tag_mem : following_rule ∈ schema :=
        suffix.mem (List.mem_cons_of_mem _ List.mem_cons_self)
      rw [← following_reads.tag_eq] at expected
      rw [parseFields_following expected]
      refine Merges.bind (reads.reads message stream depth inside) ?_
      intro value next rest moved
      have inside_next := inside.moved moved
      have suffix_length := moved.suffix.length_le
      have next_short : next.visible.length < min fuel parserFuel := by
        rw [moved.visible_eq]
        omega
      rcases inside_next.coherent.expectTag following_reads.tag_ne_zero with
        unknown | ⟨last, after, expected_tag, further, found⟩
      · have goes_on := loop parserFuel value next depth inside_next next_short
        rw [moved.visible_eq] at goes_on
        rw [bind_of_returned unknown]
        exact goes_on
      · cases parserFuel with
        | zero => omega
        | succ parserFuel =>
            rcases length_lt_of_front found with ⟨_, shorter⟩
            rw [moved.visible_eq] at found
            have last_short : last.visible.length < min fuel parserFuel := by
              rw [further.visible_eq]
              omega
            have goes_on := ih (.cons following_reads rest_read)
              ((List.suffix_cons _ _).trans suffix) rest_chained parserFuel value
              (inside_next.moved further) last_short
            rw [further.visible_eq] at goes_on
            rw [bind_of_returned expected_tag,
              Schema.readLoop_known found (known following_rule tag_mem)]
            exact goes_on.of_moved further

/-- What the loop does with a tag. -/
def withTag (fuel : ℕ) (message : M) (tag : UInt32) : Reader M :=
  match (fields : List (Field M)).dropWhile (·.number ≠ getTagFieldNumber tag) with
  | field :: rest =>
      if getTagWireType tag = some field.wireType then
        parseFields (field :: rest) message >>= afterFields fuel
      else if getTagWireType tag = some .endGroup then pure message
      else skipField tag >>= fun _ => mergePartialLoop fuel message
  | [] =>
      if getTagWireType tag = some .endGroup then pure message
      else skipField tag >>= fun _ => mergePartialLoop fuel message

theorem mergePartialLoop_succ (fuel : ℕ) (message : M) :
    mergePartialLoop (fuel + 1) message = readTag >>= fun tag =>
      if tag = 0 then pure message else withTag fuel message tag :=
  rfl

theorem withTag_known {fuel : ℕ} {message : M} {tag : UInt32} {field : Field M}
    {rest : List (Field M)}
    (stops : (fields : List (Field M)).dropWhile (·.number ≠ getTagFieldNumber tag) =
      field :: rest)
    (typed : getTagWireType tag = some field.wireType) :
    withTag fuel message tag = parseFields (field :: rest) message >>= afterFields fuel := by
  simp only [withTag, stops, if_pos typed]

/-- A field that is not known, or that has another wire type. -/
theorem withTag_unknown {fuel : ℕ} {message : M} {tag : UInt32}
    (unknown : ∀ field rest,
      (fields : List (Field M)).dropWhile (·.number ≠ getTagFieldNumber tag) = field :: rest →
        getTagWireType tag ≠ some field.wireType) :
    withTag fuel message tag =
      if getTagWireType tag = some .endGroup then pure message
      else skipField tag >>= fun _ => mergePartialLoop fuel message := by
  rw [withTag]
  split
  · rename_i field rest stops
    rw [if_neg (unknown field rest stops)]
  · rfl

theorem ParsesAs.loop (parses : ParsesAs M schema) (fuel parserFuel : ℕ) :
    LoopAgrees schema fuel parserFuel := by
  induction fuel generalizing parserFuel with
  | zero => exact fun _ _ _ _ short => absurd short (by omega)
  | succ fuel ih =>
      cases parserFuel with
      | zero => exact fun _ _ _ _ short => absurd short (by omega)
      | succ parserFuel =>
          intro message stream depth inside short
          rcases inside.coherent.readTag inside.budget with ⟨finds, found, next, returned, _⟩
          rw [mergePartialLoop_succ, bind_of_returned returned]
          rw [returned] at finds
          rcases front_eq : front stream.visible with _ | _ | ⟨tag, rest⟩
          · rw [front_eq] at finds
            rcases finds with ⟨last, same, moved⟩
            cases same
            rw [Schema.readLoop_atEnd front_eq]
            exact ⟨next, rfl, moved⟩
          · rw [front_eq] at finds
            rcases finds with ⟨last, same, alike, releasable⟩
            cases same
            rw [Schema.readLoop_stopped front_eq]
            exact ⟨next, rfl, alike, releasable⟩
          · rw [front_eq] at finds
            rcases finds with ⟨last, same, moved⟩
            cases same
            rcases length_lt_of_front front_eq with ⟨nonzero, shorter⟩
            have inside_next := inside.moved moved
            have visible_eq := moved.visible_eq
            have next_short : next.visible.length < min fuel parserFuel := by
              rw [visible_eq]
              omega
            rw [if_neg nonzero]
            rcases lookup parses.fields_read parses.distinct parses.chained found with
              ⟨field, following, rule, rules, stops, typed, known, rest_read, suffix, chained⟩ |
              ⟨unknown, mistyped⟩
            · have goes_on := merges_parseFields ih
                (fun _ => Schema.find_of_mem (nodup_tags parses.fields_read parses.distinct))
                rest_read suffix chained parserFuel message inside_next next_short
              rw [visible_eq] at goes_on
              rw [withTag_known stops typed, Schema.readLoop_known front_eq known]
              exact goes_on.of_moved moved
            · rw [withTag_unknown mistyped]
              by_cases ends : getTagWireType found = some .endGroup
              · rw [if_pos ends, Schema.readLoop_endGroup front_eq unknown ends]
                exact ⟨next, rfl, moved⟩
              · rw [if_neg ends, Schema.readLoop_unknown front_eq unknown ends]
                have skips := agrees_skipField inside_next.coherent inside_next.budget found
                rw [visible_eq] at skips
                refine Merges.of_moved moved (Merges.bind skips ?_)
                intro _ last after further
                have suffix_length := further.suffix.length_le
                have again := ih parserFuel message last depth (inside_next.moved further)
                  (by rw [further.visible_eq]; omega)
                rwa [further.visible_eq] at again

/-- Merging a message agrees with its format. -/
theorem ParsesAs.merges (parses : ParsesAs M schema) (inside : Inside stream depth) (message : M) :
    Merges stream (mergePartialFromCodedStream message stream)
      (schema.read depth message stream.visible) := by
  have long := length_visible_le inside.coherent
  exact parses.loop _ _ message stream depth inside (by omega)

/-! ## Nested messages -/

/-- What `ConsumedEntireMessage` accepts. -/
theorem consumed_of_moved {inner last : CodedInputStream}
    (moved : Moved inner.atMessageEnd last []) : consumedEntireMessage last = .returned () last :=
  if_pos moved.legitimate_eq

theorem unconsumed_of_alike {inner last : CodedInputStream} (inside : Inside inner depth)
    (alike : Alike inner last) : consumedEntireMessage last = .failed last :=
  if_neg (by rw [alike.legitimate_eq, inside.unended]; exact Bool.false_ne_true)

/-- A message up to a limit, which is taken back once the message has ended with it. -/
theorem ParsesAs.within (parses : ParsesAs M schema) (inside : Inside stream (depth + 1))
    (length : UInt32) (value : M) :
    Agrees stream
      ((do
        incrementRecursionDepth
        let limit ← pushLimit length.toInt32.toInt
        let value ← mergePartialFromCodedStream value
        consumedEntireMessage
        popLimit limit
        decrementRecursionDepth
        pure value) stream)
      (within length.toNat (schema.read depth value) stream.visible) := by
  have budget := inside.budget
  have deeper : incrementRecursionDepth stream =
      .returned () { stream with recursionDepth := stream.recursionDepth + 1 } :=
    if_pos (by dsimp only; omega)
  have coherent := inside.coherent.marked stream.lastTag stream.legitimateMessageEnd
    (stream.recursionDepth + 1)
  rcases coherent.pushLimit length with
    ⟨inner, pushed, inner_coherent, inner_visible, inner_position, inner_alike⟩
  have inside_inner : Inside inner depth := by
    refine ⟨inner_coherent, ?_, inner_alike.legitimate_eq.trans inside.unended⟩
    rw [inner_alike.recursionDepth_eq, inner_alike.recursionLimit_eq]
    dsimp only
    omega
  have same : { stream with recursionDepth := stream.recursionDepth + 1 }.visible =
      stream.visible := rfl
  have merges := parses.merges inside_inner value
  rw [inner_visible, same] at merges
  rw [bind_of_returned deeper, bind_of_returned pushed]
  rw [bind_apply, Wire.within]
  rcases parsed : schema.read depth value (stream.visible.take length.toNat) with
    _ | ⟨⟨merged, _ | _ | tag⟩, rest⟩
  · rw [parsed] at merges
    rcases merges with ⟨last, failed, releasable⟩
    rw [failed]
    exact ⟨last, rfl, releasable⟩
  · rw [parsed] at merges
    rcases merges with ⟨last, returned, moved⟩
    rcases coherent.popLimit inner_coherent inner_visible inner_position inner_alike moved with
      ⟨popped, limit_popped, further⟩
    simp only [returned]
    rw [bind_of_returned (consumed_of_moved moved), bind_of_returned limit_popped]
    have depth_eq : popped.recursionDepth - 1 = stream.recursionDepth := by
      rw [further.recursionDepth_eq]
      exact Nat.add_sub_cancel _ _
    exact ⟨_, rfl, ⟨further.data_eq, further.currentLimit_eq, further.totalBytesLimit_eq,
      depth_eq, further.recursionLimit_eq, further.legitimate_eq.trans inside.unended.symm⟩,
      further.coherent.marked _ _ _, further.visible_eq, further.suffix⟩
  · rw [parsed] at merges
    rcases merges with ⟨last, returned, alike, releasable⟩
    simp only [returned]
    exact ⟨last, bind_of_failed (unconsumed_of_alike inside_inner alike), releasable⟩
  · rw [parsed] at merges
    rcases merges with ⟨last, returned, moved⟩
    simp only [returned]
    exact ⟨last, bind_of_failed (unconsumed_of_alike inside_inner moved.toAlike),
      moved.coherent.releasable⟩

/-- A nested message, which is one level deeper. -/
theorem ParsesAs.readMessageNoVirtual (parses : ParsesAs M schema) (inside : Inside stream depth)
    (old : Option M) :
    Agrees stream (Field.readMessageNoVirtual (old.getD Generated.construct) stream)
      ((Codec.message Generated.construct schema).read depth old stream.visible) := by
  refine Agrees.bind (reads_readVarint32 depth stream inside.coherent inside.budget) ?_
  intro length next rest moved
  have inside_next := inside.moved moved
  rw [← moved.visible_eq]
  cases depth with
  | zero =>
      have budget := inside_next.budget
      have refused : incrementRecursionDepth next =
          .failed { next with recursionDepth := next.recursionDepth + 1 } :=
        if_neg (by dsimp only; omega)
      exact ⟨_, bind_of_failed refused, inside_next.coherent.releasable⟩
  | succ depth => exact parses.within inside_next length (old.getD Generated.construct)

end Loop

/-! ## The kinds of fields -/

namespace Field

/-- A value that is read into its member. -/
theorem agrees_member {V : Type} {member : Member M V} {codec : Codec V} {number : UInt32}
    {readValue : Reader V} {message : M} (inside : Inside stream depth)
    (reads : Agrees stream (readValue stream)
      (codec.read depth (member.get message) stream.visible)) :
    Agrees stream ((readValue >>= fun value => pure (member.set value message)) stream)
      ((Rule.of number codec member).read depth message stream.visible) := by
  refine Agrees.bind reads ?_
  intro value next rest moved
  have same := moved.visible_eq
  subst same
  exact Reads.pure _ next (inside.moved moved).coherent (inside.moved moved).budget

variable {number : UInt32} {expected : Option UInt32} (small : number.toNat < 2 ^ 29)

include small

theorem readsAs_int32 (member : Member M Int32) (nonzero : makeTag number .varint ≠ 0) :
    (int32 number member expected).ReadsAs (.of number .int32 member) := by
  refine ⟨small, rfl, nonzero, ?_⟩
  intro message stream depth inside
  have reads : Reads depth readInt32 (Codec.int32.read depth (member.get message)) :=
    (reads_readVarint32 depth).bind fun _ => .pure _
  exact agrees_member inside (reads stream inside.coherent inside.budget)

theorem readsAs_float (member : Member M UInt32) (nonzero : makeTag number .fixed32 ≠ 0) :
    (float number member expected).ReadsAs (.of number .float member) := by
  refine ⟨small, rfl, nonzero, ?_⟩
  intro message stream depth inside
  exact agrees_member inside
    (reads_readLittleEndian32 depth stream inside.coherent inside.budget)

theorem readsAs_string (member : Member M (List UInt8))
    (nonzero : makeTag number .lengthDelimited ≠ 0) :
    (string number member expected).ReadsAs (.of number .string member) := by
  refine ⟨small, rfl, nonzero, ?_⟩
  intro message stream depth inside
  have reads : Reads depth readStringField (Codec.string.read depth (member.get message)) :=
    (reads_readVarint32 depth).bind fun length => reads_readString depth length
  exact agrees_member inside (reads stream inside.coherent inside.budget)

theorem readsAs_message [Generated N] {schema : Schema N} (parses : ParsesAs N schema)
    (member : Member M N) (nonzero : makeTag number .lengthDelimited ≠ 0) :
    (Field.message number member expected).ReadsAs
      (.of number (.message Generated.construct schema) member) := by
  refine ⟨small, rfl, nonzero, ?_⟩
  intro message stream depth inside
  exact agrees_member inside (parses.readMessageNoVirtual inside (member.get message))

end Field

/-! ## Whole messages -/

/-- The stream before its constructor refreshes it. -/
def unread (input : ArrayInputStream) : CodedInputStream where
  input := input
  buffer := []
  afterLimit := []
  totalBytesRead := 0
  overflowBytes := 0
  lastTag := 0
  legitimateMessageEnd := false
  currentLimit := intMax
  totalBytesLimit := kDefaultTotalBytesLimit
  recursionDepth := 0
  recursionLimit := defaultRecursionLimit

theorem inside_unread {data : List UInt8} (short : data.length < kDefaultTotalBytesLimit)
    (blockSize : ℤ) :
    Inside (unread (.construct data blockSize)) defaultRecursionLimit ∧
      (unread (.construct data blockSize)).visible = data := by
  have limit_le : kDefaultTotalBytesLimit ≤ intMax := by decide
  have none_after : 0 = 0 - intMax := (Nat.zero_sub intMax).symm
  have visible_eq : (unread (.construct data blockSize)).visible = data.take (intMax - 0) := rfl
  have budget : 0 + defaultRecursionLimit = defaultRecursionLimit := Nat.zero_add _
  constructor
  · exact ⟨⟨⟨rfl, rfl, Nat.zero_le _, short, limit_le, Nat.zero_le _, rfl, Nat.zero_le _,
      Or.inl rfl⟩, none_after⟩, budget, rfl⟩
  · rw [visible_eq, Nat.sub_zero, List.take_of_length_le (short.le.trans limit_le)]

/-- A stream as it is constructed shows the whole array. -/
theorem inside_construct {data : List UInt8} (short : data.length < kDefaultTotalBytesLimit)
    (blockSize : ℤ) :
    Inside (CodedInputStream.construct (.construct data blockSize)) defaultRecursionLimit ∧
      (CodedInputStream.construct (.construct data blockSize)).visible = data := by
  rcases inside_unread short blockSize with ⟨inside, visible_eq⟩
  have constructed : CodedInputStream.construct (.construct data blockSize) =
      (unread (.construct data blockSize)).refresh.2 := rfl
  rw [constructed]
  rcases inside.coherent.refresh rfl with
    ⟨nothing, next, refreshed, _, moved⟩ | ⟨next, refreshed, _, moved⟩
  · rw [refreshed]
    exact ⟨inside.moved moved, moved.visible_eq.trans (nothing.symm.trans visible_eq)⟩
  · rw [refreshed]
    exact ⟨inside.moved moved, moved.visible_eq.trans visible_eq⟩

/-- What a parser of messages returns. -/
def Parses (outcome : Outcome M) : Option M → Prop
  | some message => ∃ last, outcome = .returned message last ∧ last.Releasable
  | none => ∃ last, outcome = .failed last ∧ last.Releasable

/-- The blocks of an array do not matter to what is parsed. -/
theorem ParsesAs.parseFromCodedStream [Generated M] {schema : Schema M}
    (parses : ParsesAs M schema) {data : List UInt8}
    (short : data.length < kDefaultTotalBytesLimit) (blockSize : ℤ) (message : M) :
    Parses (MessageLite.parseFromCodedStream message
        (CodedInputStream.construct (.construct data blockSize)))
      (schema.parse isInitialized (clear message) data) := by
  rcases inside_construct short blockSize with ⟨inside, visible_eq⟩
  have merges := parses.merges inside (clear message)
  have checked {merged : M} {last : CodedInputStream} (releasable : last.Releasable) :
      Parses ((if isInitialized merged then pure merged else fail : Reader M) last)
        (if isInitialized merged then some merged else none) := by
    split
    · exact ⟨last, rfl, releasable⟩
    · exact ⟨last, rfl, releasable⟩
  rw [visible_eq] at merges
  rw [MessageLite.parseFromCodedStream, Schema.parse]
  rcases parsed : schema.read defaultRecursionLimit (clear message) data with
    _ | ⟨⟨merged, _ | _ | tag⟩, rest⟩
  · rw [parsed] at merges
    rcases merges with ⟨last, failed, releasable⟩
    exact ⟨last, bind_of_failed failed, releasable⟩
  · rw [parsed] at merges
    rcases merges with ⟨last, returned, moved⟩
    rw [bind_of_returned returned]
    exact checked moved.coherent.releasable
  · rw [parsed] at merges
    rcases merges with ⟨last, returned, alike, releasable⟩
    rw [bind_of_returned returned]
    exact checked releasable
  · rw [parsed] at merges
    rcases merges with ⟨last, returned, moved⟩
    rw [bind_of_returned returned]
    exact checked moved.coherent.releasable

end Gsp.Protobuf
