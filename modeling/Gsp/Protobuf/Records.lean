import Gsp.Protobuf.MessageFormat

/-!
# Records of the wire format

A message is read record by record: those of its fields in any order, and others
that are skipped with all that is nested in them. What has been skipped would be
skipped in the same way whatever bytes stood behind it.
-/

namespace Gsp.Protobuf.Wire

open WireFormatLite

/-! ## Skipped fields -/

section Skip

variable {fuel depth : ℕ} {bytes rest : List UInt8} {tag : UInt32}

/-- Groups that are skipped are skipped whatever is behind them, with fuel for the bytes
they take. -/
def GroupLocal (fuel : ℕ) : Prop :=
  ∀ (depth : ℕ) (bytes rest : List UInt8) (tag : UInt32),
    skipMessageLoop fuel depth bytes = some (.endGroup tag, rest) →
      ∃ consumed, bytes = consumed ++ rest ∧ ∀ behind enough, consumed.length < enough →
        skipMessageLoop enough depth (consumed ++ behind) = some (.endGroup tag, behind)

theorem GroupLocal.field (group : GroupLocal fuel)
    (skipped : skipFieldWith (skipMessageLoop fuel) depth tag bytes = some ((), rest)) :
    ∃ consumed, bytes = consumed ++ rest ∧ ∀ behind enough, consumed.length < enough →
      skipFieldWith (skipMessageLoop enough) depth tag (consumed ++ behind) =
        some ((), behind) := by
  have of_local {parse : Parser Unit} (is_local : Local parse)
      (parsed : parse bytes = some ((), rest)) :
      ∃ consumed, bytes = consumed ++ rest ∧ ∀ behind (enough : ℕ), consumed.length < enough →
        parse (consumed ++ behind) = some ((), behind) := by
    rcases is_local bytes () rest parsed with ⟨consumed, bytes_eq, takes⟩
    exact ⟨consumed, bytes_eq, fun behind _ _ => takes behind⟩
  unfold skipFieldWith at skipped ⊢
  generalize getTagWireType tag = typed at skipped ⊢
  cases typed with
  | none => cases skipped
  | some type =>
      cases type with
      | varint => exact of_local (local_varint64.bind fun _ => .pure ()) skipped
      | fixed64 => exact of_local (local_fixed64.bind fun _ => .pure ()) skipped
      | lengthDelimited => exact of_local (local_delimited.bind fun _ => .pure ()) skipped
      | startGroup =>
          cases depth with
          | zero => cases skipped
          | succ depth =>
              rcases exists_of_bind skipped with ⟨ending, middle, parsed, checked⟩
              split at checked
              · rename_i ends
                cases checked
                subst ends
                rcases group depth bytes rest _ parsed with ⟨consumed, bytes_eq, takes⟩
                refine ⟨consumed, bytes_eq, fun behind enough many => ?_⟩
                exact (bind_of_some (takes behind enough many)).trans (congrFun (if_pos rfl) behind)
              · cases checked
      | endGroup => cases skipped
      | fixed32 => exact of_local (local_fixed32.bind fun _ => .pure ()) skipped

/-- Skipping a group reads nothing behind it. -/
theorem groupLocal (fuel : ℕ) : GroupLocal fuel := by
  induction fuel with
  | zero => exact fun _ _ _ _ parsed => nomatch parsed
  | succ fuel ih =>
      intro depth bytes rest tag parsed
      rcases found : front bytes with _ | _ | ⟨first, middle⟩
      · rw [skipMessageLoop_atEnd found] at parsed
        cases parsed
      · rw [skipMessageLoop_stopped found] at parsed
        cases parsed
      · rcases exists_front found with ⟨consumed, rfl, positive, _, front_eq⟩
        by_cases ends : getTagWireType first = some .endGroup
        · rw [skipMessageLoop_endGroup found ends] at parsed
          cases parsed
          refine ⟨consumed, rfl, fun behind enough many => ?_⟩
          obtain ⟨enough, rfl⟩ := Nat.exists_eq_succ_of_ne_zero (Nat.ne_zero_of_lt many)
          exact skipMessageLoop_endGroup (front_eq behind) ends
        · rw [skipMessageLoop_field found ends] at parsed
          rcases exists_of_bind parsed with ⟨_, after, skipped, ended⟩
          rcases ih.field skipped with ⟨field, rfl, field_takes⟩
          rcases ih depth after rest tag ended with ⟨group, rfl, group_takes⟩
          refine ⟨consumed ++ (field ++ group), by simp only [List.append_assoc],
            fun behind enough many => ?_⟩
          rw [List.length_append, List.length_append] at many
          obtain ⟨enough, rfl⟩ := Nat.exists_eq_succ_of_ne_zero (Nat.ne_zero_of_lt many)
          rw [List.append_assoc, skipMessageLoop_field (front_eq _) ends, List.append_assoc,
            bind_of_some (field_takes _ enough (by omega))]
          exact group_takes behind enough (by omega)

theorem skipField_eq (depth : ℕ) (tag : UInt32) (bytes : List UInt8) :
    skipField depth tag bytes =
      skipFieldWith (skipMessageLoop (bytes.length + 1)) depth tag bytes := by
  unfold skipField skipFieldWith
  cases getTagWireType tag with
  | none => rfl
  | some type =>
      cases type with
      | startGroup => cases depth <;> rfl
      | varint | fixed64 | lengthDelimited | endGroup | fixed32 => rfl

/-- Skipping a field reads nothing behind it. -/
theorem local_skipField (depth : ℕ) (tag : UInt32) : Local (skipField depth tag) := by
  intro bytes _ rest skipped
  rw [skipField_eq] at skipped
  rcases (groupLocal _).field skipped with ⟨consumed, bytes_eq, takes⟩
  refine ⟨consumed, bytes_eq, fun behind => ?_⟩
  rw [skipField_eq]
  apply takes
  rw [List.length_append]
  omega

/-- Groups in one another, with the numbers of their fields. -/
def nestedGroups : List UInt32 → List UInt8
  | [] => []
  | number :: numbers =>
      Varint.encode (makeTag number .startGroup).toNat ++ (nestedGroups numbers ++
        Varint.encode (makeTag number .endGroup).toNat)

theorem takes_tag (tag : UInt32) : Takes varint32 (Varint.encode tag.toNat) tag := by
  have takes := @takes_varint32 tag.toNat (tag.toNat_lt.trans (by decide))
  rwa [UInt32.ofNat_toNat] at takes

theorem makeTag_ne_zero {number : UInt32} (small : number.toNat < 2 ^ 29) {type : WireType}
    (positive : 0 < type.code.toNat) : makeTag number type ≠ 0 := by
  intro zero
  have bits := congrArg UInt32.toNat zero
  rw [toNat_makeTag type small, UInt32.toNat_zero] at bits
  omega

theorem skipFieldWith_startGroup {number : UInt32} (small : number.toNat < 2 ^ 29)
    {skipGroup : ℕ → Parser Ending} (rest : List UInt8) :
    skipFieldWith skipGroup (depth + 1) (makeTag number .startGroup) rest =
      (skipGroup depth >>= fun ending =>
        if ending = .endGroup (makeTag number .endGroup) then pure () else refuse) rest := by
  rcases getTag_makeTag small .startGroup with ⟨number_eq, typed⟩
  simp only [skipFieldWith, number_eq, typed]

/-- A group below the limit of the recursion is refused. -/
theorem skipFieldWith_tooDeep {number : UInt32} (small : number.toNat < 2 ^ 29)
    {skipGroup : ℕ → Parser Ending} (rest : List UInt8) :
    skipFieldWith skipGroup 0 (makeTag number .startGroup) rest = none := by
  rcases getTag_makeTag small .startGroup with ⟨_, typed⟩
  simp only [skipFieldWith, typed]
  rfl

/-- The groups before the end of a group are skipped unless they nest too deep. -/
theorem skipMessageLoop_nestedGroups {numbers : List UInt32}
    (small : ∀ number ∈ numbers, number.toNat < 2 ^ 29)
    (ends : getTagWireType tag = some .endGroup) (nonzero : tag ≠ 0)
    (many : (nestedGroups numbers ++ (Varint.encode tag.toNat ++ rest)).length < fuel) :
    skipMessageLoop fuel depth (nestedGroups numbers ++ (Varint.encode tag.toNat ++ rest)) =
      if numbers.length ≤ depth then some (.endGroup tag, rest) else none := by
  have ended {fuel depth : ℕ} (enough : fuel ≠ 0) :
      skipMessageLoop fuel depth (Varint.encode tag.toNat ++ rest) =
        some (.endGroup tag, rest) := by
    obtain ⟨fuel, rfl⟩ := Nat.exists_eq_succ_of_ne_zero enough
    exact skipMessageLoop_endGroup (front_of_takes (takes_tag tag) nonzero rest) ends
  induction numbers generalizing tag fuel depth rest with
  | nil => exact ended (by omega)
  | cons number numbers ih =>
      rcases List.forall_mem_cons.mp small with ⟨number_small, rest_small⟩
      have start_type := (getTag_makeTag number_small .startGroup).2
      have end_type := (getTag_makeTag number_small .endGroup).2
      have start_nonzero : makeTag number .startGroup ≠ 0 :=
        makeTag_ne_zero number_small (by decide)
      have end_nonzero : makeTag number .endGroup ≠ 0 := makeTag_ne_zero number_small (by decide)
      have start_length := Varint.length_encode_pos (makeTag number .startGroup).toNat
      simp only [nestedGroups, List.append_assoc, List.length_append] at many ⊢
      obtain ⟨fuel, rfl⟩ := Nat.exists_eq_succ_of_ne_zero (Nat.ne_zero_of_lt many)
      have goes_on : getTagWireType (makeTag number .startGroup) ≠ some .endGroup := by
        rw [start_type]
        nofun
      rw [skipMessageLoop_field (front_of_takes (takes_tag _) start_nonzero _) goes_on]
      cases depth with
      | zero =>
          rw [bind_of_none (skipFieldWith_tooDeep number_small _)]
          rfl
      | succ depth =>
          have end_of_group {fuel depth : ℕ} (enough : fuel ≠ 0) :
              skipMessageLoop fuel depth (Varint.encode (makeTag number .endGroup).toNat ++
                (Varint.encode tag.toNat ++ rest)) =
              some (.endGroup (makeTag number .endGroup), Varint.encode tag.toNat ++ rest) := by
            obtain ⟨fuel, rfl⟩ := Nat.exists_eq_succ_of_ne_zero enough
            exact skipMessageLoop_endGroup (front_of_takes (takes_tag _) end_nonzero _) end_type
          have inner := @ih fuel depth _ _ rest_small end_type end_nonzero
            (by simp only [List.length_append]; omega) end_of_group
          have skipped := @skipFieldWith_startGroup depth _ number_small (skipMessageLoop fuel)
            (nestedGroups numbers ++ (Varint.encode (makeTag number .endGroup).toNat ++
              (Varint.encode tag.toNat ++ rest)))
          have same : (number :: numbers).length ≤ depth + 1 ↔ numbers.length ≤ depth :=
            Nat.succ_le_succ_iff
          simp only [same]
          by_cases shallow : numbers.length ≤ depth
          · rw [if_pos shallow] at inner
            rw [bind_of_some inner, if_pos rfl] at skipped
            rw [bind_of_some skipped, ended (by omega), if_pos shallow]
          · rw [if_neg shallow] at inner
            rw [bind_of_none inner] at skipped
            rw [bind_of_none skipped, if_neg shallow]

/-- A group of a message, as deep as its groups nest. -/
theorem skipField_nestedGroups {number : UInt32} {numbers : List UInt32}
    (small : ∀ nested ∈ number :: numbers, nested.toNat < 2 ^ 29) :
    skipField depth (makeTag number .startGroup)
        (nestedGroups numbers ++ (Varint.encode (makeTag number .endGroup).toNat ++ rest)) =
      if numbers.length < depth then some ((), rest) else none := by
  rcases List.forall_mem_cons.mp small with ⟨number_small, rest_small⟩
  rw [skipField_eq]
  cases depth with
  | zero =>
      rw [skipFieldWith_tooDeep number_small]
      rfl
  | succ depth =>
      have inner := @skipMessageLoop_nestedGroups _ depth rest (makeTag number .endGroup) numbers
        rest_small (getTag_makeTag number_small .endGroup).2
        (makeTag_ne_zero number_small (by decide)) (Nat.lt_succ_self _)
      rw [skipFieldWith_startGroup number_small]
      simp only [Nat.lt_succ_iff]
      by_cases shallow : numbers.length ≤ depth
      · rw [if_pos shallow] at inner ⊢
        rw [bind_of_some inner, if_pos rfl]
        rfl
      · rw [if_neg shallow] at inner ⊢
        rw [bind_of_none inner]

end Skip

/-! ## Lawful schemas -/

section Lawful

variable {M N V : Type} {depth height : ℕ}

/-- Reading puts back what has been encoded, where messages may nest `height` times. -/
structure Codec.Lawful (height : ℕ) (codec : Codec V) : Prop where
  shrinks : ∀ depth old, Shrinks (codec.read depth old)
  takes : ∀ depth old value, height ≤ depth → (codec.encode value).length ≤ intMax →
    Takes (codec.read depth old) (codec.encode value) (codec.merge old value)

/-- What parsing relies on in a field. -/
structure Rule.Lawful (height : ℕ) (rule : Rule M) : Prop where
  tag_ne_zero : rule.tag ≠ 0
  shrinks : ∀ depth message, Shrinks (rule.read depth message)
  merge_none : ∀ message source, rule.encode source = none → rule.merge message source = message
  takes : ∀ depth message source bytes, height ≤ depth → rule.encode source = some bytes →
    bytes.length ≤ intMax → Takes (rule.read depth message) bytes (rule.merge message source)

/-- What parsing relies on in a format. -/
structure Schema.Lawful (height : ℕ) (schema : Schema M) : Prop where
  rules : ∀ rule ∈ schema, rule.Lawful height
  distinct : (schema.map (·.tag)).Nodup

theorem Codec.Lawful.mono {codec : Codec V} {higher : ℕ} (lawful : codec.Lawful height)
    (le : height ≤ higher) : codec.Lawful higher :=
  ⟨lawful.shrinks, fun depth old value enough => lawful.takes depth old value (le.trans enough)⟩

theorem Rule.Lawful.mono {rule : Rule M} {higher : ℕ} (lawful : rule.Lawful height)
    (le : height ≤ higher) : rule.Lawful higher :=
  ⟨lawful.tag_ne_zero, lawful.shrinks, lawful.merge_none, fun depth message source bytes enough =>
    lawful.takes depth message source bytes (le.trans enough)⟩

theorem Schema.Lawful.mono {schema : Schema M} {higher : ℕ} (lawful : schema.Lawful height)
    (le : height ≤ higher) : schema.Lawful higher :=
  ⟨fun rule mem => (lawful.rules rule mem).mono le, lawful.distinct⟩

theorem Rule.lawful_of {number : UInt32} {codec : Codec V} (member : Member M V)
    (lawful : codec.Lawful height) (nonzero : makeTag number codec.wireType ≠ 0) :
    (Rule.of number codec member).Lawful height where
  tag_ne_zero := nonzero
  shrinks depth message := (lawful.shrinks depth _).bind fun _ => (Local.pure _).shrinks
  merge_none message source unset := by
    have get_eq : member.get source = none := Option.map_eq_none_iff.mp unset
    simp only [Rule.of, get_eq]
  takes depth message source bytes enough encoded fits := by
    rcases Option.map_eq_some_iff.mp encoded with ⟨value, get_eq, rfl⟩
    have takes := (lawful.takes depth (member.get message) value enough fits).map
      fun value => member.set value message
    simpa only [Rule.of, get_eq] using takes

namespace Schema

variable {schema : Schema M} {message source : M} {bytes rest : List UInt8} {tag : UInt32}

/-- More turns of the loop than there are bytes make no difference. -/
theorem Lawful.readLoop_eq (lawful : schema.Lawful height) {fuel enough : ℕ}
    (many : bytes.length < fuel) (also_many : bytes.length < enough) :
    schema.readLoop depth fuel message bytes = schema.readLoop depth enough message bytes := by
  induction fuel generalizing enough message bytes with
  | zero => omega
  | succ fuel ih =>
      obtain ⟨enough, rfl⟩ := Nat.exists_eq_succ_of_ne_zero (Nat.ne_zero_of_lt also_many)
      -- What is read for one record leaves fewer bytes for the next.
      have further {α : Type} {parse : Parser α} {next : α → M} {middle : List UInt8}
          (shrinks : Shrinks parse) (shorter : middle.length < bytes.length) :
          (parse >>= fun value => schema.readLoop depth fuel (next value)) middle =
            (parse >>= fun value => schema.readLoop depth enough (next value)) middle := by
        rcases parsed : parse middle with _ | ⟨value, after⟩
        · rw [bind_of_none parsed, bind_of_none parsed]
        · have suffix_length := (shrinks middle value after parsed).length_le
          rw [bind_of_some parsed, bind_of_some parsed]
          exact ih (by omega) (by omega)
      rcases found : front bytes with _ | _ | ⟨tag, middle⟩
      · rw [readLoop_atEnd found, readLoop_atEnd found]
      · rw [readLoop_stopped found, readLoop_stopped found]
      · have shorter : middle.length < bytes.length := by
          rcases exists_front found with ⟨consumed, rfl, positive, _⟩
          rw [List.length_append]
          omega
        rcases known : schema.find? (·.tag = tag) with _ | rule
        · by_cases ends : getTagWireType tag = some .endGroup
          · rw [readLoop_endGroup found known ends, readLoop_endGroup found known ends]
          · rw [readLoop_unknown found known ends, readLoop_unknown found known ends]
            exact further (local_skipField depth tag).shrinks shorter
        · rw [readLoop_known found known, readLoop_known found known]
          have shrinks := (lawful.rules rule (List.mem_of_find?_eq_some known)).shrinks
          exact further (shrinks depth message) shorter

section Read

variable (lawful : schema.Lawful height)

include lawful

/-- A known field is read by its rule. -/
theorem Lawful.read_known {rule : Rule M} {result : M} {behind : List UInt8}
    (found : front bytes = .tag rule.tag rest) (mem : rule ∈ schema)
    (parsed : rule.read depth message rest = some (result, behind)) :
    schema.read depth message bytes = schema.read depth result behind := by
  have shorter : rest.length < bytes.length := by
    rcases exists_front found with ⟨consumed, rfl, positive, _⟩
    rw [List.length_append]
    omega
  have suffix_length :=
    ((lawful.rules rule mem).shrinks depth message rest result behind parsed).length_le
  rw [read, readLoop_known found (find_of_mem lawful.distinct mem), bind_of_some parsed]
  exact lawful.readLoop_eq (by omega) (Nat.lt_succ_self _)

theorem Lawful.read_unknown {behind : List UInt8} (found : front bytes = .tag tag rest)
    (unknown : schema.find? (·.tag = tag) = none) (goes_on : getTagWireType tag ≠ some .endGroup)
    (skipped : skipField depth tag rest = some ((), behind)) :
    schema.read depth message bytes = schema.read depth message behind := by
  have shorter : rest.length < bytes.length := by
    rcases exists_front found with ⟨consumed, rfl, positive, _⟩
    rw [List.length_append]
    omega
  have suffix_length :=
    ((local_skipField depth tag).shrinks rest () behind skipped).length_le
  rw [read, readLoop_unknown found unknown goes_on, bind_of_some skipped]
  exact lawful.readLoop_eq (by omega) (Nat.lt_succ_self _)

end Read

theorem read_nil (schema : Schema M) (depth : ℕ) (message : M) :
    schema.read depth message [] = some ((message, .atEnd), []) :=
  readLoop_atEnd rfl

/-! ### Records -/

/-- Bytes that may stand between two records, and what they do to a message. -/
inductive IsRecord (schema : Schema M) (depth : ℕ) : List UInt8 → (M → M) → Prop
  /-- A field, where tag and value need not be as short as possible. -/
  | field {rule : Rule M} {tagBytes payload : List UInt8} {change : M → M} (mem : rule ∈ schema)
      (tag_takes : Takes varint32 tagBytes rule.tag)
      (takes : ∀ message, Takes (rule.read depth message) payload (change message)) :
      IsRecord schema depth (tagBytes ++ payload) change
  /-- A field that is not in the schema, or that has another wire type. -/
  | unknown {tag : UInt32} {tagBytes payload : List UInt8} (nonzero : tag ≠ 0)
      (absent : schema.find? (·.tag = tag) = none) (goes_on : getTagWireType tag ≠ some .endGroup)
      (tag_takes : Takes varint32 tagBytes tag) (takes : Takes (skipField depth tag) payload ()) :
      IsRecord schema depth (tagBytes ++ payload) id

/-- A record is read for the change it makes. -/
theorem Lawful.read_record (lawful : schema.Lawful height) {change : M → M}
    (record : schema.IsRecord depth bytes change) (behind : List UInt8) :
    schema.read depth message (bytes ++ behind) = schema.read depth (change message) behind := by
  cases record with
  | field mem tag_takes takes =>
      rw [List.append_assoc]
      have nonzero := (lawful.rules _ mem).tag_ne_zero
      exact lawful.read_known (front_of_takes tag_takes nonzero _) mem (takes message behind)
  | unknown nonzero absent goes_on tag_takes takes =>
      rw [List.append_assoc]
      exact lawful.read_unknown (front_of_takes tag_takes nonzero _) absent goes_on (takes behind)

/-- Records one after the other, in any order and number. -/
theorem Lawful.read_records (lawful : schema.Lawful height)
    {records : List (List UInt8 × (M → M))}
    (are_records : ∀ record ∈ records, schema.IsRecord depth record.1 record.2)
    (behind : List UInt8) :
    schema.read depth message (records.flatMap (·.1) ++ behind) =
      schema.read depth (records.foldl (fun message record => record.2 message) message)
        behind := by
  induction records generalizing message with
  | nil => rfl
  | cons record records ih =>
      rw [List.flatMap_cons, List.append_assoc,
        lawful.read_record (are_records record List.mem_cons_self), List.foldl_cons]
      exact ih fun other mem => are_records other (List.mem_cons_of_mem _ mem)

/-- A field as it is encoded is a record. -/
theorem Lawful.isRecord (lawful : schema.Lawful height) (deep : height ≤ depth) {rule : Rule M}
    (mem : rule ∈ schema) (encoded : rule.encode source = some bytes)
    (fits : bytes.length ≤ intMax) :
    schema.IsRecord depth (rule.record source) fun message => rule.merge message source := by
  have tag_takes := @takes_varint32 rule.tag.toNat (rule.tag.toNat_lt.trans (by decide))
  rw [UInt32.ofNat_toNat] at tag_takes
  rw [Rule.record_some encoded]
  exact .field mem tag_takes fun message =>
    (lawful.rules rule mem).takes depth message source bytes deep encoded fits

/-- The fields of a message are read one after the other. -/
theorem Lawful.read_fields (lawful : schema.Lawful height) (deep : height ≤ depth)
    {rules : Schema M} (subset : rules ⊆ schema) (fits : (rules.encode source).length ≤ intMax)
    (behind : List UInt8) :
    schema.read depth message (rules.encode source ++ behind) =
      schema.read depth (rules.merge message source) behind := by
  induction rules generalizing message with
  | nil => rfl
  | cons rule rules ih =>
      rw [List.cons_subset] at subset
      have both : Schema.encode (rule :: rules) source =
          rule.record source ++ Schema.encode rules source := List.flatMap_cons
      rw [both, List.length_append] at fits
      have rest := @ih (rule.merge message source) subset.2 (by omega)
      rw [both, List.append_assoc]
      rcases encoded : rule.encode source with _ | bytes
      · have unset := (lawful.rules rule subset.1).merge_none message source encoded
        rw [unset] at rest
        rw [Rule.record_none encoded, merge, List.foldl_cons, unset]
        exact rest
      · rw [Rule.record_some encoded, List.length_append] at fits
        have record := lawful.isRecord deep subset.1 encoded (by omega)
        rw [lawful.read_record record]
        exact rest

/-- What has been encoded is merged into the message. -/
theorem Lawful.read_encode (lawful : schema.Lawful height) (deep : height ≤ depth)
    (fits : (schema.encode source).length ≤ intMax) (behind : List UInt8) :
    schema.read depth message (schema.encode source ++ behind) =
      schema.read depth (schema.merge message source) behind :=
  lawful.read_fields deep (List.Subset.refl schema) fits behind

end Schema

/-! ### The kinds of values -/

namespace Codec

theorem lawful_int32 : int32.Lawful 0 where
  shrinks _ _ := (local_varint32.bind fun _ => .pure _).shrinks
  takes depth old value _ _ := by
    have takes := (takes_varint32 value.toInt64.toUInt64.toNat_lt).map UInt32.toInt32
    have low : UInt32.ofNat value.toInt64.toUInt64.toNat = value.toUInt32 := by
      have value_lt := value.toUInt32.toNat_lt
      apply UInt32.toNat_inj.mp
      rw [UInt32.toNat_ofNat', toNat_extended]
      split <;> omega
    rw [low] at takes
    exact takes

theorem lawful_float : float.Lawful 0 where
  shrinks _ _ := local_fixed32.shrinks
  takes depth old value _ _ := by
    have encoded := takes_take (Pointer.encode 4 value.toNat)
    rw [Pointer.length_encode] at encoded
    have takes := encoded.map fun bytes => UInt32.ofNat (Pointer.decode bytes)
    rw [Pointer.decode_encode (value.toNat_lt.trans_eq (by decide)), UInt32.ofNat_toNat] at takes
    exact takes

/-- Bytes behind their length. -/
theorem takes_length {length : ℕ} (fits : length ≤ intMax) :
    Takes varint32 (Varint.encode length) (UInt32.ofNat length) ∧
      (UInt32.ofNat length).toNat = length := by
  rw [intMax] at fits
  have length_lt : length < 2 ^ 32 := by omega
  exact ⟨takes_varint32 (length_lt.trans (by decide)), UInt32.toNat_ofNat_of_lt' length_lt⟩

theorem lawful_string : string.Lawful 0 where
  shrinks _ _ := local_delimited.shrinks
  takes depth old value _ fits := by
    simp only [string, List.length_append] at fits
    rcases takes_length (Nat.le_of_add_left_le fits) with ⟨length_takes, length_eq⟩
    have value_takes := takes_take value
    rw [← length_eq] at value_takes
    exact length_takes.bind value_takes

theorem shrinks_within (length : ℕ) (parse : Parser (N × Ending)) :
    Shrinks (within length parse) := by
  intro bytes value rest parsed
  rw [within] at parsed
  split at parsed
  · cases parsed
    exact List.drop_suffix length bytes
  · cases parsed

/-- A nested message is one level deeper than the messages in it. -/
theorem lawful_message {construct : N} {schema : Schema N} (lawful : schema.Lawful height) :
    (message construct schema).Lawful (height + 1) where
  shrinks depth old := by
    refine local_varint32.shrinks.bind fun length => ?_
    cases depth with
    | zero => exact Local.refuse.shrinks
    | succ depth => exact shrinks_within _ _
  takes depth old value deep fits := by
    simp only [message, List.length_append] at fits
    have value_fits := Nat.le_of_add_left_le fits
    rcases takes_length value_fits with ⟨length_takes, length_eq⟩
    cases depth with
    | zero => omega
    | succ depth =>
        refine length_takes.bind fun behind => ?_
        have parsed := @lawful.read_encode _ depth _ _ (old.getD construct) value
          (Nat.le_of_succ_le_succ deep) value_fits []
        rw [List.append_nil, Schema.read_nil] at parsed
        simp only [within, length_eq, List.take_left, List.drop_left, parsed]
        rfl

end Codec

end Lawful

end Gsp.Protobuf.Wire
