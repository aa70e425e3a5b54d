import Gsp.Protobuf.Records

/-!
# Merged messages

`MergeFrom` merges what the schema merges: a field that is set takes the place of
the old one, apart from a nested message, which is merged into it.
-/

namespace Gsp.Protobuf

open Wire Generated

variable {M N V : Type}

/-- The code for a field merges what the rule merges. -/
def Field.MergesAs (field : Field M) (rule : Rule M) : Prop :=
  ∀ message source,
    (if field.has source then field.mergeFrom message source else message) =
      rule.merge message source

/-- The code for a message merges what the schema merges. -/
def MergesAs (M : Type) [Generated M] (schema : Schema M) : Prop :=
  List.Forall₂ Field.MergesAs (fields : List (Field M)) schema

theorem MergesAs.mergeFrom_eq [Generated M] {schema : Schema M} (merges : MergesAs M schema)
    (message source : M) : mergeFrom message source = schema.merge message source := by
  rw [mergeFrom, Schema.merge]
  rw [MergesAs] at merges
  generalize (fields : List (Field M)) = listed at merges
  induction merges generalizing message with
  | nil => rfl
  | cons merges _ ih => rw [List.foldl_cons, List.foldl_cons, merges, ih]

namespace Field

/-- The field is merged if it is set. -/
theorem mergesAs_of {field : Field M} {number : UInt32} {codec : Codec V} {member : Member M V}
    (has_eq : ∀ message, field.has message = (member.get message).isSome)
    (set : ∀ message source value, member.get source = some value →
      field.mergeFrom message source =
        member.set (codec.merge (member.get message) value) message) :
    field.MergesAs (.of number codec member) := by
  intro message source
  rw [has_eq]
  rcases get_eq : member.get source with _ | value
  · simp only [Rule.of, get_eq, Option.isSome_none, Bool.false_eq_true, if_false]
  · simp only [Rule.of, get_eq, Option.isSome_some, if_true]
    exact set message source value get_eq

variable {number : UInt32} {expected : Option UInt32}

theorem mergesAs_int32 (member : Member M Int32) :
    (int32 number member expected).MergesAs (.of number .int32 member) :=
  mergesAs_of (fun _ => rfl) fun message source value get_eq => by
    simp only [int32, get_eq, Option.getD_some, Codec.int32]

theorem mergesAs_float (member : Member M UInt32) :
    (float number member expected).MergesAs (.of number .float member) :=
  mergesAs_of (fun _ => rfl) fun message source value get_eq => by
    simp only [float, get_eq, Option.getD_some, Codec.float]

theorem mergesAs_string (member : Member M (List UInt8)) :
    (string number member expected).MergesAs (.of number .string member) :=
  mergesAs_of (fun _ => rfl) fun message source value get_eq => by
    simp only [string, get_eq, Option.getD_some, Codec.string]

theorem mergesAs_message [Generated N] {schema : Schema N} (merges : Protobuf.MergesAs N schema)
    (member : Member M N) :
    (Field.message number member expected).MergesAs
      (.of number (.message construct schema) member) :=
  mergesAs_of (fun _ => rfl) fun message source value get_eq => by
    simp only [Field.message, get_eq, Option.getD_some, Codec.message, merges.mergeFrom_eq]

end Field

end Gsp.Protobuf
