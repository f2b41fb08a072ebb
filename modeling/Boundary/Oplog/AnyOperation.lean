import Boundary.Errors
import Boundary.Go.Control
import Boundary.Wire.Proto

/-!
# `AnyOperation` on the wire

The oplog stores each message of an entry as an `AnyOperation`: its type name,
its own bytes, its operation type, the field masks of an update and the
operation options. This is the protobuf encoding of that message and its
decoding: proto3 leaves out a field at its default, so an empty value is read
back as an absent one (`AnyOperation.canonical`); everything else is read back
as it was written (`unmarshalAnyOperation_fields`).
-/

namespace Boundary.Oplog

open Wire GoControl

/-- `OpType`, the protobuf enum: any number, with the names below. -/
structure OpType where
  value : Nat
  deriving DecidableEq, Repr

/-- `OpType_OP_TYPE_CREATE`. -/
def OpType.create : OpType := ⟨1⟩

/-- `OpType_OP_TYPE_UPDATE`. -/
def OpType.update : OpType := ⟨2⟩

/-- `AnyOperation`, with operation options of type `O`; a nil `Value`,
`FieldMask`, `NullMask` or `Options` is `none`. -/
structure AnyOperation (O : Type) where
  typeName : String
  value : Option (List UInt8)
  operationType : OpType
  fieldMask : Option (List String)
  nullMask : Option (List String)
  options : Option O

/-- The bytes of a string. -/
def stringBytes (s : String) : List UInt8 := s.toUTF8.data.toList

/-- The string of some bytes, when they are UTF-8, as proto3 requires of a
`string` field. -/
def bytesString (bs : List UInt8) : Option String := String.fromUTF8? ⟨bs.toArray⟩

theorem bytesString_stringBytes (s : String) : bytesString (stringBytes s) = some s := by
  have hvalid : (ByteArray.mk s.toUTF8.data.toList.toArray).IsValidUTF8 := by
    simpa using s.isValidUTF8
  unfold bytesString stringBytes String.fromUTF8?
  rw [dif_pos hvalid]
  simp [String.fromUTF8, String.toUTF8]

/-- `FieldMask` on the wire: its repeated `paths`, field 1. -/
def fieldMaskFields (paths : List String) : List Field :=
  paths.map fun path => .bytes 1 (stringBytes path)

/-- `proto.Marshal` of an `AnyOperation`, fields in their numbers' order; proto3
leaves out a string, bytes or enum field at its default, and writes a message
field that is set, even an empty one. -/
def AnyOperation.fields {O : Type} (marshalOptions : O → List UInt8) (op : AnyOperation O) :
    List Field :=
  (if op.typeName = "" then [] else [.bytes 1 (stringBytes op.typeName)]) ++
  (match op.value with
    | some value => if value = [] then [] else [.bytes 2 value]
    | none => []) ++
  (if op.operationType.value = 0 then [] else [.varint 3 op.operationType.value]) ++
  (match op.fieldMask with
    | some paths => [.bytes 4 (encodeFields (fieldMaskFields paths))]
    | none => []) ++
  (match op.nullMask with
    | some paths => [.bytes 5 (encodeFields (fieldMaskFields paths))]
    | none => []) ++
  (match op.options with
    | some options => [.bytes 6 (marshalOptions options)]
    | none => [])

/-- The operation as the wire keeps it: a `bytes` field has no presence in
proto3, so an empty value reads back as a nil one. -/
def AnyOperation.canonical {O : Type} (op : AnyOperation O) : AnyOperation O :=
  { op with value := op.value.filter fun value => !value.isEmpty }

/-- The error of bytes that are not a sequence of fields. -/
def invalidWireFormat : Error := .passed "proto: cannot parse invalid wire-format data"

/-- The error of a `string` field that is not UTF-8. -/
def invalidUTF8 : Error := .passed "proto: string field contains invalid UTF-8"

/-- Reading one field of a `FieldMask`: a path is appended, other fields are
skipped. -/
def fieldMaskStep (paths : List String) : Field → Except Error (List String)
  | .bytes 1 b =>
    match bytesString b with
    | some path => .ok (paths ++ [path])
    | none => .error invalidUTF8
  | _ => .ok paths

/-- `proto.Unmarshal` of a `FieldMask`: its paths. -/
def decodeFieldMask (bs : List UInt8) : Except Error (List String) :=
  match decodeFields bs with
  | none => .error invalidWireFormat
  | some fs => fs.foldlM fieldMaskStep []

/-- Reading one field into an `AnyOperation`: a scalar field replaces what was
read before, a message field merges into it (the paths of a mask are appended;
the options, which the model leaves abstract, are replaced), and a field of
another number, or of a known number with another wire type, is skipped. -/
def AnyOperation.setField {O : Type} (unmarshalOptions : List UInt8 → Except Error O)
    (op : AnyOperation O) : Field → Except Error (AnyOperation O)
  | .bytes 1 b =>
    match bytesString b with
    | some typeName => .ok { op with typeName := typeName }
    | none => .error invalidUTF8
  | .bytes 2 b => .ok { op with value := some b }
  | .varint 3 n => .ok { op with operationType := ⟨n⟩ }
  | .bytes 4 b => (decodeFieldMask b).map fun paths =>
      { op with fieldMask := some (op.fieldMask.getD [] ++ paths) }
  | .bytes 5 b => (decodeFieldMask b).map fun paths =>
      { op with nullMask := some (op.nullMask.getD [] ++ paths) }
  | .bytes 6 b => (unmarshalOptions b).map fun options => { op with options := some options }
  | _ => .ok op

/-- The `AnyOperation` every field of which is at its default. -/
def AnyOperation.empty {O : Type} : AnyOperation O := ⟨"", none, ⟨0⟩, none, none, none⟩

/-- `proto.Unmarshal` into a new `AnyOperation`. -/
def unmarshalAnyOperation {O : Type} (unmarshalOptions : List UInt8 → Except Error O)
    (bs : List UInt8) : Except Error (AnyOperation O) :=
  match decodeFields bs with
  | none => .error invalidWireFormat
  | some fs => fs.foldlM (AnyOperation.setField unmarshalOptions) .empty

section Codec

variable {O : Type} (marshalOptions : O → List UInt8)
  (unmarshalOptions : List UInt8 → Except Error O)

theorem decodeFieldMask_encodeFields (paths : List String) :
    decodeFieldMask (encodeFields (fieldMaskFields paths)) = .ok paths := by
  -- each field appends its path to those read before it
  have hstep : ∀ acc, (fieldMaskFields paths).foldlM fieldMaskStep acc = .ok (acc ++ paths) := by
    induction paths with
    | nil => intro acc; simp [fieldMaskFields]; rfl
    | cons p ps ih =>
      intro acc
      simp only [fieldMaskFields, List.map_cons, List.foldlM_cons, fieldMaskStep,
        bytesString_stringBytes, ok_bind] at ih ⊢
      rw [ih (acc ++ [p]), List.append_assoc, List.singleton_append]
  have hnum : ∀ f ∈ fieldMaskFields paths, 0 < f.num := by
    simp [fieldMaskFields, Field.num]
  unfold decodeFieldMask
  rw [decodeFields_encodeFields _ hnum]
  simpa using hstep []

/-! The cases of `AnyOperation.setField` for the fields `AnyOperation.fields`
writes. -/

theorem setField_bytes_one (op : AnyOperation O) (b : List UInt8) :
    AnyOperation.setField unmarshalOptions op (.bytes 1 b) =
      match bytesString b with
      | some typeName => .ok { op with typeName := typeName }
      | none => .error invalidUTF8 := rfl

theorem setField_bytes_two (op : AnyOperation O) (b : List UInt8) :
    AnyOperation.setField unmarshalOptions op (.bytes 2 b) = .ok { op with value := some b } :=
  rfl

theorem setField_varint_three (op : AnyOperation O) (n : Nat) :
    AnyOperation.setField unmarshalOptions op (.varint 3 n) =
      .ok { op with operationType := ⟨n⟩ } := rfl

theorem setField_bytes_four (op : AnyOperation O) (b : List UInt8) :
    AnyOperation.setField unmarshalOptions op (.bytes 4 b) = (decodeFieldMask b).map fun paths =>
      { op with fieldMask := some (op.fieldMask.getD [] ++ paths) } := rfl

theorem setField_bytes_five (op : AnyOperation O) (b : List UInt8) :
    AnyOperation.setField unmarshalOptions op (.bytes 5 b) = (decodeFieldMask b).map fun paths =>
      { op with nullMask := some (op.nullMask.getD [] ++ paths) } := rfl

theorem setField_bytes_six (op : AnyOperation O) (b : List UInt8) :
    AnyOperation.setField unmarshalOptions op (.bytes 6 b) =
      (unmarshalOptions b).map fun options => { op with options := some options } := rfl

/-! Each group of fields of `AnyOperation.fields`, read into an operation in
which its field is still at the default, sets that field. -/

theorem foldlM_setField_typeName (s : String) (st : AnyOperation O) (hst : st.typeName = "") :
    (if s = "" then [] else [Field.bytes 1 (stringBytes s)]).foldlM
      (AnyOperation.setField unmarshalOptions) st = .ok { st with typeName := s } := by
  obtain ⟨typeName, value, operationType, fieldMask, nullMask, options⟩ := st
  simp only at hst
  subst hst
  split
  · next hs => subst hs; rfl
  · simp [setField_bytes_one, bytesString_stringBytes]

theorem foldlM_setField_value (v : Option (List UInt8)) (st : AnyOperation O)
    (hst : st.value = none) :
    (match v with
      | some value => if value = [] then [] else [Field.bytes 2 value]
      | none => []).foldlM (AnyOperation.setField unmarshalOptions) st =
      .ok { st with value := v.filter fun value => !value.isEmpty } := by
  obtain ⟨typeName, value, operationType, fieldMask, nullMask, options⟩ := st
  simp only at hst
  subst hst
  rcases v with _ | v
  · rfl
  · by_cases hv : v = []
    · subst hv; rfl
    · simp [hv, setField_bytes_two, Option.filter]

theorem foldlM_setField_operationType (t : OpType) (st : AnyOperation O)
    (hst : st.operationType = ⟨0⟩) :
    (if t.value = 0 then [] else [Field.varint 3 t.value]).foldlM
      (AnyOperation.setField unmarshalOptions) st = .ok { st with operationType := t } := by
  obtain ⟨typeName, value, operationType, fieldMask, nullMask, options⟩ := st
  obtain ⟨n⟩ := t
  simp only at hst
  subst hst
  split
  · next hn => simp only at hn; subst hn; rfl
  · simp [setField_varint_three]

theorem foldlM_setField_fieldMask (fm : Option (List String)) (st : AnyOperation O)
    (hst : st.fieldMask = none) :
    (match fm with
      | some paths => [Field.bytes 4 (encodeFields (fieldMaskFields paths))]
      | none => []).foldlM (AnyOperation.setField unmarshalOptions) st =
      .ok { st with fieldMask := fm } := by
  obtain ⟨typeName, value, operationType, fieldMask, nullMask, options⟩ := st
  simp only at hst
  subst hst
  rcases fm with _ | paths
  · rfl
  · simp [setField_bytes_four, decodeFieldMask_encodeFields]

theorem foldlM_setField_nullMask (nm : Option (List String)) (st : AnyOperation O)
    (hst : st.nullMask = none) :
    (match nm with
      | some paths => [Field.bytes 5 (encodeFields (fieldMaskFields paths))]
      | none => []).foldlM (AnyOperation.setField unmarshalOptions) st =
      .ok { st with nullMask := nm } := by
  obtain ⟨typeName, value, operationType, fieldMask, nullMask, options⟩ := st
  simp only at hst
  subst hst
  rcases nm with _ | paths
  · rfl
  · simp [setField_bytes_five, decodeFieldMask_encodeFields]

theorem foldlM_setField_options (oo : Option O)
    (hoptions : ∀ o, oo = some o → unmarshalOptions (marshalOptions o) = .ok o)
    (st : AnyOperation O) (hst : st.options = none) :
    (match oo with
      | some options => [Field.bytes 6 (marshalOptions options)]
      | none => []).foldlM (AnyOperation.setField unmarshalOptions) st =
      .ok { st with options := oo } := by
  obtain ⟨typeName, value, operationType, fieldMask, nullMask, options⟩ := st
  simp only at hst
  subst hst
  rcases oo with _ | o
  · rfl
  · simp [setField_bytes_six, hoptions o rfl]

theorem num_pos_of_mem_fields (op : AnyOperation O) :
    ∀ f ∈ op.fields marshalOptions, 0 < f.num := by
  intro f hf
  simp only [AnyOperation.fields, List.mem_append] at hf
  rcases hf with ((((h | h) | h) | h) | h) | h <;> (repeat' split at h) <;> simp_all [Field.num]

/-- `proto.Unmarshal` reads back what `proto.Marshal` wrote of an `AnyOperation`,
up to the presence of the value that proto3 does not keep. -/
theorem unmarshalAnyOperation_fields (op : AnyOperation O)
    (hoptions : ∀ o, op.options = some o → unmarshalOptions (marshalOptions o) = .ok o) :
    unmarshalAnyOperation unmarshalOptions (encodeFields (op.fields marshalOptions)) =
      .ok op.canonical := by
  unfold unmarshalAnyOperation
  rw [decodeFields_encodeFields _ (num_pos_of_mem_fields marshalOptions op)]
  -- the groups of fields one after another, each on the operation the ones before built
  simp only [AnyOperation.fields, List.foldlM_append, AnyOperation.empty,
    foldlM_setField_typeName, foldlM_setField_value, foldlM_setField_operationType,
    foldlM_setField_fieldMask, foldlM_setField_nullMask,
    foldlM_setField_options marshalOptions unmarshalOptions op.options hoptions, ok_bind]
  rfl

end Codec

end Boundary.Oplog
