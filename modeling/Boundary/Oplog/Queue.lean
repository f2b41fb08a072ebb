import Boundary.Oplog.AnyOperation
import Boundary.Wire.Binary

/-!
# The oplog queue

`Queue.add` appends a message to a queue of frames: the little-endian `uint32`
length of the message's `AnyOperation`, then its bytes. `Queue.remove` reads
the frame at the front back and turns it into a message through the type
catalog; it answers a nil item, without an error, for an `AnyOperation` whose
value is absent, which is how proto3 reads back an empty value.

The messages, their types and their protobuf encoding, the catalog's types and
the conversions of the `dbw` options are parameters of the model (`Codec`).
-/

namespace Boundary.Oplog

open Wire GoControl

/-- The frame of some bytes in the queue: their length as a little-endian
`uint32`, then the bytes. -/
def frame (data : List UInt8) : List UInt8 := leBytes 4 data.length ++ data

/-- `oplog.Message`: a message of type `M` with its `dbw` options of type `D`. -/
structure Message (M D : Type) where
  message : M
  typeName : String
  opType : OpType
  fieldMaskPaths : List String
  setToNullPaths : List String
  opts : List D

/-- What the queue uses and the model leaves open: the messages' types (and
their `%T`), whether they are replayable, their protobuf encoding and the
decoding into a new value of a type; the catalog of types by name; the
conversion of `dbw` options to `OperationOptions` of type `O` and back, and the
encoding of those; and the paths `dbw.Intersection` finds in two lists. -/
structure Codec (M Ty O D : Type) where
  typeOf : M → Ty
  typeString : M → String
  replayable : M → Bool
  marshal : M → Except Error (List UInt8)
  unmarshal : Ty → List UInt8 → Except Error M
  catalog : List (String × Ty)
  fromDbwOpts : List D → Except Error O
  toDbwOpts : O → Except Error (List D)
  marshalOptions : O → List UInt8
  unmarshalOptions : List UInt8 → Except Error O
  intersection : List String → List String → List String

variable {M Ty O D : Type}

/-- `queueEntry`. -/
structure QueueEntry (M O : Type) where
  msg : M
  opType : OpType
  fieldMask : List String
  setToNullPaths : List String
  operationOptions : Option O

/-- `TypeCatalog.Get`: the type registered under the name. -/
def Codec.get (c : Codec M Ty O D) (typeName : String) : Except Error Ty :=
  if typeName = "" then .error (.new .invalidParameter "missing type name")
  else
    match c.catalog.lookup typeName with
    | some ty => .ok ty
    | none => .error (.new .keyNotFound "type name not found")

/-- `TypeCatalog.GetTypeName`: the name under which the message's type is
registered. -/
def Codec.getTypeName [DecidableEq Ty] (c : Codec M Ty O D) (m : M) : Except Error String :=
  match c.catalog.find? (fun e => e.2 == c.typeOf m) with
  | some e => .ok e.1
  | none => .error (.new .invalidParameter ("unknown name for interface: " ++ c.typeString m))

/-- The `OperationOptions` of `add`: none without `dbw` options, their
conversion by `convertFromDbwOpts` otherwise. -/
def Codec.operationOpts (c : Codec M Ty O D) (opts : List D) : Except Error (Option O) :=
  if opts = [] then .ok none else ((c.fromDbwOpts opts).map some).mapError (Error.wrap "")

/-- The `AnyOperation` that `add` builds for a message whose bytes are `value`. -/
def Message.anyOperation (m : Message M D) (value : List UInt8) (operationOpts : Option O) :
    AnyOperation O :=
  ⟨m.typeName, some value, m.opType, some m.fieldMaskPaths, some m.setToNullPaths, operationOpts⟩

/-- A list of strings as `%s` prints it. -/
def formatPaths (paths : List String) : String := "[" ++ " ".intercalate paths ++ "]"

/-- `Queue.add`: the queue with the message's frame appended. -/
def Codec.add (c : Codec M Ty O D) (q : List UInt8) (m : Message M D) :
    Except Error (List UInt8) := do
  if !c.replayable m.message then
    .error (.new .invalidParameter (c.typeString m.message ++ " is not a replayable message"))
  let value ← (c.marshal m.message).mapError fun _ =>
    Error.new .encode "error marshaling add parameter"
  if m.opType = .update then
    if m.fieldMaskPaths = [] ∧ m.setToNullPaths = [] then
      .error (.new .invalidParameter "missing field masks or null paths for update")
    let i := c.intersection m.fieldMaskPaths m.setToNullPaths
    if i ≠ [] then
      .error (.new .invalidParameter ("field masks and null paths intersect with: " ++ formatPaths i))
  let operationOpts ← c.operationOpts m.opts
  pure (q ++ frame (encodeFields ((m.anyOperation value operationOpts).fields c.marshalOptions)))

/-- What `Queue.remove` answers: the end of the queue, or an item, which may be
nil. -/
inductive Removed (M O : Type) where
  | eof
  | item (entry : Option (QueueEntry M O))

/-- The item of `Queue.remove` once it has read the frame `data`, the queue
going on with `rest`. -/
def Codec.removeItem (c : Codec M Ty O D) (data rest : List UInt8) :
    Except Error (Removed M O × List UInt8) :=
  match unmarshalAnyOperation c.unmarshalOptions data with
  | .error _ => .error (.new .decode "error unmarshaling message")
  | .ok msg =>
    match msg.value with
    -- `if msg.Value == nil { return nil, nil }`
    | none => .ok (.item none, rest)
    | some value => do
      let ty ← (c.get msg.typeName).mapError
        (Error.wrap ("error getting the TypeName: " ++ msg.typeName))
      let pm ← (c.unmarshal ty value).mapError fun _ => Error.new .decode "error unmarshaling value"
      let masks := if msg.operationType = .update then msg.fieldMask.getD [] else []
      let nullPaths := if msg.operationType = .update then msg.nullMask.getD [] else []
      if msg.operationType = .update ∧ masks = [] ∧ nullPaths = [] then
        .error (.new .invalidParameter "field mask or null paths is required")
      pure (.item (some ⟨pm, msg.operationType, masks, nullPaths, msg.options⟩), rest)

/-- `Queue.remove`: the next item and the rest of the queue. -/
def Codec.remove (c : Codec M Ty O D) (q : List UInt8) :
    Except Error (Removed M O × List UInt8) :=
  -- `binary.Read` of the `uint32` length: the end of the queue, or four bytes
  if q = [] then .ok (.eof, [])
  else if q.length < 4 then .error (.new .io "binary read error")
  else
    -- `q.Next(int(n))`: at most the bytes that are left
    let n := ofLeBytes (q.take 4)
    c.removeItem ((q.drop 4).take n) ((q.drop 4).drop n)

/-- The panic of a nil pointer dereference. -/
def nilDereference : Error := .runtimeError "invalid memory address or nil pointer dereference"

/-! ## Adding and removing one message -/

section Steps

variable (c : Codec M Ty O D)

/-- A message `add` accepts: its bytes and options, the masks of an update,
and its frame appended to the queue. -/
theorem add_eq_ok {q q' : List UInt8} {m : Message M D} (h : c.add q m = .ok q') :
    ∃ value oo, c.marshal m.message = .ok value ∧ c.operationOpts m.opts = .ok oo ∧
      (m.opType = .update → ¬(m.fieldMaskPaths = [] ∧ m.setToNullPaths = [])) ∧
      q' = q ++ frame (encodeFields ((m.anyOperation value oo).fields c.marshalOptions)) := by
  unfold Codec.add at h
  cases hrep : c.replayable m.message
  · simp [hrep] at h
  cases hvalue : c.marshal m.message with
  | error e => simp [hrep, hvalue, Except.mapError] at h
  | ok value =>
    simp [hrep, hvalue, Except.mapError] at h
    -- the checks of an update pass, then the options convert
    have hupdate : m.opType = .update → ¬(m.fieldMaskPaths = [] ∧ m.setToNullPaths = []) := by
      intro hup hboth
      simp [hup, hboth] at h
    cases hoo : c.operationOpts m.opts with
    | error e => split_ifs at h <;> simp [hoo] at h
    | ok oo =>
      refine ⟨value, oo, rfl, rfl, hupdate, ?_⟩
      split_ifs at h <;> simp_all

/-- `remove` reads a frame back whole, when its length fits the `uint32`. -/
theorem remove_frame (data rest : List UInt8) (hdata : data.length < 2 ^ 32) :
    c.remove (frame data ++ rest) = c.removeItem data rest := by
  have hne : frame data ++ rest ≠ [] := by
    simp [frame, ← List.length_eq_zero_iff]
  have hlen : ¬(frame data ++ rest).length < 4 := by simp [frame]
  have htake : (frame data ++ rest).take 4 = leBytes 4 data.length := by
    simp only [frame, List.append_assoc]
    exact List.take_left' (length_leBytes 4 _)
  have hdrop : (frame data ++ rest).drop 4 = data ++ rest := by
    simp only [frame, List.append_assoc]
    exact List.drop_left' (length_leBytes 4 _)
  have hn : ofLeBytes (leBytes 4 data.length) = data.length :=
    (ofLeBytes_leBytes 4 _).trans (Nat.mod_eq_of_lt (lt_of_lt_of_eq hdata (by norm_num)))
  unfold Codec.remove
  rw [if_neg hne, if_neg hlen]
  simp only [htake, hdrop, hn, List.take_left, List.drop_left]

theorem get_of_lookup {name : String} {ty : Ty} (hname : name ≠ "")
    (h : c.catalog.lookup name = some ty) : c.get name = .ok ty := by
  simp [Codec.get, hname, h]

theorem mem_catalog_of_lookup {name : String} {ty : Ty} (h : c.catalog.lookup name = some ty) :
    (name, ty) ∈ c.catalog := by
  obtain ⟨l₁, l₂, hcat, -⟩ := List.lookup_eq_some_iff.mp h
  rw [hcat]
  simp

/-- In a catalog whose types are distinct, a message's type is named by the
name it is registered under. -/
theorem getTypeName_of_lookup [DecidableEq Ty] (hnodup : (c.catalog.map Prod.snd).Nodup) {m : M} {name : String}
    (h : c.catalog.lookup name = some (c.typeOf m)) : c.getTypeName m = .ok name := by
  have hmem := mem_catalog_of_lookup c h
  -- the entry registered under the name is the only one of its type
  obtain ⟨e, he⟩ : ∃ e, c.catalog.find? (fun e => e.2 == c.typeOf m) = some e :=
    Option.isSome_iff_exists.mp (List.find?_isSome.mpr ⟨_, hmem, by simp⟩)
  have heq : e = (name, c.typeOf m) :=
    List.inj_on_of_nodup_map hnodup (List.mem_of_find?_eq_some he) hmem
      (by simpa using List.find?_some he)
  unfold Codec.getTypeName
  rw [he, heq]

/-- The frame of a message whose bytes are empty reads back as a nil item. -/
theorem removeItem_empty (m : Message M D) (oo : Option O) (rest : List UInt8)
    (hoptions : ∀ o, c.unmarshalOptions (c.marshalOptions o) = .ok o) :
    c.removeItem (encodeFields ((m.anyOperation [] oo).fields c.marshalOptions)) rest =
      .ok (.item none, rest) := by
  unfold Codec.removeItem
  rw [unmarshalAnyOperation_fields _ _ _ fun o _ => hoptions o]
  rfl

/-- The frame of a message whose bytes are not empty reads back as the
message's entry, the masks kept for an update only. -/
theorem removeItem_anyOperation (m : Message M D) {value : List UInt8} (oo : Option O)
    (rest : List UInt8) {ty : Ty} {pm : M}
    (hoptions : ∀ o, c.unmarshalOptions (c.marshalOptions o) = .ok o)
    (hvalue : value ≠ []) (hname : m.typeName ≠ "")
    (hty : c.catalog.lookup m.typeName = some ty) (hpm : c.unmarshal ty value = .ok pm)
    (hupdate : m.opType = .update → ¬(m.fieldMaskPaths = [] ∧ m.setToNullPaths = [])) :
    c.removeItem (encodeFields ((m.anyOperation value oo).fields c.marshalOptions)) rest =
      .ok (.item (some ⟨pm, m.opType, if m.opType = .update then m.fieldMaskPaths else [],
        if m.opType = .update then m.setToNullPaths else [], oo⟩), rest) := by
  have hcanon : (m.anyOperation value oo).canonical = m.anyOperation value oo := by
    simp [AnyOperation.canonical, Message.anyOperation, Option.filter, hvalue]
  unfold Codec.removeItem
  rw [unmarshalAnyOperation_fields _ _ _ fun o _ => hoptions o, hcanon]
  simp only [Message.anyOperation, get_of_lookup c hname hty]
  by_cases hup : m.opType = .update
  · simp [hup, hupdate hup, hpm, Except.mapError]
  · simp [hup, hpm, Except.mapError]

end Steps

end Boundary.Oplog
