import Boundary.Oplog.Queue

/-!
# Oplog entry data

`WriteEntryWith` appends the frames of its messages to an entry's data, and
`UnmarshalData` removes them again until the queue is empty.
-/

namespace Boundary.Oplog

open Wire GoControl

variable {M Ty O D : Type}

/-- `convertToDbwOpts`: no options give no `dbw` options. -/
def Codec.convertToDbwOpts (c : Codec M Ty O D) : Option O → Except Error (List D)
  | none => .ok []
  | some o => c.toDbwOpts o

/-- The loop of `UnmarshalData`, at most `fuel` removals. -/
def Codec.unmarshalLoop [DecidableEq Ty] (c : Codec M Ty O D) :
    Nat → List UInt8 → List (Message M D) → Option (Except Error (List (Message M D)))
  | 0, _, _ => none
  | fuel + 1, q, msgs =>
    match c.remove q with
    | .error e => some (.error (e.wrap "error removing item from queue"))
    | .ok (.eof, _) => some (.ok msgs)
    -- `types.GetTypeName(ctx, item.msg)` on a nil item
    | .ok (.item none, _) => some (.error nilDereference)
    | .ok (.item (some item), rest) =>
      match c.getTypeName item.msg, c.convertToDbwOpts item.operationOptions with
      | .error e, _ => some (.error (e.wrap ""))
      | .ok _, .error e => some (.error (e.wrap ""))
      | .ok name, .ok dbwOpts =>
        c.unmarshalLoop fuel rest
          (msgs ++ [⟨item.msg, name, item.opType, item.fieldMask, item.setToNullPaths, dbwOpts⟩])

/-- `Entry.UnmarshalData` of an entry's data; each removal takes at least four
bytes, so the loop ends within that many rounds. -/
def Codec.unmarshalData [DecidableEq Ty] (c : Codec M Ty O D) (data : List UInt8) :
    Option (Except Error (List (Message M D))) :=
  if data = [] then some (.error (.new .invalidParameter "missing data"))
  else c.unmarshalLoop (data.length + 1) data []

/-- The bytes `WriteEntryWith` appends to an entry's data: the queue of the
messages' frames. -/
def Codec.writeEntryData (c : Codec M Ty O D) (msgs : List (Message M D)) :
    Except Error (List UInt8) :=
  msgs.foldlM (fun q m => (c.add q m).mapError (Error.wrap "error adding message to queue")) []

/-! ## The round trip -/

/-- What the round trip needs of the code the model leaves open: `proto.Unmarshal`
into a new value of a message's type inverts `proto.Marshal`, for the messages
and for the operation options; the catalog, which `TypeCatalog.Set` builds, has
no empty name and maps names to distinct types; and `convertToDbwOpts` accepts
what `convertFromDbwOpts` builds. -/
structure Codec.Lawful (c : Codec M Ty O D) : Prop where
  unmarshal_marshal : ∀ m value, c.marshal m = .ok value → c.unmarshal (c.typeOf m) value = .ok m
  unmarshalOptions_marshalOptions : ∀ o, c.unmarshalOptions (c.marshalOptions o) = .ok o
  names_ne_empty : ∀ e ∈ c.catalog, e.1 ≠ ""
  types_nodup : (c.catalog.map Prod.snd).Nodup
  toDbwOpts_ok : ∀ opts o, c.fromDbwOpts opts = .ok o → ∃ dbwOpts, c.toDbwOpts o = .ok dbwOpts

/-- The message's type is registered in the catalog under its type name. -/
def Codec.Registered (c : Codec M Ty O D) (m : Message M D) : Prop :=
  c.catalog.lookup m.typeName = some (c.typeOf m.message)

/-- `m'` is what `UnmarshalData` should give back for `m`: the same message,
type name and op type, the masks of an update and none otherwise, and the `dbw`
options converted to `OperationOptions` and back. -/
structure Codec.Restores (c : Codec M Ty O D) (m m' : Message M D) : Prop where
  message_eq : m'.message = m.message
  typeName_eq : m'.typeName = m.typeName
  opType_eq : m'.opType = m.opType
  fieldMaskPaths_eq : m'.fieldMaskPaths = if m.opType = .update then m.fieldMaskPaths else []
  setToNullPaths_eq : m'.setToNullPaths = if m.opType = .update then m.setToNullPaths else []
  opts_eq : (c.operationOpts m.opts >>= c.convertToDbwOpts) = .ok m'.opts

/-- The queue `WriteEntryWith` builds: the frame of each message in turn, with
the bytes and options `add` made of it. -/
inductive Codec.Frames (c : Codec M Ty O D) : List (Message M D) → List UInt8 → Prop
  | nil : c.Frames [] []
  | cons {m : Message M D} {ms : List (Message M D)} {value : List UInt8} {oo : Option O}
      {rest : List UInt8} :
      c.marshal m.message = .ok value → c.operationOpts m.opts = .ok oo →
      (m.opType = .update → ¬(m.fieldMaskPaths = [] ∧ m.setToNullPaths = [])) →
      c.Frames ms rest →
      c.Frames (m :: ms)
        (frame (encodeFields ((m.anyOperation value oo).fields c.marshalOptions)) ++ rest)

section RoundTrip

variable (c : Codec M Ty O D)

theorem foldlM_add_frames : ∀ (msgs : List (Message M D)) (q data : List UInt8),
    msgs.foldlM (fun q m => (c.add q m).mapError (Error.wrap "error adding message to queue")) q =
      .ok data → ∃ rest, data = q ++ rest ∧ c.Frames msgs rest
  | [], q, data, h => by
    simp only [List.foldlM_nil] at h
    cases h
    exact ⟨[], by simp, .nil⟩
  | m :: ms, q, data, h => by
    rw [List.foldlM_cons] at h
    obtain ⟨q', hadd, hrest⟩ := bind_eq_ok.mp h
    obtain ⟨value, oo, hvalue, hoo, hupdate, rfl⟩ := add_eq_ok c (mapError_eq_ok_iff.mp hadd)
    obtain ⟨rest, rfl, hframes⟩ := foldlM_add_frames ms _ data hrest
    exact ⟨_ ++ rest, by simp, .cons hvalue hoo hupdate hframes⟩

/-- `WriteEntryWith` appends one frame for each message, in order. -/
theorem writeEntryData_frames {msgs : List (Message M D)} {data : List UInt8}
    (h : c.writeEntryData msgs = .ok data) : c.Frames msgs data := by
  obtain ⟨rest, rfl, hframes⟩ := foldlM_add_frames c msgs [] data h
  simpa using hframes

theorem Codec.Frames.length_le {c : Codec M Ty O D} {msgs : List (Message M D)} {data : List UInt8}
    (h : c.Frames msgs data) : 4 * msgs.length ≤ data.length := by
  induction h with
  | nil => simp
  | cons _ _ _ _ ih => simp [frame]; omega

theorem Codec.Frames.append_inv {c : Codec M Ty O D} :
    ∀ {pre post : List (Message M D)} {data : List UInt8}, c.Frames (pre ++ post) data →
      ∃ d₁ d₂, data = d₁ ++ d₂ ∧ c.Frames pre d₁ ∧ c.Frames post d₂
  | [], _, data, h => ⟨[], data, rfl, .nil, h⟩
  | _ :: _, _, _, .cons hvalue hoo hupdate h => by
    obtain ⟨d₁, d₂, rfl, h₁, h₂⟩ := Codec.Frames.append_inv h
    exact ⟨_ ++ d₁, d₂, by simp, .cons hvalue hoo hupdate h₁, h₂⟩

variable [DecidableEq Ty]

/-- `UnmarshalData` stops at the end of the queue. -/
theorem unmarshalLoop_nil (fuel : Nat) (acc : List (Message M D)) :
    c.unmarshalLoop (fuel + 1) [] acc = some (.ok acc) := by
  simp [Codec.unmarshalLoop, Codec.remove]

/-- One round of `UnmarshalData` on the frame of a registered message whose
bytes are not empty: the message comes back, and the loop goes on after it. -/
theorem unmarshalLoop_frame (hc : c.Lawful) {m : Message M D} {value : List UInt8}
    {oo : Option O} (hvalue : c.marshal m.message = .ok value) (hoo : c.operationOpts m.opts = .ok oo)
    (hupdate : m.opType = .update → ¬(m.fieldMaskPaths = [] ∧ m.setToNullPaths = []))
    (hreg : c.Registered m) (hne : value ≠ []) (rest : List UInt8) (acc : List (Message M D))
    (fuel : Nat)
    (hsize : (encodeFields ((m.anyOperation value oo).fields c.marshalOptions)).length < 2 ^ 32) :
    ∃ m', c.Restores m m' ∧
      c.unmarshalLoop (fuel + 1)
        (frame (encodeFields ((m.anyOperation value oo).fields c.marshalOptions)) ++ rest) acc =
      c.unmarshalLoop fuel rest (acc ++ [m']) := by
  have hname : m.typeName ≠ "" := hc.names_ne_empty _ (mem_catalog_of_lookup c hreg)
  have hitem := removeItem_anyOperation c m oo rest hc.unmarshalOptions_marshalOptions hne hname
    hreg (hc.unmarshal_marshal _ _ hvalue) hupdate
  -- the options `add` converted come back through `convertToDbwOpts`
  obtain ⟨dbwOpts, hdbw⟩ : ∃ dbwOpts, c.convertToDbwOpts oo = .ok dbwOpts := by
    unfold Codec.operationOpts at hoo
    split at hoo
    · cases hoo; exact ⟨[], rfl⟩
    · obtain ⟨o, ho, rfl⟩ : ∃ o, c.fromDbwOpts m.opts = .ok o ∧ oo = some o := by
        cases h : c.fromDbwOpts m.opts <;> simp_all [Except.mapError]
      exact hc.toDbwOpts_ok _ _ ho
  refine ⟨⟨m.message, m.typeName, m.opType, if m.opType = .update then m.fieldMaskPaths else [],
    if m.opType = .update then m.setToNullPaths else [], dbwOpts⟩,
    ⟨rfl, rfl, rfl, rfl, rfl, by rw [hoo, ok_bind, hdbw]⟩, ?_⟩
  rw [Codec.unmarshalLoop, remove_frame c _ _ hsize, hitem]
  simp only [getTypeName_of_lookup c hc.types_nodup hreg, hdbw]

/-- One round of `UnmarshalData` on the frame of a message whose bytes are
empty: the nil item is dereferenced. -/
theorem unmarshalLoop_empty_frame (hc : c.Lawful) (m : Message M D) (oo : Option O)
    (rest : List UInt8) (acc : List (Message M D)) (fuel : Nat)
    (hsize : (encodeFields ((m.anyOperation [] oo).fields c.marshalOptions)).length < 2 ^ 32) :
    c.unmarshalLoop (fuel + 1)
      (frame (encodeFields ((m.anyOperation [] oo).fields c.marshalOptions)) ++ rest) acc =
      some (.error nilDereference) := by
  rw [Codec.unmarshalLoop, remove_frame c _ _ hsize,
    removeItem_empty c m oo rest hc.unmarshalOptions_marshalOptions]

/-- `UnmarshalData` reads the frames of registered messages whose bytes are
not empty back one by one, and goes on with what follows them. -/
theorem unmarshalLoop_frames (hc : c.Lawful) {msgs : List (Message M D)} {data : List UInt8}
    (hframes : c.Frames msgs data)
    (hmsgs : ∀ m ∈ msgs, c.Registered m ∧ ∀ value, c.marshal m.message = .ok value → value ≠ [])
    (rest : List UInt8) (acc : List (Message M D)) (fuel : Nat)
    (hsize : (data ++ rest).length < 2 ^ 32) :
    ∃ out, List.Forall₂ c.Restores msgs out ∧
      c.unmarshalLoop (fuel + msgs.length) (data ++ rest) acc =
        c.unmarshalLoop fuel rest (acc ++ out) := by
  induction hframes generalizing acc with
  | nil => exact ⟨[], .nil, by simp⟩
  | @cons m ms value oo frames hvalue hoo hupdate _ ih =>
    have hm := hmsgs m List.mem_cons_self
    simp only [frame, List.length_append, length_leBytes] at hsize
    obtain ⟨m', hm', hstep⟩ := unmarshalLoop_frame c hc hvalue hoo hupdate hm.1
      (hm.2 value hvalue) (frames ++ rest) acc (fuel + ms.length) (by omega)
    obtain ⟨out, hout, hloop⟩ := ih (fun p hp => hmsgs p (List.mem_cons_of_mem m hp))
      (acc ++ [m']) (by simp only [List.length_append] at hsize ⊢; omega)
    refine ⟨m' :: out, .cons hm' hout, ?_⟩
    rw [List.length_cons, ← Nat.add_assoc, List.append_assoc, hstep, hloop,
      List.append_assoc, List.singleton_append]

/-- Entry data round-trips for messages whose bytes are not empty:
`UnmarshalData` gives back, in order, what `WriteEntryWith` wrote. -/
theorem unmarshalData_writeEntryData (hc : c.Lawful) {msgs : List (Message M D)}
    {data : List UInt8}
    (hmsgs : ∀ m ∈ msgs, c.Registered m ∧ ∀ value, c.marshal m.message = .ok value → value ≠ [])
    (hne : msgs ≠ []) (hdata : c.writeEntryData msgs = .ok data) (hsize : data.length < 2 ^ 32) :
    ∃ out, c.unmarshalData data = some (.ok out) ∧ List.Forall₂ c.Restores msgs out := by
  have hframes := writeEntryData_frames c hdata
  have hlen := hframes.length_le
  have hpos : 0 < msgs.length := List.length_pos_of_ne_nil hne
  have hdata_ne : data ≠ [] := List.ne_nil_of_length_pos (by omega)
  obtain ⟨out, hout, hloop⟩ := unmarshalLoop_frames c hc hframes hmsgs [] []
    (data.length - msgs.length + 1) (by simpa using hsize)
  refine ⟨out, ?_, hout⟩
  have hfuel : data.length + 1 = data.length - msgs.length + 1 + msgs.length := by omega
  rw [List.append_nil] at hloop
  -- every frame read, the queue is empty
  rw [Codec.unmarshalData, if_neg hdata_ne, hfuel, hloop, List.nil_append, unmarshalLoop_nil]

/-- A message whose bytes are empty, written after messages that read back,
makes `UnmarshalData` dereference a nil item: `remove` answers nil for its
frame, whose value proto3 left out. -/
theorem unmarshalData_empty_message_panics (hc : c.Lawful) (pre : List (Message M D))
    (m : Message M D) (post : List (Message M D)) {data : List UInt8}
    (hpre : ∀ p ∈ pre, c.Registered p ∧ ∀ value, c.marshal p.message = .ok value → value ≠ [])
    (hempty : c.marshal m.message = .ok [])
    (hdata : c.writeEntryData (pre ++ m :: post) = .ok data) (hsize : data.length < 2 ^ 32) :
    c.unmarshalData data = some (.error nilDereference) := by
  obtain ⟨d₁, d₂, rfl, hpreFrames, hrest⟩ := (writeEntryData_frames c hdata).append_inv
  have hpreLen := hpreFrames.length_le
  -- the frame of the empty message follows those of `pre`
  cases hrest with
  | @cons _ _ value oo rest hvalue _ _ _ =>
    obtain rfl : value = [] := Except.ok.inj (hvalue.symm.trans hempty)
    set bytes := encodeFields ((m.anyOperation [] oo).fields c.marshalOptions)
    have hbytes : bytes.length < 2 ^ 32 := by
      simp only [List.length_append, frame, length_leBytes] at hsize
      omega
    have hdata_ne : d₁ ++ (frame bytes ++ rest) ≠ [] := by
      simp [frame, ← List.length_eq_zero_iff]
    have hfuel : (d₁ ++ (frame bytes ++ rest)).length + 1 =
        (d₁ ++ (frame bytes ++ rest)).length - pre.length + 1 + pre.length := by
      simp only [List.length_append, frame, length_leBytes]
      omega
    obtain ⟨out, -, hloop⟩ := unmarshalLoop_frames c hc hpreFrames hpre (frame bytes ++ rest) []
      ((d₁ ++ (frame bytes ++ rest)).length - pre.length + 1) hsize
    rw [Codec.unmarshalData, if_neg hdata_ne, hfuel, hloop]
    exact unmarshalLoop_empty_frame c hc m oo rest _ _ hbytes

end RoundTrip

/-- A catalog of one type, `test_user`, whose messages are their own bytes: an
`oplog_test.TestUser` with every field at its default marshals to none. -/
def userCodec : Codec (List UInt8) Unit Unit Unit where
  typeOf _ := ()
  typeString _ := "*oplog_test.TestUser"
  replayable _ := true
  marshal m := .ok m
  unmarshal _ value := .ok value
  catalog := [("test_user", ())]
  fromDbwOpts _ := .ok ()
  toDbwOpts _ := .ok []
  marshalOptions _ := []
  unmarshalOptions _ := .ok ()
  intersection fieldMasks nullPaths := fieldMasks.filter (· ∈ nullPaths)

theorem userCodec_lawful : userCodec.Lawful where
  unmarshal_marshal _ _ h := by cases h; rfl
  unmarshalOptions_marshalOptions _ := rfl
  names_ne_empty e he := by
    simp only [userCodec, List.mem_singleton] at he
    simp [he]
  types_nodup := by simp [userCodec]
  toDbwOpts_ok _ _ _ := ⟨[], rfl⟩

/-- A create of a `test_user` whose bytes are empty. -/
def emptyUser : Message (List UInt8) Unit := ⟨[], "test_user", .create, [], [], []⟩

/-- The entry data of the empty user: the length 17, then the type name
(field 1), the op type (field 3) and the two empty masks (fields 4 and 5), and
no value (field 2). -/
theorem unmarshalData_empty_user_panics :
    userCodec.writeEntryData [emptyUser] = .ok
        [17, 0, 0, 0, 10, 9, 116, 101, 115, 116, 95, 117, 115, 101, 114, 24, 1, 34, 0, 42, 0] ∧
      userCodec.unmarshalData
        [17, 0, 0, 0, 10, 9, 116, 101, 115, 116, 95, 117, 115, 101, 114, 24, 1, 34, 0, 42, 0] =
        some (.error nilDereference) :=
  ⟨by decide, unmarshalData_empty_message_panics userCodec userCodec_lawful [] emptyUser []
    (by simp) rfl (by decide) (by decide)⟩

/-- A user whose bytes are not empty comes back. -/
example : userCodec.unmarshalData
    [20, 0, 0, 0, 10, 9, 116, 101, 115, 116, 95, 117, 115, 101, 114, 18, 1, 7, 24, 1, 34, 0, 42, 0]
      = some (.ok [⟨[7], "test_user", .create, [], [], []⟩]) := by rfl

end Boundary.Oplog
