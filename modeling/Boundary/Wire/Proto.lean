import Mathlib

/-!
# The protobuf wire format

A message on the wire is a sequence of fields, each a key (the field number and
the wire type) followed by its payload: a varint, or a length and that many
bytes. Proto3 leaves out a scalar field at its default value, so the decoder of
a message starts from the defaults and sets what it reads.

Only the varint and length-delimited wire types are modelled; the decoder
rejects the fixed-width and group wire types and field number zero, as
`proto.Unmarshal` does for the last.
-/

namespace Wire

/-! ## Varints -/

/-- The varint of `n`, at most `fuel` groups of seven bits. -/
def varintFuel : Nat → Nat → List UInt8
  | 0, _ => []
  | fuel + 1, n =>
    if n < 128 then [n.toUInt8] else (n % 128 + 128).toUInt8 :: varintFuel fuel (n / 128)

/-- `protowire.AppendVarint`: seven bits a byte, least significant first, the
high bit set on every byte but the last. -/
def varint (n : Nat) : List UInt8 := varintFuel (n + 1) n

/-- `protowire.ConsumeVarint`: the number and the bytes after it. -/
def decodeVarint : List UInt8 → Option (Nat × List UInt8)
  | [] => none
  | b :: bs =>
    if b.toNat < 128 then some (b.toNat, bs)
    else (decodeVarint bs).map fun (n, rest) => (b.toNat - 128 + 128 * n, rest)

theorem decodeVarint_varintFuel (rest : List UInt8) :
    ∀ fuel n, n < fuel → decodeVarint (varintFuel fuel n ++ rest) = some (n, rest)
  | 0, _, h => absurd h (Nat.not_lt_zero _)
  | fuel + 1, n, h => by
    by_cases hn : n < 128
    · have hbyte : n.toUInt8.toNat = n :=
        UInt8.toNat_ofNat_of_lt' (lt_of_lt_of_le hn (by decide))
      simp [varintFuel, hn, decodeVarint, hbyte]
    · -- a byte with the high bit set, then the varint of the rest
      have hbyte : (n % 128 + 128).toUInt8.toNat = n % 128 + 128 :=
        UInt8.toNat_ofNat_of_lt' (lt_of_lt_of_le (by omega : n % 128 + 128 < 256) (by decide))
      have hrest : n / 128 < fuel := by omega
      simp only [varintFuel, hn, if_false, List.cons_append, decodeVarint, hbyte,
        decodeVarint_varintFuel rest fuel (n / 128) hrest, Option.map_some]
      rw [if_neg (by omega)]
      congr 2
      omega

theorem decodeVarint_varint (n : Nat) (rest : List UInt8) :
    decodeVarint (varint n ++ rest) = some (n, rest) :=
  decodeVarint_varintFuel rest (n + 1) n (Nat.lt_succ_self n)

theorem varint_ne_nil (n : Nat) : varint n ≠ [] := by
  unfold varint varintFuel
  split <;> simp

/-! ## Fields -/

/-- A field on the wire: its number and a varint or length-delimited payload. -/
inductive Field where
  | varint (num : Nat) (value : Nat)
  | bytes (num : Nat) (payload : List UInt8)
  deriving DecidableEq, Repr

/-- The field's number. -/
def Field.num : Field → Nat
  | .varint num _ => num
  | .bytes num _ => num

/-- The field's key and payload. -/
def Field.encode : Field → List UInt8
  | .varint num value => Wire.varint (num * 8) ++ Wire.varint value
  | .bytes num payload => Wire.varint (num * 8 + 2) ++ Wire.varint payload.length ++ payload

/-- The fields one after another. -/
def encodeFields (fs : List Field) : List UInt8 := fs.flatMap Field.encode

/-- One field off the front of the bytes. -/
def decodeField (bs : List UInt8) : Option (Field × List UInt8) :=
  (decodeVarint bs).bind fun (key, rest) =>
    if key / 8 = 0 then none
    else if key % 8 = 0 then
      (decodeVarint rest).map fun (value, rest) => (.varint (key / 8) value, rest)
    else if key % 8 = 2 then
      (decodeVarint rest).bind fun (len, rest) =>
        if len ≤ rest.length then some (.bytes (key / 8) (rest.take len), rest.drop len)
        else none
    else none

/-- The fields of the bytes, at most `fuel` of them. -/
def decodeFieldsFuel : Nat → List UInt8 → Option (List Field)
  | _, [] => some []
  | 0, _ :: _ => none
  | fuel + 1, bs@(_ :: _) =>
    (decodeField bs).bind fun (f, rest) => (decodeFieldsFuel fuel rest).map (f :: ·)

/-- The fields of a message's bytes. -/
def decodeFields (bs : List UInt8) : Option (List Field) := decodeFieldsFuel bs.length bs

theorem Field.encode_ne_nil (f : Field) : f.encode ≠ [] := by
  cases f <;> simp [Field.encode, varint_ne_nil]

theorem decodeField_encode (f : Field) (hnum : 0 < f.num) (rest : List UInt8) :
    decodeField (f.encode ++ rest) = some (f, rest) := by
  cases f with
  | varint num value =>
    simp only [Field.num] at hnum
    have hkey : num * 8 / 8 ≠ 0 := by omega
    simp only [Field.encode, decodeField, List.append_assoc, decodeVarint_varint,
      Option.bind_some, Nat.mul_div_cancel num (by decide : 0 < 8), if_neg (by omega : ¬num = 0),
      Nat.mul_mod_left, if_true, Option.map_some]
  | bytes num payload =>
    simp only [Field.num] at hnum
    have hkey : (num * 8 + 2) / 8 = num := by omega
    have hwire : (num * 8 + 2) % 8 = 2 := by omega
    simp only [Field.encode, decodeField, List.append_assoc, decodeVarint_varint,
      Option.bind_some, hkey, hwire, if_neg (by omega : ¬num = 0), if_neg (by decide : ¬2 = 0),
      if_true, List.length_append, Nat.le_add_right, List.take_left', List.drop_left']

/-- Decoding undoes encoding, for fields with non-zero numbers. -/
theorem decodeFieldsFuel_encodeFields :
    ∀ (fs : List Field), (∀ f ∈ fs, 0 < f.num) →
      ∀ fuel, fs.length ≤ fuel → decodeFieldsFuel fuel (encodeFields fs) = some fs
  | [], _, fuel, _ => by cases fuel <;> rfl
  | f :: fs, hnum, fuel + 1, hlen => by
    have hne : encodeFields (f :: fs) ≠ [] := by
      simp [encodeFields, Field.encode_ne_nil]
    obtain ⟨b, bs, hbs⟩ := List.exists_cons_of_ne_nil hne
    have hdecode := decodeField_encode f (hnum f List.mem_cons_self) (encodeFields fs)
    have hrest := decodeFieldsFuel_encodeFields fs (fun g hg => hnum g (List.mem_cons_of_mem f hg))
      fuel (by simpa using hlen)
    simp only [encodeFields, List.flatMap_cons] at hbs hdecode hrest ⊢
    rw [hbs, decodeFieldsFuel, ← hbs, hdecode, Option.bind_some]
    dsimp only
    rw [hrest, Option.map_some]
  | _ :: _, _, 0, hlen => absurd hlen (by simp)

theorem length_le_encodeFields (fs : List Field) : fs.length ≤ (encodeFields fs).length := by
  induction fs with
  | nil => simp
  | cons f fs ih =>
    have hf : 0 < f.encode.length := List.length_pos_of_ne_nil (Field.encode_ne_nil f)
    simp only [encodeFields, List.flatMap_cons, List.length_append, List.length_cons] at ih ⊢
    omega

theorem decodeFields_encodeFields (fs : List Field) (hnum : ∀ f ∈ fs, 0 < f.num) :
    decodeFields (encodeFields fs) = some fs :=
  decodeFieldsFuel_encodeFields fs hnum _ (length_le_encodeFields fs)

end Wire
