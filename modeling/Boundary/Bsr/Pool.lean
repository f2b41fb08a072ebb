import Boundary.Bsr.RoundTrip

/-!
# The encoder's pooled buffer

`Encode` takes an `encodeCache` from `encodeCachePool`, and `Reset` clears its
compression buffer and its CRC but not the 21 bytes `crced`: the protocol and
the chunk type are copied over whatever the last chunk encoded with that cache
left there. A chunk whose protocol and chunk type have four bytes overwrites
all 21 bytes and is written the same over any buffer (`encode_fixed_bytes`).
A protocol of fewer bytes, which `NewBaseChunk` accepts, leaves the buffer's
next byte in the chunk written: the bytes depend on the chunk encoded before,
and `Decode`, which reads four bytes of protocol, never gives the protocol back.
-/

namespace Boundary.Bsr

open Wire

variable {R : Type}

theorem encode_eq_ok {e : ChunkEncoder} {cs : Codecs R} {crced crced' : List.Vector UInt8 crcDataSize}
    {c : Chunk R} {bytes : List UInt8} (h : e.encode cs crced c = .ok (bytes, crced')) :
    ∃ data, c.marshalData cs = .ok data ∧ crced'.toList = crcedBytes crced.toList c.base ∧
      bytes = beBytes 4 (e.compress cs c.base.type data).length ++ crced'.toList ++
        e.compress cs c.base.type data ++
        beBytes 4 (cs.crc32 (crced'.toList ++ e.compress cs c.base.type data)).toNat := by
  obtain ⟨data, hdata⟩ := marshalData_of_encode h
  unfold ChunkEncoder.encode at h
  rw [hdata] at h
  obtain ⟨rfl, rfl⟩ := Prod.mk.inj (Except.ok.inj h)
  exact ⟨data, hdata, rfl, rfl⟩

/-- A chunk with a four-byte protocol and chunk type is written the same over
any buffer. -/
theorem encode_fixed_bytes {e : ChunkEncoder} {cs : Codecs R} {c : Chunk R}
    (hp : c.base.protocol.length = 4) (ht : c.base.type.length = 4)
    (crced₁ crced₂ : List.Vector UInt8 crcDataSize) :
    (e.encode cs crced₁ c).map Prod.fst = (e.encode cs crced₂ c).map Prod.fst := by
  have h₁ := crcedBytes_eq crced₁.toList crced₁.toList_length c.base hp ht
  have h₂ := crcedBytes_eq crced₂.toList crced₂.toList_length c.base hp ht
  unfold ChunkEncoder.encode
  cases c.marshalData cs with
  | error err => rfl
  | ok data => simp only [Except.map, h₁, h₂]

/-- The `j`-th of the 21 bytes is the `j + 4`-th byte written. -/
theorem encode_getElem? {e : ChunkEncoder} {cs : Codecs R}
    {crced crced' : List.Vector UInt8 crcDataSize} {c : Chunk R} {bytes : List UInt8}
    (h : e.encode cs crced c = .ok (bytes, crced')) {j : Nat} (hj : j < crcDataSize) :
    bytes[4 + j]? = (crcedBytes crced.toList c.base)[j]? := by
  obtain ⟨data, -, hcrced, rfl⟩ := encode_eq_ok h
  have hlen : (crced'.toList ++ e.compress cs c.base.type data).length > j := by
    rw [List.length_append, crced'.toList_length]
    omega
  rw [List.append_assoc, List.append_assoc, List.getElem?_append_right (by simp),
    length_beBytes, Nat.add_sub_cancel_left, ← List.append_assoc,
    List.getElem?_append_left hlen, List.getElem?_append_left (by simp [hj]), hcrced]

/-- Past a protocol shorter than four bytes, the buffer's byte stays. -/
theorem crcedBytes_getElem?_stale (crced : List UInt8) (hcrced : crced.length = crcDataSize)
    (b : BaseChunk) (hp : b.protocol.length < 4) :
    (crcedBytes crced b)[b.protocol.length]? = crced[b.protocol.length]? := by
  unfold crcDataSize at hcrced
  have h1 : (copyAt crced 0 b.protocol).length = 21 := (length_copyAt _ _ _ (by omega)).trans hcrced
  have h2 : (copyAt (copyAt crced 0 b.protocol) 4 b.type).length = 21 :=
    (length_copyAt _ _ _ (by omega)).trans h1
  have h3 : (copyAt (copyAt (copyAt crced 0 b.protocol) 4 b.type) 8 [b.direction.value]).length =
      21 := (length_copyAt _ _ _ (by omega)).trans h2
  rw [crcedBytes, getElem?_copyAt_of_lt _ (by omega) (by omega),
    getElem?_copyAt_of_lt _ (by omega) (by omega), getElem?_copyAt_of_lt _ (by omega) hp,
    getElem?_copyAt_of_le _ (by omega) (by omega)]

/-- Within the first four bytes, the protocol's bytes. -/
theorem crcedBytes_getElem?_protocol (crced : List UInt8) (hcrced : crced.length = crcDataSize)
    (b : BaseChunk) {j : Nat} (hj : j < 4) (hjp : j < b.protocol.length) :
    (crcedBytes crced b)[j]? = b.protocol[j]? := by
  unfold crcDataSize at hcrced
  have h1 : (copyAt crced 0 b.protocol).length = 21 := (length_copyAt _ _ _ (by omega)).trans hcrced
  have h2 : (copyAt (copyAt crced 0 b.protocol) 4 b.type).length = 21 :=
    (length_copyAt _ _ _ (by omega)).trans h1
  have h3 : (copyAt (copyAt (copyAt crced 0 b.protocol) 4 b.type) 8 [b.direction.value]).length =
      21 := (length_copyAt _ _ _ (by omega)).trans h2
  rw [crcedBytes, getElem?_copyAt_of_lt _ (by omega) (by omega),
    getElem?_copyAt_of_lt _ (by omega) (by omega), getElem?_copyAt_of_lt _ (by omega) hj,
    getElem?_copyAt_src _ (Nat.zero_le j) (by omega) (by omega), Nat.sub_zero]

theorem newCrced_getElem? {j : Nat} (hj : j < crcDataSize) : newCrced.toList[j]? = some 0 := by
  show (List.replicate crcDataSize (0 : UInt8))[j]? = some 0
  rw [List.getElem?_replicate, if_pos hj]

/-! ## What `Decode` reads of the protocol -/

theorem newBaseChunk_eq_ok {p typ : List UInt8} {d : Direction} {t : Timestamp} {b : BaseChunk}
    (h : newBaseChunk p d t typ = .ok b) : b = ⟨p, d, t, typ⟩ := by
  unfold newBaseChunk at h
  split_ifs at h
  cases h
  rfl

/-- Every decode function keeps the base chunk it is handed. -/
theorem decodeFunc_base {cs : Codecs R} {p typ : List UInt8}
    {df : BaseChunk → List UInt8 → Except String (Chunk R)} (hdf : decodeFunc cs p typ = some df)
    {b : BaseChunk} {data : List UInt8} {c : Chunk R} (h : df b data = .ok c) : c.base = b := by
  unfold decodeFunc at hdf
  split_ifs at hdf <;> cases hdf
  · unfold decodeHeader at h
    split_ifs at h
    split at h <;> cases h
    rfl
  · unfold decodeEnd at h
    split_ifs at h
    cases h
    rfl
  · unfold sshDecodeChunk at h
    split_ifs at h
    · cases h; rfl
    · split at h <;> cases h
      rfl

theorem readFrame_length {cs : Codecs R} {r buf data : List UInt8} {n : Nat}
    (h : readFrame cs r = .ok (some (buf, data, n))) : buf.length = crcDataSize := by
  simp only [readFrame] at h
  split_ifs at h with h0 h25 <;> cases h
  simp only [List.length_take, List.length_drop]
  unfold crcDataSize
  omega

theorem decodeFrame_protocol {d : ChunkDecoder} {cs : Codecs R} {buf data : List UInt8}
    {c : Chunk R} {d' : ChunkDecoder} (h : d.decodeFrame cs buf data = .ok (c, d')) :
    c.base.protocol = buf.take 4 := by
  unfold ChunkDecoder.decodeFrame at h
  split at h
  · cases h
  · dsimp only at h
    split at h
    · cases h
    · rename_i b hb
      split at h
      · cases h
      · split at h
        · cases h
        · rename_i df hdf
          split at h
          · cases h
          · rename_i c' hc
            cases h
            rw [decodeFunc_base hdf hc, newBaseChunk_eq_ok hb]

/-- `Decode` reads four bytes of protocol, whatever chunk it reads. -/
theorem decode_protocol_length {d : ChunkDecoder} {cs : Codecs R} {r : List UInt8} {c : Chunk R}
    {d' : ChunkDecoder} {n : Nat} (h : d.decode cs r = .ok (some (c, d', n))) :
    c.base.protocol.length = 4 := by
  unfold ChunkDecoder.decode at h
  split at h
  · cases h
  · cases h
  · rename_i buf data m hframe
    cases hc : d.decodeFrame cs buf data with
    | error err => rw [hc] at h; cases h
    | ok p =>
      rw [hc] at h
      cases h
      have hbuf := readFrame_length hframe
      unfold crcDataSize at hbuf
      rw [decodeFrame_protocol hc, List.length_take]
      omega

/-! ## Two histories of the pool -/

theorem encodeInTurn_cons_eq_ok {e : ChunkEncoder} {cs : Codecs R}
    {crced : List.Vector UInt8 crcDataSize} {c : Chunk R} {rest : List (Chunk R)}
    {out : List (List UInt8)} (h : e.encodeInTurn cs crced (c :: rest) = .ok out) :
    ∃ bytes crced' more, e.encode cs crced c = .ok (bytes, crced') ∧
      e.encodeInTurn cs crced' rest = .ok more ∧ out = bytes :: more := by
  unfold ChunkEncoder.encodeInTurn at h
  cases hc : e.encode cs crced c with
  | error err => rw [hc] at h; cases h
  | ok p =>
    obtain ⟨bytes, crced'⟩ := p
    rw [hc] at h
    dsimp only at h
    cases hr : e.encodeInTurn cs crced' rest with
    | error err => rw [hr] at h; cases h
    | ok more =>
      rw [hr] at h
      exact ⟨bytes, crced', more, rfl, hr, (Except.ok.inj h).symm⟩

/-- A chunk whose protocol has fewer than four bytes is written with the byte
that the chunk encoded before it with the same cache left after its protocol:
after a chunk whose protocol has a byte other than zero there, it is written
otherwise than with a new cache. And no chunk `Decode` reads from what is
written has its protocol. -/
theorem encodeInTurn_short_protocol {e : ChunkEncoder} {cs : Codecs R} {c c' : Chunk R}
    (hp : c.base.protocol.length < 4) {x : UInt8} (hx : x ≠ 0)
    (hstale : c'.base.protocol[c.base.protocol.length]? = some x)
    {bytes₁ bytes₀ bytes₂ : List UInt8}
    (h₁ : e.encodeInTurn cs newCrced [c] = .ok [bytes₁])
    (h₂ : e.encodeInTurn cs newCrced [c', c] = .ok [bytes₀, bytes₂]) :
    bytes₁ ≠ bytes₂ ∧
      ∀ (d : ChunkDecoder) (bytes rest : List UInt8) (c₁ : Chunk R) (d₁ : ChunkDecoder) (n : Nat),
        (bytes = bytes₁ ∨ bytes = bytes₂) → d.decode cs (bytes ++ rest) = .ok (some (c₁, d₁, n)) →
          c₁.base.protocol ≠ c.base.protocol := by
  obtain ⟨_, k₁, _, henc₁, -, hout₁⟩ := encodeInTurn_cons_eq_ok h₁
  obtain ⟨_, k₀, _, henc₀, hmore, hout₂⟩ := encodeInTurn_cons_eq_ok h₂
  obtain ⟨_, k₂, _, henc₂, -, hmore₂⟩ := encodeInTurn_cons_eq_ok hmore
  obtain ⟨rfl, -⟩ := List.cons.inj hout₁
  obtain ⟨rfl, hrest⟩ := List.cons.inj hout₂
  obtain ⟨rfl, -⟩ := List.cons.inj (hrest.trans hmore₂)
  have hj : c.base.protocol.length < crcDataSize := by unfold crcDataSize; omega
  have hj' : c.base.protocol.length < c'.base.protocol.length :=
    (List.getElem?_eq_some_iff.mp hstale).1
  -- the byte after the protocol: the new cache's zero, or the protocol of `c'`
  have hbyte₁ : bytes₁[4 + c.base.protocol.length]? = some 0 := by
    rw [encode_getElem? henc₁ hj, crcedBytes_getElem?_stale _ newCrced.toList_length _ hp,
      newCrced_getElem? hj]
  have hbyte₂ : bytes₂[4 + c.base.protocol.length]? = some x := by
    obtain ⟨_, -, hk₀, -⟩ := encode_eq_ok henc₀
    rw [encode_getElem? henc₂ hj, crcedBytes_getElem?_stale _ k₀.toList_length _ hp, hk₀,
      crcedBytes_getElem?_protocol _ newCrced.toList_length _ (by omega) hj', hstale]
  refine ⟨fun heq => hx ?_, ?_⟩
  · rw [heq, hbyte₂] at hbyte₁
    exact Option.some.inj hbyte₁
  · intro d bytes rest c₁ d₁ n _ hdecode hprotocol
    have hlen := decode_protocol_length hdecode
    rw [hprotocol] at hlen
    omega

theorem encodeInTurn_protocol_ab_after_bssh :
    ∃ bytes₁ bytes₀ bytes₂,
      (ChunkEncoder.mk .none .none).encodeInTurn bytesCodecs newCrced
          [.header ⟨goBytes "AB", .inbound, epoch, chunkHeader⟩ .none .none []] = .ok [bytes₁] ∧
        (ChunkEncoder.mk .none .none).encodeInTurn bytesCodecs newCrced
          [.header ⟨sshProtocol, .inbound, epoch, chunkHeader⟩ .none .none [],
            .header ⟨goBytes "AB", .inbound, epoch, chunkHeader⟩ .none .none []] =
          .ok [bytes₀, bytes₂] ∧
        bytes₁ ≠ bytes₂ ∧
        ∀ (d : ChunkDecoder) (bytes rest : List UInt8) (c₁ : Chunk (List UInt8)) (d₁ : ChunkDecoder)
          (n : Nat), (bytes = bytes₁ ∨ bytes = bytes₂) →
          d.decode bytesCodecs (bytes ++ rest) = .ok (some (c₁, d₁, n)) →
            c₁.base.protocol ≠ goBytes "AB" := by
  obtain ⟨bytes₁, h₁⟩ : ∃ bytes₁, (ChunkEncoder.mk .none .none).encodeInTurn bytesCodecs newCrced
      [.header ⟨goBytes "AB", .inbound, epoch, chunkHeader⟩ .none .none []] = .ok [bytes₁] :=
    ⟨_, rfl⟩
  obtain ⟨bytes₀, bytes₂, h₂⟩ : ∃ bytes₀ bytes₂,
      (ChunkEncoder.mk .none .none).encodeInTurn bytesCodecs newCrced
        [.header ⟨sshProtocol, .inbound, epoch, chunkHeader⟩ .none .none [],
          .header ⟨goBytes "AB", .inbound, epoch, chunkHeader⟩ .none .none []] =
        .ok [bytes₀, bytes₂] := ⟨_, _, rfl⟩
  exact ⟨bytes₁, bytes₀, bytes₂, h₁, h₂,
    encodeInTurn_short_protocol (by decide) (x := 83) (by decide) rfl h₁ h₂⟩

/-- The header chunk of protocol `AB` comes back with protocol `AB` and two
zero bytes. -/
example : ((ChunkEncoder.mk .none .none).encode bytesCodecs newCrced
    (.header ⟨goBytes "AB", .inbound, epoch, chunkHeader⟩ .none .none [])).bind
      (fun (bytes, _) => (ChunkDecoder.new.decode bytesCodecs bytes).map
        (Option.map fun (c, _) => c.base.protocol)) = .ok (some [65, 66, 0, 0]) := by
  rfl

end Boundary.Bsr
