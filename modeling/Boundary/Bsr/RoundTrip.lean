import Boundary.Bsr.Encode
import Boundary.Bsr.Decode

/-!
# Reading back what the encoder wrote

`Decode` reads the bytes `Encode` wrote for a chunk back into that chunk when
its protocol and chunk type have four bytes, its direction is valid, its data
and what the encoder writes of it fit in `MaxChunkDataLength` bytes, and the
decode function of its type turns the data back into it. From one step per
chunk, by induction on the chunks, a scanner over a file of a header chunk, SSH
data and request chunks and an end chunk returns them in order
(`scanFile_writeFile`).

`ssh.DecodeChunk` refuses a request chunk with no data, and `Encode` writes
one for any request whose message `proto.Marshal` writes as no bytes: the scan
of such a file fails at that chunk (`scanFile_writeFile_empty_request`).
-/

namespace Boundary.Bsr

open Wire

variable {R : Type}

theorem crcedBytes_eq (crced : List UInt8) (hcrced : crced.length = crcDataSize) (b : BaseChunk)
    (hp : b.protocol.length = 4) (ht : b.type.length = 4) :
    crcedBytes crced b = b.protocol ++ b.type ++ [b.direction.value] ++ b.timestamp.marshal := by
  unfold crcDataSize at hcrced
  have h1 : copyAt crced 0 b.protocol = b.protocol ++ crced.drop 4 := by
    simpa [hp] using copyAt_append [] b.protocol crced (by omega)
  have h2 : copyAt (b.protocol ++ crced.drop 4) 4 b.type = b.protocol ++ b.type ++ crced.drop 8 := by
    have h := copyAt_append b.protocol b.type (crced.drop 4) (by simp; omega)
    rw [hp, ht, List.drop_drop] at h
    exact h
  have h3 : copyAt (b.protocol ++ b.type ++ crced.drop 8) 8 [b.direction.value] =
      b.protocol ++ b.type ++ [b.direction.value] ++ crced.drop 9 := by
    have h := copyAt_append (b.protocol ++ b.type) [b.direction.value] (crced.drop 8) (by simp; omega)
    rw [List.length_append, hp, ht, List.drop_drop] at h
    exact h
  have h4 : copyAt (b.protocol ++ b.type ++ [b.direction.value] ++ crced.drop 9) 9 b.timestamp.marshal =
      b.protocol ++ b.type ++ [b.direction.value] ++ b.timestamp.marshal := by
    have hnil : (crced.drop 9).drop 12 = [] := List.drop_eq_nil_of_le (by simp; omega)
    have hidx : (b.protocol ++ b.type ++ [b.direction.value]).length = 9 := by simp [hp, ht]
    have h := copyAt_append (b.protocol ++ b.type ++ [b.direction.value]) b.timestamp.marshal
      (crced.drop 9) (by simp; omega)
    rw [length_marshal, hnil, List.append_nil, hidx] at h
    exact h
  rw [crcedBytes, h1, h2, h3, h4]

theorem readFrame_frame (cs : Codecs R) (buf data rest : List UInt8)
    (hbuf : buf.length = crcDataSize) (hdata : data.length ≤ maxChunkDataLength) :
    readFrame cs (beBytes 4 data.length ++ buf ++ data ++ beBytes 4 (cs.crc32 (buf ++ data)).toNat ++
      rest) = .ok (some (buf, data, 25 + data.length + 4)) := by
  set sum := (cs.crc32 (buf ++ data)).toNat
  have h21 : buf.length = 21 := hbuf
  have hmax : data.length ≤ 6400000 := hdata
  have hlen : ofBeBytes (beBytes 4 data.length) = data.length :=
    (ofBeBytes_beBytes 4 _).trans (Nat.mod_eq_of_lt (by omega))
  have hsum : ofBeBytes (beBytes 4 sum) = sum :=
    (ofBeBytes_beBytes 4 _).trans (Nat.mod_eq_of_lt (cs.crc32 (buf ++ data)).toNat_lt)
  have hne : beBytes 4 data.length ++ buf ++ data ++ beBytes 4 sum ++ rest ≠ [] := by
    simp [← List.length_eq_zero_iff]
  have hdrop : (beBytes 4 data.length ++ (buf ++ (data ++ (beBytes 4 sum ++ rest)))).drop 25 =
      data ++ (beBytes 4 sum ++ rest) := by
    simp [List.drop_append, h21]
  unfold readFrame
  rw [if_neg hne]
  simp only [List.append_assoc, List.length_append, length_beBytes, h21,
    List.take_left' (length_beBytes 4 _), List.drop_left' (length_beBytes 4 _),
    List.take_left' hbuf, hlen, hdrop, List.take_left, List.drop_left, hsum]
  rw [if_neg (by omega), if_neg (by omega), if_neg (by omega), if_neg (by omega),
    if_neg (not_not.mpr rfl)]

/-- A base that `Decode` reads back as it is: a protocol and a chunk type of
four bytes, and a valid direction. -/
structure BaseChunk.Fixed (b : BaseChunk) : Prop where
  protocol_length : b.protocol.length = 4
  type_length : b.type.length = 4
  direction_valid : validDirection b.direction = true

theorem decodeFrame_fields {d : ChunkDecoder} {cs : Codecs R} {b : BaseChunk} (hb : b.Fixed)
    {data data' : List UInt8} (hdecompress : d.decompress cs b.type data = .ok data')
    {df : BaseChunk → List UInt8 → Except String (Chunk R)}
    (hdf : decodeFunc cs b.protocol b.type = some df) :
    d.decodeFrame cs (b.protocol ++ b.type ++ [b.direction.value] ++ b.timestamp.marshal) data =
      match df b data' with
      | .ok c => .ok (c, d.after c)
      | .error err => .error (decodeError err) := by
  have hp := hb.protocol_length
  have ht := hb.type_length
  have hprotocol : (b.protocol ++ b.type ++ [b.direction.value] ++ b.timestamp.marshal).take 4 =
      b.protocol := by simp [hp]
  have htype : ((b.protocol ++ b.type ++ [b.direction.value] ++ b.timestamp.marshal).drop 4).take 4 =
      b.type := by simp [hp, ht]
  have hdirection : (b.protocol ++ b.type ++ [b.direction.value] ++ b.timestamp.marshal).drop 8 =
      b.direction.value :: b.timestamp.marshal := by simp [List.drop_append, hp, ht]
  have htimestamp : ((b.protocol ++ b.type ++ [b.direction.value] ++ b.timestamp.marshal).drop 9).take 12 =
      b.timestamp.marshal := by
    rw [show (9 : Nat) = 8 + 1 from rfl, ← List.drop_drop, hdirection]
    simp
  have hbase : newBaseChunk b.protocol ⟨b.direction.value⟩ b.timestamp b.type = .ok b := by
    simp [newBaseChunk, hp, ht, hb.direction_valid]
  unfold ChunkDecoder.decodeFrame
  simp only [hprotocol, htype, hdirection, htimestamp, List.headD_cons, decodeTimestamp_marshal, hbase,
    hdecompress, hdf]
  cases df b data' <;> rfl

theorem decompress_compress (e : ChunkEncoder) (d : ChunkDecoder) (cs : Codecs R)
    (hgzip : ∀ x, cs.gunzip (cs.gzip x) = .ok x) (type data : List UInt8)
    (hdata : data.length ≤ maxChunkDataLength)
    (hcomp : type = chunkHeader ∨ type = chunkEnd ∨ d.compression = e.compression) :
    d.decompress cs type (e.compress cs type data) = .ok data := by
  have htake : data.take maxChunkDataLength = data := List.take_of_length_le hdata
  unfold ChunkDecoder.decompress ChunkEncoder.compress
  by_cases hplain : type = chunkHeader ∨ type = chunkEnd
  · simp [hplain, htake]
  · have hcd : d.compression = e.compression := by tauto
    by_cases hgz : e.compression = .gzip
    · simp [hplain, hgz, hcd, hgzip, Except.map, htake]
    · simp [hplain, hgz, hcd, htake]

theorem decode_encode {e : ChunkEncoder} {d : ChunkDecoder} {cs : Codecs R}
    {crced crced' : List.Vector UInt8 crcDataSize} {c : Chunk R} {data data' bytes : List UInt8}
    {df : BaseChunk → List UInt8 → Except String (Chunk R)}
    (hb : c.base.Fixed) (hdata : c.marshalData cs = .ok data)
    (hsize : (e.compress cs c.base.type data).length ≤ maxChunkDataLength)
    (hdecompress : d.decompress cs c.base.type (e.compress cs c.base.type data) = .ok data')
    (hdf : decodeFunc cs c.base.protocol c.base.type = some df)
    (henc : e.encode cs crced c = .ok (bytes, crced')) (rest : List UInt8) :
    d.decode cs (bytes ++ rest) =
      match df c.base data' with
      | .ok c' => .ok (some (c', d.after c', bytes.length))
      | .error err => .error (decodeError err) := by
  have hfields := crcedBytes_eq crced.toList crced.toList_length c.base hb.protocol_length
    hb.type_length
  have hlen := length_crcedBytes crced.toList crced.toList_length c.base
  unfold ChunkEncoder.encode at henc
  rw [hdata] at henc
  obtain ⟨rfl, -⟩ := Prod.mk.inj (Except.ok.inj henc)
  unfold ChunkDecoder.decode
  rw [readFrame_frame cs _ _ rest hlen hsize]
  dsimp only
  rw [hfields, decodeFrame_fields hb hdecompress hdf]
  have hbytes : 25 + (e.compress cs c.base.type data).length + 4 =
      (beBytes 4 (e.compress cs c.base.type data).length ++ crcedBytes crced.toList c.base ++
        e.compress cs c.base.type data ++
        beBytes 4 (cs.crc32 (crcedBytes crced.toList c.base ++ e.compress cs c.base.type data)).toNat).length := by
    simp only [List.length_append, length_beBytes, hlen]
    unfold crcDataSize
    omega
  rw [← hfields, hbytes]
  cases df c.base data' <;> rfl

/-! ## Decode functions -/

/-- The decode function of the chunk's type turns `data` back into the chunk. -/
def Codecs.Restores (cs : Codecs R) (c : Chunk R) (data : List UInt8) : Prop :=
  ∃ df, decodeFunc cs c.base.protocol c.base.type = some df ∧ df c.base data = .ok c

theorem chunkHeader_ne_chunkEnd : chunkHeader ≠ chunkEnd := by decide

theorem dataChunkType_ne : dataChunkType ≠ chunkHeader ∧ dataChunkType ≠ chunkEnd := by decide

theorem requestChunkType_ne {t : List UInt8} (ht : t ∈ requestChunkTypes) :
    t ≠ chunkHeader ∧ t ≠ chunkEnd ∧ t ≠ dataChunkType := by
  revert t
  decide

theorem restores_header (cs : Codecs R) (b : BaseChunk) (hb : b.type = chunkHeader)
    (compression : Compression) (encryption : Encryption) (sessionId : List UInt8) :
    cs.Restores (.header b compression encryption sessionId)
      ([compression.value, encryption.value] ++ sessionId) :=
  ⟨decodeHeader, by simp [Chunk.base, decodeFunc, hb], by simp [Chunk.base, decodeHeader, hb]⟩

theorem restores_done (cs : Codecs R) (b : BaseChunk) (hb : b.type = chunkEnd) :
    cs.Restores (.done b) [] :=
  ⟨decodeEnd, by simp [Chunk.base, decodeFunc, hb, chunkHeader_ne_chunkEnd.symm],
    by simp [Chunk.base, decodeEnd, hb]⟩

theorem decodeFunc_ssh (cs : Codecs R) {b : BaseChunk} (hp : b.protocol = sshProtocol)
    (ht : b.type = dataChunkType ∨ b.type ∈ requestChunkTypes) :
    decodeFunc cs b.protocol b.type = some (sshDecodeChunk cs) := by
  have hplain : b.type ≠ chunkHeader ∧ b.type ≠ chunkEnd := by
    rcases ht with ht | ht
    · rw [ht]; exact dataChunkType_ne
    · exact ⟨(requestChunkType_ne ht).1, (requestChunkType_ne ht).2.1⟩
  simp [decodeFunc, hplain.1, hplain.2, hp, ht]

theorem restores_data (cs : Codecs R) (b : BaseChunk) (hp : b.protocol = sshProtocol)
    (ht : b.type = dataChunkType) (bytes : List UInt8) : cs.Restores (.data b bytes) bytes :=
  ⟨sshDecodeChunk cs, decodeFunc_ssh cs hp (.inl ht), by simp [Chunk.base, sshDecodeChunk, hp, ht]⟩

theorem restores_request (cs : Codecs R) (b : BaseChunk) (hp : b.protocol = sshProtocol)
    (ht : b.type ∈ requestChunkTypes) {message : R} {bytes : List UInt8} (hne : bytes ≠ [])
    (hmessage : cs.unmarshalRequest b.type bytes = .ok message) :
    cs.Restores (.request b message) bytes := by
  refine ⟨sshDecodeChunk cs, decodeFunc_ssh cs hp (.inr ht), ?_⟩
  have hdata : b.type ≠ dataChunkType := (requestChunkType_ne ht).2.2
  simp [Chunk.base, sshDecodeChunk, hp, hdata, hne, ht, hmessage]

theorem sshDecodeChunk_request_nil (cs : Codecs R) {b : BaseChunk} (hp : b.protocol = sshProtocol)
    (ht : b.type ∈ requestChunkTypes) :
    sshDecodeChunk cs b [] = .error "ssh.DecodeChunk: not enough data" := by
  have hdata : b.type ≠ dataChunkType := (requestChunkType_ne ht).2.2
  simp [sshDecodeChunk, hp, hdata]

/-- A data or request chunk of the SSH protocol that `Decode` reads back as it
is: a valid direction, and for a request a message whose bytes are not empty
and that `proto.Unmarshal` reads back from them. -/
inductive Codecs.Readable (cs : Codecs R) : Chunk R → Prop
  | data {b : BaseChunk} {bytes : List UInt8} : b.protocol = sshProtocol → b.type = dataChunkType →
      validDirection b.direction = true → cs.Readable (.data b bytes)
  | request {b : BaseChunk} {message : R} : b.protocol = sshProtocol → b.type ∈ requestChunkTypes →
      validDirection b.direction = true →
      (∀ bytes, cs.marshalRequest message = .ok bytes →
        bytes ≠ [] ∧ cs.unmarshalRequest b.type bytes = .ok message) →
      cs.Readable (.request b message)

/-- The data and the request chunk types have four bytes. -/
theorem length_sshChunkType {t : List UInt8} (ht : t = dataChunkType ∨ t ∈ requestChunkTypes) :
    t.length = 4 := by
  rcases ht with rfl | ht
  · decide
  · revert t; decide

theorem fixed_of_ssh {b : BaseChunk} (hp : b.protocol = sshProtocol)
    (ht : b.type = dataChunkType ∨ b.type ∈ requestChunkTypes) (hd : validDirection b.direction = true) :
    b.Fixed :=
  ⟨by rw [hp]; decide, length_sshChunkType ht, hd⟩

theorem Codecs.Readable.fixed {cs : Codecs R} {c : Chunk R} (hc : cs.Readable c) : c.base.Fixed := by
  cases hc with
  | data hp ht hd => exact fixed_of_ssh hp (.inl ht) hd
  | request hp ht hd _ => exact fixed_of_ssh hp (.inr ht) hd

theorem Codecs.Readable.restores {cs : Codecs R} {c : Chunk R} (hc : cs.Readable c)
    {data : List UInt8} (hdata : c.marshalData cs = .ok data) : cs.Restores c data := by
  cases hc with
  | data hp ht _ =>
    cases hdata
    exact restores_data cs _ hp ht _
  | request hp ht _ hmsg =>
    obtain ⟨hne, hback⟩ := hmsg data hdata
    exact restores_request cs _ hp ht hne hback

theorem Codecs.Readable.type_plain {cs : Codecs R} {c : Chunk R} (hc : cs.Readable c) :
    c.base.type ≠ chunkHeader ∧ c.base.type ≠ chunkEnd := by
  cases hc with
  | data _ ht _ => rw [Chunk.base, ht]; exact dataChunkType_ne
  | request _ ht _ _ => exact ⟨(requestChunkType_ne ht).1, (requestChunkType_ne ht).2.1⟩

theorem Codecs.Readable.after {cs : Codecs R} {c : Chunk R} (hc : cs.Readable c) (d : ChunkDecoder) :
    d.after c = d := by
  cases hc <;> rfl

/-- The chunk's data, and what the encoder writes of it, fit in
`MaxChunkDataLength` bytes. -/
def ChunkEncoder.Fits (e : ChunkEncoder) (cs : Codecs R) (c : Chunk R) : Prop :=
  ∀ data, c.marshalData cs = .ok data →
    data.length ≤ maxChunkDataLength ∧ (e.compress cs c.base.type data).length ≤ maxChunkDataLength

theorem marshalData_of_encode {e : ChunkEncoder} {cs : Codecs R} {crced : List.Vector UInt8 crcDataSize}
    {c : Chunk R} {p : List UInt8 × List.Vector UInt8 crcDataSize} (h : e.encode cs crced c = .ok p) :
    ∃ data, c.marshalData cs = .ok data := by
  unfold ChunkEncoder.encode at h
  cases hdata : c.marshalData cs with
  | error err => rw [hdata] at h; cases h
  | ok data => exact ⟨data, rfl⟩

/-- `Decode` reads a chunk `Encode` wrote back as it was, when the chunk's type's
decode function turns its data back into it and the data fit. -/
theorem decode_encode_restores {e : ChunkEncoder} {d : ChunkDecoder} {cs : Codecs R}
    (hgzip : ∀ x, cs.gunzip (cs.gzip x) = .ok x) {crced crced' : List.Vector UInt8 crcDataSize}
    {c : Chunk R} {bytes : List UInt8} (hb : c.base.Fixed)
    (hcomp : c.base.type = chunkHeader ∨ c.base.type = chunkEnd ∨ d.compression = e.compression)
    (hfits : e.Fits cs c) (hrestores : ∀ data, c.marshalData cs = .ok data → cs.Restores c data)
    (henc : e.encode cs crced c = .ok (bytes, crced')) (rest : List UInt8) :
    d.decode cs (bytes ++ rest) = .ok (some (c, d.after c, bytes.length)) := by
  obtain ⟨data, hdata⟩ := marshalData_of_encode henc
  obtain ⟨hdlen, hclen⟩ := hfits data hdata
  obtain ⟨df, hdf, hback⟩ := hrestores data hdata
  rw [decode_encode hb hdata hclen (decompress_compress e d cs hgzip _ data hdlen hcomp) hdf henc rest,
    hback]

/-! ## Scanning the chunks written -/

section Scan

variable {cs : Codecs R}

theorem scan_of_decode {s : ChunkScanner} {c : Chunk R} {d : ChunkDecoder} {n : Nat}
    (h : s.decoder.decode cs s.rest = .ok (some (c, d, n)))
    (hsum : c.base.type = chunkEnd →
      s.checksum = [] ∨ cs.sha256Sum (s.read ++ s.rest.take n) = s.checksum) :
    s.scan cs = .ok (.chunk c, ⟨s.checksum, s.read ++ s.rest.take n, s.rest.drop n, d⟩) := by
  unfold ChunkScanner.scan
  rw [h]
  dsimp only
  rw [if_neg]
  rintro ⟨hend, hne, hbad⟩
  rcases hsum hend with h0 | h1
  · exact hne h0
  · exact hbad h1

theorem scan_of_decode_error {s : ChunkScanner} {e : String}
    (h : s.decoder.decode cs s.rest = .error e) : s.scan cs = .error e := by
  simp [ChunkScanner.scan, h]

theorem scan_eof {s : ChunkScanner} (hrest : s.rest = [])
    (hsum : s.checksum = [] ∨ cs.sha256Sum s.read = s.checksum) : s.scan cs = .ok (.eof, s) := by
  have hdecode : s.decoder.decode cs s.rest = .ok none := by
    simp [hrest, ChunkDecoder.decode, readFrame]
  unfold ChunkScanner.scan
  rw [hdecode]
  dsimp only
  rw [if_neg]
  rintro ⟨hne, hbad⟩
  rcases hsum with h0 | h1
  · exact hne h0
  · exact hbad h1

theorem chunkWalk_chunk {s s' : ChunkScanner} {c : Chunk R} (h : s.scan cs = .ok (.chunk c, s'))
    (fuel : Nat) (acc : List (Chunk R)) :
    chunkWalk cs collect (fuel + 1) s acc = chunkWalk cs collect fuel s' (acc ++ [c]) := by
  simp [chunkWalk, h, collect]

end Scan

/-! ## Writing a file -/

section Write

variable {e : ChunkEncoder} {cs : Codecs R} {crceds : Nat → List.Vector UInt8 crcDataSize}

theorem encodeChunks_cons_eq_ok {i : Nat} {c : Chunk R} {rest : List (Chunk R)} {out : List UInt8}
    (h : e.encodeChunks cs crceds i (c :: rest) = .ok out) :
    ∃ bytes crced' more, e.encode cs (crceds i) c = .ok (bytes, crced') ∧
      e.encodeChunks cs crceds (i + 1) rest = .ok more ∧ out = bytes ++ more := by
  unfold ChunkEncoder.encodeChunks at h
  cases hc : e.encode cs (crceds i) c with
  | error err => rw [hc] at h; cases h
  | ok p =>
    cases hr : e.encodeChunks cs crceds (i + 1) rest with
    | error err => rw [hc, hr] at h; cases h
    | ok more =>
      obtain ⟨bytes, crced'⟩ := p
      rw [hc, hr] at h
      exact ⟨bytes, crced', more, rfl, rfl, (Except.ok.inj h).symm⟩

theorem encodeChunks_append_eq_ok : ∀ {i : Nat} {l₁ l₂ : List (Chunk R)} {out : List UInt8},
    e.encodeChunks cs crceds i (l₁ ++ l₂) = .ok out →
    ∃ o₁ o₂, e.encodeChunks cs crceds i l₁ = .ok o₁ ∧
      e.encodeChunks cs crceds (i + l₁.length) l₂ = .ok o₂ ∧ out = o₁ ++ o₂
  | _, [], _, out, h => ⟨[], out, rfl, by simpa using h, rfl⟩
  | i, c :: l₁, l₂, _, h => by
    obtain ⟨bytes, crced', more, hc, hmore, rfl⟩ := encodeChunks_cons_eq_ok h
    obtain ⟨o₁, o₂, h₁, h₂, rfl⟩ := encodeChunks_append_eq_ok hmore
    refine ⟨bytes ++ o₁, o₂, by simp [ChunkEncoder.encodeChunks, hc, h₁], ?_, by simp⟩
    rwa [List.length_cons, Nat.add_comm l₁.length 1, ← Nat.add_assoc]

theorem length_pos_of_encode {crced : List.Vector UInt8 crcDataSize} {c : Chunk R}
    {bytes : List UInt8} {crced' : List.Vector UInt8 crcDataSize}
    (h : e.encode cs crced c = .ok (bytes, crced')) : 0 < bytes.length := by
  obtain ⟨data, hdata⟩ := marshalData_of_encode h
  unfold ChunkEncoder.encode at h
  rw [hdata] at h
  obtain ⟨rfl, -⟩ := Prod.mk.inj (Except.ok.inj h)
  simp

theorem length_le_encodeChunks : ∀ {i : Nat} {l : List (Chunk R)} {out : List UInt8},
    e.encodeChunks cs crceds i l = .ok out → l.length ≤ out.length
  | _, [], _, _ => Nat.zero_le _
  | _, _ :: _, _, h => by
    obtain ⟨bytes, crced', more, hc, hmore, rfl⟩ := encodeChunks_cons_eq_ok h
    have hbytes := length_pos_of_encode hc
    have hrest := length_le_encodeChunks hmore
    simp only [List.length_cons, List.length_append]
    omega

end Write

/-! ## Scanning a written file -/

section Run

variable {e : ChunkEncoder} {cs : Codecs R} {crceds : Nat → List.Vector UInt8 crcDataSize}

/-- A scan of the bytes `Encode` wrote for a chunk its decode function turns
back, checked against the sum at an end chunk. -/
theorem scan_encode (hgzip : ∀ x, cs.gunzip (cs.gzip x) = .ok x) {d : ChunkDecoder}
    {crced crced' : List.Vector UInt8 crcDataSize} {c : Chunk R} {bytes : List UInt8}
    (hb : c.base.Fixed)
    (hcomp : c.base.type = chunkHeader ∨ c.base.type = chunkEnd ∨ d.compression = e.compression)
    (hfits : e.Fits cs c) (hrestores : ∀ data, c.marshalData cs = .ok data → cs.Restores c data)
    (henc : e.encode cs crced c = .ok (bytes, crced')) (checksum read rest : List UInt8)
    (hsum : c.base.type = chunkEnd → checksum = [] ∨ cs.sha256Sum (read ++ bytes) = checksum) :
    ChunkScanner.scan ⟨checksum, read, bytes ++ rest, d⟩ cs =
      .ok (.chunk c, ⟨checksum, read ++ bytes, rest, d.after c⟩) := by
  have hdecode := decode_encode_restores hgzip hb hcomp hfits hrestores henc rest
  have htake : (bytes ++ rest).take bytes.length = bytes := List.take_left
  have hdrop : (bytes ++ rest).drop bytes.length = rest := List.drop_left
  have h := scan_of_decode (s := ⟨checksum, read, bytes ++ rest, d⟩) hdecode
    (by rw [htake]; exact hsum)
  rwa [htake, hdrop] at h

/-- The walk over the bytes of readable chunks written one after another
collects them, one scan each, the decoder's compression being the encoder's. -/
theorem chunkWalk_encodeChunks (hgzip : ∀ x, cs.gunzip (cs.gzip x) = .ok x) {d : ChunkDecoder}
    (hcd : d.compression = e.compression) :
    ∀ {body : List (Chunk R)} {i : Nat} {out : List UInt8},
      e.encodeChunks cs crceds i body = .ok out → (∀ c ∈ body, cs.Readable c ∧ e.Fits cs c) →
      ∀ (checksum read rest : List UInt8) (fuel : Nat) (acc : List (Chunk R)),
        chunkWalk cs collect (fuel + body.length) ⟨checksum, read, out ++ rest, d⟩ acc =
          chunkWalk cs collect fuel ⟨checksum, read ++ out, rest, d⟩ (acc ++ body)
  | [], _, out, h, _, checksum, read, rest, fuel, acc => by
    cases h
    simp
  | c :: body, _, _, h, hbody, checksum, read, rest, fuel, acc => by
    obtain ⟨bytes, crced', more, hc, hmore, rfl⟩ := encodeChunks_cons_eq_ok h
    obtain ⟨hread, hfits⟩ := hbody c (List.mem_cons_self ..)
    have hplain := hread.type_plain
    have hscan := scan_encode hgzip hread.fixed (.inr (.inr hcd)) hfits
      (fun _ => hread.restores) hc checksum read (more ++ rest) (fun h => absurd h hplain.2)
    rw [hread.after] at hscan
    have hfuel : fuel + (c :: body).length = fuel + body.length + 1 := by
      rw [List.length_cons, Nat.add_assoc]
    rw [List.append_assoc, hfuel, chunkWalk_chunk hscan,
      chunkWalk_encodeChunks hgzip hcd hmore (fun c hc => hbody c (List.mem_cons_of_mem _ hc))]
    simp

theorem chunkWalk_eof {s : ChunkScanner} (hrest : s.rest = [])
    (hsum : s.checksum = [] ∨ cs.sha256Sum s.read = s.checksum) (fuel : Nat)
    (acc : List (Chunk R)) : chunkWalk cs collect (fuel + 1) s acc = some (.ok acc) := by
  simp [chunkWalk, scan_eof hrest hsum]

end Run

/-! ## Files -/

section File

variable {e : ChunkEncoder} {cs : Codecs R} {crceds : Nat → List.Vector UInt8 crcDataSize}

theorem writeFile_eq_ok {chunks : List (Chunk R)} {file : List UInt8}
    (h : e.writeFile cs crceds chunks = .ok file) :
    ∃ out, e.encodeChunks cs crceds 0 chunks = .ok out ∧ file = magic ++ out := by
  unfold ChunkEncoder.writeFile at h
  cases hout : e.encodeChunks cs crceds 0 chunks with
  | error err => rw [hout] at h; cases h
  | ok out =>
    rw [hout] at h
    exact ⟨out, rfl, (Except.ok.inj h).symm⟩

theorem newChunkScanner_magic (checksum out : List UInt8) :
    newChunkScanner checksum (magic ++ out) = .ok ⟨checksum, magic, out, .new⟩ := by
  have hlen : magic.length = 8 := rfl
  have hne : magic ≠ [] := by decide
  simp [newChunkScanner, readMagic, hlen, hne]

theorem fits_header {b : BaseChunk} (hhead : b.type = chunkHeader) {sessionId : List UInt8}
    (hsid : sessionId.length + 2 ≤ maxChunkDataLength) (compression : Compression)
    (encryption : Encryption) : e.Fits cs (.header b compression encryption sessionId) := by
  intro data hdata
  cases hdata
  have hlen : ([compression.value, encryption.value] ++ sessionId).length = sessionId.length + 2 := by
    simp only [List.length_append, List.length_cons, List.length_nil]
    omega
  simp only [ChunkEncoder.compress, Chunk.base, hhead, true_or, if_true, hlen]
  exact ⟨hsid, hsid⟩

theorem fits_done {b : BaseChunk} (hend : b.type = chunkEnd) : e.Fits cs (.done b) := by
  intro data hdata
  cases hdata
  simp [ChunkEncoder.compress, Chunk.base, hend]

theorem chunkWalk_scan_error {σ : Type} {f : σ → Chunk R → Except String σ} {s : ChunkScanner}
    {err : String} (h : s.scan cs = .error err) (fuel : Nat) (acc : σ) :
    chunkWalk cs f (fuel + 1) s acc = some (.error ("bsr.ChunkWalk: " ++ err)) := by
  simp [chunkWalk, h]

/-- The scan of a header chunk `Encode` wrote, at the start of a file. -/
theorem scan_encode_header (hgzip : ∀ x, cs.gunzip (cs.gzip x) = .ok x) {b : BaseChunk}
    (hb : b.Fixed) (hhead : b.type = chunkHeader) {sessionId : List UInt8}
    (hsid : sessionId.length + 2 ≤ maxChunkDataLength) {crced crced' : List.Vector UInt8 crcDataSize}
    {bytes : List UInt8}
    (henc : e.encode cs crced (.header b e.compression e.encryption sessionId) = .ok (bytes, crced'))
    (checksum read rest : List UInt8) :
    ChunkScanner.scan ⟨checksum, read, bytes ++ rest, .new⟩ cs =
      .ok (.chunk (.header b e.compression e.encryption sessionId),
        ⟨checksum, read ++ bytes, rest, ⟨e.compression, e.encryption⟩⟩) := by
  have hrestores : ∀ data, (Chunk.header b e.compression e.encryption sessionId).marshalData cs =
      .ok data → cs.Restores (.header b e.compression e.encryption sessionId) data := by
    intro data hdata
    cases hdata
    exact restores_header cs b hhead _ _ _
  exact scan_encode (c := .header b e.compression e.encryption sessionId) hgzip hb (.inl hhead) (fits_header hhead hsid _ _) hrestores henc checksum
    read rest (fun h => absurd (hhead.symm.trans h) chunkHeader_ne_chunkEnd)

/-- `Decode` of the bytes `Encode` wrote for a request chunk whose message
`proto.Marshal` writes as no bytes: `ssh.DecodeChunk` finds no data. -/
theorem decode_encode_empty_request (hgzip : ∀ x, cs.gunzip (cs.gzip x) = .ok x)
    {d : ChunkDecoder} (hcd : d.compression = e.compression) {q : BaseChunk}
    (hqp : q.protocol = sshProtocol) (hqt : q.type ∈ requestChunkTypes)
    (hqd : validDirection q.direction = true) {message : R}
    (hempty : cs.marshalRequest message = .ok [])
    (hqfits : (e.compress cs q.type []).length ≤ maxChunkDataLength)
    {crced crced' : List.Vector UInt8 crcDataSize} {bytes : List UInt8}
    (henc : e.encode cs crced (.request q message) = .ok (bytes, crced')) (rest : List UInt8) :
    d.decode cs (bytes ++ rest) = .error (decodeError "ssh.DecodeChunk: not enough data") := by
  have hdecompress := decompress_compress e d cs hgzip q.type [] (Nat.zero_le _) (.inr (.inr hcd))
  rw [decode_encode (c := .request q message) (fixed_of_ssh hqp (.inr hqt) hqd) hempty hqfits hdecompress
    (decodeFunc_ssh cs hqp (.inr hqt)) henc rest]
  rw [Chunk.base, sshDecodeChunk_request_nil cs hqp hqt]

end File

section Theorems

variable {e : ChunkEncoder} {cs : Codecs R} {crceds : Nat → List.Vector UInt8 crcDataSize}

/-- A scanner over the bytes written for a header chunk, readable SSH chunks
and an end chunk returns those chunks in order and then `io.EOF`, with no sum
to check or with the sum of the bytes written. -/
theorem scanFile_writeFile (hgzip : ∀ x, cs.gunzip (cs.gzip x) = .ok x) {b : BaseChunk}
    (hb : b.Fixed) (hhead : b.type = chunkHeader) {sessionId : List UInt8}
    (hsid : sessionId.length + 2 ≤ maxChunkDataLength) {body : List (Chunk R)}
    (hbody : ∀ c ∈ body, cs.Readable c ∧ e.Fits cs c) {b' : BaseChunk} (hb' : b'.Fixed)
    (hend : b'.type = chunkEnd) {file : List UInt8}
    (hfile : e.writeFile cs crceds
      (.header b e.compression e.encryption sessionId :: body ++ [.done b']) = .ok file)
    {checksum : List UInt8} (hchecksum : checksum = [] ∨ cs.sha256Sum file = checksum) :
    scanFile cs checksum file =
      some (.ok (.header b e.compression e.encryption sessionId :: body ++ [.done b'])) := by
  obtain ⟨out, hout, rfl⟩ := writeFile_eq_ok hfile
  have hlen := length_le_encodeChunks hout
  obtain ⟨bH, _, more, hH, hmore, rfl⟩ := encodeChunks_cons_eq_ok hout
  obtain ⟨oB, oE, hB, hE, rfl⟩ := encodeChunks_append_eq_ok hmore
  obtain ⟨bE, _, oN, hEnc, hN, rfl⟩ := encodeChunks_cons_eq_ok hE
  cases hN
  have hmagic : magic.length = 8 := rfl
  have hread : magic ++ (bH ++ (oB ++ (bE ++ []))) = magic ++ bH ++ oB ++ bE := by simp
  simp only [List.length_cons, List.length_append, List.length_nil] at hlen
  obtain ⟨k, hk⟩ : ∃ k, (magic ++ (bH ++ (oB ++ (bE ++ [])))).length + 1 =
      k + 1 + 1 + body.length + 1 :=
    ⟨8 + bH.length + oB.length + bE.length - body.length - 2, by
      simp only [List.length_append, List.length_nil, hmagic]
      omega⟩
  have hsum : checksum = [] ∨ cs.sha256Sum (magic ++ bH ++ oB ++ bE) = checksum := by
    rwa [← hread]
  have hscanE := scan_encode (c := .done b') (d := ⟨e.compression, e.encryption⟩) hgzip hb' (.inr (.inl hend)) (fits_done hend)
    (fun _ hdata => by cases hdata; exact restores_done cs b' hend) hEnc checksum
    (magic ++ bH ++ oB) [] (fun _ => hsum)
  unfold scanFile
  rw [newChunkScanner_magic, hk]
  dsimp only
  rw [chunkWalk_chunk (scan_encode_header hgzip hb hhead hsid hH checksum magic _),
    chunkWalk_encodeChunks hgzip rfl hB hbody, chunkWalk_chunk hscanE,
    chunkWalk_eof rfl hsum]
  simp

/-- A request chunk whose message `proto.Marshal` writes as no bytes (an
`ssh.UnknownRequest` of an empty request, say) is written, but the scanner
cannot read it back: whatever comes after it, the walk over the file stops at
it with the error of `ssh.DecodeChunk`. -/
theorem scanFile_writeFile_empty_request (hgzip : ∀ x, cs.gunzip (cs.gzip x) = .ok x)
    {b : BaseChunk} (hb : b.Fixed) (hhead : b.type = chunkHeader) {sessionId : List UInt8}
    (hsid : sessionId.length + 2 ≤ maxChunkDataLength) {body : List (Chunk R)}
    (hbody : ∀ c ∈ body, cs.Readable c ∧ e.Fits cs c) {q : BaseChunk}
    (hqp : q.protocol = sshProtocol) (hqt : q.type ∈ requestChunkTypes)
    (hqd : validDirection q.direction = true) {message : R}
    (hempty : cs.marshalRequest message = .ok [])
    (hqfits : (e.compress cs q.type []).length ≤ maxChunkDataLength) (post : List (Chunk R))
    {file : List UInt8}
    (hfile : e.writeFile cs crceds
      (.header b e.compression e.encryption sessionId :: body ++ .request q message :: post) =
        .ok file)
    (checksum : List UInt8) :
    scanFile cs checksum file =
      some (.error ("bsr.ChunkWalk: " ++ decodeError "ssh.DecodeChunk: not enough data")) := by
  obtain ⟨out, hout, rfl⟩ := writeFile_eq_ok hfile
  have hlen := length_le_encodeChunks hout
  obtain ⟨bH, _, more, hH, hmore, rfl⟩ := encodeChunks_cons_eq_ok hout
  obtain ⟨oB, oQ, hB, hQ, rfl⟩ := encodeChunks_append_eq_ok hmore
  obtain ⟨bQ, _, oP, hEnc, -, rfl⟩ := encodeChunks_cons_eq_ok hQ
  have hmagic : magic.length = 8 := rfl
  simp only [List.length_cons, List.length_append] at hlen
  obtain ⟨k, hk⟩ : ∃ k, (magic ++ (bH ++ (oB ++ (bQ ++ oP)))).length + 1 =
      k + 1 + body.length + 1 :=
    ⟨8 + bH.length + oB.length + bQ.length + oP.length - body.length - 1, by
      simp only [List.length_append, hmagic]
      omega⟩
  have hdecode := decode_encode_empty_request (d := ⟨e.compression, e.encryption⟩) hgzip rfl hqp
    hqt hqd hempty hqfits hEnc oP
  unfold scanFile
  rw [newChunkScanner_magic, hk]
  dsimp only
  rw [chunkWalk_chunk (scan_encode_header hgzip hb hhead hsid hH checksum magic _),
    chunkWalk_encodeChunks hgzip rfl hB hbody, chunkWalk_scan_error (scan_of_decode_error hdecode)]

end Theorems

/-- Request messages as their own bytes, a constant CRC and the bytes as their
own sum: codecs enough to run the scanner on a file. -/
def bytesCodecs : Codecs (List UInt8) where
  marshalRequest message := .ok message
  unmarshalRequest _ bytes := .ok bytes
  gzip := id
  gunzip := .ok
  crc32 _ := 0
  sha256Sum := id

/-- The Unix epoch. -/
def epoch : Timestamp := ⟨0, 0, by decide⟩

theorem scanFile_empty_unknown_request :
    ∃ file, (ChunkEncoder.mk .none .none).writeFile bytesCodecs (fun _ => newCrced)
        [.header ⟨sshProtocol, .inbound, epoch, chunkHeader⟩ .none .none (goBytes "s_1"),
          .request ⟨sshProtocol, .inbound, epoch, goBytes "UNKR"⟩ [],
          .done ⟨sshProtocol, .inbound, epoch, chunkEnd⟩] = .ok file ∧
      scanFile bytesCodecs [] file = some (.error
        "bsr.ChunkWalk: bsr.(ChunkDecoder).Decode: ssh.DecodeChunk: not enough data: error decoding chunk") := by
  obtain ⟨file, hfile⟩ : ∃ file, (ChunkEncoder.mk .none .none).writeFile bytesCodecs
      (fun _ => newCrced)
      [.header ⟨sshProtocol, .inbound, epoch, chunkHeader⟩ .none .none (goBytes "s_1"),
        .request ⟨sshProtocol, .inbound, epoch, goBytes "UNKR"⟩ [],
        .done ⟨sshProtocol, .inbound, epoch, chunkEnd⟩] = .ok file := ⟨_, rfl⟩
  refine ⟨file, hfile, ?_⟩
  rw [scanFile_writeFile_empty_request (fun _ => rfl) ⟨by decide, by decide, by decide⟩ rfl
    (by decide) (List.forall_mem_nil _) rfl (by decide) (by decide) rfl (by decide) _ hfile []]
  rfl

end Boundary.Bsr
