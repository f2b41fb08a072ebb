import Boundary.Bsr.Chunk

/-!
# Encoding chunks

`ChunkEncoder.Encode` writes a chunk as its data's length (a big-endian
`uint32`), the 21 bytes of protocol, chunk type, direction and timestamp, the
data (compressed unless the chunk is a header or an end chunk) and the CRC-32
of those 21 bytes and the data.

The 21 bytes are built in a buffer that `Encode` takes from `encodeCachePool`
and puts back after use, without clearing it: `copy` writes the protocol and
the chunk type over whatever an earlier call left there. The buffer a call is
handed is therefore a parameter of `encode`, and `encode` gives back the buffer
it puts back in the pool.
-/

namespace Boundary.Bsr

open Wire

variable {R : Type}

/-- `ChunkEncoder`: the compression and encryption of the chunks it writes. -/
structure ChunkEncoder where
  compression : Compression
  encryption : Encryption

/-- `NewChunkEncoder`. -/
def newChunkEncoder (c : Compression) (e : Encryption) : Except String ChunkEncoder :=
  if !validCompression c then .error "bsr.NewChunkEncoder: invalid compression: invalid parameter"
  else if !validEncryption e then .error "bsr.NewChunkEncoder: invalid encryption: invalid parameter"
  else .ok ⟨c, e⟩

/-- The buffer of a new `encodeCache`. -/
def newCrced : List.Vector UInt8 crcDataSize := List.Vector.replicate crcDataSize 0

/-- The bytes the CRC covers, written over the buffer `crced`: the protocol and
the chunk type copied in, the direction byte set, the timestamp copied in. -/
def crcedBytes (crced : List UInt8) (b : BaseChunk) : List UInt8 :=
  copyAt (copyAt (copyAt (copyAt crced 0 b.protocol) 4 b.type) 8 [b.direction.value]) 9
    b.timestamp.marshal

theorem length_crcedBytes (crced : List UInt8) (hcrced : crced.length = crcDataSize)
    (b : BaseChunk) : (crcedBytes crced b).length = crcDataSize := by
  unfold crcDataSize at hcrced ⊢
  have h1 : (copyAt crced 0 b.protocol).length = 21 :=
    (length_copyAt _ _ _ (by omega)).trans hcrced
  have h2 : (copyAt (copyAt crced 0 b.protocol) 4 b.type).length = 21 :=
    (length_copyAt _ _ _ (by omega)).trans h1
  have h3 : (copyAt (copyAt (copyAt crced 0 b.protocol) 4 b.type) 8 [b.direction.value]).length =
      21 := (length_copyAt _ _ _ (by omega)).trans h2
  exact (length_copyAt _ _ _ (by omega)).trans h3

/-- The data `Encode` writes for a chunk of the type: a header's and an end
chunk's as it is, the others through the encoder's compression. -/
def ChunkEncoder.compress (e : ChunkEncoder) (cs : Codecs R) (type data : List UInt8) :
    List UInt8 :=
  if type = chunkHeader ∨ type = chunkEnd then data
  else if e.compression = .gzip then cs.gzip data
  else data

/-- `ChunkEncoder.Encode` handed the pool's buffer `crced`: the bytes written,
and the buffer put back in the pool. -/
def ChunkEncoder.encode (e : ChunkEncoder) (cs : Codecs R) (crced : List.Vector UInt8 crcDataSize)
    (c : Chunk R) : Except String (List UInt8 × List.Vector UInt8 crcDataSize) :=
  match c.marshalData cs with
  | .error err => .error err
  | .ok data =>
    let compressed := e.compress cs c.base.type data
    let crced' := crcedBytes crced.toList c.base
    let sum := cs.crc32 (crced' ++ compressed)
    .ok (beBytes 4 compressed.length ++ crced' ++ compressed ++ beBytes 4 sum.toNat,
      ⟨crced', length_crcedBytes _ crced.toList_length _⟩)

/-- The chunks one after another, the `i`-th call of `Encode` handed the
buffer `crceds i`, whichever the pool gave it. -/
def ChunkEncoder.encodeChunks (e : ChunkEncoder) (cs : Codecs R)
    (crceds : Nat → List.Vector UInt8 crcDataSize) : Nat → List (Chunk R) → Except String (List UInt8)
  | _, [] => .ok []
  | i, c :: rest =>
    match e.encode cs (crceds i) c, e.encodeChunks cs crceds (i + 1) rest with
    | .error err, _ => .error err
    | .ok _, .error err => .error err
    | .ok (bytes, _), .ok more => .ok (bytes ++ more)

/-- The bytes of a BSR data file: the magic string, then the chunks. -/
def ChunkEncoder.writeFile (e : ChunkEncoder) (cs : Codecs R)
    (crceds : Nat → List.Vector UInt8 crcDataSize) (chunks : List (Chunk R)) :
    Except String (List UInt8) :=
  (e.encodeChunks cs crceds 0 chunks).map (magic ++ ·)

/-- The bytes `Encode` writes for each chunk in turn when every call is handed
the buffer the call before it put back. -/
def ChunkEncoder.encodeInTurn (e : ChunkEncoder) (cs : Codecs R) :
    List.Vector UInt8 crcDataSize → List (Chunk R) → Except String (List (List UInt8))
  | _, [] => .ok []
  | crced, c :: rest =>
    match e.encode cs crced c with
    | .error err => .error err
    | .ok (bytes, crced') => (e.encodeInTurn cs crced' rest).map (bytes :: ·)

end Boundary.Bsr
