import Boundary.Bsr.Chunk

/-!
# Decoding chunks

`ChunkDecoder.Decode` reads the next chunk off its input: the 25 bytes of
length, protocol, chunk type, direction and timestamp, the data and the CRC,
which it checks, then the base chunk, the data (decompressed unless the chunk
is a header or an end chunk, and cut at `MaxChunkDataLength` bytes) and the
chunk its type's decode function makes of them. A header chunk sets the
compression of the chunks after it. `ChunkScanner` reads the magic string,
then scans chunk after chunk, and compares the SHA-256 sum of the bytes read
with an expected one at the end chunk and at the end of the input;
`ChunkWalk` hands each chunk scanned to a function until the end of the input.
-/

namespace Boundary.Bsr

open Wire

variable {R : Type}

/-- `ChunkDecoder`: the compression and encryption of the chunks it reads. -/
structure ChunkDecoder where
  compression : Compression
  encryption : Encryption

/-- The decoder `NewChunkDecoder` makes. -/
def ChunkDecoder.new : ChunkDecoder := ⟨.none, .none⟩

/-- An error of `Decode`, which wraps `ErrChunkDecode`. -/
def decodeError (msg : String) : String :=
  "bsr.(ChunkDecoder).Decode: " ++ msg ++ ": error decoding chunk"

/-- The reads of `Decode`: the 21 bytes after the length, the data and the
number of bytes read, the length checked against `MaxChunkDataLength` and the
CRC checked; `none` at the end of the input (`io.EOF`). -/
def readFrame (cs : Codecs R) (r : List UInt8) :
    Except String (Option (List UInt8 × List UInt8 × Nat)) :=
  if r = [] then .ok none
  else if r.length < 25 then .error (decodeError "unexpected EOF")
  else
    let length := ofBeBytes (r.take 4)
    let buf := (r.drop 4).take crcDataSize
    let rest := r.drop 25
    if length > maxChunkDataLength then
      .error (decodeError s!"chunk length {length} exceeds max chunk length of 6400000")
    else if rest.length < length then .error (decodeError "unexpected EOF: missing data")
    else if (rest.drop length).length < 4 then .error (decodeError "unexpected EOF: missing crc")
    else if (cs.crc32 (buf ++ rest.take length)).toNat ≠ ofBeBytes ((rest.drop length).take 4) then
      .error (decodeError "chunk crc did not match")
    else .ok (some (buf, rest.take length, 25 + length + 4))

/-- The data of a chunk of the type as `Decode` reads it: a header's and an end
chunk's as it is, the others through the decoder's compression, and at most
`MaxChunkDataLength` bytes of it (`io.LimitReader`). -/
def ChunkDecoder.decompress (d : ChunkDecoder) (cs : Codecs R) (type data : List UInt8) :
    Except String (List UInt8) :=
  if type = chunkHeader ∨ type = chunkEnd then .ok (data.take maxChunkDataLength)
  else if d.compression = .gzip then (cs.gunzip data).map (·.take maxChunkDataLength)
  else .ok (data.take maxChunkDataLength)

/-- The decoder after a chunk: a header chunk sets its compression and
encryption. -/
def ChunkDecoder.after (d : ChunkDecoder) : Chunk R → ChunkDecoder
  | .header _ compression encryption _ => ⟨compression, encryption⟩
  | _ => d

/-- The chunk of a frame's 21 bytes and data, and the decoder after it; the 21
bytes hold exactly the fields read, so the check for extra bytes after the
timestamp never fails and is left out. -/
def ChunkDecoder.decodeFrame (d : ChunkDecoder) (cs : Codecs R) (buf data : List UInt8) :
    Except String (Chunk R × ChunkDecoder) :=
  let protocol := buf.take 4
  let type := (buf.drop 4).take 4
  let direction : Direction := ⟨(buf.drop 8).headD 0⟩
  match decodeTimestamp ((buf.drop 9).take 12) with
  | .error e => .error (decodeError ("error parsing timestamp: " ++ e))
  | .ok timestamp =>
    match newBaseChunk protocol direction timestamp type with
    | .error e => .error (decodeError e)
    | .ok b =>
      match d.decompress cs type data with
      | .error e => .error (decodeError e)
      | .ok decompressed =>
        match decodeFunc cs b.protocol b.type with
        | none => .error (decodeError "unsupported chunk type")
        | some df =>
          match df b decompressed with
          | .error e => .error (decodeError e)
          | .ok c => .ok (c, d.after c)

/-- `ChunkDecoder.Decode`: the next chunk, the decoder after it and the number
of bytes read; `none` at the end of the input. -/
def ChunkDecoder.decode (d : ChunkDecoder) (cs : Codecs R) (r : List UInt8) :
    Except String (Option (Chunk R × ChunkDecoder × Nat)) :=
  match readFrame cs r with
  | .error e => .error e
  | .ok none => .ok none
  | .ok (some (buf, data, n)) => (d.decodeFrame cs buf data).map fun (c, d') => some (c, d', n)

/-! ## Scanning a file -/

/-- `ReadMagic`: the input after the magic string. -/
def readMagic (r : List UInt8) : Except String (List UInt8) :=
  if r = [] then .error "bsr.ReadMagic: EOF"
  else if r.length < magic.length then .error "bsr.ReadMagic: unexpected EOF"
  else if r.take magic.length ≠ magic then .error "bsr.ReadMagic: invalid magic string"
  else .ok (r.drop magic.length)

/-- `ChunkScanner`: the expected sum (empty without `WithSha256Sum`), the
bytes read so far, the bytes not read yet, and the decoder. -/
structure ChunkScanner where
  checksum : List UInt8
  read : List UInt8
  rest : List UInt8
  decoder : ChunkDecoder

/-- `NewChunkScanner` over the input. -/
def newChunkScanner (checksum input : List UInt8) : Except String ChunkScanner :=
  match readMagic input with
  | .error e => .error ("bsr.NewChunkScanner: " ++ e)
  | .ok rest => .ok ⟨checksum, input.take magic.length, rest, .new⟩

/-- What `Scan` returns without an error: a chunk, or `io.EOF`. -/
inductive Scanned (R : Type) where
  | chunk (c : Chunk R)
  | eof

/-- The error of a sum that does not match, wrapping `ErrChecksum`. -/
def checksumError : String := "bsr.(ChunkScanner).Scan: computed checksum did NOT match"

/-- `ChunkScanner.Scan`: the next chunk and the scanner after it, the sum
compared at an end chunk and at the end of the input. -/
def ChunkScanner.scan (s : ChunkScanner) (cs : Codecs R) :
    Except String (Scanned R × ChunkScanner) :=
  match s.decoder.decode cs s.rest with
  | .error e => .error e
  | .ok none =>
    if s.checksum ≠ [] ∧ cs.sha256Sum s.read ≠ s.checksum then .error checksumError
    else .ok (.eof, s)
  | .ok (some (c, d, n)) =>
    let s' : ChunkScanner := ⟨s.checksum, s.read ++ s.rest.take n, s.rest.drop n, d⟩
    if c.base.type = chunkEnd ∧ s.checksum ≠ [] ∧ cs.sha256Sum s'.read ≠ s.checksum then
      .error checksumError
    else .ok (.chunk c, s')

/-- `ChunkWalk`, the read function's state `σ` made explicit: each chunk
scanned is handed to `f` until the end of the input; at most `fuel` scans. -/
def chunkWalk {σ : Type} (cs : Codecs R) (f : σ → Chunk R → Except String σ) :
    Nat → ChunkScanner → σ → Option (Except String σ)
  | 0, _, _ => none
  | fuel + 1, s, acc =>
    match s.scan cs with
    | .error e => some (.error ("bsr.ChunkWalk: " ++ e))
    | .ok (.eof, _) => some (.ok acc)
    | .ok (.chunk c, s') =>
      match f acc c with
      | .error e => some (.error ("bsr.ChunkWalk: " ++ e))
      | .ok acc' => chunkWalk cs f fuel s' acc'

/-- The read function that collects the chunks it is handed. -/
def collect (acc : List (Chunk R)) (c : Chunk R) : Except String (List (Chunk R)) := .ok (acc ++ [c])

/-- The chunks a scanner over the input returns until `io.EOF`, in order, with
`ChunkWalk` collecting them; each scan reads at least one byte, so the walk
ends within one scan more than the input has bytes. -/
def scanFile (cs : Codecs R) (checksum input : List UInt8) : Option (Except String (List (Chunk R))) :=
  match newChunkScanner checksum input with
  | .error e => some (.error e)
  | .ok s => chunkWalk cs collect (input.length + 1) s []

end Boundary.Bsr
