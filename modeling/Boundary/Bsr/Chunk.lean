import Boundary.Wire.Binary

/-!
# BSR chunks

A BSR data file is a sequence of chunks. Each has a base (the protocol, the
chunk type, the direction and the timestamp of the recorded data) and data of
its own: the header's compression, encryption and session id, nothing for the
end chunk, the raw bytes of an SSH data chunk, or the protobuf message of an
SSH request chunk. Go strings are byte sequences, so protocols, chunk types and
the session id are lists of bytes here.

The requests' protobuf messages and their encoding are a parameter of the model
(`Codecs`), with the gzip writer and reader, CRC-32 and the scanner's SHA-256
sum.
-/

namespace Boundary.Bsr

open Wire

/-- `maxChunkDataLength`, `MaxChunkDataLength`. -/
def maxChunkDataLength : Nat := 64 * 100 * 1000

/-- `crcDataSize`: protocol, chunk type, direction and timestamp. -/
def crcDataSize : Nat := 21

/-- `nanosecondLimit`. -/
def nanosecondLimit : Nat := 999999999

/-- The bytes of a Go string literal. -/
def goBytes (s : String) : List UInt8 := s.toUTF8.data.toList

/-- `Magic`, the first bytes of a BSR data file: `"\x89BSR\r\n\x1a\n"`. -/
def magic : List UInt8 := [0x89, 0x42, 0x53, 0x52, 0x0d, 0x0a, 0x1a, 0x0a]

/-- `Direction`, a byte. -/
structure Direction where
  value : UInt8
  deriving DecidableEq, Repr

/-- `Inbound`. -/
def Direction.inbound : Direction := ⟨1⟩

/-- `Outbound`. -/
def Direction.outbound : Direction := ⟨2⟩

/-- `ValidDirection`. -/
def validDirection (d : Direction) : Bool := d == .inbound || d == .outbound

/-- `Compression`, a byte. -/
structure Compression where
  value : UInt8
  deriving DecidableEq, Repr

/-- `NoCompression`. -/
def Compression.none : Compression := ⟨0⟩

/-- `GzipCompression`. -/
def Compression.gzip : Compression := ⟨1⟩

/-- `ValidCompression`. -/
def validCompression (c : Compression) : Bool := c == .none || c == .gzip

/-- `Encryption`, a byte. -/
structure Encryption where
  value : UInt8
  deriving DecidableEq, Repr

/-- `NoEncryption`. -/
def Encryption.none : Encryption := ⟨0⟩

/-- `ValidEncryption`. -/
def validEncryption (e : Encryption) : Bool := e == .none

/-! ## Timestamps -/

/-- `Timestamp`: seconds since the Unix epoch and nanoseconds since that
second, as `time.Time` gives them. -/
structure Timestamp where
  seconds : Int64
  nanoseconds : Nat
  nanoseconds_le : nanoseconds ≤ nanosecondLimit
  deriving DecidableEq

/-- `Timestamp.marshal`: the seconds as a big-endian `uint64`, the nanoseconds
as a big-endian `uint32`. -/
def Timestamp.marshal (t : Timestamp) : List UInt8 :=
  beBytes 8 t.seconds.toUInt64.toNat ++ beBytes 4 t.nanoseconds

/-- `decodeTimestamp` of the twelve bytes of a timestamp. -/
def decodeTimestamp (data : List UInt8) : Except String Timestamp :=
  let seconds := ofBeBytes (data.take 8)
  let nanoseconds := ofBeBytes ((data.drop 8).take 4)
  if h : nanoseconds ≤ nanosecondLimit then
    if data.drop 12 ≠ [] then .error "bsr.decodeTimestamp: extra data"
    else .ok ⟨(UInt64.ofNat seconds).toInt64, nanoseconds, h⟩
  else
    .error s!"bsr.decodeTimestamp: nanosecond value of {nanoseconds} exceeds the max nanosecond value of 999999999: error decoding timestamp"

@[simp] theorem length_marshal (t : Timestamp) : t.marshal.length = 12 := by
  simp [Timestamp.marshal]

theorem decodeTimestamp_marshal (t : Timestamp) : decodeTimestamp t.marshal = .ok t := by
  have hlt : t.nanoseconds < 256 ^ 4 := lt_of_le_of_lt t.nanoseconds_le (by decide)
  have hsec : ofBeBytes (beBytes 8 t.seconds.toUInt64.toNat) = t.seconds.toUInt64.toNat :=
    (ofBeBytes_beBytes 8 _).trans (Nat.mod_eq_of_lt t.seconds.toUInt64.toNat_lt)
  have hnano : ofBeBytes (beBytes 4 t.nanoseconds) = t.nanoseconds :=
    (ofBeBytes_beBytes 4 _).trans (Nat.mod_eq_of_lt hlt)
  unfold decodeTimestamp Timestamp.marshal
  simp only [List.take_left' (length_beBytes 8 _), List.drop_left' (length_beBytes 8 _),
    List.take_of_length_le (le_of_eq (length_beBytes 4 _)), hsec, hnano, dif_pos t.nanoseconds_le]
  rw [if_neg (by simp)]
  simp

/-! ## Chunks -/

/-- `BaseChunk`, the fields every chunk has. -/
structure BaseChunk where
  protocol : List UInt8
  direction : Direction
  timestamp : Timestamp
  type : List UInt8
  deriving DecidableEq

/-- `ChunkHeader`. -/
def chunkHeader : List UInt8 := goBytes "HEAD"

/-- `ChunkEnd`. -/
def chunkEnd : List UInt8 := goBytes "DONE"

/-- `NewBaseChunk`. -/
def newBaseChunk (p : List UInt8) (d : Direction) (t : Timestamp) (typ : List UInt8) :
    Except String BaseChunk :=
  if p.length > 4 then
    .error "bsr.NewBaseChunk: protocol name cannot be greater than 4 characters: invalid parameter"
  else if !validDirection d then .error "bsr.NewBaseChunk: invalid direction: invalid parameter"
  else if typ.length > 4 then
    .error "bsr.NewBaseChunk: chunk type cannot be greater than 4 characters: invalid parameter"
  else .ok ⟨p, d, t, typ⟩

/-- A chunk of a BSR data file, `R` the SSH requests' protobuf messages. -/
inductive Chunk (R : Type) where
  /-- `HeaderChunk`. -/
  | header (base : BaseChunk) (compression : Compression) (encryption : Encryption)
      (sessionId : List UInt8)
  /-- `EndChunk`. -/
  | done (base : BaseChunk)
  /-- `ssh.DataChunk`. -/
  | data (base : BaseChunk) (data : List UInt8)
  /-- An SSH request chunk, from `ssh.BreakRequest` to `ssh.UnknownRequest`: the
  request's message. -/
  | request (base : BaseChunk) (request : R)

/-- The chunk's `BaseChunk`. -/
def Chunk.base {R : Type} : Chunk R → BaseChunk
  | .header base .. | .done base | .data base _ | .request base _ => base

/-- What the chunk files use and the model leaves open: `proto.Marshal` of a
request's message and `proto.Unmarshal` into the message of a request chunk
type; the gzip writer and reader; CRC-32 with the IEEE polynomial; and the
hex-encoded SHA-256 sum of the scanner. -/
structure Codecs (R : Type) where
  marshalRequest : R → Except String (List UInt8)
  unmarshalRequest : List UInt8 → List UInt8 → Except String R
  gzip : List UInt8 → List UInt8
  gunzip : List UInt8 → Except String (List UInt8)
  crc32 : List UInt8 → UInt32
  sha256Sum : List UInt8 → List UInt8

variable {R : Type}

/-- `MarshalData` of each kind of chunk. -/
def Chunk.marshalData (cs : Codecs R) : Chunk R → Except String (List UInt8)
  | .header _ compression encryption sessionId =>
    .ok ([compression.value, encryption.value] ++ sessionId)
  | .done _ => .ok []
  | .data _ bytes => .ok bytes
  | .request _ message => cs.marshalRequest message

/-- `DecodeHeader`. -/
def decodeHeader (b : BaseChunk) (data : List UInt8) : Except String (Chunk R) :=
  if b.type ≠ chunkHeader then .error "bsr.DecodeHeader: invalid chunk type"
  else
    match data with
    | compression :: encryption :: sessionId => .ok (.header b ⟨compression⟩ ⟨encryption⟩ sessionId)
    | _ => .error "bsr.DecodeHeader: not enough data"

/-- `DecodeEnd`. -/
def decodeEnd (b : BaseChunk) (data : List UInt8) : Except String (Chunk R) :=
  if b.type ≠ chunkEnd then .error "bsr.DecodeEnd: invalid chunk type"
  else if data ≠ [] then .error "bsr.DecodeEnd: end chunk not empty"
  else .ok (.done b)

/-! ## SSH chunks -/

/-- `ssh.Protocol`. -/
def sshProtocol : List UInt8 := goBytes "BSSH"

/-- `ssh.DataChunkType`. -/
def dataChunkType : List UInt8 := goBytes "DATA"

/-- The request chunk types, from `BreakReqChunkType` to `UnknownReqChunkType`. -/
def requestChunkTypes : List (List UInt8) :=
  ["BREK", "CTPF", "DTCP", "ENVR", "EXEC", "EXSG", "EXST", "FTCP", "PTYR", "SESS", "SHLL",
    "SGNL", "SUBS", "TCPF", "WCHG", "X11F", "X11R", "XOXO", "UNKR"].map goBytes

/-- `ssh.DecodeChunk`: a data chunk's bytes as they are, a request chunk's
through `proto.Unmarshal` into the message of its type. -/
def sshDecodeChunk (cs : Codecs R) (b : BaseChunk) (data : List UInt8) : Except String (Chunk R) :=
  if b.protocol ≠ sshProtocol then .error "ssh.DecodeChunk: invalid protocol"
  else if b.type = dataChunkType then .ok (.data b data)
  else if data.length = 0 then .error "ssh.DecodeChunk: not enough data"
  else if b.type ∈ requestChunkTypes then
    match cs.unmarshalRequest b.type data with
    | .ok request => .ok (.request b request)
    | .error e => .error ("ssh.DecodeChunk: " ++ e)
  else .error "ssh.DecodeChunk: unsupported chunk type"

/-- `chunkTypes.Get`: the decode function registered for a protocol and chunk
type, the SSH package having registered its chunk types for its protocol. -/
def decodeFunc (cs : Codecs R) (p typ : List UInt8) :
    Option (BaseChunk → List UInt8 → Except String (Chunk R)) :=
  if typ = chunkHeader then some decodeHeader
  else if typ = chunkEnd then some decodeEnd
  else if p = sshProtocol ∧ (typ = dataChunkType ∨ typ ∈ requestChunkTypes) then
    some (sshDecodeChunk cs)
  else none

end Boundary.Bsr
