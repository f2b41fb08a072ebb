import Boundary.Bsr.Decode
import Boundary.Bsr.Encode

/-!
# SSH channels as asciicasts

`sshChannelToAsciicast` converts the recording of an SSH channel into an
asciicast. It walks the channel's inbound requests for the header's terminal
size, shell and TERM; then it walks the outbound messages, where the header
chunk's timestamp completes the header, which is written first, and each data
chunk becomes an output event.

The request walk does not keep the largest size it sees, as its comment says:
a Pty request larger than the configured minimum sets the size whatever the
header held, and only a WindowChange request compares with the header. The
size written is that of the last such Pty request, raised by every
WindowChange request after it (`size_foldl_readRequest`), so it depends on the
order of the requests.

Both walks are `ChunkWalk` over a `ChunkScanner`. Terminal sizes are `uint32`s
that the code only compares; they are natural numbers here. The lines are the
values handed to the JSON encoder, whose writes are taken to succeed. An
event's time is the nanoseconds since the header's timestamp, which the code
divides by a second as a float.
-/

namespace Boundary

/-! ## Sizes that are set or raised -/

/-- What one step does to a size: set it, raise it to a value when that is
larger, or keep it. -/
inductive Resize (α : Type) where
  | set (v : α)
  | raise (v : α)
  | keep
  deriving DecidableEq

namespace Resize

variable {α : Type} [LinearOrder α]

/-- The size after one step. -/
def apply (s : α) : Resize α → α
  | .set v => v
  | .raise v => max v s
  | .keep => s

/-- The size after steps listed from the last back: the value of the last
`set`, or the initial size if there is none, raised by every later `raise`. -/
def fromLast (s₀ : α) : List (Resize α) → α
  | [] => s₀
  | .set v :: _ => v
  | .raise v :: rs => max v (fromLast s₀ rs)
  | .keep :: rs => fromLast s₀ rs

/-- The value a step raises to. -/
def raised : Resize α → Option α
  | .raise v => some v
  | _ => none

theorem fromLast_append (s₀ : α) (l : List (Resize α)) (m : List (Resize α)) :
    fromLast s₀ (l ++ m) = fromLast (fromLast s₀ m) l := by
  induction l with
  | nil => rfl
  | cons r l ih =>
    cases r with
    | set v => rfl
    | raise v => simp only [List.cons_append, fromLast, ih]
    | keep => simp only [List.cons_append, fromLast, ih]

theorem fromLast_singleton (s₀ : α) (r : Resize α) : fromLast s₀ [r] = apply s₀ r := by
  cases r <;> rfl

/-- Running the steps in order is reading them from the last back. -/
theorem foldl_apply (s₀ : α) (rs : List (Resize α)) :
    rs.foldl apply s₀ = fromLast s₀ rs.reverse := by
  induction rs generalizing s₀ with
  | nil => rfl
  | cons r rs ih =>
    rw [List.foldl_cons, ih, List.reverse_cons, fromLast_append, fromLast_singleton]

/-- With no `set`, the size is the largest of the initial size and the raises. -/
theorem fromLast_eq_foldr (s₀ : α) :
    ∀ rs : List (Resize α), (∀ r ∈ rs, ∀ v, r ≠ .set v) →
      fromLast s₀ rs = (rs.filterMap raised).foldr max s₀
  | [], _ => rfl
  | r :: rs, h => by
    have ih := fromLast_eq_foldr s₀ rs fun r' hr' => h r' (List.mem_cons_of_mem r hr')
    cases r with
    | set v => exact absurd rfl (h _ List.mem_cons_self v)
    | raise v =>
      rw [fromLast, List.filterMap_cons_some (rfl : raised (raise v) = some v), List.foldr_cons, ih]
    | keep => rw [fromLast, List.filterMap_cons_none (rfl : raised (keep : Resize α) = none), ih]

/-- With no `set`, the order of the steps does not matter. -/
theorem fromLast_perm (s₀ : α) {rs rs' : List (Resize α)} (hp : rs.Perm rs')
    (h : ∀ r ∈ rs, ∀ v, r ≠ .set v) : fromLast s₀ rs = fromLast s₀ rs' := by
  have h' : ∀ r ∈ rs', ∀ v, r ≠ .set v := fun r hr => h r (hp.mem_iff.mpr hr)
  have hcomm : LeftCommutative (max : α → α → α) := ⟨max_left_comm⟩
  rw [fromLast_eq_foldr s₀ rs h, fromLast_eq_foldr s₀ rs' h']
  exact (hp.filterMap raised).foldr_eq s₀

end Resize

namespace Bsr

/-! ## The asciicast package -/

namespace Asciicast

/-- `asciicast.Version`. -/
def version : Nat := 2

/-- `DefaultWidth`. -/
def defaultWidth : Nat := 80

/-- `DefaultHeight`. -/
def defaultHeight : Nat := 24

/-- `DefaultShell`. -/
def defaultShell : String := "/bin/bash"

/-- `DefaultTerm`. -/
def defaultTerm : String := "xterm"

/-- `HeaderEnv`. -/
structure HeaderEnv where
  shell : String
  term : String
  deriving DecidableEq, Repr

/-- `Header`, the first line of an asciicast. -/
structure Header where
  version : Nat
  width : Nat
  height : Nat
  timestamp : Timestamp
  env : HeaderEnv
  deriving DecidableEq

/-- The zero `time.Time`, January 1 of year 1, as Unix seconds. -/
def zeroTime : Timestamp := ⟨-62135596800, 0, Nat.zero_le _⟩

/-- `NewHeader`. -/
def newHeader : Header :=
  ⟨version, defaultWidth, defaultHeight, zeroTime, ⟨defaultShell, defaultTerm⟩⟩

/-- `EventType`, of the valid event types. -/
inductive EventType where
  | output
  | input
  | marker
  deriving DecidableEq, Repr

/-- `Event`, with its time in nanoseconds. -/
structure Event where
  time : Int
  type : EventType
  data : List UInt8
  deriving DecidableEq

/-- A line of an asciicast: the header or an event. -/
inductive Line where
  | header (h : Header)
  | event (e : Event)
  deriving DecidableEq

end Asciicast

open Asciicast

/-! ## Walking the chunks of a recording -/

/-- `ssh.PtyReqChunkType`. -/
def ptyReqChunkType : List UInt8 := goBytes "PTYR"

/-- `ssh.WindowChangeReqChunkType`. -/
def windowChangeReqChunkType : List UInt8 := goBytes "WCHG"

/-- `ssh.EnvReqChunkType`. -/
def envReqChunkType : List UInt8 := goBytes "ENVR"

/-- The fields of the SSH request messages the converter reads: the
`PtyRequest`'s TERM and terminal size, the `WindowChangeRequest`'s terminal
size, the `EnvRequest`'s variable. It reads nothing of any other request. -/
inductive SshRequest where
  | pty (termEnvVar : String) (terminalWidthCharacters terminalHeightRows : Nat)
  | windowChange (terminalWidthColumns terminalHeightRows : Nat)
  | env (variableName variableValue : String)
  | other
  deriving DecidableEq

/-- The panic of a type assertion on a chunk that is not the request its type
names. No decode function of the SSH package makes such a chunk; here the
panic ends the walk with its message. -/
def interfaceConversion (target : String) : String :=
  "interface conversion: bsr.Chunk is not " ++ target

/-- `ErrUnsupportedProtocol`. -/
def errUnsupportedProtocol : String := "unsupported protocol"

/-! ## The converter -/

/-- The options of the convert package. -/
structure Options where
  withChannelId : String
  withMinWidth : Nat
  withMinHeight : Nat

/-- `getDefaultOptions`. -/
def getDefaultOptions : Options := ⟨"", 0, 0⟩

/-- `convert.Option`. -/
inductive ConvertOption where
  | withChannelId (id : String)
  | withMinWidth (w : Nat)
  | withMinHeight (h : Nat)

/-- An option applied to the options. -/
def ConvertOption.apply (opts : Options) : ConvertOption → Options
  | .withChannelId id => { opts with withChannelId := id }
  | .withMinWidth w => { opts with withMinWidth := w }
  | .withMinHeight h => { opts with withMinHeight := h }

/-- `getOpts`. -/
def getOpts (opt : List ConvertOption) : Options :=
  opt.foldl ConvertOption.apply getDefaultOptions

/-- The header before the walks: `NewHeader`, with the minimum width and
height when they are set. -/
def initialHeader (opts : Options) : Header :=
  { newHeader with
    width := if opts.withMinWidth > 0 then opts.withMinWidth else newHeader.width
    height := if opts.withMinHeight > 0 then opts.withMinHeight else newHeader.height }

/-- A Pty request: its size where it exceeds the minimum, and its TERM if set. -/
def Asciicast.Header.ptyRequest (opts : Options) (header : Header) (termEnvVar : String)
    (width height : Nat) : Header :=
  { header with
    width := if width > opts.withMinWidth then width else header.width
    height := if height > opts.withMinHeight then height else header.height
    env := if termEnvVar ≠ "" then { header.env with term := termEnvVar } else header.env }

/-- A WindowChange request: its size where it exceeds the header's. -/
def Asciicast.Header.windowChange (header : Header) (width height : Nat) : Header :=
  { header with
    width := if width > header.width then width else header.width
    height := if height > header.height then height else header.height }

/-- An Env request: the shell, from a set `SHELL` variable. -/
def Asciicast.Header.envRequest (header : Header) (variableName variableValue : String) : Header :=
  if variableName = "SHELL" ∧ variableValue ≠ "" then
    { header with env := { header.env with shell := variableValue } }
  else header

/-- The function of the request walk. -/
def requestStep (opts : Options) (header : Header) (c : Chunk SshRequest) :
    Except String Header :=
  if c.base.protocol = sshProtocol then
    if c.base.type = ptyReqChunkType then
      match c with
      | .request _ (.pty termEnvVar width height) =>
        .ok (header.ptyRequest opts termEnvVar width height)
      | _ => .error (interfaceConversion "*ssh.PtyRequest")
    else if c.base.type = windowChangeReqChunkType then
      match c with
      | .request _ (.windowChange width height) => .ok (header.windowChange width height)
      | _ => .error (interfaceConversion "*ssh.WindowChangeRequest")
    else if c.base.type = envReqChunkType then
      match c with
      | .request _ (.env variableName variableValue) =>
        .ok (header.envRequest variableName variableValue)
      | _ => .error (interfaceConversion "*ssh.EnvRequest")
    else .ok header
  else .error errUnsupportedProtocol

/-- The state of the message walk: the header, whether it has been written, and
the lines written. -/
structure Writer where
  header : Header
  wroteHeader : Bool
  lines : List Line

/-- The header stamped with the header chunk's timestamp and written. -/
def Writer.writeHeader (w : Writer) (t : Timestamp) : Writer :=
  ⟨{ w.header with timestamp := t }, true, w.lines ++ [.header { w.header with timestamp := t }]⟩

/-- Nanoseconds since the Unix epoch. -/
def Timestamp.nanos (t : Timestamp) : Int := t.seconds.toInt * 1000000000 + t.nanoseconds

/-- The function of the message walk. -/
def messageStep (w : Writer) (c : Chunk SshRequest) : Except String Writer :=
  if c.base.protocol = sshProtocol then
    if c.base.type = chunkHeader then
      match c with
      | .header b .. =>
        if w.wroteHeader then .error "multiple header chunks: malformed bsr data file"
        else .ok (w.writeHeader b.timestamp)
      | _ => .error (interfaceConversion "*bsr.HeaderChunk")
    else if c.base.type = dataChunkType then
      if !w.wroteHeader then .error "data chunk before header: malformed bsr data file"
      else
        match c with
        | .data b data =>
          .ok { w with lines := w.lines ++
            [.event ⟨b.timestamp.nanos - w.header.timestamp.nanos, .output, data⟩] }
        | _ => .error (interfaceConversion "*ssh.DataChunk")
    else .ok w
  else .error errUnsupportedProtocol

/-- `sshChannelToAsciicast` over the scanners of the requests and of the
messages: the lines of the asciicast. Each walk scans at most once more than
its scanner has bytes left, as every scan reads some. -/
def sshChannelToAsciicast (cs : Codecs SshRequest) (requestScanner messagesScanner : ChunkScanner)
    (options : List ConvertOption) : Option (Except String (List Line)) :=
  match chunkWalk cs (requestStep (getOpts options)) (requestScanner.rest.length + 1)
      requestScanner (initialHeader (getOpts options)) with
  | none => none
  | some (.error e) => some (.error ("convert.sshChannelToAsciicast: " ++ e))
  | some (.ok header) =>
    match chunkWalk cs messageStep (messagesScanner.rest.length + 1) messagesScanner
        ⟨header, false, []⟩ with
    | none => none
    | some (.error e) => some (.error ("convert.sshChannelToAsciicast: " ++ e))
    | some (.ok w) => some (.ok w.lines)

/-! ## Walks of decoded chunks -/

section Walk

variable {R σ : Type} {cs : Codecs R}

/-- The chunks a scanner returns until `io.EOF`, as `ChunkWalk` collects them. -/
def ChunkScanner.chunks (s : ChunkScanner) (cs : Codecs R) : Option (Except String (List (Chunk R))) :=
  chunkWalk cs collect (s.rest.length + 1) s []

/-- A walk whose function succeeds on every chunk the scanner returns folds it
over them. -/
theorem chunkWalk_eq_foldl (f : σ → Chunk R → Except String σ) (g : σ → Chunk R → σ) :
    ∀ (fuel : Nat) (s : ChunkScanner) (acc chunks : List (Chunk R)) (a : σ),
      chunkWalk cs collect fuel s acc = some (.ok chunks) →
      (∀ a, ∀ c ∈ chunks, f a c = .ok (g a c)) →
      ∃ rest, chunks = acc ++ rest ∧ chunkWalk cs f fuel s a = some (.ok (rest.foldl g a))
  | 0, _, _, _, _, h, _ => by cases h
  | fuel + 1, s, acc, chunks, a, h, hf => by
    unfold chunkWalk at h ⊢
    cases hs : s.scan cs with
    | error e =>
      rw [hs] at h
      cases h
    | ok r =>
      obtain ⟨scanned, s'⟩ := r
      rw [hs] at h
      cases scanned with
      | eof =>
        cases h
        exact ⟨[], by simp, rfl⟩
      | chunk c =>
        dsimp only at h ⊢
        -- the collected chunks start with those before this one and this one
        obtain ⟨rest, hchunks, hwalk⟩ := chunkWalk_eq_foldl f g fuel s' (acc ++ [c]) chunks
          (g a c) h hf
        have hc : c ∈ chunks := by simp [hchunks]
        refine ⟨c :: rest, by simp [hchunks], ?_⟩
        rw [hf a c hc]
        exact hwalk

/-- An invariant that every chunk keeps holds after a walk that succeeds. -/
theorem chunkWalk_inv (f : σ → Chunk R → Except String σ) (P : σ → Prop)
    (hstep : ∀ a c a', P a → f a c = .ok a' → P a') :
    ∀ (fuel : Nat) (s : ChunkScanner) (a r : σ), P a → chunkWalk cs f fuel s a = some (.ok r) → P r
  | 0, _, _, _, _, h => by cases h
  | fuel + 1, s, a, r, ha, h => by
    unfold chunkWalk at h
    cases hs : s.scan cs with
    | error e =>
      rw [hs] at h
      cases h
    | ok p =>
      obtain ⟨scanned, s'⟩ := p
      rw [hs] at h
      cases scanned with
      | eof =>
        cases h
        exact ha
      | chunk c =>
        dsimp only at h
        cases hc : f a c with
        | error e =>
          rw [hc] at h
          cases h
        | ok a' =>
          rw [hc] at h
          exact chunkWalk_inv f P hstep fuel s' a' r (hstep a c a' ha hc) h

end Walk

/-- The request types whose message the walk reads. -/
def readRequestTypes : List (List UInt8) :=
  [ptyReqChunkType, windowChangeReqChunkType, envReqChunkType]

theorem readRequestTypes_ne : ptyReqChunkType ≠ windowChangeReqChunkType ∧
    ptyReqChunkType ≠ envReqChunkType ∧ windowChangeReqChunkType ≠ envReqChunkType := by
  decide

/-- A request message is the one `ssh.DecodeChunk` builds for a chunk type. -/
def SshRequest.OfType : SshRequest → List UInt8 → Prop
  | .pty .., type => type = ptyReqChunkType
  | .windowChange .., type => type = windowChangeReqChunkType
  | .env .., type => type = envReqChunkType
  | .other, type => type ∉ readRequestTypes

/-- A chunk of an SSH recording as the scanner decodes it: of the SSH protocol,
and holding the message of its type. -/
def Decoded : Chunk SshRequest → Prop
  | .request b r => b.protocol = sshProtocol ∧ r.OfType b.type
  | c => c.base.protocol = sshProtocol ∧ c.base.type ∉ readRequestTypes

/-- What the request walk makes of a decoded chunk. -/
def readRequest (opts : Options) (header : Header) : Chunk SshRequest → Header
  | .request _ (.pty termEnvVar width height) => header.ptyRequest opts termEnvVar width height
  | .request _ (.windowChange width height) => header.windowChange width height
  | .request _ (.env variableName variableValue) => header.envRequest variableName variableValue
  | _ => header

/-- A chunk of a type the walk does not read leaves the header as it is. -/
theorem requestStep_of_not_mem (opts : Options) (header : Header) {c : Chunk SshRequest}
    (hp : c.base.protocol = sshProtocol) (ht : c.base.type ∉ readRequestTypes) :
    requestStep opts header c = .ok header := by
  simp only [readRequestTypes, List.mem_cons, List.not_mem_nil, or_false, not_or] at ht
  obtain ⟨hpty, hwc, henv⟩ := ht
  unfold requestStep
  rw [if_pos hp, if_neg hpty, if_neg hwc, if_neg henv]

theorem requestStep_of_decoded (opts : Options) (header : Header) {c : Chunk SshRequest}
    (hc : Decoded c) : requestStep opts header c = .ok (readRequest opts header c) := by
  obtain ⟨hpw, hpe, hwe⟩ := readRequestTypes_ne
  cases c with
  | request b r =>
    obtain ⟨hp, ht⟩ := hc
    cases r with
    | pty termEnvVar width height =>
      simp only [SshRequest.OfType] at ht
      simp only [requestStep, Chunk.base, hp, ht, if_true, readRequest]
    | windowChange width height =>
      simp only [SshRequest.OfType] at ht
      simp only [requestStep, Chunk.base, hp, ht, Ne.symm hpw, if_true, if_false, readRequest]
    | env variableName variableValue =>
      simp only [SshRequest.OfType] at ht
      simp only [requestStep, Chunk.base, hp, ht, Ne.symm hpe, Ne.symm hwe, if_true, if_false,
        readRequest]
    | other => exact requestStep_of_not_mem opts header hp ht
  | header b _ _ _ => exact requestStep_of_not_mem opts header hc.1 hc.2
  | done b => exact requestStep_of_not_mem opts header hc.1 hc.2
  | data b _ => exact requestStep_of_not_mem opts header hc.1 hc.2

/-! ## The size of the header -/

/-- The dimensions of a terminal's size. -/
inductive Dim where
  | width
  | height

/-- A header's size in a dimension. -/
def Asciicast.Header.size (header : Header) : Dim → Nat
  | .width => header.width
  | .height => header.height

/-- The configured minimum of a dimension. -/
def Options.minSize (opts : Options) : Dim → Nat
  | .width => opts.withMinWidth
  | .height => opts.withMinHeight

/-- Of a request's width and height, the one of a dimension. -/
def Dim.pick : Dim → Nat → Nat → Nat
  | .width, w, _ => w
  | .height, _, h => h

/-- What a chunk does to a dimension of the header's size: a Pty request larger
than the minimum sets it, a WindowChange request raises it. -/
def Chunk.resize (opts : Options) (dim : Dim) : Chunk SshRequest → Resize Nat
  | .request _ (.pty _ width height) =>
    if dim.pick width height > opts.minSize dim then .set (dim.pick width height) else .keep
  | .request _ (.windowChange width height) => .raise (dim.pick width height)
  | _ => .keep

theorem size_readRequest (opts : Options) (header : Header) (c : Chunk SshRequest) (dim : Dim) :
    (readRequest opts header c).size dim = (c.resize opts dim).apply (header.size dim) := by
  cases c with
  | request b r =>
    cases r with
    | pty termEnvVar width height =>
      cases dim
      · by_cases hgt : width > opts.withMinWidth <;>
          simp only [readRequest, Chunk.resize, Header.ptyRequest, Header.size, Dim.pick,
            Options.minSize, hgt, if_true, if_false, Resize.apply]
      · by_cases hgt : height > opts.withMinHeight <;>
          simp only [readRequest, Chunk.resize, Header.ptyRequest, Header.size, Dim.pick,
            Options.minSize, hgt, if_true, if_false, Resize.apply]
    | windowChange width height =>
      cases dim <;> simp only [readRequest, Chunk.resize, Header.windowChange, Header.size,
        Dim.pick, Resize.apply] <;> split_ifs <;> omega
    | env variableName variableValue =>
      simp only [readRequest, Chunk.resize, Header.envRequest, Resize.apply]
      split_ifs <;> cases dim <;> rfl
    | other => rfl
  | header _ _ _ _ | done _ | data _ _ => rfl

/-- The size after the request walk, in either dimension: that of the last Pty
request larger than the minimum, or the initial one if there is none, raised by
every WindowChange request after it. -/
theorem size_foldl_readRequest (opts : Options) (dim : Dim) (cs : List (Chunk SshRequest))
    (header : Header) :
    (cs.foldl (readRequest opts) header).size dim =
      Resize.fromLast (header.size dim) (cs.reverse.map (Chunk.resize opts dim)) := by
  rw [List.map_reverse, ← Resize.foldl_apply]
  induction cs generalizing header with
  | nil => rfl
  | cons c cs ih =>
    rw [List.foldl_cons, ih, size_readRequest]
    rfl

/-! ## The header written -/

/-- What one message chunk can do to the writer: nothing, write the header, or
write an event. -/
theorem messageStep_cases {w w' : Writer} {c : Chunk SshRequest} (h : messageStep w c = .ok w') :
    w' = w ∨ (∃ t, w' = w.writeHeader t) ∨ ∃ e, w' = { w with lines := w.lines ++ [.event e] } := by
  unfold messageStep at h
  split at h
  · split at h
    · split at h
      · split at h
        · cases h
        · cases h
          exact .inr (.inl ⟨_, rfl⟩)
      · cases h
    · split at h
      · split at h
        · cases h
        · split at h
          · cases h
            exact .inr (.inr ⟨_, rfl⟩)
          · cases h
      · cases h
        exact .inl rfl
  · cases h

/-- The writer's header has a size in a dimension, and so has every header it wrote. -/
def Writer.SizeIs (dim : Dim) (n : Nat) (w : Writer) : Prop :=
  w.header.size dim = n ∧ ∀ header, .header header ∈ w.lines → header.size dim = n

theorem messageStep_sizeIs {dim : Dim} {n : Nat} {w w' : Writer} {c : Chunk SshRequest}
    (hw : w.SizeIs dim n) (h : messageStep w c = .ok w') : w'.SizeIs dim n := by
  obtain ⟨hsize, hlines⟩ := hw
  -- the timestamp is all that writing the header changes of it
  have hstamp : ∀ t : Timestamp, ({ w.header with timestamp := t } : Header).size dim = n := by
    intro t
    cases dim <;> exact hsize
  rcases messageStep_cases h with rfl | ⟨t, rfl⟩ | ⟨e, rfl⟩
  · exact ⟨hsize, hlines⟩
  · refine ⟨hstamp t, fun header hmem => ?_⟩
    rcases List.mem_append.mp hmem with hmem | hmem
    · exact hlines header hmem
    · rw [List.mem_singleton, Line.header.injEq] at hmem
      rw [hmem]
      exact hstamp t
  · refine ⟨hsize, fun header hmem => ?_⟩
    rcases List.mem_append.mp hmem with hmem | hmem
    · exact hlines header hmem
    · simp at hmem

/-- Every header the message walk writes has the size of the header it starts with. -/
theorem size_of_mem_chunkWalk_messageStep {cs : Codecs SshRequest} {fuel : Nat}
    {s : ChunkScanner} {header : Header} {w : Writer}
    (h : chunkWalk cs messageStep fuel s ⟨header, false, []⟩ = some (.ok w)) (dim : Dim) :
    ∀ written, .header written ∈ w.lines → written.size dim = header.size dim :=
  (chunkWalk_inv messageStep (Writer.SizeIs dim (header.size dim))
    (fun _ _ _ hs hc => messageStep_sizeIs hs hc) fuel s _ w ⟨rfl, fun _ hmem => by cases hmem⟩ h).2

theorem sshChannelToAsciicast_eq_ok {cs : Codecs SshRequest}
    {requestScanner messagesScanner : ChunkScanner} {options : List ConvertOption}
    {lines : List Line}
    (h : sshChannelToAsciicast cs requestScanner messagesScanner options = some (.ok lines)) :
    ∃ header w, chunkWalk cs (requestStep (getOpts options)) (requestScanner.rest.length + 1)
        requestScanner (initialHeader (getOpts options)) = some (.ok header) ∧
      chunkWalk cs messageStep (messagesScanner.rest.length + 1) messagesScanner
        ⟨header, false, []⟩ = some (.ok w) ∧ w.lines = lines := by
  unfold sshChannelToAsciicast at h
  split at h
  · cases h
  · cases h
  · rename_i header hreq
    split at h
    · cases h
    · cases h
    · rename_i w hmsg
      cases h
      exact ⟨header, w, hreq, hmsg, rfl⟩

/-- Every header `sshChannelToAsciicast` writes, where the request scanner
returns decoded chunks, has in either dimension the size of the last Pty request
larger than the minimum, or the initial size if there is none, raised by every
WindowChange request after it. -/
theorem size_of_sshChannelToAsciicast (cs : Codecs SshRequest) (options : List ConvertOption)
    {requestScanner messagesScanner : ChunkScanner} {requests : List (Chunk SshRequest)}
    (hscan : requestScanner.chunks cs = some (.ok requests)) (hreq : ∀ c ∈ requests, Decoded c)
    {lines : List Line}
    (hrun : sshChannelToAsciicast cs requestScanner messagesScanner options = some (.ok lines))
    {header : Header} (hh : .header header ∈ lines) (dim : Dim) :
    header.size dim = Resize.fromLast ((initialHeader (getOpts options)).size dim)
      (requests.reverse.map (Chunk.resize (getOpts options) dim)) := by
  obtain ⟨walked, w, hwalk, hmsg, rfl⟩ := sshChannelToAsciicast_eq_ok hrun
  obtain ⟨rest, hrest, hfold⟩ := chunkWalk_eq_foldl (requestStep (getOpts options))
    (readRequest (getOpts options)) _ requestScanner [] requests (initialHeader (getOpts options))
    hscan fun a c hc => requestStep_of_decoded _ a (hreq c hc)
  rw [List.nil_append] at hrest
  subst hrest
  rw [hfold] at hwalk
  cases hwalk
  rw [size_of_mem_chunkWalk_messageStep hmsg dim header hh, size_foldl_readRequest]

/-- Every header `sshChannelToAsciicast` writes has the size of the last Pty
request larger than the minimum, raised by every later WindowChange request;
where no Pty request exceeds the minimum, the size does not depend on the order
of the requests. -/
theorem sshChannelToAsciicast_header_size (cs : Codecs SshRequest) (options : List ConvertOption)
    (requestScanner messagesScanner : ChunkScanner) (requests : List (Chunk SshRequest))
    (hscan : requestScanner.chunks cs = some (.ok requests)) (hreq : ∀ c ∈ requests, Decoded c)
    (lines : List Line)
    (hrun : sshChannelToAsciicast cs requestScanner messagesScanner options = some (.ok lines))
    (header : Header) (hh : .header header ∈ lines) (dim : Dim) :
    header.size dim = Resize.fromLast ((initialHeader (getOpts options)).size dim)
        (requests.reverse.map (Chunk.resize (getOpts options) dim)) ∧
      ∀ (requestScanner' : ChunkScanner) (requests' : List (Chunk SshRequest))
        (lines' : List Line) (header' : Header),
        requestScanner'.chunks cs = some (.ok requests') → requests'.Perm requests →
        (∀ c ∈ requests, ∀ v, c.resize (getOpts options) dim ≠ .set v) →
        sshChannelToAsciicast cs requestScanner' messagesScanner options = some (.ok lines') →
        .header header' ∈ lines' → header'.size dim = header.size dim := by
  have hsize := size_of_sshChannelToAsciicast cs options hscan hreq hrun hh dim
  refine ⟨hsize, fun requestScanner' requests' lines' header' hscan' hp hnoset hrun' hh' => ?_⟩
  have hreq' : ∀ c ∈ requests', Decoded c := fun c hc => hreq c (hp.mem_iff.mp hc)
  -- both sizes read the same steps, reversed and permuted
  have hperm : (requests'.reverse.map (Chunk.resize (getOpts options) dim)).Perm
      (requests.reverse.map (Chunk.resize (getOpts options) dim)) :=
    ((List.reverse_perm _).trans (hp.trans (List.reverse_perm _).symm)).map _
  have hnoset' : ∀ r ∈ requests'.reverse.map (Chunk.resize (getOpts options) dim), ∀ v,
      r ≠ .set v := by
    intro r hr v
    obtain ⟨c, hc, rfl⟩ := List.mem_map.mp hr
    exact hnoset c (hp.mem_iff.mp (List.mem_reverse.mp hc)) v
  rw [size_of_sshChannelToAsciicast cs options hscan' hreq' hrun' hh' dim, hsize]
  exact Resize.fromLast_perm _ hperm hnoset'

/-! ## Recordings written and converted -/

/-- A scanner over the recording the BSR writer makes of chunks, with no sum
to check. -/
def writeScanner {R : Type} (cs : Codecs R) (chunks : List (Chunk R)) :
    Except String ChunkScanner :=
  (ChunkEncoder.mk .none .none).writeFile cs (fun _ => newCrced) chunks >>= newChunkScanner []

/-- Request messages as the bytes of their sizes, a constant CRC and the bytes
as their own sum: codecs enough to convert a recording. -/
def sizeCodecs : Codecs SshRequest where
  marshalRequest
    | .pty _ width height => .ok [UInt8.ofNat width, UInt8.ofNat height]
    | .windowChange width height => .ok [UInt8.ofNat width, UInt8.ofNat height]
    | _ => .ok [0]
  unmarshalRequest type data :=
    match data with
    | [width, height] =>
      if type = ptyReqChunkType then .ok (.pty "" width.toNat height.toNat)
      else if type = windowChangeReqChunkType then .ok (.windowChange width.toNat height.toNat)
      else .ok .other
    | _ => .ok .other
  gzip := id
  gunzip := .ok
  crc32 _ := 0
  sha256Sum := id

/-- The Unix epoch. -/
def epochTime : Timestamp := ⟨0, 0, Nat.zero_le _⟩

set_option maxRecDepth 20000 in
theorem sshChannelToAsciicast_pty_then_windowChange :
    ∃ s m : ChunkScanner,
      writeScanner sizeCodecs
          [.header ⟨sshProtocol, .inbound, epochTime, chunkHeader⟩ .none .none [],
            .request ⟨sshProtocol, .inbound, epochTime, ptyReqChunkType⟩ (.pty "" 100 30),
            .request ⟨sshProtocol, .inbound, epochTime, windowChangeReqChunkType⟩
              (.windowChange 200 50),
            .done ⟨sshProtocol, .inbound, epochTime, chunkEnd⟩] = .ok s ∧
        writeScanner sizeCodecs
          [.header ⟨sshProtocol, .outbound, epochTime, chunkHeader⟩ .none .none [],
            .done ⟨sshProtocol, .outbound, epochTime, chunkEnd⟩] = .ok m ∧
        (⟨version, 200, 50, epochTime, ⟨defaultShell, defaultTerm⟩⟩ : Header).size .width =
          Resize.fromLast ((initialHeader (getOpts [])).size .width)
            ([Chunk.header ⟨sshProtocol, .inbound, epochTime, chunkHeader⟩ .none .none [],
              .request ⟨sshProtocol, .inbound, epochTime, ptyReqChunkType⟩ (.pty "" 100 30),
              .request ⟨sshProtocol, .inbound, epochTime, windowChangeReqChunkType⟩
                (.windowChange 200 50),
              .done ⟨sshProtocol, .inbound, epochTime, chunkEnd⟩].reverse.map
                (Chunk.resize (getOpts []) .width)) := by
  -- the recordings, their scanners and the conversion, run on the bytes written
  obtain ⟨s, hs, m, hm, hscan, hrun⟩ : ∃ s, writeScanner sizeCodecs
        [.header ⟨sshProtocol, .inbound, epochTime, chunkHeader⟩ .none .none [],
          .request ⟨sshProtocol, .inbound, epochTime, ptyReqChunkType⟩ (.pty "" 100 30),
          .request ⟨sshProtocol, .inbound, epochTime, windowChangeReqChunkType⟩
            (.windowChange 200 50),
          .done ⟨sshProtocol, .inbound, epochTime, chunkEnd⟩] = .ok s ∧
      ∃ m, writeScanner sizeCodecs
        [.header ⟨sshProtocol, .outbound, epochTime, chunkHeader⟩ .none .none [],
          .done ⟨sshProtocol, .outbound, epochTime, chunkEnd⟩] = .ok m ∧
      s.chunks sizeCodecs = some (.ok
        [.header ⟨sshProtocol, .inbound, epochTime, chunkHeader⟩ .none .none [],
          .request ⟨sshProtocol, .inbound, epochTime, ptyReqChunkType⟩ (.pty "" 100 30),
          .request ⟨sshProtocol, .inbound, epochTime, windowChangeReqChunkType⟩
            (.windowChange 200 50),
          .done ⟨sshProtocol, .inbound, epochTime, chunkEnd⟩]) ∧
      sshChannelToAsciicast sizeCodecs s m [] =
        some (.ok [.header ⟨version, 200, 50, epochTime, ⟨defaultShell, defaultTerm⟩⟩]) :=
    ⟨_, rfl, _, rfl, rfl, rfl⟩
  have hdecoded : ∀ c ∈ [Chunk.header ⟨sshProtocol, .inbound, epochTime, chunkHeader⟩ .none .none [],
      .request ⟨sshProtocol, .inbound, epochTime, ptyReqChunkType⟩ (.pty "" 100 30),
      .request ⟨sshProtocol, .inbound, epochTime, windowChangeReqChunkType⟩ (.windowChange 200 50),
      .done ⟨sshProtocol, .inbound, epochTime, chunkEnd⟩], Decoded c := by
    simp only [List.mem_cons, List.not_mem_nil, or_false]
    rintro c (rfl | rfl | rfl | rfl)
    · exact ⟨rfl, by decide⟩
    · exact ⟨rfl, rfl⟩
    · exact ⟨rfl, rfl⟩
    · exact ⟨rfl, by decide⟩
  exact ⟨s, m, hs, hm, (sshChannelToAsciicast_header_size sizeCodecs [] s m _ hscan hdecoded _ hrun _
    List.mem_cons_self .width).1⟩

set_option maxRecDepth 20000 in
/-- A Pty request after a larger WindowChange request lowers the size: the
header differs between the two orders of the same requests, and in the first is
smaller than the WindowChange request's size, which is larger than the default. -/
theorem sshChannelToAsciicast_pty_after_windowChange :
    ∃ s₁ s₂ m : ChunkScanner,
      writeScanner sizeCodecs
          [.header ⟨sshProtocol, .inbound, epochTime, chunkHeader⟩ .none .none [],
            .request ⟨sshProtocol, .inbound, epochTime, windowChangeReqChunkType⟩
              (.windowChange 200 50),
            .request ⟨sshProtocol, .inbound, epochTime, ptyReqChunkType⟩ (.pty "" 100 30),
            .done ⟨sshProtocol, .inbound, epochTime, chunkEnd⟩] = .ok s₁ ∧
        writeScanner sizeCodecs
          [.header ⟨sshProtocol, .inbound, epochTime, chunkHeader⟩ .none .none [],
            .request ⟨sshProtocol, .inbound, epochTime, ptyReqChunkType⟩ (.pty "" 100 30),
            .request ⟨sshProtocol, .inbound, epochTime, windowChangeReqChunkType⟩
              (.windowChange 200 50),
            .done ⟨sshProtocol, .inbound, epochTime, chunkEnd⟩] = .ok s₂ ∧
        writeScanner sizeCodecs
          [.header ⟨sshProtocol, .outbound, epochTime, chunkHeader⟩ .none .none [],
            .done ⟨sshProtocol, .outbound, epochTime, chunkEnd⟩] = .ok m ∧
        s₁.chunks sizeCodecs = some (.ok
          [.header ⟨sshProtocol, .inbound, epochTime, chunkHeader⟩ .none .none [],
            .request ⟨sshProtocol, .inbound, epochTime, windowChangeReqChunkType⟩
              (.windowChange 200 50),
            .request ⟨sshProtocol, .inbound, epochTime, ptyReqChunkType⟩ (.pty "" 100 30),
            .done ⟨sshProtocol, .inbound, epochTime, chunkEnd⟩]) ∧
        sshChannelToAsciicast sizeCodecs s₁ m [] =
          some (.ok [.header ⟨version, 100, 30, epochTime, ⟨defaultShell, defaultTerm⟩⟩]) ∧
        sshChannelToAsciicast sizeCodecs s₂ m [] =
          some (.ok [.header ⟨version, 200, 50, epochTime, ⟨defaultShell, defaultTerm⟩⟩]) :=
  ⟨_, _, _, rfl, rfl, rfl, rfl, rfl, rfl⟩

end Bsr

end Boundary
