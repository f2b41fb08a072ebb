import Boundary.Go.Maps
import Boundary.Go.Control

/-!
# Checksum lines of a recording's files

A checksummed BSR file hashes every byte written to it; `Close` and
`WriteAndClose` then write one line `<hex sum>  <name>\n` for it to a shared
checksum writer, in the format `sha256sum` reads. `LoadSha256Sums` reads the
lines back with a `bufio.Scanner`, cuts each at the first two spaces, checks the
length of the sum and refuses a name seen before.

Go strings are bytes here. The hash is a parameter, a function to 32-byte
digests. The scanner keeps at most `bufio.MaxScanTokenSize` bytes of a line: a
longer line stops the scan, and `LoadSha256Sums` never asks the scanner for its
error, so it returns the lines before it as if the input had ended there. The
lines of files whose names hold no line break and fit that buffer are read back
exactly (`loadSha256Sums_closeAll`); a longer name is dropped without an error.
-/

namespace Boundary.Bsr

open GoControl

/-- `sha256sumSep`: two spaces. -/
def sha256sumSep : List UInt8 := [0x20, 0x20]

/-- `sha256sumBinarySep`: a space and an asterisk. -/
def sha256sumBinarySep : List UInt8 := [0x20, 0x2a]

/-- `sha256HexLength`. -/
def sha256HexLength : Nat := 64

/-- The `hextable` of `encoding/hex`, as ASCII bytes. -/
def hextable : List UInt8 :=
  [0x30, 0x31, 0x32, 0x33, 0x34, 0x35, 0x36, 0x37, 0x38, 0x39, 0x61, 0x62, 0x63, 0x64, 0x65, 0x66]

/-- `hex.EncodeToString`, as bytes: two digits for each byte, high nibble first. -/
def hexEncode (h : List UInt8) : List UInt8 :=
  h.flatMap fun b => [hextable.getD (b.toNat / 16) 0, hextable.getD (b.toNat % 16) 0]

/-- `fmt.Sprintf(checksumLine, sum, name)`: `"%s  %s\n"`. -/
def checksumLine (sum name : List UInt8) : List UInt8 :=
  sum ++ sha256sumSep ++ name ++ [0x0a]

/-! ## Closing a checksummed file -/

/-- A checksummed file: the bytes its hash has been given, by `Write` and
`WriteString`, whatever the underlying file answered. -/
structure File where
  written : List UInt8

/-- What the file system answers when a checksummed file is closed: `Stat`,
with the file's name, and the error of the `Sha256SumWriter` closing the
underlying file, if any. -/
structure CloseEnv where
  stat : Except String (List UInt8)
  closeErr : Option String

/-- The common body of `Close` and `WriteAndClose`: `Stat` first, whose error
ends the call; then the checksum line of the hashed bytes, written whether or
not closing the underlying file failed. The result is the checksum writer's
content and the joined errors. -/
def closeWith (op : String) (sha256 : List UInt8 → List UInt8) (hashed : List UInt8)
    (env : CloseEnv) (cs : List UInt8) : List UInt8 × List String :=
  match env.stat with
  | .error e => (cs, [op ++ ": " ++ e])
  | .ok name =>
    (cs ++ checksumLine (hexEncode (sha256 hashed)) name,
      (env.closeErr.map fun e => op ++ ": " ++ e).toList)

/-- `File.Close`. -/
def File.close (sha256 : List UInt8 → List UInt8) (f : File) (env : CloseEnv) (cs : List UInt8) :
    List UInt8 × List String :=
  closeWith "checksum.(File).Close" sha256 f.written env cs

/-- `File.WriteAndClose(b)`: the last bytes go to the hash before the sum. -/
def File.writeAndClose (sha256 : List UInt8 → List UInt8) (f : File) (b : List UInt8)
    (env : CloseEnv) (cs : List UInt8) : List UInt8 × List String :=
  closeWith "checksum.(File).WriteAndClose" sha256 (f.written ++ b) env cs

/-- How a file is closed. -/
inductive Closing where
  | close
  | writeAndClose (b : List UInt8)

/-- A file closed into the checksum writer: the file, how it is closed, and
what the file system answers. -/
structure Closed where
  file : File
  closing : Closing
  env : CloseEnv

/-- The bytes whose sum a closing records. -/
def Closed.hashed (c : Closed) : List UInt8 :=
  match c.closing with
  | .close => c.file.written
  | .writeAndClose b => c.file.written ++ b

/-- The name `Stat` reports for a closed file. -/
def Closed.name (c : Closed) : List UInt8 :=
  match c.env.stat with
  | .ok name => name
  | .error _ => []

/-- Closing one file into the checksum writer. -/
def Closed.run (sha256 : List UInt8 → List UInt8) (c : Closed) (cs : List UInt8) : List UInt8 :=
  match c.closing with
  | .close => (c.file.close sha256 c.env cs).1
  | .writeAndClose b => (c.file.writeAndClose sha256 b c.env cs).1

/-- The checksum writer's content after closing files into it in order. -/
def closeAll (sha256 : List UInt8 → List UInt8) (files : List Closed) : List UInt8 :=
  files.foldl (fun cs c => c.run sha256 cs) []

/-! ## Reading the lines back -/

/-- `bufio.MaxScanTokenSize`. -/
def maxScanTokenSize : Nat := 64 * 1024

/-- `dropCR`: a line without its final carriage return. -/
def dropCR (line : List UInt8) : List UInt8 :=
  if line.getLast? = some 0x0d then line.dropLast else line

/-- The tokens of a `bufio.Scanner` splitting with `ScanLines`: the lines, each
without its newline and final carriage return, the last one also without a
newline. A line of `MaxScanTokenSize` bytes or more fills the buffer before its
end and stops the scan with `ErrTooLong`. -/
def scanLines (data : List UInt8) : List (List UInt8) :=
  if h : data = [] then []
  else
    let line := data.takeWhile (· != 0x0a)
    if maxScanTokenSize ≤ line.length then []
    else dropCR line :: scanLines (data.drop (line.length + 1))
termination_by data.length
decreasing_by
  have := List.length_pos_of_ne_nil h
  simp only [List.length_drop]
  omega

/-- `strings.Cut(s, sep)`: the bytes before the first `sep` and those after it. -/
def cut (s sep : List UInt8) : Option (List UInt8 × List UInt8) :=
  if sep.isPrefixOf s then some ([], s.drop sep.length)
  else
    match s with
    | [] => none
    | b :: rest => (cut rest sep).map fun p => (b :: p.1, p.2)

/-- `Sha256Sums`: a file's name to its hex sum. -/
abbrev Sha256Sums := AList fun _ : List UInt8 => List UInt8

/-- One line of `LoadSha256Sums`. -/
def loadStep (s : Sha256Sums) (line : List UInt8) : Except String Sha256Sums :=
  match (cut line sha256sumSep).or (cut line sha256sumBinarySep) with
  | none => .error "checksum.LoadSha256Sums: improperly formated line"
  | some (sum, file) =>
    if sum.length ≠ sha256HexLength then .error "checksum.LoadSha256Sums: improperly formated line"
    else if file ∈ s then .error "checksum.LoadSha256Sums: duplicate file"
    else .ok (s.insert file sum)

/-- `LoadSha256Sums`. -/
def loadSha256Sums (r : List UInt8) : Except String Sha256Sums :=
  (scanLines r).foldlM loadStep ∅

/-! ## Hex sums -/

theorem hextable_bytes : ∀ b ∈ hextable, b ≠ 0x20 ∧ b ≠ 0x0a ∧ b ≠ 0x0d := by
  intro b hb
  simp only [hextable, List.mem_cons, List.not_mem_nil, or_false] at hb
  rcases hb with rfl | rfl | rfl | rfl | rfl | rfl | rfl | rfl | rfl | rfl | rfl | rfl | rfl | rfl |
    rfl | rfl <;> decide

theorem getD_hextable_mem {n : Nat} (hn : n < 16) : hextable.getD n 0 ∈ hextable := by
  have hlen : n < hextable.length := hn
  rw [List.getD_eq_getElem?_getD, List.getElem?_eq_getElem hlen, Option.getD_some]
  exact List.getElem_mem hlen

/-- A hex sum holds only hex digits. -/
theorem mem_hexEncode {h : List UInt8} {b : UInt8} (hb : b ∈ hexEncode h) : b ∈ hextable := by
  obtain ⟨x, -, hx⟩ := List.mem_flatMap.mp hb
  have hlt := x.toNat_lt
  rcases List.mem_pair.mp hx with rfl | rfl
  · exact getD_hextable_mem (by omega)
  · exact getD_hextable_mem (by omega)

theorem length_hexEncode (h : List UInt8) : (hexEncode h).length = 2 * h.length := by
  induction h with
  | nil => rfl
  | cons b h ih =>
    rw [hexEncode, List.flatMap_cons, List.length_append, ← hexEncode, ih, List.length_cons]
    simp only [List.length_cons, List.length_nil]
    omega

/-! ## The scanner reads back the lines written -/

theorem dropCR_of_not_mem {l : List UInt8} (h : 0x0d ∉ l) : dropCR l = l := by
  unfold dropCR
  rw [if_neg]
  exact fun hlast => h (List.mem_of_getLast? hlast)

theorem notNewline_of_not_mem {l : List UInt8} (hl : 0x0a ∉ l) : ∀ a ∈ l, (a != 0x0a) = true := by
  intro a ha
  rw [bne_iff_ne]
  rintro rfl
  exact hl ha

/-- A line without a newline byte that fits the scanner's buffer is one token. -/
theorem scanLines_line {l : List UInt8} (hl : 0x0a ∉ l) (hlen : l.length < maxScanTokenSize)
    (rest : List UInt8) : scanLines (l ++ 0x0a :: rest) = dropCR l :: scanLines rest := by
  have htake : (l ++ 0x0a :: rest).takeWhile (· != 0x0a) = l := by
    rw [List.takeWhile_append_of_pos (notNewline_of_not_mem hl),
      List.takeWhile_cons_of_neg (by simp), List.append_nil]
  rw [scanLines, dif_neg (by simp)]
  dsimp only
  rw [htake, if_neg (by omega)]
  simp

/-- A line too long for the scanner's buffer ends the scan. -/
theorem scanLines_long {l : List UInt8} (hl : 0x0a ∉ l) (hlen : maxScanTokenSize ≤ l.length)
    (rest : List UInt8) : scanLines (l ++ 0x0a :: rest) = [] := by
  have htake : (l ++ 0x0a :: rest).takeWhile (· != 0x0a) = l := by
    rw [List.takeWhile_append_of_pos (notNewline_of_not_mem hl),
      List.takeWhile_cons_of_neg (by simp), List.append_nil]
  rw [scanLines, dif_neg (by simp)]
  dsimp only
  rw [htake, if_pos hlen]

/-- Lines without line breaks that fit the buffer, each ended by a newline, are
scanned back as they are. -/
theorem scanLines_flatMap :
    ∀ lines : List (List UInt8),
      (∀ l ∈ lines, 0x0a ∉ l ∧ 0x0d ∉ l ∧ l.length < maxScanTokenSize) →
      scanLines (lines.flatMap fun l => l ++ [0x0a]) = lines
  | [], _ => by
    rw [List.flatMap_nil, scanLines, dif_pos rfl]
  | l :: lines, h => by
    obtain ⟨hnl, hcr, hlen⟩ := h l List.mem_cons_self
    rw [List.flatMap_cons, List.append_assoc, List.singleton_append, scanLines_line hnl hlen,
      dropCR_of_not_mem hcr, scanLines_flatMap lines fun l' hl' => h l' (List.mem_cons_of_mem l hl')]

/-! ## `LoadSha256Sums` reads back the lines written -/

/-- The first two spaces of a line follow its sum when the sum holds no space. -/
theorem cut_sum (rest : List UInt8) :
    ∀ sum : List UInt8, 0x20 ∉ sum → cut (sum ++ sha256sumSep ++ rest) sha256sumSep = some (sum, rest)
  | [], _ => by
    rw [List.nil_append]
    unfold cut
    rw [if_pos (by simp [sha256sumSep])]
    rfl
  | b :: sum, hsum => by
    have hb : b ≠ 0x20 := fun h => hsum (h ▸ List.mem_cons_self)
    have hsepPre : sha256sumSep.isPrefixOf (b :: (sum ++ sha256sumSep ++ rest)) = false := by
      simp only [sha256sumSep, List.isPrefixOf, Bool.and_eq_false_iff]
      exact .inl (beq_false_of_ne (Ne.symm hb))
    rw [List.cons_append, List.cons_append]
    unfold cut
    rw [if_neg (by rw [hsepPre]; decide)]
    dsimp only
    rw [cut_sum rest sum fun h => hsum (List.mem_cons_of_mem b h)]
    rfl

/-- `LoadSha256Sums` enters a checksum line's name with its sum. -/
theorem loadStep_line {s : Sha256Sums} {sum name : List UInt8} (hsum : 0x20 ∉ sum)
    (hlen : sum.length = sha256HexLength) (hname : name ∉ s) :
    loadStep s (sum ++ sha256sumSep ++ name) = .ok (s.insert name sum) := by
  unfold loadStep
  rw [cut_sum name sum hsum, Option.some_or]
  dsimp only
  rw [if_neg (by omega), if_neg hname]

/-- Over lines of distinct names, `LoadSha256Sums` enters every name with its sum. -/
theorem foldlM_loadStep (entries : List (List UInt8 × List UInt8))
    (hsum : ∀ e ∈ entries, 0x20 ∉ e.2 ∧ e.2.length = sha256HexLength)
    (hnodup : (entries.map Prod.fst).Nodup) :
    ∀ s : Sha256Sums, (∀ e ∈ entries, e.1 ∉ s) →
      (entries.map fun e => e.2 ++ sha256sumSep ++ e.1).foldlM loadStep s =
        .ok (entries.foldl (fun s e => s.insert e.1 e.2) s) := by
  induction entries with
  | nil => exact fun s _ => rfl
  | cons e entries ih =>
    intro s hfresh
    rw [List.map_cons, List.nodup_cons] at hnodup
    obtain ⟨he, hrest⟩ := List.forall_mem_cons.mp hsum
    rw [List.map_cons, List.foldlM_cons, loadStep_line he.1 he.2 (hfresh e List.mem_cons_self),
      ok_bind, List.foldl_cons]
    -- the names still to come are new to the map with this one entered
    refine ih hrest hnodup.2 _ fun e' he' hmem => ?_
    rcases (AList.mem_insert _).mp hmem with heq | hmem
    · exact hnodup.1 (heq ▸ List.mem_map_of_mem he')
    · exact hfresh e' (List.mem_cons_of_mem e he') hmem

/-! ## Files closed into one checksum writer -/

/-- A file whose `Stat` succeeds appends its checksum line to the writer. -/
theorem Closed.run_eq (sha256 : List UInt8 → List UInt8) {c : Closed}
    (hstat : c.env.stat = .ok c.name) (cs : List UInt8) :
    c.run sha256 cs = cs ++ checksumLine (hexEncode (sha256 c.hashed)) c.name := by
  unfold Closed.run Closed.hashed
  cases c.closing <;>
    simp only [File.close, File.writeAndClose, closeWith, hstat]

theorem foldl_run (sha256 : List UInt8 → List UInt8) :
    ∀ (files : List Closed), (∀ c ∈ files, c.env.stat = .ok c.name) → ∀ cs : List UInt8,
      files.foldl (fun cs c => c.run sha256 cs) cs =
        cs ++ files.flatMap fun c => checksumLine (hexEncode (sha256 c.hashed)) c.name
  | [], _, cs => by simp
  | c :: files, hstat, cs => by
    rw [List.foldl_cons, Closed.run_eq sha256 (hstat c List.mem_cons_self),
      foldl_run sha256 files (fun c' hc' => hstat c' (List.mem_cons_of_mem c hc')),
      List.flatMap_cons, List.append_assoc]

/-- The longest name whose checksum line, with a 64-digit sum and two spaces,
fits the scanner's buffer. -/
def maxNameLength : Nat := maxScanTokenSize - 1 - sha256HexLength - sha256sumSep.length

/-- A line break byte is in a checksum line, before its newline, only if it is
in the name: the sum holds hex digits, the separator spaces. -/
theorem not_mem_line {b : UInt8} (hb : b = 0x0a ∨ b = 0x0d) (digest name : List UInt8)
    (hname : b ∉ name) : b ∉ hexEncode digest ++ sha256sumSep ++ name := by
  have hsep : b ∉ sha256sumSep := by
    rcases hb with rfl | rfl <;> decide
  have hhex : b ∉ hexEncode digest := by
    intro h
    have hdigit := hextable_bytes b (mem_hexEncode h)
    rcases hb with rfl | rfl
    · exact hdigit.2.1 rfl
    · exact hdigit.2.2 rfl
  simp only [List.mem_append, not_or]
  exact ⟨⟨hhex, hsep⟩, hname⟩

/-- The scanner reads back the lines of files closed into the checksum writer,
when their names hold no line break and fit its buffer. -/
theorem scanLines_closeAll (sha256 : List UInt8 → List UInt8)
    (h32 : ∀ b, (sha256 b).length = 32) (files : List Closed)
    (hstat : ∀ c ∈ files, c.env.stat = .ok c.name)
    (hnames : ∀ c ∈ files, 0x0a ∉ c.name ∧ 0x0d ∉ c.name ∧ c.name.length ≤ maxNameLength) :
    scanLines (closeAll sha256 files) =
      files.map fun c => hexEncode (sha256 c.hashed) ++ sha256sumSep ++ c.name := by
  have hflat : (files.flatMap fun c => checksumLine (hexEncode (sha256 c.hashed)) c.name) =
      (files.map fun c => hexEncode (sha256 c.hashed) ++ sha256sumSep ++ c.name).flatMap
        fun l => l ++ [0x0a] := by
    simp [List.flatMap_map, checksumLine]
  rw [closeAll, foldl_run sha256 files hstat, List.nil_append, hflat, scanLines_flatMap]
  intro l hl
  obtain ⟨c, hc, rfl⟩ := List.mem_map.mp hl
  obtain ⟨hnl, hcr, hlen⟩ := hnames c hc
  refine ⟨not_mem_line (.inl rfl) _ _ hnl, not_mem_line (.inr rfl) _ _ hcr, ?_⟩
  simp only [List.length_append, length_hexEncode, h32]
  unfold maxNameLength at hlen
  simp only [maxScanTokenSize, sha256HexLength, sha256sumSep, List.length_cons,
    List.length_nil] at hlen ⊢
  omega

/-- Files whose `Stat` succeeds, with distinct names that hold no line break
and fit the scanner's buffer, closed into one checksum writer: `LoadSha256Sums`
of its bytes maps exactly their names, each to the hex sum of its bytes. -/
theorem loadSha256Sums_closeAll (sha256 : List UInt8 → List UInt8)
    (h32 : ∀ b, (sha256 b).length = 32) (files : List Closed)
    (hstat : ∀ c ∈ files, c.env.stat = .ok c.name) (hnodup : (files.map Closed.name).Nodup)
    (hnames : ∀ c ∈ files, 0x0a ∉ c.name ∧ 0x0d ∉ c.name ∧ c.name.length ≤ maxNameLength) :
    ∃ m, loadSha256Sums (closeAll sha256 files) = .ok m ∧
      (∀ name, name ∈ m ↔ name ∈ files.map Closed.name) ∧
      ∀ c ∈ files, m.lookup c.name = some (hexEncode (sha256 c.hashed)) := by
  let entries := files.map fun c => (c.name, hexEncode (sha256 c.hashed))
  have hsum : ∀ e ∈ entries, 0x20 ∉ e.2 ∧ e.2.length = sha256HexLength := by
    intro e he
    obtain ⟨c, -, rfl⟩ := List.mem_map.mp he
    exact ⟨fun h => (hextable_bytes _ (mem_hexEncode h)).1 rfl,
      by rw [length_hexEncode, h32]; rfl⟩
  have hnodup' : (entries.map Prod.fst).Nodup := by
    rw [List.map_map]
    exact hnodup
  have hload := foldlM_loadStep entries hsum hnodup' ∅ fun e _ => AList.notMem_empty e.1
  rw [List.map_map] at hload
  refine ⟨_, by rw [loadSha256Sums, scanLines_closeAll sha256 h32 files hstat hnames]; exact hload,
    fun name => ?_, fun c hc => ?_⟩
  · rw [GoMap.mem_foldl_insert Prod.fst Prod.snd]
    simp only [AList.notMem_empty, false_or]
    constructor
    · rintro ⟨e, he, rfl⟩
      obtain ⟨c, hc, rfl⟩ := List.mem_map.mp he
      exact List.mem_map_of_mem hc
    · intro hname
      obtain ⟨c, hc, rfl⟩ := List.mem_map.mp hname
      exact ⟨_, List.mem_map_of_mem hc, rfl⟩
  · -- every entry under this name is this file's, since the names are distinct
    have hval : ∀ e ∈ entries, e.1 = c.name → e.2 = hexEncode (sha256 c.hashed) := by
      intro e he hname
      obtain ⟨c', hc', rfl⟩ := List.mem_map.mp he
      rw [List.inj_on_of_nodup_map hnodup hc' hc hname]
    rw [GoMap.lookup_foldl_insert_of_forall Prod.fst Prod.snd _ _ _ _ hval,
      if_pos ⟨_, List.mem_map_of_mem hc, rfl⟩]

theorem loadSha256Sums_separator_names :
    ∃ m, loadSha256Sums (closeAll (fun _ => List.replicate 32 0)
        [⟨⟨[1]⟩, .close, ⟨.ok [0x61, 0x20, 0x20, 0x62], none⟩⟩,
          ⟨⟨[]⟩, .writeAndClose [2], ⟨.ok [0x20, 0x2a], none⟩⟩]) = .ok m ∧
      m.lookup [0x61, 0x20, 0x20, 0x62] = some (hexEncode (List.replicate 32 0)) ∧
      m.lookup [0x20, 0x2a] = some (hexEncode (List.replicate 32 0)) := by
  obtain ⟨m, hm, -, hlookup⟩ := loadSha256Sums_closeAll (fun _ => List.replicate 32 0)
    (fun _ => List.length_replicate)
    [⟨⟨[1]⟩, .close, ⟨.ok [0x61, 0x20, 0x20, 0x62], none⟩⟩,
      ⟨⟨[]⟩, .writeAndClose [2], ⟨.ok [0x20, 0x2a], none⟩⟩]
    (by
      intro c hc
      simp only [List.mem_cons, List.not_mem_nil, or_false] at hc
      rcases hc with rfl | rfl <;> rfl)
    (by decide) (by decide)
  exact ⟨m, hm, hlookup _ List.mem_cons_self,
    hlookup _ (List.mem_cons_of_mem _ List.mem_cons_self)⟩

/-- A name as long as the scanner's buffer, with no line break: its checksum
line is too long for the scanner, whose error `LoadSha256Sums` never reads,
so the sums come back empty, whatever the hash. -/
theorem loadSha256Sums_drops_long_name : ∃ c : Closed,
    0x0a ∉ c.name ∧ 0x0d ∉ c.name ∧ c.env.stat = .ok c.name ∧
      ∀ sha256 : List UInt8 → List UInt8, loadSha256Sums (closeAll sha256 [c]) = .ok ∅ := by
  have hname : ∀ b ∈ List.replicate maxScanTokenSize (0x61 : UInt8), b = 0x61 :=
    fun b hb => List.eq_of_mem_replicate hb
  refine ⟨⟨⟨[]⟩, .close, ⟨.ok (List.replicate maxScanTokenSize 0x61), none⟩⟩,
    fun h => absurd (hname _ h) (by decide), fun h => absurd (hname _ h) (by decide), rfl,
    fun sha256 => ?_⟩
  have hline : 0x0a ∉ hexEncode (sha256 []) ++ sha256sumSep ++
      List.replicate maxScanTokenSize 0x61 :=
    not_mem_line (.inl rfl) _ _ fun h => absurd (hname _ h) (by decide)
  have hlen : maxScanTokenSize ≤ (hexEncode (sha256 []) ++ sha256sumSep ++
      List.replicate maxScanTokenSize 0x61).length := by
    rw [List.length_append, List.length_replicate]
    omega
  rw [loadSha256Sums, closeAll, List.foldl_cons, List.foldl_nil, Closed.run_eq sha256 rfl,
    List.nil_append]
  exact congrArg (fun lines => lines.foldlM loadStep ∅) (scanLines_long hline hlen [])

end Boundary.Bsr
