import Mathlib

/-!
# Go's `encoding/json` for values of type `any`

`json.Unmarshal` into a `map[string]any` reads a JSON text into nested values:
objects become maps, arrays slices of `any`, and strings, booleans, numbers and
`null` the matching Go values. `json.Marshal` writes such a value back, with the
keys of a map in sorted order and, besides the quote, the backslash and the
control characters, `<`, `>`, `&`, U+2028 and U+2029 escaped.

The decoder reads the text as its characters. It takes one unit of fuel for each
value, member and element it reads, and each of those reads at least one
character, so the length of the text is always enough fuel. A number keeps its
literal text.

The main result is that decoding what `Marshal` writes gives the value back, for
every value without numbers whose objects list their keys in increasing order,
as the entries of a Go map are written.
-/

namespace GoJson

/-- A value of type `any` as `json.Unmarshal` builds it. -/
inductive Value where
  | null
  | bool (b : Bool)
  | number (literal : String)
  | string (s : String)
  | array (elems : List Value)
  | object (members : List (String × Value))
  deriving Repr

/-! ## Writing -/

/-- The `hex` table of the encoder. -/
def hexDigit (n : Nat) : Char :=
  "0123456789abcdef".toList.getD n '0'

/-- The escape `appendString` writes for one character of a string, with HTML
escaping on as `json.Marshal` has it. -/
def escapeChar (c : Char) : List Char :=
  if c = '"' ∨ c = '\\' then ['\\', c]
  else if c = Char.ofNat 0x08 then ['\\', 'b']
  else if c = Char.ofNat 0x0C then ['\\', 'f']
  else if c = '\n' then ['\\', 'n']
  else if c = '\r' then ['\\', 'r']
  else if c = '\t' then ['\\', 't']
  else if c.toNat < 0x20 ∨ c = '<' ∨ c = '>' ∨ c = '&' then
    ['\\', 'u', '0', '0', hexDigit (c.toNat / 16), hexDigit (c.toNat % 16)]
  else if c = Char.ofNat 0x2028 ∨ c = Char.ofNat 0x2029 then
    ['\\', 'u', '2', '0', '2', hexDigit (c.toNat % 16)]
  else [c]

/-- A quoted JSON string. -/
def quote (s : String) : List Char :=
  '"' :: s.toList.flatMap escapeChar ++ ['"']

/-- The pieces joined by commas. -/
def joinComma (pieces : List (List Char)) : List Char :=
  [','].intercalate pieces

mutual

/-- `json.Marshal`. -/
def marshal : Value → List Char
  | .null => ['n', 'u', 'l', 'l']
  | .bool true => ['t', 'r', 'u', 'e']
  | .bool false => ['f', 'a', 'l', 's', 'e']
  | .number literal => literal.toList
  | .string s => quote s
  | .array elems => '[' :: joinComma (marshalElems elems) ++ [']']
  | .object members =>
    -- the encoder sorts the keys of a map before it writes them
    '\x7b' :: joinComma (((marshalMembers members).insertionSort fun a b => a.1 ≤ b.1).map
      Prod.snd) ++ ['\x7d']

/-- The elements of an array, each written. -/
def marshalElems : List Value → List (List Char)
  | [] => []
  | v :: vs => marshal v :: marshalElems vs

/-- The members of an object, each with its key and written as `"key":value`. -/
def marshalMembers : List (String × Value) → List (String × List Char)
  | [] => []
  | (k, v) :: kvs => (k, quote k ++ ':' :: marshal v) :: marshalMembers kvs

end

mutual

/-- The values a Go program hands to `Marshal` from maps of strings and
slices: no numbers, and the keys of every object in increasing order, as
`Marshal` writes the entries of a map. -/
def Canonical : Value → Prop
  | .number _ => False
  | .array elems => CanonicalElems elems
  | .object members => (members.map Prod.fst).Pairwise (· < ·) ∧ CanonicalMembers members
  | _ => True

/-- Every element canonical. -/
def CanonicalElems : List Value → Prop
  | [] => True
  | v :: vs => Canonical v ∧ CanonicalElems vs

/-- The value of every member canonical. -/
def CanonicalMembers : List (String × Value) → Prop
  | [] => True
  | (_, v) :: kvs => Canonical v ∧ CanonicalMembers kvs

end

/-- An array of strings is canonical. -/
theorem canonicalElems_map_string : ∀ l : List String, CanonicalElems (l.map .string)
  | [] => trivial
  | _ :: l => ⟨trivial, canonicalElems_map_string l⟩

/-- The members are canonical when each value is. -/
theorem canonicalMembers_of_forall :
    ∀ {l : List (String × Value)}, (∀ m ∈ l, Canonical m.2) → CanonicalMembers l
  | [], _ => trivial
  | (_, _) :: _, h => ⟨h _ List.mem_cons_self,
      canonicalMembers_of_forall fun m hm => h m (List.mem_cons_of_mem _ hm)⟩

mutual

/-- The fuel the reader takes for a value. -/
def size : Value → Nat
  | .array elems => elemsSize elems + 1
  | .object members => membersSize members + 1
  | _ => 1

/-- The fuel the reader takes for the elements of an array. -/
def elemsSize : List Value → Nat
  | [] => 0
  | v :: vs => size v + elemsSize vs + 1

/-- The fuel the reader takes for the members of an object. -/
def membersSize : List (String × Value) → Nat
  | [] => 0
  | (_, v) :: kvs => size v + membersSize kvs + 1

end

/-! ## Reading -/

/-- The scanner's white space. -/
def isSpace (c : Char) : Bool :=
  c = ' ' || c = '\t' || c = '\n' || c = '\r'

/-- The text after the white space it starts with. -/
def skipSpace (cs : List Char) : List Char :=
  cs.dropWhile isSpace

/-- The value of a hexadecimal digit, in either case. -/
def hexValue (c : Char) : Option Nat :=
  if '0' ≤ c ∧ c ≤ '9' then some (c.toNat - 0x30)
  else if 'a' ≤ c ∧ c ≤ 'f' then some (c.toNat - 0x57)
  else if 'A' ≤ c ∧ c ≤ 'F' then some (c.toNat - 0x37)
  else none

/-- `getu4`: the code unit of four hexadecimal digits. -/
def getU4 (a b c d : Char) : Option Nat := do
  let a ← hexValue a
  let b ← hexValue b
  let c ← hexValue c
  let d ← hexValue d
  pure (((a * 16 + b) * 16 + c) * 16 + d)

/-- A UTF-16 surrogate. -/
def isSurrogate (r : Nat) : Bool :=
  0xD800 ≤ r && r < 0xE000

/-- `utf16.DecodeRune`: the character of a surrogate pair, or `none` when the
two code units are no pair. -/
def decodePair (r₁ r₂ : Nat) : Option Char :=
  if 0xD800 ≤ r₁ ∧ r₁ < 0xDC00 ∧ 0xDC00 ≤ r₂ ∧ r₂ < 0xE000 then
    some (Char.ofNat ((r₁ - 0xD800) * 0x400 + (r₂ - 0xDC00) + 0x10000))
  else none

/-- `unicode.ReplacementChar`. -/
def replacementChar : Char := Char.ofNat 0xFFFD

/-- The error of a text that ends inside a value. -/
def errEnd : String := "unexpected end of JSON input"

/-- The error of a character the scanner does not accept where it stands. -/
def errChar (c : Char) (context : String) : String :=
  "invalid character " ++ c.toString ++ " " ++ context

/-- One more character in front of the characters read. -/
def consChar (c : Char) (r : Except String (List Char × List Char)) :
    Except String (List Char × List Char) :=
  r.map fun (s, rest) => (c :: s, rest)

/-- The characters of a string up to its closing quote, with the escapes of the
scanner and of `unquote` undone, and the text after the quote. -/
def parseString : List Char → Except String (List Char × List Char)
  | [] => .error errEnd
  | '"' :: rest => .ok ([], rest)
  | '\\' :: e :: rest =>
    match e with
    | '"' => consChar '"' (parseString rest)
    | '\\' => consChar '\\' (parseString rest)
    | '/' => consChar '/' (parseString rest)
    | 'b' => consChar (Char.ofNat 0x08) (parseString rest)
    | 'f' => consChar (Char.ofNat 0x0C) (parseString rest)
    | 'n' => consChar '\n' (parseString rest)
    | 'r' => consChar '\r' (parseString rest)
    | 't' => consChar '\t' (parseString rest)
    | 'u' =>
      match rest with
      | a :: b :: c :: d :: rest =>
        match getU4 a b c d with
        | none => .error (errChar a "in \\u hexadecimal character escape")
        | some r =>
          if isSurrogate r then
            -- a surrogate takes the next escape as its pair when the two decode
            match _hrest : rest with
            | '\\' :: 'u' :: a' :: b' :: c' :: d' :: rest' =>
              match (getU4 a' b' c' d').bind (decodePair r) with
              | some ch => consChar ch (parseString rest')
              | none => consChar replacementChar (parseString rest)
            | _ => consChar replacementChar (parseString rest)
          else consChar (Char.ofNat r) (parseString rest)
      | _ => .error errEnd
    | e => .error (errChar e "in string escape code")
  | ['\\'] => .error errEnd
  | c :: rest =>
    if c.toNat < 0x20 then .error (errChar c "in string literal")
    else consChar c (parseString rest)
termination_by cs => cs.length
decreasing_by all_goals simp_all <;> omega

/-- The digits at the start of a text. -/
def spanDigits (cs : List Char) : List Char × List Char :=
  cs.span Char.isDigit

/-- The rest of a number after its integer part: an optional fraction and an
optional exponent, each with at least one digit. -/
def parseNumberTail (cs : List Char) : Except String (List Char × List Char) := do
  let (frac, cs) ← match cs with
    | '.' :: cs =>
      match spanDigits cs with
      | ([], _) => .error "invalid character after decimal point in numeric literal"
      | (ds, cs) => .ok ('.' :: ds, cs)
    | cs => .ok ([], cs)
  let (exp, cs) ← match cs with
    | e :: cs =>
      if e = 'e' ∨ e = 'E' then
        let (sign, cs) := match cs with
          | '+' :: cs => (['+'], cs)
          | '-' :: cs => (['-'], cs)
          | cs => ([], cs)
        match spanDigits cs with
        | ([], _) => .error "invalid character in exponent of numeric literal"
        | (ds, cs) => .ok (e :: sign ++ ds, cs)
      else .ok ([], e :: cs)
    | [] => .ok ([], [])
  pure (frac ++ exp, cs)

/-- A number literal: an optional minus, `0` or digits without a leading zero,
then the tail. -/
def parseNumber (cs : List Char) : Except String (String × List Char) := do
  let (sign, cs) := match cs with
    | '-' :: cs => (['-'], cs)
    | cs => ([], cs)
  let (int, cs) ← match cs with
    | '0' :: cs => .ok (['0'], cs)
    | c :: cs =>
      if c.isDigit then
        let (ds, cs) := spanDigits cs
        .ok (c :: ds, cs)
      else .error (errChar c "looking for beginning of value")
    | [] => .error errEnd
  let (tail, cs) ← parseNumberTail cs
  pure (String.ofList (sign ++ int ++ tail), cs)

/-- A Go map assignment `m[k] = v`: the value of a key already there is
replaced in place, a new key goes last. -/
def setMember (members : List (String × Value)) (k : String) (v : Value) :
    List (String × Value) :=
  if members.any (·.1 = k) then members.map fun m => if m.1 = k then (k, v) else m
  else members ++ [(k, v)]

mutual

/-- One value, after white space. -/
def parseValue : Nat → List Char → Except String (Value × List Char)
  | 0, _ => .error "exceeded max depth"
  | n + 1, cs =>
    match skipSpace cs with
    | '\x7b' :: rest =>
      match skipSpace rest with
      | '\x7d' :: rest => .ok (.object [], rest)
      | rest => parseMembers n [] rest
    | '[' :: rest =>
      match skipSpace rest with
      | ']' :: rest => .ok (.array [], rest)
      | rest => parseElems n [] rest
    | '"' :: rest => (parseString rest).map fun (s, r) => (.string (String.ofList s), r)
    | 't' :: 'r' :: 'u' :: 'e' :: rest => .ok (.bool true, rest)
    | 'f' :: 'a' :: 'l' :: 's' :: 'e' :: rest => .ok (.bool false, rest)
    | 'n' :: 'u' :: 'l' :: 'l' :: rest => .ok (.null, rest)
    | cs => (parseNumber cs).map fun (lit, r) => (.number lit, r)

/-- The elements of an array from the next one on, `elems` those read so far. -/
def parseElems : Nat → List Value → List Char → Except String (Value × List Char)
  | 0, _, _ => .error "exceeded max depth"
  | n + 1, elems, cs => do
    let (v, rest) ← parseValue n cs
    match skipSpace rest with
    | ',' :: rest => parseElems n (elems ++ [v]) rest
    | ']' :: rest => .ok (.array (elems ++ [v]), rest)
    | c :: _ => .error (errChar c "after array element")
    | [] => .error errEnd

/-- The members of an object from the next key on, `members` the map so far. -/
def parseMembers : Nat → List (String × Value) → List Char →
    Except String (Value × List Char)
  | 0, _, _ => .error "exceeded max depth"
  | n + 1, members, cs =>
    match skipSpace cs with
    | '"' :: rest => do
      let (k, rest) ← parseString rest
      match skipSpace rest with
      | ':' :: rest => do
        let (v, rest) ← parseValue n rest
        let members := setMember members (String.ofList k) v
        match skipSpace rest with
        | ',' :: rest => parseMembers n members rest
        | '\x7d' :: rest => .ok (.object members, rest)
        | c :: _ => .error (errChar c "after object key:value pair")
        | [] => .error errEnd
      | c :: _ => .error (errChar c "after object key")
      | [] => .error errEnd
    | c :: _ => .error (errChar c "looking for beginning of object key string")
    | [] => .error errEnd

end

/-- `json.Unmarshal(data, &m)` with `m` a `map[string]any`: the members of the
object, none for `null` (a nil map), and an error for a syntax error, for text
after the value or for a value of another type. -/
def unmarshalMap (data : List Char) : Except String (List (String × Value)) :=
  match parseValue (data.length + 1) data with
  | .error e => .error e
  | .ok (v, rest) =>
    match skipSpace rest with
    | c :: _ => .error (errChar c "after top-level value")
    | [] =>
      match v with
      | .object members => .ok members
      | .null => .ok []
      | _ => .error "json: cannot unmarshal value into Go value of type map[string]interface \x7b\x7d"

/-! ## Printing -/

mutual

/-- `fmt`'s `%v` of a decoded value: `<nil>`, the literal of a boolean or a
number, a string as it is, and the elements of a slice or the `key:value`
entries of a map, in key order, between brackets. -/
def format : Value → String
  | .null => "<nil>"
  | .bool b => toString b
  | .number literal => literal
  | .string s => s
  | .array elems => "[" ++ " ".intercalate (formatElems elems) ++ "]"
  | .object members =>
    "map[" ++ " ".intercalate
      (((formatMembers members).insertionSort fun a b => a.1 ≤ b.1).map Prod.snd) ++ "]"

/-- The elements of a slice, each printed. -/
def formatElems : List Value → List String
  | [] => []
  | v :: vs => format v :: formatElems vs

/-- The entries of a map, each with its key and printed as `key:value`. -/
def formatMembers : List (String × Value) → List (String × String)
  | [] => []
  | (k, v) :: kvs => (k, k ++ ":" ++ format v) :: formatMembers kvs

end

/-! ## Reading back what is written -/

theorem hexValue_hexDigit : ∀ n : Nat, n < 16 → hexValue (hexDigit n) = some n := by
  decide

/-- The reader undoes the escape of one character. -/
theorem parseString_escapeChar (c : Char) (rest : List Char) :
    parseString (escapeChar c ++ rest) = consChar c (parseString rest) := by
  unfold escapeChar
  split
  · rename_i h
    rcases h with rfl | rfl <;> simp [parseString]
  split
  · subst_vars; simp [parseString]
  split
  · subst_vars; simp [parseString]
  split
  · subst_vars; simp [parseString]
  split
  · subst_vars; simp [parseString]
  split
  · subst_vars; simp [parseString]
  split
  · -- `\u00XX`: four hexadecimal digits of a character below U+0100
    rename_i h
    have hlt : c.toNat < 256 := by
      rcases h with h | rfl | rfl | rfl
      · omega
      all_goals decide
    have hu : getU4 '0' '0' (hexDigit (c.toNat / 16)) (hexDigit (c.toNat % 16)) = some c.toNat := by
      simp only [getU4, hexValue_hexDigit _ (show c.toNat / 16 < 16 by omega),
        hexValue_hexDigit _ (show c.toNat % 16 < 16 by omega)]
      simp [hexValue]
      omega
    have hs : isSurrogate c.toNat = false := by
      simp [isSurrogate]
      omega
    simp only [List.cons_append, List.nil_append]
    rw [parseString]
    simp [hu, hs, Char.ofNat_toNat]
  split
  · rename_i h
    rcases h with rfl | rfl <;>
      (simp only [List.cons_append, List.nil_append]; rw [parseString]; rfl)
  · simp only [List.cons_append, List.nil_append]
    rw [parseString.eq_def]
    split <;> simp_all

/-- The reader reads an escaped string up to its closing quote. -/
theorem parseString_escaped (cs rest : List Char) :
    parseString (cs.flatMap escapeChar ++ '"' :: rest) = .ok (cs, rest) := by
  induction cs with
  | nil => simp [parseString]
  | cons c cs ih =>
    rw [List.flatMap_cons, List.append_assoc, parseString_escapeChar, ih]
    rfl

@[simp] theorem joinComma_nil : joinComma [] = [] := rfl

@[simp] theorem joinComma_singleton (p : List Char) : joinComma [p] = p := by
  simp [joinComma]

theorem joinComma_cons_cons (p q : List Char) (ps : List (List Char)) :
    joinComma (p :: q :: ps) = p ++ ',' :: joinComma (q :: ps) := by
  simp [joinComma, List.intercalate_cons_cons]

theorem skipSpace_cons {c : Char} (hc : isSpace c = false) (cs : List Char) :
    skipSpace (c :: cs) = c :: cs := by
  simp [skipSpace, hc]

/-- What `Marshal` writes for a canonical value starts with no white space and
with no closing bracket. -/
theorem marshal_head {v : Value} (hv : Canonical v) :
    ∃ c cs, marshal v = c :: cs ∧ isSpace c = false ∧ c ≠ ']' ∧ c ≠ '\x7d' := by
  cases v with
  | null => exact ⟨_, _, rfl, by decide, by decide, by decide⟩
  | bool b => cases b <;> exact ⟨_, _, rfl, by decide, by decide, by decide⟩
  | number _ => exact absurd hv id
  | string s => exact ⟨_, _, rfl, by decide, by decide, by decide⟩
  | array elems => exact ⟨_, _, rfl, by decide, by decide, by decide⟩
  | object members => exact ⟨_, _, rfl, by decide, by decide, by decide⟩

theorem map_fst_marshalMembers :
    ∀ members : List (String × Value), (marshalMembers members).map Prod.fst = members.map Prod.fst
  | [] => rfl
  | (k, v) :: kvs => by
    simp [marshalMembers, map_fst_marshalMembers kvs]

/-- `Marshal` keeps the order of a canonical object's members. -/
theorem insertionSort_marshalMembers {members : List (String × Value)}
    (h : (members.map Prod.fst).Pairwise (· < ·)) :
    (marshalMembers members).insertionSort (fun a b => a.1 ≤ b.1) = marshalMembers members := by
  apply List.Pairwise.insertionSort_eq
  have hkeys := map_fst_marshalMembers members ▸ h
  rw [List.pairwise_map] at hkeys
  exact hkeys.imp fun h => le_of_lt h

/-- A new key goes last. -/
theorem setMember_of_not_mem {members : List (String × Value)} {k : String}
    (h : ∀ m ∈ members, m.1 ≠ k) (v : Value) : setMember members k v = members ++ [(k, v)] := by
  have hany : members.any (·.1 = k) = false := by
    simpa using h
  simp [setMember, hany]

/-- A key of a map whose keys increase is below every later key. -/
theorem lt_of_pairwise_append {acc rest : List (String × Value)} {k : String} {v : Value}
    (h : ((acc ++ (k, v) :: rest).map Prod.fst).Pairwise (· < ·)) {m : String × Value}
    (hm : m ∈ acc) : m.1 < k := by
  rw [List.map_append, List.pairwise_append] at h
  exact h.2.2 m.1 (List.mem_map_of_mem hm) k (by simp)

theorem size_pos (v : Value) : 0 < size v := by
  cases v <;> simp [size]

theorem joinComma_cons (p : List Char) (ps : List (List Char)) :
    ∃ t, joinComma (p :: ps) = p ++ t := by
  cases ps with
  | nil => exact ⟨[], by simp⟩
  | cons q ps => exact ⟨_, joinComma_cons_cons p q ps⟩

mutual

/-- The reader reads back what `Marshal` writes for a canonical value, and
leaves the text after it, given the fuel the value takes. -/
theorem parseValue_marshal : ∀ (v : Value), Canonical v → ∀ (n : Nat) (rest : List Char),
    size v ≤ n → parseValue n (marshal v ++ rest) = .ok (v, rest)
  | v, _, 0, _, hn => absurd hn (by have := size_pos v; omega)
  | .null, _, n + 1, rest, _ => by simp [marshal, parseValue, skipSpace, isSpace]
  | .bool true, _, n + 1, rest, _ => by simp [marshal, parseValue, skipSpace, isSpace]
  | .bool false, _, n + 1, rest, _ => by simp [marshal, parseValue, skipSpace, isSpace]
  | .number _, hv, n + 1, _, _ => absurd hv id
  | .string s, _, n + 1, rest, _ => by
    simp only [marshal, quote, List.cons_append, List.append_assoc]
    simp [parseValue, skipSpace, isSpace, parseString_escaped, Except.map]
  | .array [], _, n + 1, rest, _ => by
    simp [marshal, marshalElems, parseValue, skipSpace, isSpace]
  | .array (x :: xs), hv, n + 1, rest, hn => by
    have helems := parseElems_marshal (x :: xs) hv (List.cons_ne_nil _ _) n [] rest
      (by simp [size] at hn; omega)
    obtain ⟨c, cs, hm, hsp, hc, -⟩ := marshal_head hv.1
    obtain ⟨t, ht⟩ := joinComma_cons (marshal x) (marshalElems xs)
    rw [show marshalElems (x :: xs) = marshal x :: marshalElems xs from rfl, ht, hm] at helems
    rw [marshal, show marshalElems (x :: xs) = marshal x :: marshalElems xs from rfl, ht, hm]
    simp only [List.cons_append, List.append_assoc] at helems ⊢
    simp only [parseValue, skipSpace_cons (show isSpace '[' = false by decide), skipSpace_cons hsp]
    split
    · rename_i heq
      exact absurd (List.cons.inj heq).1 hc
    · simpa using helems
  | .object [], _, n + 1, rest, _ => by simp [marshal, marshalMembers, parseValue, skipSpace, isSpace]
  | .object ((k, v) :: kvs), hv, n + 1, rest, hn => by
    have hmembers := parseMembers_marshal ((k, v) :: kvs) hv.2 (List.cons_ne_nil _ _) n [] rest
      (by simp [size] at hn; omega) (by simpa using hv.1)
    obtain ⟨t, ht⟩ := joinComma_cons (quote k ++ ':' :: marshal v) ((marshalMembers kvs).map Prod.snd)
    rw [show (marshalMembers ((k, v) :: kvs)).map Prod.snd =
      (quote k ++ ':' :: marshal v) :: (marshalMembers kvs).map Prod.snd from rfl, ht] at hmembers
    simp only [marshal, insertionSort_marshalMembers hv.1]
    rw [show (marshalMembers ((k, v) :: kvs)).map Prod.snd =
      (quote k ++ ':' :: marshal v) :: (marshalMembers kvs).map Prod.snd from rfl, ht]
    simp only [quote, List.cons_append, List.append_assoc] at hmembers ⊢
    simpa [parseValue, skipSpace, isSpace] using hmembers

/-- The elements of an array, up to its closing bracket. -/
theorem parseElems_marshal : ∀ (elems : List Value), CanonicalElems elems → elems ≠ [] →
    ∀ (n : Nat) (acc : List Value) (rest : List Char), elemsSize elems ≤ n →
    parseElems n acc (joinComma (marshalElems elems) ++ ']' :: rest) = .ok (.array (acc ++ elems), rest)
  | [], _, h, _, _, _, _ => absurd rfl h
  | _ :: _, _, _, 0, _, _, hn => by simp [elemsSize] at hn
  | [x], hv, _, n + 1, acc, rest, hn => by
    have hx := parseValue_marshal x hv.1 n (']' :: rest) (by simp [elemsSize] at hn; omega)
    simp only [marshalElems, joinComma_singleton]
    simp [parseElems, hx, skipSpace, isSpace, bind, Except.bind]
  | x :: y :: ys, hv, _, n + 1, acc, rest, hn => by
    have hx := parseValue_marshal x hv.1 n (',' :: (joinComma (marshalElems (y :: ys)) ++ ']' :: rest))
      (by simp [elemsSize] at hn; omega)
    have htl := parseElems_marshal (y :: ys) hv.2 (List.cons_ne_nil _ _) n (acc ++ [x]) rest
      (by simp [elemsSize] at hn ⊢; omega)
    rw [show marshalElems (x :: y :: ys) = marshal x :: marshalElems (y :: ys) from rfl,
      show marshalElems (y :: ys) = marshal y :: marshalElems ys from rfl, joinComma_cons_cons,
      List.append_assoc, List.cons_append] at *
    simp [parseElems, hx, skipSpace, isSpace, htl, bind, Except.bind]

/-- The members of an object, up to its closing brace. -/
theorem parseMembers_marshal : ∀ (members : List (String × Value)), CanonicalMembers members →
    members ≠ [] → ∀ (n : Nat) (acc : List (String × Value)) (rest : List Char),
    membersSize members ≤ n → ((acc ++ members).map Prod.fst).Pairwise (· < ·) →
    parseMembers n acc (joinComma ((marshalMembers members).map Prod.snd) ++ '\x7d' :: rest) =
      .ok (.object (acc ++ members), rest)
  | [], _, h, _, _, _, _, _ => absurd rfl h
  | _ :: _, _, _, 0, _, _, hn, _ => by simp [membersSize] at hn
  | [(k, v)], hv, _, n + 1, acc, rest, hn, hkeys => by
    have hv' := parseValue_marshal v hv.1 n ('\x7d' :: rest) (by simp [membersSize] at hn; omega)
    have hnew : ∀ m ∈ acc, m.1 ≠ k := fun m hm => ne_of_lt (lt_of_pairwise_append hkeys hm)
    simp only [marshalMembers, List.map, joinComma_singleton, quote, List.cons_append,
      List.append_assoc]
    simp [parseMembers, skipSpace, isSpace, parseString_escaped, hv', setMember_of_not_mem hnew,
      bind, Except.bind]
  | (k, v) :: (k', v') :: kvs, hv, _, n + 1, acc, rest, hn, hkeys => by
    have hv' := parseValue_marshal v hv.1 n
      (',' :: (joinComma ((marshalMembers ((k', v') :: kvs)).map Prod.snd) ++ '\x7d' :: rest))
      (by simp [membersSize] at hn; omega)
    have htl := parseMembers_marshal ((k', v') :: kvs) hv.2 (List.cons_ne_nil _ _) n
      (acc ++ [(k, v)]) rest (by simp [membersSize] at hn ⊢; omega) (by simpa using hkeys)
    have hnew : ∀ m ∈ acc, m.1 ≠ k := fun m hm => ne_of_lt (lt_of_pairwise_append hkeys hm)
    rw [show (marshalMembers ((k', v') :: kvs)).map Prod.snd =
      (quote k' ++ ':' :: marshal v') :: (marshalMembers kvs).map Prod.snd from rfl] at hv' htl
    rw [show (marshalMembers ((k, v) :: (k', v') :: kvs)).map Prod.snd =
      (quote k ++ ':' :: marshal v) :: (quote k' ++ ':' :: marshal v') ::
        (marshalMembers kvs).map Prod.snd from rfl, joinComma_cons_cons]
    simp only [quote, List.cons_append, List.nil_append, List.append_assoc] at hv' htl ⊢
    simp [parseMembers, skipSpace, isSpace, parseString_escaped, hv', setMember_of_not_mem hnew,
      bind, Except.bind, htl]

end

mutual

/-- A value takes no more fuel than the length of what `Marshal` writes. -/
theorem size_le_length : ∀ v : Value, Canonical v → size v ≤ (marshal v).length
  | .null, _ | .bool true, _ | .bool false, _ => by simp [size, marshal]
  | .number _, hv => absurd hv id
  | .string s, _ => by simp [size, marshal, quote]
  | .array elems, hv => by
    have := elemsSize_le_length elems hv
    simp only [size, marshal, List.length_cons, List.length_append]
    omega
  | .object members, hv => by
    have := membersSize_le_length members hv.2
    simp only [size, marshal, insertionSort_marshalMembers hv.1, List.length_cons,
      List.length_append]
    omega

theorem elemsSize_le_length : ∀ elems : List Value, CanonicalElems elems →
    elemsSize elems ≤ (joinComma (marshalElems elems)).length + 1
  | [], _ => by simp [elemsSize, marshalElems]
  | [x], hv => by
    have := size_le_length x hv.1
    simp [elemsSize, marshalElems]
    omega
  | x :: y :: ys, hv => by
    have := size_le_length x hv.1
    have := elemsSize_le_length (y :: ys) hv.2
    rw [show marshalElems (x :: y :: ys) = marshal x :: marshalElems (y :: ys) from rfl] at *
    rw [show marshalElems (y :: ys) = marshal y :: marshalElems ys from rfl] at *
    simp only [elemsSize, joinComma_cons_cons, List.length_append, List.length_cons] at *
    omega

theorem membersSize_le_length : ∀ members : List (String × Value), CanonicalMembers members →
    membersSize members ≤ (joinComma ((marshalMembers members).map Prod.snd)).length + 1
  | [], _ => by simp [membersSize, marshalMembers]
  | [(k, v)], hv => by
    have := size_le_length v hv.1
    simp [membersSize, marshalMembers, quote]
    omega
  | (k, v) :: (k', v') :: kvs, hv => by
    have := size_le_length v hv.1
    have := membersSize_le_length ((k', v') :: kvs) hv.2
    rw [show (marshalMembers ((k, v) :: (k', v') :: kvs)).map Prod.snd =
      (quote k ++ ':' :: marshal v) :: (marshalMembers ((k', v') :: kvs)).map Prod.snd from rfl] at *
    rw [show (marshalMembers ((k', v') :: kvs)).map Prod.snd =
      (quote k' ++ ':' :: marshal v') :: (marshalMembers kvs).map Prod.snd from rfl] at *
    simp only [membersSize, joinComma_cons_cons, List.length_append, List.length_cons] at *
    omega

end

/-- `json.Unmarshal` of what `json.Marshal` writes for a map gives the map back. -/
theorem unmarshalMap_marshal {members : List (String × Value)} (h : Canonical (.object members)) :
    unmarshalMap (marshal (.object members)) = .ok members := by
  have hsize := size_le_length _ h
  have hparse := parseValue_marshal _ h ((marshal (.object members)).length + 1) [] (by omega)
  rw [List.append_nil] at hparse
  rw [unmarshalMap, hparse]
  rfl

end GoJson
