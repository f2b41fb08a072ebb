import Mathlib

/-!
# The parts of Go's `strings` package that the modelled code calls

Go strings are byte sequences; every string the modelled functions split or
compare by prefix is valid UTF-8, where the byte-wise operations agree with the
same operations on the characters, so the model works on `String.toList`.
-/

namespace Boundary.Strings

/-- `strings.Split(s, sep)` for a one-character separator: the pieces between
consecutive separators, `[""]` for the empty string. -/
def split (s : String) (sep : Char) : List String :=
  (s.toList.splitOn sep).map String.ofList

/-- `strings.HasPrefix(s, prefix)`. -/
def hasPrefix (s pre : String) : Bool :=
  pre.toList.isPrefixOf s.toList

/-- `strings.HasSuffix(s, suffix)`. -/
def hasSuffix (s suf : String) : Bool :=
  suf.toList.isSuffixOf s.toList

/-- `strings.Join(elems, sep)`. -/
def join (elems : List String) (sep : String) : String :=
  sep.intercalate elems

/-- `strings.Cut(s, sep)` for a one-character separator: the text before and
after the first separator, and whether there was one. -/
def cut (s : String) (sep : Char) : String × String × Bool :=
  match s.toList.splitOn sep with
  | before :: after@(_ :: _) => (String.ofList before, String.ofList ([sep].intercalate after), true)
  | _ => (s, "", false)

/-- `unicode.IsSpace`: the Latin-1 spaces and the other characters of Unicode's
White_Space property. -/
def isSpace (c : Char) : Bool :=
  match c.toNat with
  | 0x09 | 0x0A | 0x0B | 0x0C | 0x0D | 0x20 | 0x85 | 0xA0 | 0x1680 | 0x2028 | 0x2029
  | 0x202F | 0x205F | 0x3000 => true
  | n => decide (0x2000 ≤ n ∧ n ≤ 0x200A)

/-- `strings.TrimSpace(s)`. -/
def trimSpace (s : String) : String :=
  String.ofList ((s.toList.dropWhile isSpace).rdropWhile isSpace)

/-- `strings.SplitN(s, sep, 2)` for a one-character separator: the text before and
after the first separator, or `[s]` without one. -/
def splitN2 (s : String) (sep : Char) : List String :=
  match cut s sep with
  | (before, after, true) => [before, after]
  | _ => [s]

/-- `strings.EqualFold(s, t)` for a `t` of ASCII letters none of which has a
case variant outside ASCII (such as `"bearer"`): under Unicode simple case
folding, `s` then equals `t` exactly when it has `t`'s length and the same ASCII
lower case. -/
def equalFold (s t : String) : Bool :=
  s.length == t.length && (s.toList.zip t.toList).all fun (a, b) => a.toLower == b.toLower

/-- `unicode.ToLower` on the characters whose lower case is ASCII: the ASCII
capitals, the capital I with dot above and the Kelvin sign. Every other
character that is not ASCII has a lower case that is not ASCII either; the
model keeps it as it is, so a name with one misses a table of ASCII names in
both, and only such a name quoted in an error message reads otherwise than
Go's. -/
def lowerRune (c : Char) : Char :=
  if c = '\u0130' then 'i' else if c = '\u212A' then 'k' else c.toLower

/-- `strings.ToLower`, rune by rune. -/
def toLower (s : String) : String :=
  String.ofList (s.toList.map lowerRune)

example : toLower "LİST" = "list" := by decide

/-- `strings.Contains(s, string(c))`. -/
def contains (s : String) (c : Char) : Bool :=
  s.toList.contains c

/-- `strings.ContainsAny(s, chars)`. -/
def containsAny (s chars : String) : Bool :=
  s.toList.any fun c => chars.toList.contains c

/-- `strings.TrimPrefix(s, prefix)`. -/
def trimPrefix (s pre : String) : String :=
  if hasPrefix s pre then String.ofList (s.toList.drop pre.toList.length) else s

/-- `strings.TrimSuffix(s, suffix)`. -/
def trimSuffix (s suf : String) : String :=
  if suf.toList.isSuffixOf s.toList then
    String.ofList (s.toList.take (s.toList.length - suf.toList.length))
  else s

/-- `fmt`'s `%q` of a string with no character that `strconv.Quote` escapes. -/
def quote (s : String) : String :=
  "\"" ++ s ++ "\""

/-- `strings.Split` undoes `strings.Join` when no piece holds the separator. -/
theorem split_join {xs : List String} {c : Char} (hx : ∀ x ∈ xs, c ∉ x.toList) (hne : xs ≠ []) :
    split (join xs (String.singleton c)) c = xs := by
  simp only [split, join, String.toList_intercalate, String.toList_singleton]
  rw [List.splitOn_intercalate]
  · simp
  · simpa using hx
  · simpa using hne

/-- No piece of a split list holds the separator. -/
theorem not_mem_of_mem_splitOn {c : Char} : ∀ {l x : List Char}, x ∈ l.splitOn c → c ∉ x
  | [], x, h => by
    rw [List.splitOn_nil, List.mem_singleton] at h
    subst h
    exact List.not_mem_nil
  | d :: l, x, h => by
    rw [List.splitOn_cons_eq_if_modifyHead] at h
    split at h
    · rcases List.mem_cons.mp h with rfl | h
      · exact List.not_mem_nil
      · exact not_mem_of_mem_splitOn h
    · rename_i hd
      obtain ⟨y, ys, hys⟩ := List.exists_cons_of_ne_nil (List.splitOn_ne_nil c l)
      rw [hys, List.modifyHead_cons] at h
      rcases List.mem_cons.mp h with rfl | h
      · have hy : c ∉ y := not_mem_of_mem_splitOn (hys ▸ List.mem_cons_self)
        rw [List.mem_cons, not_or]
        exact ⟨fun h => hd (by simp [h]), hy⟩
      · exact not_mem_of_mem_splitOn (hys ▸ List.mem_cons_of_mem y h)

/-- Every character of a piece of a split list is a character of the list. -/
theorem mem_of_mem_splitOn {c : Char} : ∀ {l x : List Char}, x ∈ l.splitOn c → ∀ d ∈ x, d ∈ l
  | [], x, h, d, hd => by
    rw [List.splitOn_nil, List.mem_singleton] at h
    subst h
    exact absurd hd List.not_mem_nil
  | e :: l, x, h, d, hd => by
    rw [List.splitOn_cons_eq_if_modifyHead] at h
    split at h
    · rcases List.mem_cons.mp h with rfl | h
      · exact absurd hd List.not_mem_nil
      · exact List.mem_cons_of_mem e (mem_of_mem_splitOn h d hd)
    · obtain ⟨y, ys, hys⟩ := List.exists_cons_of_ne_nil (List.splitOn_ne_nil c l)
      rw [hys, List.modifyHead_cons] at h
      rcases List.mem_cons.mp h with rfl | h
      · rcases List.mem_cons.mp hd with rfl | hd
        · exact List.mem_cons_self
        · exact List.mem_cons_of_mem _ (mem_of_mem_splitOn (hys ▸ List.mem_cons_self) d hd)
      · exact List.mem_cons_of_mem e (mem_of_mem_splitOn (hys ▸ List.mem_cons_of_mem y h) d hd)

/-- Every character of a piece of `strings.Split` is a character of the string. -/
theorem mem_of_mem_split {s x : String} {c d : Char} (h : x ∈ split s c) (hd : d ∈ x.toList) :
    d ∈ s.toList := by
  obtain ⟨l, hl, rfl⟩ := List.mem_map.mp h
  rw [String.toList_ofList] at hd
  exact mem_of_mem_splitOn hl d hd

/-- No piece of `strings.Split` holds the separator. -/
theorem not_mem_of_mem_split {s x : String} {c : Char} (h : x ∈ split s c) : c ∉ x.toList := by
  obtain ⟨l, hl, rfl⟩ := List.mem_map.mp h
  rw [String.toList_ofList]
  exact not_mem_of_mem_splitOn hl

/-- Every character of a joined string is a character of the separator or of a piece. -/
theorem mem_join {xs : List String} {sep : String} {c : Char} (h : c ∈ (join xs sep).toList) :
    c ∈ sep.toList ∨ ∃ x ∈ xs, c ∈ x.toList := by
  induction xs with
  | nil => simp [join] at h
  | cons x xs ih =>
    cases xs with
    | nil => exact .inr ⟨x, List.mem_singleton_self x, by simpa [join] using h⟩
    | cons y ys =>
      simp only [join, String.intercalate_cons_cons, String.toList_append, List.mem_append] at h
      rcases h with (h | h) | h
      · exact .inr ⟨x, List.mem_cons_self, h⟩
      · exact .inl h
      · rcases ih h with h | ⟨z, hz, hc⟩
        · exact .inl h
        · exact .inr ⟨z, List.mem_cons_of_mem x hz, hc⟩

/-- A join is empty only for no pieces or the one empty piece. -/
theorem join_eq_empty_iff {xs : List String} {sep : String} (hsep : sep ≠ "") :
    join xs sep = "" ↔ xs = [] ∨ xs = [""] := by
  match xs with
  | [] => simp [join]
  | [x] => simp [join]
  | x :: y :: l =>
    simp only [join, String.intercalate_cons_cons, String.append_eq_empty_iff, reduceCtorEq,
      List.cons.injEq, false_or]
    tauto

/-- A join starts with its first piece. -/
theorem head?_join {x : String} {xs : List String} {sep : String} {c : Char}
    (hx : x.toList.head? = some c) : (join (x :: xs) sep).toList.head? = some c := by
  cases xs with
  | nil => simpa [join] using hx
  | cons y ys =>
    rw [join, String.intercalate_cons_cons, String.toList_append, String.toList_append,
      List.head?_append, List.head?_append, hx]
    rfl

/-- Two texts joined at a separator that neither first part holds split there
again. -/
theorem append_sep_inj {a b a' b' : List Char} {c : Char} (ha : c ∉ a) (ha' : c ∉ a')
    (h : a ++ c :: b = a' ++ c :: b') : a = a' ∧ b = b' := by
  induction a generalizing a' with
  | nil =>
    cases a' with
    | nil => simpa using h
    | cons d a' =>
      simp only [List.nil_append, List.cons_append, List.cons.injEq] at h
      exact absurd (h.1 ▸ List.mem_cons_self) ha'
  | cons d a ih =>
    cases a' with
    | nil =>
      simp only [List.nil_append, List.cons_append, List.cons.injEq] at h
      exact absurd (h.1 ▸ List.mem_cons_self) ha
    | cons d' a' =>
      simp only [List.cons_append, List.cons.injEq] at h
      obtain ⟨rfl, h⟩ := h
      obtain ⟨rfl, rfl⟩ := ih (fun hc => ha (List.mem_cons_of_mem d hc))
        (fun hc => ha' (List.mem_cons_of_mem d hc)) h
      exact ⟨rfl, rfl⟩

end Boundary.Strings
