import Mathlib

/-!
# Output fields

`perms.OutputFields` records which fields of a resource a grant lets a caller
see. A nil value means "unset" (the caller's defaults apply), a set of names is
an explicit allowance, and `*` allows everything. `AddFields` composes these; the
file shows that on every value it can build it is the join of the lattice
`WithBot (WithTop (Finset String))`: unset is the bottom, `*` the top, and two
explicit sets join by union.
-/

namespace Boundary.Perms

/-- `perms.OutputFields`. `none` stands for both a nil pointer and a nil map, which
every method treats alike. `AddFields` replaces the whole map when it meets `*`,
so `*` never stands beside another name. -/
structure OutputFields where
  fields : Option (Finset String)
  star_only : ∀ s, fields = some s → "*" ∈ s → s = {"*"}

namespace OutputFields

/-- The zero value: a nil `*OutputFields`. -/
def unset : OutputFields := ⟨none, fun _ h => by cases h⟩

/-- The loop of the `default` case of `AddFields`: insert each name, and replace
the whole map by `{*}` at the first `*`. -/
def addFieldsLoop (s : Finset String) : List String → Finset String
  | [] => s
  | k :: ks => if k = "*" then {"*"} else addFieldsLoop (insert k s) ks

/-- Without `*` in the input the loop is a union; with it, the loop stops at `{*}`. -/
theorem addFieldsLoop_eq (s : Finset String) (input : List String) :
    addFieldsLoop s input = if "*" ∈ input then {"*"} else s ∪ input.toFinset := by
  induction input generalizing s with
  | nil => simp [addFieldsLoop]
  | cons k ks ih =>
    by_cases hk : k = "*"
    · simp [addFieldsLoop, hk]
    · have hmem : ("*" ∈ k :: ks) ↔ "*" ∈ ks := by
        simp only [List.mem_cons, or_iff_right_iff_imp]
        exact fun h => absurd h.symm hk
      simp only [addFieldsLoop, if_neg hk, ih, hmem]
      split
      · rfl
      · ext x
        simp only [Finset.mem_union, Finset.mem_insert, List.mem_toFinset, List.mem_cons]
        tauto

/-- The loop keeps a map without `*` free of `*`, or ends at exactly `{*}`. -/
theorem addFieldsLoop_star_only {s : Finset String} (hs : "*" ∉ s) (input : List String) :
    ∀ t, some (addFieldsLoop s input) = some t → "*" ∈ t → t = {"*"} := by
  rintro t ⟨⟩
  rw [addFieldsLoop_eq]
  split
  · exact fun _ => rfl
  · intro h
    simp only [Finset.mem_union, List.mem_toFinset] at h
    tauto

/-- Making a nil map non-nil adds no `*`. -/
theorem getD_star_only (o : OutputFields) :
    ∀ s, some (o.fields.getD ∅) = some s → "*" ∈ s → s = {"*"} := by
  rintro s ⟨⟩ hstar
  cases hf : o.fields with
  | none => simp [hf] at hstar
  | some t =>
    rw [hf, Option.getD_some] at hstar
    rw [Option.getD_some]
    exact o.star_only t hf hstar

/-- A map that is not exactly `{*}` holds no `*`. -/
theorem star_not_mem {o : OutputFields} {s : Finset String} (hs : o.fields = some s)
    (hne : ¬(s.card = 1 ∧ "*" ∈ s)) : "*" ∉ s := by
  intro hstar
  apply hne
  rw [o.star_only s hs hstar]
  simp

/-- `OutputFields.AddFields`: `input` is `none` for a nil slice. -/
def addFields (o : OutputFields) : Option (List String) → OutputFields
  -- input == nil: do nothing
  | none => o
  -- non-nil but empty input: make the map non-nil, add nothing
  | some [] => ⟨some (o.fields.getD ∅), o.getD_star_only⟩
  | some input@(_ :: _) =>
    match hf : o.fields with
    | some s =>
      if hstar : s.card = 1 ∧ "*" ∈ s then o
      else ⟨some (addFieldsLoop s input), addFieldsLoop_star_only (star_not_mem hf hstar) input⟩
    | none => ⟨some (addFieldsLoop ∅ input), addFieldsLoop_star_only (Finset.notMem_empty _) input⟩

/-- Names sort by the order of strings, transitive and antisymmetric. -/
instance stringLeIsTrans : IsTrans String (· ≤ ·) := ⟨fun _ _ _ => le_trans⟩

instance stringLeIsAntisymm : Std.Antisymm (fun a b : String => a ≤ b) := ⟨fun _ _ => le_antisymm⟩

/-- `OutputFields.Fields`: the names in sorted order, `none` when unset. -/
def getFields (o : OutputFields) : Option (List String) :=
  o.fields.map fun s => s.sort (· ≤ ·)

/-- `OutputFields.Has`. -/
def has (o : OutputFields) (field : String) : Bool :=
  match o.fields with
  | none => false
  | some s => decide ("*" ∈ s) || decide (field ∈ s)

/-- `AddFields` on a non-empty input only reads the current map. -/
theorem fields_addFields_cons (o : OutputFields) (k : String) (ks : List String) :
    (o.addFields (some (k :: ks))).fields =
      match o.fields with
      | some s => if s.card = 1 ∧ "*" ∈ s then some s else some (addFieldsLoop s (k :: ks))
      | none => some (addFieldsLoop ∅ (k :: ks)) := by
  simp only [addFields]
  split <;> rename_i hf
  · split <;> simp_all
  · simp_all

/-! ### The join semilattice of output fields -/

/-- Unset is the bottom, `*` the top, explicit name sets sit between. -/
abbrev FieldLattice := WithBot (WithTop (Finset String))

/-- The lattice element a map denotes. -/
def latticeOf : Option (Finset String) → FieldLattice
  | none => ⊥
  | some s => if "*" ∈ s then ⊤ else ((s : WithTop (Finset String)) : FieldLattice)

/-- The lattice element an `OutputFields` value denotes. -/
def toLattice (o : OutputFields) : FieldLattice := latticeOf o.fields

/-- The lattice element an input slice of `AddFields` denotes. -/
def inputLattice : Option (List String) → FieldLattice
  | none => ⊥
  | some l => latticeOf (some l.toFinset)

theorem latticeOf_some_of_not_mem {s : Finset String} (hs : "*" ∉ s) :
    latticeOf (some s) = ((s : WithTop (Finset String)) : FieldLattice) := by
  simp [latticeOf, hs]

theorem latticeOf_union {s t : Finset String} (hs : "*" ∉ s) :
    latticeOf (some (s ∪ t)) = latticeOf (some s) ⊔ latticeOf (some t) := by
  by_cases ht : "*" ∈ t
  · simp [latticeOf, ht]
  · have hst : "*" ∉ s ∪ t := by simp [hs, ht]
    rw [latticeOf_some_of_not_mem hst, latticeOf_some_of_not_mem hs,
      latticeOf_some_of_not_mem ht, ← WithBot.coe_sup, ← WithTop.coe_sup]
    rfl

/-- The loop joins the input into a map that holds no `*`. -/
theorem latticeOf_addFieldsLoop {s : Finset String} (hs : "*" ∉ s) (input : List String) :
    latticeOf (some (addFieldsLoop s input)) = latticeOf (some s) ⊔ inputLattice (some input) := by
  rw [addFieldsLoop_eq, inputLattice]
  split <;> rename_i hstar
  · simp [latticeOf, hstar]
  · exact latticeOf_union hs

/-- **`AddFields` is the lattice join.** On every value the type admits,
adding an input joins the element the input denotes. -/
theorem toLattice_addFields (o : OutputFields) (input : Option (List String)) :
    (o.addFields input).toLattice = o.toLattice ⊔ inputLattice input := by
  rcases input with _ | _ | ⟨k, ks⟩
  · simp [addFields, inputLattice]
  · cases hf : o.fields with
    | none => simp [addFields, toLattice, inputLattice, hf, latticeOf]
    | some s =>
      have hu : s ∪ ([] : List String).toFinset = s := by simp
      by_cases hs : "*" ∈ s
      · simp [addFields, toLattice, inputLattice, hf, latticeOf, hs]
      · simp only [toLattice, addFields, hf, Option.getD_some, inputLattice]
        rw [← latticeOf_union hs, hu]
  · unfold toLattice
    rw [fields_addFields_cons]
    cases hf : o.fields with
    | none =>
      have hle : latticeOf (some ∅) ≤ inputLattice (some (k :: ks)) := by
        simp only [inputLattice, latticeOf, Finset.notMem_empty, if_false]
        split
        · exact le_top
        · exact WithBot.coe_le_coe.mpr (WithTop.coe_le_coe.mpr (Finset.empty_subset _))
      rw [latticeOf_addFieldsLoop (Finset.notMem_empty "*"), sup_eq_right.mpr hle]
      simp [latticeOf]
    | some s =>
      by_cases hstar : s.card = 1 ∧ "*" ∈ s
      · simp only [if_pos hstar, latticeOf, if_pos hstar.2, top_sup_eq]
      · simp only [if_neg hstar]
        exact latticeOf_addFieldsLoop (star_not_mem hf hstar) (k :: ks)

/-- Two values the type admits denote the same element exactly when they
hold the same map. -/
theorem toLattice_inj {o o' : OutputFields} :
    o.toLattice = o'.toLattice ↔ o.fields = o'.fields := by
  refine ⟨fun h => ?_, fun h => by simp [toLattice, h]⟩
  unfold toLattice at h
  cases hf : o.fields with
  | none =>
    cases hf' : o'.fields with
    | none => rfl
    | some t =>
      rw [hf, hf'] at h
      by_cases ht : "*" ∈ t <;> simp [latticeOf, ht] at h
  | some s =>
    cases hf' : o'.fields with
    | none =>
      rw [hf, hf'] at h
      by_cases hs : "*" ∈ s <;> simp [latticeOf, hs] at h
    | some t =>
      rw [hf, hf'] at h
      by_cases hs : "*" ∈ s <;> by_cases ht : "*" ∈ t
      · rw [o.star_only s hf hs, o'.star_only t hf' ht]
      · simp [latticeOf, hs, ht] at h
      · simp [latticeOf, hs, ht] at h
      · simpa [latticeOf, hs, ht] using h

/-- `Fields` lists the map in sorted order, so it tells two values apart exactly
when their lattice elements differ. -/
theorem getFields_eq_iff {o o' : OutputFields} :
    o.getFields = o'.getFields ↔ o.toLattice = o'.toLattice := by
  rw [toLattice_inj]
  have hinj : Function.Injective fun s : Finset String => s.sort (· ≤ ·) := by
    intro s t hst
    rw [← Finset.sort_toFinset s (· ≤ ·), ← Finset.sort_toFinset t (· ≤ ·)]
    exact congrArg List.toFinset hst
  exact (Option.map_injective hinj).eq_iff

/-- Feeding `Fields` back into `AddFields` joins the value it was read from. -/
theorem inputLattice_getFields (o : OutputFields) : inputLattice o.getFields = o.toLattice := by
  cases hf : o.fields <;> simp [getFields, inputLattice, toLattice, latticeOf, hf, Finset.sort_toFinset]

/-- `Has("*")` tests for the top element. -/
theorem has_star_iff (o : OutputFields) : o.has "*" = true ↔ o.toLattice = ⊤ := by
  cases hf : o.fields with
  | none => simp [has, toLattice, latticeOf, hf]
  | some s =>
    by_cases hs : "*" ∈ s <;> simp [has, toLattice, latticeOf, hf, hs]

/-- Two values with the same map are equal. -/
theorem ext_fields {o o' : OutputFields} (h : o.fields = o'.fields) : o = o' := by
  cases o
  cases o'
  cases h
  rfl

/-- `AddFields(Fields())` on an unset value copies the value: the copy `clone`
makes of a grant's output fields is exact. -/
theorem unset_addFields_getFields (o : OutputFields) : unset.addFields o.getFields = o := by
  have h : (unset.addFields o.getFields).toLattice = o.toLattice := by
    rw [toLattice_addFields, inputLattice_getFields]
    simp [toLattice, unset, latticeOf]
  exact ext_fields (toLattice_inj.mp h)

/-- An input that holds `*` denotes the top element. -/
theorem inputLattice_of_star_mem {l : List String} (h : "*" ∈ l) : inputLattice (some l) = ⊤ := by
  simp [inputLattice, latticeOf, h]

/-- The top element is the map that holds `*` alone, which `Fields` lists as `["*"]`. -/
theorem getFields_of_toLattice_eq_top {o : OutputFields} (h : o.toLattice = ⊤) :
    o.getFields = some ["*"] := by
  unfold toLattice at h
  cases hf : o.fields with
  | none => simp [hf, latticeOf] at h
  | some s =>
    rw [hf] at h
    by_cases hs : "*" ∈ s
    · rw [getFields, hf, o.star_only s hf hs]
      simp
    · simp [latticeOf, hs] at h

/-- Once a value is the top element, no later `AddFields` moves it. -/
theorem toLattice_foldl_addFields_top (inputs : List (Option (List String))) {o : OutputFields}
    (h : o.toLattice = ⊤) : (inputs.foldl addFields o).toLattice = ⊤ := by
  induction inputs generalizing o with
  | nil => exact h
  | cons input inputs ih =>
    rw [List.foldl_cons]
    apply ih
    rw [toLattice_addFields, h, top_sup_eq]

/-- `AddFields` observed through `Fields` is the join of a semilattice: two inputs
added in either order give the same fields, an input added twice gives what it
gives once, a nil input changes nothing, an empty input only turns an unset
value into a set but empty one, and once `*` is added the fields are `["*"]`
whatever is added after it. -/
theorem getFields_addFields_join (o : OutputFields) (x y : Option (List String)) :
    ((o.addFields x).addFields y).getFields = ((o.addFields y).addFields x).getFields ∧
      ((o.addFields x).addFields x).getFields = (o.addFields x).getFields ∧
      (o.addFields none).getFields = o.getFields ∧
      (o.addFields (some [])).getFields = (if o.fields = none then some [] else o.getFields) ∧
      ∀ l, "*" ∈ l → ∀ inputs : List (Option (List String)),
        (inputs.foldl addFields (o.addFields (some l))).getFields = some ["*"] := by
  refine ⟨?_, ?_, rfl, ?_, ?_⟩
  · rw [getFields_eq_iff, toLattice_addFields, toLattice_addFields, toLattice_addFields,
      toLattice_addFields, sup_right_comm]
  · rw [getFields_eq_iff, toLattice_addFields, toLattice_addFields, sup_assoc, sup_idem]
  · cases hf : o.fields with
    | none => simp [addFields, getFields, hf]
    | some s => simp [addFields, getFields, hf]
  · intro l hl inputs
    apply getFields_of_toLattice_eq_top
    apply toLattice_foldl_addFields_top
    rw [toLattice_addFields, inputLattice_of_star_mem hl, sup_top_eq]

/-- After `a` and `*`, neither a later name nor a nil or empty input changes the fields. -/
theorem getFields_star_absorbs :
    "*" ∈ ["a", "*"] ∧
      ([some ["b"], none, some []].foldl addFields (unset.addFields (some ["a", "*"]))).getFields =
        some ["*"] :=
  ⟨by decide, (getFields_addFields_join unset none none).2.2.2.2 ["a", "*"] (by decide) _⟩

end OutputFields

end Boundary.Perms
