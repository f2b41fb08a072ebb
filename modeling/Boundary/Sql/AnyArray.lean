import Boundary.Go.Strings

/-!
# Array parameters of `any`

A query tests a column against a list by binding the text literal `{a,b,...}`
to an array parameter and comparing with `column = any(@param)`. How the
database reads the literal is not modelled: it is a parameter, `anyOf x a` for
`x = any(a)`, of which the results assume only what Postgres does for a literal
of plain elements, which its array syntax reads without quoting: the test is
membership in the list the literal was joined from. Reading the literal by
splitting it at the commas has that property, so the assumption can be met.
-/

namespace SqlArray

/-- The literal bound to an array parameter, built as
`"{" + strings.Join(xs, ",") + "}"`. -/
def arrayLiteral (xs : List String) : String :=
  "\x7b" ++ Boundary.Strings.join xs "," ++ "\x7d"

/-- An element the array syntax reads as it is written: letters, digits and
underscores, with an underscore, so neither empty nor the word `NULL`. -/
def PlainElem (x : String) : Prop :=
  '_' ∈ x.toList ∧ (x.toList.all fun c => c.isAlphanum || c == '_') = true

instance : DecidablePred PlainElem := fun _ =>
  inferInstanceAs (Decidable (_ ∧ _))

/-- What is assumed of the database's `x = any(a)`: on the literal of a list of
plain elements it is membership in the list. -/
def AnyIsMembership (anyOf : String → String → Bool) : Prop :=
  ∀ xs : List String, (∀ y ∈ xs, PlainElem y) → ∀ x, anyOf x (arrayLiteral xs) = true ↔ x ∈ xs

/-- `x = any(a)` read by splitting the text between the braces at the commas. -/
def anySplit (x a : String) : Bool :=
  let inner := String.ofList (a.toList.drop 1).dropLast
  inner ≠ "" && (Boundary.Strings.split inner ',').contains x

theorem comma_not_mem {x : String} (h : PlainElem x) : ',' ∉ x.toList := by
  intro hc
  have hcomma := List.all_eq_true.mp h.2 ',' hc
  revert hcomma
  decide

theorem inner_arrayLiteral (xs : List String) :
    String.ofList ((arrayLiteral xs).toList.drop 1).dropLast = Boundary.Strings.join xs "," := by
  simp [arrayLiteral]

/-- Splitting at the commas reads the literal of plain elements back, so the
assumption on the database can be met. -/
theorem anySplit_isMembership : AnyIsMembership anySplit := by
  intro xs hxs x
  unfold anySplit
  rw [inner_arrayLiteral]
  cases xs with
  | nil => simp [Boundary.Strings.join]
  | cons y ys =>
    have hsplit : Boundary.Strings.split (Boundary.Strings.join (y :: ys) ",") ',' = y :: ys :=
      Boundary.Strings.split_join (fun z hz => comma_not_mem (hxs z hz)) (List.cons_ne_nil _ _)
    -- the first element has an underscore, so the joined text is not empty
    have hne : Boundary.Strings.join (y :: ys) "," ≠ "" := by
      intro hempty
      rw [hempty] at hsplit
      have hy : y = "" := (List.cons.inj hsplit).1.symm
      have hunder := (hxs y List.mem_cons_self).1
      rw [hy] at hunder
      cases hunder
    simp [hne, hsplit]

end SqlArray
