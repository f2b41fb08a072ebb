import Boundary.Globals

/-!
# Errors

The modelled functions fail with an error built by `errors.New` (a code and a
message), with the API's forbidden answer, with an error they receive from a
dependency (a repository, a callback, a library) and pass on, or with a Go
runtime error: a slice or index out of range or a nil dereference, which panics.
-/

namespace Boundary

/-- `errors.Code`, for the codes the modelled functions use. -/
inductive Code where
  | invalidParameter | internal | invalidListToken | unknown | keyNotFound | encode | decode | io
  | invalidConfiguration
  deriving DecidableEq, Repr

/-- The ways a modelled function fails. -/
inductive Error where
  /-- `errors.New(ctx, code, op, msg)`; the operation name is not modelled. -/
  | new (code : Code) (msg : String)
  /-- `handlers.ForbiddenError()`. -/
  | forbidden
  /-- An error returned by a dependency and passed on, wrapped or not. -/
  | passed (msg : String)
  /-- A Go runtime error, which panics the goroutine. -/
  | runtimeError (msg : String)
  deriving DecidableEq, Repr

/-- `errors.Wrap(ctx, err, op, errors.WithMsg(msg))`: the code of the wrapped
error when it is one of the package's, `Unknown` otherwise, and the new message
(empty without `WithMsg`). A panic is not an error value and goes on as it is. -/
def Error.wrap (msg : String) : Error → Error
  | .new code _ => .new code msg
  | .runtimeError m => .runtimeError m
  | _ => .new .unknown msg

/-- A Go validation `switch { case c1: return err1; ... }`: the message of the
first check that fails, with the given code. -/
def checkAll (code : Code) (checks : List (Bool × String)) : Except Error Unit :=
  match checks.find? (·.1) with
  | some (_, msg) => .error (.new code msg)
  | none => .ok ()

@[simp] theorem checkAll_eq_ok_iff (code : Code) (checks : List (Bool × String)) :
    checkAll code checks = .ok () ↔ ∀ c ∈ checks, c.1 = false := by
  unfold checkAll
  cases h : checks.find? (·.1) with
  | some c =>
    simp only [reduceCtorEq, false_iff, not_forall, Bool.not_eq_false]
    exact ⟨c, List.mem_of_find?_eq_some h, List.find?_some h⟩
  | none =>
    simp only [true_iff]
    intro c hc
    simpa using List.find?_eq_none.mp h c hc

/-- Two validations in sequence pass exactly when both do. -/
theorem seq_eq_ok {ε : Type} (x y : Except ε Unit) :
    (x >>= fun _ => y) = .ok () ↔ x = .ok () ∧ y = .ok () := by
  cases x with
  | error e => exact ⟨fun h => (nomatch h), fun h => (nomatch h.1)⟩
  | ok u => exact ⟨fun h => ⟨rfl, h⟩, fun h => h.2⟩

end Boundary
