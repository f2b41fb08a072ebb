import Mathlib

/-!
# Global identifiers

The constants of the `globals` package and of the `scope` package that the
modelled authorization and token code compares against.
-/

namespace Boundary

/-- `globals.AnonymousUserId`. -/
def anonymousUserId : String := "u_anon"

/-- `globals.RecoveryUserId`. -/
def recoveryUserId : String := "u_recovery"

/-- `globals.GrantScopeChildren`. -/
def grantScopeChildren : String := "children"

/-- `globals.GrantScopeDescendants`. -/
def grantScopeDescendants : String := "descendants"

/-- `scope.Global.String()`. -/
def globalScopeId : String := "global"

/-- `globals.ServiceTokenV1`, the version prefix of encrypted auth tokens. -/
def serviceTokenV1 : String := "s1"

@[simp] theorem grantScopeChildren_ne_descendants : grantScopeChildren ≠ grantScopeDescendants := by
  decide

@[simp] theorem grantScopeDescendants_ne_children : grantScopeDescendants ≠ grantScopeChildren := by
  decide

end Boundary
