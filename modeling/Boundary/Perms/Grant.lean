import Boundary.Types.Action
import Boundary.Types.Resource
import Boundary.Globals
import Boundary.Perms.OutputFields

/-!
# Grants, ACL grants and resources

A parsed `Grant` may name several ids; `NewACL` files one `AclGrant` per id.
`Resource` is what `ACL.Allowed` is asked about. The two invariants that the
grant parser establishes on every path (with or without its final validation)
are fields of `Grant`, so no other value can be built.
-/

namespace Boundary.Perms

/-- `perms.Grant`, as `Parse` returns it. -/
structure Grant where
  roleScopeId : String
  roleParentScopeId : String
  /-- The deprecated single id. -/
  id : String
  ids : List String
  grantScopeId : String
  typ : ResourceType
  actions : Finset ActionType
  outputFields : OutputFields
  /-- `parseAndValidateActions` rejects every name that `action.Map` does not know. -/
  unknown_not_mem : ActionType.unknown ∉ actions
  /-- `Parse` rejects a grant string with both an `id` and an `ids` field. -/
  id_or_ids : id = "" ∨ ids = []

/-- The action set of a grant of the list action alone holds no `unknown`. -/
theorem unknown_not_mem_list : ActionType.unknown ∉ ({.list} : Finset ActionType) := by
  decide

/-- A grant with neither an id nor ids has at most one of them. -/
theorem id_or_ids_empty : ("" : String) = "" ∨ ([] : List String) = [] :=
  .inl rfl

/-- `perms.AclGrant`: one grant with a single id. -/
structure AclGrant where
  roleScopeId : String
  roleParentScopeId : String
  grantScopeId : String
  id : String
  typ : ResourceType
  actionSet : Finset ActionType
  outputFields : OutputFields

/-- `perms.Resource`. -/
structure Resource where
  scopeId : String
  id : String
  typ : ResourceType
  pin : String
  parentScopeId : String

/-- The `perms.options` that `getOpts` assembles. -/
structure Options where
  withUserId : String := ""
  withAccountId : String := ""
  withSkipFinalValidation : Bool := false
  withSkipAnonymousUserRestrictions : Bool := false

namespace Grant

/-- The ids `NewACL` explodes a grant into: its `ids`, or else the single
deprecated `id`, which is empty when the grant has none. -/
def aclIds (grant : Grant) : List String :=
  if grant.ids = [] then [grant.id] else grant.ids

theorem mem_aclIds {grant : Grant} {x : String} :
    x ∈ grant.aclIds ↔ x ∈ grant.ids ∨ (grant.ids = [] ∧ x = grant.id) := by
  unfold aclIds
  split <;> rename_i h <;> simp [h]

end Grant

/-- `aclGrantFromGrant`. -/
def aclGrantFromGrant (grant : Grant) (id : String) : AclGrant where
  roleScopeId := grant.roleScopeId
  roleParentScopeId := grant.roleParentScopeId
  grantScopeId := grant.grantScopeId
  id := id
  typ := grant.typ
  actionSet := grant.actions
  outputFields := grant.outputFields

end Boundary.Perms
