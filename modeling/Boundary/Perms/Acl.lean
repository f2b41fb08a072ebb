import Boundary.Perms.Grant

/-!
# The ACL

`NewACL` files every exploded grant under one of three indexes: grants for a
named scope under that scope, `children` grants under the scope of their role,
and `descendants` grants in a flat list. `Allowed` looks a resource up in all
three and walks the grants it finds in order, stopping early once it is
authorized and has collected the `*` output field.
-/

namespace Boundary.Perms

/-- `perms.ACL`. A Go map reads a missing key as an empty slice, so each map is
a function into lists. -/
structure ACL where
  directScopeMap : String → List AclGrant
  childrenScopeMap : String → List AclGrant
  descendantsGrants : List AclGrant

/-- `perms.ACLResults`, without the copies of the indexes kept for debugging. -/
structure ACLResults where
  authenticationFinished : Bool
  authorized : Bool
  outputFields : OutputFields

namespace ACL

/-- The ACL of `NewACL` before any grant is filed. -/
def empty : ACL := ⟨fun _ => [], fun _ => [], []⟩

/-- `m[k] = append(m[k], g)`. -/
def appendAt (m : String → List AclGrant) (k : String) (g : AclGrant) : String → List AclGrant :=
  fun k' => if k' = k then m k' ++ [g] else m k'

/-- The body of the id loop of `NewACL`. -/
def fileGrant (acl : ACL) (grant : Grant) (id : String) : ACL :=
  if grant.grantScopeId = grantScopeDescendants then
    { acl with descendantsGrants := acl.descendantsGrants ++ [aclGrantFromGrant grant id] }
  else if grant.grantScopeId = grantScopeChildren then
    -- keyed by the role's scope: the grant applies to the scopes below it
    { acl with childrenScopeMap :=
        appendAt acl.childrenScopeMap grant.roleScopeId (aclGrantFromGrant grant id) }
  else
    { acl with directScopeMap :=
        appendAt acl.directScopeMap grant.grantScopeId (aclGrantFromGrant grant id) }

end ACL

/-- `NewACL`. -/
def newACL (grants : List Grant) : ACL :=
  grants.foldl (fun acl grant => grant.aclIds.foldl (fun acl id => acl.fileGrant grant id) acl)
    ACL.empty

namespace ACL

/-- The grants `Allowed` considers for a resource: those of its scope, the
`children` grants of its parent scope and, outside `global`, every
`descendants` grant. -/
def grantsFor (a : ACL) (r : Resource) : List AclGrant :=
  a.directScopeMap r.scopeId ++ a.childrenScopeMap r.parentScopeId ++
    (if r.scopeId ≠ globalScopeId then a.descendantsGrants else [])

end ACL

section Allowed

variable (r : Resource) (aType parentAction : ActionType) (userId : String) (opts : Options)

/-- The first switch of the grant loop of `Allowed`: `none` continues with the
next grant, `some outputFieldsOnly` goes on to the id and type cases. -/
def actionCheck (grant : AclGrant) : Option Bool :=
  if grant.actionSet = ∅ then
    -- no actions: only output fields may still apply
    if grant.outputFields.getFields.isSome then some true else none
  else if aType ∈ grant.actionSet then some false
  else if parentAction ∈ grant.actionSet then some false
  else if ActionType.all ∈ grant.actionSet then some false
  else none

/-- The anonymous-user restriction of case 1 is in force. -/
def anonRestricted : Bool :=
  !opts.withSkipAnonymousUserRestrictions && (userId == anonymousUserId || userId == "")

/-- Case 1: the only grants that match for the anonymous user. -/
def anonCase (grant : AclGrant) : Bool :=
  (grant.typ == r.typ && grant.typ == .scope && (aType == .list || aType == .noOp)) ||
  (grant.typ == r.typ && grant.typ == .authMethod &&
    (aType == .list || aType == .noOp || aType == .authenticate))

/-- Case 2: a specific, non-wildcard id on a non-collection action. -/
def idCase (grant : AclGrant) : Bool :=
  grant.id == r.id && grant.id != "" && grant.id != "*" &&
    (grant.typ == .unknown || grant.typ == resourceInfoFromPrefix grant.id) &&
    !ActionType.list.isActionOrParent aType && !ActionType.create.isActionOrParent aType

/-- Case 3: a type without an id, for `list` or `create` on a top-level collection. -/
def collectionCase (grant : AclGrant) : Bool :=
  grant.id == "" && r.id == "" && grant.typ == r.typ && grant.typ != .unknown &&
    r.typ.topLevelType &&
    (ActionType.list.isActionOrParent aType || ActionType.create.isActionOrParent aType)

/-- Case 4: the wildcard id with a matching or wildcard type. -/
def wildcardCase (grant : AclGrant) : Bool :=
  grant.id == "*" && grant.typ != .unknown && (grant.typ == r.typ || grant.typ == .all)

/-- Case 5: the id is the pin of a resource of a non-top-level type. -/
def pinCase (grant : AclGrant) : Bool :=
  grant.id != "" && grant.id == r.pin && grant.typ != .unknown &&
    (grant.typ == r.typ || grant.typ == .all) && !r.typ.topLevelType

/-- The second switch of the grant loop: case 1 alone decides for the
anonymous user; otherwise the first of cases 2 to 5 that holds. -/
def grantFound (grant : AclGrant) : Bool :=
  if anonRestricted userId opts then anonCase r aType grant
  else idCase r aType grant || collectionCase r aType grant || wildcardCase r grant ||
    pinCase r grant

/-- The grant loop of `Allowed`. -/
def allowedLoop : List AclGrant → ACLResults → ACLResults
  | [], results => results
  | grant :: grants, results =>
    match actionCheck aType parentAction grant with
    | none => allowedLoop grants results
    | some outputFieldsOnly =>
      if grantFound r aType userId opts grant then
        let results : ACLResults :=
          { results with
            authorized := results.authorized || !outputFieldsOnly
            outputFields := results.outputFields.addFields grant.outputFields.getFields }
        -- the early return once authorized with every field
        if results.outputFields.has "*" && results.authorized then results
        else allowedLoop grants results
      else allowedLoop grants results

end Allowed

/-- `ACL.Allowed`. -/
def ACL.allowed (a : ACL) (r : Resource) (aType : ActionType) (userId : String)
    (opts : Options) : ACLResults :=
  allowedLoop r aType aType.parentAction userId opts (a.grantsFor r) ⟨false, false, .unset⟩

end Boundary.Perms
