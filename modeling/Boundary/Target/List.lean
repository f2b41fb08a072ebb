import Boundary.Perms.ListPermissions
import Boundary.Sql.AnyArray

/-!
# Listing targets

`ListTargets` asks `ACL.ListPermissions` for the permissions of the requested
scopes with the target id actions, and the target repository turns them into
the where clause of its list query: one disjunct per `list` permission, on the
project and, unless the permission is for all ids, on the ids, bound as an
array literal. The database's reading of `public_id = any(@public_id_n)` is a
parameter, assumed to be membership on literals of plain ids.

The main results say that this query selects a target in a requested project
exactly when `Allowed` authorizes one of the id actions on it, when the ids the
grants name are plain: completeness for every user the anonymous restriction
does not apply to, soundness for every such user but the recovery user when the
grants name specific target ids with no type or the target type.
-/

namespace Boundary.Target

open Perms SqlArray
open Auth (ScopeInfo)

/-- `targets.IdActions`. -/
def idActions : Finset ActionType :=
  {.noOp, .read, .update, .delete, .addHostSources, .setHostSources, .removeHostSources,
    .addCredentialSources, .setCredentialSources, .removeCredentialSources, .authorizeSession}

/-- No target id action has a parent action. -/
theorem parentAction_idActions : ∀ x ∈ idActions, x.parentAction = .unknown := by
  simp only [idActions, Finset.mem_insert, Finset.mem_singleton, forall_eq_or_imp, forall_eq]
  decide

/-- No target id action is `list`, `create` or one of their sub-actions. -/
theorem not_collection_idActions : ∀ x ∈ idActions,
    ActionType.list.isActionOrParent x = false ∧ ActionType.create.isActionOrParent x = false := by
  simp only [idActions, Finset.mem_insert, Finset.mem_singleton, forall_eq_or_imp, forall_eq]
  decide

/-- A disjunct of the where clause of the list query: the project its
`project_id = @project_id_n` test compares with, and the array literal bound to
`@public_id_n` in its `public_id = any(@public_id_n)` test when it has one. -/
structure WhereClause where
  projectId : String
  publicIds : Option String
  deriving DecidableEq, Repr

/-- `Repository.listPermissionWhereClauses`, each disjunct read as the test it
spells: permissions for other actions are skipped, and the ids are tested only
when there are some and the permission is not for all of them. -/
def listPermissionWhereClauses (permissions : List Permission) : List WhereClause :=
  permissions.filterMap fun p =>
    if p.action ≠ .list then none
    else some ⟨p.grantScopeId,
      if p.resourceIds.length > 0 ∧ !p.all then some (arrayLiteral p.resourceIds) else none⟩

/-- A target row satisfies the disjunct, where the database reads
`x = any(a)` as `anyOf x a`. -/
def WhereClause.Selects (anyOf : String → String → Bool) (c : WhereClause)
    (projectId publicId : String) : Prop :=
  c.projectId = projectId ∧ ∀ ids ∈ c.publicIds, anyOf publicId ids = true

/-- The list query, whose permission clause is the disjunction of the
disjuncts, selects the target with this project and id. -/
def Listed (anyOf : String → String → Bool) (permissions : List Permission)
    (projectId publicId : String) : Prop :=
  ∃ c ∈ listPermissionWhereClauses permissions, c.Selects anyOf projectId publicId

instance (anyOf : String → String → Bool) (permissions : List Permission)
    (projectId publicId : String) : Decidable (Listed anyOf permissions projectId publicId) := by
  unfold Listed WhereClause.Selects; infer_instance

/-- Over `list` permissions that were found and name plain ids only, the query
selects a target exactly when a permission for its project covers its id,
whenever the database's `any` is membership on such literals. -/
theorem listed_iff_covers {anyOf : String → String → Bool} (hdb : AnyIsMembership anyOf)
    {permissions : List Permission} (hfound : ∀ p ∈ permissions, p.action = .list ∧ p.found = true)
    (hplain : ∀ p ∈ permissions, ∀ x ∈ p.resourceIds, PlainElem x) {projectId publicId : String} :
    Listed anyOf permissions projectId publicId ↔
      ∃ p ∈ permissions, p.grantScopeId = projectId ∧ p.Covers publicId := by
  simp only [Listed, listPermissionWhereClauses, List.mem_filterMap]
  constructor
  · rintro ⟨c, ⟨p, hp, hc⟩, hproject, hids⟩
    rw [if_neg (by simpa using (hfound p hp).1)] at hc
    cases hc
    refine ⟨p, hp, hproject, ?_⟩
    by_cases hall : p.all = true
    · exact .inl hall
    · -- a found permission not for all ids has some, and the clause tests them
      have hne : p.resourceIds.length > 0 := by
        have := (hfound p hp).2
        simp only [Permission.found, hall, Bool.false_or, Bool.not_eq_true',
          List.isEmpty_eq_false_iff] at this
        exact List.length_pos_iff.mpr this
      have hany := hids (arrayLiteral p.resourceIds) (by simp [hne, hall])
      exact .inr ((hdb _ (hplain p hp) publicId).mp hany)
  · rintro ⟨p, hp, hproject, hcov⟩
    refine ⟨_, ⟨p, hp, by rw [if_neg (by simpa using (hfound p hp).1)]⟩, hproject, ?_⟩
    intro ids hids
    rcases hcov with hall | hmem
    · simp [hall] at hids
    · split at hids
      · cases hids
        exact (hdb _ (hplain p hp) publicId).mpr hmem
      · cases hids

/-! ## The ids the grants name -/

theorem exists_of_mem_directScopeMap {grants : List Grant} {k : String} {g : AclGrant}
    (h : g ∈ (newACL grants).directScopeMap k) :
    ∃ grant ∈ grants, (grant.IsDirect ∧ grant.grantScopeId = k) ∧
      ∃ x ∈ grant.aclIds, g = aclGrantFromGrant grant x := by
  simp only [newACL_directScopeMap, List.mem_flatMap, ACL.mem_directStep] at h
  obtain ⟨grant, hgrant, x, hx, hc, rfl⟩ := h
  exact ⟨grant, hgrant, hc, x, hx, rfl⟩

theorem exists_of_mem_childrenScopeMap {grants : List Grant} {k : String} {g : AclGrant}
    (h : g ∈ (newACL grants).childrenScopeMap k) :
    ∃ grant ∈ grants, (grant.grantScopeId = grantScopeChildren ∧ grant.roleScopeId = k) ∧
      ∃ x ∈ grant.aclIds, g = aclGrantFromGrant grant x := by
  simp only [newACL_childrenScopeMap, List.mem_flatMap, ACL.mem_childrenStep] at h
  obtain ⟨grant, hgrant, x, hx, hc, rfl⟩ := h
  exact ⟨grant, hgrant, hc, x, hx, rfl⟩

theorem exists_of_mem_descendantsGrants {grants : List Grant} {g : AclGrant}
    (h : g ∈ (newACL grants).descendantsGrants) :
    ∃ grant ∈ grants, grant.grantScopeId = grantScopeDescendants ∧
      ∃ x ∈ grant.aclIds, g = aclGrantFromGrant grant x := by
  simp only [newACL_descendantsGrants, List.mem_flatMap, ACL.mem_descendantsStep] at h
  obtain ⟨grant, hgrant, x, hx, hc, rfl⟩ := h
  exact ⟨grant, hgrant, hc, x, hx, rfl⟩

/-- A grant filed under any index of the ACL was exploded from an input grant. -/
theorem exists_of_mem_index {grants : List Grant} {g : AclGrant}
    (h : g ∈ (newACL grants).descendantsGrants ∨ (∃ k, g ∈ (newACL grants).childrenScopeMap k) ∨
      ∃ k, g ∈ (newACL grants).directScopeMap k) :
    ∃ grant ∈ grants, ∃ x ∈ grant.aclIds, g = aclGrantFromGrant grant x := by
  rcases h with h | ⟨k, h⟩ | ⟨k, h⟩
  · obtain ⟨grant, hgrant, -, x, hx, rfl⟩ := exists_of_mem_descendantsGrants h
    exact ⟨grant, hgrant, x, hx, rfl⟩
  · obtain ⟨grant, hgrant, -, x, hx, rfl⟩ := exists_of_mem_childrenScopeMap h
    exact ⟨grant, hgrant, x, hx, rfl⟩
  · obtain ⟨grant, hgrant, -, x, hx, rfl⟩ := exists_of_mem_directScopeMap h
    exact ⟨grant, hgrant, x, hx, rfl⟩

/-- The grant's ids are as Boundary generates them: each, but the empty id and
the wildcard, is a plain element of an array literal. -/
def IdsPlain (grant : Grant) : Prop :=
  ∀ x ∈ grant.aclIds, x = "" ∨ x = "*" ∨ PlainElem x

instance (grant : Grant) : Decidable (IdsPlain grant) := by
  unfold IdsPlain; infer_instance

/-- An id that a walk of the ACL's grants records is plain. -/
theorem plain_of_mem_resourceIds_foldl {grants : List Grant} (hplain : ∀ g ∈ grants, IdsPlain g)
    {walked : List AclGrant} {requestedType : ResourceType} {idActions : Finset ActionType}
    {p : Permission} (hp : ∀ x ∈ p.resourceIds, PlainElem x)
    (hwalked : ∀ g ∈ walked, g ∈ (newACL grants).descendantsGrants ∨
      (∃ k, g ∈ (newACL grants).childrenScopeMap k) ∨ ∃ k, g ∈ (newACL grants).directScopeMap k)
    {x : String} (hx : x ∈ (walked.foldl (permissionStep requestedType idActions) p).resourceIds) :
    PlainElem x := by
  rcases mem_resourceIds_foldl hx with h | ⟨g, hg, -, rfl, hstar, hempty⟩
  · exact hp x h
  · obtain ⟨grant, hgrant, y, hy, rfl⟩ := exists_of_mem_index (hwalked g hg)
    rcases hplain grant hgrant y hy with h | h | h
    · exact absurd h hempty
    · exact absurd h hstar
    · exact h

/-- The ids the permissions of the list name are plain when the grants' are. -/
theorem plain_of_mem_listPermissions {grants : List Grant}
    (hplain : ∀ g ∈ grants, IdsPlain g) {scopes : AList fun _ : String => Option ScopeInfo}
    {requestedType : ResourceType} {idActions : Finset ActionType} {userId : String}
    {p : Permission} (hp : p ∈ (newACL grants).listPermissions scopes requestedType idActions userId) :
    ∀ x ∈ p.resourceIds, PlainElem x := by
  intro x hx
  obtain ⟨scopeId, scopeInfo, -, hstep⟩ := mem_listPermissions.mp hp
  obtain ⟨info, -, hbuilt⟩ := mem_listPermissionsStep.mp hstep
  split at hbuilt
  · -- the recovery user's permission is for all ids and names none
    subst hbuilt
    simp [listPermission] at hx
  · rw [hbuilt.2, buildPermission_some] at hx
    exact plain_of_mem_resourceIds_foldl hplain (by simp [listPermission])
      (fun _ => mem_index_of_mem_scopeGrants) hx

/-- A project of an org, as the listing helpers record it. -/
def projectInfo : ScopeInfo := ⟨"p_1234567890", "project", "", "", "o_1234567890"⟩

/-- The scopes of a list request for that project alone. -/
def projectScopes : AList fun _ : String => Option ScopeInfo :=
  AList.singleton projectInfo.id (some projectInfo)

section Agreement

variable {grants : List Grant} {scopes : AList fun _ : String => Option ScopeInfo}
  {info : ScopeInfo} {userId : String} {opts : Options} {publicId pin : String}
  {anyOf : String → String → Bool}

/-- **Listing targets never hides one.** When every role has a scope and the
grants' ids are plain, the list query of a requested project selects every
target in it on which `Allowed` authorizes an id action, for every user the
anonymous restriction does not apply to, on a database whose `any` is membership
on literals of plain ids. -/
theorem listed_of_allowed (hdb : AnyIsMembership anyOf) (hplain : ∀ g ∈ grants, IdsPlain g)
    (hroles : ∀ g ∈ grants, g.roleScopeId ≠ "")
    (hinfo : scopes.lookup info.id = some (some info)) (hs : info.id ≠ "")
    (hanon : anonRestricted userId opts = false)
    (hid : resourceInfoFromPrefix publicId = .target) {aType : ActionType}
    (haType : aType ∈ idActions)
    (hallowed : ((newACL grants).allowed ⟨info.id, publicId, .target, pin, info.parentScopeId⟩
      aType userId opts).authorized = true) :
    Listed anyOf ((newACL grants).listPermissions scopes .target idActions userId) info.id
      publicId := by
  rw [listed_iff_covers hdb (fun _ hp => found_of_mem_listPermissions hp)
    (fun _ hp => plain_of_mem_listPermissions hplain hp)]
  have hparent : ∀ x ∈ idActions, x.parentAction = .unknown ∨ x.parentAction ∈ idActions :=
    fun x hx => .inl (parentAction_idActions x hx)
  exact covers_of_allowed hroles hinfo hs (by decide) hparent hanon hid haType hallowed

/-- `ids=*;type=*;actions=read` in the descendants of global lets the list of a
project show its targets, on a database that splits literals at the commas. -/
theorem listed_of_allowed_descendants_read :
    Listed anySplit ((newACL [descendantsReadGrant]).listPermissions projectScopes .target
      idActions "u_1234567890") projectInfo.id "ttcp_1234567890" :=
  @listed_of_allowed [descendantsReadGrant] projectScopes projectInfo "u_1234567890" {}
    "ttcp_1234567890" "" anySplit anySplit_isMembership (by decide) (by decide) (by decide)
    (by decide) (by decide) (by decide) .read (by decide) (by decide)

/-- **Listing targets never shows one too many.** For every user but the
recovery user that the anonymous restriction does not apply to, when the grants
name specific ids only with no type or the ids' own and their ids are plain, a
target that the list query of a requested project selects, on a database whose
`any` is membership on literals of plain ids, has an id action that `Allowed`
authorizes. -/
theorem allowed_of_listed (hdb : AnyIsMembership anyOf) (hplain : ∀ g ∈ grants, IdsPlain g)
    (htyped : ∀ g ∈ grants, g.IdsTyped)
    (hinfo : scopes.lookup info.id = some (some info)) (hs : info.id ≠ "")
    (hanon : anonRestricted userId opts = false) (hrec : userId ≠ recoveryUserId)
    (hid : resourceInfoFromPrefix publicId = .target)
    (hlisted : Listed anyOf ((newACL grants).listPermissions scopes .target idActions userId)
      info.id publicId) :
    ∃ aType ∈ idActions, ((newACL grants).allowed ⟨info.id, publicId, .target, pin,
      info.parentScopeId⟩ aType userId opts).authorized = true := by
  rw [listed_iff_covers hdb (fun _ hp => found_of_mem_listPermissions hp)
    (fun _ hp => plain_of_mem_listPermissions hplain hp)] at hlisted
  have hne : idActions.Nonempty := ⟨.read, by decide⟩
  exact allowed_of_covers htyped hinfo hs (by decide) (by decide) hne not_collection_idActions
    hanon hrec hid hlisted

/-- The target that the list of the project shows under
`ids=*;type=*;actions=read`, on a database that splits literals at the commas,
may be read. -/
theorem allowed_of_listed_descendants_read :
    ∃ aType ∈ idActions, ((newACL [descendantsReadGrant]).allowed
      ⟨projectInfo.id, "ttcp_1234567890", .target, "", projectInfo.parentScopeId⟩ aType
      "u_1234567890" {}).authorized = true :=
  @allowed_of_listed [descendantsReadGrant] projectScopes projectInfo "u_1234567890" {}
    "ttcp_1234567890" "" anySplit anySplit_isMembership (by decide) (by decide) (by decide)
    (by decide) (by decide) (by decide) (by decide) (by decide)

end Agreement

end Boundary.Target
