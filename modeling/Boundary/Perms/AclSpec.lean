import Boundary.Perms.AclLoop

/-!
# Properties of `ACL.Allowed` over whole grant lists

With the lookup and the loop characterised, the ACL's decision is a property
of the set of grants: it is confined for the anonymous user, independent of the
order of the grants, and monotone in them.
-/

namespace Boundary.Perms

section Decision

variable {r : Resource} {aType : ActionType} {userId : String} {opts : Options}

/-- An authorizing grant for the anonymous user is one of case 1's. -/
theorem anonCase_of_authorizes {parentAction : ActionType} {grant : AclGrant}
    (hanon : anonRestricted userId opts = true)
    (h : authorizes r aType parentAction userId opts grant = true) :
    anonCase r aType grant = true := by
  simp only [authorizes, grantFound, hanon, if_true, Bool.and_eq_true] at h
  exact h.2

/-- Case 1 only admits listing and no-op on scopes and, additionally,
authenticating to auth methods. -/
theorem anonCase_confined {grant : AclGrant} (h : anonCase r aType grant = true) :
    (r.typ = .scope ∧ (aType = .list ∨ aType = .noOp)) ∨
      (r.typ = .authMethod ∧ (aType = .list ∨ aType = .noOp ∨ aType = .authenticate)) := by
  simp only [anonCase, Bool.or_eq_true, Bool.and_eq_true, beq_iff_eq] at h
  rcases h with ⟨⟨hr, hs⟩, ha⟩ | ⟨⟨hr, hs⟩, ha⟩
  · exact .inl ⟨hr ▸ hs, ha⟩
  · exact .inr ⟨hr ▸ hs, by tauto⟩

end Decision

/-- **Anonymous confinement.** Whatever grants the ACL holds, the anonymous
user (or a caller without a user id) is authorized at most to list or no-op
scopes and to list, no-op or authenticate to auth methods, unless the
restriction is explicitly skipped. -/
theorem allowed_anonymous_confined (grants : List Grant) (r : Resource) (aType : ActionType)
    (userId : String) (opts : Options) (huser : userId = anonymousUserId ∨ userId = "")
    (hopts : opts.withSkipAnonymousUserRestrictions = false)
    (hauth : ((newACL grants).allowed r aType userId opts).authorized = true) :
    (r.typ = .scope ∧ (aType = .list ∨ aType = .noOp)) ∨
      (r.typ = .authMethod ∧ (aType = .list ∨ aType = .noOp ∨ aType = .authenticate)) := by
  have hanon : anonRestricted userId opts = true := by
    rcases huser with rfl | rfl <;> simp [anonRestricted, hopts]
  obtain ⟨grant, -, hgrant⟩ := (allowed_eq (newACL grants) r aType userId opts).1.mp hauth
  exact anonCase_confined (anonCase_of_authorizes hanon hgrant)

/-- `type=scope;actions=list`, granted in `global` by a role in `global`. -/
def scopeListGrant : Grant where
  roleScopeId := globalScopeId
  roleParentScopeId := ""
  id := ""
  ids := []
  grantScopeId := globalScopeId
  typ := .scope
  actions := {.list}
  outputFields := .unset
  unknown_not_mem := unknown_not_mem_list
  id_or_ids := id_or_ids_empty

/-- The `global` scope, as the collection `list` is asked about. -/
def globalScopeResource : Resource := ⟨globalScopeId, "", .scope, "", ""⟩

theorem allowed_anonymous_confined_scope_list :
    ((newACL [scopeListGrant]).allowed globalScopeResource .list anonymousUserId {}).authorized =
        true ∧
      ((globalScopeResource.typ = .scope ∧ (ActionType.list = .list ∨ ActionType.list = .noOp)) ∨
        (globalScopeResource.typ = .authMethod ∧ (ActionType.list = .list ∨
          ActionType.list = .noOp ∨ ActionType.list = .authenticate))) :=
  ⟨by decide, allowed_anonymous_confined [scopeListGrant] globalScopeResource .list
    anonymousUserId {} (.inl rfl) rfl (by decide)⟩

section Algebra

variable {r : Resource} {aType parentAction : ActionType} {userId : String} {opts : Options}

/-- The collected fields depend only on the multiset of grants walked. -/
theorem collectedFields_perm {grants grants' : List AclGrant} (h : grants.Perm grants') :
    collectedFields r aType parentAction userId opts grants =
      collectedFields r aType parentAction userId opts grants' := by
  unfold collectedFields
  rw [← Multiset.sup_coe, ← Multiset.sup_coe]
  exact congrArg Multiset.sup (Multiset.coe_eq_coe.mpr ((h.filter _).map _))

end Algebra

/-- **Order independence.** Permuting the grants changes neither the decision of
`Allowed` nor the fields it reports. -/
theorem allowed_perm (grants grants' : List Grant) (hperm : grants.Perm grants') (r : Resource)
    (aType : ActionType) (userId : String) (opts : Options) :
    ((newACL grants).allowed r aType userId opts).authorized =
        ((newACL grants').allowed r aType userId opts).authorized ∧
      ((newACL grants).allowed r aType userId opts).outputFields.getFields =
        ((newACL grants').allowed r aType userId opts).outputFields.getFields := by
  have hp := perm_grantsFor_newACL hperm r
  obtain ⟨hauth, hfields⟩ := allowed_eq (newACL grants) r aType userId opts
  obtain ⟨hauth', hfields'⟩ := allowed_eq (newACL grants') r aType userId opts
  refine ⟨Bool.eq_iff_iff.mpr ?_, ?_⟩
  · rw [hauth, hauth']
    exact exists_congr fun grant => and_congr_left' hp.mem_iff
  · rw [OutputFields.getFields_eq_iff, hfields, hfields', collectedFields_perm hp]

/-- `ids=*;type=*;actions=read`, granted to the descendants of `global`. -/
def descendantsReadGrant : Grant where
  roleScopeId := globalScopeId
  roleParentScopeId := ""
  id := ""
  ids := ["*"]
  grantScopeId := grantScopeDescendants
  typ := .all
  actions := {.read}
  outputFields := .unset
  unknown_not_mem := by decide
  id_or_ids := .inl rfl

theorem allowed_perm_swap :
    [scopeListGrant, descendantsReadGrant].Perm [descendantsReadGrant, scopeListGrant] ∧
      ((newACL [scopeListGrant, descendantsReadGrant]).allowed globalScopeResource .list
          "u_1234567890" {}).authorized =
        ((newACL [descendantsReadGrant, scopeListGrant]).allowed globalScopeResource .list
          "u_1234567890" {}).authorized ∧
      ((newACL [scopeListGrant, descendantsReadGrant]).allowed globalScopeResource .list
          "u_1234567890" {}).outputFields.getFields =
        ((newACL [descendantsReadGrant, scopeListGrant]).allowed globalScopeResource .list
          "u_1234567890" {}).outputFields.getFields :=
  ⟨List.Perm.swap _ _ _, allowed_perm _ _ (List.Perm.swap _ _ _) _ _ _ _⟩

/-- **Monotonicity.** Adding grants never withdraws an authorization. -/
theorem allowed_append_mono (grants extra : List Grant) (r : Resource) (aType : ActionType)
    (userId : String) (opts : Options)
    (hauth : ((newACL grants).allowed r aType userId opts).authorized = true) :
    ((newACL (grants ++ extra)).allowed r aType userId opts).authorized = true := by
  obtain ⟨ag, hmem, hag⟩ := (allowed_eq (newACL grants) r aType userId opts).1.mp hauth
  refine (allowed_eq (newACL (grants ++ extra)) r aType userId opts).1.mpr ⟨ag, ?_, hag⟩
  obtain ⟨grant, hgrant, happ, x, hx, rfl⟩ := mem_grantsFor_newACL.mp hmem
  exact mem_grantsFor_newACL.mpr ⟨grant, List.mem_append_left _ hgrant, happ, x, hx, rfl⟩

theorem allowed_append_mono_scope_list :
    ((newACL [scopeListGrant]).allowed globalScopeResource .list "u_1234567890" {}).authorized =
        true ∧
      ((newACL ([scopeListGrant] ++ [descendantsReadGrant])).allowed globalScopeResource .list
        "u_1234567890" {}).authorized = true :=
  ⟨by decide, allowed_append_mono [scopeListGrant] [descendantsReadGrant] globalScopeResource
    .list "u_1234567890" {} (by decide)⟩

end Boundary.Perms
