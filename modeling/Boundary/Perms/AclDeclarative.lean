import Boundary.Perms.AclSpec

/-!
# A declarative specification of `ACL.Allowed`

For a user the anonymous restriction does not hold for, `Allowed` authorizes
exactly when some grant with actions applies to the resource's scope, covers the
requested action and matches with one of its ids in one of the id and type
patterns. The specification reads the grants as given: the three indexes, the
explosion of multi-id grants, the parent action derived by splitting the action
name and the early return are all invisible in it.
-/

namespace Boundary.Perms

namespace Grant

/-- The grant's actions cover the requested action: the action itself, its
parent `p` when its name has the form `p:s`, or `*`. -/
def CoversAction (grant : Grant) (aType : ActionType) : Prop :=
  aType ∈ grant.actions ∨
    (∃ p s, Strings.split aType.toString ':' = [p, s] ∧ ∃ b ∈ grant.actions, b.toString = p) ∨
    ActionType.all ∈ grant.actions

end Grant

/-- The id and type patterns for an id `x` of a grant of type `typ`: a specific
id, a collection, the wildcard id, or a pin. -/
def IdTypeMatches (x : String) (typ : ResourceType) (r : Resource) (aType : ActionType) : Prop :=
  (x = r.id ∧ x ≠ "" ∧ x ≠ "*" ∧ (typ = .unknown ∨ typ = resourceInfoFromPrefix x) ∧
      ActionType.list.isActionOrParent aType = false ∧
      ActionType.create.isActionOrParent aType = false) ∨
    (x = "" ∧ r.id = "" ∧ typ = r.typ ∧ r.typ.topLevelType = true ∧
      (ActionType.list.isActionOrParent aType = true ∨
        ActionType.create.isActionOrParent aType = true)) ∨
    (x = "*" ∧ typ ≠ .unknown ∧ (typ = r.typ ∨ typ = .all)) ∨
    (x ≠ "" ∧ x = r.pin ∧ typ ≠ .unknown ∧ (typ = r.typ ∨ typ = .all) ∧
      r.typ.topLevelType = false)

/-- Some grant with actions applies to the resource's scope, covers the action
and matches with one of its ids. -/
def AllowedSpec (grants : List Grant) (r : Resource) (aType : ActionType) : Prop :=
  ∃ grant ∈ grants, grant.actions ≠ ∅ ∧ grant.AppliesTo r ∧ grant.CoversAction aType ∧
    ∃ x ∈ grant.aclIds, IdTypeMatches x grant.typ r aType

/-- The parent action derived from the name is among the grant's actions exactly
when the name has the form `p:s` with `p` the name of one of them. -/
theorem parentAction_mem_iff {actions : Finset ActionType} (hunknown : ActionType.unknown ∉ actions)
    (aType : ActionType) :
    aType.parentAction ∈ actions ↔
      ∃ p s, Strings.split aType.toString ':' = [p, s] ∧ ∃ b ∈ actions, b.toString = p := by
  unfold ActionType.parentAction
  split
  · rename_i p s hsplit
    constructor
    · intro hmem
      have hne : ActionType.map p ≠ .unknown := fun h => hunknown (h ▸ hmem)
      exact ⟨p, s, hsplit, _, hmem, ActionType.toString_of_map_eq rfl hne⟩
    · rintro ⟨p', s', hsplit', b, hb, rfl⟩
      rw [hsplit] at hsplit'
      obtain ⟨rfl, -⟩ := List.cons.inj hsplit'
      have hne : b ≠ .unknown := fun h => hunknown (h ▸ hb)
      rwa [(ActionType.map_eq_iff hne).mpr rfl]
  · rename_i hshape
    constructor
    · intro hmem
      exact absurd hmem hunknown
    · rintro ⟨p, s, hsplit, -⟩
      exact absurd hsplit (hshape p s)

/-- The action switch lets an exploded grant through with its actions exactly
when the grant has actions and they cover the requested one. -/
theorem actionCheck_eq_some_false_iff (grant : Grant) (x : String) (aType : ActionType) :
    actionCheck aType aType.parentAction (aclGrantFromGrant grant x) = some false ↔
      grant.actions ≠ ∅ ∧ grant.CoversAction aType := by
  have hparent := parentAction_mem_iff grant.unknown_not_mem aType
  unfold actionCheck Grant.CoversAction
  simp only [aclGrantFromGrant]
  by_cases hempty : grant.actions = ∅
  · simp only [hempty, if_true, ne_eq, not_true_eq_false, false_and, iff_false]
    by_cases hset : grant.outputFields.getFields.isSome = true <;> simp [hset]
  · simp only [ne_eq, hempty, not_false_eq_true, true_and, ← hparent]
    by_cases ha : aType ∈ grant.actions
    · simp [ha]
    · by_cases hp : aType.parentAction ∈ grant.actions
      · simp [ha, hp]
      · by_cases hall : ActionType.all ∈ grant.actions <;> simp [ha, hp, hall]

/-- The collection pattern's test that the type is known follows from the
resource's type being a top-level one. -/
theorem collectionCase_iff {r : Resource} {aType : ActionType} {x : String} {typ : ResourceType} :
    (x = "" ∧ r.id = "" ∧ typ = r.typ ∧ typ ≠ .unknown ∧ r.typ.topLevelType = true ∧
        (ActionType.list.isActionOrParent aType = true ∨
          ActionType.create.isActionOrParent aType = true)) ↔
      (x = "" ∧ r.id = "" ∧ typ = r.typ ∧ r.typ.topLevelType = true ∧
        (ActionType.list.isActionOrParent aType = true ∨
          ActionType.create.isActionOrParent aType = true)) := by
  constructor
  · rintro ⟨hx, hid, htyp, -, htop, hact⟩
    exact ⟨hx, hid, htyp, htop, hact⟩
  · rintro ⟨hx, hid, htyp, htop, hact⟩
    exact ⟨hx, hid, htyp, htyp ▸ ResourceType.topLevelType_ne_unknown htop, htop, hact⟩

/-- Outside the anonymous restriction, the second switch matches an exploded
grant exactly in the id and type patterns. -/
theorem grantFound_iff {r : Resource} {aType : ActionType} {userId : String} {opts : Options}
    (hanon : anonRestricted userId opts = false) (grant : Grant) (x : String) :
    grantFound r aType userId opts (aclGrantFromGrant grant x) = true ↔
      IdTypeMatches x grant.typ r aType := by
  rw [IdTypeMatches, ← collectionCase_iff]
  simp only [grantFound, hanon, Bool.false_eq_true, if_false, idCase, collectionCase,
    wildcardCase, pinCase, aclGrantFromGrant, Bool.or_eq_true, Bool.and_eq_true, beq_iff_eq,
    bne_iff_ne, ne_eq, Bool.not_eq_true', or_assoc, and_assoc]

/-- An exploded grant authorizes a user the anonymous restriction does not
apply to exactly when the grant has actions covering the request and its id
matches in one of the patterns. -/
theorem authorizes_aclGrantFromGrant_iff {r : Resource} {aType : ActionType} {userId : String}
    {opts : Options} (hanon : anonRestricted userId opts = false) (grant : Grant) (x : String) :
    authorizes r aType aType.parentAction userId opts (aclGrantFromGrant grant x) = true ↔
      (grant.actions ≠ ∅ ∧ grant.CoversAction aType) ∧ IdTypeMatches x grant.typ r aType := by
  rw [authorizes, Bool.and_eq_true, beq_iff_eq, actionCheck_eq_some_false_iff,
    grantFound_iff hanon]

/-- **`Allowed` meets the declarative specification.** For every list of
grants, resource and action, a user the anonymous restriction does not apply to
is authorized exactly when some grant with actions applies to the resource's
scope, covers the action and matches with one of its ids. -/
theorem allowed_iff_spec (grants : List Grant) (r : Resource) (aType : ActionType)
    (userId : String) (opts : Options)
    (huser : opts.withSkipAnonymousUserRestrictions = true ∨
      (userId ≠ anonymousUserId ∧ userId ≠ "")) :
    ((newACL grants).allowed r aType userId opts).authorized = true ↔
      AllowedSpec grants r aType := by
  have hanon : anonRestricted userId opts = false := by
    rcases huser with hskip | ⟨hnotAnon, hnotEmpty⟩
    · simp [anonRestricted, hskip]
    · simp [anonRestricted, hnotAnon, hnotEmpty]
  rw [(allowed_eq (newACL grants) r aType userId opts).1]
  constructor
  · rintro ⟨ag, hmem, hauth⟩
    obtain ⟨grant, hgrant, happ, x, hx, rfl⟩ := mem_grantsFor_newACL.mp hmem
    obtain ⟨⟨hne, hcov⟩, hmatch⟩ := (authorizes_aclGrantFromGrant_iff hanon grant x).mp hauth
    exact ⟨grant, hgrant, hne, happ, hcov, x, hx, hmatch⟩
  · rintro ⟨grant, hgrant, hne, happ, hcov, x, hx, hmatch⟩
    refine ⟨aclGrantFromGrant grant x, ?_, ?_⟩
    · exact mem_grantsFor_newACL.mpr ⟨grant, hgrant, happ, x, hx, rfl⟩
    · exact (authorizes_aclGrantFromGrant_iff hanon grant x).mpr ⟨⟨hne, hcov⟩, hmatch⟩

theorem allowed_iff_spec_descendants_read :
    ((newACL [scopeListGrant, descendantsReadGrant]).allowed
        ⟨"o_1234567890", "ttcp_1234567890", .target, "", globalScopeId⟩ .read "u_1234567890"
        {}).authorized = true ↔
      AllowedSpec [scopeListGrant, descendantsReadGrant]
        ⟨"o_1234567890", "ttcp_1234567890", .target, "", globalScopeId⟩ .read :=
  allowed_iff_spec _ _ _ _ _ (.inr ⟨by decide, by decide⟩)

/-- `type=target;actions=list`, granted in `global`. -/
def targetListGrant : Grant where
  roleScopeId := globalScopeId
  roleParentScopeId := ""
  id := ""
  ids := []
  grantScopeId := globalScopeId
  typ := .target
  actions := {.list}
  outputFields := .unset
  unknown_not_mem := unknown_not_mem_list
  id_or_ids := id_or_ids_empty

/-- A `list` check on a target that carries an id is not a collection request:
the grant without id names the resource's scope, carries `list` and has its
top-level type, yet `Allowed` refuses, because the collection case also requires
the resource to have no id. -/
theorem allowed_list_refused_with_resource_id :
    ((newACL [targetListGrant]).allowed ⟨globalScopeId, "ttcp_1234567890", .target, "", ""⟩
        .list "u_1234567890" {}).authorized = false ∧
      targetListGrant.grantScopeId = globalScopeId ∧ ActionType.list ∈ targetListGrant.actions ∧
      targetListGrant.aclIds = [""] ∧ targetListGrant.typ = .target ∧
      ResourceType.target.topLevelType = true := by
  decide

end Boundary.Perms
