import Boundary.Auth.Verify
import Boundary.Perms.AclDeclarative

/-!
# Permissions for listing

`ACL.ListPermissions` answers, for each requested scope, which resources of a
type a list may show: the ids on which one of the "id actions" is granted, or
all of them when the wildcard id is granted. `buildPermission` collects them
from the same three indexes `Allowed` reads, with tests of its own on the type
and the actions of each grant.

The results here relate the two: for a user the anonymous restriction does not
apply to, the permission of a scope covers a resource whenever `Allowed`
authorizes an id action on it, and, when the grants name specific ids only with
their own type, covers it only then.
-/

namespace Boundary.Perms

open Auth (ScopeInfo)

/-- `perms.Permission`. -/
structure Permission where
  roleScopeId : String
  roleParentScopeId : String
  grantScopeId : String
  resource : ResourceType
  action : ActionType
  resourceIds : List String
  onlySelf : Bool
  all : Bool
  deriving DecidableEq, Repr

namespace Permission

/-- The switch on the grant's id at the end of the loop of `buildPermission`. -/
def recordId (p : Permission) (id : String) : Permission :=
  if id = "*" then { p with all := true }
  else if id = "" then p
  else { p with resourceIds := p.resourceIds ++ [id] }

/-- The result of `buildPermission`: the permission is for all ids or names some. -/
def found (p : Permission) : Bool :=
  p.all || !p.resourceIds.isEmpty

/-- The permission lets a list show the resource with this id. -/
def Covers (p : Permission) (id : String) : Prop :=
  p.all = true ∨ id ∈ p.resourceIds

theorem found_of_covers {p : Permission} {id : String} (h : p.Covers id) : p.found = true := by
  rcases h with hall | hmem
  · simp [found, hall]
  · have hne : p.resourceIds ≠ [] := List.ne_nil_of_mem hmem
    simp [found, hne]

end Permission

/-- The grants `buildPermission` walks for a scope: those of the scope itself,
the `children` grants of its parent and, for a named scope other than global or
when asked, the `descendants` grants. -/
def ACL.scopeGrants (a : ACL) (scopeInfo : ScopeInfo) (includeDescendants : Bool) :
    List AclGrant :=
  (if scopeInfo.id ≠ "" then a.directScopeMap scopeInfo.id else []) ++
    (if scopeInfo.parentScopeId ≠ "" then a.childrenScopeMap scopeInfo.parentScopeId else []) ++
    (if includeDescendants = true ∨ (scopeInfo.id ≠ "" ∧ scopeInfo.id ≠ globalScopeId) then
      a.descendantsGrants else [])

section Build

variable (requestedType : ResourceType) (idActions : Finset ActionType)

/-- The type test of the grant loop: the requested type, the wildcard type, or
an id of the requested type. -/
def typeMatches (grant : AclGrant) : Bool :=
  grant.typ == requestedType || grant.typ == .all ||
    resourceInfoFromPrefix grant.id == requestedType

/-- The action test of the grant loop: the wildcard action or one of the id
actions is granted. -/
def actionFound (grant : AclGrant) : Bool :=
  decide (ActionType.all ∈ grant.actionSet) || decide (∃ a ∈ idActions, a ∈ grant.actionSet)

/-- The two tests at the top of the grant loop; a grant failing either is skipped. -/
def grantMatches (grant : AclGrant) : Bool :=
  typeMatches requestedType grant && actionFound idActions grant

/-- One iteration of the grant loop of `buildPermission`: a matching grant's
actions other than `list` narrow `OnlySelf`, and its id is recorded. -/
def permissionStep (p : Permission) (grant : AclGrant) : Permission :=
  if grantMatches requestedType idActions grant then
    Permission.recordId
      { p with onlySelf := p.onlySelf && ActionType.onlySelf (grant.actionSet.erase .list) }
      grant.id
  else p

end Build

/-- `ACL.buildPermission`: whether a permission was found, and the permission as
the loop filled it in. A nil scope info finds nothing. -/
def ACL.buildPermission (a : ACL) (scopeInfo : Option ScopeInfo) (requestedType : ResourceType)
    (idActions : Finset ActionType) (includeDescendants : Bool) (p : Permission) :
    Bool × Permission :=
  match scopeInfo with
  | none => (false, p)
  | some scopeInfo =>
    let p := (a.scopeGrants scopeInfo includeDescendants).foldl
      (permissionStep requestedType idActions) p
    (p.found, p)

/-- The permission `ListPermissions` starts from for a scope: restricted to the
user's own resources until a grant says otherwise. -/
def listPermission (scopeId : String) (scopeInfo : ScopeInfo) (requestedType : ResourceType) :
    Permission :=
  ⟨scopeId, scopeInfo.parentScopeId, scopeId, requestedType, .list, [], true, false⟩

/-- The body of the loop of `ListPermissions` over the requested scopes: a nil
scope info is skipped, the recovery user gets every resource, anyone else what
`buildPermission` finds. -/
def ACL.listPermissionsStep (a : ACL) (requestedType : ResourceType)
    (idActions : Finset ActionType) (userId : String) (perms : List Permission)
    (entry : Σ _ : String, Option ScopeInfo) : List Permission :=
  match entry.2 with
  | none => perms
  | some scopeInfo =>
    if userId = recoveryUserId then
      perms ++ [{ listPermission entry.1 scopeInfo requestedType with all := true, onlySelf := false }]
    else
      let built := a.buildPermission (some scopeInfo) requestedType idActions false
        (listPermission entry.1 scopeInfo requestedType)
      if built.1 then perms ++ [built.2] else perms

/-- `ACL.ListPermissions`. The requested scopes are walked in the order of the
map's entries, which stands for Go's unspecified iteration order. -/
def ACL.listPermissions (a : ACL) (requestedScopes : AList fun _ : String => Option ScopeInfo)
    (requestedType : ResourceType) (idActions : Finset ActionType) (userId : String) :
    List Permission :=
  requestedScopes.entries.foldl (a.listPermissionsStep requestedType idActions userId) []

/-- A grant of this type may name the id: when the id's type is known and has
no child types, the grant has no type or that type. -/
def TypedId (typ : ResourceType) (x : String) : Prop :=
  resourceInfoFromPrefix x ≠ .unknown → (resourceInfoFromPrefix x).hasChildTypes = false →
    typ = .unknown ∨ typ = resourceInfoFromPrefix x

instance (typ : ResourceType) (x : String) : Decidable (TypedId typ x) := by
  unfold TypedId; infer_instance

/-- Every id of the grant is one a grant of its type may name, as the final
validation of `Parse` requires. -/
def Grant.IdsTyped (grant : Grant) : Prop :=
  ∀ x ∈ grant.aclIds, TypedId grant.typ x

instance (grant : Grant) : Decidable grant.IdsTyped := by
  unfold Grant.IdsTyped; infer_instance

/-! ## The grant loop -/

section Loop

variable {requestedType : ResourceType} {idActions : Finset ActionType}

/-- The loop body as one update of the three fields it writes. -/
theorem permissionStep_eq (p : Permission) (grant : AclGrant) :
    permissionStep requestedType idActions p grant =
      { p with
        onlySelf := p.onlySelf && (!grantMatches requestedType idActions grant ||
          ActionType.onlySelf (grant.actionSet.erase .list))
        all := p.all || (grantMatches requestedType idActions grant && grant.id == "*")
        resourceIds := p.resourceIds ++
          if grantMatches requestedType idActions grant && grant.id != "*" && grant.id != "" then
            [grant.id] else [] } := by
  unfold permissionStep Permission.recordId
  by_cases hm : grantMatches requestedType idActions grant = true
  · by_cases hstar : grant.id = "*"
    · simp [hm, hstar]
    · by_cases hempty : grant.id = ""
      · simp [hm, hempty]
      · simp [hm, hstar, hempty]
  · simp [hm]

/-- **The loop of `buildPermission`.** Walking the grants from any permission
ors in the matching wildcard grants, appends the other matching ids in order and
ands in the `OnlySelf` of every matching grant. -/
theorem foldl_permissionStep (grants : List AclGrant) (p : Permission) :
    grants.foldl (permissionStep requestedType idActions) p =
      { p with
        onlySelf := p.onlySelf && grants.all fun g =>
          !grantMatches requestedType idActions g || ActionType.onlySelf (g.actionSet.erase .list)
        all := p.all || grants.any fun g => grantMatches requestedType idActions g && g.id == "*"
        resourceIds := p.resourceIds ++ (grants.filter fun g =>
          grantMatches requestedType idActions g && g.id != "*" && g.id != "").map (·.id) } := by
  induction grants generalizing p with
  | nil => simp
  | cons g grants ih =>
    rw [List.foldl_cons, ih, permissionStep_eq]
    by_cases hm : grantMatches requestedType idActions g = true
    · by_cases hid : g.id != "*" && g.id != ""
      · simp [hm, hid, Bool.and_assoc, Bool.or_assoc]
      · simp [hm, hid, Bool.and_assoc, Bool.or_assoc]
    · simp [hm]

/-- The walk covers an id other than `""` and `*` exactly when the permission it
starts from does or a matching grant names the id or the wildcard. -/
theorem covers_foldl_iff {grants : List AclGrant} {p : Permission} {id : String}
    (hstar : id ≠ "*") (hempty : id ≠ "") :
    (grants.foldl (permissionStep requestedType idActions) p).Covers id ↔
      p.Covers id ∨
        ∃ g ∈ grants, grantMatches requestedType idActions g = true ∧ (g.id = "*" ∨ g.id = id) := by
  rw [foldl_permissionStep]
  simp only [Permission.Covers, Bool.or_eq_true, List.any_eq_true, Bool.and_eq_true, beq_iff_eq,
    List.mem_append, List.mem_map, List.mem_filter, bne_iff_ne, ne_eq]
  constructor
  · rintro ((hall | ⟨g, hg, hm, hg'⟩) | hmem | ⟨g, ⟨hg, ⟨hm, -⟩, -⟩, rfl⟩)
    · exact .inl (.inl hall)
    · exact .inr ⟨g, hg, hm, .inl hg'⟩
    · exact .inl (.inr hmem)
    · exact .inr ⟨g, hg, hm, .inr rfl⟩
  · rintro ((hall | hmem) | ⟨g, hg, hm, hg' | rfl⟩)
    · exact .inl (.inl hall)
    · exact .inr (.inl hmem)
    · exact .inl (.inr ⟨g, hg, hm, hg'⟩)
    · exact .inr (.inr ⟨g, ⟨hg, ⟨hm, hstar⟩, hempty⟩, rfl⟩)

/-- The walk leaves the scopes of the permission as they were. -/
@[simp] theorem scopes_foldl_permissionStep (grants : List AclGrant) (p : Permission) :
    (grants.foldl (permissionStep requestedType idActions) p).roleScopeId = p.roleScopeId ∧
      (grants.foldl (permissionStep requestedType idActions) p).grantScopeId = p.grantScopeId := by
  rw [foldl_permissionStep]
  exact ⟨rfl, rfl⟩

/-- An id the walk records was there before or is the id, neither empty nor the
wildcard, of a matching grant. -/
theorem mem_resourceIds_foldl {grants : List AclGrant} {p : Permission} {id : String}
    (h : id ∈ (grants.foldl (permissionStep requestedType idActions) p).resourceIds) :
    id ∈ p.resourceIds ∨ ∃ g ∈ grants, grantMatches requestedType idActions g = true ∧
      g.id = id ∧ id ≠ "*" ∧ id ≠ "" := by
  rw [foldl_permissionStep] at h
  simp only [List.mem_append, List.mem_map, List.mem_filter, Bool.and_eq_true, bne_iff_ne,
    ne_eq] at h
  rcases h with h | ⟨g, ⟨hg, ⟨hm, hstar⟩, hempty⟩, rfl⟩
  · exact .inl h
  · exact .inr ⟨g, hg, hm, rfl, hstar, hempty⟩

end Loop

/-! ## The list of permissions -/

section List

variable {a : ACL} {requestedType : ResourceType} {idActions : Finset ActionType}
  {userId : String}

/-- The loop body of `ListPermissions` only ever appends to what it was given. -/
theorem listPermissionsStep_eq (perms : List Permission) (entry : Σ _ : String, Option ScopeInfo) :
    a.listPermissionsStep requestedType idActions userId perms entry =
      perms ++ a.listPermissionsStep requestedType idActions userId [] entry := by
  unfold ACL.listPermissionsStep
  split
  · simp
  · split
    · simp
    · dsimp only
      split <;> simp

/-- The permissions of the requested scopes, one entry after another. -/
theorem listPermissions_eq_flatMap (requestedScopes : AList fun _ : String => Option ScopeInfo) :
    a.listPermissions requestedScopes requestedType idActions userId =
      requestedScopes.entries.flatMap (a.listPermissionsStep requestedType idActions userId []) := by
  have hfold : ∀ (entries : List (Σ _ : String, Option ScopeInfo)) (perms : List Permission),
      entries.foldl (a.listPermissionsStep requestedType idActions userId) perms =
        perms ++ entries.flatMap (a.listPermissionsStep requestedType idActions userId []) := by
    intro entries
    induction entries with
    | nil => simp
    | cons entry entries ih =>
      intro perms
      rw [List.foldl_cons, ih, listPermissionsStep_eq, List.flatMap_cons, List.append_assoc]
  rw [ACL.listPermissions, hfold, List.nil_append]

/-- A permission the loop body adds for a scope is that scope's permission: the
recovery user's, or one `buildPermission` found. -/
theorem mem_listPermissionsStep {p : Permission} {scopeId : String}
    {scopeInfo : Option ScopeInfo} :
    p ∈ a.listPermissionsStep requestedType idActions userId [] ⟨scopeId, scopeInfo⟩ ↔
      ∃ info, scopeInfo = some info ∧
        if userId = recoveryUserId then
          p = { listPermission scopeId info requestedType with all := true, onlySelf := false }
        else
          (a.buildPermission (some info) requestedType idActions false
            (listPermission scopeId info requestedType)).1 = true ∧
          p = (a.buildPermission (some info) requestedType idActions false
            (listPermission scopeId info requestedType)).2 := by
  cases scopeInfo with
  | none => simp [ACL.listPermissionsStep]
  | some info =>
    by_cases hrec : userId = recoveryUserId
    · simp [ACL.listPermissionsStep, hrec]
    · by_cases hfound : (a.buildPermission (some info) requestedType idActions false
          (listPermission scopeId info requestedType)).1 = true
      · simp only [ACL.listPermissionsStep, hrec, if_false, hfound, if_true, List.nil_append,
          List.mem_singleton, Option.some.injEq, exists_eq_left', true_and]
      · simp [ACL.listPermissionsStep, hrec, hfound]

/-- The permission a list keeps for a scope carries the scope as its grant scope. -/
theorem grantScopeId_of_mem_listPermissionsStep {p : Permission} {scopeId : String}
    {scopeInfo : Option ScopeInfo}
    (h : p ∈ a.listPermissionsStep requestedType idActions userId [] ⟨scopeId, scopeInfo⟩) :
    p.grantScopeId = scopeId := by
  obtain ⟨info, -, hp⟩ := mem_listPermissionsStep.mp h
  split at hp
  · rw [hp]
    rfl
  · rw [hp.2, ACL.buildPermission, foldl_permissionStep]
    rfl

end List

/-! ## Against `Allowed` -/

/-- A grant's id that has the requested type is neither empty nor the wildcard. -/
theorem ne_empty_of_resourceInfoFromPrefix {id : String} {typ : ResourceType}
    (htop : typ.topLevelType = true) (hid : resourceInfoFromPrefix id = typ) :
    id ≠ "" ∧ id ≠ "*" := by
  have hne : typ ≠ .unknown := ResourceType.topLevelType_ne_unknown htop
  constructor
  · rintro rfl
    exact hne (hid.symm.trans (by decide))
  · rintro rfl
    exact hne (hid.symm.trans (by decide))

/-- Outside `global`, a named scope's grants for `buildPermission` are the grants
`Allowed` walks for a resource of the scope, when no grant is filed under the
empty role scope. -/
theorem scopeGrants_eq_grantsFor {a : ACL} (hchildren : a.childrenScopeMap "" = [])
    {info : ScopeInfo} (hs : info.id ≠ "") (r : Resource) (hscope : r.scopeId = info.id)
    (hparent : r.parentScopeId = info.parentScopeId) :
    a.scopeGrants info false = a.grantsFor r := by
  have hdesc : (false = true ∨ (info.id ≠ "" ∧ info.id ≠ globalScopeId)) ↔
      info.id ≠ globalScopeId := by
    simp [hs]
  unfold ACL.scopeGrants ACL.grantsFor
  rw [hscope, hparent, if_pos hs]
  by_cases hp : info.parentScopeId = ""
  · simp only [hp, ne_eq, not_true_eq_false, if_false, hchildren, hdesc]
  · simp only [ne_eq, hp, not_false_eq_true, if_true, hdesc]

/-- The grants `buildPermission` walks for a named scope are among those
`Allowed` walks. -/
theorem mem_grantsFor_of_mem_scopeGrants {a : ACL} {info : ScopeInfo} (hs : info.id ≠ "")
    {r : Resource} (hscope : r.scopeId = info.id) (hparent : r.parentScopeId = info.parentScopeId)
    {g : AclGrant} (hg : g ∈ a.scopeGrants info false) : g ∈ a.grantsFor r := by
  unfold ACL.scopeGrants at hg
  unfold ACL.grantsFor
  rw [hscope, hparent]
  simp only [ne_eq, hs, not_false_eq_true, if_true, Bool.false_eq_true, true_and, false_or,
    List.mem_append] at hg ⊢
  rcases hg with (hd | hc) | hdesc
  · exact .inl (.inl hd)
  · split at hc
    · exact .inl (.inr hc)
    · simp at hc
  · exact .inr hdesc

/-- The grants `buildPermission` walks are filed under one of the ACL's three
indexes. -/
theorem mem_index_of_mem_scopeGrants {a : ACL} {info : ScopeInfo} {incl : Bool} {g : AclGrant}
    (hg : g ∈ a.scopeGrants info incl) :
    g ∈ a.descendantsGrants ∨ (∃ k, g ∈ a.childrenScopeMap k) ∨ ∃ k, g ∈ a.directScopeMap k := by
  unfold ACL.scopeGrants at hg
  simp only [List.mem_append] at hg
  rcases hg with (hd | hc) | hdesc
  · split at hd
    · exact .inr (.inr ⟨_, hd⟩)
    · cases hd
  · split at hc
    · exact .inr (.inl ⟨_, hc⟩)
    · cases hc
  · split at hdesc
    · exact .inl hdesc
    · cases hdesc

/-- No grant is filed under the empty role scope when every role has a scope. -/
theorem newACL_childrenScopeMap_empty {grants : List Grant}
    (hroles : ∀ g ∈ grants, g.roleScopeId ≠ "") : (newACL grants).childrenScopeMap "" = [] := by
  rw [newACL_childrenScopeMap, List.flatMap_eq_nil_iff]
  intro g hg
  rw [List.flatMap_eq_nil_iff]
  intro x _
  simp [ACL.childrenStep, hroles g hg]

section Agreement

variable {r : Resource} {aType : ActionType} {userId : String} {opts : Options}
  {requestedType : ResourceType} {idActions : Finset ActionType}

/-- An action switch that lets a grant through with its actions saw the action,
its parent or the wildcard among them. -/
theorem mem_of_actionCheck {parentAction : ActionType} {g : AclGrant}
    (h : actionCheck aType parentAction g = some false) :
    aType ∈ g.actionSet ∨ parentAction ∈ g.actionSet ∨ ActionType.all ∈ g.actionSet := by
  by_cases ha : aType ∈ g.actionSet
  · exact .inl ha
  by_cases hp : parentAction ∈ g.actionSet
  · exact .inr (.inl hp)
  by_cases hall : ActionType.all ∈ g.actionSet
  · exact .inr (.inr hall)
  -- the only branch left is that of a grant without actions
  unfold actionCheck at h
  split_ifs at h
  simp at h

/-- The action switch lets a grant through with its actions when it holds the
action or the wildcard. -/
theorem actionCheck_of_mem {parentAction : ActionType} {g : AclGrant}
    (h : aType ∈ g.actionSet ∨ ActionType.all ∈ g.actionSet) :
    actionCheck aType parentAction g = some false := by
  have hne : g.actionSet ≠ ∅ := by
    rcases h with h | h <;> exact Finset.ne_empty_of_mem h
  unfold actionCheck
  rw [if_neg hne]
  rcases h with ha | hall
  · rw [if_pos ha]
  · split_ifs <;> rfl

/-- **Completeness, one grant.** A grant that authorizes an id action on a
resource of a top-level type passes both tests of `buildPermission` and names
the resource's id or the wildcard, when the id actions hold the parents of
their sub-actions and the grant has no `unknown` action. -/
theorem grantMatches_of_authorizes {g : AclGrant} (hanon : anonRestricted userId opts = false)
    (htop : r.typ.topLevelType = true) (hid : resourceInfoFromPrefix r.id = r.typ)
    (haType : aType ∈ idActions)
    (hparent : aType.parentAction = .unknown ∨ aType.parentAction ∈ idActions)
    (hunknown : ActionType.unknown ∉ g.actionSet)
    (hauth : authorizes r aType aType.parentAction userId opts g = true) :
    grantMatches r.typ idActions g = true ∧ (g.id = "*" ∨ g.id = r.id) := by
  simp only [authorizes, Bool.and_eq_true, beq_iff_eq] at hauth
  obtain ⟨hcheck, hfound⟩ := hauth
  have hidNe := ne_empty_of_resourceInfoFromPrefix htop hid
  -- the action test: the action itself, its parent (an id action) or the wildcard
  have haction : actionFound idActions g = true := by
    simp only [actionFound, Bool.or_eq_true, decide_eq_true_eq]
    rcases mem_of_actionCheck hcheck with ha | hp | hall
    · exact .inr ⟨aType, haType, ha⟩
    · rcases hparent with hu | hmem
      · exact absurd (hu ▸ hp) hunknown
      · exact .inr ⟨_, hmem, hp⟩
    · exact .inl hall
  -- the id and type cases: collections and pins do not apply to such a resource
  simp only [grantFound, hanon, Bool.false_eq_true, if_false, Bool.or_eq_true] at hfound
  rcases hfound with ((hidCase | hcoll) | hwild) | hpin
  · simp only [idCase, Bool.and_eq_true, beq_iff_eq, bne_iff_ne, ne_eq] at hidCase
    obtain ⟨⟨⟨⟨⟨hgid, -⟩, -⟩, -⟩, -⟩, -⟩ := hidCase
    refine ⟨?_, .inr hgid⟩
    simp [grantMatches, typeMatches, haction, hgid, hid]
  · simp only [collectionCase, Bool.and_eq_true, beq_iff_eq] at hcoll
    exact absurd hcoll.1.1.1.1.2 hidNe.1
  · simp only [wildcardCase, Bool.and_eq_true, beq_iff_eq, bne_iff_ne, ne_eq,
      Bool.or_eq_true] at hwild
    obtain ⟨⟨hstar, -⟩, htyp⟩ := hwild
    refine ⟨?_, .inl hstar⟩
    rcases htyp with htyp | htyp <;> simp [grantMatches, typeMatches, haction, htyp]
  · simp only [pinCase, Bool.and_eq_true, Bool.not_eq_true'] at hpin
    rw [htop] at hpin
    exact absurd hpin.2 (by decide)

/-- **Soundness, one grant.** A grant that passes both tests of `buildPermission`
for a type without child types and names a resource's id or the wildcard
authorizes some id action on the resource, when the id actions are neither
`list` nor `create` and a grant naming the id has no type or the id's own. -/
theorem authorizes_of_grantMatches {g : AclGrant} (hanon : anonRestricted userId opts = false)
    (htop : r.typ.topLevelType = true) (hid : resourceInfoFromPrefix r.id = r.typ)
    (hne : idActions.Nonempty)
    (hacts : ∀ x ∈ idActions, ActionType.list.isActionOrParent x = false ∧
      ActionType.create.isActionOrParent x = false)
    (htyped : g.id = r.id → g.typ = .unknown ∨ g.typ = r.typ)
    (hm : grantMatches r.typ idActions g = true) (hgid : g.id = "*" ∨ g.id = r.id) :
    ∃ x ∈ idActions, authorizes r x x.parentAction userId opts g = true := by
  simp only [grantMatches, Bool.and_eq_true] at hm
  obtain ⟨htype, haction⟩ := hm
  -- an id action the grant holds, itself or through the wildcard action
  obtain ⟨x, hx, hxmem⟩ : ∃ x ∈ idActions, x ∈ g.actionSet ∨ ActionType.all ∈ g.actionSet := by
    simp only [actionFound, Bool.or_eq_true, decide_eq_true_eq] at haction
    rcases haction with hall | ⟨x, hx, hxmem⟩
    · obtain ⟨x, hx⟩ := hne
      exact ⟨x, hx, .inr hall⟩
    · exact ⟨x, hx, .inl hxmem⟩
  refine ⟨x, hx, ?_⟩
  have hidNe := ne_empty_of_resourceInfoFromPrefix htop hid
  have hfound : grantFound r x userId opts g = true := by
    simp only [grantFound, hanon, Bool.false_eq_true, if_false, Bool.or_eq_true]
    rcases hgid with hstar | hgid
    · -- the wildcard id: its type is the requested one or the wildcard type
      have htyp : g.typ = r.typ ∨ g.typ = .all := by
        simp only [typeMatches, Bool.or_eq_true, beq_iff_eq, hstar] at htype
        rcases htype with (h | h) | h
        · exact .inl h
        · exact .inr h
        · exact absurd (h.symm.trans (by decide)) (ResourceType.topLevelType_ne_unknown htop)
      have hknown : g.typ ≠ .unknown := by
        rcases htyp with h | h
        · rw [h]
          exact ResourceType.topLevelType_ne_unknown htop
        · rw [h]
          decide
      refine .inl (.inr ?_)
      simp only [wildcardCase, Bool.and_eq_true, beq_iff_eq, bne_iff_ne, ne_eq, Bool.or_eq_true]
      exact ⟨⟨hstar, hknown⟩, htyp⟩
    · -- a specific id: the case of specific ids, for an action that is no collection action
      refine .inl (.inl (.inl ?_))
      have htyp : g.typ = .unknown ∨ g.typ = resourceInfoFromPrefix g.id := by
        rw [hgid, hid]
        exact htyped hgid
      have hgne : g.id ≠ "" ∧ g.id ≠ "*" := hgid ▸ hidNe
      simp only [idCase, Bool.and_eq_true, beq_iff_eq, bne_iff_ne, ne_eq, Bool.or_eq_true,
        Bool.not_eq_true']
      exact ⟨⟨⟨⟨⟨hgid, hgne.1⟩, hgne.2⟩, htyp⟩, (hacts x hx).1⟩, (hacts x hx).2⟩
  simp [authorizes, actionCheck_of_mem hxmem, hfound]

end Agreement

section Lists

variable {a : ACL} {scopes : AList fun _ : String => Option ScopeInfo} {info : ScopeInfo}
  {requestedType : ResourceType} {idActions : Finset ActionType} {userId : String}

/-- A permission of the list comes from an entry of the requested scopes. -/
theorem mem_listPermissions {p : Permission} :
    p ∈ a.listPermissions scopes requestedType idActions userId ↔
      ∃ scopeId scopeInfo, scopes.lookup scopeId = some scopeInfo ∧
        p ∈ a.listPermissionsStep requestedType idActions userId [] ⟨scopeId, scopeInfo⟩ := by
  rw [listPermissions_eq_flatMap, List.mem_flatMap]
  constructor
  · rintro ⟨⟨scopeId, scopeInfo⟩, hentry, hp⟩
    exact ⟨scopeId, scopeInfo, AList.mem_lookup_iff.mpr hentry, hp⟩
  · rintro ⟨scopeId, scopeInfo, hlookup, hp⟩
    exact ⟨⟨scopeId, scopeInfo⟩, AList.mem_lookup_iff.mp hlookup, hp⟩

/-- The permission `buildPermission` fills in for a requested scope is the walk
of the scope's grants from the scope's initial permission. -/
theorem buildPermission_some (includeDescendants : Bool) (p : Permission) :
    a.buildPermission (some info) requestedType idActions includeDescendants p =
      (((a.scopeGrants info includeDescendants).foldl (permissionStep requestedType idActions)
        p).found,
        (a.scopeGrants info includeDescendants).foldl (permissionStep requestedType idActions) p) :=
  rfl

/-- The permission a list keeps for a requested scope whose key is its id: the
recovery user's, or the walk of the scope's grants when it covers something. -/
theorem mem_listPermissions_of_covers (hinfo : scopes.lookup info.id = some (some info))
    {id : String}
    (hcovers : userId ≠ recoveryUserId →
      ((a.scopeGrants info false).foldl (permissionStep requestedType idActions)
        (listPermission info.id info requestedType)).Covers id) :
    ∃ p ∈ a.listPermissions scopes requestedType idActions userId,
      p.grantScopeId = info.id ∧ p.Covers id := by
  by_cases hrec : userId = recoveryUserId
  · refine ⟨{ listPermission info.id info requestedType with all := true, onlySelf := false },
      ?_, rfl, .inl rfl⟩
    refine mem_listPermissions.mpr ⟨info.id, some info, hinfo, ?_⟩
    exact mem_listPermissionsStep.mpr ⟨info, rfl, by simp [hrec]⟩
  · have hcov := hcovers hrec
    refine ⟨_, ?_, ?_, hcov⟩
    · refine mem_listPermissions.mpr ⟨info.id, some info, hinfo, ?_⟩
      refine mem_listPermissionsStep.mpr ⟨info, rfl, ?_⟩
      rw [if_neg hrec, buildPermission_some]
      exact ⟨Permission.found_of_covers hcov, rfl⟩
    · rw [foldl_permissionStep]
      rfl

/-- A permission of the list for a requested scope whose key is its id, other
than the recovery user's, is the walk of the scope's grants. -/
theorem eq_foldl_of_mem_listPermissions (hinfo : scopes.lookup info.id = some (some info))
    (hrec : userId ≠ recoveryUserId) {p : Permission}
    (hp : p ∈ a.listPermissions scopes requestedType idActions userId)
    (hscope : p.grantScopeId = info.id) :
    p = (a.scopeGrants info false).foldl (permissionStep requestedType idActions)
      (listPermission info.id info requestedType) := by
  obtain ⟨scopeId, scopeInfo, hlookup, hstep⟩ := mem_listPermissions.mp hp
  -- the entry is the requested scope's: the grant scope names it
  have hkey : scopeId = info.id := (grantScopeId_of_mem_listPermissionsStep hstep).symm.trans hscope
  subst hkey
  obtain rfl : scopeInfo = some info := Option.some.inj (hlookup.symm.trans hinfo)
  obtain ⟨info', hinfo', hbuilt⟩ := mem_listPermissionsStep.mp hstep
  obtain rfl : info' = info := (Option.some.inj hinfo').symm
  rw [if_neg hrec] at hbuilt
  exact hbuilt.2

/-- Every permission of the list is a `list` permission that was found: for all
ids or for some. -/
theorem found_of_mem_listPermissions {p : Permission}
    (hp : p ∈ a.listPermissions scopes requestedType idActions userId) :
    p.action = .list ∧ p.found = true := by
  obtain ⟨scopeId, scopeInfo, -, hstep⟩ := mem_listPermissions.mp hp
  obtain ⟨info, -, hbuilt⟩ := mem_listPermissionsStep.mp hstep
  split at hbuilt
  · subst hbuilt
    exact ⟨rfl, rfl⟩
  · obtain ⟨hfound, rfl⟩ := hbuilt
    rw [buildPermission_some] at hfound ⊢
    refine ⟨?_, hfound⟩
    rw [foldl_permissionStep]
    rfl

end Lists

section Agreement

variable {grants : List Grant} {scopes : AList fun _ : String => Option ScopeInfo}
  {info : ScopeInfo} {requestedType : ResourceType} {idActions : Finset ActionType}
  {userId : String} {opts : Options} {id pin : String}

/-- **A list never hides.** When every role has a scope, the permission of a
requested named scope covers every resource of a top-level type on which
`Allowed` authorizes an id action, for id actions that hold the parents of their
sub-actions. -/
theorem covers_of_allowed (hroles : ∀ g ∈ grants, g.roleScopeId ≠ "")
    (hinfo : scopes.lookup info.id = some (some info)) (hs : info.id ≠ "")
    (htop : requestedType.topLevelType = true)
    (hparent : ∀ x ∈ idActions, x.parentAction = .unknown ∨ x.parentAction ∈ idActions)
    (hanon : anonRestricted userId opts = false) (hid : resourceInfoFromPrefix id = requestedType)
    {aType : ActionType} (haType : aType ∈ idActions)
    (hallowed : ((newACL grants).allowed ⟨info.id, id, requestedType, pin, info.parentScopeId⟩
      aType userId opts).authorized = true) :
    ∃ p ∈ (newACL grants).listPermissions scopes requestedType idActions userId,
      p.grantScopeId = info.id ∧ p.Covers id := by
  refine mem_listPermissions_of_covers hinfo fun _ => ?_
  obtain ⟨g, hg, hauth⟩ := (allowed_eq _ _ aType userId opts).1.mp hallowed
  -- the grant was exploded from a parsed grant, so it has no unknown action
  have hunknown : ActionType.unknown ∉ g.actionSet := by
    obtain ⟨grant, -, -, x, -, rfl⟩ := mem_grantsFor_newACL.mp hg
    exact grant.unknown_not_mem
  obtain ⟨hm, hgid⟩ := grantMatches_of_authorizes (r := ⟨info.id, id, requestedType, pin,
    info.parentScopeId⟩) hanon htop hid haType (hparent aType haType) hunknown hauth
  have hidNe := ne_empty_of_resourceInfoFromPrefix htop hid
  have hgrants : (newACL grants).scopeGrants info false =
      (newACL grants).grantsFor ⟨info.id, id, requestedType, pin, info.parentScopeId⟩ :=
    scopeGrants_eq_grantsFor (newACL_childrenScopeMap_empty hroles) hs _ rfl rfl
  rw [covers_foldl_iff hidNe.2 hidNe.1, hgrants]
  exact .inr ⟨g, hg, hm, hgid⟩

/-- **A list never shows too much.** For a user other than the recovery user,
when the grants name ids of types without child types only with no type or
their own, a resource of such a top-level type that the permission of a
requested named scope covers has an id action that `Allowed` authorizes, for
nonempty id actions that are neither `list` nor `create`. -/
theorem allowed_of_covers (htyped : ∀ g ∈ grants, g.IdsTyped)
    (hinfo : scopes.lookup info.id = some (some info)) (hs : info.id ≠ "")
    (htop : requestedType.topLevelType = true) (hchild : requestedType.hasChildTypes = false)
    (hne : idActions.Nonempty)
    (hacts : ∀ x ∈ idActions, ActionType.list.isActionOrParent x = false ∧
      ActionType.create.isActionOrParent x = false)
    (hanon : anonRestricted userId opts = false) (hrec : userId ≠ recoveryUserId)
    (hid : resourceInfoFromPrefix id = requestedType)
    (hcovered : ∃ p ∈ (newACL grants).listPermissions scopes requestedType idActions userId,
      p.grantScopeId = info.id ∧ p.Covers id) :
    ∃ aType ∈ idActions, ((newACL grants).allowed ⟨info.id, id, requestedType, pin,
      info.parentScopeId⟩ aType userId opts).authorized = true := by
  obtain ⟨p, hp, hscope, hcov⟩ := hcovered
  rw [eq_foldl_of_mem_listPermissions hinfo hrec hp hscope] at hcov
  have hidNe := ne_empty_of_resourceInfoFromPrefix htop hid
  -- the scope's initial permission covers nothing, so a matching grant does
  obtain ⟨g, hg, hm, hgid⟩ : ∃ g ∈ (newACL grants).scopeGrants info false,
      grantMatches requestedType idActions g = true ∧ (g.id = "*" ∨ g.id = id) := by
    rcases (covers_foldl_iff hidNe.2 hidNe.1).mp hcov with hinit | hgrant
    · simp [listPermission, Permission.Covers] at hinit
    · exact hgrant
  have hgr := mem_grantsFor_of_mem_scopeGrants (r := ⟨info.id, id, requestedType, pin,
    info.parentScopeId⟩) hs rfl rfl hg
  -- a grant naming the id has no type or the id's own, by the validation of its grant
  have hgtyped : g.id = id → g.typ = .unknown ∨ g.typ = requestedType := by
    intro hgid'
    obtain ⟨grant, hgrant, -, x, hx, rfl⟩ := mem_grantsFor_newACL.mp hgr
    have hx' : x = id := hgid'
    subst hx'
    have hknown : resourceInfoFromPrefix x ≠ .unknown := by
      rw [hid]
      exact ResourceType.topLevelType_ne_unknown htop
    rw [← hid]
    exact htyped grant hgrant x hx hknown (hid ▸ hchild)
  obtain ⟨x, hx, hauth⟩ := authorizes_of_grantMatches (r := ⟨info.id, id, requestedType, pin,
    info.parentScopeId⟩) hanon htop hid hne hacts hgtyped hm hgid
  exact ⟨x, hx, (allowed_eq _ _ x userId opts).1.mpr ⟨g, hgr, hauth⟩⟩

end Agreement

end Boundary.Perms
