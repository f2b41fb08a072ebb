import Boundary.Perms.ListPermissions

/-!
# Permissions for resolvable aliases

`ACL.ListResolvableAliasesPermissions` builds the permissions the alias
repository turns into the query of aliases a user may resolve. It looks at the
`descendants` grants first, then at the `children` grants of each role scope,
caching the scopes whose children are all covered, and last at the grants of
each grant scope, skipping a scope that a cached children permission already
covers. When the `descendants` grants give a permission and global has no grants
of its own, that permission is returned alone.

The two maps are walked in the order of their key lists, which stand for Go's
unspecified iteration order; the results hold for every order.
-/

namespace Boundary

/-- `globals.OrgPrefix`. -/
def orgPrefix : String := "o"

/-- `globals.ProjectPrefix`. -/
def projectPrefix : String := "p"

namespace Perms

open Auth (ScopeInfo)

section Permissions

variable (requestedType : ResourceType)

/-- The permission the `descendants` grants fill in. -/
def descendantsPermission : Permission :=
  ⟨globalScopeId, "", grantScopeDescendants, requestedType, .listResolvableAliases, [], true,
    false⟩

/-- The permission the `children` grants of a role scope fill in; an org's
parent is global. -/
def childrenPermission (scopeId : String) : Permission :=
  ⟨scopeId, if scopeId ≠ globalScopeId then globalScopeId else "", grantScopeChildren,
    requestedType, .listResolvableAliases, [], true, false⟩

/-- The permission the grants of a grant scope fill in, with the role scopes of
its first grant. -/
def directPermission (grantScopeId : String) (grants : List AclGrant) : Permission :=
  ⟨(grants.head?.map (·.roleScopeId)).getD "", (grants.head?.map (·.roleParentScopeId)).getD "",
    grantScopeId, requestedType, .listResolvableAliases, [], true, false⟩

end Permissions

/-- The switch of the loop over the grant scopes: a scope is skipped when the
children of the role's parent, or of the role's org, are all covered already. -/
def skipDirect (childrenScopes : List String) (grantScopeId : String) (p : Permission) : Bool :=
  if grantScopeId = p.roleScopeId then decide (p.roleParentScopeId ∈ childrenScopes)
  else if Strings.hasPrefix p.roleScopeId orgPrefix then decide (p.roleScopeId ∈ childrenScopes)
  else if p.roleScopeId = globalScopeId ∧ Strings.hasPrefix grantScopeId orgPrefix then
    decide (p.roleScopeId ∈ childrenScopes)
  else false

namespace ACL

variable (a : ACL) (requestedType : ResourceType) (actions : Finset ActionType)

/-- The call of `buildPermission` for the `descendants` grants. -/
def descendantsBuilt : Bool × Permission :=
  a.buildPermission (some ⟨"", "", "", "", ""⟩) requestedType actions true
    (descendantsPermission requestedType)

/-- The call of `buildPermission` for the `children` grants of a role scope. -/
def childrenBuilt (scopeId : String) : Bool × Permission :=
  a.buildPermission (some ⟨"", "", "", "", scopeId⟩) requestedType actions false
    (childrenPermission requestedType scopeId)

/-- The call of `buildPermission` for the grants of a grant scope. -/
def directBuilt (grantScopeId : String) : Bool × Permission :=
  a.buildPermission (some ⟨grantScopeId, "", "", "", ""⟩) requestedType actions false
    (directPermission requestedType grantScopeId (a.directScopeMap grantScopeId))

/-- The body of the loop over the `children` grants: a found permission is kept,
and its role scope cached when it is for all ids. -/
def childrenLoopStep (acc : List Permission × List String) (scopeId : String) :
    List Permission × List String :=
  let built := a.childrenBuilt requestedType actions scopeId
  if built.1 then
    (acc.1 ++ [built.2], if built.2.all then acc.2 ++ [scopeId] else acc.2)
  else acc

/-- The body of the loop over the grant scopes. -/
def directLoopStep (childrenScopes : List String) (perms : List Permission)
    (grantScopeId : String) : List Permission :=
  if skipDirect childrenScopes grantScopeId
      (directPermission requestedType grantScopeId (a.directScopeMap grantScopeId)) then perms
  else
    let built := a.directBuilt requestedType actions grantScopeId
    if built.1 then perms ++ [built.2] else perms

/-- The two loops, over the role scopes of `children` grants and over the grant
scopes, after the permissions found so far. -/
def aliasLoops (childrenKeys directKeys : List String) (perms : List Permission) :
    List Permission :=
  let children := childrenKeys.foldl (a.childrenLoopStep requestedType actions) (perms, [])
  directKeys.foldl (a.directLoopStep requestedType actions children.2) children.1

/-- `ACL.ListResolvableAliasesPermissions`, with the keys of `childrenScopeMap`
and `directScopeMap` in the order Go walks them. -/
def listResolvableAliasesPermissions (childrenKeys directKeys : List String) : List Permission :=
  let built := a.descendantsBuilt requestedType actions
  if built.1 then
    -- the shortcut: only the grants of global itself are looked at further
    if globalScopeId ∉ directKeys then [built.2]
    else a.aliasLoops requestedType actions [] [globalScopeId] [built.2]
  else a.aliasLoops requestedType actions childrenKeys directKeys []

end ACL

/-! ## The loops -/

section Loops

variable {a : ACL} {requestedType : ResourceType} {actions : Finset ActionType}

/-- One turn of the loop over the `children` grants. -/
theorem childrenLoopStep_eq (acc : List Permission × List String) (k : String) :
    a.childrenLoopStep requestedType actions acc k =
      (acc.1 ++ (if (a.childrenBuilt requestedType actions k).1 then
          [(a.childrenBuilt requestedType actions k).2] else []),
        acc.2 ++ (if (a.childrenBuilt requestedType actions k).1 ∧
          (a.childrenBuilt requestedType actions k).2.all then [k] else [])) := by
  unfold ACL.childrenLoopStep
  by_cases hfound : (a.childrenBuilt requestedType actions k).1 = true
  · by_cases hall : (a.childrenBuilt requestedType actions k).2.all = true <;> simp [hfound, hall]
  · simp [hfound]

/-- **The loop over the `children` grants.** After what it was given, it keeps
the permission of every role scope that `buildPermission` finds one for, and
caches the scopes whose permission is for all ids. -/
theorem foldl_childrenLoopStep (keys : List String) (acc : List Permission × List String) :
    (∀ p, p ∈ (keys.foldl (a.childrenLoopStep requestedType actions) acc).1 ↔ p ∈ acc.1 ∨
      ∃ k ∈ keys, (a.childrenBuilt requestedType actions k).1 = true ∧
        p = (a.childrenBuilt requestedType actions k).2) ∧
    (∀ k, k ∈ (keys.foldl (a.childrenLoopStep requestedType actions) acc).2 ↔ k ∈ acc.2 ∨
      k ∈ keys ∧ (a.childrenBuilt requestedType actions k).1 = true ∧
        (a.childrenBuilt requestedType actions k).2.all = true) := by
  induction keys generalizing acc with
  | nil => simp
  | cons k keys ih =>
    obtain ⟨hperms, hcache⟩ := ih (a.childrenLoopStep requestedType actions acc k)
    rw [List.foldl_cons]
    constructor
    · intro p
      rw [hperms, childrenLoopStep_eq]
      by_cases hfound : (a.childrenBuilt requestedType actions k).1 = true
      · simp only [hfound, if_true, List.mem_append, List.mem_cons, List.not_mem_nil, or_false,
          exists_eq_or_imp, true_and]
        tauto
      · simp [hfound]
    · intro k'
      rw [hcache, childrenLoopStep_eq]
      by_cases hk : (a.childrenBuilt requestedType actions k).1 = true ∧
          (a.childrenBuilt requestedType actions k).2.all = true
      · simp only [hk, and_self, if_true, List.mem_append, List.mem_cons, List.not_mem_nil,
          or_false]
        constructor
        · rintro ((h | rfl) | h)
          · exact .inl h
          · exact .inr ⟨.inl rfl, hk⟩
          · exact .inr ⟨.inr h.1, h.2⟩
        · rintro (h | ⟨rfl | h, h'⟩)
          · exact .inl (.inl h)
          · exact .inl (.inr rfl)
          · exact .inr ⟨h, h'⟩
      · simp only [hk, if_false, List.append_nil, List.mem_cons]
        constructor
        · rintro (h | h)
          · exact .inl h
          · exact .inr ⟨.inr h.1, h.2⟩
        · rintro (h | ⟨rfl | h, h'⟩)
          · exact .inl h
          · exact absurd h' hk
          · exact .inr ⟨h, h'⟩

/-- **The loop over the grant scopes.** After what it was given, it keeps the
permission of every grant scope it does not skip and `buildPermission` finds
one for. -/
theorem mem_foldl_directLoopStep (childrenScopes keys : List String) (perms : List Permission)
    (p : Permission) :
    p ∈ keys.foldl (a.directLoopStep requestedType actions childrenScopes) perms ↔ p ∈ perms ∨
      ∃ k ∈ keys, skipDirect childrenScopes k
          (directPermission requestedType k (a.directScopeMap k)) = false ∧
        (a.directBuilt requestedType actions k).1 = true ∧
        p = (a.directBuilt requestedType actions k).2 := by
  induction keys generalizing perms with
  | nil => simp
  | cons k keys ih =>
    rw [List.foldl_cons, ih]
    unfold ACL.directLoopStep
    by_cases hskip : skipDirect childrenScopes k
        (directPermission requestedType k (a.directScopeMap k)) = true
    · simp [hskip]
    · by_cases hfound : (a.directBuilt requestedType actions k).1 = true
      · simp only [hskip, hfound, Bool.false_eq_true, if_false, if_true, List.mem_append,
          List.mem_cons, exists_eq_or_imp, true_and]
        tauto
      · simp [hskip, hfound]

/-- Where a permission of the list comes from: the `descendants` grants, the
`children` grants of a role scope of the map, or the grants of a grant scope of
the map. -/
theorem mem_listResolvableAliasesPermissions {childrenKeys directKeys : List String}
    {p : Permission}
    (hp : p ∈ a.listResolvableAliasesPermissions requestedType actions childrenKeys directKeys) :
    ((a.descendantsBuilt requestedType actions).1 = true ∧
        p = (a.descendantsBuilt requestedType actions).2) ∨
      (∃ k ∈ childrenKeys, (a.childrenBuilt requestedType actions k).1 = true ∧
        p = (a.childrenBuilt requestedType actions k).2) ∨
      ∃ k ∈ directKeys, (a.directBuilt requestedType actions k).1 = true ∧
        p = (a.directBuilt requestedType actions k).2 := by
  dsimp only [ACL.listResolvableAliasesPermissions] at hp
  split at hp
  · rename_i hfound
    split at hp
    · exact .inl ⟨hfound, List.mem_singleton.mp hp⟩
    · -- the shortcut with grants in global: no children, global's own grants
      rename_i hglobal
      dsimp only [ACL.aliasLoops, List.foldl_nil] at hp
      rw [mem_foldl_directLoopStep] at hp
      rcases hp with hp | ⟨k, hk, -, hbuilt, rfl⟩
      · exact .inl ⟨hfound, List.mem_singleton.mp hp⟩
      · obtain rfl := List.mem_singleton.mp hk
        exact .inr (.inr ⟨globalScopeId, not_not.mp hglobal, hbuilt, rfl⟩)
  · dsimp only [ACL.aliasLoops] at hp
    rw [mem_foldl_directLoopStep, (foldl_childrenLoopStep childrenKeys ([], [])).1] at hp
    rcases hp with (hp | hp) | hp
    · cases hp
    · exact .inr (.inl hp)
    · obtain ⟨k, hk, -, hbuilt, rfl⟩ := hp
      exact .inr (.inr ⟨k, hk, hbuilt, rfl⟩)

/-- The role scopes the loop over the `children` grants caches: those whose
permission is found and for all ids. -/
theorem mem_childrenScopes {childrenKeys : List String} {k : String} :
    k ∈ (childrenKeys.foldl (a.childrenLoopStep requestedType actions) ([], [])).2 ↔
      k ∈ childrenKeys ∧ (a.childrenBuilt requestedType actions k).1 = true ∧
        (a.childrenBuilt requestedType actions k).2.all = true := by
  rw [(foldl_childrenLoopStep childrenKeys ([], [])).2]
  simp

section Normal

variable {childrenKeys directKeys : List String}
  (hdesc : (a.descendantsBuilt requestedType actions).1 = false)
include hdesc

/-- Without a `descendants` permission, the list holds the found permission of
every role scope of `children` grants. -/
theorem childrenBuilt_mem {k : String} (hk : k ∈ childrenKeys)
    (hfound : (a.childrenBuilt requestedType actions k).1 = true) :
    (a.childrenBuilt requestedType actions k).2 ∈
      a.listResolvableAliasesPermissions requestedType actions childrenKeys directKeys := by
  dsimp only [ACL.listResolvableAliasesPermissions, ACL.aliasLoops]
  rw [if_neg (by simp [hdesc])]
  rw [mem_foldl_directLoopStep, (foldl_childrenLoopStep childrenKeys ([], [])).1]
  exact .inl (.inr ⟨k, hk, hfound, rfl⟩)

/-- Without a `descendants` permission, the list holds the found permission of
every grant scope that a cached `children` permission does not cover. -/
theorem directBuilt_mem {k : String} (hk : k ∈ directKeys)
    (hskip : skipDirect (childrenKeys.foldl (a.childrenLoopStep requestedType actions) ([], [])).2
      k (directPermission requestedType k (a.directScopeMap k)) = false)
    (hfound : (a.directBuilt requestedType actions k).1 = true) :
    (a.directBuilt requestedType actions k).2 ∈
      a.listResolvableAliasesPermissions requestedType actions childrenKeys directKeys := by
  dsimp only [ACL.listResolvableAliasesPermissions, ACL.aliasLoops]
  rw [if_neg (by simp [hdesc])]
  rw [mem_foldl_directLoopStep]
  exact .inr ⟨k, hk, hskip, hfound, rfl⟩

end Normal

/-- A found `descendants` permission is always in the list. -/
theorem descendantsBuilt_mem {childrenKeys directKeys : List String}
    (hfound : (a.descendantsBuilt requestedType actions).1 = true) :
    (a.descendantsBuilt requestedType actions).2 ∈
      a.listResolvableAliasesPermissions requestedType actions childrenKeys directKeys := by
  dsimp only [ACL.listResolvableAliasesPermissions, ACL.aliasLoops, List.foldl_nil]
  rw [if_pos hfound]
  split
  · exact List.mem_singleton_self _
  · rw [mem_foldl_directLoopStep]
    exact .inl (List.mem_singleton_self _)

/-- A grant scope is skipped only for a cached role scope: the parent of the
role when the role is in the grant scope, or the role's scope otherwise. -/
theorem skipDirect_eq_true {childrenScopes : List String} {grantScopeId : String}
    {p : Permission} (h : skipDirect childrenScopes grantScopeId p = true) :
    (grantScopeId = p.roleScopeId ∧ p.roleParentScopeId ∈ childrenScopes) ∨
      (grantScopeId ≠ p.roleScopeId ∧ p.roleScopeId ∈ childrenScopes ∧
        (Strings.hasPrefix p.roleScopeId orgPrefix = true ∨
          (p.roleScopeId = globalScopeId ∧ Strings.hasPrefix grantScopeId orgPrefix = true))) := by
  unfold skipDirect at h
  split_ifs at h with h₁ h₂ h₃
  · exact .inl ⟨h₁, of_decide_eq_true h⟩
  · exact .inr ⟨h₁, of_decide_eq_true h, .inl h₂⟩
  · exact .inr ⟨h₁, of_decide_eq_true h, .inr h₃⟩

/-- The `descendants` permission is the walk of the `descendants` grants. -/
theorem descendantsBuilt_eq :
    a.descendantsBuilt requestedType actions =
      ((a.descendantsGrants.foldl (permissionStep requestedType actions)
          (descendantsPermission requestedType)).found,
        a.descendantsGrants.foldl (permissionStep requestedType actions)
          (descendantsPermission requestedType)) := by
  simp [ACL.descendantsBuilt, buildPermission_some, ACL.scopeGrants]

/-- The `children` permission of a named role scope is the walk of its
`children` grants. -/
theorem childrenBuilt_eq {k : String} (hk : k ≠ "") :
    a.childrenBuilt requestedType actions k =
      (((a.childrenScopeMap k).foldl (permissionStep requestedType actions)
          (childrenPermission requestedType k)).found,
        (a.childrenScopeMap k).foldl (permissionStep requestedType actions)
          (childrenPermission requestedType k)) := by
  simp [ACL.childrenBuilt, buildPermission_some, ACL.scopeGrants, hk]

/-- The permission of a named grant scope other than global is the walk of its
grants and the `descendants` grants. -/
theorem directBuilt_eq {k : String} (hk : k ≠ "") (hglobal : k ≠ globalScopeId) :
    a.directBuilt requestedType actions k =
      (((a.directScopeMap k ++ a.descendantsGrants).foldl (permissionStep requestedType actions)
          (directPermission requestedType k (a.directScopeMap k))).found,
        (a.directScopeMap k ++ a.descendantsGrants).foldl (permissionStep requestedType actions)
          (directPermission requestedType k (a.directScopeMap k))) := by
  simp [ACL.directBuilt, buildPermission_some, ACL.scopeGrants, hk, hglobal]

/-- The walks keep the scopes of the permissions they start from. -/
@[simp] theorem grantScopeId_descendantsBuilt :
    (a.descendantsBuilt requestedType actions).2.grantScopeId = grantScopeDescendants := by
  simp only [ACL.descendantsBuilt, buildPermission_some, scopes_foldl_permissionStep]
  rfl

@[simp] theorem scopes_childrenBuilt (k : String) :
    (a.childrenBuilt requestedType actions k).2.roleScopeId = k ∧
      (a.childrenBuilt requestedType actions k).2.grantScopeId = grantScopeChildren := by
  simp only [ACL.childrenBuilt, buildPermission_some, scopes_foldl_permissionStep]
  exact ⟨rfl, rfl⟩

@[simp] theorem grantScopeId_directBuilt (k : String) :
    (a.directBuilt requestedType actions k).2.grantScopeId = k := by
  simp only [ACL.directBuilt, buildPermission_some, scopes_foldl_permissionStep]
  rfl

/-- Every permission of the list is a walk, from a permission for no id, of
grants filed in the ACL. -/
theorem exists_walk_of_mem {childrenKeys directKeys : List String} {p : Permission}
    (hp : p ∈ a.listResolvableAliasesPermissions requestedType actions childrenKeys directKeys) :
    ∃ (grants : List AclGrant) (p₀ : Permission),
      p = grants.foldl (permissionStep requestedType actions) p₀ ∧ p₀.all = false ∧
        p₀.resourceIds = [] ∧ ∀ g ∈ grants, g ∈ a.descendantsGrants ∨
          (∃ k, g ∈ a.childrenScopeMap k) ∨ ∃ k, g ∈ a.directScopeMap k := by
  rcases mem_listResolvableAliasesPermissions hp with ⟨-, rfl⟩ | ⟨k, -, -, rfl⟩ | ⟨k, -, -, rfl⟩
  · exact ⟨_, _, rfl, rfl, rfl, fun _ => mem_index_of_mem_scopeGrants⟩
  · exact ⟨_, _, rfl, rfl, rfl, fun _ => mem_index_of_mem_scopeGrants⟩
  · exact ⟨_, _, rfl, rfl, rfl, fun _ => mem_index_of_mem_scopeGrants⟩

end Loops

end Perms

end Boundary
