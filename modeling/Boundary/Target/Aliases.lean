import Boundary.Perms.ResolvableAliases
import Boundary.Target.List

/-!
# Listing resolvable aliases

`ListResolvableAliases` asks `ACL.ListResolvableAliasesPermissions` for the
permissions of the user on targets with the target id actions, and the alias
repository's `splitPermissions` turns them into the where clause of its query:
every alias when a `descendants` permission is for all targets, otherwise the
aliases of the targets in the children of the orgs whose children are all
granted, of the targets named by id, and of the targets in the projects granted
for all ids.

The lists are bound as array literals, and the database's reading of
`x = any(@param)` is a parameter, assumed to be membership on literals of plain
ids. The main result relates the aliases the query selects to `Allowed`: every
alias of a target on which an id action is authorized is selected when no
`descendants` grant names a specific id and the ids and scopes the grants name
are plain.
-/

namespace Boundary.Target

open Perms SqlArray

/-- The four results of `splitPermissions`. -/
structure SplitPermissions where
  directIds : List String
  directScopeIds : List String
  childAllScopes : List String
  allDescendants : Bool

/-- The body of the second loop of `splitPermissions`. -/
def splitStep (acc : SplitPermissions) (p : Permission) : SplitPermissions :=
  if acc.allDescendants then acc
  -- there are no targets in global or orgs
  else if p.grantScopeId = globalScopeId ∨ Strings.hasPrefix p.grantScopeId orgPrefix then acc
  -- the children of global are orgs
  else if p.roleScopeId = globalScopeId ∧ p.grantScopeId = grantScopeChildren then acc
  else if p.grantScopeId = grantScopeChildren ∧ p.all then
    { acc with childAllScopes := acc.childAllScopes ++ [p.roleScopeId] }
  else if p.all then
    if Strings.hasPrefix p.grantScopeId projectPrefix then
      { acc with directScopeIds := acc.directScopeIds ++ [p.grantScopeId] }
    else acc
  else if p.resourceIds.length > 0 then { acc with directIds := acc.directIds ++ p.resourceIds }
  else acc

/-- `splitPermissions`: a `descendants` permission for all ids decides alone. -/
def splitPermissions (permissions : List Permission) : SplitPermissions :=
  if permissions.any fun p => p.grantScopeId == grantScopeDescendants && p.all then
    ⟨[], [], [], true⟩
  else permissions.foldl splitStep ⟨[], [], [], false⟩

/-- The target an alias points to, with the project it is in and the project's
parent, which the query joins on. -/
structure Destination where
  targetId : String
  projectId : String
  parentId : String

/-- The where clause `listResolvableAliases` builds from the split permissions
holds for an alias to the destination, where the database reads `x = any(a)` as
`anyOf x a`: every alias with a destination when a `descendants` permission is
for all ids, otherwise the tests on the lists that are not empty. -/
def SplitPermissions.Selects (anyOf : String → String → Bool) (sp : SplitPermissions)
    (d : Destination) : Prop :=
  sp.allDescendants = true ∨
    (sp.childAllScopes ≠ [] ∧ anyOf d.parentId (arrayLiteral sp.childAllScopes) = true) ∨
    (sp.directIds ≠ [] ∧ anyOf d.targetId (arrayLiteral sp.directIds) = true) ∨
    (sp.directScopeIds ≠ [] ∧ anyOf d.projectId (arrayLiteral sp.directScopeIds) = true)

instance (anyOf : String → String → Bool) (sp : SplitPermissions) (d : Destination) :
    Decidable (sp.Selects anyOf d) := by
  unfold SplitPermissions.Selects; infer_instance

/-- What the where clause selects when its tests are membership in the lists. -/
def SplitPermissions.Includes (sp : SplitPermissions) (d : Destination) : Prop :=
  sp.allDescendants = true ∨ d.parentId ∈ sp.childAllScopes ∨ d.targetId ∈ sp.directIds ∨
    d.projectId ∈ sp.directScopeIds

instance (sp : SplitPermissions) (d : Destination) : Decidable (sp.Includes d) := by
  unfold SplitPermissions.Includes; infer_instance

/-- What one permission adds to the where clause on its own. -/
def PermIncludes (p : Permission) (d : Destination) : Prop :=
  (splitStep ⟨[], [], [], false⟩ p).Includes d

/-! ## The split -/

section Split

variable {d : Destination}

@[simp] theorem allDescendants_splitStep (acc : SplitPermissions) (p : Permission) :
    (splitStep acc p).allDescendants = acc.allDescendants := by
  unfold splitStep
  split_ifs <;> rfl

/-- Outside a `descendants` permission for all ids, a turn of the loop appends
to each list what the permission adds on its own. -/
theorem splitStep_eq_append (acc : SplitPermissions) (p : Permission)
    (hD : acc.allDescendants = false) :
    splitStep acc p = ⟨acc.directIds ++ (splitStep ⟨[], [], [], false⟩ p).directIds,
      acc.directScopeIds ++ (splitStep ⟨[], [], [], false⟩ p).directScopeIds,
      acc.childAllScopes ++ (splitStep ⟨[], [], [], false⟩ p).childAllScopes, false⟩ := by
  obtain ⟨directIds, directScopeIds, childAllScopes, D⟩ := acc
  subst hD
  unfold splitStep
  split_ifs <;> simp

/-- One turn of the loop adds to the selection what the permission includes on
its own. -/
theorem includes_splitStep (acc : SplitPermissions) (p : Permission) :
    (splitStep acc p).Includes d ↔ acc.Includes d ∨ (acc.allDescendants = false ∧ PermIncludes p d) := by
  by_cases hD : acc.allDescendants = true
  · rw [splitStep, if_pos hD]
    simp [hD]
  · have hD' : acc.allDescendants = false := by simpa using hD
    rw [splitStep_eq_append acc p hD']
    simp only [PermIncludes, SplitPermissions.Includes, List.mem_append, hD',
      allDescendants_splitStep, Bool.false_eq_true, false_or, true_and]
    tauto

/-- **The loop of `splitPermissions`.** Without a `descendants` permission for
all ids, the selection is what the permissions select one by one. -/
theorem includes_foldl_splitStep (permissions : List Permission) (acc : SplitPermissions)
    (hacc : acc.allDescendants = false) :
    (permissions.foldl splitStep acc).Includes d ↔
      acc.Includes d ∨ ∃ p ∈ permissions, PermIncludes p d := by
  induction permissions generalizing acc with
  | nil => simp
  | cons p permissions ih =>
    rw [List.foldl_cons, ih _ (by rw [allDescendants_splitStep, hacc]), includes_splitStep]
    simp only [hacc, true_and, List.mem_cons, exists_eq_or_imp]
    tauto

/-- The query includes an alias when a permission for all ids comes from the
`descendants` grants, or when a permission includes it on its own. -/
theorem includes_splitPermissions (permissions : List Permission) :
    (splitPermissions permissions).Includes d ↔
      (∃ p ∈ permissions, p.grantScopeId = grantScopeDescendants ∧ p.all = true) ∨
        ∃ p ∈ permissions, PermIncludes p d := by
  unfold splitPermissions
  split
  · rename_i hany
    simp only [List.any_eq_true, Bool.and_eq_true, beq_iff_eq] at hany
    simp [SplitPermissions.Includes, hany]
  · rename_i hany
    simp only [List.any_eq_true, Bool.and_eq_true, beq_iff_eq, not_exists, not_and] at hany
    rw [includes_foldl_splitStep _ _ rfl]
    have hnone : ¬∃ p ∈ permissions, p.grantScopeId = grantScopeDescendants ∧ p.all = true :=
      fun ⟨p, hp, hgs, hall⟩ => hany p hp hgs hall
    simp [SplitPermissions.Includes, hnone]

/-- The three lists of the split hold plain elements only. -/
structure SplitPermissions.Plain (sp : SplitPermissions) : Prop where
  directIds : ∀ x ∈ sp.directIds, PlainElem x
  directScopeIds : ∀ x ∈ sp.directScopeIds, PlainElem x
  childAllScopes : ∀ x ∈ sp.childAllScopes, PlainElem x

theorem plain_split_empty (allDescendants : Bool) :
    (⟨[], [], [], allDescendants⟩ : SplitPermissions).Plain :=
  ⟨by simp, by simp, by simp⟩

/-- On plain lists, a database whose `any` is membership selects what the lists
include. -/
theorem selects_iff_includes {anyOf : String → String → Bool} (hdb : AnyIsMembership anyOf)
    {sp : SplitPermissions} (hplain : sp.Plain) : sp.Selects anyOf d ↔ sp.Includes d := by
  unfold SplitPermissions.Selects SplitPermissions.Includes
  rw [hdb _ hplain.childAllScopes, hdb _ hplain.directIds, hdb _ hplain.directScopeIds]
  constructor
  · rintro (h | ⟨-, h⟩ | ⟨-, h⟩ | ⟨-, h⟩)
    · exact .inl h
    · exact .inr (.inl h)
    · exact .inr (.inr (.inl h))
    · exact .inr (.inr (.inr h))
  · rintro (h | h | h | h)
    · exact .inl h
    · exact .inr (.inl ⟨List.ne_nil_of_mem h, h⟩)
    · exact .inr (.inr (.inl ⟨List.ne_nil_of_mem h, h⟩))
    · exact .inr (.inr (.inr ⟨List.ne_nil_of_mem h, h⟩))

theorem plain_splitStep {acc : SplitPermissions} (hacc : acc.Plain) {p : Permission}
    (hp : (splitStep ⟨[], [], [], false⟩ p).Plain) : (splitStep acc p).Plain := by
  by_cases hD : acc.allDescendants = true
  · rw [splitStep, if_pos hD]
    exact hacc
  · rw [splitStep_eq_append acc p (by simpa using hD)]
    refine ⟨fun x hx => ?_, fun x hx => ?_, fun x hx => ?_⟩
    · exact (List.mem_append.mp hx).elim (hacc.directIds x) (hp.directIds x)
    · exact (List.mem_append.mp hx).elim (hacc.directScopeIds x) (hp.directScopeIds x)
    · exact (List.mem_append.mp hx).elim (hacc.childAllScopes x) (hp.childAllScopes x)

/-- **The loop keeps the lists plain** when what each permission adds is. -/
theorem plain_foldl_splitStep : ∀ (permissions : List Permission) {acc : SplitPermissions},
    acc.Plain → (∀ p ∈ permissions, (splitStep ⟨[], [], [], false⟩ p).Plain) →
      (permissions.foldl splitStep acc).Plain
  | [], _, hacc, _ => hacc
  | p :: permissions, _, hacc, hperms =>
    plain_foldl_splitStep permissions (plain_splitStep hacc (hperms p List.mem_cons_self))
      fun q hq => hperms q (List.mem_cons_of_mem _ hq)

theorem plain_splitPermissions {permissions : List Permission}
    (hperms : ∀ p ∈ permissions, (splitStep ⟨[], [], [], false⟩ p).Plain) :
    (splitPermissions permissions).Plain := by
  unfold splitPermissions
  split
  · exact plain_split_empty true
  · exact plain_foldl_splitStep permissions (plain_split_empty false) hperms

/-- A permission adds plain elements only when its ids are plain, its role
scope is when it is for the children of a scope other than global, and its
grant scope is when that is a project. -/
theorem plain_splitStep_empty {p : Permission} (hids : ∀ x ∈ p.resourceIds, PlainElem x)
    (hrole : p.grantScopeId = grantScopeChildren → p.roleScopeId ≠ globalScopeId →
      PlainElem p.roleScopeId)
    (hscope : Strings.hasPrefix p.grantScopeId projectPrefix = true → PlainElem p.grantScopeId) :
    (splitStep ⟨[], [], [], false⟩ p).Plain := by
  unfold splitStep
  simp only [Bool.false_eq_true, if_false]
  -- the cases of the switch, in its order
  split_ifs with h₁ h₂ h₃ h₄ h₅ h₆
  · exact plain_split_empty false
  · exact plain_split_empty false
  · exact ⟨by simp, by simp, by simpa using hrole h₃.1 fun h => h₂ ⟨h, h₃.1⟩⟩
  · exact ⟨by simp, by simpa using hscope h₅, by simp⟩
  · exact plain_split_empty false
  · exact ⟨by simpa using hids, by simp, by simp⟩
  · exact plain_split_empty false

theorem not_includes_empty : ¬(⟨[], [], [], false⟩ : SplitPermissions).Includes d := by
  simp [SplitPermissions.Includes]

/-- What a permission includes on its own: nothing in global or an org, nothing
for the children of global; the projects under its org for the children of an
org granted for all ids, its project when granted for all ids, or its ids. -/
theorem permIncludes_iff (p : Permission) :
    PermIncludes p d ↔
      ¬(p.grantScopeId = globalScopeId ∨ Strings.hasPrefix p.grantScopeId orgPrefix = true) ∧
      ¬(p.roleScopeId = globalScopeId ∧ p.grantScopeId = grantScopeChildren) ∧
      ((p.grantScopeId = grantScopeChildren ∧ p.all = true ∧ d.parentId = p.roleScopeId) ∨
        (p.grantScopeId ≠ grantScopeChildren ∧ p.all = true ∧
          Strings.hasPrefix p.grantScopeId projectPrefix = true ∧ d.projectId = p.grantScopeId) ∨
        (p.all = false ∧ d.targetId ∈ p.resourceIds)) := by
  unfold PermIncludes splitStep
  simp only [Bool.false_eq_true, if_false]
  -- the cases of the switch, in its order
  by_cases h₁ : p.grantScopeId = globalScopeId ∨ Strings.hasPrefix p.grantScopeId orgPrefix = true
  · rw [if_pos h₁]
    exact iff_of_false not_includes_empty fun h => h.1 h₁
  rw [if_neg h₁]
  by_cases h₂ : p.roleScopeId = globalScopeId ∧ p.grantScopeId = grantScopeChildren
  · rw [if_pos h₂]
    exact iff_of_false not_includes_empty fun h => h.2.1 h₂
  rw [if_neg h₂]
  by_cases h₃ : p.grantScopeId = grantScopeChildren ∧ p.all = true
  · rw [if_pos h₃]
    simp only [SplitPermissions.Includes, List.nil_append, List.mem_singleton, List.not_mem_nil,
      Bool.false_eq_true, false_or, or_false]
    constructor
    · intro h
      exact ⟨h₁, h₂, .inl ⟨h₃.1, h₃.2, h⟩⟩
    · rintro ⟨-, -, ⟨-, -, h⟩ | ⟨hc, -⟩ | ⟨hall, -⟩⟩
      · exact h
      · exact absurd h₃.1 hc
      · simp [h₃.2] at hall
  rw [if_neg h₃]
  by_cases h₄ : p.all = true
  · have hchildren : p.grantScopeId ≠ grantScopeChildren := fun h => h₃ ⟨h, h₄⟩
    rw [if_pos h₄]
    by_cases h₅ : Strings.hasPrefix p.grantScopeId projectPrefix = true
    · rw [if_pos h₅]
      simp only [SplitPermissions.Includes, List.nil_append, List.mem_singleton,
        List.not_mem_nil, Bool.false_eq_true, false_or]
      constructor
      · intro h
        exact ⟨h₁, h₂, .inr (.inl ⟨hchildren, h₄, h₅, h⟩)⟩
      · rintro ⟨-, -, ⟨hc, -⟩ | ⟨-, -, -, h⟩ | ⟨hall, -⟩⟩
        · exact absurd hc hchildren
        · exact h
        · simp [h₄] at hall
    · rw [if_neg h₅]
      refine iff_of_false not_includes_empty ?_
      rintro ⟨-, -, ⟨hc, -⟩ | ⟨-, -, hp, -⟩ | ⟨hall, -⟩⟩
      · exact hchildren hc
      · exact h₅ hp
      · simp [h₄] at hall
  · rw [if_neg h₄]
    have hall : p.all = false := by simpa using h₄
    by_cases h₆ : p.resourceIds.length > 0
    · rw [if_pos h₆]
      simp only [SplitPermissions.Includes, List.nil_append, List.not_mem_nil,
        Bool.false_eq_true, false_or, or_false]
      constructor
      · intro h
        exact ⟨h₁, h₂, .inr (.inr ⟨hall, h⟩)⟩
      · rintro ⟨-, -, ⟨-, h, -⟩ | ⟨-, h, -⟩ | ⟨-, h⟩⟩
        · exact absurd h h₄
        · exact absurd h h₄
        · exact h
    · have hnil : p.resourceIds = [] := List.eq_nil_of_length_eq_zero (by omega)
      rw [if_neg h₆]
      refine iff_of_false not_includes_empty ?_
      rintro ⟨-, -, ⟨-, h, -⟩ | ⟨-, h, -⟩ | ⟨-, h⟩⟩
      · exact h₄ h
      · exact h₄ h
      · simp [hnil] at h

end Split

/-! ## Scopes and grants -/

/-- An id with a one-letter prefix starts with that letter. -/
theorem head?_of_hasPrefix {s pre : String} {c : Char} (hpre : pre.toList = [c])
    (h : Strings.hasPrefix s pre = true) : s.toList.head? = some c := by
  obtain ⟨rest, hrest⟩ := List.isPrefixOf_iff_prefix.mp h
  rw [← hrest, hpre]
  rfl

theorem ne_of_head? {s t : String} {c e : Char} (hs : s.toList.head? = some c)
    (ht : t.toList.head? = some e) (hne : c ≠ e) : s ≠ t := by
  rintro rfl
  exact hne (Option.some.inj (hs.symm.trans ht))

/-- A project id is none of the other scope names the code compares with. -/
theorem project_ne {s : String} (hs : Strings.hasPrefix s projectPrefix = true) :
    s ≠ "" ∧ s ≠ globalScopeId ∧ s ≠ grantScopeChildren ∧ s ≠ grantScopeDescendants ∧
      Strings.hasPrefix s orgPrefix = false := by
  have hhead := head?_of_hasPrefix (c := 'p') (by decide) hs
  refine ⟨?_, ne_of_head? (e := 'g') hhead (by decide) (by decide),
    ne_of_head? (e := 'c') hhead (by decide) (by decide),
    ne_of_head? (e := 'd') hhead (by decide) (by decide), ?_⟩
  · rintro rfl
    cases hhead
  · by_contra horg
    have := head?_of_hasPrefix (c := 'o') (by decide) (Bool.not_eq_false _ ▸ horg)
    rw [hhead] at this
    cases this

/-- An org id is neither empty nor global, and no project id. -/
theorem org_ne {o : String} (ho : Strings.hasPrefix o orgPrefix = true) :
    o ≠ "" ∧ o ≠ globalScopeId ∧ ∀ s, Strings.hasPrefix s projectPrefix = true → o ≠ s := by
  have hhead := head?_of_hasPrefix (c := 'o') (by decide) ho
  refine ⟨?_, ne_of_head? (e := 'g') hhead (by decide) (by decide), fun s hs =>
    ne_of_head? hhead (head?_of_hasPrefix (c := 'p') (by decide) hs) (by decide)⟩
  rintro rfl
  cases hhead

/-- A grant scope with grants filed under it names no `children` or
`descendants` grant scope. -/
theorem ne_of_directScopeMap_ne_nil {grants : List Grant} {k : String}
    (h : (newACL grants).directScopeMap k ≠ []) :
    k ≠ grantScopeChildren ∧ k ≠ grantScopeDescendants := by
  obtain ⟨g, hg⟩ := List.exists_mem_of_ne_nil _ h
  obtain ⟨grant, -, ⟨⟨hdesc, hchildren⟩, rfl⟩, -⟩ := exists_of_mem_directScopeMap hg
  exact ⟨hchildren, hdesc⟩

/-- The scopes a grant names are as Boundary generates them: its role's scope
unless global, and its grant scope when that is a project, are plain elements
of an array literal. -/
structure ScopesPlain (grant : Grant) : Prop where
  roleScopeId : grant.roleScopeId ≠ globalScopeId → PlainElem grant.roleScopeId
  grantScopeId : Strings.hasPrefix grant.grantScopeId projectPrefix = true →
    PlainElem grant.grantScopeId

/-- What each permission of the list adds to the split is plain when the ids
and scopes the grants name are. -/
theorem plain_of_mem_listResolvableAliasesPermissions {grants : List Grant}
    {requestedType : ResourceType} {actions : Finset ActionType} {childrenKeys directKeys : List String}
    (hchildrenKeys : ∀ k ∈ childrenKeys, (newACL grants).childrenScopeMap k ≠ [])
    (hdirectKeys : ∀ k ∈ directKeys, (newACL grants).directScopeMap k ≠ [])
    (hplain : ∀ g ∈ grants, IdsPlain g) (hscopes : ∀ g ∈ grants, ScopesPlain g) {p : Permission}
    (hp : p ∈ (newACL grants).listResolvableAliasesPermissions requestedType actions childrenKeys
      directKeys) :
    (splitStep ⟨[], [], [], false⟩ p).Plain := by
  have hids : ∀ x ∈ p.resourceIds, PlainElem x := by
    obtain ⟨walked, p₀, hwalk, -, hids₀, hindex⟩ := exists_walk_of_mem hp
    intro x hx
    rw [hwalk] at hx
    exact plain_of_mem_resourceIds_foldl hplain (by simp [hids₀]) hindex hx
  refine plain_splitStep_empty hids ?_ ?_
  all_goals rcases mem_listResolvableAliasesPermissions hp with ⟨-, rfl⟩ | ⟨k, hk, -, rfl⟩ |
    ⟨k, hk, -, rfl⟩
  · -- the `descendants` permission is not for the children of a scope
    intro h
    rw [grantScopeId_descendantsBuilt] at h
    exact absurd h (by decide)
  · -- a `children` permission carries the role scope of a `children` grant
    rintro - hglobal
    rw [(scopes_childrenBuilt k).1] at hglobal ⊢
    obtain ⟨g, hg⟩ := List.exists_mem_of_ne_nil _ (hchildrenKeys k hk)
    obtain ⟨grant, hgrant, ⟨-, rfl⟩, -⟩ := exists_of_mem_childrenScopeMap hg
    exact (hscopes grant hgrant).roleScopeId hglobal
  · intro h
    rw [grantScopeId_directBuilt] at h
    exact absurd h (ne_of_directScopeMap_ne_nil (hdirectKeys k hk)).1
  · intro h
    rw [grantScopeId_descendantsBuilt] at h
    exact absurd h (by decide)
  · intro h
    rw [(scopes_childrenBuilt k).2] at h
    exact absurd h (by decide)
  · -- a permission of a grant scope carries the scope of a grant filed under it
    intro h
    rw [grantScopeId_directBuilt] at h ⊢
    obtain ⟨g, hg⟩ := List.exists_mem_of_ne_nil _ (hdirectKeys k hk)
    obtain ⟨grant, hgrant, ⟨-, rfl⟩, -⟩ := exists_of_mem_directScopeMap hg
    exact (hscopes grant hgrant).grantScopeId h

/-! ## Against `Allowed` -/

section Agreement

variable {grants : List Grant} {childrenKeys directKeys : List String} {d : Destination}
  {userId : String} {opts : Options} {pin : String} {anyOf : String → String → Bool}

/-- The resource `Allowed` is asked about for the destination of an alias. -/
def Destination.resource (d : Destination) (pin : String) : Resource :=
  ⟨d.projectId, d.targetId, .target, pin, d.parentId⟩

theorem unknown_not_mem_read : ActionType.unknown ∉ ({.read} : Finset ActionType) := by
  decide

/-- A grant with the wildcard in `ids` has no `id`. -/
theorem id_or_ids_star : ("" : String) = "" ∨ (["*"] : List String) = [] :=
  .inl rfl

/-- `ids=*;type=target;actions=read`, granted in the project by a role of the
project. -/
def projectReadGrant : Grant where
  roleScopeId := projectInfo.id
  roleParentScopeId := projectInfo.parentScopeId
  id := ""
  ids := ["*"]
  grantScopeId := projectInfo.id
  typ := .target
  actions := {.read}
  outputFields := .unset
  unknown_not_mem := unknown_not_mem_read
  id_or_ids := id_or_ids_star

/-- A target of that project. -/
def projectDestination : Destination :=
  ⟨"ttcp_1234567890", projectInfo.id, projectInfo.parentScopeId⟩

/-- The `children` permission of the target's org includes the alias when it
covers the target's id. -/
theorem permIncludes_childrenBuilt {a : ACL} {requestedType : ResourceType}
    {actions : Finset ActionType} (hglobal : d.parentId ≠ globalScopeId)
    (hcov : (a.childrenBuilt requestedType actions d.parentId).2.Covers d.targetId) :
    PermIncludes (a.childrenBuilt requestedType actions d.parentId).2 d := by
  rw [permIncludes_iff, (scopes_childrenBuilt _).1, (scopes_childrenBuilt _).2]
  refine ⟨by decide, fun h => hglobal h.1, ?_⟩
  by_cases hall : (a.childrenBuilt requestedType actions d.parentId).2.all = true
  · exact .inl ⟨rfl, hall, rfl⟩
  · exact .inr (.inr ⟨by simpa using hall, hcov.resolve_left hall⟩)

/-- The permission of the target's project includes the alias when it covers the
target's id. -/
theorem permIncludes_directBuilt {a : ACL} {requestedType : ResourceType}
    {actions : Finset ActionType} (hproject : Strings.hasPrefix d.projectId projectPrefix = true)
    (hcov : (a.directBuilt requestedType actions d.projectId).2.Covers d.targetId) :
    PermIncludes (a.directBuilt requestedType actions d.projectId).2 d := by
  obtain ⟨-, hsGlobal, hsChildren, -, hsOrg⟩ := project_ne hproject
  rw [permIncludes_iff, grantScopeId_directBuilt]
  refine ⟨?_, fun h => hsChildren h.2, ?_⟩
  · rintro (h | h)
    · exact hsGlobal h
    · exact absurd h (by simp [hsOrg])
  · by_cases hall : (a.directBuilt requestedType actions d.projectId).2.all = true
    · exact .inr (.inl ⟨hsChildren, hall, hproject, rfl⟩)
    · exact .inr (.inr ⟨by simpa using hall, hcov.resolve_left hall⟩)

/-- **Resolvable aliases are never hidden.** When the key lists are the keys of
the ACL's maps, no `descendants` grant names a specific id and the ids and
scopes the grants name are plain, the query selects, on a database whose `any`
is membership on literals of plain ids, every alias whose target, in a project
of an org whose direct grants come from roles of the project, of the org or of
global, has an id action that `Allowed` authorizes for a user the anonymous
restriction does not apply to.

The hypothesis on `descendants` grants is needed: one naming another target
takes the shortcut alone, so `ids=*;type=target;actions=read` in the project is
never looked at and the aliases of the project's targets are not selected. -/
theorem resolvable_of_allowed (hdb : AnyIsMembership anyOf)
    (hchildrenKeys : ∀ k, k ∈ childrenKeys ↔ (newACL grants).childrenScopeMap k ≠ [])
    (hdirectKeys : ∀ k, k ∈ directKeys ↔ (newACL grants).directScopeMap k ≠ [])
    (hdesc : ∀ g ∈ grants, g.grantScopeId = grantScopeDescendants →
      ∀ x ∈ g.aclIds, x = "*" ∨ x = "")
    (hplain : ∀ g ∈ grants, IdsPlain g) (hscopes : ∀ g ∈ grants, ScopesPlain g)
    (hproject : Strings.hasPrefix d.projectId projectPrefix = true)
    (horg : Strings.hasPrefix d.parentId orgPrefix = true)
    (hroles : ∀ g ∈ grants, g.IsDirect → g.grantScopeId = d.projectId →
      (g.roleScopeId = d.projectId ∧ g.roleParentScopeId = d.parentId) ∨
        g.roleScopeId = d.parentId ∨ g.roleScopeId = globalScopeId)
    (hanon : anonRestricted userId opts = false)
    (hid : resourceInfoFromPrefix d.targetId = .target) {aType : ActionType}
    (haType : aType ∈ idActions)
    (hallowed : ((newACL grants).allowed (d.resource pin) aType userId opts).authorized = true) :
    (splitPermissions ((newACL grants).listResolvableAliasesPermissions .target idActions
      childrenKeys directKeys)).Selects anyOf d := by
  -- the lists the query binds are plain, so its tests are membership
  rw [selects_iff_includes hdb (plain_splitPermissions fun _ hp =>
    plain_of_mem_listResolvableAliasesPermissions (fun k hk => (hchildrenKeys k).mp hk)
      (fun k hk => (hdirectKeys k).mp hk) hplain hscopes hp)]
  obtain ⟨hs, hsGlobal, -, -, hsOrg⟩ := project_ne hproject
  obtain ⟨ho, hoGlobal, hos⟩ := org_ne horg
  have hidNe := ne_empty_of_resourceInfoFromPrefix (by decide) hid
  -- the grant that authorizes passes the tests of `buildPermission`
  obtain ⟨g, hg, hauth⟩ := (allowed_eq _ _ aType userId opts).1.mp hallowed
  have hunknown : ActionType.unknown ∉ g.actionSet := by
    obtain ⟨grant, -, -, x, -, rfl⟩ := mem_grantsFor_newACL.mp hg
    exact grant.unknown_not_mem
  obtain ⟨hm, hgid⟩ := grantMatches_of_authorizes (r := d.resource pin) hanon rfl hid
    haType (.inl (parentAction_idActions aType haType)) hunknown hauth
  rw [includes_splitPermissions]
  by_cases hD : ((newACL grants).descendantsBuilt .target idActions).1 = true
  · -- a `descendants` permission, which names no id, so is for all ids
    left
    refine ⟨_, descendantsBuilt_mem hD, grantScopeId_descendantsBuilt, ?_⟩
    rw [descendantsBuilt_eq] at hD ⊢
    simp only [Permission.found, Bool.or_eq_true, Bool.not_eq_true', List.isEmpty_eq_false_iff]
      at hD
    rcases hD with hall | hids
    · exact hall
    · obtain ⟨x, hx⟩ := List.exists_mem_of_ne_nil _ hids
      rcases mem_resourceIds_foldl hx with hx | ⟨g', hg', -, rfl, hstar, hempty⟩
      · cases hx
      · obtain ⟨grant, hgrant, hgs, x, hxids, rfl⟩ := exists_of_mem_descendantsGrants hg'
        rcases hdesc grant hgrant hgs x hxids with h | h
        · exact absurd h hstar
        · exact absurd h hempty
  · right
    have hD' : ((newACL grants).descendantsBuilt .target idActions).1 = false := by simpa using hD
    unfold ACL.grantsFor at hg
    simp only [Destination.resource, List.mem_append, ne_eq, hsGlobal, not_false_eq_true,
      if_true] at hg
    rcases hg with (hdirect | hchildren) | hdescendants
    · -- a grant of the project: the project's permission, unless the org's children
      -- permission, for all ids, covers the project
      obtain ⟨g₀, rest, hhead⟩ := List.exists_cons_of_ne_nil (List.ne_nil_of_mem hdirect)
      obtain ⟨grant₀, hgrant₀, ⟨hdir₀, hgs₀⟩, x₀, -, hg₀⟩ :=
        exists_of_mem_directScopeMap (hhead ▸ List.mem_cons_self : g₀ ∈ _)
      have hP : directPermission .target d.projectId ((newACL grants).directScopeMap d.projectId) =
          ⟨grant₀.roleScopeId, grant₀.roleParentScopeId, d.projectId, .target,
            .listResolvableAliases, [], true, false⟩ := by
        rw [hhead, hg₀]
        rfl
      by_cases hskip : skipDirect ((childrenKeys.foldl
          ((newACL grants).childrenLoopStep .target idActions) ([], [])).2) d.projectId
          (directPermission .target d.projectId ((newACL grants).directScopeMap d.projectId)) = true
      · have hcached : d.parentId ∈ (childrenKeys.foldl
            ((newACL grants).childrenLoopStep .target idActions) ([], [])).2 := by
          rw [hP] at hskip
          rcases skipDirect_eq_true hskip with ⟨hrs, hrp⟩ | ⟨hrs, hmem, hpre⟩
          · -- the role is in the project, so its parent is the org
            rcases hroles grant₀ hgrant₀ hdir₀ hgs₀ with ⟨-, hrp'⟩ | hro | hrg
            · rwa [← hrp']
            · exact absurd (hrs.trans hro) (hos _ hproject).symm
            · exact absurd (hrs.trans hrg) hsGlobal
          · rcases hroles grant₀ hgrant₀ hdir₀ hgs₀ with ⟨hrs', -⟩ | hro | hrg
            · exact absurd hrs'.symm hrs
            · rwa [← hro]
            · -- a role in global is skipped only for an org, which the project is not
              have hglobalOrg : Strings.hasPrefix globalScopeId orgPrefix = false := by decide
              rcases hpre with h | ⟨-, h⟩
              · have h' : Strings.hasPrefix globalScopeId orgPrefix = true := by
                  rw [← hrg]
                  exact h
                rw [hglobalOrg] at h'
                cases h'
              · rw [hsOrg] at h
                cases h
        obtain ⟨hkey, hfound, hall⟩ := mem_childrenScopes.mp hcached
        exact ⟨_, childrenBuilt_mem hD' hkey hfound, permIncludes_childrenBuilt hoGlobal (.inl hall)⟩
      · -- the project's own permission covers the target
        have hcov : ((newACL grants).directBuilt .target idActions d.projectId).2.Covers
            d.targetId := by
          rw [directBuilt_eq hs hsGlobal, covers_foldl_iff hidNe.2 hidNe.1]
          exact .inr ⟨g, List.mem_append_left _ hdirect, hm, hgid⟩
        have hfound : ((newACL grants).directBuilt .target idActions d.projectId).1 = true := by
          rw [directBuilt_eq hs hsGlobal] at hcov ⊢
          exact Permission.found_of_covers hcov
        have hkey : d.projectId ∈ directKeys :=
          (hdirectKeys _).mpr (List.ne_nil_of_mem hdirect)
        exact ⟨_, directBuilt_mem hD' hkey (by simpa using hskip) hfound,
          permIncludes_directBuilt hproject hcov⟩
    · -- a `children` grant of the org: the org's children permission covers the target
      have hcov : ((newACL grants).childrenBuilt .target idActions d.parentId).2.Covers
          d.targetId := by
        rw [childrenBuilt_eq ho, covers_foldl_iff hidNe.2 hidNe.1]
        exact .inr ⟨g, hchildren, hm, hgid⟩
      have hfound : ((newACL grants).childrenBuilt .target idActions d.parentId).1 = true := by
        rw [childrenBuilt_eq ho] at hcov ⊢
        exact Permission.found_of_covers hcov
      have hkey : d.parentId ∈ childrenKeys :=
        (hchildrenKeys _).mpr (List.ne_nil_of_mem hchildren)
      exact ⟨_, childrenBuilt_mem hD' hkey hfound, permIncludes_childrenBuilt hoGlobal hcov⟩
    · -- a `descendants` grant would have given a `descendants` permission
      have hcov : ((newACL grants).descendantsBuilt .target idActions).2.Covers d.targetId := by
        rw [descendantsBuilt_eq, covers_foldl_iff hidNe.2 hidNe.1]
        exact .inr ⟨g, hdescendants, hm, hgid⟩
      have hfound : ((newACL grants).descendantsBuilt .target idActions).1 = true := by
        rw [descendantsBuilt_eq] at hcov ⊢
        exact Permission.found_of_covers hcov
      exact absurd hfound hD

/-- Under `ids=*;type=target;actions=read` in a project, the query selects the
aliases of the project's targets, on a database that splits literals at the
commas. -/
theorem resolvable_of_allowed_project_read :
    (splitPermissions ((newACL [projectReadGrant]).listResolvableAliasesPermissions .target
      idActions [] [projectInfo.id])).Selects anySplit projectDestination :=
  @resolvable_of_allowed [projectReadGrant] [] [projectInfo.id] projectDestination "u_1234567890"
    {} "" anySplit anySplit_isMembership
    (fun k => by
      simp [newACL_childrenScopeMap, ACL.childrenStep, projectReadGrant, projectInfo,
        grantScopeChildren])
    (fun k => by
      simp [newACL_directScopeMap, ACL.directStep, projectReadGrant, projectInfo,
        grantScopeChildren, Grant.IsDirect, grantScopeDescendants, Grant.aclIds, eq_comm])
    (by decide) (by decide)
    (fun g hg => by
      rw [List.mem_singleton.mp hg]
      exact ⟨fun _ => by decide, fun _ => by decide⟩)
    (by decide) (by decide) (by decide) (by decide) (by decide) .read (by decide) (by decide)

end Agreement

end Boundary.Target
