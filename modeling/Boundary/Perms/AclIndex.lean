import Boundary.Perms.Acl

/-!
# What the ACL indexes hold

The three maps `NewACL` builds are flat concatenations over the grants, each
grant contributing its exploded ids under the one index its grant scope selects.
From this, the grants `Allowed` considers for a resource are exactly the exploded
grants that apply to the resource's scope, and they are permuted along with the
input.
-/

namespace Boundary.Perms

namespace Grant

/-- The grant is filed under `directScopeMap`. -/
def IsDirect (grant : Grant) : Prop :=
  grant.grantScopeId ≠ grantScopeDescendants ∧ grant.grantScopeId ≠ grantScopeChildren

/-- A grant applies to the scope of a resource: by naming the scope, as a
`children` grant of a role in the parent scope, or as a `descendants` grant
outside `global`. -/
def AppliesTo (grant : Grant) (r : Resource) : Prop :=
  (grant.IsDirect ∧ grant.grantScopeId = r.scopeId) ∨
  (grant.grantScopeId = grantScopeChildren ∧ grant.roleScopeId = r.parentScopeId) ∨
  (grant.grantScopeId = grantScopeDescendants ∧ r.scopeId ≠ globalScopeId)

instance (grant : Grant) : Decidable grant.IsDirect := by
  unfold IsDirect; infer_instance

instance (grant : Grant) (r : Resource) : Decidable (grant.AppliesTo r) := by
  unfold AppliesTo; infer_instance

end Grant

namespace ACL

/-- An index of the ACL that grows by the entries `step` names with each
filed grant; one induction over `NewACL` serves all three indexes. -/
theorem foldl_index (proj : ACL → List AclGrant) (step : Grant → String → List AclGrant)
    (hstep : ∀ acl grant id, proj (acl.fileGrant grant id) = proj acl ++ step grant id)
    (grants : List Grant) (acl : ACL) :
    proj (grants.foldl (fun acl grant => grant.aclIds.foldl
        (fun acl id => acl.fileGrant grant id) acl) acl) =
      proj acl ++ grants.flatMap fun grant => grant.aclIds.flatMap (step grant) := by
  have hids : ∀ (grant : Grant) (ids : List String) (acl : ACL),
      proj (ids.foldl (fun acl id => acl.fileGrant grant id) acl) =
        proj acl ++ ids.flatMap (step grant) := by
    intro grant ids
    induction ids with
    | nil => simp
    | cons id ids ih => intro acl; simp [ih, hstep]
  induction grants generalizing acl with
  | nil => simp
  | cons grant grants ih => simp [ih, hids]

/-- The entries one grant files under `directScopeMap[k]`. -/
def directStep (k : String) (grant : Grant) (id : String) : List AclGrant :=
  if grant.IsDirect ∧ grant.grantScopeId = k then [aclGrantFromGrant grant id] else []

/-- The entries one grant files under `childrenScopeMap[k]`. -/
def childrenStep (k : String) (grant : Grant) (id : String) : List AclGrant :=
  if grant.grantScopeId ≠ grantScopeDescendants ∧ grant.grantScopeId = grantScopeChildren ∧
    grant.roleScopeId = k then [aclGrantFromGrant grant id] else []

/-- The entries one grant files under `descendantsGrants`. -/
def descendantsStep (grant : Grant) (id : String) : List AclGrant :=
  if grant.grantScopeId = grantScopeDescendants then [aclGrantFromGrant grant id] else []

theorem fileGrant_direct (acl : ACL) (grant : Grant) (id k : String) :
    (acl.fileGrant grant id).directScopeMap k = acl.directScopeMap k ++ directStep k grant id := by
  unfold fileGrant directStep Grant.IsDirect appendAt
  by_cases hd : grant.grantScopeId = grantScopeDescendants <;>
    by_cases hc : grant.grantScopeId = grantScopeChildren <;>
    by_cases hk : k = grant.grantScopeId <;> simp [hd, hc, hk, eq_comm]

theorem fileGrant_children (acl : ACL) (grant : Grant) (id k : String) :
    (acl.fileGrant grant id).childrenScopeMap k =
      acl.childrenScopeMap k ++ childrenStep k grant id := by
  unfold fileGrant childrenStep appendAt
  by_cases hd : grant.grantScopeId = grantScopeDescendants <;>
    by_cases hc : grant.grantScopeId = grantScopeChildren <;>
    by_cases hk : k = grant.roleScopeId <;> simp [hd, hc, hk, eq_comm]

theorem fileGrant_descendants (acl : ACL) (grant : Grant) (id : String) :
    (acl.fileGrant grant id).descendantsGrants =
      acl.descendantsGrants ++ descendantsStep grant id := by
  unfold fileGrant descendantsStep
  by_cases hd : grant.grantScopeId = grantScopeDescendants <;>
    by_cases hc : grant.grantScopeId = grantScopeChildren <;> simp [hd, hc]

end ACL

theorem newACL_directScopeMap (grants : List Grant) (k : String) :
    (newACL grants).directScopeMap k =
      grants.flatMap fun grant => grant.aclIds.flatMap (ACL.directStep k grant) := by
  simpa [newACL, ACL.empty] using ACL.foldl_index (fun acl => acl.directScopeMap k)
    (ACL.directStep k) (fun acl grant id => ACL.fileGrant_direct acl grant id k) grants ACL.empty

theorem newACL_childrenScopeMap (grants : List Grant) (k : String) :
    (newACL grants).childrenScopeMap k =
      grants.flatMap fun grant => grant.aclIds.flatMap (ACL.childrenStep k grant) := by
  simpa [newACL, ACL.empty] using ACL.foldl_index (fun acl => acl.childrenScopeMap k)
    (ACL.childrenStep k) (fun acl grant id => ACL.fileGrant_children acl grant id k) grants
    ACL.empty

theorem newACL_descendantsGrants (grants : List Grant) :
    (newACL grants).descendantsGrants =
      grants.flatMap fun grant => grant.aclIds.flatMap (ACL.descendantsStep grant) := by
  simpa [newACL, ACL.empty] using ACL.foldl_index ACL.descendantsGrants
    ACL.descendantsStep ACL.fileGrant_descendants grants ACL.empty

namespace ACL

theorem mem_directStep {k x : String} {grant : Grant} {ag : AclGrant} :
    ag ∈ directStep k grant x ↔
      (grant.IsDirect ∧ grant.grantScopeId = k) ∧ ag = aclGrantFromGrant grant x := by
  unfold directStep
  split <;> simp_all

theorem mem_childrenStep {k x : String} {grant : Grant} {ag : AclGrant} :
    ag ∈ childrenStep k grant x ↔
      (grant.grantScopeId = grantScopeChildren ∧ grant.roleScopeId = k) ∧
        ag = aclGrantFromGrant grant x := by
  unfold childrenStep
  by_cases hc : grant.grantScopeId = grantScopeChildren <;> simp [hc]

theorem mem_descendantsStep {x : String} {grant : Grant} {ag : AclGrant} :
    ag ∈ descendantsStep grant x ↔
      grant.grantScopeId = grantScopeDescendants ∧ ag = aclGrantFromGrant grant x := by
  unfold descendantsStep
  split <;> simp_all

end ACL

/-- **The lookup of `Allowed`.** The grants it walks for a resource are the
exploded grants of the input that apply to the resource's scope. -/
theorem mem_grantsFor_newACL {grants : List Grant} {r : Resource} {ag : AclGrant} :
    ag ∈ (newACL grants).grantsFor r ↔
      ∃ grant ∈ grants, grant.AppliesTo r ∧ ∃ x ∈ grant.aclIds, ag = aclGrantFromGrant grant x := by
  have hdesc : ag ∈ (if r.scopeId ≠ globalScopeId then (newACL grants).descendantsGrants else []) ↔
      r.scopeId ≠ globalScopeId ∧ ∃ g ∈ grants, ∃ x ∈ g.aclIds,
        g.grantScopeId = grantScopeDescendants ∧ ag = aclGrantFromGrant g x := by
    split <;> simp [*, newACL_descendantsGrants, List.mem_flatMap, ACL.mem_descendantsStep]
  simp only [ACL.grantsFor, List.mem_append, hdesc, newACL_directScopeMap,
    newACL_childrenScopeMap, List.mem_flatMap, ACL.mem_directStep, ACL.mem_childrenStep]
  constructor
  · rintro ((⟨g, hg, x, hx, hc, rfl⟩ | ⟨g, hg, x, hx, hc, rfl⟩) | ⟨hglobal, g, hg, x, hx, hc, rfl⟩)
    · exact ⟨g, hg, .inl hc, x, hx, rfl⟩
    · exact ⟨g, hg, .inr (.inl hc), x, hx, rfl⟩
    · exact ⟨g, hg, .inr (.inr ⟨hc, hglobal⟩), x, hx, rfl⟩
  · rintro ⟨g, hg, happ, x, hx, rfl⟩
    rcases happ with hc | hc | ⟨hc, hglobal⟩
    · exact .inl (.inl ⟨g, hg, x, hx, hc, rfl⟩)
    · exact .inl (.inr ⟨g, hg, x, hx, hc, rfl⟩)
    · exact .inr ⟨hglobal, g, hg, x, hx, hc, rfl⟩

/-- Permuting the grants permutes the list `Allowed` walks. -/
theorem perm_grantsFor_newACL {grants grants' : List Grant} (h : grants.Perm grants')
    (r : Resource) : ((newACL grants).grantsFor r).Perm ((newACL grants').grantsFor r) := by
  simp only [ACL.grantsFor, newACL_directScopeMap, newACL_childrenScopeMap,
    newACL_descendantsGrants]
  refine ((h.flatMap_right _).append (h.flatMap_right _)).append ?_
  split
  · exact h.flatMap_right _
  · exact List.Perm.refl _

end Boundary.Perms
