import Boundary.Perms.AclIndex

/-!
# What the grant loop of `Allowed` computes

The loop authorizes exactly when one of the grants it walks carries the action
and matches, and it collects the join of the output fields of every matching
grant. The early return does not change either: it happens only once the
result is authorized and its fields are the top element, which later grants
cannot change.
-/

namespace Boundary.Perms

section Loop

variable (r : Resource) (aType parentAction : ActionType) (userId : String) (opts : Options)

/-- The grant passes the action switch and matches one of the id and type cases,
so its output fields are collected. -/
def contributes (grant : AclGrant) : Bool :=
  (actionCheck aType parentAction grant).isSome && grantFound r aType userId opts grant

/-- The grant contributes and carries the action, so it authorizes. -/
def authorizes (grant : AclGrant) : Bool :=
  actionCheck aType parentAction grant == some false && grantFound r aType userId opts grant

/-- The join of the output fields of the contributing grants. -/
def collectedFields (grants : List AclGrant) : OutputFields.FieldLattice :=
  ((grants.filter (contributes r aType parentAction userId opts)).map
    (·.outputFields.toLattice)).foldr (· ⊔ ·) ⊥

variable {r aType parentAction userId opts}

theorem collectedFields_cons (grant : AclGrant) (grants : List AclGrant) :
    collectedFields r aType parentAction userId opts (grant :: grants) =
      if contributes r aType parentAction userId opts grant then
        grant.outputFields.toLattice ⊔ collectedFields r aType parentAction userId opts grants
      else collectedFields r aType parentAction userId opts grants := by
  unfold collectedFields
  split <;> simp [*]

/-- A grant the action switch skips neither contributes nor authorizes. -/
theorem skipped_of_actionCheck {grant : AclGrant}
    (h : actionCheck aType parentAction grant = none) :
    contributes r aType parentAction userId opts grant = false ∧
      authorizes r aType parentAction userId opts grant = false := by
  simp [contributes, authorizes, h]

/-- A grant that matches no id and type case neither contributes nor authorizes. -/
theorem skipped_of_not_found {grant : AclGrant}
    (h : grantFound r aType userId opts grant = false) :
    contributes r aType parentAction userId opts grant = false ∧
      authorizes r aType parentAction userId opts grant = false := by
  simp [contributes, authorizes, h]

/-- **The loop invariant.** Walking a list of grants from any intermediate
result ors in the authorizing grants and joins in the contributing fields. -/
theorem allowedLoop_eq (grants : List AclGrant) (results : ACLResults) :
    (allowedLoop r aType parentAction userId opts grants results).authorized =
        (results.authorized || grants.any (authorizes r aType parentAction userId opts)) ∧
      (allowedLoop r aType parentAction userId opts grants results).outputFields.toLattice =
        results.outputFields.toLattice ⊔ collectedFields r aType parentAction userId opts grants := by
  induction grants generalizing results with
  | nil => simp [allowedLoop, collectedFields]
  | cons grant grants ih =>
    cases hcheck : actionCheck aType parentAction grant with
    | none =>
      obtain ⟨hc, ha⟩ := @skipped_of_actionCheck r aType parentAction userId opts grant hcheck
      simpa [allowedLoop, hcheck, collectedFields_cons, hc, ha] using ih results
    | some outputFieldsOnly =>
      by_cases hfound : grantFound r aType userId opts grant = true
      · have hc : contributes r aType parentAction userId opts grant = true := by
          simp [contributes, hcheck, hfound]
        have ha : authorizes r aType parentAction userId opts grant = !outputFieldsOnly := by
          cases outputFieldsOnly <;> simp [authorizes, hcheck, hfound]
        let next : ACLResults :=
          { results with
            authorized := results.authorized || !outputFieldsOnly
            outputFields := results.outputFields.addFields grant.outputFields.getFields }
        have hnext : next.outputFields.toLattice =
            results.outputFields.toLattice ⊔ grant.outputFields.toLattice := by
          simp only [next, OutputFields.toLattice_addFields, OutputFields.inputLattice_getFields]
        have hstep : allowedLoop r aType parentAction userId opts (grant :: grants) results =
            if next.outputFields.has "*" && next.authorized then next
            else allowedLoop r aType parentAction userId opts grants next := by
          simp [allowedLoop, hcheck, hfound, next]
        rw [hstep, collectedFields_cons, if_pos hc, List.any_cons, ha]
        split <;> rename_i hstop
        · -- the early return: the result is already authorized and has the top element
          simp only [Bool.and_eq_true] at hstop
          obtain ⟨htop, hauth⟩ := hstop
          rw [OutputFields.has_star_iff] at htop
          refine ⟨?_, ?_⟩
          · have hauth' : (results.authorized || !outputFieldsOnly) = true := hauth
            show (results.authorized || !outputFieldsOnly) = _
            rw [← Bool.or_assoc, hauth', Bool.true_or]
          · rw [htop, ← sup_assoc, ← hnext, htop, top_sup_eq]
        · obtain ⟨hauth, hfields⟩ := ih next
          refine ⟨?_, ?_⟩
          · rw [hauth]
            simp [next, Bool.or_assoc]
          · rw [hfields, hnext, sup_assoc]
      · have hnf : grantFound r aType userId opts grant = false := by simpa using hfound
        obtain ⟨hc, ha⟩ := @skipped_of_not_found r aType parentAction userId opts grant hnf
        simpa [allowedLoop, hcheck, hnf, collectedFields_cons, hc, ha] using ih results

end Loop

/-- **`Allowed`, denotationally.** It authorizes exactly when a grant it walks
authorizes, and its output fields are the join of the contributing grants'. -/
theorem allowed_eq (a : ACL) (r : Resource) (aType : ActionType) (userId : String)
    (opts : Options) :
    ((a.allowed r aType userId opts).authorized = true ↔
        ∃ grant ∈ a.grantsFor r, authorizes r aType aType.parentAction userId opts grant = true) ∧
      (a.allowed r aType userId opts).outputFields.toLattice =
        collectedFields r aType aType.parentAction userId opts (a.grantsFor r) := by
  obtain ⟨hauth, hfields⟩ := @allowedLoop_eq r aType aType.parentAction userId opts
    (a.grantsFor r) ⟨false, false, .unset⟩
  refine ⟨?_, ?_⟩
  · rw [ACL.allowed, hauth]
    simp
  · rw [ACL.allowed, hfields]
    simp [OutputFields.toLattice, OutputFields.unset, OutputFields.latticeOf]

end Boundary.Perms
