import Boundary.Auth.Verify
import Boundary.Go.Maps
import Boundary.Go.Control

/-!
# Scopes authorized for a recursive list

`VerifyResults.ScopesAuthorizedForList` and, for a recursive search without an
entity provider, `scopeids.GetListingResourceInformation` compute the scopes in
which a user may list resources of a type. Both fetch the `list` action for
every scope under global, record the scopes where it is granted, then add the
deferred scopes whose parent was recorded (or all of them when global was), and
finally keep the scopes under the requested root. They differ in their
validation, in the guard of the recording case and in the shape of their output.

The main result characterizes the answer of both as a set: the scopes under the
root in which the user may list, or whose parent or the global scope allows it.
-/

namespace Boundary.Auth

open GoMap

/-- The map both helpers build, from scope id to scope info. -/
abbrev ScopeMap := AList fun _ : String => ScopeInfo

/-- Record a scope's info under its id, unless the id is already present. -/
def ScopeMap.record (m : ScopeMap) (scp : IamScope) : ScopeMap :=
  setIfAbsent m scp.publicId scp.toScopeInfo

/-- The resource on which `list` is checked for a scope. -/
def listResource (typ : ResourceType) (scp : IamScope) : Perms.Resource :=
  ⟨scp.publicId, "", typ, "", scp.parentId⟩

/-- The action set both helpers fetch for a scope. -/
def VerifyResults.listActions (vr : VerifyResults) (typ : ResourceType) (scp : IamScope) :
    Finset ActionType :=
  vr.fetchActionSetForType .unknown {.list} (some (listResource typ scp))

/-- The variables of the first loop over the scopes. -/
structure ScopeListing where
  deferredScopes : List IamScope
  globalHasList : Bool
  scopeResourceMap : ScopeMap

section Resolve

variable (fetch : IamScope → Finset ActionType) (accepts : Finset ActionType → Bool)

/-- One iteration of the first loop: the action set fetched for the scope defers
it when empty and records it when `accepts` holds; anything else is an error.
The two helpers guard the recording case differently. -/
def firstPassStep (st : ScopeListing) (scp : IamScope) : Except Error ScopeListing :=
  let aSet := fetch scp
  if aSet.card = 0 then
    .ok { st with deferredScopes := st.deferredScopes ++ [scp] }
  else if accepts aSet then
    if ActionType.list ∉ aSet then .error (.new .internal "unexpected action in set")
    else
      .ok { st with
        scopeResourceMap := st.scopeResourceMap.record scp
        globalHasList := st.globalHasList || scp.publicId == globalScopeId }
  else .error (.new .internal "unexpected number of actions back in set")

/-- One iteration of the loop over the deferred scopes. -/
def deferredStep (globalHasList : Bool) (m : ScopeMap) (scp : IamScope) : ScopeMap :=
  if globalHasList || decide (scp.parentId ∈ m) then m.record scp else m

/-- The cases of the switch on the root scope id that keep an entry. -/
def underRoot (rootScopeId scpId : String) (info : ScopeInfo) : Bool :=
  rootScopeId == globalScopeId || rootScopeId == scpId || rootScopeId == info.parentScopeId

/-- Collect the ids of the entries not under the root, then delete them. -/
def elideScopes (rootScopeId : String) (m : ScopeMap) : ScopeMap :=
  deleteAll m ((m.entries.filter fun e => !underRoot rootScopeId e.1 e.2).map Sigma.fst)

/-- The resolution both helpers run on the scopes listed under global. -/
def resolveScopes (rootScopeId : String) (scps : List IamScope) : Except Error ScopeMap := do
  let st ← scps.foldlM (firstPassStep fetch accepts) ⟨[], false, ∅⟩
  let m := st.deferredScopes.foldl (deferredStep st.globalHasList) st.scopeResourceMap
  let m := elideScopes rootScopeId m
  if m.entries = [] then .error .forbidden else pure m

end Resolve

/-- `ScopesAuthorizedForList`. -/
def VerifyResults.scopesAuthorizedForList (vr : VerifyResults) (rootScopeId : String)
    (resourceType : ResourceType) : Except Error ScopeMap :=
  if resourceType = .unknown then .error (.new .invalidParameter "unknown resource")
  else
    match vr.iamRepoFn with
    | none => .error (.new .invalidParameter "nil iam repo")
    | some repoFn =>
      if rootScopeId = "" then .error (.new .invalidParameter "missing root scope id")
      else if vr.scope = none then .error (.new .invalidParameter "nil scope in auth results")
      else do
        let repo ← repoFn
        let scps ← repo.listScopesRecursively globalScopeId
        resolveScopes (vr.listActions resourceType)
          (fun aSet => aSet.card == 1 || vr.userId == recoveryUserId) rootScopeId scps

/-- `GetListingResourceInformationInput`, for a caller with no entity provider. -/
structure GetListingResourceInformationInput where
  iamRepoFn : Option (Except Error IamRepo)
  authResults : VerifyResults
  rootScopeId : String
  typ : ResourceType
  recursive : Bool

/-- `GetListingResourceInformationOutput`; with no entity provider the
resource ids stay empty and every scope's resource map nil. -/
structure GetListingResourceInformationOutput where
  scopeIds : List String
  scopeResourceMap : ScopeMap

/-- `GetListingResourceInformation`, for a caller with no entity provider. -/
def getListingResourceInformation (input : GetListingResourceInformationInput) :
    Except Error GetListingResourceInformationOutput :=
  if input.typ = .unknown then .error (.new .invalidParameter "unknown resource")
  else
    match input.iamRepoFn with
    | none => .error (.new .invalidParameter "nil iam repo")
    | some repoFn =>
      if input.rootScopeId = "" then .error (.new .invalidParameter "missing root scope id")
      else
        match input.authResults.scope with
        | none => .error (.new .invalidParameter "nil scope in auth results")
        | some scope =>
          if input.recursive = false ∧ scope.id ≠ input.rootScopeId then
            .error (.new .invalidParameter
              "non-recursive search but auth results scope does not match root scope")
          else if input.recursive = false then
            -- the base case answers with the scope the request was verified in
            .ok ⟨[scope.id], (∅ : ScopeMap).insert scope.id scope⟩
          else do
            let repo ← repoFn
            let scps ← repo.listScopesRecursively globalScopeId
            let m ← resolveScopes (input.authResults.listActions input.typ)
              (fun aSet => aSet.card == 1) input.rootScopeId scps
            -- populateScopeIdsFromScopeResourceMap
            pure ⟨m.keys, m⟩

/-! ## The specification -/

/-- The scope lists `ListScopesRecursively` returns from global: distinct,
non-empty ids; global without a parent; every other scope an org under global
or a project under an org. -/
structure ScopeTree (scps : List IamScope) : Prop where
  nodup : (scps.map IamScope.publicId).Nodup
  id_ne_empty : ∀ s ∈ scps, s.publicId ≠ ""
  global_mem : ∃ g ∈ scps, g.publicId = globalScopeId
  global_parent : ∀ s ∈ scps, s.publicId = globalScopeId → s.parentId = ""
  org_or_project : ∀ s ∈ scps, s.publicId ≠ globalScopeId →
    s.parentId = globalScopeId ∨ ∃ o ∈ scps, o.publicId = s.parentId ∧ o.parentId = globalScopeId

/-- Whether the verifier lets its user list resources of a type in a scope: a
recovery token and a server with authorization disabled may list anywhere;
otherwise the ACL decides for the user. -/
def VerifyResults.MayList (vr : VerifyResults) (typ : ResourceType) (scp : IamScope) : Prop :=
  (vr.disableAuthEntirely = true ∨ vr.tokenFormat = .recoveryKms) ∨
    ∃ userId, vr.userDataUserId = some userId ∧
      (vr.acl.allowed (listResource typ scp) .list userId {}).authorized = true

/-- A scope is listed under a root when it lies under the root and listing is
allowed in it, in the global scope, or in its parent. -/
def ListedUnder (listable : IamScope → Prop) (tree : List IamScope) (rootScopeId : String)
    (s : IamScope) : Prop :=
  (rootScopeId = globalScopeId ∨ s.publicId = rootScopeId ∨ s.parentId = rootScopeId) ∧
    (listable s ∨ (∃ g ∈ tree, g.publicId = globalScopeId ∧ listable g) ∨
      ∃ p ∈ tree, p.publicId = s.parentId ∧ listable p)

/-- A listing answer is exactly the scopes of the tree satisfying a predicate,
keyed by id, or forbidden when there are none. Only membership in the tree is
mentioned, so an answer meeting it does not depend on the tree's order. -/
def ListsExactly (tree : List IamScope) (P : IamScope → Prop) : Except Error ScopeMap → Prop
  | .ok m => (∃ s ∈ tree, P s) ∧
      ∀ k info, m.lookup k = some info ↔ ∃ s ∈ tree, P s ∧ s.publicId = k ∧ s.toScopeInfo = info
  | .error e => e = .forbidden ∧ ∀ s ∈ tree, ¬ P s

/-! ## Proofs -/

theorem list_mem_listActions_iff (vr : VerifyResults) (typ : ResourceType) (scp : IamScope) :
    ActionType.list ∈ vr.listActions typ scp ↔ vr.MayList typ scp :=
  VerifyResults.list_mem_fetchActionSetForType_iff vr _

theorem listActions_subset (vr : VerifyResults) (typ : ResourceType) (scp : IamScope) :
    vr.listActions typ scp ⊆ {.list} :=
  VerifyResults.fetchActions_subset vr _ _ _ _

theorem mem_foldl_record (l : List IamScope) (m : ScopeMap) (k : String) :
    k ∈ l.foldl ScopeMap.record m ↔ k ∈ m ∨ ∃ x ∈ l, x.publicId = k :=
  mem_foldl_setIfAbsent _ _ l m k

@[simp] theorem mem_record {m : ScopeMap} {scp : IamScope} {k : String} :
    k ∈ m.record scp ↔ k = scp.publicId ∨ k ∈ m :=
  mem_setIfAbsent

namespace ScopeTree

variable {scps : List IamScope}

/-- Scopes are at most three levels deep: a scope's grandparent is global. -/
theorem grandparent_global (htree : ScopeTree scps) {s p q : IamScope} (hs : s ∈ scps)
    (hp : p ∈ scps) (hq : q ∈ scps) (hsp : p.publicId = s.parentId)
    (hpq : q.publicId = p.parentId) : q.publicId = globalScopeId := by
  by_cases hsg : s.publicId = globalScopeId
  · -- global has no parent
    exact absurd (hsp.trans (htree.global_parent s hs hsg)) (htree.id_ne_empty p hp)
  · rcases htree.org_or_project s hs hsg with hs_org | ⟨o, ho, hos, hog⟩
    · -- the parent of an org is global, and global has no parent
      have hpg : p.publicId = globalScopeId := hsp.trans hs_org
      exact absurd (hpq.trans (htree.global_parent p hp hpg)) (htree.id_ne_empty q hq)
    · -- the parent of a project is its org, whose parent is global
      have hpo : p = o := List.inj_on_of_nodup_map htree.nodup hp ho (hsp.trans hos.symm)
      subst hpo
      exact hpq.trans hog

end ScopeTree

section FirstPass

variable {fetch : IamScope → Finset ActionType} {accepts : Finset ActionType → Bool}

/-- The first loop's update when every fetched set is empty or `{list}`. -/
def listingUpdate (listable : IamScope → Bool) (st : ScopeListing) (scp : IamScope) :
    ScopeListing :=
  if listable scp then
    { st with
      scopeResourceMap := st.scopeResourceMap.record scp
      globalHasList := st.globalHasList || scp.publicId == globalScopeId }
  else { st with deferredScopes := st.deferredScopes ++ [scp] }

theorem firstPassStep_eq_ok {scp : IamScope} (hfetch : fetch scp ⊆ {.list})
    (hacc : accepts {.list} = true) (st : ScopeListing) :
    firstPassStep fetch accepts st scp =
      .ok (listingUpdate (fun s => decide (ActionType.list ∈ fetch s)) st scp) := by
  rcases Finset.subset_singleton_iff.mp hfetch with h | h
  · simp [firstPassStep, listingUpdate, h]
  · simp [firstPassStep, listingUpdate, h, hacc]

/-- The first loop never fails when every fetched set is empty or `{list}`. -/
theorem foldlM_firstPassStep {scps : List IamScope} (hfetch : ∀ s ∈ scps, fetch s ⊆ {.list})
    (hacc : accepts {.list} = true) (st : ScopeListing) :
    scps.foldlM (firstPassStep fetch accepts) st =
      .ok (scps.foldl (listingUpdate fun s => decide (ActionType.list ∈ fetch s)) st) :=
  GoControl.foldlM_eq_ok _ _ scps st fun st s hs => firstPassStep_eq_ok (hfetch s hs) hacc st

variable (listable : IamScope → Bool)

@[simp] theorem foldl_listingUpdate_deferredScopes (l : List IamScope) (st : ScopeListing) :
    (l.foldl (listingUpdate listable) st).deferredScopes =
      st.deferredScopes ++ l.filter (fun s => !listable s) := by
  induction l generalizing st with
  | nil => simp
  | cons x xs ih =>
    rw [List.foldl_cons, ih]
    by_cases hx : listable x = true <;> simp [listingUpdate, hx]

@[simp] theorem foldl_listingUpdate_globalHasList (l : List IamScope) (st : ScopeListing) :
    (l.foldl (listingUpdate listable) st).globalHasList =
      (st.globalHasList || l.any fun s => listable s && s.publicId == globalScopeId) := by
  induction l generalizing st with
  | nil => simp
  | cons x xs ih =>
    rw [List.foldl_cons, ih]
    by_cases hx : listable x = true <;> simp [listingUpdate, hx, Bool.or_assoc]

@[simp] theorem foldl_listingUpdate_scopeResourceMap (l : List IamScope) (st : ScopeListing) :
    (l.foldl (listingUpdate listable) st).scopeResourceMap =
      (l.filter listable).foldl ScopeMap.record st.scopeResourceMap := by
  induction l generalizing st with
  | nil => simp
  | cons x xs ih =>
    rw [List.foldl_cons, ih]
    by_cases hx : listable x = true <;> simp [listingUpdate, hx]

end FirstPass

section SecondPass

theorem foldl_deferredStep_true (D : List IamScope) (m : ScopeMap) :
    D.foldl (deferredStep true) m = D.foldl ScopeMap.record m := by
  have h : deferredStep true = ScopeMap.record := by
    funext m s
    simp [deferredStep]
  rw [h]

/-- Without list on global, the loop over the deferred scopes records those
whose parent was recorded before it, provided no scope it records is itself
the parent of a deferred scope. -/
theorem foldl_deferredStep_false (D : List IamScope) (m : ScopeMap)
    (hclosed : ∀ s ∈ D, s.parentId ∈ m → ∀ s' ∈ D, s'.parentId ≠ s.publicId) :
    D.foldl (deferredStep false) m =
      (D.filter fun s => decide (s.parentId ∈ m)).foldl ScopeMap.record m := by
  induction D generalizing m with
  | nil => rfl
  | cons s D ih =>
    have hclosedD : ∀ s1 ∈ D, s1.parentId ∈ m → ∀ s' ∈ D, s'.parentId ≠ s1.publicId :=
      fun s1 hs1 hp s' hs' =>
        hclosed s1 (List.mem_cons_of_mem s hs1) hp s' (List.mem_cons_of_mem s hs')
    by_cases hs : s.parentId ∈ m
    · -- the scope is recorded, and no later scope has it as its parent
      have hrest : ∀ s' ∈ D, s'.parentId ∈ m.record s ↔ s'.parentId ∈ m := by
        intro s' hs'
        have hne := hclosed s List.mem_cons_self hs s' (List.mem_cons_of_mem s hs')
        simp [hne]
      have hclosed' : ∀ s1 ∈ D, s1.parentId ∈ m.record s → ∀ s' ∈ D, s'.parentId ≠ s1.publicId :=
        fun s1 hs1 hp => hclosedD s1 hs1 ((hrest s1 hs1).mp hp)
      have hstep : deferredStep false m s = m.record s := by simp [deferredStep, hs]
      rw [List.foldl_cons, hstep, ih _ hclosed', List.filter_cons_of_pos (by simpa using hs),
        List.foldl_cons]
      congr 1
      exact List.filter_congr fun s' hs' => by simp [hrest s' hs']
    · have hstep : deferredStep false m s = m := by simp [deferredStep, hs]
      rw [List.foldl_cons, hstep, List.filter_cons_of_neg (by simpa using hs)]
      exact ih m hclosedD

theorem lookup_foldl_record (l : List IamScope) (hnodup : (l.map IamScope.publicId).Nodup)
    (k : String) (info : ScopeInfo) :
    (l.foldl ScopeMap.record ∅).lookup k = some info ↔
      ∃ s ∈ l, s.publicId = k ∧ s.toScopeInfo = info := by
  have h := lookup_foldl_setIfAbsent IamScope.publicId IamScope.toScopeInfo l ∅ hnodup
    (fun x _ => AList.notMem_empty x.publicId) k info
  rw [AList.lookup_empty] at h
  simp only [reduceCtorEq, false_or] at h
  exact h

theorem mem_foldl_record_empty (l : List IamScope) (k : String) :
    k ∈ l.foldl ScopeMap.record ∅ ↔ ∃ s ∈ l, s.publicId = k := by
  simpa [AList.notMem_empty] using mem_foldl_record l ∅ k

variable {scps : List IamScope} (listable : IamScope → Bool)

/-- The second loop, in the scope tree, records the deferred scopes whose
parent the first loop recorded, or all of them when it recorded global. -/
theorem foldl_deferredStep_eq (htree : ScopeTree scps) :
    (scps.filter fun s => !listable s).foldl
        (deferredStep (scps.any fun s => listable s && s.publicId == globalScopeId))
        ((scps.filter listable).foldl ScopeMap.record ∅) =
      (scps.filter listable ++ (scps.filter fun s => !listable s).filter fun s =>
        (scps.any fun s => listable s && s.publicId == globalScopeId) ||
          decide (s.parentId ∈ (scps.filter listable).foldl ScopeMap.record ∅)).foldl
        ScopeMap.record ∅ := by
  rw [List.foldl_append]
  cases hg : scps.any fun s => listable s && s.publicId == globalScopeId
  · -- a scope recorded now has a recorded parent, so it is no one's parent:
    -- scopes are three levels deep and the grandparent, global, is not recorded
    have hclosed : ∀ s ∈ scps.filter (fun s => !listable s),
        s.parentId ∈ (scps.filter listable).foldl ScopeMap.record ∅ →
        ∀ s' ∈ scps.filter (fun s => !listable s), s'.parentId ≠ s.publicId := by
      intro s hs hp s' hs' hs's
      obtain ⟨p, hp, hps⟩ := (mem_foldl_record_empty _ _).mp hp
      rw [List.mem_filter] at hs hs' hp
      have hpg := htree.grandparent_global hs'.1 hs.1 hp.1 hs's.symm hps
      have hany : (scps.any fun s => listable s && s.publicId == globalScopeId) = true :=
        List.any_eq_true.mpr ⟨p, hp.1, by simp [hp.2, hpg]⟩
      rw [hg] at hany
      cases hany
    rw [foldl_deferredStep_false _ _ hclosed]
    simp
  · rw [foldl_deferredStep_true]
    simp

end SecondPass

section Resolution

variable {scps : List IamScope}

/-- The two loops, in the scope tree, record the scopes where listing is
allowed, in global, or in their parent. -/
theorem lookup_listedMap (htree : ScopeTree scps) (listable : IamScope → Bool) (k : String)
    (info : ScopeInfo) :
    (let st := scps.foldl (listingUpdate listable) ⟨[], false, ∅⟩
     st.deferredScopes.foldl (deferredStep st.globalHasList) st.scopeResourceMap).lookup k =
        some info ↔
      ∃ s ∈ scps, (listable s = true ∨
          (∃ g ∈ scps, g.publicId = globalScopeId ∧ listable g = true) ∨
          ∃ p ∈ scps, p.publicId = s.parentId ∧ listable p = true) ∧
        s.publicId = k ∧ s.toScopeInfo = info := by
  simp only [foldl_listingUpdate_deferredScopes, foldl_listingUpdate_globalHasList,
    foldl_listingUpdate_scopeResourceMap, List.nil_append, Bool.false_or]
  rw [foldl_deferredStep_eq listable htree]
  -- the recorded scopes are distinct scopes of the tree
  have hnodup : ((scps.filter listable ++ (scps.filter fun s => !listable s).filter fun s =>
      (scps.any fun s => listable s && s.publicId == globalScopeId) ||
        decide (s.parentId ∈ (scps.filter listable).foldl ScopeMap.record ∅)).map
        IamScope.publicId).Nodup := by
    apply List.Nodup.sublist (List.Sublist.map _ (List.Sublist.append_left List.filter_sublist _))
    exact ((List.filter_append_perm listable scps).map _).nodup_iff.mpr htree.nodup
  rw [lookup_foldl_record _ hnodup]
  simp only [List.mem_append, List.mem_filter, List.any_eq_true, Bool.and_eq_true, beq_iff_eq,
    Bool.or_eq_true, decide_eq_true_eq, mem_foldl_record_empty, Bool.not_eq_true']
  constructor
  · rintro ⟨s, hs, hsk, hsi⟩
    refine ⟨s, ?_, ?_, hsk, hsi⟩
    · rcases hs with ⟨hs, -⟩ | ⟨⟨hs, -⟩, -⟩ <;> exact hs
    · rcases hs with ⟨-, hl⟩ | ⟨-, ⟨g, hg, hl, hgid⟩ | ⟨p, hp, hpid⟩⟩
      · exact .inl hl
      · exact .inr (.inl ⟨g, hg, hgid, hl⟩)
      · exact .inr (.inr ⟨p, hp.1, hpid, hp.2⟩)
  · rintro ⟨s, hs, hl, hsk, hsi⟩
    refine ⟨s, ?_, hsk, hsi⟩
    by_cases hsl : listable s = true
    · exact .inl ⟨hs, hsl⟩
    · refine .inr ⟨⟨hs, by simpa using hsl⟩, ?_⟩
      rcases hl with hl | ⟨g, hg, hgid, hgl⟩ | ⟨p, hp, hpid, hpl⟩
      · exact absurd hl hsl
      · exact .inl ⟨g, hg, hgl, hgid⟩
      · exact .inr ⟨p, ⟨hp, hpl⟩, hpid⟩

theorem lookup_elideScopes (rootScopeId : String) (m : ScopeMap) (k : String) (info : ScopeInfo) :
    (elideScopes rootScopeId m).lookup k = some info ↔
      m.lookup k = some info ∧ underRoot rootScopeId k info = true :=
  lookup_deleteAll_filter _ m k info

theorem underRoot_toScopeInfo (rootScopeId : String) (s : IamScope) :
    underRoot rootScopeId s.publicId s.toScopeInfo = true ↔
      rootScopeId = globalScopeId ∨ s.publicId = rootScopeId ∨ s.parentId = rootScopeId := by
  simp only [underRoot, IamScope.toScopeInfo, Bool.or_eq_true, beq_iff_eq, or_assoc]
  rw [eq_comm (a := s.publicId), eq_comm (a := s.parentId)]

theorem lookup_eq_none_of_entries_nil {m : ScopeMap} (hm : m.entries = []) (k : String) :
    m.lookup k = none := by
  rw [AList.lookup_eq_none, AList.mem_keys, AList.keys, hm]
  simp

/-- The resolution both helpers share lists, in the scope tree, exactly the
scopes under the root where listing is allowed, in global or in their parent,
provided every fetched action set is empty or `{list}` and `{list}` is
accepted. -/
theorem resolveScopes_listsExactly {fetch : IamScope → Finset ActionType}
    {accepts : Finset ActionType → Bool} (htree : ScopeTree scps)
    (hfetch : ∀ s ∈ scps, fetch s ⊆ {.list}) (hacc : accepts {.list} = true)
    (rootScopeId : String) :
    ListsExactly scps (ListedUnder (fun s => ActionType.list ∈ fetch s) scps rootScopeId)
      (resolveScopes fetch accepts rootScopeId scps) := by
  have hlookup := lookup_listedMap htree fun s => decide (ActionType.list ∈ fetch s)
  simp only [decide_eq_true_eq] at hlookup
  -- the elided map holds exactly the listed scopes
  have hlisted : ∀ k info, (elideScopes rootScopeId
      (let st := scps.foldl (listingUpdate fun s => decide (ActionType.list ∈ fetch s))
        ⟨[], false, ∅⟩
       st.deferredScopes.foldl (deferredStep st.globalHasList) st.scopeResourceMap)).lookup k =
        some info ↔
      ∃ s ∈ scps, ListedUnder (fun s => ActionType.list ∈ fetch s) scps rootScopeId s ∧
        s.publicId = k ∧ s.toScopeInfo = info := by
    intro k info
    rw [lookup_elideScopes, hlookup]
    constructor
    · rintro ⟨⟨s, hs, hl, rfl, rfl⟩, hroot⟩
      exact ⟨s, hs, ⟨(underRoot_toScopeInfo _ s).mp hroot, hl⟩, rfl, rfl⟩
    · rintro ⟨s, hs, ⟨hroot, hl⟩, rfl, rfl⟩
      exact ⟨⟨s, hs, hl, rfl, rfl⟩, (underRoot_toScopeInfo _ s).mpr hroot⟩
  unfold resolveScopes
  rw [foldlM_firstPassStep hfetch hacc]
  dsimp only [bind, Except.bind, pure, Except.pure]
  split
  · rename_i hnil
    refine ⟨rfl, fun s hs hl => ?_⟩
    have h := (hlisted s.publicId s.toScopeInfo).mpr ⟨s, hs, hl, rfl, rfl⟩
    rw [lookup_eq_none_of_entries_nil hnil] at h
    cases h
  · rename_i hne
    refine ⟨?_, hlisted⟩
    obtain ⟨⟨k, info⟩, he⟩ := List.exists_mem_of_ne_nil _ hne
    obtain ⟨s, hs, hl, -⟩ := (hlisted k info).mp (AList.mem_lookup_iff.mpr he)
    exact ⟨s, hs, hl⟩

end Resolution

section Helpers

variable {scps : List IamScope}

theorem listActions_eq_mayList (vr : VerifyResults) (typ : ResourceType) :
    (fun s => ActionType.list ∈ vr.listActions typ s) = vr.MayList typ :=
  funext fun s => propext (list_mem_listActions_iff vr typ s)

/-- `ScopesAuthorizedForList` on a scope tree lists exactly the scopes under the
root where the user may list, or may list in global or in the parent. -/
theorem scopesAuthorizedForList_listsExactly (vr : VerifyResults) (repo : IamRepo)
    (rootScopeId : String) (typ : ResourceType) (hrepo : vr.iamRepoFn = some (.ok repo))
    (hlist : repo.listScopesRecursively globalScopeId = .ok scps) (htree : ScopeTree scps)
    (hscope : vr.scope ≠ none) (hroot : rootScopeId ≠ "") (htyp : typ ≠ .unknown) :
    ListsExactly scps (ListedUnder (vr.MayList typ) scps rootScopeId)
      (vr.scopesAuthorizedForList rootScopeId typ) := by
  -- the recovery clause of the guard never matters: the fetched set is empty or `{list}`
  have h := @resolveScopes_listsExactly scps (vr.listActions typ)
    (fun aSet => aSet.card == 1 || vr.userId == recoveryUserId) htree
    (fun s _ => listActions_subset vr typ s) (by simp) rootScopeId
  rw [listActions_eq_mayList] at h
  unfold VerifyResults.scopesAuthorizedForList
  rw [if_neg htyp, hrepo]
  simp only [if_neg hroot, if_neg hscope]
  rw [show (Except.ok repo >>= fun repo => repo.listScopesRecursively globalScopeId >>= _) =
    (repo.listScopesRecursively globalScopeId >>= _) from rfl, hlist]
  exact h

/-- `GetListingResourceInformation`, recursive and without an entity provider,
lists on a scope tree the same scopes, with their ids as the scope ids. -/
theorem getListingResourceInformation_listsExactly (input : GetListingResourceInformationInput)
    (repo : IamRepo) (hrepo : input.iamRepoFn = some (.ok repo))
    (hlist : repo.listScopesRecursively globalScopeId = .ok scps) (htree : ScopeTree scps)
    (hscope : input.authResults.scope ≠ none) (hroot : input.rootScopeId ≠ "")
    (htyp : input.typ ≠ .unknown) (hrec : input.recursive = true) :
    ListsExactly scps (ListedUnder (input.authResults.MayList input.typ) scps input.rootScopeId)
        ((getListingResourceInformation input).map fun out => out.scopeResourceMap) ∧
      ∀ out, getListingResourceInformation input = .ok out →
        out.scopeIds = out.scopeResourceMap.keys := by
  have h := @resolveScopes_listsExactly scps (input.authResults.listActions input.typ)
    (fun aSet => aSet.card == 1) htree (fun s _ => listActions_subset _ _ s) (by simp)
    input.rootScopeId
  rw [listActions_eq_mayList] at h
  obtain ⟨scope, hscope'⟩ := Option.ne_none_iff_exists'.mp hscope
  -- the recursive branch, after validation
  have heq : getListingResourceInformation input =
      (resolveScopes (input.authResults.listActions input.typ) (fun aSet => aSet.card == 1)
        input.rootScopeId scps).map fun m => ⟨m.keys, m⟩ := by
    unfold getListingResourceInformation
    simp only [if_neg htyp, hrepo, if_neg hroot, hscope', hrec, Bool.true_eq_false, false_and,
      if_false]
    rw [show (Except.ok repo >>= fun repo => repo.listScopesRecursively globalScopeId >>= _) =
      (repo.listScopesRecursively globalScopeId >>= _) from rfl, hlist]
    show (resolveScopes _ _ _ scps >>= fun m =>
      pure (GetListingResourceInformationOutput.mk m.keys m)) = _
    cases resolveScopes (input.authResults.listActions input.typ) (fun aSet => aSet.card == 1)
      input.rootScopeId scps <;> rfl
  rw [heq]
  constructor
  · cases hres : resolveScopes (input.authResults.listActions input.typ)
        (fun aSet => aSet.card == 1) input.rootScopeId scps <;>
      rw [hres] at h <;> exact h
  · intro out hout
    cases hres : resolveScopes (input.authResults.listActions input.typ)
        (fun aSet => aSet.card == 1) input.rootScopeId scps with
    | error e => rw [hres] at hout; cases hout
    | ok m =>
      rw [hres] at hout
      cases hout
      rfl

/-- Both listing helpers, on the scopes `ListScopesRecursively` returns from
global, list exactly the scopes under the root in which the verifier lets the
user list resources of the type, or lets it list in global or in the scope's
parent; or answer forbidden when there is none. Only membership in the tree
enters, so the answer does not depend on the order of the scope list. -/
theorem listing_helpers_list_closure (vr : VerifyResults) (repo : IamRepo)
    (scps : List IamScope) (rootScopeId : String) (typ : ResourceType)
    (hrepo : vr.iamRepoFn = some (.ok repo))
    (hlist : repo.listScopesRecursively globalScopeId = .ok scps) (htree : ScopeTree scps)
    (hscope : vr.scope ≠ none) (hroot : rootScopeId ≠ "") (htyp : typ ≠ .unknown) :
    ListsExactly scps (ListedUnder (vr.MayList typ) scps rootScopeId)
        (vr.scopesAuthorizedForList rootScopeId typ) ∧
      ListsExactly scps (ListedUnder (vr.MayList typ) scps rootScopeId)
        ((getListingResourceInformation ⟨vr.iamRepoFn, vr, rootScopeId, typ, true⟩).map
          fun out => out.scopeResourceMap) ∧
      ∀ out, getListingResourceInformation ⟨vr.iamRepoFn, vr, rootScopeId, typ, true⟩ = .ok out →
        out.scopeIds = out.scopeResourceMap.keys :=
  ⟨scopesAuthorizedForList_listsExactly vr repo rootScopeId typ hrepo hlist htree hscope hroot
      htyp,
    getListingResourceInformation_listsExactly ⟨vr.iamRepoFn, vr, rootScopeId, typ, true⟩ repo
      hrepo hlist htree hscope hroot htyp rfl⟩

/-- The global scope, as the IAM repository returns it. -/
def globalIamScope : IamScope := ⟨globalScopeId, "global", "Global", "Global Scope", ""⟩

/-- A repository whose recursive listing returns the given scopes. -/
def IamRepo.ofScopes (scps : List IamScope) : IamRepo := ⟨fun _ => .ok scps⟩

/-- A scope tree of global, one org and one project in it. -/
def sampleTree : List IamScope :=
  [globalIamScope, ⟨"o_1234567890", "org", "", "", globalScopeId⟩,
    ⟨"p_1234567890", "project", "", "", "o_1234567890"⟩]

theorem sampleTree_scopeTree : ScopeTree sampleTree :=
  ⟨by decide, by decide, by decide, by decide, by decide⟩

/-- A grant of the org's role letting its members list the org's targets. -/
def orgTargetListGrant : Perms.Grant where
  roleScopeId := "o_1234567890"
  roleParentScopeId := globalScopeId
  id := ""
  ids := []
  grantScopeId := "o_1234567890"
  typ := .target
  actions := {.list}
  outputFields := .unset
  unknown_not_mem := Perms.unknown_not_mem_list
  id_or_ids := Perms.id_or_ids_empty

/-- A user with a bearer token whose only grant is `orgTargetListGrant`. -/
def orgListResults : VerifyResults where
  userId := "u_1234567890"
  userDataUserId := some "u_1234567890"
  scope := some globalIamScope.toScopeInfo
  iamRepoFn := some (.ok (.ofScopes sampleTree))
  tokenFormat := .bearer
  disableAuthEntirely := false
  acl := Perms.newACL [orgTargetListGrant]
  res := none

theorem listing_helpers_list_closure_org :
    orgListResults.iamRepoFn = some (.ok (.ofScopes sampleTree)) ∧
      (IamRepo.ofScopes sampleTree).listScopesRecursively globalScopeId = .ok sampleTree ∧
      ScopeTree sampleTree ∧ orgListResults.scope ≠ none ∧ globalScopeId ≠ "" ∧
      ResourceType.target ≠ .unknown ∧
      (ListsExactly sampleTree (ListedUnder (orgListResults.MayList .target) sampleTree
          globalScopeId) (orgListResults.scopesAuthorizedForList globalScopeId .target) ∧
        ListsExactly sampleTree (ListedUnder (orgListResults.MayList .target) sampleTree
          globalScopeId)
          ((getListingResourceInformation
              ⟨orgListResults.iamRepoFn, orgListResults, globalScopeId, .target, true⟩).map
            fun out => out.scopeResourceMap) ∧
        ∀ out, getListingResourceInformation
            ⟨orgListResults.iamRepoFn, orgListResults, globalScopeId, .target, true⟩ = .ok out →
          out.scopeIds = out.scopeResourceMap.keys) :=
  ⟨rfl, rfl, sampleTree_scopeTree, by decide, by decide, by decide,
    listing_helpers_list_closure orgListResults (.ofScopes sampleTree) sampleTree globalScopeId
      .target rfl rfl sampleTree_scopeTree (by decide) (by decide) (by decide)⟩

/-- The results of a request made with the recovery KMS token: its user is the
recovery user and, the grant lookup being skipped, its ACL is empty. -/
def recoveryResults (repo : IamRepo) : VerifyResults where
  userId := recoveryUserId
  userDataUserId := some recoveryUserId
  scope := some globalIamScope.toScopeInfo
  iamRepoFn := some (.ok repo)
  tokenFormat := .recoveryKms
  disableAuthEntirely := false
  acl := Perms.newACL []
  res := none

/-- A recovery token lists global although its ACL allows no `list` anywhere:
`fetchActions` grants a recovery token every action it is asked about. -/
theorem scopesAuthorizedForList_recovery_lists_global :
    (∀ s ∈ [globalIamScope],
      ((recoveryResults (.ofScopes [globalIamScope])).acl.allowed (listResource .target s) .list
        recoveryUserId {}).authorized = false) ∧
    ((recoveryResults (.ofScopes [globalIamScope])).scopesAuthorizedForList globalScopeId
        .target).toOption.map AList.keys = some [globalScopeId] := by
  decide

end Helpers

end Boundary.Auth
