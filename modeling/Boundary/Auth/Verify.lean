import Boundary.Perms.AclSpec
import Boundary.Errors

/-!
# Verification results

After a request is verified, handlers ask its `VerifyResults` which actions the
user may take on further resources. `fetchActions` answers from the ACL built
for the user, except for a recovery-KMS token and for a server with
authorization disabled, which may take every action asked about.
-/

namespace Boundary.Auth

/-- `auth.TokenFormat`. -/
inductive TokenFormat where
  | unknown | bearer | splitCookie | recoveryKms
  deriving DecidableEq, Repr

/-- `scopes.ScopeInfo`. -/
structure ScopeInfo where
  id : String
  typ : String
  name : String
  description : String
  parentScopeId : String
  deriving DecidableEq, Repr

/-- `iam.Scope`, with the getters the listing helpers call. -/
structure IamScope where
  publicId : String
  typ : String
  name : String
  description : String
  parentId : String
  deriving DecidableEq, Repr

/-- The scope info the listing helpers record for a scope. -/
def IamScope.toScopeInfo (scp : IamScope) : ScopeInfo :=
  ⟨scp.publicId, scp.typ, scp.name, scp.description, scp.parentId⟩

/-- The IAM repository, as far as the listing helpers use it: the database
query `ListScopesRecursively` is a parameter of the model. -/
structure IamRepo where
  listScopesRecursively : String → Except Error (List IamScope)

/-- The fields of a `VerifyResults` and of its verifier that `fetchActions` and
the listing helpers read. -/
structure VerifyResults where
  /-- `UserId`, copied from the user data. -/
  userId : String
  /-- `UserData.User.Id`; nil only if verification never set a user. -/
  userDataUserId : Option String
  /-- `Scope`. -/
  scope : Option ScopeInfo
  /-- `v.iamRepoFn`: absent, or the repository it builds or the error it fails with. -/
  iamRepoFn : Option (Except Error IamRepo)
  /-- `v.requestInfo.TokenFormat`. -/
  tokenFormat : TokenFormat
  /-- `v.requestInfo.DisableAuthEntirely`. -/
  disableAuthEntirely : Bool
  /-- `v.acl`. -/
  acl : Perms.ACL
  /-- `v.res`. -/
  res : Option Perms.Resource

/-- `new(perms.Resource)`. -/
def emptyResource : Perms.Resource := ⟨"", "", .unknown, "", ""⟩

namespace VerifyResults

/-- `fetchActions`: the available actions the user may take on the resource. The
Go code writes `id` and `typ` through the resource pointer; on the listing paths
both are empty, so the written resource is the one passed in. -/
def fetchActions (vr : VerifyResults) (id : String) (typ : ResourceType)
    (availableActions : Finset ActionType) (withResource : Option Perms.Resource) :
    Finset ActionType :=
  if vr.disableAuthEntirely || vr.tokenFormat == .recoveryKms then availableActions
  else
    match vr.userDataUserId with
    | none => ∅
    | some userId =>
      let res := ((withResource <|> vr.res).getD emptyResource)
      let res := if id ≠ "" then { res with id := id } else res
      let res := if typ ≠ .unknown then { res with typ := typ } else res
      availableActions.filter fun act => (vr.acl.allowed res act userId {}).authorized

/-- `FetchActionSetForType`. -/
def fetchActionSetForType (vr : VerifyResults) (typ : ResourceType)
    (availableActions : Finset ActionType) (withResource : Option Perms.Resource) :
    Finset ActionType :=
  vr.fetchActions "" typ availableActions withResource

/-- `fetchActions` never answers with an action it was not asked about. -/
theorem fetchActions_subset (vr : VerifyResults) (id : String) (typ : ResourceType)
    (availableActions : Finset ActionType) (withResource : Option Perms.Resource) :
    vr.fetchActions id typ availableActions withResource ⊆ availableActions := by
  unfold fetchActions
  split
  · exact subset_rfl
  · split
    · exact Finset.empty_subset _
    · exact Finset.filter_subset _ _

/-- Asked about `list` on a given resource with an unknown type, the verifier
admits it exactly when it bypasses the ACL or the ACL authorizes the user. -/
theorem list_mem_fetchActionSetForType_iff (vr : VerifyResults) (res : Perms.Resource) :
    ActionType.list ∈ vr.fetchActionSetForType .unknown {.list} (some res) ↔
      (vr.disableAuthEntirely = true ∨ vr.tokenFormat = .recoveryKms) ∨
        ∃ userId, vr.userDataUserId = some userId ∧
          (vr.acl.allowed res .list userId {}).authorized = true := by
  unfold fetchActionSetForType fetchActions
  by_cases hbypass : (vr.disableAuthEntirely || vr.tokenFormat == .recoveryKms) = true
  · simp only [hbypass, if_true, Finset.mem_singleton, true_iff]
    simp only [Bool.or_eq_true, beq_iff_eq] at hbypass
    exact .inl hbypass
  · rw [if_neg hbypass]
    simp only [Bool.or_eq_true, beq_iff_eq, not_or] at hbypass
    simp only [hbypass, Bool.false_eq_true, false_or]
    cases vr.userDataUserId with
    | none => simp
    | some userId => simp [Option.orElse]

end VerifyResults

end Boundary.Auth
