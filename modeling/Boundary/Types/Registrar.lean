import Boundary.Types.Action
import Boundary.Types.Resource
import Boundary.Errors

/-!
# The action registrar

Each handler package registers, in its `init` function, the actions of its
resource: those on one resource (`IdActions`) and those on the collection
(`CollectionActions`). `action.ActionSetForResource` returns their union, or an
error for a resource nothing registered. Which resources are registered depends
on the packages linked into the program, so the functions that read the
registrar take it as a parameter; `registered` is the registrar of the
controller, which links every handler.

An `ActionSet` is a Go map used as a set; it is a list here, iterated in list
order where Go's order is unspecified.
-/

namespace Boundary

open ActionType

/-- `action.resourceActionSets`, without the union it caches. -/
structure ResourceActionSets where
  individual : List ActionType
  collection : List ActionType

/-- The registrar's map from resources to their action sets. -/
def Registry : Type := ResourceType → Option ResourceActionSets

/-- The actions valid on a registered resource: `Union(individual, collection)`. -/
def ResourceActionSets.valid (sets : ResourceActionSets) : List ActionType :=
  sets.individual ∪ sets.collection

/-- `action.ActionSetForResource`. -/
def actionSetForResource (reg : Registry) (r : ResourceType) : Except Error (List ActionType) :=
  match reg r with
  | some sets => .ok sets.valid
  | none => .error (.passed ("resource not found: " ++ r.toString))

/-- The actions valid on a resource, none for one nothing registered. -/
def validActions (reg : Registry) (r : ResourceType) : List ActionType :=
  ((reg r).map ResourceActionSets.valid).getD []

theorem actionSetForResource_eq_ok {reg : Registry} {r : ResourceType} {valid : List ActionType} :
    actionSetForResource reg r = .ok valid ↔ (reg r).isSome ∧ valid = validActions reg r := by
  unfold actionSetForResource validActions
  cases reg r <;> simp [eq_comm]

/-! ## The registrations of the controller's handlers -/

/-- The actions on one resource shared by most handlers. -/
def crudActions : List ActionType := [noOp, read, update, delete]

/-- The collection actions shared by most handlers. -/
def createListActions : List ActionType := [create, list]

/-- `accounts.IdActions`, by subtype: password, OIDC and LDAP. -/
def accountIdActions : List (List ActionType) :=
  [crudActions ++ [setPassword, changePassword], crudActions, crudActions]

/-- `authmethods.IdActions`, by subtype: LDAP, OIDC and password. -/
def authMethodIdActions : List (List ActionType) :=
  [crudActions ++ [authenticate], crudActions ++ [changeState, authenticate],
    crudActions ++ [authenticate]]

/-- `hosts.idActionsTypeMap`: static and plugin hosts. -/
def hostIdActions : List (List ActionType) := [crudActions, [noOp, read]]

/-- `host_sets.idActionsTypeMap`: static and plugin host sets. -/
def hostSetIdActions : List (List ActionType) :=
  [crudActions ++ [addHosts, setHosts, removeHosts], crudActions]

/-- `managed_groups.IdActions`: OIDC and LDAP managed groups. -/
def managedGroupIdActions : List (List ActionType) := [crudActions, crudActions]

/-- `action.Union(maps.Values(m)...)`. -/
def unionAll (sets : List (List ActionType)) : List ActionType :=
  sets.foldl (· ∪ ·) []

/-- The `action.RegisterResource` calls of the controller's handler packages. -/
def registered : Registry
  | .scope => some ⟨crudActions ++ [attachStoragePolicy, detachStoragePolicy],
      createListActions ++ [listScopeKeys, rotateScopeKeys, listScopeKeyVersionDestructionJobs,
        destroyScopeKeyVersion]⟩
  | .user => some ⟨crudActions ++ [addAccounts, setAccounts, removeAccounts,
      listResolvableAliases], createListActions⟩
  | .group => some ⟨crudActions ++ [addMembers, setMembers, removeMembers], createListActions⟩
  | .role => some ⟨crudActions ++ [addPrincipals, setPrincipals, removePrincipals, addGrants,
      setGrants, removeGrants, addGrantScopes, setGrantScopes, removeGrantScopes],
      createListActions⟩
  | .authMethod => some ⟨unionAll authMethodIdActions, createListActions⟩
  | .account => some ⟨unionAll accountIdActions, createListActions⟩
  | .authToken => some ⟨[noOp, read, readSelf, delete, deleteSelf], [list]⟩
  | .hostCatalog => some ⟨crudActions, createListActions⟩
  | .hostSet => some ⟨unionAll hostSetIdActions, createListActions⟩
  | .host => some ⟨unionAll hostIdActions, createListActions⟩
  | .target => some ⟨crudActions ++ [addHostSources, setHostSources, removeHostSources,
      addCredentialSources, setCredentialSources, removeCredentialSources, authorizeSession],
      createListActions⟩
  | .worker => some ⟨crudActions ++ [addWorkerTags, setWorkerTags, removeWorkerTags],
      [createControllerLed, createWorkerLed, list, readCertificateAuthority,
        reinitializeCertificateAuthority]⟩
  | .session => some ⟨[noOp, read, readSelf, cancel, cancelSelf], [list]⟩
  | .sessionRecording => some ⟨[noOp, read, download, delete, reApplyStoragePolicy], [list]⟩
  | .managedGroup => some ⟨unionAll managedGroupIdActions, createListActions⟩
  | .credentialStore => some ⟨crudActions, createListActions⟩
  | .credentialLibrary => some ⟨crudActions, createListActions⟩
  | .credential => some ⟨crudActions, createListActions⟩
  | .storageBucket => some ⟨crudActions, createListActions⟩
  | .policy => some ⟨crudActions, createListActions⟩
  | .billing => some ⟨[], [monthlyActiveUsers]⟩
  | .alias' => some ⟨unionAll [crudActions], createListActions⟩
  | .unknown | .all | .controller => none

/-- Every resource but `unknown`, the wildcard and the controller has a handler
that registers it. -/
theorem registered_isSome_iff (r : ResourceType) :
    (registered r).isSome ↔ r ≠ .unknown ∧ r ≠ .all ∧ r ≠ .controller := by
  cases r <;> decide

end Boundary
