import Boundary.Go.Strings

/-!
# Action types

The `action` package enumerates the actions a grant can name. `Type.String` is
the table that the grant parser and the ACL read; `Map` inverts it on every
action but `unknown`, and `IsActionOrParent` recognises the sub-actions, such as
`read:self` below `read`, by a prefix test on those strings.
-/

namespace Boundary

/-- `action.Type`, in the order of its numeric constants. -/
inductive ActionType where
  | unknown | list | create | update | read | delete | authenticate | all
  | authorizeSession | addGrants | removeGrants | setGrants | addPrincipals
  | setPrincipals | removePrincipals | deauthenticate | addMembers | setMembers
  | removeMembers | setPassword | changePassword | addHosts | setHosts | removeHosts
  | addHostSets | setHostSets | removeHostSets | cancel | addAccounts | setAccounts
  | removeAccounts | readSelf | cancelSelf | changeState | deleteSelf | noOp
  | addCredentialLibraries | setCredentialLibraries | removeCredentialLibraries
  | addCredentialSources | setCredentialSources | removeCredentialSources
  | addHostSources | setHostSources | removeHostSources | createWorkerLed
  | addWorkerTags | setWorkerTags | removeWorkerTags | createControllerLed
  | reinitializeCertificateAuthority | readCertificateAuthority | listScopeKeys
  | rotateScopeKeys | listScopeKeyVersionDestructionJobs | destroyScopeKeyVersion
  | download | attachStoragePolicy | detachStoragePolicy | reApplyStoragePolicy
  | addGrantScopes | setGrantScopes | removeGrantScopes | monthlyActiveUsers
  | listResolvableAliases
  deriving DecidableEq, Repr

namespace ActionType

/-- `Type.String`: the name of an action in grant strings. -/
def toString : ActionType → String
  | unknown => "unknown"
  | list => "list"
  | create => "create"
  | update => "update"
  | read => "read"
  | delete => "delete"
  | authenticate => "authenticate"
  | all => "*"
  | authorizeSession => "authorize-session"
  | addGrants => "add-grants"
  | removeGrants => "remove-grants"
  | setGrants => "set-grants"
  | addPrincipals => "add-principals"
  | setPrincipals => "set-principals"
  | removePrincipals => "remove-principals"
  | deauthenticate => "deauthenticate"
  | addMembers => "add-members"
  | setMembers => "set-members"
  | removeMembers => "remove-members"
  | setPassword => "set-password"
  | changePassword => "change-password"
  | addHosts => "add-hosts"
  | setHosts => "set-hosts"
  | removeHosts => "remove-hosts"
  | addHostSets => "add-host-sets"
  | setHostSets => "set-host-sets"
  | removeHostSets => "remove-host-sets"
  | cancel => "cancel"
  | addAccounts => "add-accounts"
  | setAccounts => "set-accounts"
  | removeAccounts => "remove-accounts"
  | readSelf => "read:self"
  | cancelSelf => "cancel:self"
  | changeState => "change-state"
  | deleteSelf => "delete:self"
  | noOp => "no-op"
  | addCredentialLibraries => "add-credential-libraries"
  | setCredentialLibraries => "set-credential-libraries"
  | removeCredentialLibraries => "remove-credential-libraries"
  | addCredentialSources => "add-credential-sources"
  | setCredentialSources => "set-credential-sources"
  | removeCredentialSources => "remove-credential-sources"
  | addHostSources => "add-host-sources"
  | setHostSources => "set-host-sources"
  | removeHostSources => "remove-host-sources"
  | createWorkerLed => "create:worker-led"
  | addWorkerTags => "add-worker-tags"
  | setWorkerTags => "set-worker-tags"
  | removeWorkerTags => "remove-worker-tags"
  | createControllerLed => "create:controller-led"
  | reinitializeCertificateAuthority => "reinitialize-certificate-authority"
  | readCertificateAuthority => "read-certificate-authority"
  | listScopeKeys => "list-keys"
  | rotateScopeKeys => "rotate-keys"
  | listScopeKeyVersionDestructionJobs => "list-key-version-destruction-jobs"
  | destroyScopeKeyVersion => "destroy-key-version"
  | download => "download"
  | attachStoragePolicy => "attach-storage-policy"
  | detachStoragePolicy => "detach-storage-policy"
  | reApplyStoragePolicy => "reapply-storage-policy"
  | addGrantScopes => "add-grant-scopes"
  | setGrantScopes => "set-grant-scopes"
  | removeGrantScopes => "remove-grant-scopes"
  | monthlyActiveUsers => "monthly-active-users"
  | listResolvableAliases => "list-resolvable-aliases"

/-- The keys of `action.Map`: every action except `unknown`, in source order. -/
def mapKeys : List ActionType :=
  [create, list, update, read, delete, authenticate, all, authorizeSession, addGrants,
    removeGrants, setGrants, addPrincipals, setPrincipals, removePrincipals, deauthenticate,
    addMembers, setMembers, removeMembers, setPassword, changePassword, addHosts, setHosts,
    removeHosts, addHostSets, setHostSets, removeHostSets, cancel, addAccounts, setAccounts,
    removeAccounts, readSelf, cancelSelf, changeState, deleteSelf, noOp,
    addCredentialLibraries, setCredentialLibraries, removeCredentialLibraries,
    addCredentialSources, setCredentialSources, removeCredentialSources, addHostSources,
    setHostSources, removeHostSources, createWorkerLed, addWorkerTags, setWorkerTags,
    removeWorkerTags, createControllerLed, reinitializeCertificateAuthority,
    readCertificateAuthority, listScopeKeys, rotateScopeKeys,
    listScopeKeyVersionDestructionJobs, destroyScopeKeyVersion, download,
    attachStoragePolicy, detachStoragePolicy, reApplyStoragePolicy, addGrantScopes,
    setGrantScopes, removeGrantScopes, monthlyActiveUsers, listResolvableAliases]

/-- Every action; `action.Map` is keyed by all of them but `unknown`. -/
instance : Fintype ActionType :=
  ⟨⟨(unknown :: mapKeys : List ActionType), by decide⟩, fun a => by cases a <;> decide⟩

/-- `action.Map[s]`: a missing key reads as the zero value `unknown`. -/
def map (s : String) : ActionType :=
  ((mapKeys.find? fun a => a.toString == s)).getD unknown

end ActionType

namespace ActionType

/-- `Type.IsActionOrParent`: `suspect` is `a` itself or one of its sub-actions. -/
def isActionOrParent (a suspect : ActionType) : Bool :=
  a == suspect || Strings.hasPrefix suspect.toString (a.toString ++ ":")

/-- `ActionSet.OnlySelf`: the set is not empty and every action in it is a
`:self` action. -/
def onlySelf (actions : Finset ActionType) : Bool :=
  decide actions.Nonempty && decide (∀ a ∈ actions, Strings.hasSuffix a.toString ":self" = true)

/-- The parent action that `ACL.Allowed` derives by splitting the action's name
at `:`; `unknown` when the name has no sub-action part. -/
def parentAction (aType : ActionType) : ActionType :=
  match Strings.split aType.toString ':' with
  | [p, _] => map p
  | _ => unknown

/-- `Map` inverts `String`; the name of `unknown` is no key and reads back as the
zero value, which is `unknown` again. -/
@[simp] theorem map_toString (a : ActionType) : map a.toString = a := by
  cases a <;> rfl

theorem toString_inj {a a' : ActionType} (h : a.toString = a'.toString) : a = a' := by
  rw [← map_toString a, h, map_toString]

/-- `action.Map[s]`, with the flag that says whether `s` is a key. -/
def mapLookup (s : String) : Option ActionType :=
  mapKeys.find? fun a => a.toString == s

theorem toString_of_mapLookup_eq {s : String} {a : ActionType} (h : mapLookup s = some a) :
    a.toString = s := by
  simpa using List.find?_some h

/-- A name that `Map` resolves to a known action is that action's name. -/
theorem toString_of_map_eq {p : String} {a : ActionType} (hmap : map p = a)
    (ha : a ≠ unknown) : a.toString = p := by
  unfold map at hmap
  cases hfind : mapKeys.find? (fun b => b.toString == p) with
  | none =>
    rw [hfind, Option.getD_none] at hmap
    exact absurd hmap.symm ha
  | some b =>
    rw [hfind, Option.getD_some] at hmap
    subst hmap
    simpa using List.find?_some hfind

/-- Apart from `unknown`, `Map` returns exactly the action named by its key. -/
theorem map_eq_iff {p : String} {a : ActionType} (ha : a ≠ unknown) :
    map p = a ↔ a.toString = p := by
  constructor
  · intro hmap
    exact toString_of_map_eq hmap ha
  · rintro rfl
    exact map_toString a

end ActionType

end Boundary
