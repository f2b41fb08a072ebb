import Boundary.Go.Strings

/-!
# Resource types and id prefixes

The `resource` package enumerates the resource types grants refer to, with the
collection types that accept `create` and `list`. Public ids carry their type
in the prefix before the first underscore; `globals.ResourceInfoFromPrefix`
reads it back from a static table.
-/

namespace Boundary

/-- `resource.Type`, in the order of its numeric constants. -/
inductive ResourceType where
  | unknown | all | scope | user | group | role | authMethod | account | authToken
  | hostCatalog | hostSet | host | target | controller | worker | session
  | sessionRecording | managedGroup | credentialStore | credentialLibrary | credential
  | storageBucket | policy | billing | alias'
  deriving DecidableEq, Repr

namespace ResourceType

/-- `Type.String`. -/
def toString : ResourceType → String
  | unknown => "unknown"
  | all => "*"
  | scope => "scope"
  | user => "user"
  | group => "group"
  | role => "role"
  | authMethod => "auth-method"
  | account => "account"
  | authToken => "auth-token"
  | hostCatalog => "host-catalog"
  | hostSet => "host-set"
  | host => "host"
  | target => "target"
  | controller => "controller"
  | worker => "worker"
  | session => "session"
  | sessionRecording => "session-recording"
  | managedGroup => "managed-group"
  | credentialStore => "credential-store"
  | credentialLibrary => "credential-library"
  | credential => "credential"
  | storageBucket => "storage-bucket"
  | policy => "policy"
  | billing => "billing"
  | alias' => "alias"

/-- `Type.TopLevelType`: the types whose collections support `create` and `list`. -/
def topLevelType : ResourceType → Bool
  | authMethod | authToken | credentialStore | group | hostCatalog | role | scope
  | session | sessionRecording | target | user | storageBucket | policy | alias'
  | worker => true
  | _ => false

/-- `Type.Parent`: the type a child resource lives under, or the type itself. -/
def parent : ResourceType → ResourceType
  | account | managedGroup => authMethod
  | hostSet | host => hostCatalog
  | credentialLibrary | credential => credentialStore
  | r => r

/-- `Type.HasChildTypes`. -/
def hasChildTypes : ResourceType → Bool
  | authMethod | hostCatalog | credentialStore => true
  | _ => false

/-- The keys of `resource.Map`: the name of every type, `unknown` included. -/
def mapKeys : List ResourceType :=
  [unknown, all, scope, user, group, role, authMethod, account, authToken, hostCatalog, hostSet,
    host, target, controller, worker, session, sessionRecording, managedGroup, credentialStore,
    credentialLibrary, credential, storageBucket, policy, billing, alias']

/-- `resource.Map[s]`: a missing key reads as the zero value `unknown`. -/
def map (s : String) : ResourceType :=
  (mapKeys.find? fun r => r.toString == s).getD unknown

/-- `Map` inverts `String`. -/
@[simp] theorem map_toString (r : ResourceType) : map r.toString = r := by
  cases r <;> rfl

theorem toString_inj {r r' : ResourceType} (h : r.toString = r'.toString) : r = r' := by
  rw [← map_toString r, h, map_toString]

/-- Every type is a key of `resource.Map`. -/
theorem mem_mapKeys (r : ResourceType) : r ∈ mapKeys := by
  cases r <;> decide

/-- `resource.Map[s]`, with the flag that says whether `s` is a key. -/
def mapLookup (s : String) : Option ResourceType :=
  mapKeys.find? fun r => r.toString == s

/-- The keys of `resource.Map` are the names of the types. -/
theorem mapLookup_eq_some_iff {s : String} {r : ResourceType} :
    mapLookup s = some r ↔ r.toString = s := by
  constructor
  · intro h
    simpa using List.find?_some h
  · rintro rfl
    cases h : mapKeys.find? fun r' => r'.toString == r.toString with
    | none => exact absurd (List.find?_eq_none.mp h r (mem_mapKeys r)) (by simp)
    | some r' =>
      have hname : r'.toString = r.toString := by simpa using List.find?_some h
      rw [mapLookup, h, toString_inj hname]

/-- `FromPlural`: the type a collection's path segment names. -/
def fromPlural (s : String) : Option ResourceType :=
  match s with
  | "credential-libraries" => some credentialLibrary
  | "policies" => some policy
  | "billing" => some billing
  | "aliases" => some alias'
  | _ => mapLookup (Strings.trimSuffix s "s")

/-- Neither `unknown` nor the wildcard is a collection type. -/
theorem topLevelType_ne_unknown {r : ResourceType} (h : r.topLevelType = true) :
    r ≠ unknown := by
  rintro rfl
  simp [topLevelType] at h

end ResourceType

/-- The type column of `globals.prefixToResourceType`. -/
def prefixToResourceType : List (String × ResourceType) :=
  [("at", .authToken), ("ampw", .authMethod), ("acctpw", .account), ("apw", .account),
    ("amoidc", .authMethod), ("acctoidc", .account), ("mgoidc", .managedGroup),
    ("mgldap", .managedGroup), ("amldap", .authMethod), ("acctldap", .account),
    ("p", .scope), ("o", .scope), ("global", .scope), ("u", .user), ("g", .group),
    ("r", .role), ("csst", .credentialStore), ("cs", .credentialStore), ("alt", .alias'),
    ("csvlt", .credentialStore), ("clvlt", .credentialLibrary),
    ("clvsclt", .credentialLibrary), ("clvllt", .credentialLibrary), ("cdvlt", .credential),
    ("credup", .credential), ("credupd", .credential), ("cred", .credential),
    ("credp", .credential), ("credspk", .credential), ("credjson", .credential),
    ("hcst", .hostCatalog), ("hsst", .hostSet), ("hst", .host), ("hcplg", .hostCatalog),
    ("hc", .hostCatalog), ("hsplg", .hostSet), ("hs", .hostSet), ("hplg", .host),
    ("h", .host), ("s", .session), ("ttcp", .target), ("tssh", .target), ("trdp", .target),
    ("w", .worker), ("sb", .storageBucket), ("sr", .sessionRecording), ("pst", .policy)]

/-- `globals.ResourceInfoFromPrefix(in).Type`: the type registered for the text
before the first underscore, `unknown` for an unregistered prefix. -/
def resourceInfoFromPrefix (id : String) : ResourceType :=
  ((prefixToResourceType.lookup (Strings.cut id '_').1)).getD .unknown

end Boundary
