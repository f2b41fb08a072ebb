import Boundary.Perms.Acl
import Boundary.Go.Json
import Boundary.Errors
import Boundary.Go.Control

/-!
# Parsing grant strings

`perms.Parse` reads a grant string in one of two syntaxes: JSON when it starts
with a brace, `key=value` segments separated by semicolons otherwise. It then
checks the ids, substitutes the `{{user.id}}` and `{{account.id}}` templates,
validates the type and the actions on the first id, and, unless the final
validation is skipped, checks each id against the type and asks `ACL.Allowed`
whether the grant would authorize anything at all. `CanonicalString` and
`MarshalJSON` write a parsed grant back in the two syntaxes.

Every message is the source's; `errors.Wrap` keeps the wrapped error's code and
takes the new message, as `Error.wrap` has it.
-/

namespace Boundary.Perms

open GoJson (Value)

/-- `perms.GrantTuple`, without the role id that only `GrantHash` reads. -/
structure GrantTuple where
  roleScopeId : String
  roleParentScopeId : String
  grantScopeId : String
  grant : String

/-- The fields of a grant that `unmarshalText` and `unmarshalJSON` set; the
action names wait in `actionsBeingParsed` for `parseAndValidateActions`. -/
structure GrantFields where
  id : String := ""
  ids : List String := []
  typ : ResourceType := .unknown
  outputFields : OutputFields := .unset
  actionsBeingParsed : List String := []

/-- The actions `parseAndValidateActions` accepts: none of them `unknown`. -/
def ValidActions : Type := { actions : Finset ActionType // ActionType.unknown ∉ actions }

/-! ## Writing a grant -/

/-- The segments of `CanonicalString`: the id, the ids, the type, the action
names in sorted order and the output fields, each present only when set. -/
def canonicalSegments (id : String) (ids : List String) (typ : ResourceType)
    (actions : Finset ActionType) (outputFields : OutputFields) : List String :=
  (if id ≠ "" then ["id=" ++ id] else []) ++
    (if ids ≠ [] then ["ids=" ++ Strings.join ids ","] else []) ++
    (if typ ≠ .unknown then ["type=" ++ typ.toString] else []) ++
    (if actions.Nonempty then
      ["actions=" ++ Strings.join ((actions.val.map ActionType.toString).sort (· ≤ ·)) ","]
    else []) ++
    (match outputFields.getFields with
      | some fields => ["output_fields=" ++ Strings.join fields ","]
      | none => [])

/-- `CanonicalString`, of the fields it reads. -/
def canonicalString (id : String) (ids : List String) (typ : ResourceType)
    (actions : Finset ActionType) (outputFields : OutputFields) : String :=
  Strings.join (canonicalSegments id ids typ actions outputFields) ";"

/-- `Grant.CanonicalString`. -/
def Grant.canonicalString (g : Grant) : String :=
  Perms.canonicalString g.id g.ids g.typ g.actions g.outputFields

/-- `Grant.MarshalJSON`: the map it builds, listed in the order `json.Marshal`
writes a map, and the text `json.Marshal` writes for it. -/
def Grant.marshalJSON (g : Grant) : String :=
  String.ofList (GoJson.marshal (.object
    ((if g.actions.Nonempty then
        [("actions", .array (((g.actions.val.map ActionType.toString).sort (· ≤ ·)).map .string))]
      else []) ++
      (if g.id ≠ "" then [("id", .string g.id)] else []) ++
      (if g.ids ≠ [] then [("ids", .array (g.ids.map .string))] else []) ++
      (match g.outputFields.getFields with
        | some fields => [("output_fields", .array (fields.map .string))]
        | none => []) ++
      (if g.typ ≠ .unknown then [("type", .string g.typ.toString)] else []))))

/-! ## The two syntaxes -/

/-- A `key=value` segment of `unmarshalText` read into the grant. -/
def segmentField (g : GrantFields) (segment key value : String) : Except Error GrantFields :=
  if key.length = 0 then
    .error (.new .invalidParameter
      ("segment " ++ Strings.quote segment ++ " not formatted correctly, missing key"))
  else if value.length = 0 ∧ key ≠ "output_fields" then
    .error (.new .invalidParameter
      ("segment " ++ Strings.quote segment ++ " not formatted correctly, missing value"))
  else if key = "id" then
    if Strings.contains value ',' then .error (.new .invalidParameter "ID cannot contain a comma")
    else .ok { g with id := value }
  else if key = "ids" then
    let ids := Strings.split value ','
    if ids.any (· = "") then .error (.new .invalidParameter "empty ID provided")
    else .ok { g with ids }
  else if key = "type" then
    let typeString := Strings.toLower value
    let typ := ResourceType.map typeString
    if typ = .unknown then
      .error (.new .invalidParameter ("unknown type specifier " ++ Strings.quote typeString))
    else .ok { g with typ }
  else if key = "actions" then
    let actions := Strings.split value ','
    if actions.any (· = "") then .error (.new .invalidParameter "empty action found")
    else .ok { g with actionsBeingParsed := actions.map Strings.toLower }
  else if key = "output_fields" then
    if value.length = 0 then .ok { g with outputFields := g.outputFields.addFields (some []) }
    else .ok { g with outputFields := g.outputFields.addFields (some (Strings.split value ',')) }
  -- any other key is ignored
  else .ok g

/-- One segment of `unmarshalText`: exactly one equals sign. -/
def textSegment (g : GrantFields) (segment : String) : Except Error GrantFields :=
  match Strings.split segment '=' with
  | [key, value] => segmentField g segment key value
  | _ =>
    .error (.new .invalidParameter ("segment " ++ Strings.quote segment ++
      " not formatted correctly, wrong number of equal signs"))

/-- `Grant.unmarshalText`. -/
def unmarshalText (grantString : String) (g : GrantFields) : Except Error GrantFields :=
  (Strings.split grantString ';').foldlM textSegment g

/-- One id of the JSON `ids` array. -/
def jsonId : Value → Except Error String
  | .string id =>
    if id = "" then .error (.new .invalidParameter "empty ID provided")
    else if Strings.containsAny id ",;=" then
      .error (.new .invalidParameter "ID cannot contain a comma, semicolon or equals sign")
    else .ok id
  | v =>
    .error (.new .invalidParameter ("unable to interpret " ++ Strings.quote "ids" ++ " element " ++
      Strings.quote (GoJson.format v) ++ " as string"))

/-- One element of the JSON `actions` array. -/
def jsonAction : Value → Except Error String
  | .string action =>
    if action = "" then .error (.new .invalidParameter "empty action found")
    else if Strings.containsAny action ",;=" then
      .error (.new .invalidParameter "action cannot contain a comma, semicolon or equals sign")
    else .ok (Strings.toLower action)
  | v =>
    .error (.new .invalidParameter
      ("unable to interpret " ++ GoJson.format v ++ " in actions array as string"))

/-- One element of the JSON `output_fields` array. -/
def jsonOutputField : Value → Except Error String
  | .string field =>
    if Strings.containsAny field ",;=" then
      .error (.new .invalidParameter "output fields cannot contain a comma, semicolon or equals sign")
    else .ok field
  | v =>
    .error (.new .invalidParameter
      ("unable to interpret " ++ GoJson.format v ++ " in output_fields array as string"))

/-- The `id` block of `unmarshalJSON`. -/
def readId (raw : List (String × Value)) (g : GrantFields) : Except Error GrantFields :=
  match raw.lookup "id" with
  | none => .ok g
  | some (.string id) =>
    if id = "" then .error (.new .invalidParameter "empty ID provided")
    else if Strings.containsAny id ",;=" then
      .error (.new .invalidParameter "ID cannot contain a comma, semicolon or equals sign")
    else .ok { g with id }
  | some _ =>
    .error (.new .invalidParameter ("unable to interpret " ++ Strings.quote "id" ++ " as string"))

/-- The `ids` block of `unmarshalJSON`. -/
def readIds (raw : List (String × Value)) (g : GrantFields) : Except Error GrantFields :=
  match raw.lookup "ids" with
  | none => .ok g
  | some (.array ids) => (ids.mapM jsonId).map fun ids => { g with ids }
  | some _ =>
    .error (.new .invalidParameter ("unable to interpret " ++ Strings.quote "ids" ++ " as array"))

/-- The `type` block of `unmarshalJSON`. -/
def readType (raw : List (String × Value)) (g : GrantFields) : Except Error GrantFields :=
  match raw.lookup "type" with
  | none => .ok g
  | some (.string typ) =>
    let t := ResourceType.map typ
    if t = .unknown then
      .error (.new .invalidParameter ("unknown type specifier " ++ Strings.quote typ))
    else .ok { g with typ := t }
  | some _ =>
    .error (.new .invalidParameter ("unable to interpret " ++ Strings.quote "type" ++ " as string"))

/-- The `actions` block of `unmarshalJSON`: an empty array sets nothing. -/
def readActions (raw : List (String × Value)) (g : GrantFields) : Except Error GrantFields :=
  match raw.lookup "actions" with
  | none => .ok g
  | some (.array []) => .ok g
  | some (.array actions) =>
    (actions.mapM jsonAction).map fun actions => { g with actionsBeingParsed := actions }
  | some _ =>
    .error (.new .invalidParameter ("unable to interpret " ++ Strings.quote "actions" ++ " as array"))

/-- The `output_fields` block of `unmarshalJSON`: an empty array sets the
output fields to none. -/
def readOutputFields (raw : List (String × Value)) (g : GrantFields) : Except Error GrantFields :=
  match raw.lookup "output_fields" with
  | none => .ok g
  | some (.array []) => .ok { g with outputFields := g.outputFields.addFields (some []) }
  | some (.array fields) =>
    (fields.mapM jsonOutputField).map fun fields =>
      { g with outputFields := g.outputFields.addFields (some fields) }
  | some _ =>
    .error (.new .invalidParameter
      ("unable to interpret " ++ Strings.quote "output_fields" ++ " as array"))

/-- `Grant.unmarshalJSON`, on the map `json.Unmarshal` reads. -/
def unmarshalJSONMap (raw : List (String × Value)) (g : GrantFields) : Except Error GrantFields :=
  readId raw g >>= readIds raw >>= readType raw >>= readActions raw >>= readOutputFields raw

/-- `Grant.unmarshalJSON`: a text `json.Unmarshal` rejects is a decode error. -/
def unmarshalJSON (data : String) (g : GrantFields) : Except Error GrantFields :=
  match GoJson.unmarshalMap data.toList with
  | .error _ => .error (.new .decode "")
  | .ok raw => unmarshalJSONMap raw g

/-! ## Validation -/

/-- `Grant.validateType`. -/
def validateType (typ : ResourceType) : Except Error Unit :=
  if typ = .controller then
    .error (.new .invalidParameter ("unknown type specifier " ++ Strings.quote typ.toString))
  else .ok ()

/-- One action name of `parseAndValidateActions`. -/
def validateAction (a : String) : Except Error ActionType :=
  if a = "" then .error (.new .invalidParameter "empty action found")
  else
    let am := ActionType.map a
    if am = .unknown then .error (.new .invalidParameter ("unknown action " ++ Strings.quote a))
    else .ok am

/-- Every action `validateAction` returns is known. -/
theorem validateAction_ne_unknown {a : String} {am : ActionType} (h : validateAction a = .ok am) :
    am ≠ .unknown := by
  simp only [validateAction] at h
  split_ifs at h with h₁ h₂
  obtain rfl := Except.ok.inj h
  exact h₂

/-- `Grant.parseAndValidateActions`. -/
def parseAndValidateActions (g : GrantFields) : Except Error ValidActions :=
  if g.actionsBeingParsed = [] then
    -- without actions the grant may still set output fields
    if g.outputFields.getFields.isSome then .ok ⟨∅, Finset.notMem_empty _⟩
    else .error (.new .invalidParameter "missing actions")
  else
    match h : g.actionsBeingParsed.mapM validateAction with
    | .error e => .error e
    | .ok actions =>
      if actions.toFinset.card > 1 ∧ ActionType.all ∈ actions then
        .error (.new .invalidParameter
          (Strings.quote ActionType.all.toString ++ " cannot be specified with other actions"))
      else .ok ⟨actions.toFinset, by
        rw [List.mem_toFinset]
        intro hmem
        obtain ⟨a, -, ha⟩ := GoControl.exists_of_mem_mapM_eq_ok h _ hmem
        exact validateAction_ne_unknown ha rfl⟩

/-- The two ways `parseAndValidateActions` succeeds: with no names and set
output fields, or with the set of actions the names validate to. -/
theorem parseAndValidateActions_eq_ok {fields : GrantFields} {a : ValidActions}
    (h : parseAndValidateActions fields = .ok a) :
    (fields.actionsBeingParsed = [] ∧ a.1 = ∅ ∧ fields.outputFields.getFields.isSome) ∨
      ∃ actions, fields.actionsBeingParsed.mapM validateAction = .ok actions ∧ actions ≠ [] ∧
        a.1 = actions.toFinset ∧ ¬(actions.toFinset.card > 1 ∧ ActionType.all ∈ actions) := by
  unfold parseAndValidateActions at h
  split_ifs at h with hnil hsome
  · obtain rfl := Except.ok.inj h
    exact .inl ⟨hnil, rfl, hsome⟩
  · split at h
    · cases h
    · rename_i actions hmap
      split_ifs at h with hall
      obtain rfl := Except.ok.inj h
      have hne : actions ≠ [] := by
        intro h
        apply hnil
        rw [← List.length_eq_zero_iff, ← GoControl.length_of_mapM_eq_ok hmap, h, List.length_nil]
      exact .inr ⟨actions, hmap, hne, rfl, hall⟩

/-- `Grant.hasActionOrSubaction`. -/
def hasActionOrSubaction (actions : Finset ActionType) (act : ActionType) : Bool :=
  decide (∃ k ∈ actions, act.isActionOrParent k = true)

/-- A template id and the value it stands for: the option's user or account id,
or a dummy value of the right type when the option is unset. The second
component is the id to put back after validation, empty when nothing is. -/
def substituteTemplate (opts : Options) (deprecatedId : Bool) (currId : String) :
    Except Error (String × String) :=
  if currId ≠ "" ∧ Strings.hasPrefix currId "\x7b\x7b" then
    let id := Strings.trimSpace (Strings.trimSuffix (Strings.trimPrefix currId "\x7b\x7b") "\x7d\x7d")
    if id = "user.id" ∨ id = ".User.Id" then
      if opts.withUserId ≠ "" then .ok (opts.withUserId, "") else .ok ("u_dummy", currId)
    else if id = "account.id" ∨ id = ".Account.Id" then
      if opts.withAccountId ≠ "" then .ok (opts.withAccountId, "")
      else .ok ("acctoidc_dummy", currId)
    else
      .error (.new .invalidParameter ("unknown template " ++ Strings.quote currId ++ " in grant " ++
        Strings.quote (if deprecatedId then "id" else "ids") ++ " value"))
  else .ok (currId, "")

/-- The grant `Parse` validates: the scopes of the tuple and the fields read
from the grant string, with the ids as they stand during the loop. -/
structure Draft where
  roleScopeId : String
  roleParentScopeId : String
  grantScopeId : String
  id : String
  ids : List String
  typ : ResourceType
  outputFields : OutputFields

/-- The clone `Parse` hands to `NewACL`, with `id` set to the id under
validation. `NewACL` reads a grant's `id` only when it has no `ids`, so the
clone keeps the id only then. -/
def validationGrant (d : Draft) (actions : ValidActions) (idValue : String) : Grant where
  roleScopeId := d.roleScopeId
  roleParentScopeId := d.roleParentScopeId
  id := if d.ids = [] then idValue else ""
  ids := d.ids
  grantScopeId := d.grantScopeId
  typ := d.typ
  actions := actions.1
  -- `clone` copies the output fields through `AddFields(Fields())`
  outputFields := OutputFields.unset.addFields d.outputFields.getFields
  unknown_not_mem := actions.2
  id_or_ids := by
    by_cases h : d.ids = []
    · exact .inr h
    · simp [h]

/-- The scopes a resource of the grant may sit in, and their parent scope. -/
def scopesToCheck (d : Draft) : List String × String :=
  if d.grantScopeId = grantScopeDescendants then (["o_1234567890", "p_1234567890"], "")
  else if d.grantScopeId = grantScopeChildren then
    if d.roleScopeId = globalScopeId then (["o_1234567890"], globalScopeId)
    else (["p_1234567890"], d.roleScopeId)
  else ([d.grantScopeId], "")

/-- The end of the loop body of the final validation: some action of the grant
is authorized on a dummy resource with the id, in one of the scopes. -/
def authorizesSome (d : Draft) (actions : ValidActions) (idValue : String) : Bool :=
  let acl := newACL [validationGrant d actions idValue]
  let (scopes, parentScopeId) := scopesToCheck d
  scopes.any fun scopeId =>
    let r : Resource :=
      { scopeId, id := idValue, typ := d.typ, parentScopeId
        pin := if !d.typ.topLevelType then idValue else "" }
    decide (∃ k ∈ actions.1,
      (acl.allowed r k anonymousUserId { withSkipAnonymousUserRestrictions := true }).authorized)

/-- The final validation of one id. -/
def validateId (d : Draft) (actions : ValidActions) (idValue : String) : Except Error Unit := do
  let canonical := Strings.quote (canonicalString d.id d.ids d.typ actions.1 d.outputFields)
  let invalid (msg : String) : Except Error Unit :=
    .error (.new .invalidParameter ("parsed grant string " ++ canonical ++ msg))
  let onlyCreateOrList := " contains non-create or non-list action in a format that only allows these"
  if idValue = "*" then
    if d.typ = .unknown then invalid " contains wildcard id and no specified type"
    else pure ()
  else if idValue ≠ "" then
    let idType := resourceInfoFromPrefix idValue
    if idType = .unknown then
      invalid (" contains an id " ++ Strings.quote idValue ++ " of an unknown resource type")
    else
      match d.typ with
      | .unknown =>
        if ActionType.create ∈ actions.1 ∨ ActionType.list ∈ actions.1 then
          invalid " contains create or list action in a format that does not allow these"
        else pure ()
      | .all =>
        if !idType.hasChildTypes then invalid " contains an id that does not support child types"
        else pure ()
      | typ =>
        if typ.parent ≠ idType then
          invalid (" contains type " ++ typ.toString ++
            " that is not a child type of the type (" ++ typ.parent.toString ++ ") of the specified id")
        else pure ()
  else
    match d.typ with
    | .unknown => invalid " contains no id or type"
    | .all => invalid " contains wildcard type with no id value"
    | _ =>
      match actions.1.card with
      | 0 =>
        if d.outputFields.getFields.isNone then invalid " contains no actions or output fields"
        else pure ()
      | 1 =>
        if !hasActionOrSubaction actions.1 .create && !hasActionOrSubaction actions.1 .list then
          invalid onlyCreateOrList
        else pure ()
      | 2 =>
        if !hasActionOrSubaction actions.1 .create || !hasActionOrSubaction actions.1 .list then
          invalid onlyCreateOrList
        else pure ()
      | _ => invalid onlyCreateOrList
  -- the grant may only set output fields
  if actions.1.Nonempty then
    if !authorizesSome d actions idValue then
      invalid " would not result in any action being authorized"

/-! ## Parse -/

/-- The ids the grant has while the loop runs: a grant with `ids` shares its
slice with `grantIds`, which the loop writes through. -/
def loopIds (fields : GrantFields) (grantIds : List String) : List String :=
  if fields.ids = [] then [] else grantIds

/-- The grant `Parse` validates at a point of the loop. -/
def draftAt (tuple : GrantTuple) (fields : GrantFields) (grantIds : List String) : Draft where
  roleScopeId := tuple.roleScopeId
  roleParentScopeId := tuple.roleParentScopeId
  grantScopeId := tuple.grantScopeId
  id := fields.id
  ids := loopIds fields grantIds
  typ := fields.typ
  outputFields := fields.outputFields

/-- The actions of a turn of the loop: the type and the actions are validated
on the first turn (`i == 0`), whose actions the later turns keep. -/
def turnActions (fields : GrantFields) (validatedActions : Except Error ValidActions) :
    Option ValidActions → Except Error ValidActions
  | some actions => .ok actions
  | none => do
    (validateType fields.typ).mapError (·.wrap "")
    validatedActions.mapError (·.wrap "")

/-- The final validation of a turn, unless the options skip it. -/
def finalValidation (opts : Options) (d : Draft) (actions : ValidActions) (idValue : String) :
    Except Error Unit :=
  if opts.withSkipFinalValidation then .ok () else validateId d actions idValue

/-- The end of a turn: a substituted dummy value is replaced by the template. -/
def restoreId (grantIds : List String) (i : Nat) (origId : String) : List String :=
  if origId ≠ "" then grantIds.set i origId else grantIds

/-- One turn of the loop of `Parse` over `grantIds`: the template substitution,
the actions, the final validation and the original id put back. The second
component holds the actions once the first turn has validated them. -/
def idStep (tuple : GrantTuple) (opts : Options) (fields : GrantFields)
    (validatedActions : Except Error ValidActions) (deprecatedId : Bool)
    (state : List String × Option ValidActions) (i : Nat) :
    Except Error (List String × Option ValidActions) :=
  substituteTemplate opts deprecatedId (state.1.getD i "") >>= fun sub =>
  turnActions fields validatedActions state.2 >>= fun actions =>
  finalValidation opts (draftAt tuple fields (state.1.set i sub.1)) actions sub.1 >>= fun _ =>
  pure (restoreId (state.1.set i sub.1) i sub.2, some actions)

/-- The grant `Parse` returns once the loop is done: a first id is moved back
into `id` for the deprecated field and into `ids` otherwise. -/
def resultGrant (tuple : GrantTuple) (fields : GrantFields)
    (hboth : ¬(fields.id ≠ "" ∧ fields.ids ≠ [])) (grantIds : List String)
    (actions : ValidActions) : Grant where
  roleScopeId := tuple.roleScopeId
  roleParentScopeId := tuple.roleParentScopeId
  grantScopeId := tuple.grantScopeId
  id := if grantIds.headD "" ≠ "" ∧ fields.id ≠ "" then grantIds.headD "" else fields.id
  ids := if grantIds.headD "" ≠ "" ∧ fields.id = "" then grantIds else fields.ids
  typ := fields.typ
  actions := actions.1
  outputFields := fields.outputFields
  unknown_not_mem := actions.2
  id_or_ids := by
    by_cases hd : fields.id = ""
    · exact .inl (by simp [hd])
    · have hids : fields.ids = [] := by
        by_contra h
        exact hboth ⟨hd, h⟩
      exact .inr (by simp [hd, hids])

/-- The ids the loop of `Parse` runs over: the deprecated id, the ids, or the
empty id of a grant without one. -/
def initialIds (fields : GrantFields) : List String :=
  if fields.id ≠ "" then [fields.id] else if fields.ids = [] then [""] else fields.ids

/-- `Parse` after the grant string is read: the checks on the ids, the loop,
and the ids moved back into the grant. -/
def parseFields (tuple : GrantTuple) (opts : Options) (fields : GrantFields)
    (validatedActions : Except Error ValidActions) : Except Error Grant :=
  if hboth : fields.id ≠ "" ∧ fields.ids ≠ [] then
    .error (.new .invalidParameter ("input grant string " ++ Strings.quote tuple.grant ++
      " contains both " ++ Strings.quote "id" ++ " and " ++ Strings.quote "ids" ++ " fields"))
  else if fields.ids.length > 1 ∧ "*" ∈ fields.ids then
    .error (.new .invalidParameter ("input grant string " ++ Strings.quote tuple.grant ++
      " contains both wildcard and non-wildcard values in " ++ Strings.quote "ids" ++ " field"))
  else if fields.id = "" ∧ fields.ids.length > 1 ∧
      ∃ id ∈ fields.ids.tail, resourceInfoFromPrefix id ≠ resourceInfoFromPrefix (fields.ids.headD "") then
    .error (.new .invalidParameter ("input grant string " ++ Strings.quote tuple.grant ++
      " contains ids of differently-typed resources"))
  else
    match (List.range (initialIds fields).length).foldlM
        (idStep tuple opts fields validatedActions (fields.id ≠ "")) (initialIds fields, none) with
    | .error e => .error e
    | .ok (grantIds, actions) =>
      -- the loop ran at least once, so the actions are there
      .ok (resultGrant tuple fields hboth grantIds (actions.getD ⟨∅, Finset.notMem_empty _⟩))

/-- The grant string read in its syntax: JSON when it starts with a brace. -/
def unmarshalGrant (grant : String) : Except Error GrantFields :=
  if grant.toList.head? = some '\x7b' then
    (unmarshalJSON grant {}).mapError (·.wrap "unable to parse JSON grant string")
  else (unmarshalText grant {}).mapError (·.wrap "unable to parse grant string")

/-- `perms.Parse`. -/
def parse (tuple : GrantTuple) (opts : Options) : Except Error Grant := do
  if tuple.grant.length = 0 then .error (.new .invalidParameter "missing grant string")
  else if tuple.roleScopeId = "" then .error (.new .invalidParameter "missing role scope id")
  else if tuple.grantScopeId = "" then .error (.new .invalidParameter "missing grant scope id")
  else
    let fields ← unmarshalGrant tuple.grant
    parseFields tuple opts fields (parseAndValidateActions fields)

/-- `Parse` succeeds exactly through its three checks, the reading of the grant
string and `parseFields`. -/
theorem parse_eq_ok_iff {tuple : GrantTuple} {opts : Options} {g : Grant} :
    parse tuple opts = .ok g ↔ tuple.grant.length ≠ 0 ∧ tuple.roleScopeId ≠ "" ∧
      tuple.grantScopeId ≠ "" ∧ ∃ fields, unmarshalGrant tuple.grant = .ok fields ∧
        parseFields tuple opts fields (parseAndValidateActions fields) = .ok g := by
  unfold parse
  constructor
  · intro h
    split_ifs at h with h₁ h₂ h₃
    obtain ⟨fields, hf, h⟩ := GoControl.bind_eq_ok.mp h
    exact ⟨h₁, h₂, h₃, fields, hf, h⟩
  · rintro ⟨h₁, h₂, h₃, fields, hf, h⟩
    simp only [h₁, h₂, h₃, if_false, hf, GoControl.ok_bind]
    exact h

end Boundary.Perms
