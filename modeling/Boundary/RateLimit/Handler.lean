import Boundary.RateLimit.Limits

/-!
# The resource and action of a request

`Handler` asks the limiter for the limits of the resource and the action that
`extractResourceAction` reads off the request's path and method, and answers
500 when the limiter has none. The path is matched against `pathRegex`,

    /v1/(?P<resource>[\w-]+)((/(?P<id>[^:]+))?(:(?P<action>[\w-:]+)?)?)?

compiled here by hand: Go's `FindStringSubmatch` returns the leftmost match and,
among the matches that start there, the one a backtracking matcher finds first.
Every group after the resource is optional, so each greedy group takes the
longest run of its class (`matchAt`), and a path with no match panics on
`match[i]`.

An action named in the path is checked against the actions registered on the
resource, so `Limits` lists its limits (`limits_of_named_action`). An action the
method selects is not checked: `Limits` lists its limits exactly when it is
registered on the resource (`limits_of_method_action_iff`), which `create` is
not on sessions.
-/

namespace Boundary.RateLimit

/-- `\w`: an ASCII letter, digit or underscore. -/
def isWordChar (c : Char) : Bool := c.isAlphanum || c == '_'

/-- The class `[\w-]` of the resource group. -/
def isResourceChar (c : Char) : Bool := isWordChar c || c == '-'

/-- The class `[\w-:]` of the action group. -/
def isActionChar (c : Char) : Bool := isResourceChar c || c == ':'

/-- The named groups of a match of `pathRegex`; a group that takes part in no
match is empty. -/
structure PathMatch where
  resource : String
  id : String
  action : String
  deriving DecidableEq, Repr

/-- The group `(/(?P<id>[^:]+))?` at the head of a string: the id, and what
follows the group. It takes part only when a slash and a non-colon come first. -/
def matchId : List Char → List Char × List Char
  | '/' :: tail =>
    match tail.takeWhile (· != ':') with
    | [] => ([], '/' :: tail)
    | id => (id, tail.dropWhile (· != ':'))
  | rest => ([], rest)

/-- The group `(:(?P<action>[\w-:]+)?)?` at the head of a string: the action. -/
def matchAction : List Char → List Char
  | ':' :: tail => tail.takeWhile isActionChar
  | _ => []

/-- The match of `pathRegex` that starts at the head of a string, if one does. -/
def matchAt : List Char → Option PathMatch
  | '/' :: 'v' :: '1' :: '/' :: rest =>
    match rest.takeWhile isResourceChar with
    | [] => none
    | resource =>
      let afterResource := rest.dropWhile isResourceChar
      some ⟨String.ofList resource, String.ofList (matchId afterResource).1,
        String.ofList (matchAction (matchId afterResource).2)⟩
  | _ => none

/-- `pathRegex.FindStringSubmatch(path)`: the leftmost match. -/
def findStringSubmatch : List Char → Option PathMatch
  | [] => none
  | c :: cs => (matchAt (c :: cs)).or (findStringSubmatch cs)

/-- `extractResourceActionErr`: the status `Handler` answers with, and the text. -/
structure ExtractErr where
  statusCode : Nat
  msg : String
  deriving DecidableEq, Repr

/-- `errUnknownResource`: 404. -/
def errUnknownResource : ExtractErr := ⟨404, "unknown resource"⟩

/-- `errUnknownAction`: 400. -/
def errUnknownAction : ExtractErr := ⟨400, "unknown action"⟩

/-- `errUnsupportedAction`: 405. -/
def errUnsupportedAction : ExtractErr := ⟨405, "invalid action"⟩

/-- The action the method selects when the path names none: `list` or `create`
on a collection, `read`, `delete` or `update` on one resource. -/
def methodAction (id method : String) : Option ActionType :=
  if id = "" then
    if method = "GET" then some .list
    else if method = "POST" then some .create
    else none
  else
    if method = "GET" then some .read
    else if method = "DELETE" then some .delete
    else if method = "PATCH" then some .update
    else none

/-- `extractResourceAction`: the resource and the action of a request, and the
error that rejects it. -/
def extractResourceAction (reg : Registry) (path method : String) :
    Except Error (String × String × Option ExtractErr) :=
  match findStringSubmatch path.toList with
  | none => .error (.runtimeError "index out of range [1] with length 0")
  | some m =>
    match ResourceType.fromPlural m.resource with
    | none => .ok (ResourceType.unknown.toString, "", some errUnknownResource)
    | some r =>
      if m.action = "" then
        match methodAction m.id method with
        | some a => .ok (r.toString, a.toString, none)
        | none => .ok (r.toString, ActionType.unknown.toString, some errUnsupportedAction)
      else
        match actionSetForResource reg r with
        | .error _ => .ok (r.toString, ActionType.unknown.toString, some errUnknownAction)
        | .ok actionSet =>
          match ActionType.mapLookup m.action with
          | none => .ok (r.toString, ActionType.unknown.toString, some errUnknownAction)
          | some a =>
            if a ∈ actionSet then .ok (r.toString, m.action, none)
            else .ok (r.toString, m.action, some errUnsupportedAction)

/-! ## The match of a collection's path -/

theorem matchAt_collection {s : List Char} (hs : s ≠ []) (hchars : ∀ c ∈ s, isResourceChar c) :
    matchAt ('/' :: 'v' :: '1' :: '/' :: s) = some ⟨String.ofList s, "", ""⟩ := by
  have htake : s.takeWhile isResourceChar = s := List.takeWhile_eq_self_iff.mpr hchars
  have hdrop : s.dropWhile isResourceChar = [] := List.dropWhile_eq_nil_iff.mpr hchars
  obtain ⟨c, cs, rfl⟩ := List.exists_cons_of_ne_nil hs
  simp only [matchAt, htake, hdrop, matchId, matchAction]

/-- The path of a collection, `/v1/` and a run of resource characters, matches
with that run as the resource and no id or action. -/
theorem findStringSubmatch_collection {s : List Char} (hs : s ≠ [])
    (hchars : ∀ c ∈ s, isResourceChar c) :
    findStringSubmatch ("/v1/" ++ String.ofList s).toList = some ⟨String.ofList s, "", ""⟩ := by
  have hpath : ("/v1/" ++ String.ofList s).toList = '/' :: 'v' :: '1' :: '/' :: s := by
    simp
  rw [hpath, findStringSubmatch, matchAt_collection hs hchars, Option.some_or]

/-! ## What `extractResourceAction` accepts -/

section Extract

variable {reg : Registry} {path method : String} {m : PathMatch} {r : ResourceType}

/-- A path that names no action takes the action its method selects, whether or
not the resource registers it. -/
theorem extractResourceAction_of_methodAction {a : ActionType}
    (hm : findStringSubmatch path.toList = some m) (hr : ResourceType.fromPlural m.resource = some r)
    (hempty : m.action = "") (ha : methodAction m.id method = some a) :
    extractResourceAction reg path method = .ok (r.toString, a.toString, none) := by
  unfold extractResourceAction
  rw [hm]
  dsimp only
  rw [hr]
  dsimp only
  rw [if_pos hempty, ha]

/-- A collection's path is classified by the method alone, whatever the registry
holds: `GET` lists and `POST` creates. -/
theorem extractResourceAction_collection {s : List Char} (hs : s ≠ [])
    (hchars : ∀ c ∈ s, isResourceChar c) (hr : ResourceType.fromPlural (String.ofList s) = some r) :
    extractResourceAction reg ("/v1/" ++ String.ofList s) "GET" =
        .ok (r.toString, ActionType.list.toString, none) ∧
      extractResourceAction reg ("/v1/" ++ String.ofList s) "POST" =
        .ok (r.toString, ActionType.create.toString, none) := by
  have hm := findStringSubmatch_collection hs hchars
  constructor
  · exact extractResourceAction_of_methodAction hm hr rfl
      (show methodAction "" "GET" = some .list by decide)
  · exact extractResourceAction_of_methodAction hm hr rfl
      (show methodAction "" "POST" = some .create by decide)

/-- A path that names an action registered on its resource takes that action. -/
theorem extractResourceAction_of_named {a : ActionType}
    (hm : findStringSubmatch path.toList = some m) (hr : ResourceType.fromPlural m.resource = some r)
    (hne : m.action ≠ "") (hl : ActionType.mapLookup m.action = some a)
    (hmem : a ∈ validActions reg r) :
    extractResourceAction reg path method = .ok (r.toString, m.action, none) := by
  have hset : actionSetForResource reg r = .ok (validActions reg r) :=
    actionSetForResource_eq_ok.mpr ⟨isSome_of_mem_validActions hmem, rfl⟩
  unfold extractResourceAction
  rw [hm]
  dsimp only
  rw [hr]
  dsimp only
  rw [if_neg hne, hset]
  dsimp only
  rw [hl]
  dsimp only
  rw [if_pos hmem]

/-- A request that passes `extractResourceAction` has a path naming a resource
type, and either an action registered on the type or none and a method that
selects one. -/
theorem exists_of_extractResourceAction_eq_ok {res act : String}
    (h : extractResourceAction reg path method = .ok (res, act, none)) :
    ∃ m r, findStringSubmatch path.toList = some m ∧ ResourceType.fromPlural m.resource = some r ∧
      res = r.toString ∧
      ((m.action = "" ∧ ∃ a, methodAction m.id method = some a ∧ act = a.toString) ∨
        (m.action ≠ "" ∧ act = m.action ∧
          ∃ a, ActionType.mapLookup m.action = some a ∧ a ∈ validActions reg r)) := by
  unfold extractResourceAction at h
  split at h
  · cases h
  · rename_i m hm
    split at h
    · simp at h
    · rename_i r hr
      split_ifs at h with hempty
      -- the action the method selects
      · split at h
        · rename_i a hma
          cases h
          exact ⟨m, r, hm, hr, rfl, .inl ⟨hempty, a, hma, rfl⟩⟩
        · simp at h
      -- the action the path names: registered resource, known name, registered action
      · split at h
        · simp at h
        · rename_i actionSet hset
          obtain ⟨-, rfl⟩ := actionSetForResource_eq_ok.mp hset
          split at h
          · simp at h
          · rename_i a hl
            split_ifs at h with hmem
            · cases h
              exact ⟨m, r, hm, hr, rfl, .inr ⟨hempty, rfl, a, hl, hmem⟩⟩
            · simp at h

end Extract

/-! ## The limits `Handler` asks for -/

section Found

variable {reg : Registry} {mapOrder : List ResourceType} {c : Configs} {ls : List Limit}
  {path method res act : String} {m : PathMatch} {r : ResourceType}

/-- The limits `Handler` asks for are listed by `Limits` exactly when the path
names the action, or the action the method selects is registered on the
resource. -/
theorem exists_limit_iff (horder : mapOrder.Perm ResourceType.mapKeys)
    (hreg : ∀ r, (reg r).isSome ↔ Listed r) (hper : ∀ cc ∈ c, cc.per ∈ limitPers)
    (hls : limits reg mapOrder c = .ok ls)
    (h : extractResourceAction reg path method = .ok (res, act, none))
    (hm : findStringSubmatch path.toList = some m) (hr : ResourceType.fromPlural m.resource = some r)
    {p : String} (hp : p ∈ limitPers) :
    (∃ l ∈ ls, l.fields = (res, act, p)) ↔
      m.action ≠ "" ∨ ∃ a, methodAction m.id method = some a ∧ a ∈ validActions reg r := by
  obtain ⟨m', r', hm', hr', rfl, hact⟩ := exists_of_extractResourceAction_eq_ok h
  rw [hm, Option.some.injEq] at hm'
  subst hm'
  rw [hr, Option.some.injEq] at hr'
  subst hr'
  rcases hact with ⟨hempty, a, hma, rfl⟩ | ⟨hne, rfl, a, hl, hmem⟩
  -- the method's action: found exactly when registered
  · rw [exists_limit_toString_iff horder hreg hper hls hp]
    constructor
    · intro ha
      exact .inr ⟨a, hma, ha⟩
    · rintro (hne | ⟨a', hma', ha'⟩)
      · exact absurd hempty hne
      · rw [hma, Option.some.injEq] at hma'
        rwa [hma']
  -- the path's action: registered, so found
  · have hname : m.action = a.toString := (ActionType.toString_of_mapLookup_eq hl).symm
    constructor
    · intro _
      exact .inl hne
    · intro _
      rw [hname]
      exact (exists_limit_toString_iff horder hreg hper hls hp).mpr hmem

end Found

/-- `POST /v1/sessions` passes `extractResourceAction` as `create` on sessions,
which the session handler does not register, so no run of `Limits` lists a limit
`Handler` can find for it. -/
theorem extractResourceAction_session_create :
    extractResourceAction registered "/v1/sessions" "POST" = .ok ("session", "create", none) ∧
      ActionType.create ∉ validActions registered .session ∧
      ∀ (mapOrder : List ResourceType) (c : Configs) (ls : List Limit),
        mapOrder.Perm ResourceType.mapKeys → (∀ cc ∈ c, cc.per ∈ limitPers) →
        limits registered mapOrder c = .ok ls →
        ∀ p ∈ limitPers, ∀ l ∈ ls, l.fields ≠ ("session", "create", p) := by
  have hr : ResourceType.fromPlural (String.ofList ['s', 'e', 's', 's', 'i', 'o', 'n', 's']) =
      some .session := by decide
  have hpath : "/v1/" ++ String.ofList ['s', 'e', 's', 's', 'i', 'o', 'n', 's'] = "/v1/sessions" := by
    decide
  have hchars : ∀ c ∈ ['s', 'e', 's', 's', 'i', 'o', 'n', 's'], isResourceChar c := by
    simp [isResourceChar, isWordChar, Char.isAlphanum, Char.isAlpha, Char.isLower, Char.isUpper]
  have hext := (@extractResourceAction_collection registered _ _ (by decide) hchars hr).2
  rw [hpath] at hext
  have hcreate : ActionType.create ∉ validActions registered .session := by decide
  refine ⟨hext, hcreate, ?_⟩
  intro mapOrder c ls horder hper hls p hp l hl hfields
  exact hcreate ((exists_limit_toString_iff horder registered_isSome_iff hper hls hp).mp
    ⟨l, hl, hfields⟩)

/-- With one config that sets every action of every resource, `Limits` succeeds
and still lists no limit for creating a session. -/
theorem limits_lack_session_create :
    ∃ ls, limits registered ResourceType.mapKeys [⟨["*"], ["*"], limitPerTotal, 0, 0, true⟩] =
        .ok ls ∧ ∀ p ∈ limitPers, ∀ l ∈ ls, l.fields ≠ ("session", "create", p) := by
  have hper : ∀ cc ∈ [(⟨["*"], ["*"], limitPerTotal, 0, 0, true⟩ : Config)], cc.per ∈ limitPers := by
    decide
  obtain ⟨ls, hls⟩ := (limits_isOk_iff (fun r => (registered_isSome_iff r).mpr)
    (List.Perm.refl ResourceType.mapKeys)).mpr fun cc hcc => by
      rw [List.mem_singleton.mp hcc]
      exact accepted_all (fun r => (registered_isSome_iff r).mpr) limitPerTotal 0 0 true
  exact ⟨ls, hls, extractResourceAction_session_create.2.2 _ _ ls
    (List.Perm.refl ResourceType.mapKeys) hper hls⟩

end Boundary.RateLimit
