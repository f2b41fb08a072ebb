import Boundary.RateLimit.Config

/-!
# What `Limits` computes

`Limits` succeeds exactly when each config is `Accepted`: every resource it
names is a key of `resource.Map` with registered actions, and every action it
names is valid on each of them. It then lists one limit for each resource other
than `unknown`, `*` and the controller, each action valid on it and each of the
three pers, and no other: the limit of the last config that names the three
(`expectedLimit`), or the default.

The proof reads each loop of `Limits` as a list of writes to the map of limits
(`defaultWrites`, `configWrites`). Writes to one key agree within a loop over
one config, so the last config that writes a key gives its limit
(`GoMap.lookup_foldl_of_step`); the key names its resource, action and per
(`limitKey_inj`), so no two limits of the result share them.
-/

namespace Boundary.RateLimit

open GoControl

/-! ## What `Limits` computes -/

/-- The resources `Limits` writes limits for. -/
def Listed (res : ResourceType) : Prop :=
  res ≠ .unknown ∧ res ≠ .all ∧ res ≠ .controller

instance (res : ResourceType) : Decidable (Listed res) :=
  inferInstanceAs (Decidable (_ ∧ _ ∧ _))

/-- The resources a config names: every listed one for the single name `*`. -/
def NamesResource (cc : Config) (res : ResourceType) : Prop :=
  if cc.resources = [ResourceType.all.toString] then Listed res else res.toString ∈ cc.resources

instance (cc : Config) (res : ResourceType) : Decidable (NamesResource cc res) :=
  inferInstanceAs (Decidable (ite _ _ _))

/-- The actions a config names: every one for the single name `*`. -/
def NamesAction (cc : Config) (a : ActionType) : Prop :=
  cc.actions = [ActionType.all.toString] ∨ a.toString ∈ cc.actions

instance (cc : Config) (a : ActionType) : Decidable (NamesAction cc a) :=
  inferInstanceAs (Decidable (_ ∨ _))

/-- A config sets the limit of a resource, an action and a per. -/
def Matches (cc : Config) (res : ResourceType) (a : ActionType) (per : String) : Prop :=
  NamesResource cc res ∧ NamesAction cc a ∧ cc.per = per

instance (cc : Config) (res : ResourceType) (a : ActionType) (per : String) :
    Decidable (Matches cc res a per) :=
  inferInstanceAs (Decidable (_ ∧ _ ∧ _))

/-- The limit of a resource, an action and a per: that of the last config that
sets it, or the default. -/
def expectedLimit (c : Configs) (res : ResourceType) (a : ActionType) (per : String) : Limit :=
  match c.reverse.find? fun cc => decide (Matches cc res a per) with
  | some cc => configLimit cc res a
  | none => defaultLimit res a per

/-- A config `Limits` accepts: each resource it names is a key of `resource.Map`
with registered actions, and each action it names is valid on each of them. -/
structure Accepted (reg : Registry) (cc : Config) : Prop where
  known : cc.resources ≠ [ResourceType.all.toString] →
    ∀ s ∈ cc.resources, ∃ r : ResourceType, r.toString = s
  registered : ∀ r, NamesResource cc r → (reg r).isSome
  valid : cc.actions ≠ [ActionType.all.toString] →
    ∀ r, NamesResource cc r → ∀ s ∈ cc.actions, ∃ a ∈ validActions reg r, a.toString = s

/-! ## Keys -/

theorem colon_not_mem_resource (r : ResourceType) : ':' ∉ r.toString.toList := by
  cases r <;> decide

theorem colon_not_mem_per {p : String} (hp : p ∈ limitPers) : ':' ∉ p.toList := by
  simp only [limitPers, List.mem_cons, List.not_mem_nil, or_false] at hp
  rcases hp with rfl | rfl | rfl <;> decide

/-- A key names one resource, action and per: the resource and the per hold no
colon, so the first and the last colon of the key delimit the action. -/
theorem limitKey_inj {r r' : ResourceType} {a a' : ActionType} {p p' : String}
    (hp : p ∈ limitPers) (hp' : p' ∈ limitPers) (h : limitKey r a p = limitKey r' a' p') :
    r = r' ∧ a = a' ∧ p = p' := by
  have hlist := congrArg String.toList h
  simp only [limitKey, String.toList_append, List.append_assoc] at hlist
  have hcolon : (":" : String).toList = [':'] := rfl
  simp only [hcolon, List.singleton_append] at hlist
  obtain ⟨hr, hrest⟩ := Strings.append_sep_inj (colon_not_mem_resource r)
    (colon_not_mem_resource r') hlist
  have hrev := congrArg List.reverse hrest
  simp only [List.reverse_append, List.reverse_cons, List.append_assoc, List.singleton_append]
    at hrev
  obtain ⟨hper, hact⟩ := Strings.append_sep_inj
    (by simpa using colon_not_mem_per hp) (by simpa using colon_not_mem_per hp') hrev
  refine ⟨ResourceType.toString_inj (String.toList_inj.mp hr),
    ActionType.toString_inj (String.toList_inj.mp (List.reverse_inj.mp hact)),
    String.toList_inj.mp (List.reverse_inj.mp hper)⟩

/-! ## The loops as lists of writes -/

/-- Writing, in order, each key and limit of a list into the map of limits. -/
def insertAll (ws : List (String × Limit)) (m : LimitMap) : LimitMap :=
  ws.foldl (fun m w => m.insert w.1 w.2) m

theorem insertAll_flatMap {ι : Type} (l : List ι) (ws : ι → List (String × Limit)) (m : LimitMap) :
    insertAll (l.flatMap ws) m = l.foldl (fun m x => insertAll (ws x) m) m :=
  List.foldl_flatMap

/-- The defaults the first loop of `Limits` writes. -/
def defaultWrites (reg : Registry) (allResources : List ResourceType) : List (String × Limit) :=
  allResources.flatMap fun res => (validActions reg res).flatMap fun a =>
    limitPers.map fun per => (limitKey res a per, defaultLimit res a per)

/-- The resources a config's limits are written for. -/
def configResources (allResources : List ResourceType) (cc : Config) : List ResourceType :=
  if cc.resources = [ResourceType.all.toString] then allResources
  else cc.resources.map ResourceType.map

/-- The actions a config's limits are written for on one resource. -/
def configActions (reg : Registry) (cc : Config) (res : ResourceType) : List ActionType :=
  if cc.actions = [ActionType.all.toString] then validActions reg res
  else cc.actions.map ActionType.map

/-- The limits one config writes. -/
def configWrites (reg : Registry) (allResources : List ResourceType) (cc : Config) :
    List (String × Limit) :=
  (configResources allResources cc).flatMap fun res =>
    (configActions reg cc res).map fun a => (limitKey res a cc.per, configLimit cc res a)

/-- The map of limits `Limits` builds when it accepts every config. -/
def limitMap (reg : Registry) (allResources : List ResourceType) (c : Configs) : LimitMap :=
  insertAll (c.flatMap (configWrites reg allResources)) (insertAll (defaultWrites reg allResources) ∅)

theorem mem_defaultWrites {reg : Registry} {all : List ResourceType} {w : String × Limit} :
    w ∈ defaultWrites reg all ↔ ∃ res ∈ all, ∃ a ∈ validActions reg res, ∃ per ∈ limitPers,
      w = (limitKey res a per, defaultLimit res a per) := by
  simp only [defaultWrites, List.mem_flatMap, List.mem_map, eq_comm]

theorem mem_configWrites {reg : Registry} {all : List ResourceType} {cc : Config}
    {w : String × Limit} :
    w ∈ configWrites reg all cc ↔ ∃ res ∈ configResources all cc, ∃ a ∈ configActions reg cc res,
      w = (limitKey res a cc.per, configLimit cc res a) := by
  simp only [configWrites, List.mem_flatMap, List.mem_map, eq_comm]

/-! ## One step of each loop -/

theorem actionSetForResource_isOk_iff {reg : Registry} {res : ResourceType} :
    (∃ v, actionSetForResource reg res = .ok v) ↔ (reg res).isSome := by
  simp only [actionSetForResource_eq_ok, exists_and_left, exists_eq, and_true]

theorem isSome_of_mem_validActions {reg : Registry} {res : ResourceType} {a : ActionType}
    (ha : a ∈ validActions reg res) : (reg res).isSome := by
  unfold validActions at ha
  cases h : reg res with
  | none => rw [h] at ha; cases ha
  | some _ => rfl

theorem defaultsStep_eq_ok {reg : Registry} {res : ResourceType} (m : LimitMap)
    (h : (reg res).isSome) :
    defaultsStep reg m res = .ok (insertAll ((validActions reg res).flatMap fun a =>
      limitPers.map fun per => (limitKey res a per, defaultLimit res a per)) m) := by
  have hset : actionSetForResource reg res = .ok (validActions reg res) :=
    actionSetForResource_eq_ok.mpr ⟨h, rfl⟩
  simp only [defaultsStep, hset, insertAll, List.foldl_flatMap, List.foldl_map]
  rfl

theorem lookupResource_eq_ok_iff {s : String} {r : ResourceType} :
    lookupResource s = .ok r ↔ r.toString = s := by
  unfold lookupResource
  cases h : ResourceType.mapLookup s with
  | none =>
    simp only [reduceCtorEq, false_iff]
    intro hr
    rw [ResourceType.mapLookup_eq_some_iff.mpr hr] at h
    cases h
  | some rr =>
    have hrr : rr.toString = s := ResourceType.mapLookup_eq_some_iff.mp h
    constructor
    · rintro ⟨⟩
      exact hrr
    · intro hr
      rw [ResourceType.toString_inj (hrr.trans hr.symm)]

theorem resourceSet_eq_ok {all : List ResourceType} {cc : Config}
    (hknown : cc.resources ≠ [ResourceType.all.toString] →
      ∀ s ∈ cc.resources, ∃ r : ResourceType, r.toString = s) :
    resourceSet all cc = .ok (configResources all cc) := by
  unfold resourceSet configResources
  split_ifs with hall
  · rfl
  · refine mapM_eq_ok _ _ _ fun s hs => ?_
    obtain ⟨r, rfl⟩ := hknown hall s hs
    rw [ResourceType.map_toString, lookupResource_eq_ok_iff]

theorem resourceSet_isOk_iff {all : List ResourceType} {cc : Config} :
    (∃ rs, resourceSet all cc = .ok rs) ↔ (cc.resources ≠ [ResourceType.all.toString] →
      ∀ s ∈ cc.resources, ∃ r : ResourceType, r.toString = s) := by
  constructor
  · rintro ⟨rs, h⟩ hall s hs
    rw [resourceSet, if_neg hall] at h
    obtain ⟨r, hr⟩ := (mapM_isOk_iff lookupResource cc.resources).mp ⟨rs, h⟩ s hs
    exact ⟨r, lookupResource_eq_ok_iff.mp hr⟩
  · intro hknown
    exact ⟨_, resourceSet_eq_ok hknown⟩

theorem allActionsStep_eq_ok {reg : Registry} {cc : Config} {res : ResourceType} (m : LimitMap)
    (h : (reg res).isSome) :
    allActionsStep reg cc m res = .ok (insertAll ((validActions reg res).map fun a =>
      (limitKey res a cc.per, configLimit cc res a)) m) := by
  have hset : actionSetForResource reg res = .ok (validActions reg res) :=
    actionSetForResource_eq_ok.mpr ⟨h, rfl⟩
  simp only [allActionsStep, hset, map_ok, insertAll, List.foldl_map]

theorem allActionsStep_isOk_iff {reg : Registry} {cc : Config} {res : ResourceType}
    (m : LimitMap) : (∃ m', allActionsStep reg cc m res = .ok m') ↔ (reg res).isSome := by
  constructor
  · rintro ⟨m', h⟩
    unfold allActionsStep at h
    cases hset : actionSetForResource reg res with
    | error e => rw [hset, map_error] at h; cases h
    | ok v => exact actionSetForResource_isOk_iff.mp ⟨v, hset⟩
  · intro h
    exact ⟨_, allActionsStep_eq_ok m h⟩

theorem validActionLookup_of_mem {valid : List ActionType} {a : ActionType} (ha : a ∈ valid) :
    validActionLookup valid a.toString = some a := by
  have hsome : (validActionLookup valid a.toString).isSome :=
    List.find?_isSome.mpr ⟨a, ha, beq_self_eq_true _⟩
  obtain ⟨a', ha'⟩ := Option.isSome_iff_exists.mp hsome
  have heq : a'.toString = a.toString := by simpa using List.find?_some ha'
  rw [ha', ActionType.toString_inj heq]

theorem validActionLookup_eq_none {valid : List ActionType} {s : String}
    (h : ¬∃ a ∈ valid, a.toString = s) : validActionLookup valid s = none :=
  List.find?_eq_none.mpr fun a ha has => h ⟨a, ha, by simpa using has⟩

theorem namedAction_of_mem {cc : Config} {res : ResourceType} {valid : List ActionType}
    {a : ActionType} (m : LimitMap) (ha : a ∈ valid) :
    namedAction cc res valid m a.toString = .ok (m.insert (limitKey res a cc.per) (configLimit cc res a)) := by
  rw [namedAction, validActionLookup_of_mem ha]

theorem namedAction_isOk_iff {cc : Config} {res : ResourceType} {valid : List ActionType}
    (m : LimitMap) (s : String) :
    (∃ m', namedAction cc res valid m s = .ok m') ↔ ∃ a ∈ valid, a.toString = s := by
  constructor
  · rintro ⟨m', h⟩
    by_contra hnone
    rw [namedAction, validActionLookup_eq_none hnone] at h
    cases h
  · rintro ⟨a, ha, rfl⟩
    exact ⟨_, namedAction_of_mem m ha⟩

theorem namedActionsStep_eq_ok {reg : Registry} {cc : Config} {res : ResourceType} (m : LimitMap)
    (h : (reg res).isSome)
    (hvalid : ∀ s ∈ cc.actions, ∃ a ∈ validActions reg res, a.toString = s) :
    namedActionsStep reg cc m res = .ok (insertAll ((cc.actions.map ActionType.map).map fun a =>
      (limitKey res a cc.per, configLimit cc res a)) m) := by
  have hset : actionSetForResource reg res = .ok (validActions reg res) :=
    actionSetForResource_eq_ok.mpr ⟨h, rfl⟩
  rw [namedActionsStep, hset, ok_bind, foldlM_eq_ok _ (fun m s =>
    m.insert (limitKey res (ActionType.map s) cc.per) (configLimit cc res (ActionType.map s)))]
  · simp only [insertAll, List.foldl_map]
  · intro m s hs
    obtain ⟨a, ha, rfl⟩ := hvalid s hs
    rw [ActionType.map_toString]
    exact namedAction_of_mem m ha

theorem namedActionsStep_isOk_iff {reg : Registry} {cc : Config} {res : ResourceType}
    (m : LimitMap) : (∃ m', namedActionsStep reg cc m res = .ok m') ↔
      (reg res).isSome ∧ ∀ s ∈ cc.actions, ∃ a ∈ validActions reg res, a.toString = s := by
  unfold namedActionsStep
  constructor
  · rintro ⟨m', h⟩
    obtain ⟨v, hset, h⟩ := bind_eq_ok.mp h
    obtain ⟨hsome, rfl⟩ := actionSetForResource_eq_ok.mp hset
    exact ⟨hsome, (foldlM_isOk_iff _ _ (@namedAction_isOk_iff cc res _) _ m).mp ⟨m', h⟩⟩
  · rintro ⟨hsome, hvalid⟩
    have hset : actionSetForResource reg res = .ok (validActions reg res) :=
      actionSetForResource_eq_ok.mpr ⟨hsome, rfl⟩
    rw [hset, ok_bind]
    exact (foldlM_isOk_iff _ _ (@namedAction_isOk_iff cc res _) _ m).mpr hvalid

/-! ## One config -/

section OneConfig

variable {reg : Registry} {all : List ResourceType} {cc : Config}

theorem mem_configResources (hall : ∀ r, r ∈ all ↔ Listed r)
    (hknown : cc.resources ≠ [ResourceType.all.toString] →
      ∀ s ∈ cc.resources, ∃ r : ResourceType, r.toString = s)
    {r : ResourceType} : r ∈ configResources all cc ↔ NamesResource cc r := by
  unfold configResources NamesResource
  split_ifs with hstar
  · exact hall r
  · constructor
    · intro hr
      obtain ⟨s, hs, rfl⟩ := List.mem_map.mp hr
      obtain ⟨r', rfl⟩ := hknown hstar s hs
      rwa [ResourceType.map_toString]
    · intro hr
      exact List.mem_map.mpr ⟨r.toString, hr, ResourceType.map_toString r⟩

section Actions

variable {r : ResourceType}
  (hvalid : cc.actions ≠ [ActionType.all.toString] →
    ∀ s ∈ cc.actions, ∃ a ∈ validActions reg r, a.toString = s)
include hvalid

theorem mem_configActions {a : ActionType} (ha : a ∈ validActions reg r) :
    a ∈ configActions reg cc r ↔ NamesAction cc a := by
  unfold configActions NamesAction
  split_ifs with hstar
  · exact ⟨fun _ => .inl hstar, fun _ => ha⟩
  · simp only [hstar, false_or]
    constructor
    · intro h
      obtain ⟨s, hs, rfl⟩ := List.mem_map.mp h
      obtain ⟨a', -, rfl⟩ := hvalid hstar s hs
      rwa [ActionType.map_toString]
    · intro h
      exact List.mem_map.mpr ⟨a.toString, h, ActionType.map_toString a⟩

theorem validActions_of_mem_configActions {a : ActionType} (ha : a ∈ configActions reg cc r) :
    a ∈ validActions reg r := by
  unfold configActions at ha
  split_ifs at ha with hstar
  · exact ha
  · obtain ⟨s, hs, rfl⟩ := List.mem_map.mp ha
    obtain ⟨a', ha', rfl⟩ := hvalid hstar s hs
    rwa [ActionType.map_toString]

end Actions

theorem configStep_eq_ok (hall : ∀ r, r ∈ all ↔ Listed r) (hacc : Accepted reg cc)
    (m : LimitMap) : configStep reg all m cc = .ok (insertAll (configWrites reg all cc) m) := by
  have hnames : ∀ res ∈ configResources all cc, NamesResource cc res :=
    fun res hres => (mem_configResources hall hacc.known).mp hres
  rw [configStep, resourceSet_eq_ok hacc.known, ok_bind, configWrites, insertAll_flatMap]
  -- the two loops over the resources, for all actions and for the named ones
  split_ifs with hstar
  · refine foldlM_eq_ok _ _ _ _ fun m res hres => ?_
    rw [configActions, if_pos hstar]
    exact allActionsStep_eq_ok m (hacc.registered res (hnames res hres))
  · refine foldlM_eq_ok _ _ _ _ fun m res hres => ?_
    rw [configActions, if_neg hstar]
    exact namedActionsStep_eq_ok m (hacc.registered res (hnames res hres))
      (hacc.valid hstar res (hnames res hres))

theorem configStep_isOk_iff (hall : ∀ r, r ∈ all ↔ Listed r) (m : LimitMap) :
    (∃ m', configStep reg all m cc = .ok m') ↔ Accepted reg cc := by
  constructor
  · rintro ⟨m', h⟩
    obtain ⟨rs, hrs, h⟩ := bind_eq_ok.mp h
    have hknown := resourceSet_isOk_iff.mp ⟨rs, hrs⟩
    rw [resourceSet_eq_ok hknown] at hrs
    cases hrs
    have hnames : ∀ {res}, NamesResource cc res → res ∈ configResources all cc :=
      fun h => (mem_configResources hall hknown).mpr h
    split_ifs at h with hstar
    · have hok := (foldlM_isOk_iff _ _ (fun m res => @allActionsStep_isOk_iff reg cc res m) _ m).mp ⟨m', h⟩
      exact ⟨hknown, fun r hr => hok r (hnames hr), fun hne => absurd hstar hne⟩
    · have hok := (foldlM_isOk_iff _ _ (fun m res => @namedActionsStep_isOk_iff reg cc res m) _ m).mp ⟨m', h⟩
      exact ⟨hknown, fun r hr => (hok r (hnames hr)).1, fun _ r hr => (hok r (hnames hr)).2⟩
  · intro hacc
    exact ⟨_, configStep_eq_ok hall hacc m⟩

end OneConfig

/-! ## The whole run -/

section Run

variable {reg : Registry} {mapOrder : List ResourceType} {c : Configs}

theorem mem_allResources (horder : mapOrder.Perm ResourceType.mapKeys) {r : ResourceType} :
    r ∈ allResources mapOrder ↔ Listed r := by
  simp only [allResources, List.mem_filter, horder.mem_iff, ResourceType.mem_mapKeys, true_and,
    decide_eq_true_eq]
  rfl

theorem defaults_eq_ok (hreg : ∀ r, Listed r → (reg r).isSome)
    (horder : mapOrder.Perm ResourceType.mapKeys) :
    (allResources mapOrder).foldlM (defaultsStep reg) ∅ =
      .ok (insertAll (defaultWrites reg (allResources mapOrder)) ∅) := by
  rw [defaultWrites, insertAll_flatMap]
  exact foldlM_eq_ok _ _ _ _ fun m res hres =>
    defaultsStep_eq_ok m (hreg res ((mem_allResources horder).mp hres))

theorem limits_eq_ok (hreg : ∀ r, Listed r → (reg r).isSome)
    (horder : mapOrder.Perm ResourceType.mapKeys) (hacc : ∀ cc ∈ c, Accepted reg cc) :
    limits reg mapOrder c = .ok ((limitMap reg (allResources mapOrder) c).entries.map Sigma.snd) := by
  have hall : ∀ r, r ∈ allResources mapOrder ↔ Listed r := fun r => mem_allResources horder
  rw [limits, defaults_eq_ok hreg horder, ok_bind,
    foldlM_eq_ok _ (fun m cc => insertAll (configWrites reg (allResources mapOrder) cc) m) _ _
      fun m cc hcc => configStep_eq_ok hall (hacc cc hcc) m,
    ok_bind, limitMap, insertAll_flatMap]
  rfl

theorem limits_isOk_iff (hreg : ∀ r, Listed r → (reg r).isSome)
    (horder : mapOrder.Perm ResourceType.mapKeys) :
    (∃ ls, limits reg mapOrder c = .ok ls) ↔ ∀ cc ∈ c, Accepted reg cc := by
  have hall : ∀ r, r ∈ allResources mapOrder ↔ Listed r := fun r => mem_allResources horder
  constructor
  · rintro ⟨ls, h⟩
    rw [limits, defaults_eq_ok hreg horder, ok_bind] at h
    obtain ⟨m, hm, -⟩ := bind_eq_ok.mp h
    exact (foldlM_isOk_iff _ _ (fun m cc => @configStep_isOk_iff reg _ cc hall m) c _).mp ⟨m, hm⟩
  · intro hacc
    exact ⟨_, limits_eq_ok hreg horder hacc⟩

end Run

/-! ## The limit under each key -/

@[simp] theorem fields_configLimit (cc : Config) (res : ResourceType) (a : ActionType) :
    (configLimit cc res a).fields = (res.toString, a.toString, cc.per) := by
  unfold configLimit
  split <;> rfl

@[simp] theorem fields_defaultLimit (res : ResourceType) (a : ActionType) (per : String) :
    (defaultLimit res a per).fields = (res.toString, a.toString, per) := by
  unfold defaultLimit
  split <;> rfl

theorem fields_expectedLimit (c : Configs) (res : ResourceType) (a : ActionType) (per : String) :
    (expectedLimit c res a per).fields = (res.toString, a.toString, per) := by
  unfold expectedLimit
  split
  · rename_i cc hcc
    have hm : Matches cc res a per := by simpa using List.find?_some hcc
    rw [fields_configLimit, hm.2.2]
  · exact fields_defaultLimit res a per

section Keys

variable {reg : Registry} {all : List ResourceType} {r : ResourceType} {a : ActionType} {p : String}

theorem lookup_defaults (hall : ∀ r, r ∈ all ↔ Listed r) (hr : Listed r)
    (ha : a ∈ validActions reg r) (hp : p ∈ limitPers) :
    (insertAll (defaultWrites reg all) ∅).lookup (limitKey r a p) = some (defaultLimit r a p) := by
  have hmem : (limitKey r a p, defaultLimit r a p) ∈ defaultWrites reg all :=
    mem_defaultWrites.mpr ⟨r, (hall r).mpr hr, a, ha, p, hp, rfl⟩
  -- every default written under the key is this one: the key names its resource, action and per
  have hval : ∀ w ∈ defaultWrites reg all, w.1 = limitKey r a p → w.2 = defaultLimit r a p := by
    intro w hw hkey
    obtain ⟨r', -, a', -, p', hp', rfl⟩ := mem_defaultWrites.mp hw
    obtain ⟨rfl, rfl, rfl⟩ := limitKey_inj hp' hp hkey
    rfl
  rw [insertAll, GoMap.lookup_foldl_insert_of_forall Prod.fst Prod.snd _ _ _ _ hval,
    if_pos ⟨_, hmem, rfl⟩]

/-- One accepted config sets the limit under a key exactly when it names the
key's resource, action and per. -/
theorem lookup_insertAll_configWrites {cc : Config} (hall : ∀ r, r ∈ all ↔ Listed r)
    (hacc : Accepted reg cc) (hper : cc.per ∈ limitPers) (ha : a ∈ validActions reg r)
    (hp : p ∈ limitPers) (m : LimitMap) :
    (insertAll (configWrites reg all cc) m).lookup (limitKey r a p) =
      if Matches cc r a p then some (configLimit cc r a) else m.lookup (limitKey r a p) := by
  have hval : ∀ w ∈ configWrites reg all cc, w.1 = limitKey r a p → w.2 = configLimit cc r a := by
    intro w hw hkey
    obtain ⟨r', -, a', -, rfl⟩ := mem_configWrites.mp hw
    obtain ⟨rfl, rfl, -⟩ := limitKey_inj hper hp hkey
    rfl
  have hwrites : (∃ w ∈ configWrites reg all cc, w.1 = limitKey r a p) ↔ Matches cc r a p := by
    constructor
    · rintro ⟨w, hw, hkey⟩
      obtain ⟨r', hr', a', ha', rfl⟩ := mem_configWrites.mp hw
      obtain ⟨rfl, rfl, hper'⟩ := limitKey_inj hper hp hkey
      have hnames := (mem_configResources hall hacc.known).mp hr'
      exact ⟨hnames, (mem_configActions (fun h => hacc.valid h _ hnames) ha).mp ha', hper'⟩
    · rintro ⟨hnames, hnamesA, rfl⟩
      exact ⟨_, mem_configWrites.mpr ⟨r, (mem_configResources hall hacc.known).mpr hnames, a,
        (mem_configActions (fun h => hacc.valid h r hnames) ha).mpr hnamesA, rfl⟩, rfl⟩
  rw [insertAll, GoMap.lookup_foldl_insert_of_forall Prod.fst Prod.snd _ _ _ _ hval]
  by_cases hm : Matches cc r a p
  · rw [if_pos (hwrites.mpr hm), if_pos hm]
  · rw [if_neg (mt hwrites.mp hm), if_neg hm]

/-- The map of limits holds, under the key of a listed resource, a valid action
and a per, the limit of the last config that names the three, or the default. -/
theorem lookup_limitMap {c : Configs} (hall : ∀ r, r ∈ all ↔ Listed r)
    (hacc : ∀ cc ∈ c, Accepted reg cc) (hper : ∀ cc ∈ c, cc.per ∈ limitPers) (hr : Listed r)
    (ha : a ∈ validActions reg r) (hp : p ∈ limitPers) :
    (limitMap reg all c).lookup (limitKey r a p) = some (expectedLimit c r a p) := by
  rw [limitMap, insertAll_flatMap, GoMap.lookup_foldl_of_step _ (fun cc => Matches cc r a p)
    (fun cc => configLimit cc r a) _ c _ fun m cc hcc =>
      lookup_insertAll_configWrites hall (hacc cc hcc) (hper cc hcc) ha hp m,
    lookup_defaults hall hr ha hp, expectedLimit]
  cases c.reverse.find? fun cc => decide (Matches cc r a p) <;> rfl

/-- Every key of the map of limits names a listed resource, a valid action and
a per. -/
theorem exists_key_of_mem_limitMap {c : Configs} (hreg : ∀ r, (reg r).isSome → Listed r)
    (hall : ∀ r, r ∈ all ↔ Listed r) (hacc : ∀ cc ∈ c, Accepted reg cc)
    (hper : ∀ cc ∈ c, cc.per ∈ limitPers) {k : String} (hk : k ∈ limitMap reg all c) :
    ∃ r a p, Listed r ∧ a ∈ validActions reg r ∧ p ∈ limitPers ∧ k = limitKey r a p := by
  simp only [limitMap, insertAll, GoMap.mem_foldl_insert] at hk
  rcases hk with (hk | ⟨w, hw, rfl⟩) | ⟨w, hw, rfl⟩
  · exact absurd hk (AList.notMem_empty _)
  · obtain ⟨r, hr, a, ha, p, hp, rfl⟩ := mem_defaultWrites.mp hw
    exact ⟨r, a, p, (hall r).mp hr, ha, hp, rfl⟩
  · obtain ⟨cc, hcc, hw⟩ := List.mem_flatMap.mp hw
    obtain ⟨r, hr, a, ha, rfl⟩ := mem_configWrites.mp hw
    have hnames := (mem_configResources hall (hacc cc hcc).known).mp hr
    have hva := validActions_of_mem_configActions (fun h => (hacc cc hcc).valid h r hnames) ha
    exact ⟨r, a, cc.per, hreg r (isSome_of_mem_validActions hva), hva, hper cc hcc, rfl⟩

end Keys

/-- A config for every action of every resource is accepted by a registry that
registers every listed resource. -/
theorem accepted_all {reg : Registry} (hreg : ∀ r, Listed r → (reg r).isSome) (per : String)
    (limit period : Int) (unlimited : Bool) :
    Accepted reg ⟨[ResourceType.all.toString], [ActionType.all.toString], per, limit, period,
      unlimited⟩ := by
  refine ⟨fun h => absurd rfl h, fun r hr => ?_, fun h => absurd rfl h⟩
  unfold NamesResource at hr
  split at hr
  next => exact hreg r hr
  next hstar => exact absurd rfl hstar

/-! ## `Limits` -/

section Result

variable {reg : Registry} {mapOrder : List ResourceType} {c : Configs}

/-- A run of `Limits` that succeeds accepted every config and lists the values
of the map of limits. -/
theorem limits_eq_ok_of_eq_ok (horder : mapOrder.Perm ResourceType.mapKeys)
    (hreg : ∀ r, Listed r → (reg r).isSome) {ls : List Limit}
    (hls : limits reg mapOrder c = .ok ls) :
    (∀ cc ∈ c, Accepted reg cc) ∧
      ls = (limitMap reg (allResources mapOrder) c).entries.map Sigma.snd := by
  have hacc := (limits_isOk_iff hreg horder).mp ⟨ls, hls⟩
  rw [limits_eq_ok hreg horder hacc] at hls
  cases hls
  exact ⟨hacc, rfl⟩

/-- Each entry of the map of limits is the expected limit under its own key. -/
theorem lookup_limitMap_eq_some (horder : mapOrder.Perm ResourceType.mapKeys)
    (hreg : ∀ r, (reg r).isSome ↔ Listed r) (hper : ∀ cc ∈ c, cc.per ∈ limitPers)
    (hacc : ∀ cc ∈ c, Accepted reg cc) {k : String} {l : Limit}
    (hk : (limitMap reg (allResources mapOrder) c).lookup k = some l) :
    ∃ r a p, Listed r ∧ a ∈ validActions reg r ∧ p ∈ limitPers ∧ k = limitKey r a p ∧
      l = expectedLimit c r a p := by
  have hall : ∀ r, r ∈ allResources mapOrder ↔ Listed r := fun r => mem_allResources horder
  obtain ⟨r, a, p, hr, ha, hp, rfl⟩ := exists_key_of_mem_limitMap (fun r => (hreg r).mp) hall
    hacc hper (AList.lookup_isSome.mp (Option.isSome_iff_exists.mpr ⟨l, hk⟩))
  rw [lookup_limitMap hall hacc hper hr ha hp] at hk
  exact ⟨r, a, p, hr, ha, hp, rfl, (Option.some.inj hk).symm⟩

/-- Every limit `Limits` lists is the expected limit of a listed resource, an
action valid on it and a per. -/
theorem exists_of_mem_limits (horder : mapOrder.Perm ResourceType.mapKeys)
    (hreg : ∀ r, (reg r).isSome ↔ Listed r) (hper : ∀ cc ∈ c, cc.per ∈ limitPers)
    {ls : List Limit} (hls : limits reg mapOrder c = .ok ls) :
    ∀ l ∈ ls, ∃ r a p, Listed r ∧ a ∈ validActions reg r ∧ p ∈ limitPers ∧
      l = expectedLimit c r a p := by
  obtain ⟨hacc, rfl⟩ := limits_eq_ok_of_eq_ok horder (fun r => (hreg r).mpr) hls
  intro l hl
  obtain ⟨⟨k, l'⟩, he, rfl⟩ := List.mem_map.mp hl
  obtain ⟨r, a, p, hr, ha, hp, -, rfl⟩ :=
    lookup_limitMap_eq_some horder hreg hper hacc (AList.mem_lookup_iff.mpr he)
  exact ⟨r, a, p, hr, ha, hp, rfl⟩

/-- `Limits` lists exactly one limit for a listed resource, an action valid on it
and a per: the expected one. -/
theorem filter_limits_eq (horder : mapOrder.Perm ResourceType.mapKeys)
    (hreg : ∀ r, (reg r).isSome ↔ Listed r) (hper : ∀ cc ∈ c, cc.per ∈ limitPers)
    {ls : List Limit} (hls : limits reg mapOrder c = .ok ls) {r : ResourceType} {a : ActionType}
    {p : String} (hr : Listed r) (ha : a ∈ validActions reg r) (hp : p ∈ limitPers) :
    ls.filter (fun l => l.fields = (r.toString, a.toString, p)) = [expectedLimit c r a p] := by
  have hall : ∀ r, r ∈ allResources mapOrder ↔ Listed r := fun r => mem_allResources horder
  obtain ⟨hacc, rfl⟩ := limits_eq_ok_of_eq_ok horder (fun r => (hreg r).mpr) hls
  refine GoMap.filter_values_eq_singleton _ _ (lookup_limitMap hall hacc hper hr ha hp)
    (decide_eq_true (fields_expectedLimit c r a p)) fun k' l' hk' hfields => ?_
  -- another entry with the same fields is under a key naming the same three
  obtain ⟨r', a', p', -, -, -, rfl, rfl⟩ := lookup_limitMap_eq_some horder hreg hper hacc hk'
  have hsame := of_decide_eq_true hfields
  rw [fields_expectedLimit, Prod.mk.injEq, Prod.mk.injEq] at hsame
  obtain ⟨hr', ha', rfl⟩ := hsame
  rw [ResourceType.toString_inj hr', ActionType.toString_inj ha']

/-- `Limits` lists a limit for a resource, an action and a per exactly when
they name an action registered on the resource. -/
theorem exists_limit_fields_iff (horder : mapOrder.Perm ResourceType.mapKeys)
    (hreg : ∀ r, (reg r).isSome ↔ Listed r) (hper : ∀ cc ∈ c, cc.per ∈ limitPers)
    {ls : List Limit} (hls : limits reg mapOrder c = .ok ls) {res act p : String}
    (hp : p ∈ limitPers) :
    (∃ l ∈ ls, l.fields = (res, act, p)) ↔
      ∃ r a, res = r.toString ∧ act = a.toString ∧ a ∈ validActions reg r := by
  constructor
  · rintro ⟨l, hl, hfields⟩
    obtain ⟨r, a, p', -, ha, -, rfl⟩ := exists_of_mem_limits horder hreg hper hls l hl
    rw [fields_expectedLimit, Prod.mk.injEq] at hfields
    exact ⟨r, a, hfields.1.symm, (Prod.mk.inj hfields.2).1.symm, ha⟩
  · rintro ⟨r, a, rfl, rfl, ha⟩
    have hr : Listed r := (hreg r).mp (isSome_of_mem_validActions ha)
    have hfilter := filter_limits_eq horder hreg hper hls hr ha hp
    have hmem : expectedLimit c r a p ∈ ls.filter fun l => l.fields = (r.toString, a.toString, p) :=
      hfilter ▸ List.mem_singleton_self _
    exact ⟨_, List.mem_of_mem_filter hmem, of_decide_eq_true (List.mem_filter.mp hmem).2⟩

/-- `Limits` lists a limit for the names of a resource, an action and a per
exactly when the action is registered on the resource. -/
theorem exists_limit_toString_iff (horder : mapOrder.Perm ResourceType.mapKeys)
    (hreg : ∀ r, (reg r).isSome ↔ Listed r) (hper : ∀ cc ∈ c, cc.per ∈ limitPers)
    {ls : List Limit} (hls : limits reg mapOrder c = .ok ls) {r : ResourceType} {a : ActionType}
    {p : String} (hp : p ∈ limitPers) :
    (∃ l ∈ ls, l.fields = (r.toString, a.toString, p)) ↔ a ∈ validActions reg r := by
  rw [exists_limit_fields_iff horder hreg hper hls hp]
  constructor
  · rintro ⟨r', a', hr, ha, hvalid⟩
    rw [ResourceType.toString_inj hr, ActionType.toString_inj ha]
    exact hvalid
  · intro ha
    exact ⟨r, a, rfl, rfl, ha⟩

end Result

/-- With `resource.Map` ranged over in any order, a registry that registers
exactly the resources other than `unknown`, `*` and the controller, and configs
whose pers are the three of `rate`: `Limits` succeeds exactly when each config
is accepted, and then lists, for each listed resource, each action valid on it
and each per, exactly one limit, that of the last config naming the three or
the default, and no other limit. -/
theorem limits_last_config_wins {reg : Registry} {mapOrder : List ResourceType} {c : Configs}
    (horder : mapOrder.Perm ResourceType.mapKeys) (hreg : ∀ r, (reg r).isSome ↔ Listed r)
    (hper : ∀ cc ∈ c, cc.per ∈ limitPers) :
    ((∃ ls, limits reg mapOrder c = .ok ls) ↔ ∀ cc ∈ c, Accepted reg cc) ∧
    ∀ ls, limits reg mapOrder c = .ok ls →
      (∀ l ∈ ls, ∃ r a p, Listed r ∧ a ∈ validActions reg r ∧ p ∈ limitPers ∧
        l = expectedLimit c r a p) ∧
      ∀ r a p, Listed r → a ∈ validActions reg r → p ∈ limitPers →
        ls.filter (fun l => l.fields = (r.toString, a.toString, p)) = [expectedLimit c r a p] := by
  refine ⟨limits_isOk_iff (fun r => (hreg r).mpr) horder, fun ls hls => ?_⟩
  exact ⟨exists_of_mem_limits horder hreg hper hls,
    fun r a p hr ha hp => filter_limits_eq horder hreg hper hls hr ha hp⟩

/-- A config that makes every action of every resource unlimited, then one that
limits reading targets: reading a target gets the second limit. -/
theorem limits_target_read_overrides :
    ∃ ls, limits registered ResourceType.mapKeys
        [⟨["*"], ["*"], limitPerTotal, 0, 0, true⟩,
          ⟨["target"], ["read"], limitPerTotal, 5, 60 * 1000000000, false⟩] = .ok ls ∧
      ls.filter (fun l => l.fields = ("target", "read", "total")) =
        [.limited "target" "read" "total" 5 (60 * 1000000000)] := by
  obtain ⟨hiff, hres⟩ := limits_last_config_wins (List.Perm.refl ResourceType.mapKeys)
    registered_isSome_iff (c := [⟨["*"], ["*"], limitPerTotal, 0, 0, true⟩,
      ⟨["target"], ["read"], limitPerTotal, 5, 60 * 1000000000, false⟩]) (by decide)
  have hstar : Accepted registered ⟨["*"], ["*"], limitPerTotal, 0, 0, true⟩ :=
    accepted_all (fun r => (registered_isSome_iff r).mpr) limitPerTotal 0 0 true
  have htarget : Accepted registered ⟨["target"], ["read"], limitPerTotal, 5, 60 * 1000000000, false⟩ := by
    have hname : ∀ r, NamesResource ⟨["target"], ["read"], limitPerTotal, 5, 60 * 1000000000, false⟩ r →
        r = .target := by
      intro r hr
      unfold NamesResource at hr
      split at hr
      next hstar => exact absurd hstar (by decide)
      next =>
        rw [← ResourceType.map_toString r, List.mem_singleton.mp hr]
        rfl
    refine ⟨fun _ s hs => ⟨.target, (List.mem_singleton.mp hs).symm⟩, fun r hr => ?_,
      fun _ r hr s hs => ?_⟩
    · rw [hname r hr]
      rfl
    · rw [hname r hr, List.mem_singleton.mp hs]
      exact ⟨.read, by decide, rfl⟩
  obtain ⟨ls, hls⟩ := hiff.mpr (by simpa using ⟨hstar, htarget⟩)
  exact ⟨ls, hls, ((hres ls hls).2 .target .read limitPerTotal (by decide) (by decide)
    (by decide)).trans (by decide)⟩

/-- A config that names the controller, a key of `resource.Map` that has no
registered actions, and no action at all makes `Limits` fail, though it names
no unknown resource and no invalid action. -/
theorem limits_rejects_controller :
    ∃ cc : Config, (∀ s ∈ cc.resources, ∃ r : ResourceType, r.toString = s) ∧
      cc.actions = [] ∧ cc.per ∈ limitPers ∧
      ∀ ls, limits registered ResourceType.mapKeys [cc] ≠ .ok ls := by
  refine ⟨⟨["controller"], [], limitPerTotal, 0, 0, false⟩, fun s hs => ⟨.controller, ?_⟩, rfl,
    by decide, fun ls hls => ?_⟩
  · exact (List.mem_singleton.mp hs).symm
  · have hacc := (limits_isOk_iff (fun r => (registered_isSome_iff r).mpr)
      (List.Perm.refl ResourceType.mapKeys)).mp ⟨ls, hls⟩
    have hcontroller := (hacc _ List.mem_cons_self).registered .controller (by decide)
    exact absurd hcontroller (by decide)

end Boundary.RateLimit
