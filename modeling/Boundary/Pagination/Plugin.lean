import Boundary.Pagination.Fill

/-!
# Listing resources a plugin serves

`internal/pagination/plugin` pages through resources served by a plugin: the
store also answers the plugin of the items, and the filter is handed it. The
unexported `listPlugin` is the loop of `list` that also keeps the first
plugin answered and refuses a later call that answers another one. When every
call answers the same plugin it is `list` with the filter handed that plugin
(`fetchPluginItems_eq`).
-/

namespace Boundary.Pagination

open ListToken GoControl

/-- `plugin.Plugin`, of which `listPlugin` reads the public id. -/
structure Plugin where
  publicId : String
  deriving DecidableEq, Repr

variable {T : Type}

/-- `ListPluginFilterFunc`. -/
abbrev ListPluginFilterFunc (T : Type) := T → Option Plugin → Except Error Bool

/-- `ListPluginItemsFunc`: the items of `ListItemsFunc`, with the plugin that
serves them, nil or not. -/
abbrev ListPluginItemsFunc (T : Type) :=
  Option T → Nat → Except Error (List T × Option Plugin × Time)

/-- The plugin after a call: the first one answered is kept, and one with
another public id is an error. -/
def keepPlugin (plg newPlg : Option Plugin) : Except Error (Option Plugin) :=
  match plg, newPlg with
  | none, _ => .ok newPlg
  | some p, some q =>
    if p.publicId ≠ q.publicId then .error (.new .internal "plugin changed between list invocations")
    else .ok (some p)
  | some p, none => .ok (some p)

/-- `dbLoop` of `listPlugin`, making at most `fuel` more requests to the
database; the plugin kept so far is one more loop variable. -/
def pluginDbLoop (filterItemFn : ListPluginFilterFunc T) (listItemsFn : ListPluginItemsFunc T)
    (limit : Nat) :
    Nat → Option T → Option Plugin → Time → List T →
      Option (Except Error (List T × Option Plugin × Time))
  | 0, _, _, _, _ => none
  | fuel + 1, lastItem, plg, firstListTime, items =>
    match listItemsFn lastItem limit with
    | .error e => some (.error e)
    | .ok (page, newPlg, listTime) =>
      let firstListTime := if firstListTime = 0 then listTime else firstListTime
      match keepPlugin plg newPlg with
      | .error e => some (.error e)
      | .ok plg =>
        match filterPage (fun x => filterItemFn x plg) limit items page with
        | .error e => some (.error e)
        | .ok (items, true) => some (.ok (items, plg, firstListTime))
        | .ok (items, false) =>
          if page.length < limit then some (.ok (items, plg, firstListTime))
          else pluginDbLoop filterItemFn listItemsFn limit fuel page.getLast? plg firstListTime items

/-- The unexported `listPlugin`. -/
def fetchPluginItems (pageSize : Nat) (filterItemFn : ListPluginFilterFunc T)
    (listItemsFn : ListPluginItemsFunc T) (fuel : Nat) :
    Option (Except Error (List T × Option Plugin × Bool × Time)) :=
  let limit := pageSize + 1
  (pluginDbLoop filterItemFn listItemsFn limit fuel none none 0 []).map fun r =>
    r.map fun (items, plg, firstListTime) =>
      let completeListing := decide (items.length < limit)
      ((if completeListing then items else items.take pageSize), plg, completeListing,
        firstListTime)

/-! ## One plugin -/

/-- The items and times of the plugin store's answers. -/
def withoutPlugin (listItemsFn : ListPluginItemsFunc T) : ListItemsFunc T :=
  fun lastItem limit => (listItemsFn lastItem limit).map fun (page, _, t) => (page, t)

section OnePlugin

variable {filterItemFn : ListPluginFilterFunc T} {listItemsFn : ListPluginItemsFunc T}
  {limit : Nat} {p : Plugin}

theorem keepPlugin_same {plg : Option Plugin} (hplg : plg = none ∨ plg = some p) :
    keepPlugin plg (some p) = .ok (some p) := by
  rcases hplg with rfl | rfl <;> simp [keepPlugin]

/-- When every call answers the same plugin, the loop of `listPlugin` is the
loop of `list` with the filter handed that plugin. -/
theorem pluginDbLoop_eq
    (hp : ∀ lastItem limit page plg t, listItemsFn lastItem limit = .ok (page, plg, t) →
      plg = some p) :
    ∀ (fuel : Nat) (lastItem : Option T) (plg : Option Plugin) (t0 : Time) (acc : List T),
      (plg = none ∨ plg = some p) →
      pluginDbLoop filterItemFn listItemsFn limit fuel lastItem plg t0 acc =
        (dbLoop (fun x => filterItemFn x (some p)) (withoutPlugin listItemsFn) limit fuel lastItem
          t0 acc).map (Except.map fun (items, t) => (items, some p, t))
  | 0, _, _, _, _, _ => rfl
  | fuel + 1, lastItem, plg, t0, acc, hplg => by
    simp only [pluginDbLoop, dbLoop, withoutPlugin]
    cases hlist : listItemsFn lastItem limit with
    | error e => rfl
    | ok r =>
      obtain ⟨page, newPlg, t⟩ := r
      obtain rfl := hp lastItem limit page newPlg t hlist
      simp only [Except.map, keepPlugin_same hplg]
      cases filterPage (fun x => filterItemFn x (some p)) limit acc page with
      | error e => rfl
      | ok kept =>
        obtain ⟨items, full⟩ := kept
        cases full
        · dsimp only
          split
          · rfl
          · exact pluginDbLoop_eq hp fuel _ (some p) _ items (.inr rfl)
        · rfl

/-- When every call answers the same plugin, `listPlugin` answers what `list`
answers with the filter handed that plugin, and the plugin. -/
theorem fetchPluginItems_eq
    (hp : ∀ lastItem limit page plg t, listItemsFn lastItem limit = .ok (page, plg, t) →
      plg = some p) (pageSize fuel : Nat) :
    fetchPluginItems pageSize filterItemFn listItemsFn fuel =
      (fetchItems pageSize (fun x => filterItemFn x (some p)) (withoutPlugin listItemsFn) fuel).map
        (Except.map fun (items, completeListing, t) => (items, some p, completeListing, t)) := by
  unfold fetchPluginItems fetchItems
  dsimp only
  rw [pluginDbLoop_eq hp fuel none none 0 [] (.inl rfl)]
  cases dbLoop (fun x => filterItemFn x (some p)) (withoutPlugin listItemsFn) (pageSize + 1) fuel
    none 0 [] with
  | none => rfl
  | some r => cases r <;> rfl

end OnePlugin

/-! ## Filling one page -/

section Fill

variable [Resource T]

/-- `list`, and `listPlugin` when every call answers the same plugin, over a
store with distinct ids answer the first `pageSize` items of the store that
pass the filter and complete the listing when no more are left, within
`⌈|S| / (pageSize + 1)⌉ + 1` calls of the store; the time is the first call's
when that is not the zero time, and in general the first time the store
answered that is not zero. -/
theorem fetchItems_fills_page {S : List T} (hnodup : (S.map Resource.publicId).Nodup)
    (pageSize fuel : Nat) (hfuel : (S.length + pageSize) / (pageSize + 1) + 1 ≤ fuel)
    {listItemsFn : ListItemsFunc T} {time : Option T → Nat → Time}
    (hstore : ∀ lastItem limit, listItemsFn lastItem limit =
      .ok ((itemsAfter S (lastItem.map Resource.publicId)).take limit, time lastItem limit))
    (f : T → Bool) {pluginItemsFn : ListPluginItemsFunc T} {p : Plugin}
    {pluginTime : Option T → Nat → Time}
    (hplugin : ∀ lastItem limit, pluginItemsFn lastItem limit =
      .ok ((itemsAfter S (lastItem.map Resource.publicId)).take limit, some p,
        pluginTime lastItem limit))
    (g : T → Option Plugin → Bool) :
    (∃ t, (time none (pageSize + 1) ≠ 0 → t = time none (pageSize + 1)) ∧
      t = firstNonzero (dbLoopTimes (fun x => .ok (f x)) listItemsFn (pageSize + 1) fuel none []) ∧
      fetchItems pageSize (fun x => .ok (f x)) listItemsFn fuel =
        some (.ok ((S.filter f).take pageSize, decide ((S.filter f).length ≤ pageSize), t))) ∧
    (∃ t, (pluginTime none (pageSize + 1) ≠ 0 → t = pluginTime none (pageSize + 1)) ∧
      t = firstNonzero (dbLoopTimes (fun x => .ok (g x (some p))) (withoutPlugin pluginItemsFn)
        (pageSize + 1) fuel none []) ∧
      fetchPluginItems pageSize (fun x plg => .ok (g x plg)) pluginItemsFn fuel =
        some (.ok ((S.filter (g · (some p))).take pageSize, some p,
          decide ((S.filter (g · (some p))).length ≤ pageSize), t))) := by
  obtain ⟨t, ht, hfetch⟩ := fetchItems_fill hstore hnodup f pageSize fuel hfuel
  refine ⟨⟨t, ht, fetchItems_time hfetch, hfetch⟩, ?_⟩
  have hp : ∀ lastItem limit page plg t, pluginItemsFn lastItem limit = .ok (page, plg, t) →
      plg = some p := by
    intro lastItem limit page plg t h
    rw [hplugin] at h
    cases h
    rfl
  have hstore' : ∀ lastItem limit, withoutPlugin pluginItemsFn lastItem limit =
      .ok ((itemsAfter S (lastItem.map Resource.publicId)).take limit, pluginTime lastItem limit) := by
    intro lastItem limit
    simp only [withoutPlugin, hplugin, Except.map]
  obtain ⟨t, ht, hfetch⟩ := fetchItems_fill hstore' hnodup (g · (some p)) pageSize fuel hfuel
  refine ⟨t, ht, fetchItems_time hfetch, ?_⟩
  rw [fetchPluginItems_eq hp, hfetch]
  rfl

/-- The plugin of the sample targets. -/
def samplePlugin : Plugin := ⟨"pl_1234567890"⟩

theorem fetchItems_fills_sample_page :
    (∃ t, (5 ≠ 0 → t = 5) ∧
      t = firstNonzero (dbLoopTimes (fun x => .ok (sampleFilter x))
        (listItemsAfter (readStore sampleTargets 5)) (1 + 1) 3 none []) ∧
      fetchItems 1 (fun x => .ok (sampleFilter x)) (listItemsAfter (readStore sampleTargets 5)) 3 =
        some (.ok ((sampleTargets.filter sampleFilter).take 1,
          decide ((sampleTargets.filter sampleFilter).length ≤ 1), t))) ∧
    (∃ t, (5 ≠ 0 → t = 5) ∧
      t = firstNonzero (dbLoopTimes (fun x => .ok (sampleFilter x))
        (withoutPlugin fun lastItem limit => .ok ((itemsAfter sampleTargets
          (lastItem.map Resource.publicId)).take limit, some samplePlugin, 5)) (1 + 1) 3 none []) ∧
      fetchPluginItems 1 (fun x _ => .ok (sampleFilter x))
          (fun lastItem limit => .ok ((itemsAfter sampleTargets
            (lastItem.map Resource.publicId)).take limit, some samplePlugin, 5)) 3 =
        some (.ok ((sampleTargets.filter sampleFilter).take 1, some samplePlugin,
          decide ((sampleTargets.filter sampleFilter).length ≤ 1), t))) := by
  have hstore : ∀ (lastItem : Option Item) limit,
      listItemsAfter (readStore sampleTargets 5) lastItem limit =
        .ok ((itemsAfter sampleTargets (lastItem.map Resource.publicId)).take limit,
          (fun _ _ => (5 : Time)) lastItem limit) := fun _ _ => rfl
  have hplugin : ∀ (lastItem : Option Item) limit,
      (fun lastItem limit => .ok ((itemsAfter sampleTargets (lastItem.map Resource.publicId)).take
        limit, some samplePlugin, (5 : Time)) : ListPluginItemsFunc Item) lastItem limit =
        .ok ((itemsAfter sampleTargets (lastItem.map Resource.publicId)).take limit,
          some samplePlugin, (fun _ _ => (5 : Time)) lastItem limit) := fun _ _ => rfl
  exact fetchItems_fills_page (S := sampleTargets) (by decide) 1 3 (by decide) hstore sampleFilter
    hplugin (fun x _ => sampleFilter x)

end Fill

end Boundary.Pagination
