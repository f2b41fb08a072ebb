import Boundary.Pagination.List

/-!
# The initial pagination phase

A store is a list of items in listing order; its `ListItemsFunc` answers the
next items after a cursor. The resources' `List` reads the store from the start,
their `ListPage` from the token's last item. The initial phase is `List`
followed by `ListPage` with each returned token, until a page completes the
listing.

The main result: the pages of the initial phase are the filtered store, cut into
pages of `pageSize` items, each item once and in order, in at most
`⌈m / pageSize⌉ + 1` requests for `m` matching items; the last page carries a
start-refresh token.
-/

namespace Boundary.Pagination

open ListToken GoControl

variable {T : Type} [Resource T]

/-! ## The store -/

/-- The items of the store after the item with the given id; all of them for no
cursor. -/
def itemsAfter (S : List T) : Option String → List T
  | none => S
  | some id => (S.dropWhile fun x => Resource.publicId x != id).drop 1

/-- A store as the repositories read it, keyed by the cursor's id. -/
abbrev StoreFunc (T : Type) := Option String → Nat → Except Error (List T × Time)

/-- The store's function lists `S`: at most `limit` items after the cursor, at a
non-zero transaction time. -/
def StoreLists (S : List T) (store : StoreFunc T) : Prop :=
  ∀ cursor limit, ∃ t, t ≠ 0 ∧ store cursor limit = .ok ((itemsAfter S cursor).take limit, t)

/-- A store that answers at a fixed transaction time. -/
def readStore (S : List T) (t : Time) : StoreFunc T :=
  fun cursor limit => .ok ((itemsAfter S cursor).take limit, t)

theorem readStore_lists (S : List T) {t : Time} (ht : t ≠ 0) : StoreLists S (readStore S t) :=
  fun _ _ => ⟨t, ht, rfl⟩

/-- The `listItemsFn` the resources pass to `List`: the store read after the
previous database page's last item. -/
def listItemsAfter (store : StoreFunc T) : ListItemsFunc T :=
  fun lastItem limit => store (lastItem.map Resource.publicId) limit

/-- The `listItemsFn` the resources pass to `ListPage`: without a previous
database page, the token's last item is the cursor. -/
def listPageItemsAfter (tok : Token) (store : StoreFunc T) : ListItemsFunc T :=
  fun lastItem limit =>
    match lastItem with
    | some item => store (some (Resource.publicId item)) limit
    | none => do
      let item ← tok.lastItem
      store (some item.publicId) limit

/-- A `ListItemsFunc` that reads `S` from the cursor `start` when it has no
previous database page. -/
def ReadsFrom (S : List T) (start : Option String) (listItemsFn : ListItemsFunc T) : Prop :=
  ∀ lastItem limit, ∃ t, t ≠ 0 ∧ listItemsFn lastItem limit =
    .ok ((itemsAfter S ((lastItem.map Resource.publicId).or start)).take limit, t)

theorem readsFrom_listItemsAfter {S : List T} {store : StoreFunc T} (hstore : StoreLists S store) :
    ReadsFrom S none (listItemsAfter store) := by
  intro lastItem limit
  cases lastItem <;> exact hstore _ limit

theorem readsFrom_listPageItemsAfter {S : List T} {store : StoreFunc T} {tok : Token}
    {lastItemId : String} {lastItemCreateTime : Time}
    (hsub : tok.subtype = .pagination lastItemId lastItemCreateTime) (hstore : StoreLists S store) :
    ReadsFrom S (some lastItemId) (listPageItemsAfter tok store) := by
  intro lastItem limit
  cases lastItem with
  | some item => exact hstore _ limit
  | none =>
    have hlast : tok.lastItem = .ok ⟨lastItemId, some lastItemCreateTime, none, tok.resourceType⟩ := by
      simp [Token.lastItem, hsub]
    simp only [listPageItemsAfter, hlast, ok_bind]
    exact hstore _ limit

/-! ## Lists with distinct ids -/

theorem itemsAfter_suffix (S : List T) (cursor : Option String) : itemsAfter S cursor <:+ S := by
  cases cursor with
  | none => exact List.suffix_refl S
  | some id => exact (List.drop_suffix 1 _).trans (List.dropWhile_suffix _)

/-- In a store with distinct ids, the items after an item are those behind it. -/
theorem itemsAfter_eq {S A B : List T} {x : T} (hnodup : (S.map Resource.publicId).Nodup)
    (hS : S = A ++ x :: B) : itemsAfter S (some (Resource.publicId x)) = B := by
  subst hS
  have hA : ∀ a ∈ A, Resource.publicId a ≠ Resource.publicId x := by
    intro a ha hax
    rw [List.map_append, List.map_cons] at hnodup
    exact List.disjoint_of_nodup_append hnodup (List.mem_map_of_mem ha) (hax ▸ List.mem_cons_self)
  simp only [itemsAfter]
  rw [List.dropWhile_append_of_pos (fun a ha => by simpa using hA a ha)]
  simp

omit [Resource T] in
/-- A filtered list cut after its `n`-th item: the item sits in the list between
the items before it and those after. -/
theorem exists_split_filter (f : T → Bool) :
    ∀ (R : List T) (n : Nat), 0 < n → n ≤ (R.filter f).length →
      ∃ A x B, R = A ++ x :: B ∧ (R.filter f).take n = A.filter f ++ [x] ∧
        (R.filter f).drop n = B.filter f
  | [], n, _, hn => by simp at hn; omega
  | y :: R, n, hpos, hn => by
    by_cases hy : f y = true
    · rw [List.filter_cons_of_pos hy] at hn ⊢
      rcases Nat.lt_or_ge 1 n with h1 | h1
      · -- the cut is further on: it comes from the rest of the list
        obtain ⟨k, rfl⟩ : ∃ k, n = k + 1 := ⟨n - 1, by omega⟩
        obtain ⟨A, x, B, rfl, htake, hdrop⟩ :=
          exists_split_filter f R k (by omega) (by simp at hn; omega)
        refine ⟨y :: A, x, B, rfl, ?_, ?_⟩
        · rw [List.take_succ_cons, htake, List.filter_cons_of_pos hy, List.cons_append]
        · rw [List.drop_succ_cons, hdrop]
      · -- the cut is at this item
        obtain rfl : n = 1 := by omega
        exact ⟨[], y, R, rfl, by simp, by simp⟩
    · rw [List.filter_cons_of_neg hy] at hn ⊢
      obtain ⟨A, x, B, rfl, htake, hdrop⟩ := exists_split_filter f R n hpos hn
      exact ⟨y :: A, x, B, rfl, by rw [List.filter_cons_of_neg hy]; exact htake, hdrop⟩

/-! ## One page from the store -/

omit [Resource T] in
/-- The inner loop with a filter that never fails keeps the first `limit` of the
kept items and the filtered page, and says whether they reach `limit`. -/
theorem filterPage_pure (f : T → Bool) (limit : Nat) :
    ∀ (acc page : List T), acc.length < limit →
      filterPage (fun x => .ok (f x)) limit acc page =
        .ok ((acc ++ page.filter f).take limit, decide (limit ≤ (acc ++ page.filter f).length))
  | acc, [], hacc => by
    simp only [filterPage, List.filter_nil, List.append_nil, Except.ok.injEq, Prod.mk.injEq]
    exact ⟨(List.take_of_length_le hacc.le).symm, by simp [hacc]⟩
  | acc, item :: page, hacc => by
    simp only [filterPage, ok_bind]
    by_cases hf : f item = true
    · simp only [hf, if_true, List.filter_cons_of_pos hf]
      split
      · -- the item fills the page
        rename_i hlen
        have hsplit : acc ++ item :: page.filter f = (acc ++ [item]) ++ page.filter f := by simp
        rw [hsplit, List.take_append_of_le_length hlen.ge, List.take_of_length_le hlen.le]
        simp only [List.length_append, List.length_singleton] at hlen ⊢
        simp only [pure, Except.pure, Except.ok.injEq, Prod.mk.injEq, true_and]
        exact (decide_eq_true (by omega)).symm
      · rename_i hlen
        have hlt : (acc ++ [item]).length < limit := by
          simp only [List.length_append, List.length_singleton] at hlen ⊢
          omega
        rw [filterPage_pure f limit (acc ++ [item]) page hlt]
        simp
    · simp only [hf, Bool.false_eq_true, if_false, List.filter_cons_of_neg hf]
      exact filterPage_pure f limit acc page hacc

/-- The items a cursor still has ahead of it, cut where a database page of
`limit` items ends: the page's last item sits between them. -/
theorem itemsAfter_getLast {S : List T} {cursor : Option String} {limit : Nat}
    (hnodup : (S.map Resource.publicId).Nodup) (hlen : ((itemsAfter S cursor).take limit).length = limit)
    (hlimit : 0 < limit) :
    ∃ x, ((itemsAfter S cursor).take limit).getLast? = some x ∧
      itemsAfter S (some (Resource.publicId x)) = (itemsAfter S cursor).drop limit := by
  set R := itemsAfter S cursor with hRdef
  have hne : R.take limit ≠ [] := fun h => by rw [h] at hlen; simp at hlen; omega
  refine ⟨(R.take limit).getLast hne, List.getLast?_eq_some_getLast hne, ?_⟩
  obtain ⟨P, hP⟩ := itemsAfter_suffix S cursor
  have hR : R = (R.take limit).dropLast ++ (R.take limit).getLast hne :: R.drop limit := by
    conv_lhs => rw [← List.take_append_drop limit R, ← List.dropLast_append_getLast hne]
    simp
  refine itemsAfter_eq hnodup (A := P ++ (R.take limit).dropLast) ?_
  rw [← hP, ← hRdef]
  conv_lhs => rw [hR]
  simp

/-- The items after a cursor fit in the pages a fuel pays for: after one full
page, in one page fewer. -/
theorem div_lt_of_full {m limit fuel : Nat} (hlimit : 0 < limit) (hm : m / limit < fuel + 1)
    (hfull : limit ≤ m) : (m - limit) / limit < fuel := by
  rw [Nat.div_lt_iff_lt_mul hlimit] at hm ⊢
  rw [Nat.succ_mul] at hm
  omega

/-- The database loop over a store with distinct ids, whose `n`-th answer after
a cursor comes at `time`, returns the first `limit` of the kept items and the
items ahead of the cursor that pass the filter, within one call per `limit`
items ahead and one more; its time is the first one that is not zero. -/
theorem dbLoop_fill {S : List T} {start : Option String} {listItemsFn : ListItemsFunc T}
    {time : Option T → Nat → Time}
    (hstore : ∀ lastItem limit, listItemsFn lastItem limit =
      .ok ((itemsAfter S ((lastItem.map Resource.publicId).or start)).take limit,
        time lastItem limit))
    (hnodup : (S.map Resource.publicId).Nodup) (f : T → Bool) (limit : Nat) (hlimit : 0 < limit) :
    ∀ (fuel : Nat) (lastItem : Option T) (t0 : Time) (acc : List T), acc.length < limit →
      (itemsAfter S ((lastItem.map Resource.publicId).or start)).length / limit < fuel →
      ∃ t, ((if t0 = 0 then time lastItem limit else t0) ≠ 0 →
          t = if t0 = 0 then time lastItem limit else t0) ∧
        dbLoop (fun x => .ok (f x)) listItemsFn limit fuel lastItem t0 acc =
          some (.ok ((acc ++ (itemsAfter S ((lastItem.map Resource.publicId).or start)).filter f).take
            limit, t))
  | 0, _, _, _, _, hfuel => absurd hfuel (Nat.not_lt_zero _)
  | fuel + 1, lastItem, t0, acc, hacc, hfuel => by
    set R := itemsAfter S ((lastItem.map Resource.publicId).or start) with hRdef
    set t1 := if t0 = 0 then time lastItem limit else t0 with ht1
    have hlist := hstore lastItem limit
    rw [← hRdef] at hlist
    have hsplit : R.filter f = (R.take limit).filter f ++ (R.drop limit).filter f := by
      rw [← List.filter_append, List.take_append_drop]
    simp only [dbLoop, hlist, filterPage_pure f limit acc _ hacc]
    rw [← ht1]
    by_cases hfull : limit ≤ (acc ++ (R.take limit).filter f).length
    · simp only [hfull, decide_true]
      refine ⟨t1, fun _ => rfl, ?_⟩
      rw [hsplit, ← List.append_assoc, List.take_append_of_le_length hfull]
    · simp only [hfull, decide_false]
      have hkept : (acc ++ (R.take limit).filter f).take limit = acc ++ (R.take limit).filter f :=
        List.take_of_length_le (by omega)
      rw [hkept]
      by_cases hshort : (R.take limit).length < limit
      · -- the store ran out: this page was its last call
        have hR : R.take limit = R := List.take_of_length_le (by
          rw [List.length_take] at hshort
          omega)
        simp only [hshort, if_true]
        refine ⟨t1, fun _ => rfl, ?_⟩
        rw [hR, List.take_of_length_le (by rw [← hR]; omega)]
      · have hlen : (R.take limit).length = limit := by
          rw [List.length_take] at hshort ⊢
          omega
        obtain ⟨x, hx, hafter⟩ := itemsAfter_getLast hnodup hlen hlimit
        rw [← hRdef] at hx hafter
        simp only [hshort, if_false, hx]
        have hrest : (itemsAfter S (((some x).map Resource.publicId).or start)).length / limit <
            fuel := by
          simp only [Option.map_some, Option.some_or, hafter, List.length_drop]
          rw [List.length_take] at hlen
          exact div_lt_of_full hlimit hfuel (by omega)
        obtain ⟨t, htime, hloop⟩ := dbLoop_fill hstore hnodup f limit hlimit fuel (some x) t1
          (acc ++ (R.take limit).filter f) (by omega) hrest
        -- a time that is not zero is kept by every later call
        refine ⟨t, fun h1 => by rw [htime (by rwa [if_neg h1])]; exact if_neg h1, ?_⟩
        rw [hloop]
        simp only [Option.map_some, Option.some_or, hafter, hsplit, List.append_assoc]

/-- The database loop over a store with distinct ids returns the first `limit`
of the kept items followed by the items ahead of the cursor that pass the
filter, at the first listing's time. -/
theorem dbLoop_reads {S : List T} {start : Option String} {listItemsFn : ListItemsFunc T}
    (hreads : ReadsFrom S start listItemsFn) (hnodup : (S.map Resource.publicId).Nodup)
    (f : T → Bool) (limit : Nat) (hlimit : 0 < limit) :
    ∀ (fuel : Nat) (lastItem : Option T) (t0 : Time) (acc : List T), acc.length < limit →
      (itemsAfter S ((lastItem.map Resource.publicId).or start)).length < fuel →
      ∃ t, (t0 ≠ 0 → t = t0) ∧ t ≠ 0 ∧
        dbLoop (fun x => .ok (f x)) listItemsFn limit fuel lastItem t0 acc =
          some (.ok ((acc ++ (itemsAfter S ((lastItem.map Resource.publicId).or start)).filter f).take
            limit, t)) := by
  intro fuel lastItem t0 acc hacc hfuel
  choose time htime hstore using hreads
  obtain ⟨t, ht, hloop⟩ := dbLoop_fill hstore hnodup f limit hlimit fuel lastItem t0 acc hacc
    (lt_of_le_of_lt (Nat.div_le_self _ _) hfuel)
  -- every answer comes at a time that is not zero, so the loop keeps the first one
  have h1 : (if t0 = 0 then time lastItem limit else t0) ≠ 0 := by
    split
    · exact htime lastItem limit
    · assumption
  refine ⟨t, fun h0 => ?_, (ht h1).symm ▸ h1, hloop⟩
  rw [ht h1, if_neg h0]

/-- One call of the unexported `list` over a store with distinct ids answers the
first `pageSize` items ahead of its cursor that pass the filter, completes the
listing when no more of them are left, and takes a listing's non-zero time. -/
theorem fetchItems_reads {S : List T} {start : Option String} {listItemsFn : ListItemsFunc T}
    (hreads : ReadsFrom S start listItemsFn) (hnodup : (S.map Resource.publicId).Nodup)
    (f : T → Bool) (pageSize fuel : Nat) (hfuel : S.length < fuel) :
    ∃ t, t ≠ 0 ∧ fetchItems pageSize (fun x => .ok (f x)) listItemsFn fuel =
      some (.ok (((itemsAfter S start).filter f).take pageSize,
        decide (((itemsAfter S start).filter f).length ≤ pageSize), t)) := by
  have hlen : (itemsAfter S start).length < fuel :=
    lt_of_le_of_lt (itemsAfter_suffix S start).length_le hfuel
  obtain ⟨t, -, ht, hloop⟩ :=
    dbLoop_reads hreads hnodup f (pageSize + 1) (Nat.succ_pos _) fuel none 0 [] (by simp)
      (by simpa using hlen)
  refine ⟨t, ht, ?_⟩
  simp only [Option.map_none, Option.none_or, List.nil_append] at hloop
  simp only [fetchItems, hloop, Option.map_some, map_ok, List.length_take]
  -- the over-fetched item only tells whether the listing is complete
  by_cases hc : ((itemsAfter S start).filter f).length ≤ pageSize
  · have hkeep : ((itemsAfter S start).filter f).take (pageSize + 1) =
        (itemsAfter S start).filter f := List.take_of_length_le (by omega)
    simp [hc, hkeep, List.take_of_length_le hc]
  · simp [hc, List.take_take]

/-! ## One request -/

/-- The items of a store as the database holds them: distinct, non-empty ids,
set create times, and the listed resource type. -/
structure StoreItems (S : List T) (typ : ResourceType) : Prop where
  nodup : (S.map Resource.publicId).Nodup
  id_ne : ∀ x ∈ S, Resource.publicId x ≠ ""
  createTime_ne : ∀ x ∈ S, Resource.createTime x ≠ 0
  resourceType_eq : ∀ x ∈ S, Resource.resourceType x = typ
  typ_ne : typ ≠ .unknown

section Request

variable {S : List T} {typ : ResourceType} {grantsHash : List UInt8} {pageSize fuel : Nat}
  {f : T → Bool} {store : StoreFunc T}

omit [Resource T] in
theorem validateCommon_some (hgh : grantsHash ≠ []) (hsize : 1 ≤ pageSize)
    (filterItemFn : ListFilterFunc T) (listItemsFn : ListItemsFunc T)
    (estimatedCountFn : EstimatedCountFunc) :
    validateCommon grantsHash pageSize (some filterItemFn) (some listItemsFn)
      (some estimatedCountFn) = .ok ⟨filterItemFn, listItemsFn, estimatedCountFn⟩ :=
  validateCommon_eq_ok.mpr ⟨hgh, hsize, rfl, rfl, rfl⟩

/-- `List` over a store answers the first page of the filtered store, with the
token `newListToken` makes at a listing's non-zero time. -/
theorem list_reads (hS : StoreItems S typ) (hstore : StoreLists S store) (hgh : grantsHash ≠ [])
    (hsize : 1 ≤ pageSize) (hfuel : S.length < fuel) (count : Nat) :
    ∃ t, t ≠ 0 ∧ list grantsHash pageSize (some fun x => .ok (f x)) (some (listItemsAfter store))
      (some (.ok count)) fuel =
        some ((newListToken grantsHash ((S.filter f).take pageSize)
            (decide ((S.filter f).length ≤ pageSize)) t).map fun listToken =>
          ⟨(S.filter f).take pageSize, decide ((S.filter f).length ≤ pageSize), listToken, [],
            if decide ((S.filter f).length ≤ pageSize) then ((S.filter f).take pageSize).length
            else count⟩) := by
  obtain ⟨t, ht, hfetch⟩ := fetchItems_reads (readsFrom_listItemsAfter hstore) hS.nodup f
    pageSize fuel hfuel
  refine ⟨t, ht, ?_⟩
  simp only [list, validateCommon_some hgh hsize, hfetch, itemsAfter, Option.map_some, ok_bind,
    buildListResp_ok]
  rfl

/-- `ListPage` over a store, with a pagination token at an item, answers the next
page of the filtered store after that item, with the token moved on by
`Transition` at a listing's non-zero time. -/
theorem listPage_reads (hS : StoreItems S typ) (hstore : StoreLists S store)
    (hgh : grantsHash ≠ []) (hsize : 1 ≤ pageSize) (hfuel : S.length < fuel) {tok : Token}
    {lastItemId : String} {lastItemCreateTime : Time}
    (hsub : tok.subtype = .pagination lastItemId lastItemCreateTime) (count : Nat) :
    ∃ t, t ≠ 0 ∧ listPage grantsHash pageSize (some fun x => .ok (f x))
      (some (listPageItemsAfter tok store)) (some (.ok count)) (some tok) fuel =
        some ((tok.transition
            (decide (((itemsAfter S (some lastItemId)).filter f).length ≤ pageSize))
            (((itemsAfter S (some lastItemId)).filter f).take pageSize).getLast? 0 t).map fun tk =>
          ⟨((itemsAfter S (some lastItemId)).filter f).take pageSize,
            decide (((itemsAfter S (some lastItemId)).filter f).length ≤ pageSize), some tk, [],
            count⟩) := by
  obtain ⟨t, ht, hfetch⟩ := fetchItems_reads (readsFrom_listPageItemsAfter hsub hstore) hS.nodup
    f pageSize fuel hfuel
  refine ⟨t, ht, ?_⟩
  simp only [listPage, validateCommon_some hgh hsize, hsub, hfetch, Option.map_some, ok_bind,
    buildListPageResp_ok]

end Request

/-! ## The initial phase -/

section Run

variable (grantsHash : List UInt8) (pageSize : Nat) (f : T → Bool) (stores : Nat → StoreFunc T)
  (counts : Nat → Nat) (fuel : Nat)

/-- The pages after the first: `ListPage` with the previous page's token, the
`i`-th request reading the store through `stores i` and estimating `counts i`,
until a page completes the listing; at most `calls` requests. -/
def pagesFrom : Nat → Nat → Token → Option (Except Error (List (ListResponse T)))
  | 0, _, _ => none
  | calls + 1, i, tok =>
    match listPage grantsHash pageSize (some fun x => .ok (f x))
        (some (listPageItemsAfter tok (stores i))) (some (.ok (counts i))) (some tok) fuel with
    | none => none
    | some (.error e) => some (.error e)
    | some (.ok resp) =>
      match resp.completeListing, resp.listToken with
      | false, some tok' => (pagesFrom calls (i + 1) tok').map fun r => r.map (resp :: ·)
      | _, _ => some (.ok [resp])

/-- The initial phase: `List`, then `ListPage` with each returned token, until a
page completes the listing; at most `calls` requests. -/
def initialPhase : Nat → Option (Except Error (List (ListResponse T)))
  | 0 => none
  | calls + 1 =>
    match list grantsHash pageSize (some fun x => .ok (f x)) (some (listItemsAfter (stores 0)))
        (some (.ok (counts 0))) fuel with
    | none => none
    | some (.error e) => some (.error e)
    | some (.ok resp) =>
      match resp.completeListing, resp.listToken with
      | false, some tok =>
        (pagesFrom grantsHash pageSize f stores counts fuel calls 1 tok).map fun r => r.map (resp :: ·)
      | _, _ => some (.ok [resp])

end Run

omit [Resource T] in
/-- Pages that cut a list of items in order: each page but the last holds
`pageSize` items and does not complete the listing; the last completes it. -/
structure PagesCut (pageSize : Nat) (F : List T) (resps : List (ListResponse T)) : Prop where
  items : (resps.map ListResponse.items).flatten = F
  full : ∀ r ∈ resps.dropLast, r.items.length = pageSize ∧ r.completeListing = false
  last : ∃ r, resps.getLast? = some r ∧ r.completeListing = true

omit [Resource T] in
theorem PagesCut.single {pageSize : Nat} (resp : ListResponse T)
    (hcomplete : resp.completeListing = true) :
    PagesCut pageSize resp.items [resp] :=
  ⟨by simp, by simp, ⟨resp, rfl, hcomplete⟩⟩

omit [Resource T] in
/-- A page of `pageSize` items that does not complete the listing, followed by
pages cutting the rest. -/
theorem PagesCut.cons {pageSize : Nat} {F : List T} {resp : ListResponse T}
    {resps : List (ListResponse T)} (hlen : resp.items.length = pageSize)
    (hcomplete : resp.completeListing = false) (hrest : PagesCut pageSize F resps) :
    PagesCut pageSize (resp.items ++ F) (resp :: resps) := by
  obtain ⟨hitems, hfull, ⟨r, hr, hrc⟩⟩ := hrest
  have hne : resps ≠ [] := fun h => by simp [h] at hr
  refine ⟨by simp [hitems], fun r' hr' => ?_, ⟨r, ?_, hrc⟩⟩
  · rw [List.dropLast_cons_of_ne_nil hne, List.mem_cons] at hr'
    rcases hr' with rfl | hr'
    · exact ⟨hlen, hcomplete⟩
    · exact hfull r' hr'
  · rw [List.getLast?_cons, hr]
    rfl

section Pages

variable {S : List T} {typ : ResourceType} {grantsHash : List UInt8} {pageSize fuel : Nat}
  {f : T → Bool} {stores : Nat → StoreFunc T}

/-- The pages after a pagination token at an item of the store cut the filtered
items behind it; `calls` requests suffice when they hold no more than
`calls * pageSize` items. The last page carries a start-refresh token. -/
theorem pagesFrom_cut (counts : Nat → Nat) (hS : StoreItems S typ) (hstores : ∀ i, StoreLists S (stores i))
    (hgh : grantsHash ≠ []) (hsize : 1 ≤ pageSize) (hfuel : S.length < fuel) :
    ∀ (calls i : Nat) (tok : Token) (P : List T) (x : T) (B : List T) (c : Time),
      S = P ++ x :: B → tok.subtype = .pagination (Resource.publicId x) c → 0 < calls →
      (B.filter f).length ≤ calls * pageSize →
      ∃ resps, pagesFrom grantsHash pageSize f stores counts fuel calls i tok = some (.ok resps) ∧
        resps.length ≤ calls ∧ PagesCut pageSize (B.filter f) resps ∧
        ∃ r, resps.getLast? = some r ∧
          ∃ tk a b, r.listToken = some tk ∧ tk.subtype = .startRefresh a b
  | 0, _, _, _, _, _, _, _, _, hcalls, _ => absurd hcalls (Nat.lt_irrefl 0)
  | calls + 1, i, tok, P, x, B, c, hSx, hsub, _, hbound => by
    have hafter : itemsAfter S (some (Resource.publicId x)) = B := itemsAfter_eq hS.nodup hSx
    obtain ⟨t, -, hpage⟩ := listPage_reads (f := f) hS (hstores i) hgh hsize hfuel hsub
      (counts i)
    rw [hafter] at hpage
    by_cases hc : (B.filter f).length ≤ pageSize
    · -- the page completes the listing
      rw [decide_eq_true hc, transition_pagination_complete hsub] at hpage
      let tk : Token := { tok with subtype := .startRefresh tok.createTime tok.createTime }
      let resp : ListResponse T := ⟨(B.filter f).take pageSize, true, some tk, [], counts i⟩
      refine ⟨[resp], ?_, by simp, ?_, ⟨resp, rfl, tk, _, _, rfl, rfl⟩⟩
      · simp only [pagesFrom, hpage, map_ok]
        rfl
      · have hcut : PagesCut pageSize resp.items [resp] := PagesCut.single resp rfl
        rwa [show resp.items = B.filter f from List.take_of_length_le hc] at hcut
    · -- a full page, then the pages after its last item
      have hlong : pageSize ≤ (B.filter f).length := by omega
      obtain ⟨A, y, B', hB, htake, hdrop⟩ := exists_split_filter f B pageSize (by omega) hlong
      have hlast : ((B.filter f).take pageSize).getLast? = some y := by
        rw [htake, List.getLast?_append_of_ne_nil _ (by simp)]
        rfl
      rw [decide_eq_false hc, hlast, transition_pagination_next hsub] at hpage
      have hcalls : 0 < calls := by
        rcases Nat.eq_zero_or_pos calls with h0 | h0
        · subst h0
          omega
        · exact h0
      have hbound' : (B'.filter f).length ≤ calls * pageSize := by
        rw [← hdrop, List.length_drop, Nat.succ_mul] at *
        omega
      let tk : Token :=
        { tok with subtype := .pagination (Resource.publicId y) (Resource.createTime y) }
      let resp : ListResponse T := ⟨(B.filter f).take pageSize, false, some tk, [], counts i⟩
      obtain ⟨resps, hrun, hlen, hcut, hlastTok⟩ := pagesFrom_cut counts hS hstores hgh hsize hfuel
        calls (i + 1) tk (P ++ x :: A) y B' (Resource.createTime y) (by rw [hSx, hB]; simp) rfl
        hcalls hbound'
      refine ⟨resp :: resps, ?_, by simp; omega, ?_, ?_⟩
      · simp only [pagesFrom, hpage, map_ok]
        simp only [resp, tk, hrun, Option.map_some, map_ok]
      · have hitems : (B.filter f) = (B.filter f).take pageSize ++ B'.filter f := by
          rw [← hdrop, List.take_append_drop]
        have hcons : PagesCut pageSize (resp.items ++ B'.filter f) (resp :: resps) :=
          PagesCut.cons (by simp only [resp, List.length_take]; omega) rfl hcut
        rwa [hitems]
      · obtain ⟨r, hr, hrtok⟩ := hlastTok
        refine ⟨r, ?_, hrtok⟩
        have hne : resps ≠ [] := fun h => by simp [h] at hr
        rw [List.getLast?_cons, hr]
        rfl

/-- `⌈m / n⌉` pages of `n` items hold `m` items. -/
theorem le_ceilDiv_mul (m : Nat) {n : Nat} (hn : 0 < n) : m ≤ (m + n - 1) / n * n := by
  have h := Nat.lt_div_mul_add (a := m + n - 1) hn
  omega

/-- The initial phase over a store lists every item that passes the filter once,
in the store's order, in full pages but the last, within `⌈m / n⌉ + 1` requests
for `m` such items and page size `n`. Its last response carries a start-refresh
token, or none when no item passes. -/
theorem initialPhase_lists_filtered (counts : Nat → Nat) (hS : StoreItems S typ)
    (hstores : ∀ i, StoreLists S (stores i)) (hgh : grantsHash ≠ []) (hsize : 1 ≤ pageSize)
    (hfuel : S.length < fuel) :
    ∃ resps, initialPhase grantsHash pageSize f stores counts fuel
        (((S.filter f).length + pageSize - 1) / pageSize + 1) = some (.ok resps) ∧
      resps.length ≤ ((S.filter f).length + pageSize - 1) / pageSize + 1 ∧
      PagesCut pageSize (S.filter f) resps ∧
      ∃ r, resps.getLast? = some r ∧
        (S.filter f = [] → r.listToken = none) ∧
        (S.filter f ≠ [] → ∃ tk a b, r.listToken = some tk ∧ tk.subtype = .startRefresh a b) := by
  obtain ⟨t, ht, hlist⟩ := list_reads (f := f) hS (hstores 0) hgh hsize hfuel (counts 0)
  -- the last item of a page is an item of the store, so its token can be made
  have htoken : ∀ (items : List T) (x : T), items.getLast? = some x → x ∈ S →
      ∀ completeListing, newListToken grantsHash items completeListing t =
        .ok (some ⟨t, Resource.resourceType x, grantsHash,
          if completeListing then .startRefresh t t
          else .pagination (Resource.publicId x) (Resource.createTime x)⟩) :=
    fun items x hx hxS => newListToken_of_getLast hx hgh ht (hS.id_ne x hxS)
      (hS.createTime_ne x hxS) (hS.resourceType_eq x hxS ▸ hS.typ_ne)
  by_cases hc : (S.filter f).length ≤ pageSize
  · -- `List` completes the listing on its own
    rw [decide_eq_true hc, List.take_of_length_le hc] at hlist
    cases hlast : (S.filter f).getLast? with
    | none =>
      have hnil : S.filter f = [] := List.getLast?_eq_none_iff.mp hlast
      have hnone : newListToken grantsHash (S.filter f) true t = .ok none := by
        simp only [newListToken, hlast]
      rw [hnone] at hlist
      let resp : ListResponse T := ⟨S.filter f, true, none, [], (S.filter f).length⟩
      refine ⟨[resp], ?_, by simp, PagesCut.single resp rfl,
        ⟨resp, rfl, fun _ => rfl, fun hne => absurd hnil hne⟩⟩
      simp only [initialPhase, hlist, map_ok, if_true]
      rfl
    | some x =>
      have hxS : x ∈ S := (List.mem_filter.mp (List.mem_of_getLast? hlast)).1
      rw [htoken _ x hlast hxS true] at hlist
      let resp : ListResponse T := ⟨S.filter f, true,
        some ⟨t, Resource.resourceType x, grantsHash, .startRefresh t t⟩, [], (S.filter f).length⟩
      refine ⟨[resp], ?_, by simp, PagesCut.single resp rfl,
        ⟨resp, rfl, fun hnil => by simp [hnil] at hlast, fun _ => ⟨_, _, _, rfl, rfl⟩⟩⟩
      simp only [initialPhase, hlist, map_ok, if_true]
      rfl
  · -- a full first page, then the pages after its last item
    have hlong : pageSize ≤ (S.filter f).length := by omega
    obtain ⟨A, y, B, hSy, htake, hdrop⟩ := exists_split_filter f S pageSize (by omega) hlong
    have hlast : ((S.filter f).take pageSize).getLast? = some y := by
      rw [htake, List.getLast?_append_of_ne_nil _ (by simp)]
      rfl
    have hyS : y ∈ S := by simp [hSy]
    rw [decide_eq_false hc, htoken _ y hlast hyS false] at hlist
    let tk : Token :=
      ⟨t, Resource.resourceType y, grantsHash, .pagination (Resource.publicId y) (Resource.createTime y)⟩
    let resp : ListResponse T := ⟨(S.filter f).take pageSize, false, some tk, [], counts 0⟩
    -- the later pages need no more than `⌈m / n⌉` requests
    have hceil := le_ceilDiv_mul (S.filter f).length (n := pageSize) (by omega)
    have hcalls : 0 < ((S.filter f).length + pageSize - 1) / pageSize := by
      rcases Nat.eq_zero_or_pos (((S.filter f).length + pageSize - 1) / pageSize) with h0 | h0
      · rw [h0, Nat.zero_mul] at hceil
        omega
      · exact h0
    have hbound : (B.filter f).length ≤
        ((S.filter f).length + pageSize - 1) / pageSize * pageSize := by
      rw [← hdrop, List.length_drop]
      omega
    obtain ⟨resps, hrun, hlen, hcut, hlastTok⟩ := pagesFrom_cut counts hS hstores hgh hsize hfuel
      _ 1 tk A y B (Resource.createTime y) hSy rfl hcalls hbound
    refine ⟨resp :: resps, ?_, by simp; omega, ?_, ?_⟩
    · simp only [initialPhase, hlist, map_ok, Bool.false_eq_true, if_false]
      simp only [resp, tk, hrun, Option.map_some, map_ok]
    · have hitems : (S.filter f) = (S.filter f).take pageSize ++ B.filter f := by
        rw [← hdrop, List.take_append_drop]
      have hcons : PagesCut pageSize (resp.items ++ B.filter f) (resp :: resps) :=
        PagesCut.cons (by simp only [resp, List.length_take]; omega) rfl hcut
      rwa [hitems]
    · obtain ⟨r, hr, hrtok⟩ := hlastTok
      have hne : resps ≠ [] := fun h => by simp [h] at hr
      refine ⟨r, ?_, fun hnil => by simp [hnil] at hc, fun _ => hrtok⟩
      rw [List.getLast?_cons, hr]
      rfl

/-- Three targets; the filter drops the second. -/
def sampleTargets : List Item :=
  [⟨"ttcp_1234567890", some 10, some 10, .target⟩, ⟨"ttcp_2345678901", some 20, some 20, .target⟩,
    ⟨"ttcp_3456789012", some 30, some 30, .target⟩]

def sampleFilter (x : Item) : Bool := x.publicId != "ttcp_2345678901"

theorem initialPhase_lists_filtered_targets :
    StoreItems sampleTargets .target ∧
      (∀ i, StoreLists sampleTargets (readStore sampleTargets (i + 1))) ∧
      [1] ≠ ([] : List UInt8) ∧ 1 ≤ 1 ∧ sampleTargets.length < 4 ∧
      ∃ resps, initialPhase [1] 1 sampleFilter (fun i => readStore sampleTargets (i + 1))
          (fun _ => 0) 4 (((sampleTargets.filter sampleFilter).length + 1 - 1) / 1 + 1) =
            some (.ok resps) ∧
        resps.length ≤ ((sampleTargets.filter sampleFilter).length + 1 - 1) / 1 + 1 ∧
        PagesCut 1 (sampleTargets.filter sampleFilter) resps ∧
        ∃ r, resps.getLast? = some r ∧
          (sampleTargets.filter sampleFilter = [] → r.listToken = none) ∧
          (sampleTargets.filter sampleFilter ≠ [] →
            ∃ tk a b, r.listToken = some tk ∧ tk.subtype = .startRefresh a b) :=
  have hS : StoreItems sampleTargets .target :=
    ⟨by decide, by decide, by decide, by decide, by decide⟩
  have hstores : ∀ i, StoreLists sampleTargets (readStore sampleTargets (i + 1)) :=
    fun i => readStore_lists sampleTargets (Nat.succ_ne_zero i)
  ⟨hS, hstores, by decide, le_refl 1, by decide,
    initialPhase_lists_filtered (fun _ => 0) hS hstores (by decide) (le_refl 1) (by decide)⟩

end Pages

end Boundary.Pagination
