import Boundary.ListToken.Token
import Boundary.Go.Control

/-!
# Paginated listing

`pagination.List`, `ListPage`, `ListRefresh` and `ListRefreshPage` serve one page
of a list endpoint. Each fetches items from the database through a callback,
filters them, and answers with a page of at most `pageSize` items and a list
token for the next request: a new one for `List`, the given one moved on by
`Transition` for the others.

The database loop of the unexported `list` runs until the page fills or the
database runs out of items; the model gives it a number of requests it may make
(`fuel`) and answers `none` when they run out.
-/

namespace Boundary.Pagination

open ListToken

/-- `ListResponse`. -/
structure ListResponse (T : Type) where
  items : List T
  completeListing : Bool
  listToken : Option Token
  deletedIds : List String
  estimatedItemCount : Nat

/-- `ListFilterFunc`. -/
abbrev ListFilterFunc (T : Type) := T → Except Error Bool

/-- `ListItemsFunc`: at most `limit` items after the previous page's last item
(from the start when nil), and the time of the listing transaction. -/
abbrev ListItemsFunc (T : Type) := Option T → Nat → Except Error (List T × Time)

/-- `EstimatedCountFunc`. -/
abbrev EstimatedCountFunc := Except Error Nat

/-- `ListDeletedIDsFunc`: the ids deleted since a time, and the time of the
listing transaction. -/
abbrev ListDeletedIDsFunc := Time → Except Error (List String × Time)

/-- The callbacks every entry point needs, once checked to be non-nil. -/
structure Callbacks (T : Type) where
  filterItemFn : ListFilterFunc T
  listItemsFn : ListItemsFunc T
  estimatedCountFn : EstimatedCountFunc

variable {T : Type}

/-! ## The database loop -/

/-- The loop over one page from the database: keep the items the filter accepts,
stopping once `limit` are kept (`break dbLoop`). Returns the kept items and
whether they filled up. -/
def filterPage (filterItemFn : ListFilterFunc T) (limit : Nat) :
    List T → List T → Except Error (List T × Bool)
  | items, [] => .ok (items, false)
  | items, item :: page => do
    let ok ← filterItemFn item
    if ok then
      let items := items ++ [item]
      if items.length = limit then pure (items, true)
      else filterPage filterItemFn limit items page
    else filterPage filterItemFn limit items page

/-- `dbLoop`, making at most `fuel` more requests to the database. The loop
variables are the last item of the previous database page, the time of the first
listing, and the items kept so far. -/
def dbLoop (filterItemFn : ListFilterFunc T) (listItemsFn : ListItemsFunc T) (limit : Nat) :
    Nat → Option T → Time → List T → Option (Except Error (List T × Time))
  | 0, _, _, _ => none
  | fuel + 1, lastItem, firstListTime, items =>
    match listItemsFn lastItem limit with
    | .error e => some (.error e)
    | .ok (page, listTime) =>
      -- only the first listing's time is kept
      let firstListTime := if firstListTime = 0 then listTime else firstListTime
      match filterPage filterItemFn limit items page with
      | .error e => some (.error e)
      | .ok (items, true) => some (.ok (items, firstListTime))
      | .ok (items, false) =>
        if page.length < limit then some (.ok (items, firstListTime))
        else dbLoop filterItemFn listItemsFn limit fuel page.getLast? firstListTime items

/-- The times the store answers the calls of `dbLoop`, in order: the loop's
calls, made until it stops as `dbLoop` does. -/
def dbLoopTimes (filterItemFn : ListFilterFunc T) (listItemsFn : ListItemsFunc T) (limit : Nat) :
    Nat → Option T → List T → List Time
  | 0, _, _ => []
  | fuel + 1, lastItem, items =>
    match listItemsFn lastItem limit with
    | .error _ => []
    | .ok (page, listTime) =>
      listTime :: match filterPage filterItemFn limit items page with
        | .error _ => []
        | .ok (_, true) => []
        | .ok (items, false) =>
          if page.length < limit then []
          else dbLoopTimes filterItemFn listItemsFn limit fuel page.getLast? items

/-- The first of the times that is not the zero time, or the zero time. -/
def firstNonzero (times : List Time) : Time :=
  (times.find? (· ≠ 0)).getD 0

/-- The unexported `list`: fetch one more item than the page holds, to learn
whether the listing is complete, then drop it. -/
def fetchItems (pageSize : Nat) (filterItemFn : ListFilterFunc T)
    (listItemsFn : ListItemsFunc T) (fuel : Nat) : Option (Except Error (List T × Bool × Time)) :=
  let limit := pageSize + 1
  (dbLoop filterItemFn listItemsFn limit fuel none 0 []).map fun r =>
    r.map fun (items, firstListTime) =>
      let completeListing := decide (items.length < limit)
      ((if completeListing then items else items.take pageSize), completeListing, firstListTime)

/-! ## What one page is made of -/

section Specs

open GoControl

variable {filterItemFn : ListFilterFunc T} {listItemsFn : ListItemsFunc T} {limit : Nat}

/-- An item the database returned for some request. -/
def Listed (listItemsFn : ListItemsFunc T) (x : T) : Prop :=
  ∃ cursor n page t, listItemsFn cursor n = .ok (page, t) ∧ x ∈ page

/-- A time of some listing transaction. -/
def ListingTime (listItemsFn : ListItemsFunc T) (t : Time) : Prop :=
  ∃ cursor n page, listItemsFn cursor n = .ok (page, t)

/-- The items the inner loop keeps come from the page or were kept before. -/
theorem filterPage_mem {acc page items : List T} {full : Bool}
    (h : filterPage filterItemFn limit acc page = .ok (items, full)) :
    ∀ x ∈ items, x ∈ acc ∨ x ∈ page := by
  induction page generalizing acc with
  | nil =>
    simp only [filterPage, Except.ok.injEq, Prod.mk.injEq] at h
    obtain ⟨rfl, rfl⟩ := h
    exact fun x hx => .inl hx
  | cons item page ih =>
    simp only [filterPage] at h
    obtain ⟨ok, -, h⟩ := bind_eq_ok.mp h
    -- what the rest of the page keeps comes from it or from `acc` and `item`
    have hrest : ∀ acc', (∀ x ∈ acc', x ∈ acc ∨ x = item) →
        filterPage filterItemFn limit acc' page = .ok (items, full) →
        ∀ x ∈ items, x ∈ acc ∨ x ∈ item :: page := by
      intro acc' hmem h' x hx
      rcases ih h' x hx with hx | hx
      · rcases hmem x hx with hx | rfl
        · exact .inl hx
        · exact .inr List.mem_cons_self
      · exact .inr (List.mem_cons_of_mem item hx)
    cases ok
    · exact hrest acc (fun x hx => .inl hx) h
    · simp only [if_true] at h
      split at h
      · simp only [pure, Except.pure, Except.ok.injEq, Prod.mk.injEq] at h
        obtain ⟨rfl, rfl⟩ := h
        intro x hx
        rcases List.mem_append.mp hx with hx | hx
        · exact .inl hx
        · exact .inr (by simp_all)
      · exact hrest _ (fun x hx => by simpa using hx) h

/-- The items the inner loop keeps come from the page or were kept before, and
they fill up exactly when it breaks out. -/
theorem filterPage_spec {acc page items : List T} {full : Bool} (hacc : acc.length < limit)
    (h : filterPage filterItemFn limit acc page = .ok (items, full)) :
    (∀ x ∈ items, x ∈ acc ∨ x ∈ page) ∧ (full = true → items.length = limit) ∧
      (full = false → items.length < limit) := by
  induction page generalizing acc with
  | nil =>
    simp only [filterPage, Except.ok.injEq, Prod.mk.injEq] at h
    obtain ⟨rfl, rfl⟩ := h
    exact ⟨fun x hx => .inl hx, fun h => (nomatch h), fun _ => hacc⟩
  | cons item page ih =>
    simp only [filterPage] at h
    obtain ⟨ok, -, h⟩ := bind_eq_ok.mp h
    -- the item is kept or not; a kept item may fill the page
    have hrest : ∀ acc', acc'.length < limit → (∀ x ∈ acc', x ∈ acc ∨ x = item) →
        filterPage filterItemFn limit acc' page = .ok (items, full) →
        (∀ x ∈ items, x ∈ acc ∨ x ∈ item :: page) ∧ (full = true → items.length = limit) ∧
          (full = false → items.length < limit) := by
      intro acc' hlen hmem h'
      obtain ⟨hitems, hfull, hnot⟩ := ih hlen h'
      refine ⟨fun x hx => ?_, hfull, hnot⟩
      rcases hitems x hx with hx | hx
      · rcases hmem x hx with hx | rfl
        · exact .inl hx
        · exact .inr List.mem_cons_self
      · exact .inr (List.mem_cons_of_mem item hx)
    cases ok
    · exact hrest acc hacc (fun x hx => .inl hx) h
    · simp only [if_true] at h
      split at h
      · rename_i hlen
        simp only [pure, Except.pure, Except.ok.injEq, Prod.mk.injEq] at h
        obtain ⟨rfl, rfl⟩ := h
        refine ⟨fun x hx => ?_, fun _ => hlen, fun h => nomatch h⟩
        rcases List.mem_append.mp hx with hx | hx
        · exact .inl hx
        · exact .inr (by simp_all)
      · rename_i hlen
        have hlt : (acc ++ [item]).length < limit := by
          simp only [List.length_append, List.length_singleton] at hlen ⊢
          omega
        exact hrest _ hlt (fun x hx => by simpa using hx) h

/-- The items the database loop returns come from the database or were kept
before it started; its time is the non-zero one it started with or a listing's. -/
theorem dbLoop_spec {fuel : Nat} {lastItem : Option T} {t0 : Time} {acc items : List T}
    {t : Time} (hacc : acc.length < limit)
    (h : dbLoop filterItemFn listItemsFn limit fuel lastItem t0 acc = some (.ok (items, t))) :
    (∀ x ∈ items, x ∈ acc ∨ Listed listItemsFn x) ∧
      (t = t0 ∧ t0 ≠ 0 ∨ ListingTime listItemsFn t) ∧ items.length ≤ limit := by
  induction fuel generalizing lastItem t0 acc with
  | zero => simp [dbLoop] at h
  | succ fuel ih =>
    simp only [dbLoop] at h
    split at h
    · cases h
    · rename_i page listTime hlist
      -- the kept items come from this page, the time is this listing's or the old one
      have htime : (if t0 = 0 then listTime else t0) = t0 ∧ t0 ≠ 0 ∨
          ListingTime listItemsFn (if t0 = 0 then listTime else t0) := by
        split
        · exact .inr ⟨lastItem, limit, page, hlist⟩
        · exact .inl ⟨rfl, ‹_›⟩
      have hfrom : ∀ x, x ∈ page → Listed listItemsFn x :=
        fun x hx => ⟨lastItem, limit, page, listTime, hlist, hx⟩
      split at h
      · cases h
      · rename_i items' hfilter
        simp only [Option.some.injEq, Except.ok.injEq, Prod.mk.injEq] at h
        obtain ⟨rfl, rfl⟩ := h
        obtain ⟨hmem, hfull, -⟩ := filterPage_spec hacc hfilter
        refine ⟨fun x hx => (hmem x hx).imp_right (hfrom x), htime, (hfull rfl).le⟩
      · rename_i items' hfilter
        obtain ⟨hmem, -, hnot⟩ := filterPage_spec hacc hfilter
        split at h
        · simp only [Option.some.injEq, Except.ok.injEq, Prod.mk.injEq] at h
          obtain ⟨rfl, rfl⟩ := h
          exact ⟨fun x hx => (hmem x hx).imp_right (hfrom x), htime, (hnot rfl).le⟩
        · obtain ⟨hmem', htime', hlen⟩ := ih (hnot rfl) h
          refine ⟨fun x hx => ?_, ?_, hlen⟩
          · rcases hmem' x hx with hx | hx
            · exact (hmem x hx).imp_right (hfrom x)
            · exact .inr hx
          · rcases htime' with ⟨rfl, -⟩ | ht
            · exact htime
            · exact .inr ht

@[simp] theorem firstNonzero_singleton (a : Time) : firstNonzero [a] = a := by
  by_cases ha : a = 0 <;> simp [firstNonzero, ha]

@[simp] theorem firstNonzero_zero_cons (l : List Time) : firstNonzero (0 :: l) = firstNonzero l := by
  simp [firstNonzero]

/-- Keeping the first time unless it is zero folds the first two times into one. -/
theorem firstNonzero_cons_cons (a b : Time) (l : List Time) :
    firstNonzero (a :: b :: l) = firstNonzero ((if a = 0 then b else a) :: l) := by
  by_cases ha : a = 0 <;> simp [firstNonzero, ha]

/-- **The time of the database loop** is the first of the time it started from
and the times the store answered that is not zero. -/
theorem dbLoop_time {fuel : Nat} {lastItem : Option T} {t0 : Time} {acc items : List T} {t : Time}
    (h : dbLoop filterItemFn listItemsFn limit fuel lastItem t0 acc = some (.ok (items, t))) :
    t = firstNonzero (t0 :: dbLoopTimes filterItemFn listItemsFn limit fuel lastItem acc) := by
  induction fuel generalizing lastItem t0 acc with
  | zero => simp [dbLoop] at h
  | succ fuel ih =>
    simp only [dbLoop] at h
    split at h
    · cases h
    · rename_i page listTime hlist
      -- the call's time is folded into the one the loop carries on with
      simp only [dbLoopTimes, hlist, firstNonzero_cons_cons]
      -- splitting on the page splits the trace with it
      split at h
      · cases h
      · simp only [Option.some.injEq, Except.ok.injEq, Prod.mk.injEq] at h
        obtain ⟨-, rfl⟩ := h
        rw [firstNonzero_singleton]
      · split at h
        · rename_i hshort
          simp only [Option.some.injEq, Except.ok.injEq, Prod.mk.injEq] at h
          obtain ⟨-, rfl⟩ := h
          rw [if_pos hshort, firstNonzero_singleton]
        · rename_i hshort
          rw [if_neg hshort]
          exact ih h

/-- What the unexported `list` did when it answers: the database loop's items, cut
to the page when they are not complete. -/
theorem fetchItems_eq_some_ok {pageSize fuel : Nat} {items : List T} {completeListing : Bool}
    {listTime : Time}
    (h : fetchItems pageSize filterItemFn listItemsFn fuel =
      some (.ok (items, completeListing, listTime))) :
    ∃ raw, dbLoop filterItemFn listItemsFn (pageSize + 1) fuel none 0 [] =
        some (.ok (raw, listTime)) ∧
      completeListing = decide (raw.length < pageSize + 1) ∧
      items = if completeListing then raw else raw.take pageSize := by
  dsimp only [fetchItems] at h
  cases hloop : dbLoop filterItemFn listItemsFn (pageSize + 1) fuel none 0 [] with
  | none => rw [hloop] at h; cases h
  | some r =>
    rw [hloop] at h
    cases r with
    | error e => cases h
    | ok res =>
      obtain ⟨raw, t⟩ := res
      simp only [Option.map_some, map_ok, Option.some.injEq, Except.ok.injEq,
        Prod.mk.injEq] at h
      obtain ⟨hitems, hcomplete, rfl⟩ := h
      exact ⟨raw, rfl, hcomplete.symm, by rw [← hitems, hcomplete]⟩

/-- What one call of the unexported `list` returns: items from the database, a
page that is not complete holding exactly `pageSize` of them, and the time of a
listing. -/
theorem fetchItems_spec {pageSize fuel : Nat} {items : List T} {completeListing : Bool}
    {listTime : Time}
    (h : fetchItems pageSize filterItemFn listItemsFn fuel =
      some (.ok (items, completeListing, listTime))) :
    (∀ x ∈ items, Listed listItemsFn x) ∧ ListingTime listItemsFn listTime ∧
      (completeListing = false → items.length = pageSize) := by
  obtain ⟨raw, hloop, hcomplete, hitems⟩ := fetchItems_eq_some_ok h
  obtain ⟨hmem, htime, hlen⟩ := dbLoop_spec (by simp) hloop
  refine ⟨fun x hx => ?_, htime.resolve_left fun h => h.2 rfl, fun hc => ?_⟩
  · have hraw : x ∈ raw := by
      rw [hitems] at hx
      split at hx
      · exact hx
      · exact List.mem_of_mem_take hx
    simpa using hmem x hraw
  · rw [hitems, hc]
    rw [hc, eq_comm, decide_eq_false_iff_not, not_lt] at hcomplete
    simp only [Bool.false_eq_true, if_false, List.length_take]
    omega

/-- The time the unexported `list` answers is the first time the store answered
that is not zero. -/
theorem fetchItems_time {pageSize fuel : Nat} {items : List T} {completeListing : Bool}
    {listTime : Time}
    (h : fetchItems pageSize filterItemFn listItemsFn fuel =
      some (.ok (items, completeListing, listTime))) :
    listTime = firstNonzero (dbLoopTimes filterItemFn listItemsFn (pageSize + 1) fuel none []) := by
  obtain ⟨raw, hloop, -, -⟩ := fetchItems_eq_some_ok h
  rw [dbLoop_time hloop, firstNonzero_zero_cons]

end Specs

/-! ## Responses -/

variable [Resource T]

/-- The token `buildListResp` creates: none without items; for a complete
listing a start-refresh token; otherwise a pagination token at the last item. -/
def newListToken (grantsHash : List UInt8) (items : List T) (completeListing : Bool)
    (listTime : Time) : Except Error (Option Token) :=
  match items.getLast? with
  | none => .ok none
  | some lastItem =>
    if completeListing then
      -- the list time is the token's create time and the start of the next phase
      (newStartRefresh listTime (Resource.resourceType lastItem) grantsHash listTime listTime).map
        some
    else
      (newPagination listTime (Resource.resourceType lastItem) grantsHash
        (Resource.publicId lastItem) (Resource.createTime lastItem)).map some

/-- `buildListResp`: the response to `List`; the estimated count is the number of
items for a complete listing and the callback's estimate otherwise. -/
def buildListResp (grantsHash : List UInt8) (items : List T) (completeListing : Bool)
    (listTime : Time) (estimatedCountFn : EstimatedCountFunc) : Except Error (ListResponse T) := do
  let listToken ← newListToken grantsHash items completeListing listTime
  let estimatedItemCount ←
    (if completeListing then pure items.length else estimatedCountFn : Except Error Nat)
  pure ⟨items, completeListing, listToken, [], estimatedItemCount⟩

/-- `buildListPageResp`: the response to the other entry points, with the given
token moved on by `Transition`. -/
def buildListPageResp (completeListing : Bool) (deletedIds : List String) (deletedIdsTime : Time)
    (items : List T) (listTime : Time) (tok : Token) (estimatedCountFn : EstimatedCountFunc) :
    Except Error (ListResponse T) := do
  let count ← estimatedCountFn
  let tok ← tok.transition completeListing items.getLast? deletedIdsTime listTime
  pure ⟨items, completeListing, some tok, deletedIds, count⟩

/-! ## Entry points -/

/-- The validation the four entry points start with. -/
def validateCommon (grantsHash : List UInt8) (pageSize : Nat)
    (filterItemFn : Option (ListFilterFunc T)) (listItemsFn : Option (ListItemsFunc T))
    (estimatedCountFn : Option EstimatedCountFunc) : Except Error (Callbacks T) :=
  if grantsHash.isEmpty then .error (.new .invalidParameter "missing grants hash")
  else if pageSize < 1 then .error (.new .invalidParameter "page size must be at least 1")
  else
    match filterItemFn, listItemsFn, estimatedCountFn with
    | none, _, _ => .error (.new .invalidParameter "missing filter item callback")
    | some _, none, _ => .error (.new .invalidParameter "missing list items callback")
    | some _, some _, none => .error (.new .invalidParameter "missing estimated count callback")
    | some filterItemFn, some listItemsFn, some estimatedCountFn =>
      .ok ⟨filterItemFn, listItemsFn, estimatedCountFn⟩

/-- `List`. -/
def list (grantsHash : List UInt8) (pageSize : Nat) (filterItemFn : Option (ListFilterFunc T))
    (listItemsFn : Option (ListItemsFunc T)) (estimatedCountFn : Option EstimatedCountFunc)
    (fuel : Nat) : Option (Except Error (ListResponse T)) :=
  match validateCommon grantsHash pageSize filterItemFn listItemsFn estimatedCountFn with
  | .error e => some (.error e)
  | .ok cb =>
    (fetchItems pageSize cb.filterItemFn cb.listItemsFn fuel).map fun r => do
      let (items, completeListing, listTime) ← r
      buildListResp grantsHash items completeListing listTime cb.estimatedCountFn

/-- `ListPage`. -/
def listPage (grantsHash : List UInt8) (pageSize : Nat) (filterItemFn : Option (ListFilterFunc T))
    (listItemsFn : Option (ListItemsFunc T)) (estimatedCountFn : Option EstimatedCountFunc)
    (tok : Option Token) (fuel : Nat) : Option (Except Error (ListResponse T)) :=
  match validateCommon grantsHash pageSize filterItemFn listItemsFn estimatedCountFn, tok with
  | .error e, _ => some (.error e)
  | .ok _, none => some (.error (.new .invalidParameter "missing list token"))
  | .ok cb, some tok =>
    match tok.subtype with
    | .pagination _ _ =>
      (fetchItems pageSize cb.filterItemFn cb.listItemsFn fuel).map fun r => do
        let (items, completeListing, listTime) ← r
        -- no deleted ids and the zero time for them
        buildListPageResp completeListing [] 0 items listTime tok cb.estimatedCountFn
    | _ =>
      some (.error (.new .invalidParameter "token did not have a pagination token component"))

/-- The body `ListRefresh` and `ListRefreshPage` share. They differ only in the
token subtype they accept, given by the time since which it asks for deleted
ids, and in the message for another subtype. -/
def listRefreshFor (deletedIdsSince : TokenSubtype → Option Time) (wrongSubtype : String)
    (grantsHash : List UInt8) (pageSize : Nat) (filterItemFn : Option (ListFilterFunc T))
    (listItemsFn : Option (ListItemsFunc T)) (estimatedCountFn : Option EstimatedCountFunc)
    (listDeletedIDsFn : Option ListDeletedIDsFunc) (tok : Option Token) (fuel : Nat) :
    Option (Except Error (ListResponse T)) :=
  match validateCommon grantsHash pageSize filterItemFn listItemsFn estimatedCountFn,
    listDeletedIDsFn, tok with
  | .error e, _, _ => some (.error e)
  | .ok _, none, _ => some (.error (.new .invalidParameter "missing list deleted IDs callback"))
  | .ok _, some _, none => some (.error (.new .invalidParameter "missing list token"))
  | .ok cb, some listDeletedIDsFn, some tok =>
    match deletedIdsSince tok.subtype with
    | none => some (.error (.new .invalidParameter wrongSubtype))
    | some previousDeletedIdsTime =>
      match listDeletedIDsFn previousDeletedIdsTime with
      | .error e => some (.error e)
      | .ok (deletedIds, deletedIdsTime) =>
        (fetchItems pageSize cb.filterItemFn cb.listItemsFn fuel).map fun r => do
          let (items, completeListing, listTime) ← r
          buildListPageResp completeListing deletedIds deletedIdsTime items listTime tok
            cb.estimatedCountFn

/-- `ListRefresh`: for a start-refresh token. -/
def listRefresh (grantsHash : List UInt8) (pageSize : Nat) (filterItemFn : Option (ListFilterFunc T))
    (listItemsFn : Option (ListItemsFunc T)) (estimatedCountFn : Option EstimatedCountFunc)
    (listDeletedIDsFn : Option ListDeletedIDsFunc) (tok : Option Token) (fuel : Nat) :
    Option (Except Error (ListResponse T)) :=
  listRefreshFor
    (fun | .startRefresh _ previousDeletedIdsTime => some previousDeletedIdsTime | _ => none)
    "token did not have a start-refresh token component"
    grantsHash pageSize filterItemFn listItemsFn estimatedCountFn listDeletedIDsFn tok fuel

/-- `ListRefreshPage`: for a refresh token. -/
def listRefreshPage (grantsHash : List UInt8) (pageSize : Nat)
    (filterItemFn : Option (ListFilterFunc T)) (listItemsFn : Option (ListItemsFunc T))
    (estimatedCountFn : Option EstimatedCountFunc) (listDeletedIDsFn : Option ListDeletedIDsFunc)
    (tok : Option Token) (fuel : Nat) : Option (Except Error (ListResponse T)) :=
  listRefreshFor
    (fun | .refresh _ _ previousDeletedIdsTime _ _ => some previousDeletedIdsTime | _ => none)
    "token did not have a refresh token component"
    grantsHash pageSize filterItemFn listItemsFn estimatedCountFn listDeletedIDsFn tok fuel

/-! ## Inversion of the entry points -/

section Inversion

open GoControl

variable {grantsHash : List UInt8} {pageSize fuel : Nat}
  {filterItemFn : Option (ListFilterFunc T)} {listItemsFn : Option (ListItemsFunc T)}
  {estimatedCountFn : Option EstimatedCountFunc} {resp : ListResponse T}

omit [Resource T] in
theorem validateCommon_eq_ok {cb : Callbacks T} :
    validateCommon grantsHash pageSize filterItemFn listItemsFn estimatedCountFn = .ok cb ↔
      grantsHash ≠ [] ∧ 1 ≤ pageSize ∧ filterItemFn = some cb.filterItemFn ∧
        listItemsFn = some cb.listItemsFn ∧ estimatedCountFn = some cb.estimatedCountFn := by
  unfold validateCommon
  by_cases hgh : grantsHash.isEmpty = true
  · simp only [hgh, if_true, reduceCtorEq, false_iff, not_and]
    intro hne
    exact absurd (List.isEmpty_iff.mp hgh) hne
  · have hne : grantsHash ≠ [] := fun h => hgh (List.isEmpty_iff.mpr h)
    simp only [hgh, Bool.false_eq_true, if_false, hne, ne_eq, not_false_eq_true, true_and]
    by_cases hps : pageSize < 1
    · simp only [hps, if_true, reduceCtorEq, false_iff, not_and]
      intro h
      omega
    · simp only [hps, if_false]
      have h1 : 1 ≤ pageSize := by omega
      simp only [h1, true_and]
      cases filterItemFn <;> cases listItemsFn <;> cases estimatedCountFn <;>
        simp only [reduceCtorEq, false_and, and_false, Except.ok.injEq, Option.some.injEq]
      constructor
      · rintro rfl
        exact ⟨rfl, rfl, rfl⟩
      · rintro ⟨h1, h2, h3⟩
        cases cb
        simp_all

/-- `buildListPageResp` answers with the given token moved on by `Transition`. -/
theorem buildListPageResp_eq_ok {completeListing : Bool} {deletedIds : List String}
    {deletedIdsTime listTime : Time} {items : List T} {tok : Token}
    {estimatedCountFn : EstimatedCountFunc}
    (h : buildListPageResp completeListing deletedIds deletedIdsTime items listTime tok
      estimatedCountFn = .ok resp) :
    ∃ tk, tok.transition completeListing items.getLast? deletedIdsTime listTime = .ok tk ∧
      resp.listToken = some tk ∧ resp.items = items ∧ resp.completeListing = completeListing := by
  unfold buildListPageResp at h
  obtain ⟨count, -, h⟩ := bind_eq_ok.mp h
  obtain ⟨tk, htk, h⟩ := bind_eq_ok.mp h
  cases h
  exact ⟨tk, htk, rfl, rfl, rfl⟩

/-- The token of `List`'s answer: none for no items, and otherwise a
start-refresh token for a complete listing and a pagination token at the last
item for another, created at the listing time. -/
theorem newListToken_eq_ok {items : List T} {completeListing : Bool} {listTime : Time}
    {listToken : Option Token}
    (h : newListToken grantsHash items completeListing listTime = .ok listToken) :
    (listToken = none ↔ items = []) ∧
      ∀ tk, listToken = some tk → ∃ x, items.getLast? = some x ∧
        tk.createTime = listTime ∧ tk.resourceType = Resource.resourceType x ∧
        tk.grantsHash = grantsHash ∧ listTime ≠ 0 ∧
        tk.subtype = if completeListing then .startRefresh listTime listTime
          else .pagination (Resource.publicId x) (Resource.createTime x) := by
  unfold newListToken at h
  cases hx : items.getLast? with
  | none =>
    rw [hx] at h
    cases h
    exact ⟨by simpa using hx, fun tk htk => (nomatch htk)⟩
  | some x =>
    have hne : items ≠ [] := fun h => by simp [h] at hx
    simp only [hx] at h
    -- both constructors give a token at the list time; only the subtype differs
    have hmk : ∀ (checks : List (Bool × String)) (subtype : TokenSubtype),
        (newToken listTime (Resource.resourceType x) grantsHash checks subtype).map some =
          Except.ok listToken →
        (listToken = none ↔ items = []) ∧ ∀ tk, listToken = some tk →
          tk.createTime = listTime ∧ tk.resourceType = Resource.resourceType x ∧
          tk.grantsHash = grantsHash ∧ listTime ≠ 0 ∧ tk.subtype = subtype := by
      intro checks subtype hnew
      cases htok : newToken listTime (Resource.resourceType x) grantsHash checks subtype with
      | error e => rw [htok] at hnew; cases hnew
      | ok tk =>
        rw [htok] at hnew
        cases hnew
        obtain ⟨⟨hct, -, -, -⟩, rfl⟩ := newToken_eq_ok.mp htok
        exact ⟨by simpa using hne, fun tk' htk' => by cases htk'; exact ⟨rfl, rfl, rfl, hct, rfl⟩⟩
    split at h
    · rename_i hc
      obtain ⟨hnone, hsome⟩ := hmk _ _ h
      refine ⟨hnone, fun tk htk => ⟨x, rfl, ?_⟩⟩
      rw [if_pos hc]
      exact hsome tk htk
    · rename_i hc
      obtain ⟨hnone, hsome⟩ := hmk _ _ h
      refine ⟨hnone, fun tk htk => ⟨x, rfl, ?_⟩⟩
      rw [if_neg hc]
      exact hsome tk htk

/-- The token `newListToken` makes for a non-empty page whose last item has an id,
a create time and a resource type, at a set list time. -/
theorem newListToken_of_getLast {items : List T} {x : T} (hx : items.getLast? = some x)
    (hgh : grantsHash ≠ []) {listTime : Time} (ht : listTime ≠ 0)
    (hid : Resource.publicId x ≠ "") (hct : Resource.createTime x ≠ 0)
    (htyp : Resource.resourceType x ≠ .unknown) (completeListing : Bool) :
    newListToken grantsHash items completeListing listTime =
      .ok (some ⟨listTime, Resource.resourceType x, grantsHash,
        if completeListing then .startRefresh listTime listTime
        else .pagination (Resource.publicId x) (Resource.createTime x)⟩) := by
  unfold newListToken
  rw [hx]
  cases completeListing with
  | true =>
    simp only [if_true, newStartRefresh]
    rw [newToken_eq_ok.mpr ⟨⟨ht, htyp, hgh, ?_⟩, rfl⟩, map_ok]
    simpa using ht
  | false =>
    simp only [Bool.false_eq_true, if_false, newPagination]
    rw [newToken_eq_ok.mpr ⟨⟨ht, htyp, hgh, ?_⟩, rfl⟩, map_ok]
    simpa using ⟨hid, hct⟩

theorem buildListResp_eq_ok {items : List T} {completeListing : Bool} {listTime : Time}
    {estimatedCountFn : EstimatedCountFunc}
    (h : buildListResp grantsHash items completeListing listTime estimatedCountFn = .ok resp) :
    resp.items = items ∧ resp.completeListing = completeListing ∧
      newListToken grantsHash items completeListing listTime = .ok resp.listToken := by
  unfold buildListResp at h
  obtain ⟨listToken, htok, h⟩ := bind_eq_ok.mp h
  obtain ⟨count, -, h⟩ := bind_eq_ok.mp h
  cases h
  exact ⟨rfl, rfl, htok⟩

/-- `buildListResp` with an estimate that does not fail. -/
theorem buildListResp_ok (items : List T) (completeListing : Bool) (listTime : Time)
    (count : Nat) :
    buildListResp grantsHash items completeListing listTime (.ok count) =
      (newListToken grantsHash items completeListing listTime).map fun listToken =>
        ⟨items, completeListing, listToken, [], if completeListing then items.length else count⟩ := by
  unfold buildListResp
  cases newListToken grantsHash items completeListing listTime with
  | error e => rfl
  | ok listToken => cases completeListing <;> rfl

/-- `buildListPageResp` with an estimate that does not fail. -/
theorem buildListPageResp_ok (completeListing : Bool) (deletedIds : List String)
    (deletedIdsTime : Time) (items : List T) (listTime : Time) (tok : Token) (count : Nat) :
    buildListPageResp completeListing deletedIds deletedIdsTime items listTime tok (.ok count) =
      (tok.transition completeListing items.getLast? deletedIdsTime listTime).map fun tk =>
        ⟨items, completeListing, some tk, deletedIds, count⟩ := by
  unfold buildListPageResp
  cases tok.transition completeListing items.getLast? deletedIdsTime listTime <;> rfl

/-- What `List` did when it answers. -/
theorem list_eq_some_ok
    (h : list grantsHash pageSize filterItemFn listItemsFn estimatedCountFn fuel =
      some (.ok resp)) :
    ∃ cb, validateCommon grantsHash pageSize filterItemFn listItemsFn estimatedCountFn = .ok cb ∧
      ∃ items completeListing listTime,
        fetchItems pageSize cb.filterItemFn cb.listItemsFn fuel =
          some (.ok (items, completeListing, listTime)) ∧
        buildListResp grantsHash items completeListing listTime cb.estimatedCountFn = .ok resp := by
  unfold list at h
  split at h
  · cases h
  · rename_i cb hcb
    refine ⟨cb, hcb, ?_⟩
    cases hfetch : fetchItems pageSize cb.filterItemFn cb.listItemsFn fuel with
    | none => rw [hfetch] at h; cases h
    | some r =>
      rw [hfetch] at h
      cases r with
      | error e => cases h
      | ok res =>
        obtain ⟨items, completeListing, listTime⟩ := res
        exact ⟨items, completeListing, listTime, rfl, Option.some.inj h⟩

/-- What `ListPage` did when it answers. -/
theorem listPage_eq_some_ok {tok : Option Token}
    (h : listPage grantsHash pageSize filterItemFn listItemsFn estimatedCountFn tok fuel =
      some (.ok resp)) :
    ∃ cb, validateCommon grantsHash pageSize filterItemFn listItemsFn estimatedCountFn = .ok cb ∧
      ∃ tk lastItemId lastItemCreateTime, tok = some tk ∧
        tk.subtype = .pagination lastItemId lastItemCreateTime ∧
        ∃ items completeListing listTime,
          fetchItems pageSize cb.filterItemFn cb.listItemsFn fuel =
            some (.ok (items, completeListing, listTime)) ∧
          buildListPageResp completeListing [] 0 items listTime tk cb.estimatedCountFn =
            .ok resp := by
  unfold listPage at h
  split at h
  · cases h
  · cases h
  · rename_i cb tk hcb
    refine ⟨cb, hcb, tk, ?_⟩
    split at h
    · rename_i lastItemId lastItemCreateTime hsub
      refine ⟨lastItemId, lastItemCreateTime, rfl, hsub, ?_⟩
      cases hfetch : fetchItems pageSize cb.filterItemFn cb.listItemsFn fuel with
      | none => rw [hfetch] at h; cases h
      | some r =>
        rw [hfetch] at h
        cases r with
        | error e => cases h
        | ok res =>
          obtain ⟨items, completeListing, listTime⟩ := res
          exact ⟨items, completeListing, listTime, rfl, Option.some.inj h⟩
    · cases h

/-- What `ListRefresh` and `ListRefreshPage` did when they answer. -/
theorem listRefreshFor_eq_some_ok {deletedIdsSince : TokenSubtype → Option Time}
    {wrongSubtype : String} {listDeletedIDsFn : Option ListDeletedIDsFunc} {tok : Option Token}
    (h : listRefreshFor deletedIdsSince wrongSubtype grantsHash pageSize filterItemFn listItemsFn
      estimatedCountFn listDeletedIDsFn tok fuel = some (.ok resp)) :
    ∃ cb, validateCommon grantsHash pageSize filterItemFn listItemsFn estimatedCountFn = .ok cb ∧
      ∃ deletedFn tk since, listDeletedIDsFn = some deletedFn ∧ tok = some tk ∧
        deletedIdsSince tk.subtype = some since ∧
        ∃ deletedIds deletedIdsTime, deletedFn since = .ok (deletedIds, deletedIdsTime) ∧
        ∃ items completeListing listTime,
          fetchItems pageSize cb.filterItemFn cb.listItemsFn fuel =
            some (.ok (items, completeListing, listTime)) ∧
          buildListPageResp completeListing deletedIds deletedIdsTime items listTime tk
            cb.estimatedCountFn = .ok resp := by
  unfold listRefreshFor at h
  split at h
  · cases h
  · cases h
  · cases h
  · rename_i cb deletedFn tk hcb
    refine ⟨cb, hcb, deletedFn, tk, ?_⟩
    split at h
    · cases h
    · rename_i since hsince
      refine ⟨since, rfl, rfl, hsince, ?_⟩
      split at h
      · cases h
      · rename_i deletedIds deletedIdsTime hdel
        refine ⟨deletedIds, deletedIdsTime, hdel, ?_⟩
        cases hfetch : fetchItems pageSize cb.filterItemFn cb.listItemsFn fuel with
        | none => rw [hfetch] at h; cases h
        | some r =>
          rw [hfetch] at h
          cases r with
          | error e => cases h
          | ok res =>
            obtain ⟨items, completeListing, listTime⟩ := res
            exact ⟨items, completeListing, listTime, rfl, Option.some.inj h⟩

end Inversion

end Boundary.Pagination
