import Boundary.Pagination.List

/-!
# Runs of the list token state machine

A client lists a resource with `List`, then goes on with `ListPage`,
`ListRefresh` and `ListRefreshPage`, each request given the token of the
response before it. The services build a request's items callback from its
token: without a previous database page, the listing resumes after the token's
last item.

The main result: when the database answers the requests of a run at times that
do not go back, in descending create time after the cursor, with items of the
listed type that have ids, every token of the run passes `Validate` until it
expires, and keeps the first token's create time, type and grants hash.
-/

namespace Boundary.Pagination

open ListToken GoControl

variable {T : Type} [Resource T]

/-! ## Runs -/

/-- The entry points a listing goes on with. -/
inductive Entry where
  | listPage
  | listRefresh
  | listRefreshPage
  deriving DecidableEq, Repr

/-- A request after `List`: its entry point and the arguments the service passes,
the items callback built from the request's token. -/
structure Request (T : Type) where
  entry : Entry
  pageSize : Nat
  filterItemFn : ListFilterFunc T
  listItemsFn : Token → ListItemsFunc T
  estimatedCountFn : EstimatedCountFunc
  listDeletedIDsFn : ListDeletedIDsFunc

/-- The response to a request given a token. -/
def Request.serve (grantsHash : List UInt8) (fuel : Nat) (req : Request T) (tok : Token) :
    Option (Except Error (ListResponse T)) :=
  match req.entry with
  | .listPage =>
    listPage grantsHash req.pageSize (some req.filterItemFn) (some (req.listItemsFn tok))
      (some req.estimatedCountFn) (some tok) fuel
  | .listRefresh =>
    listRefresh grantsHash req.pageSize (some req.filterItemFn) (some (req.listItemsFn tok))
      (some req.estimatedCountFn) (some req.listDeletedIDsFn) (some tok) fuel
  | .listRefreshPage =>
    listRefreshPage grantsHash req.pageSize (some req.filterItemFn)
      (some (req.listItemsFn tok)) (some req.estimatedCountFn) (some req.listDeletedIDsFn)
      (some tok) fuel

/-- The responses to requests each given the token of the response before it,
up to the first request that fails. -/
def runFrom (grantsHash : List UInt8) (fuel : Nat) :
    Token → List (Request T) → List (ListResponse T)
  | _, [] => []
  | tok, req :: reqs =>
    match req.serve grantsHash fuel tok with
    | some (.ok resp) =>
      match resp.listToken with
      | some tok' => resp :: runFrom grantsHash fuel tok' reqs
      | none => [resp]
    | _ => []

/-- A run: `List`, then the requests. -/
def run (grantsHash : List UInt8) (fuel pageSize : Nat) (filterItemFn : ListFilterFunc T)
    (listItemsFn : ListItemsFunc T) (estimatedCountFn : EstimatedCountFunc)
    (reqs : List (Request T)) : List (ListResponse T) :=
  match list grantsHash pageSize (some filterItemFn) (some listItemsFn) (some estimatedCountFn)
      fuel with
  | some (.ok resp) =>
    match resp.listToken with
    | some tok => resp :: runFrom grantsHash fuel tok reqs
    | none => [resp]
  | _ => []

/-! ## What the database does -/

/-- A listing callback that answers at times in `[lo, hi]`, with items of type
`typ` that have ids. -/
def ListsWithin (typ : ResourceType) (lo hi : Time) (listItemsFn : ListItemsFunc T) : Prop :=
  ∀ prev limit page t, listItemsFn prev limit = .ok (page, t) →
    lo ≤ t ∧ t ≤ hi ∧ ∀ x ∈ page, Resource.publicId x ≠ "" ∧ Resource.resourceType x = typ

/-- A deleted-ids callback that answers at times in `[lo, hi]`. -/
def DeletedWithin (lo hi : Time) (listDeletedIDsFn : ListDeletedIDsFunc) : Prop :=
  ∀ since ids t, listDeletedIDsFn since = .ok (ids, t) → lo ≤ t ∧ t ≤ hi

/-- A listing callback that answers in descending create time after its cursor:
every item was created no later than the cursor item, or, without a cursor, than
`start t` for the listing at time `t`. -/
def CreatedBefore (start : Time → Time) (listItemsFn : ListItemsFunc T) : Prop :=
  ∀ prev limit page t, listItemsFn prev limit = .ok (page, t) →
    ∀ x ∈ page, Resource.createTime x ≤ (prev.map Resource.createTime).getD (start t)

/-- A request the database answers at times in `[lo, hi]`; from a pagination
token, the listing resumes after the token's last item. -/
structure Request.Within (typ : ResourceType) (lo hi : Time) (req : Request T) : Prop where
  lists : ∀ tok, ListsWithin typ lo hi (req.listItemsFn tok)
  deleted : DeletedWithin lo hi req.listDeletedIDsFn
  resumes : ∀ tok lastItemId lastItemCreateTime,
    tok.subtype = .pagination lastItemId lastItemCreateTime →
    CreatedBefore (fun _ => lastItemCreateTime) (req.listItemsFn tok)

/-! ## One page -/

section Page

variable {filterItemFn : ListFilterFunc T} {listItemsFn : ListItemsFunc T} {limit : Nat}
  {start : Time → Time} {pageSize fuel : Nat} {items : List T} {completeListing : Bool}
  {listTime : Time}

/-- The database loop keeps items created no later than `start` of its first
listing time, when each listing answers no later than its cursor. -/
theorem dbLoop_created (hstart : Monotone start) (hfn : CreatedBefore start listItemsFn)
    (hlimit : 0 < limit) :
    ∀ {fuel : Nat} {lastItem : Option T} {t0 : Time} {acc items : List T} {t : Time},
      (∀ x ∈ acc, Resource.createTime x ≤ start t0) →
      (∀ p, lastItem = some p → Resource.createTime p ≤ start t0) →
      (lastItem = none → t0 = 0) →
      dbLoop filterItemFn listItemsFn limit fuel lastItem t0 acc = some (.ok (items, t)) →
      ∀ x ∈ items, Resource.createTime x ≤ start t := by
  intro fuel
  induction fuel with
  | zero =>
    intro _ _ _ _ _ _ _ _ h
    simp [dbLoop] at h
  | succ fuel ih =>
    intro lastItem t0 acc items t hacc hlast hnone h
    simp only [dbLoop] at h
    split at h
    · cases h
    · rename_i page listTime hpage
      -- the first listing time only moves on from the zero time
      have hmono : start t0 ≤ start (if t0 = 0 then listTime else t0) := by
        split
        · rename_i h0
          rw [h0]
          exact hstart (Nat.zero_le _)
        · exact le_rfl
      have hpage' : ∀ x ∈ page,
          Resource.createTime x ≤ start (if t0 = 0 then listTime else t0) := by
        intro x hx
        have hx' := hfn _ _ _ _ hpage x hx
        cases lastItem with
        | none =>
          rw [hnone rfl, if_pos rfl]
          simpa using hx'
        | some p =>
          simp only [Option.map_some, Option.getD_some] at hx'
          exact (hx'.trans (hlast p rfl)).trans hmono
      have hkept : ∀ items' full, filterPage filterItemFn limit acc page = .ok (items', full) →
          ∀ x ∈ items', Resource.createTime x ≤ start (if t0 = 0 then listTime else t0) := by
        intro items' full hfilter x hx
        rcases filterPage_mem hfilter x hx with hx | hx
        · exact (hacc x hx).trans hmono
        · exact hpage' x hx
      split at h
      · cases h
      · rename_i items' hfilter
        simp only [Option.some.injEq, Except.ok.injEq, Prod.mk.injEq] at h
        obtain ⟨rfl, rfl⟩ := h
        exact hkept _ _ hfilter
      · rename_i items' hfilter
        split at h
        · simp only [Option.some.injEq, Except.ok.injEq, Prod.mk.injEq] at h
          obtain ⟨rfl, rfl⟩ := h
          exact hkept _ _ hfilter
        · rename_i hlen
          refine ih (hkept _ _ hfilter) (fun p hp => hpage' p (List.mem_of_getLast? hp))
            (fun hp => ?_) h
          -- the loop goes on only after a full page, which has a last item
          rw [List.getLast?_eq_none_iff] at hp
          subst hp
          simp only [List.length_nil] at hlen
          omega

/-- One call of `list` answers with items created no later than `start` of its
listing time, when each listing answers no later than its cursor. -/
theorem fetchItems_created (hstart : Monotone start) (hfn : CreatedBefore start listItemsFn)
    (h : fetchItems pageSize filterItemFn listItemsFn fuel =
      some (.ok (items, completeListing, listTime))) :
    ∀ x ∈ items, Resource.createTime x ≤ start listTime := by
  obtain ⟨raw, hloop, -, hitems⟩ := fetchItems_eq_some_ok h
  have hraw := dbLoop_created hstart hfn (Nat.succ_pos pageSize) (by simp) (by simp)
    (fun _ => rfl) hloop
  intro x hx
  rw [hitems] at hx
  split at hx
  · exact hraw x hx
  · exact hraw x (List.mem_of_mem_take hx)

/-- One call of `list` with a callback of the window `[lo, hi]` answers at a time
in the window, with items of the listed type that have ids. -/
theorem fetchItems_within {typ : ResourceType} {lo hi : Time}
    (hfn : ListsWithin typ lo hi listItemsFn)
    (h : fetchItems pageSize filterItemFn listItemsFn fuel =
      some (.ok (items, completeListing, listTime))) :
    lo ≤ listTime ∧ listTime ≤ hi ∧
      ∀ x ∈ items, Resource.publicId x ≠ "" ∧ Resource.resourceType x = typ := by
  obtain ⟨hlisted, ⟨cursor, n, page, htime⟩, -⟩ := fetchItems_spec h
  obtain ⟨hlo, hhi, -⟩ := hfn _ _ _ _ htime
  refine ⟨hlo, hhi, fun x hx => ?_⟩
  obtain ⟨cursor', n', page', t', hpage, hxpage⟩ := hlisted x hx
  exact (hfn _ _ _ _ hpage).2.2 x hxpage

end Page

/-! ## The invariant over a run -/

section Invariant

variable {t0 lo hi : Time} {typ : ResourceType} {grantsHash : List UInt8} {fuel : Nat}
  {req : Request T} {tok : Token} {resp : ListResponse T}

/-- A page served by a request of the window `[lo, hi]` moves an issued token on
to an issued one. -/
theorem buildListPageResp_issued (hinv : Issued t0 typ grantsHash lo tok)
    (hreq : req.Within typ lo hi) {items : List T} {completeListing : Bool}
    {deletedIds : List String} {deletedIdsTime listTime : Time}
    {estimatedCountFn : EstimatedCountFunc}
    (hfetch : fetchItems req.pageSize req.filterItemFn (req.listItemsFn tok) fuel =
      some (.ok (items, completeListing, listTime)))
    (hdel : (∀ lastItemId lastItemCreateTime,
        tok.subtype ≠ .pagination lastItemId lastItemCreateTime) →
      lo ≤ deletedIdsTime ∧ deletedIdsTime ≤ hi)
    (hbuild : buildListPageResp completeListing deletedIds deletedIdsTime items listTime tok
      estimatedCountFn = .ok resp) :
    ∀ tk, resp.listToken = some tk → Issued t0 typ grantsHash hi tk := by
  intro tk htk
  obtain ⟨tk', htrans, hresp, -, -⟩ := buildListPageResp_eq_ok hbuild
  rw [hresp] at htk
  cases htk
  obtain ⟨hlo, hhi, hitems⟩ := fetchItems_within (hreq.lists tok) hfetch
  -- from a pagination token, the page resumes after the token's last item
  have hpaged : ∀ lastItemId lastItemCreateTime,
      tok.subtype = .pagination lastItemId lastItemCreateTime →
      ∀ item, items.getLast? = some item → Resource.createTime item ≤ lastItemCreateTime :=
    fun lastItemId lastItemCreateTime hsub item hitem =>
      fetchItems_created monotone_const (hreq.resumes tok _ _ hsub) hfetch item
        (List.mem_of_getLast? hitem)
  exact transition_issued hinv hpaged (fun item hitem => (hitems item
    (List.mem_of_getLast? hitem)).1) ⟨hlo, hhi⟩ hdel htrans

/-- `ListRefresh` and `ListRefreshPage` move an issued token on to an issued one. -/
theorem listRefreshFor_issued {deletedIdsSince : TokenSubtype → Option Time}
    {wrongSubtype : String} (hinv : Issued t0 typ grantsHash lo tok)
    (hreq : req.Within typ lo hi)
    (h : listRefreshFor deletedIdsSince wrongSubtype grantsHash req.pageSize
      (some req.filterItemFn) (some (req.listItemsFn tok)) (some req.estimatedCountFn)
      (some req.listDeletedIDsFn) (some tok) fuel = some (.ok resp)) :
    ∀ tk, resp.listToken = some tk → Issued t0 typ grantsHash hi tk := by
  obtain ⟨cb, hcb, deletedFn, tk0, since, hdfn, htok, -, deletedIds, deletedIdsTime, hdeleted,
    items, completeListing, listTime, hfetch, hbuild⟩ := listRefreshFor_eq_some_ok h
  cases htok
  cases hdfn
  obtain ⟨-, -, hfilter, hitems, -⟩ := validateCommon_eq_ok.mp hcb
  rw [← Option.some.inj hfilter, ← Option.some.inj hitems] at hfetch
  exact buildListPageResp_issued hinv hreq hfetch (fun _ => hreq.deleted _ _ _ hdeleted) hbuild

/-- The step of a run: a request of the window `[lo, hi]` served from an issued
token answers with an issued token. -/
theorem serve_issued (hinv : Issued t0 typ grantsHash lo tok) (hreq : req.Within typ lo hi)
    (h : req.serve grantsHash fuel tok = some (.ok resp)) :
    ∀ tk, resp.listToken = some tk → Issued t0 typ grantsHash hi tk := by
  unfold Request.serve at h
  split at h
  · obtain ⟨cb, hcb, tk0, lastItemId, lastItemCreateTime, htok, hsub, items, completeListing,
      listTime, hfetch, hbuild⟩ := listPage_eq_some_ok h
    cases htok
    obtain ⟨-, -, hfilter, hitems, -⟩ := validateCommon_eq_ok.mp hcb
    rw [← Option.some.inj hfilter, ← Option.some.inj hitems] at hfetch
    -- `ListPage` lists no deleted ids; a pagination token does not read their time
    exact buildListPageResp_issued hinv hreq hfetch (fun hne => absurd hsub (hne _ _)) hbuild
  · exact listRefreshFor_issued hinv hreq h
  · exact listRefreshFor_issued hinv hreq h

/-- The run from an issued token, its `i`-th request answered in the window
`[clock (k + i), clock (k + i + 1)]`, issues only issued tokens. -/
theorem runFrom_issued (clock : Nat → Time) :
    ∀ (reqs : List (Request T)) (k : Nat) (tok : Token),
      Issued t0 typ grantsHash (clock k) tok →
      (∀ i (req : Request T), reqs[i]? = some req →
        req.Within typ (clock (k + i)) (clock (k + i + 1))) →
      ∀ resp ∈ runFrom grantsHash fuel tok reqs, ∀ tk, resp.listToken = some tk →
        ∃ hi, Issued t0 typ grantsHash hi tk
  | [], _, _, _, _ => by simp [runFrom]
  | req :: reqs, k, tok, hinv, hreqs => by
    have hreq : req.Within typ (clock k) (clock (k + 1)) := hreqs 0 req rfl
    -- the later requests, counted from the next window
    have hrest : ∀ i (req' : Request T), reqs[i]? = some req' →
        req'.Within typ (clock (k + 1 + i)) (clock (k + 1 + i + 1)) := by
      intro i req' hi
      have h := hreqs (i + 1) req' hi
      rwa [show k + (i + 1) = k + 1 + i by omega] at h
    unfold runFrom
    split
    · rename_i resp hserve
      have hstep := serve_issued hinv hreq hserve
      split
      · rename_i tok' htok'
        intro resp' hresp' tk htk
        rcases List.mem_cons.mp hresp' with rfl | hresp'
        · exact ⟨_, hstep tk htk⟩
        · exact runFrom_issued clock reqs (k + 1) tok' (hstep tok' htok') hrest resp' hresp' tk htk
      · intro resp' hresp' tk htk
        rw [List.mem_singleton] at hresp'
        subst hresp'
        exact ⟨_, hstep tk htk⟩
    · simp

/-- `List` with a callback of the window `[lo, hi]` that lists items created no
later than its listing time issues a token that starts a run. -/
theorem list_issued {pageSize : Nat} {filterItemFn : ListFilterFunc T}
    {listItemsFn : ListItemsFunc T} {estimatedCountFn : EstimatedCountFunc}
    (hfn : ListsWithin typ lo hi listItemsFn) (hcreated : CreatedBefore (fun t => t) listItemsFn)
    (h : list grantsHash pageSize (some filterItemFn) (some listItemsFn) (some estimatedCountFn)
      fuel = some (.ok resp)) :
    ∀ tk, resp.listToken = some tk → Issued tk.createTime typ grantsHash hi tk := by
  intro tk htk
  obtain ⟨cb, hcb, items, completeListing, listTime, hfetch, hbuild⟩ := list_eq_some_ok h
  obtain ⟨hgh, -, hfilter, hitems, -⟩ := validateCommon_eq_ok.mp hcb
  rw [← Option.some.inj hfilter, ← Option.some.inj hitems] at hfetch
  obtain ⟨-, -, htoken⟩ := buildListResp_eq_ok hbuild
  obtain ⟨x, hx, hct, htyp, hgh', -, hsub⟩ := (newListToken_eq_ok htoken).2 tk htk
  have hxmem : x ∈ items := List.mem_of_getLast? hx
  obtain ⟨hlo, hhi, hitem⟩ := fetchItems_within hfn hfetch
  have hcreate : Resource.createTime x ≤ listTime :=
    fetchItems_created monotone_id hcreated hfetch x hxmem
  -- the token's subtype depends on whether the first page completes the listing
  have hvalid : SubtypeValid tk.createTime tk.subtype ∧ tk.clock ≤ hi := by
    cases completeListing
    · simp only [Bool.false_eq_true, if_false] at hsub
      simp only [Token.clock, hsub, hct]
      exact ⟨⟨(hitem x hxmem).1, hcreate⟩, hhi⟩
    · simp only [if_true] at hsub
      simp only [Token.clock, hsub, hct, max_self]
      exact ⟨⟨le_rfl, le_rfl⟩, hhi⟩
  exact ⟨rfl, htyp.trans (hitem x hxmem).2, hgh', hgh, hvalid.1, hvalid.2⟩

/-- Every token of a run passes `Validate` until it expires, and keeps the first
token's create time, the listed type and the grants hash, when the database
answers the `i`-th call of the run (`List` the zeroth) at times in
`[clock i, clock (i + 1)]`, in descending create time after the cursor (`List`
from its listing time, the other calls from the token's last item), with items
of the listed type that have ids. -/
theorem run_tokens_validate (clock : Nat → Time) {pageSize : Nat}
    {filterItemFn : ListFilterFunc T} {listItemsFn : ListItemsFunc T}
    {estimatedCountFn : EstimatedCountFunc} {reqs : List (Request T)}
    (hlist : ListsWithin typ (clock 0) (clock 1) listItemsFn)
    (hcreated : CreatedBefore (fun t => t) listItemsFn)
    (hreqs : ∀ i (req : Request T), reqs[i]? = some req →
      req.Within typ (clock (i + 1)) (clock (i + 2))) :
    ∃ t0, ∀ resp ∈ run grantsHash fuel pageSize filterItemFn listItemsFn estimatedCountFn reqs,
      ∀ tk, resp.listToken = some tk →
        tk.createTime = t0 ∧ tk.resourceType = typ ∧ tk.grantsHash = grantsHash ∧
          ∀ now, now - thirtyDays ≤ t0 → validate (some tk) typ grantsHash now = .ok () := by
  -- every token is issued at the create time of the first
  suffices h : ∃ t0, ∀ resp ∈ run grantsHash fuel pageSize filterItemFn listItemsFn
      estimatedCountFn reqs, ∀ tk, resp.listToken = some tk → ∃ hi, Issued t0 typ grantsHash hi tk by
    obtain ⟨t0, h⟩ := h
    refine ⟨t0, fun resp hresp tk htk => ?_⟩
    obtain ⟨hi, hinv⟩ := h resp hresp tk htk
    exact ⟨hinv.createTime_eq, hinv.resourceType_eq, hinv.grantsHash_eq,
      fun _ hnow => hinv.validate hnow⟩
  unfold run
  split
  · rename_i resp hl
    have hfirst := list_issued hlist hcreated hl
    split
    · rename_i tok htok
      refine ⟨tok.createTime, fun resp' hresp' tk htk => ?_⟩
      rcases List.mem_cons.mp hresp' with rfl | hresp'
      · rw [htok] at htk
        cases htk
        exact ⟨_, hfirst _ htok⟩
      · refine runFrom_issued clock reqs 1 tok (hfirst tok htok) (fun i req hi => ?_) resp'
          hresp' tk htk
        have h := hreqs i req hi
        rwa [show i + 1 = 1 + i by omega, show i + 2 = 1 + i + 1 by omega] at h
    · rename_i htok
      refine ⟨0, fun resp' hresp' tk htk => ?_⟩
      rw [List.mem_singleton] at hresp'
      subst hresp'
      rw [htok] at htk
      cases htk
  · exact ⟨0, by simp⟩

end Invariant

/-! ## Sample runs -/

/-- Rows of a table held newest first, read at time `t`: those created before the
cursor, or before `bound` without one, `limit` of them. The create-time part of
the repositories' paging query. -/
def olderRows (table : List Item) (t bound : Time) : ListItemsFunc Item :=
  fun prev limit =>
    .ok ((table.filter fun x =>
      decide (Resource.createTime x < (prev.map Resource.createTime).getD bound)).take limit, t)

theorem olderRows_within {table : List Item} {typ : ResourceType} {lo hi t : Time}
    (hrows : ∀ x ∈ table, Resource.publicId x ≠ "" ∧ Resource.resourceType x = typ)
    (hlo : lo ≤ t) (hhi : t ≤ hi) (bound : Time) : ListsWithin typ lo hi (olderRows table t bound) := by
  intro prev limit page t' h
  simp only [olderRows, Except.ok.injEq, Prod.mk.injEq] at h
  obtain ⟨rfl, rfl⟩ := h
  exact ⟨hlo, hhi, fun x hx => hrows x (List.mem_filter.mp (List.mem_of_mem_take hx)).1⟩

theorem olderRows_created {table : List Item} {t bound : Time} {start : Time → Time}
    (hbound : bound ≤ start t + 1) : CreatedBefore start (olderRows table t bound) := by
  intro prev limit page t' h x hx
  simp only [olderRows, Except.ok.injEq, Prod.mk.injEq] at h
  obtain ⟨rfl, rfl⟩ := h
  have hlt := of_decide_eq_true (List.mem_filter.mp (List.mem_of_mem_take hx)).2
  cases prev with
  | none =>
    simp only [Option.map_none, Option.getD_none] at hlt ⊢
    dsimp only [Time] at hlt hbound ⊢
    omega
  | some p => exact le_of_lt hlt

/-- Two targets, the newer first. -/
def sampleRows : List Item :=
  [⟨"ttcp_1234567890", some 5, some 5, .target⟩, ⟨"ttcp_2345678901", some 3, some 3, .target⟩]

/-- A request paging through `sampleRows` at time `t`, after the token's last item. -/
def sampleRequest (entry : Entry) (t : Time) : Request Item where
  entry := entry
  pageSize := 1
  filterItemFn _ := .ok true
  listItemsFn tok := olderRows sampleRows t
    (match tok.subtype with
      | .pagination _ lastItemCreateTime => lastItemCreateTime
      | _ => t + 1)
  estimatedCountFn := .ok 2
  listDeletedIDsFn _ := .ok ([], t)

theorem sampleRequest_within {entry : Entry} {lo hi t : Time} (hlo : lo ≤ t) (hhi : t ≤ hi) :
    (sampleRequest entry t).Within .target lo hi := by
  have hrows : ∀ x ∈ sampleRows, Resource.publicId x ≠ "" ∧ Resource.resourceType x = .target := by
    decide
  refine ⟨fun tok => olderRows_within hrows hlo hhi _, fun _ _ _ h => ?_,
    fun tok lastItemId lastItemCreateTime hsub => ?_⟩
  · simp only [sampleRequest, Except.ok.injEq, Prod.mk.injEq] at h
    obtain ⟨-, rfl⟩ := h
    exact ⟨hlo, hhi⟩
  · simp only [sampleRequest, hsub]
    exact olderRows_created (Nat.le_succ _)

/-- `List`, two `ListPage` calls and a `ListRefresh` over `sampleRows`, ten
nanoseconds apart. -/
theorem run_tokens_validate_sample :
    ListsWithin .target ((fun i => 10 * (i + 1)) 0) ((fun i => 10 * (i + 1)) 1)
        (olderRows sampleRows 10 11) ∧
      CreatedBefore (fun t => t) (olderRows sampleRows 10 11) ∧
      (∀ i (req : Request Item),
        [sampleRequest .listPage 20, sampleRequest .listPage 30,
          sampleRequest .listRefresh 40][i]? = some req →
        req.Within .target ((fun i => 10 * (i + 1)) (i + 1)) ((fun i => 10 * (i + 1)) (i + 2))) ∧
      ∃ t0, ∀ resp ∈ run [1] 4 1 (fun _ => .ok true) (olderRows sampleRows 10 11) (.ok 2)
          [sampleRequest .listPage 20, sampleRequest .listPage 30,
            sampleRequest .listRefresh 40],
        ∀ tk, resp.listToken = some tk →
          tk.createTime = t0 ∧ tk.resourceType = .target ∧ tk.grantsHash = [1] ∧
            ∀ now, now - thirtyDays ≤ t0 → validate (some tk) .target [1] now = .ok () :=
  have hlist : ListsWithin .target 10 20 (olderRows sampleRows 10 11) :=
    olderRows_within (by decide) (le_refl 10) (by decide) 11
  have hcreated : CreatedBefore (fun t => t) (olderRows sampleRows 10 11) :=
    olderRows_created (le_refl 11)
  have hreqs : ∀ i (req : Request Item),
      [sampleRequest .listPage 20, sampleRequest .listPage 30,
        sampleRequest .listRefresh 40][i]? = some req →
      req.Within .target ((fun i => 10 * (i + 1)) (i + 1)) ((fun i => 10 * (i + 1)) (i + 2)) := by
    intro i req h
    match i with
    | 0 => cases h; exact sampleRequest_within (by decide) (by decide)
    | 1 => cases h; exact sampleRequest_within (by decide) (by decide)
    | 2 => cases h; exact sampleRequest_within (by decide) (by decide)
    | _ + 3 => simp at h
  ⟨hlist, hcreated, hreqs, run_tokens_validate (fun i => 10 * (i + 1)) hlist hcreated hreqs⟩

/-- A target created at time 15, then the older of `sampleRows`. -/
def newerTable : List Item :=
  [⟨"ttcp_3456789012", some 15, some 15, .target⟩, ⟨"ttcp_2345678901", some 3, some 3, .target⟩]

/-- Rows a listing after `sampleRows`' first item finds at time 20 when a target
was created at time 15 and the database does not page in create-time order. -/
def newerRows : ListItemsFunc Item :=
  fun _ limit => .ok (newerTable.take limit, 20)

/-- With times that do not go back and items created before their listing, a
`ListPage` whose database does not answer in descending create time issues a
pagination token whose last item was created after the token, which `Validate`
rejects at the token's own create time. -/
theorem run_pagination_token_created_after :
    ListsWithin .target 10 20 (olderRows sampleRows 10 11) ∧
      (∀ prev limit page t, olderRows sampleRows 10 11 prev limit = .ok (page, t) →
        ∀ x ∈ page, Resource.createTime x ≤ t) ∧
      ListsWithin .target 20 30 newerRows ∧
      (∀ prev limit page t, newerRows prev limit = .ok (page, t) →
        ∀ x ∈ page, Resource.createTime x ≤ t) ∧
      (run [1] 4 1 (fun _ => .ok true) (olderRows sampleRows 10 11) (.ok 2)
          [{ sampleRequest .listPage 20 with listItemsFn := fun _ => newerRows }]).map
          ListResponse.listToken =
        [some ⟨10, .target, [1], .pagination "ttcp_1234567890" 5⟩,
          some ⟨10, .target, [1], .pagination "ttcp_3456789012" 15⟩] ∧
      validate (some ⟨10, .target, [1], .pagination "ttcp_3456789012" 15⟩) .target [1] 10 =
        .error (.new .invalidListToken
          "list token's pagination component's last item was created after the token") := by
  have hnewer : ∀ prev limit page t, newerRows prev limit = .ok (page, t) →
      t = 20 ∧ ∀ x ∈ page, Resource.publicId x ≠ "" ∧ Resource.resourceType x = .target ∧
        Resource.createTime x ≤ 20 := by
    intro prev limit page t h
    simp only [newerRows, Except.ok.injEq, Prod.mk.injEq] at h
    obtain ⟨rfl, rfl⟩ := h
    have hrows : ∀ x ∈ newerTable, Resource.publicId x ≠ "" ∧
        Resource.resourceType x = .target ∧ Resource.createTime x ≤ 20 := by
      decide
    exact ⟨rfl, fun x hx => hrows x (List.mem_of_mem_take hx)⟩
  refine ⟨olderRows_within (by decide) (le_refl 10) (by decide) 11,
    fun prev limit page t h x hx => ?_, fun prev limit page t h => ?_,
    fun prev limit page t h x hx => ?_, by decide, rfl⟩
  · -- the first listing only finds the sample rows, created before it
    simp only [olderRows, Except.ok.injEq, Prod.mk.injEq] at h
    obtain ⟨rfl, rfl⟩ := h
    have hrows : ∀ x ∈ sampleRows, Resource.createTime x ≤ 10 := by decide
    exact hrows x (List.mem_filter.mp (List.mem_of_mem_take hx)).1
  · obtain ⟨rfl, hitems⟩ := hnewer prev limit page t h
    exact ⟨le_refl 20, by decide, fun x hx => ⟨(hitems x hx).1, (hitems x hx).2.1⟩⟩
  · obtain ⟨rfl, hitems⟩ := hnewer prev limit page t h
    exact (hitems x hx).2.2

end Boundary.Pagination
