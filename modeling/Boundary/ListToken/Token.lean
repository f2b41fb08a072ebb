import Boundary.Errors
import Boundary.Go.Control
import Boundary.Types.Resource

/-!
# List tokens

A `listtoken.Token` carries a list endpoint's pagination state between requests.
Its create time, resource type and grants hash are fixed when the first page is
served; its subtype moves from the initial pagination phase to refresh phases
(`Transition`). `Validate` checks the ordering of the times the token records.

The main results here are the token's invariant, `SubtypeValid`, which is what
`Validate` checks of the subtype, and the conditions under which `Transition`
keeps it.
-/

namespace Boundary.ListToken

/-- `time.Time`, as nanoseconds from Go's zero time (which `IsZero` tests). -/
abbrev Time := Nat

/-- The Unix epoch, which `AsTime` returns for a nil timestamp. -/
def unixEpoch : Time := 62135596800 * 1000000000

/-- `AsTime` of a `*timestamp.Timestamp` that may be nil. -/
def asTime : Option Time → Time
  | some t => t
  | none => unixEpoch

/-- Thirty days, the age after which `Validate` rejects a token. -/
def thirtyDays : Time := 30 * 24 * 3600 * 1000000000

/-- `boundary.Resource`, with the getters list tokens and pagination read; the
timestamps are read through `AsTime`. -/
class Resource (T : Type) where
  publicId : T → String
  createTime : T → Time
  updateTime : T → Time
  resourceType : T → ResourceType

/-- `listtoken.Item`, the last item a token records: a pagination token sets its
create time, a refresh token its update time. -/
structure Item where
  publicId : String
  createTime : Option Time
  updateTime : Option Time
  resourceType : ResourceType
  deriving DecidableEq, Repr

instance : Resource Item where
  publicId := Item.publicId
  createTime item := asTime item.createTime
  updateTime item := asTime item.updateTime
  resourceType := Item.resourceType

/-- The subtypes of a token: `PaginationToken`, `StartRefreshToken` and
`RefreshToken`, with their fields. -/
inductive TokenSubtype where
  | pagination (lastItemId : String) (lastItemCreateTime : Time)
  | startRefresh (previousPhaseUpperBound previousDeletedIdsTime : Time)
  | refresh (phaseUpperBound phaseLowerBound previousDeletedIdsTime : Time)
      (lastItemId : String) (lastItemUpdateTime : Time)
  deriving DecidableEq, Repr

/-- `listtoken.Token`. -/
structure Token where
  createTime : Time
  resourceType : ResourceType
  grantsHash : List UInt8
  subtype : TokenSubtype
  deriving DecidableEq, Repr

/-! ## Constructors -/

/-- The constructors `NewPagination`, `NewStartRefresh` and `NewRefresh`: the
checks of the fields every token has, then the subtype's own. -/
def newToken (createTime : Time) (typ : ResourceType) (grantsHash : List UInt8)
    (checks : List (Bool × String)) (subtype : TokenSubtype) : Except Error Token := do
  checkAll .invalidParameter
    ((createTime == 0, "missing create time") :: (typ == .unknown, "missing resource type") ::
      (grantsHash.isEmpty, "missing grants hash") :: checks)
  pure ⟨createTime, typ, grantsHash, subtype⟩

/-- `NewPagination`. -/
def newPagination (createTime : Time) (typ : ResourceType) (grantsHash : List UInt8)
    (lastItemId : String) (lastItemCreateTime : Time) : Except Error Token :=
  newToken createTime typ grantsHash
    [(lastItemId == "", "missing last item ID"),
      (lastItemCreateTime == 0, "missing last item create time")]
    (.pagination lastItemId lastItemCreateTime)

/-- `NewStartRefresh`. -/
def newStartRefresh (createTime : Time) (typ : ResourceType) (grantsHash : List UInt8)
    (previousDeletedIdsTime previousPhaseUpperBound : Time) : Except Error Token :=
  newToken createTime typ grantsHash
    [(previousDeletedIdsTime == 0, "missing previous deleted ids time"),
      (previousPhaseUpperBound == 0, "missing previous phase upper bound time")]
    (.startRefresh previousPhaseUpperBound previousDeletedIdsTime)

/-- `NewRefresh`. -/
def newRefresh (createTime : Time) (typ : ResourceType) (grantsHash : List UInt8)
    (previousDeletedIdsTime phaseUpperBound phaseLowerBound : Time) (lastItemId : String)
    (lastItemUpdateTime : Time) : Except Error Token :=
  newToken createTime typ grantsHash
    [(previousDeletedIdsTime == 0, "missing previous deleted ids time"),
      (phaseUpperBound == 0, "missing phase upper bound"),
      (phaseLowerBound == 0, "missing phase lower bound"), (lastItemId == "", "missing last item ID")]
    (.refresh phaseUpperBound phaseLowerBound previousDeletedIdsTime lastItemId lastItemUpdateTime)

/-- A constructor succeeds with the token of its fields exactly when every check
passes: a non-zero create time, a known type, a grants hash, and its own. -/
theorem newToken_eq_ok {createTime : Time} {typ : ResourceType} {grantsHash : List UInt8}
    {checks : List (Bool × String)} {subtype : TokenSubtype} {tk : Token} :
    newToken createTime typ grantsHash checks subtype = .ok tk ↔
      (createTime ≠ 0 ∧ typ ≠ .unknown ∧ grantsHash ≠ [] ∧ ∀ c ∈ checks, c.1 = false) ∧
        tk = ⟨createTime, typ, grantsHash, subtype⟩ := by
  unfold newToken
  simp only [GoControl.bind_eq_ok, pure, Except.pure, Except.ok.injEq]
  constructor
  · rintro ⟨⟨⟩, hcheck, rfl⟩
    have hpass := (checkAll_eq_ok_iff _ _).mp hcheck
    simp only [List.mem_cons, forall_eq_or_imp, beq_eq_false_iff_ne, ne_eq,
      List.isEmpty_eq_false_iff] at hpass
    exact ⟨hpass, rfl⟩
  · rintro ⟨⟨h1, h2, h3, h4⟩, rfl⟩
    refine ⟨(), (checkAll_eq_ok_iff _ _).mpr ?_, rfl⟩
    simpa [h1, h2, h3] using h4

/-! ## Operations -/

namespace Token

/-- `LastItem`. -/
def lastItem (tk : Token) : Except Error Item :=
  match tk.subtype with
  | .pagination lastItemId lastItemCreateTime =>
    .ok ⟨lastItemId, some lastItemCreateTime, none, tk.resourceType⟩
  | .refresh _ _ _ lastItemId lastItemUpdateTime =>
    .ok ⟨lastItemId, none, some lastItemUpdateTime, tk.resourceType⟩
  | .startRefresh _ _ => .error (.new .internal "start refresh tokens have no last item")

variable {T : Type} [Resource T]

/-- Read the last item of a page that is not complete: Go calls its getters on
the interface value, which panics when it is nil. -/
def withLastItem (lastItem : Option T) (f : T → TokenSubtype) (tk : Token) : Except Error Token :=
  match lastItem with
  | some item => .ok { tk with subtype := f item }
  | none => .error (.runtimeError "invalid memory address or nil pointer dereference")

/-- `Transition`: the token's next subtype after a page is served. -/
def transition (tk : Token) (completeListing : Bool) (lastItem : Option T)
    (deletedIdsTime listTime : Time) : Except Error Token :=
  match tk.subtype with
  | .pagination _ _ =>
    if completeListing then .ok { tk with subtype := .startRefresh tk.createTime tk.createTime }
    else
      withLastItem lastItem
        (fun item => .pagination (Resource.publicId item) (Resource.createTime item)) tk
  | .startRefresh previousPhaseUpperBound _ =>
    if completeListing then .ok { tk with subtype := .startRefresh listTime deletedIdsTime }
    else
      withLastItem lastItem
        (fun item => .refresh listTime previousPhaseUpperBound deletedIdsTime
          (Resource.publicId item) (Resource.updateTime item)) tk
  | .refresh phaseUpperBound phaseLowerBound _ _ _ =>
    if completeListing then .ok { tk with subtype := .startRefresh phaseUpperBound deletedIdsTime }
    else
      withLastItem lastItem
        (fun item => .refresh phaseUpperBound phaseLowerBound deletedIdsTime
          (Resource.publicId item) (Resource.updateTime item)) tk

/-- The checks `Validate` makes of a token's subtype. -/
def subtypeChecks (tk : Token) : List (Bool × String) :=
  match tk.subtype with
  | .refresh phaseUpperBound phaseLowerBound previousDeletedIdsTime lastItemId _ =>
    [(decide (phaseUpperBound < tk.createTime),
        "list token's refresh component's phase upper bound was before its creation time"),
      (decide (phaseLowerBound < tk.createTime),
        "list token's refresh component's phase lower bound was before its creation time"),
      (decide (phaseUpperBound < phaseLowerBound),
        "list token's refresh component's phase upper bound was before the phase lower bound"),
      (decide (previousDeletedIdsTime < tk.createTime),
        "list token's refresh component previous deleted ids time was before its creation time"),
      (lastItemId == "", "list token's refresh component missing last item ID")]
  | .pagination lastItemId lastItemCreateTime =>
    [(lastItemId == "", "list tokens's pagination component missing last item ID"),
      (decide (tk.createTime < lastItemCreateTime),
        "list token's pagination component's last item was created after the token")]
  | .startRefresh previousPhaseUpperBound previousDeletedIdsTime =>
    [(decide (previousPhaseUpperBound < tk.createTime),
        "list token's start refresh component's previous phase upper bound was before its creation time"),
      (decide (previousDeletedIdsTime < tk.createTime),
        "list token's start refresh component previous deleted ids time was before its creation time")]

end Token

/-- `Validate`, at the time `now`. -/
def validate (tk : Option Token) (expectedResourceType : ResourceType)
    (expectedGrantsHash : List UInt8) (now : Time) : Except Error Unit :=
  match tk with
  | none => .error (.new .invalidListToken "list token was missing")
  | some tk => do
    checkAll .invalidListToken
      [(tk.grantsHash.isEmpty, "list token was missing its grants hash"),
        (tk.grantsHash != expectedGrantsHash, "grants have changed since list token was issued"),
        (decide (tk.createTime < now - thirtyDays), "list token was expired"),
        (tk.resourceType != expectedResourceType,
          "list token resource type does not match expected resource type")]
    checkAll .invalidListToken tk.subtypeChecks

/-! ## The token invariant -/

/-- What `Validate` requires of a subtype, given the token's create time. -/
def SubtypeValid (createTime : Time) : TokenSubtype → Prop
  | .pagination lastItemId lastItemCreateTime =>
    lastItemId ≠ "" ∧ lastItemCreateTime ≤ createTime
  | .startRefresh previousPhaseUpperBound previousDeletedIdsTime =>
    createTime ≤ previousPhaseUpperBound ∧ createTime ≤ previousDeletedIdsTime
  | .refresh phaseUpperBound phaseLowerBound previousDeletedIdsTime lastItemId _ =>
    createTime ≤ phaseLowerBound ∧ phaseLowerBound ≤ phaseUpperBound ∧
      createTime ≤ previousDeletedIdsTime ∧ lastItemId ≠ ""

theorem subtypeChecks_pass_iff (tk : Token) :
    (∀ c ∈ tk.subtypeChecks, c.1 = false) ↔ SubtypeValid tk.createTime tk.subtype := by
  unfold Token.subtypeChecks
  cases tk.subtype with
  | pagination lastItemId lastItemCreateTime =>
    simp [SubtypeValid]
  | startRefresh previousPhaseUpperBound previousDeletedIdsTime =>
    simp [SubtypeValid]
  | refresh phaseUpperBound phaseLowerBound previousDeletedIdsTime lastItemId _ =>
    simp only [SubtypeValid, List.mem_cons, List.not_mem_nil, or_false, forall_eq_or_imp,
      forall_eq, decide_eq_false_iff_not, not_lt, beq_eq_false_iff_ne, ne_eq]
    constructor
    · rintro ⟨-, hlow, hle, hdel, hid⟩
      exact ⟨hlow, hle, hdel, hid⟩
    · rintro ⟨hlow, hle, hdel, hid⟩
      exact ⟨le_trans hlow hle, hlow, hle, hdel, hid⟩

/-- A token passes `Validate` exactly when its grants hash is the expected,
non-empty one, its type the expected type, it has not expired, and its subtype
satisfies `SubtypeValid`. -/
theorem validate_eq_ok_iff (tk : Token) (expectedResourceType : ResourceType)
    (expectedGrantsHash : List UInt8) (now : Time) :
    validate (some tk) expectedResourceType expectedGrantsHash now = .ok () ↔
      tk.grantsHash ≠ [] ∧ tk.grantsHash = expectedGrantsHash ∧ now - thirtyDays ≤ tk.createTime ∧
        tk.resourceType = expectedResourceType ∧ SubtypeValid tk.createTime tk.subtype := by
  simp only [validate, seq_eq_ok, checkAll_eq_ok_iff, subtypeChecks_pass_iff, List.mem_cons,
    List.not_mem_nil, or_false, forall_eq_or_imp, forall_eq, List.isEmpty_eq_false_iff,
    bne_eq_false_iff_eq, decide_eq_false_iff_not, not_lt, and_assoc]

section Transition

variable {T : Type}

theorem withLastItem_fixed {lastItem : Option T} {f : T → TokenSubtype} {tk tk' : Token}
    (h : Token.withLastItem lastItem f tk = .ok tk') : tk'.createTime = tk.createTime ∧
      tk'.resourceType = tk.resourceType ∧ tk'.grantsHash = tk.grantsHash := by
  unfold Token.withLastItem at h
  split at h
  · cases h
    exact ⟨rfl, rfl, rfl⟩
  · cases h

theorem withLastItem_eq_ok {lastItem : Option T} {f : T → TokenSubtype} {tk tk' : Token} :
    Token.withLastItem lastItem f tk = .ok tk' ↔
      ∃ item, lastItem = some item ∧ tk' = { tk with subtype := f item } := by
  unfold Token.withLastItem
  cases lastItem with
  | none => exact ⟨fun h => (nomatch h), fun ⟨_, h, _⟩ => (nomatch h)⟩
  | some item =>
    simp only [Except.ok.injEq, Option.some.injEq, exists_eq_left']
    exact eq_comm

variable [Resource T]

/-- `Transition` changes only the subtype. -/
theorem transition_fixed {tk tk' : Token} {completeListing : Bool} {lastItem : Option T}
    {deletedIdsTime listTime : Time}
    (h : tk.transition completeListing lastItem deletedIdsTime listTime = .ok tk') :
    tk'.createTime = tk.createTime ∧ tk'.resourceType = tk.resourceType ∧
      tk'.grantsHash = tk.grantsHash := by
  unfold Token.transition at h
  split at h <;> split at h
  all_goals first
    | (cases h; exact ⟨rfl, rfl, rfl⟩)
    | exact withLastItem_fixed h

/-- A pagination token moves to a start-refresh token at its own create time
when the listing is complete. -/
theorem transition_pagination_complete {tk : Token} {lastItemId : String}
    {lastItemCreateTime : Time} (hsub : tk.subtype = .pagination lastItemId lastItemCreateTime)
    (lastItem : Option T) (deletedIdsTime listTime : Time) :
    tk.transition true lastItem deletedIdsTime listTime =
      .ok { tk with subtype := .startRefresh tk.createTime tk.createTime } := by
  simp [Token.transition, hsub]

/-- A pagination token moves to the page's last item when the listing goes on. -/
theorem transition_pagination_next {tk : Token} {lastItemId : String}
    {lastItemCreateTime : Time} (hsub : tk.subtype = .pagination lastItemId lastItemCreateTime)
    (item : T) (deletedIdsTime listTime : Time) :
    tk.transition false (some item) deletedIdsTime listTime =
      .ok { tk with subtype := .pagination (Resource.publicId item) (Resource.createTime item) } := by
  simp [Token.transition, hsub, Token.withLastItem]

/-- The latest time a token records of its phases; its last item's time aside. -/
def Token.clock (tk : Token) : Time :=
  match tk.subtype with
  | .pagination _ _ => tk.createTime
  | .startRefresh previousPhaseUpperBound previousDeletedIdsTime =>
    max previousPhaseUpperBound previousDeletedIdsTime
  | .refresh phaseUpperBound _ previousDeletedIdsTime _ _ => max phaseUpperBound previousDeletedIdsTime

theorem createTime_le_clock {tk : Token} (hinv : SubtypeValid tk.createTime tk.subtype) :
    tk.createTime ≤ tk.clock := by
  unfold Token.clock
  cases hsub : tk.subtype with
  | pagination _ _ => exact le_rfl
  | startRefresh _ _ =>
    rw [hsub] at hinv
    exact le_max_of_le_left hinv.1
  | refresh _ _ _ _ _ =>
    rw [hsub] at hinv
    exact le_max_of_le_left (hinv.1.trans hinv.2.1)

variable {tk tk' : Token} {completeListing : Bool} {lastItem : Option T}
  {deletedIdsTime listTime : Time}

/-- From a pagination token, `Transition` keeps the invariant when the page's last
item has an id and was created no later than the token. -/
theorem transition_pagination_valid {lastItemId : String} {lastItemCreateTime : Time}
    (hsub : tk.subtype = .pagination lastItemId lastItemCreateTime)
    (hitem : ∀ item, lastItem = some item →
      Resource.publicId item ≠ "" ∧ Resource.createTime item ≤ tk.createTime)
    (h : tk.transition completeListing lastItem deletedIdsTime listTime = .ok tk') :
    SubtypeValid tk'.createTime tk'.subtype ∧ tk'.clock = tk.createTime := by
  unfold Token.transition at h
  rw [hsub] at h
  cases completeListing
  · obtain ⟨item, rfl, rfl⟩ := withLastItem_eq_ok.mp h
    exact ⟨hitem item rfl, rfl⟩
  · cases h
    exact ⟨⟨le_rfl, le_rfl⟩, max_self _⟩

/-- From a start-refresh token, `Transition` keeps the invariant when the page's
last item has an id and the call's times are no earlier than the token's. -/
theorem transition_startRefresh_valid {previousPhaseUpperBound previousDeletedIdsTime : Time}
    (hsub : tk.subtype = .startRefresh previousPhaseUpperBound previousDeletedIdsTime)
    (hinv : SubtypeValid tk.createTime tk.subtype)
    (hid : ∀ item, lastItem = some item → Resource.publicId item ≠ "")
    (hdel : tk.createTime ≤ deletedIdsTime) (hlist : previousPhaseUpperBound ≤ listTime)
    (h : tk.transition completeListing lastItem deletedIdsTime listTime = .ok tk') :
    SubtypeValid tk'.createTime tk'.subtype ∧ tk'.clock ≤ max listTime deletedIdsTime := by
  rw [hsub] at hinv
  obtain ⟨hupper, -⟩ := hinv
  unfold Token.transition at h
  rw [hsub] at h
  cases completeListing
  · obtain ⟨item, rfl, rfl⟩ := withLastItem_eq_ok.mp h
    exact ⟨⟨hupper, hlist, hdel, hid item rfl⟩, le_rfl⟩
  · cases h
    exact ⟨⟨hupper.trans hlist, hdel⟩, le_rfl⟩

/-- From a refresh token, `Transition` keeps the invariant when the page's last
item has an id and the deleted ids were listed no earlier than the token's
creation. -/
theorem transition_refresh_valid {phaseUpperBound phaseLowerBound previousDeletedIdsTime : Time}
    {lastItemId : String} {lastItemUpdateTime : Time}
    (hsub : tk.subtype =
      .refresh phaseUpperBound phaseLowerBound previousDeletedIdsTime lastItemId lastItemUpdateTime)
    (hinv : SubtypeValid tk.createTime tk.subtype)
    (hid : ∀ item, lastItem = some item → Resource.publicId item ≠ "")
    (hdel : tk.createTime ≤ deletedIdsTime)
    (h : tk.transition completeListing lastItem deletedIdsTime listTime = .ok tk') :
    SubtypeValid tk'.createTime tk'.subtype ∧ tk'.clock ≤ max phaseUpperBound deletedIdsTime := by
  rw [hsub] at hinv
  obtain ⟨hlower, hle, -, -⟩ := hinv
  unfold Token.transition at h
  rw [hsub] at h
  cases completeListing
  · obtain ⟨item, rfl, rfl⟩ := withLastItem_eq_ok.mp h
    exact ⟨⟨hlower, hle, hdel, hid item rfl⟩, le_rfl⟩
  · cases h
    exact ⟨⟨hlower.trans hle, hdel⟩, le_rfl⟩

/-! ## The invariant of a run -/

/-- What every token a run issues keeps: the first token's create time, the
listed resource type and the grants hash of the run, the subtype invariant that
`Validate` checks, and no phase time later than `hi`. -/
structure Issued (t0 : Time) (typ : ResourceType) (grantsHash : List UInt8) (hi : Time)
    (tk : Token) : Prop where
  createTime_eq : tk.createTime = t0
  resourceType_eq : tk.resourceType = typ
  grantsHash_eq : tk.grantsHash = grantsHash
  grantsHash_ne : grantsHash ≠ []
  valid : SubtypeValid tk.createTime tk.subtype
  clock_le : tk.clock ≤ hi

/-- An issued token passes `Validate` until it expires. -/
theorem Issued.validate {t0 hi now : Time} {typ : ResourceType} {grantsHash : List UInt8}
    {tk : Token} (hinv : Issued t0 typ grantsHash hi tk) (hnow : now - thirtyDays ≤ t0) :
    validate (some tk) typ grantsHash now = .ok () := by
  rw [validate_eq_ok_iff]
  exact ⟨hinv.grantsHash_eq ▸ hinv.grantsHash_ne, hinv.grantsHash_eq,
    hinv.createTime_eq ▸ hnow, hinv.resourceType_eq, hinv.valid⟩

/-- One step of the token machine keeps the invariant, when the page's last item
has an id and, for a pagination token, was created no later than the token's last
item, and the call's times lie between the token's phase times and `hi`. -/
theorem transition_issued {t0 lo hi : Time} {typ : ResourceType} {grantsHash : List UInt8}
    (hinv : Issued t0 typ grantsHash lo tk)
    (hpaged : ∀ lastItemId lastItemCreateTime, tk.subtype = .pagination lastItemId lastItemCreateTime →
      ∀ item, lastItem = some item → Resource.createTime item ≤ lastItemCreateTime)
    (hid : ∀ item, lastItem = some item → Resource.publicId item ≠ "")
    (hlist : lo ≤ listTime ∧ listTime ≤ hi)
    (hdel : (∀ lastItemId lastItemCreateTime, tk.subtype ≠ .pagination lastItemId lastItemCreateTime) →
      lo ≤ deletedIdsTime ∧ deletedIdsTime ≤ hi)
    (h : tk.transition completeListing lastItem deletedIdsTime listTime = .ok tk') :
    Issued t0 typ grantsHash hi tk' := by
  obtain ⟨hct, htyp, hgh⟩ := transition_fixed h
  have hclock : tk.createTime ≤ lo := (createTime_le_clock hinv.valid).trans hinv.clock_le
  -- each subtype has its own step lemma; the phase times it leaves are bounded by the call's
  have hstep : SubtypeValid tk'.createTime tk'.subtype ∧ tk'.clock ≤ hi := by
    cases hsub : tk.subtype with
    | pagination lastItemId lastItemCreateTime =>
      have hvalid := hinv.valid
      rw [hsub] at hvalid
      have hitem : ∀ item, lastItem = some item →
          Resource.publicId item ≠ "" ∧ Resource.createTime item ≤ tk.createTime :=
        fun item hitem => ⟨hid item hitem, (hpaged _ _ hsub item hitem).trans hvalid.2⟩
      obtain ⟨hvalid', hclock'⟩ := transition_pagination_valid hsub hitem h
      rw [hclock']
      exact ⟨hvalid', hclock.trans (hlist.1.trans hlist.2)⟩
    | startRefresh previousPhaseUpperBound previousDeletedIdsTime =>
      obtain ⟨hdlo, hdhi⟩ := hdel (fun _ _ h' => by rw [hsub] at h'; cases h')
      have hupper : previousPhaseUpperBound ≤ lo := by
        have := hinv.clock_le
        simp only [Token.clock, hsub] at this
        exact le_of_max_le_left this
      obtain ⟨hvalid', hclock'⟩ := transition_startRefresh_valid hsub hinv.valid hid
        (hclock.trans hdlo) (hupper.trans hlist.1) h
      exact ⟨hvalid', hclock'.trans (max_le hlist.2 hdhi)⟩
    | refresh phaseUpperBound phaseLowerBound previousDeletedIdsTime lastItemId lastItemUpdateTime =>
      obtain ⟨hdlo, hdhi⟩ := hdel (fun _ _ h' => by rw [hsub] at h'; cases h')
      have hupper : phaseUpperBound ≤ lo := by
        have := hinv.clock_le
        simp only [Token.clock, hsub] at this
        exact le_of_max_le_left this
      obtain ⟨hvalid', hclock'⟩ := transition_refresh_valid hsub hinv.valid hid
        (hclock.trans hdlo) h
      exact ⟨hvalid', hclock'.trans (max_le (hupper.trans (hlist.1.trans hlist.2)) hdhi)⟩
  exact ⟨hct.trans hinv.createTime_eq, htyp.trans hinv.resourceType_eq,
    hgh.trans hinv.grantsHash_eq, hinv.grantsHash_ne, hstep.1, hstep.2⟩

end Transition

end Boundary.ListToken
