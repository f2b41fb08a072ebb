import Boundary.Errors

/-!
# The adaptive batch processor

`Batch.Run` calls `Exec` with the current batch size until a call returns fewer
rows than that size. Between calls it adjusts the size: an `Exec` that times out
divides it by two to the power of the retries so far, a full batch that ran
faster than the target range grows it by a tenth per fast run in a row, one that
ran slower shrinks it alike, and each adjustment adds or takes off a random
jitter of up to a tenth. Every new size goes through `setSize`, which clamps it
to `[min(), max()]` and calls `Store`.

The database, the clock, `rand.N` and `Store` are the environment: each turn of
the loop is given the answer of `Exec` with its run time, the value `rand.N`
draws if it is called, and whether `Store` succeeds if it is called (`Turn`).
Go's `int` and `time.Duration` are 64-bit; the one place their width shows is
`1 << uint(attempt)`, which `shiftOne` models, since every other result is
clamped by `setSize` or `size()`.

The size stays within `[min(), max()]` when the bounds are in order and the
first size is between them (`runLoop_events_inRange`), and nothing panics while
the size is at least ten and fewer than 64 calls time out
(`runLoop_not_panicked`). Neither holds for every config: `Size < 1` selects
`DefaultSize` unclamped, and a size below ten makes `rand.N(size/10)` panic.
-/

namespace Boundary.Scheduler

/-- `DefaultSize`. -/
def defaultSize : Int := 5000

/-- `DefaultMin`. -/
def defaultMin : Int := 10

/-- `DefaultMax`. -/
def defaultMax : Int := 10000

/-- `DefaultStatusThreshold`: five minutes, in nanoseconds. -/
def defaultStatusThreshold : Int := 5 * 60 * 1000000000

/-- `DefaultTarget`: one second. -/
def defaultTarget : Int := 1000000000

/-- `statusThresholdBuffer`: 250 milliseconds. -/
def statusThresholdBuffer : Int := 250 * 1000000

/-- `lowerRange`, a percentage of the target. -/
def lowerRange : Int := 10

/-- `upperRange`, a percentage of the target. -/
def upperRange : Int := 10

/-- `batch.Config`, the fields `Run` reads, under their Go names; durations are
in nanoseconds. -/
structure Config where
  Size : Int
  Min : Int
  Max : Int
  StatusThreshold : Int
  Target : Int
  deriving DecidableEq, Repr

namespace Config

/-- `min()`. -/
def min (c : Config) : Int := if c.Min < 1 then defaultMin else c.Min

/-- `max()`. -/
def max (c : Config) : Int := if c.Max ≤ c.Min then defaultMax else c.Max

/-- `size()`: the batch size `Exec` is called with. -/
def size (c : Config) : Int :=
  if c.Size < 1 then defaultSize
  else if c.Size < c.min then c.min
  else if c.Size > c.max then c.max
  else c.Size

/-- `statusThreshold()`. -/
def statusThreshold (c : Config) : Int :=
  if c.StatusThreshold ≤ 0 then defaultStatusThreshold - statusThresholdBuffer
  else c.StatusThreshold - statusThresholdBuffer

/-- `target()`. -/
def target (c : Config) : Int :=
  if c.Target ≤ 0 then defaultTarget
  else if c.Target ≥ c.statusThreshold then c.statusThreshold
  else c.Target

/-- `targetRange()`: the run times that leave the size as it is. -/
def targetRange (c : Config) : Int × Int :=
  (c.target - c.target.tdiv lowerRange, c.target + c.target.tdiv upperRange)

end Config

/-- `rand.N(n)` drawing `draw`: a value below a positive bound, and a panic for
any other bound. -/
def randN (n : Int) (draw : Nat) : Except Error Int :=
  if n ≤ 0 then .error (.runtimeError "invalid argument to N")
  else .ok (draw % n.toNat : Nat)

/-- Go's `a / b` on `int`: truncated, and a panic for a zero divisor. -/
def intDiv (a b : Int) : Except Error Int :=
  if b = 0 then .error (.runtimeError "integer divide by zero") else .ok (a.tdiv b)

/-- `1 << uint(k)` as a 64-bit `int`, for `k ≥ 1`. -/
def shiftOne (k : Int) : Int :=
  if k < 63 then 2 ^ k.toNat else if k = 63 then -2 ^ 63 else 0

namespace Config

/-- `jitter()`. -/
def jitter (c : Config) (draw : Nat) : Except Error Int :=
  randN (c.size.tdiv 10) draw

/-- `exponentialDecrease(attempt)`: the new size, before `setSize`. -/
def exponentialDecrease (c : Config) (attempt : Int) (draw : Nat) : Except Error Int := do
  let attempt := if attempt < 1 then 1 else attempt
  let quotient ← intDiv c.size (shiftOne attempt)
  let j ← c.jitter draw
  pure (quotient - j)

/-- `linearIncrease(attempt)`: the new size, before `setSize`. -/
def linearIncrease (c : Config) (attempt : Int) (draw : Nat) : Except Error Int := do
  let attempt := if attempt < 1 then 1 else attempt
  let j ← c.jitter draw
  pure (c.size + c.size.tdiv 10 * attempt + j)

/-- `linearDecrease(attempt)`: the new size, before `setSize`. -/
def linearDecrease (c : Config) (attempt : Int) (draw : Nat) : Except Error Int := do
  let attempt := if attempt < 1 then 1 else attempt
  let j ← c.jitter draw
  pure (c.size - c.size.tdiv 10 * attempt - j)

/-- The `switch` of `setSize`: a size below `min()` becomes `min()`, one above
`max()` becomes `max()`. -/
def clampSize (c : Config) (newSize : Int) : Int :=
  if newSize < c.min then c.min else if newSize > c.max then c.max else newSize

/-- `setSize(newSize)`: the config with its new `Size`, and the size passed to
`Store` when it changed. -/
def setSize (c : Config) (newSize : Int) : Config × Option Int :=
  if newSize = c.Size then (c, none)
  else if c.clampSize newSize ≠ c.Size then
    ({ c with Size := c.clampSize newSize }, some (c.clampSize newSize))
  else (c, none)

end Config

/-- `Batch`: its config and the counters `Run` keeps. -/
structure Batch where
  c : Config
  slowExecutions : Int
  fastExecutions : Int
  retries : Int
  deriving DecidableEq, Repr

/-- `New`: a fresh processor for a config. -/
def new (c : Config) : Batch := ⟨c, 0, 0, 0⟩

/-- `reset()`, at the start of each `Run`. -/
def Batch.reset (b : Batch) : Batch :=
  { b with slowExecutions := 0, fastExecutions := 0, retries := 0 }

/-- The answer of one call of `Exec`. -/
inductive ExecResult where
  /-- A row count, with the time the call took. -/
  | rows (count runDuration : Int)
  /-- `context.DeadlineExceeded`: the call ran past the status threshold. -/
  | deadlineExceeded
  /-- Any other error. -/
  | failed
  deriving DecidableEq, Repr

/-- What the environment supplies to one turn of `Run`'s loop. -/
structure Turn where
  exec : ExecResult
  draw : Nat
  storeOk : Bool
  deriving DecidableEq, Repr

/-- The calls `Run` makes, with the batch size each passes. -/
inductive Event where
  | exec (batchSize : Int)
  | store (batchSize : Int)
  deriving DecidableEq, Repr

/-- The batch size an event passes. -/
def Event.batchSize : Event → Int
  | .exec n => n
  | .store n => n

/-- How a run ends: complete, with the error of `Exec` or `Store`, with a panic,
or still going when the environment's turns run out. -/
inductive Outcome where
  | complete
  | failed
  | panicked (e : Error)
  | pending
  deriving DecidableEq, Repr

/-- One turn of `Run`'s loop: the processor to go on with, or the end. -/
inductive StepResult where
  | next (b : Batch) (events : List Event)
  | stop (events : List Event) (outcome : Outcome)

/-- A new size computed by an adjustment, set with `setSize`; a panic while
computing it, or a failing `Store`, ends the run. -/
def resize (b : Batch) (storeOk : Bool) (events : List Event) (newSize : Except Error Int) :
    StepResult :=
  match newSize with
  | .error e => .stop events (.panicked e)
  | .ok n =>
    match b.c.setSize n with
    | (c, none) => .next { b with c := c } events
    | (c, some s) =>
      if storeOk then .next { b with c := c } (events ++ [.store s])
      else .stop (events ++ [.store s]) .failed

/-- `adjustSize(runDuration)` after a full batch. -/
def adjustSize (b : Batch) (t : Turn) (runDuration : Int) (events : List Event) : StepResult :=
  if runDuration < b.c.targetRange.1 then
    resize { b with fastExecutions := b.fastExecutions + 1, slowExecutions := 0 } t.storeOk events
      (b.c.linearIncrease (b.fastExecutions + 1) t.draw)
  else if runDuration > b.c.targetRange.2 then
    resize { b with slowExecutions := b.slowExecutions + 1, fastExecutions := 0 } t.storeOk events
      (b.c.linearDecrease (b.slowExecutions + 1) t.draw)
  else .next { b with fastExecutions := 0, slowExecutions := 0 } events

/-- One turn of `Run`'s loop: call `Exec`, then retry after a timeout, end on an
error or a partial batch, or adjust the size after a full one. -/
def step (b : Batch) (t : Turn) : StepResult :=
  let events := [Event.exec b.c.size]
  match t.exec with
  | .failed => .stop events .failed
  | .deadlineExceeded =>
    -- `timedOut`: one more retry, and the size divided by two to its power
    resize { b with retries := b.retries + 1 } t.storeOk events
      (b.c.exponentialDecrease (b.retries + 1) t.draw)
  | .rows count runDuration =>
    if count = b.c.size then adjustSize b t runDuration events
    else .stop events .complete

/-- `Run`'s loop over the turns the environment supplies. -/
def runLoop : Batch → List Turn → List Event × Outcome
  | _, [] => ([], .pending)
  | b, t :: ts =>
    match step b t with
    | .next b' events => (events ++ (runLoop b' ts).1, (runLoop b' ts).2)
    | .stop events outcome => (events, outcome)

/-- `Run`. -/
def Batch.run (b : Batch) (turns : List Turn) : List Event × Outcome :=
  runLoop b.reset turns

/-! ## The size between the bounds -/

namespace Config

variable (c : Config)

theorem one_le_min : 1 ≤ c.min := by
  unfold min defaultMin
  split <;> omega

/-- A `Size` between the bounds is the size `Exec` gets. -/
theorem size_eq_of_le {c : Config} (hmin : c.min ≤ c.Size) (hmax : c.Size ≤ c.max) :
    c.size = c.Size := by
  have h1 := c.one_le_min
  unfold size
  rw [if_neg (by omega), if_neg (by omega), if_neg (by omega)]

theorem size_of_lt_one {c : Config} (h : c.Size < 1) : c.size = defaultSize := if_pos h

/-- A positive `Size` is clamped to the bounds. -/
theorem size_le_of_one_le {c : Config} (hbounds : c.min ≤ c.max) (h : 1 ≤ c.Size) :
    c.min ≤ c.size ∧ c.size ≤ c.max := by
  unfold size
  rw [if_neg (by omega)]
  split_ifs <;> omega

theorem clampSize_le {c : Config} (hbounds : c.min ≤ c.max) (n : Int) :
    c.min ≤ c.clampSize n ∧ c.clampSize n ≤ c.max := by
  unfold clampSize
  split_ifs <;> omega

/-- The bounds are in order and the size `Exec` gets lies between them. -/
structure SizeInv (c : Config) : Prop where
  min_le_max : c.min ≤ c.max
  min_le_size : c.min ≤ c.size
  size_le_max : c.size ≤ c.max

/-- With the bounds in order, the first size lies between them exactly when
`Size` is positive, which `size()` clamps, or `DefaultSize` lies between them. -/
theorem sizeInv_iff {c : Config} (hbounds : c.min ≤ c.max) :
    c.SizeInv ↔ 1 ≤ c.Size ∨ c.min ≤ defaultSize ∧ defaultSize ≤ c.max := by
  constructor
  · intro h
    by_cases hpos : 1 ≤ c.Size
    · exact .inl hpos
    · have hsize := size_of_lt_one (c := c) (by omega)
      exact .inr ⟨hsize ▸ h.min_le_size, hsize ▸ h.size_le_max⟩
  · rintro (hpos | ⟨hlo, hhi⟩)
    · have hsize := size_le_of_one_le hbounds hpos
      exact ⟨hbounds, hsize.1, hsize.2⟩
    · by_cases hpos : 1 ≤ c.Size
      · have hsize := size_le_of_one_le hbounds hpos
        exact ⟨hbounds, hsize.1, hsize.2⟩
      · have hsize := size_of_lt_one (c := c) (by omega)
        exact ⟨hbounds, hsize ▸ hlo, hsize ▸ hhi⟩

@[simp] theorem min_setSize (n : Int) : (c.setSize n).1.min = c.min := by
  unfold setSize
  split_ifs <;> rfl

@[simp] theorem max_setSize (n : Int) : (c.setSize n).1.max = c.max := by
  unfold setSize
  split_ifs <;> rfl

/-- `setSize` stores only a size between the bounds, when they are in order. -/
theorem setSize_store_le {c : Config} {n s : Int} (hbounds : c.min ≤ c.max)
    (hs : (c.setSize n).2 = some s) : c.min ≤ s ∧ s ≤ c.max := by
  unfold setSize at hs
  split_ifs at hs
  cases hs
  exact clampSize_le hbounds n

/-- `setSize` keeps the size between the bounds. -/
theorem setSize_inv {c : Config} (h : c.SizeInv) (n : Int) : (c.setSize n).1.SizeInv := by
  have hbounds := h.min_le_max
  have hsize : c.min ≤ (c.setSize n).1.size ∧ (c.setSize n).1.size ≤ c.max := by
    unfold setSize
    split_ifs
    · exact ⟨h.min_le_size, h.size_le_max⟩
    · -- the new `Size` is clamped, so it is the size `Exec` gets
      have hclamp := clampSize_le hbounds n
      have hnew : ({ c with Size := c.clampSize n } : Config).size = c.clampSize n :=
        size_eq_of_le (c := { c with Size := c.clampSize n }) hclamp.1 hclamp.2
      rw [hnew]
      exact hclamp
    · exact ⟨h.min_le_size, h.size_le_max⟩
  rw [← min_setSize c n, ← max_setSize c n] at hsize hbounds
  exact ⟨hbounds, hsize.1, hsize.2⟩

end Config

/-! ## One turn -/

/-- The events of a turn. -/
def StepResult.events : StepResult → List Event
  | .next _ events => events
  | .stop events _ => events

/-- An event whose batch size lies between the bounds of a config. -/
def InRange (c : Config) (e : Event) : Prop := c.min ≤ e.batchSize ∧ e.batchSize ≤ c.max

instance (c : Config) (e : Event) : Decidable (InRange c e) :=
  inferInstanceAs (Decidable (_ ∧ _))

/-- The events of a resize are those before it and the size `setSize` stores. -/
theorem resize_events (b : Batch) (storeOk : Bool) (events : List Event) (x : Except Error Int) :
    ∀ e ∈ (resize b storeOk events x).events,
      e ∈ events ∨ ∃ n, (b.c.setSize n).2 = some e.batchSize := by
  intro e he
  unfold resize at he
  split at he
  · exact .inl he
  · rename_i n
    split at he
    · exact .inl he
    · rename_i c' s hset
      -- the stored size comes last, whether `Store` succeeds or not
      have hmem : e ∈ events ++ [.store s] := by split at he <;> exact he
      rcases List.mem_append.mp hmem with he | he
      · exact .inl he
      · rw [List.mem_singleton.mp he]
        exact .inr ⟨n, by rw [hset]; rfl⟩

theorem resize_next_c {b b' : Batch} {storeOk : Bool} {events events' : List Event}
    {x : Except Error Int} (h : resize b storeOk events x = .next b' events') :
    ∃ n, x = .ok n ∧ b'.c = (b.c.setSize n).1 ∧ b'.retries = b.retries := by
  unfold resize at h
  split at h
  · cases h
  · rename_i n
    split at h
    · rename_i c' hset
      cases h
      exact ⟨n, rfl, by rw [hset], rfl⟩
    · rename_i c' s hset
      split at h
      · cases h
        exact ⟨n, rfl, by rw [hset], rfl⟩
      · cases h

theorem adjustSize_events (b : Batch) (t : Turn) (runDuration : Int) (events : List Event) :
    ∀ e ∈ (adjustSize b t runDuration events).events,
      e ∈ events ∨ ∃ n, (b.c.setSize n).2 = some e.batchSize := by
  unfold adjustSize
  split_ifs
  · exact resize_events _ _ _ _
  · exact resize_events _ _ _ _
  · exact fun e he => .inl he

theorem adjustSize_next_c {b b' : Batch} {t : Turn} {runDuration : Int}
    {events events' : List Event} (h : adjustSize b t runDuration events = .next b' events') :
    (b'.c = b.c ∨ ∃ n, b'.c = (b.c.setSize n).1) ∧ b'.retries = b.retries := by
  unfold adjustSize at h
  split_ifs at h
  · obtain ⟨n, -, hc, hr⟩ := resize_next_c h
    exact ⟨.inr ⟨n, hc⟩, hr⟩
  · obtain ⟨n, -, hc, hr⟩ := resize_next_c h
    exact ⟨.inr ⟨n, hc⟩, hr⟩
  · cases h
    exact ⟨.inl rfl, rfl⟩

/-- The events of a turn: the call of `Exec` with the current size, and what
`setSize` stores. -/
theorem step_events (b : Batch) (t : Turn) :
    ∀ e ∈ (step b t).events, e = .exec b.c.size ∨ ∃ n, (b.c.setSize n).2 = some e.batchSize := by
  intro e he
  have hexec : ∀ e ∈ [Event.exec b.c.size], e = .exec b.c.size := fun e he =>
    List.mem_singleton.mp he
  unfold step at he
  split at he
  · exact .inl (hexec e he)
  · exact (resize_events _ _ _ _ e he).imp_left (hexec e)
  · split at he
    · exact (adjustSize_events _ _ _ _ e he).imp_left (hexec e)
    · exact .inl (hexec e he)

/-- A turn that goes on keeps the config or sets a new size, and counts one more
retry exactly when `Exec` timed out. -/
theorem step_next {b b' : Batch} {t : Turn} {events : List Event}
    (h : step b t = .next b' events) :
    (b'.c = b.c ∨ ∃ n, b'.c = (b.c.setSize n).1) ∧
      b'.retries = b.retries + if t.exec = .deadlineExceeded then 1 else 0 := by
  unfold step at h
  split at h
  · cases h
  · rename_i hexec
    obtain ⟨n, -, hc, hr⟩ := resize_next_c h
    exact ⟨.inr ⟨n, hc⟩, by rw [hr, hexec, if_pos rfl]⟩
  · rename_i count runDuration hexec
    split at h
    · obtain ⟨hc, hr⟩ := adjustSize_next_c h
      exact ⟨hc, by rw [hr, hexec, if_neg (by simp)]; omega⟩
    · cases h

/-- A turn keeps the size between the bounds, which it does not change, and
calls `Exec` and `Store` only with sizes between them. -/
theorem step_inv {b : Batch} (hinv : b.c.SizeInv) (t : Turn) :
    (∀ e ∈ (step b t).events, InRange b.c e) ∧
      ∀ b' events, step b t = .next b' events →
        b'.c.SizeInv ∧ b'.c.min = b.c.min ∧ b'.c.max = b.c.max := by
  constructor
  · intro e he
    rcases step_events b t e he with rfl | ⟨n, hs⟩
    · exact ⟨hinv.min_le_size, hinv.size_le_max⟩
    · exact Config.setSize_store_le hinv.min_le_max hs
  · intro b' events h
    rcases (step_next h).1 with hc | ⟨n, hc⟩
    · rw [hc]
      exact ⟨hinv, rfl, rfl⟩
    · rw [hc, Config.min_setSize, Config.max_setSize]
      exact ⟨Config.setSize_inv hinv n, rfl, rfl⟩

/-! ## The whole run -/

/-- Over any turns, `Run` calls `Exec` and `Store` only with sizes between the
bounds, when the bounds are in order and the first size lies between them. -/
theorem runLoop_events_inRange :
    ∀ (ts : List Turn) (b : Batch), b.c.SizeInv → ∀ e ∈ (runLoop b ts).1, InRange b.c e
  | [], b, _ => by simp [runLoop]
  | t :: ts, b, hinv => by
    intro e he
    obtain ⟨hevents, hnext⟩ := step_inv hinv t
    unfold runLoop at he
    split at he
    · rename_i b' events hstep
      rcases List.mem_append.mp he with he | he
      · exact hevents e (by rw [hstep]; exact he)
      · -- the later turns start from the new config, with the same bounds
        obtain ⟨hinv', hmin, hmax⟩ := hnext b' events hstep
        have hrest := runLoop_events_inRange ts b' hinv' e he
        rwa [InRange, hmin, hmax] at hrest
    · rename_i events outcome hstep
      exact hevents e (by rw [hstep]; exact he)

/-! ## Panics -/

namespace Config

variable {c : Config}

theorem jitter_ok (h : 10 ≤ c.size) (draw : Nat) : ∃ j, c.jitter draw = .ok j := by
  have hpos : 0 < c.size.tdiv 10 := by
    rw [Int.tdiv_eq_ediv_of_nonneg (by omega)]
    omega
  exact ⟨_, if_neg (by omega)⟩

theorem shiftOne_ne_zero {k : Int} (hk : k < 64) : shiftOne k ≠ 0 := by
  unfold shiftOne
  split_ifs
  · exact pow_ne_zero _ two_ne_zero
  · norm_num
  · omega

theorem exponentialDecrease_ok (h : 10 ≤ c.size) {attempt : Int} (ha : attempt < 64)
    (draw : Nat) : ∃ n, c.exponentialDecrease attempt draw = .ok n := by
  have hshift : shiftOne (if attempt < 1 then 1 else attempt) ≠ 0 :=
    shiftOne_ne_zero (by split_ifs <;> omega)
  obtain ⟨j, hj⟩ := jitter_ok h draw
  unfold exponentialDecrease
  simp only [intDiv, if_neg hshift, hj]
  exact ⟨_, rfl⟩

/-- A size below ten makes `rand.N(size/10)` panic. -/
theorem jitter_of_lt (h1 : 1 ≤ c.size) (h : c.size < 10) (draw : Nat) :
    c.jitter draw = .error (.runtimeError "invalid argument to N") := by
  have hzero : c.size.tdiv 10 = 0 := by
    rw [Int.tdiv_eq_ediv_of_nonneg (by omega)]
    omega
  unfold jitter randN
  rw [hzero, if_pos le_rfl]

/-- Below the 64th retry, a size below ten makes the decrease panic in `rand.N`. -/
theorem exponentialDecrease_of_lt (h1 : 1 ≤ c.size) (h : c.size < 10) {attempt : Int}
    (ha : attempt < 64) (draw : Nat) :
    c.exponentialDecrease attempt draw = .error (.runtimeError "invalid argument to N") := by
  have hshift : shiftOne (if attempt < 1 then 1 else attempt) ≠ 0 :=
    shiftOne_ne_zero (by split_ifs <;> omega)
  unfold exponentialDecrease
  simp only [intDiv, if_neg hshift, jitter_of_lt h1 h draw]
  rfl

/-- From the 64th retry on, `1 << uint(attempt)` is zero and the division panics. -/
theorem exponentialDecrease_of_le {attempt : Int} (ha : 64 ≤ attempt) (draw : Nat) :
    c.exponentialDecrease attempt draw = .error (.runtimeError "integer divide by zero") := by
  have hshift : shiftOne (if attempt < 1 then 1 else attempt) = 0 := by
    rw [if_neg (by omega)]
    unfold shiftOne
    rw [if_neg (by omega), if_neg (by omega)]
  unfold exponentialDecrease
  simp only [intDiv, hshift, if_pos]
  rfl

theorem linearIncrease_ok (h : 10 ≤ c.size) (attempt : Int) (draw : Nat) :
    ∃ n, c.linearIncrease attempt draw = .ok n := by
  obtain ⟨j, hj⟩ := jitter_ok h draw
  unfold linearIncrease
  rw [hj]
  exact ⟨_, rfl⟩

theorem linearDecrease_ok (h : 10 ≤ c.size) (attempt : Int) (draw : Nat) :
    ∃ n, c.linearDecrease attempt draw = .ok n := by
  obtain ⟨j, hj⟩ := jitter_ok h draw
  unfold linearDecrease
  rw [hj]
  exact ⟨_, rfl⟩

end Config

theorem resize_ne_panicked {b : Batch} {storeOk : Bool} {events : List Event}
    {x : Except Error Int} (hx : ∃ n, x = .ok n) (events' : List Event) (e : Error) :
    resize b storeOk events x ≠ .stop events' (.panicked e) := by
  obtain ⟨n, rfl⟩ := hx
  unfold resize
  dsimp only
  split
  · exact fun h => nomatch h
  · split
    · exact fun h => nomatch h
    · intro h
      cases h

/-- With `Store` succeeding, a computed size lets the run go on. -/
theorem resize_ok_next (b : Batch) (events : List Event) (n : Int) :
    ∃ b' events', resize b true events (.ok n) = .next b' events' := by
  unfold resize
  dsimp only
  split
  · exact ⟨_, _, rfl⟩
  · exact ⟨_, _, if_pos rfl⟩

/-- A turn does not panic while the size is at least ten and `Exec` has timed out
fewer than 63 times before it. -/
theorem step_ne_panicked {b : Batch} (h10 : 10 ≤ b.c.size) {t : Turn}
    (hretries : t.exec = .deadlineExceeded → b.retries + 1 < 64) (events : List Event)
    (e : Error) : step b t ≠ .stop events (.panicked e) := by
  unfold step
  split
  · exact fun h => nomatch h
  · rename_i hexec
    exact resize_ne_panicked (Config.exponentialDecrease_ok h10 (hretries hexec) _) events e
  · split
    · unfold adjustSize
      split_ifs
      · exact resize_ne_panicked (Config.linearIncrease_ok h10 _ _) events e
      · exact resize_ne_panicked (Config.linearDecrease_ok h10 _ _) events e
      · exact fun h => nomatch h
    · exact fun h => nomatch h

/-- The number of turns whose `Exec` times out. -/
def timeouts (ts : List Turn) : Nat :=
  (ts.filter fun t => t.exec = .deadlineExceeded).length

theorem timeouts_cons (t : Turn) (ts : List Turn) :
    timeouts (t :: ts) = timeouts ts + if t.exec = .deadlineExceeded then 1 else 0 := by
  unfold timeouts
  by_cases ht : t.exec = .deadlineExceeded <;> simp [ht]

/-- With sizes of at least ten, `Run` does not panic unless `Exec` times out 64
times: neither `rand.N` nor the division can fail before. -/
theorem runLoop_not_panicked :
    ∀ (ts : List Turn) (b : Batch), b.c.SizeInv → 10 ≤ b.c.min →
      b.retries + timeouts ts < 64 → ∀ e, (runLoop b ts).2 ≠ .panicked e
  | [], _, _, _, _, e => by simp [runLoop]
  | t :: ts, b, hinv, h10, hcount, e => by
    have hsize : 10 ≤ b.c.size := le_trans h10 hinv.min_le_size
    have hcount' : b.retries + (if t.exec = .deadlineExceeded then 1 else 0) + timeouts ts < 64 := by
      rw [timeouts_cons] at hcount
      split_ifs at hcount ⊢ <;> push_cast at hcount <;> omega
    unfold runLoop
    split
    · rename_i b' events hstep
      obtain ⟨hinv', hmin, -⟩ := (step_inv hinv t).2 b' events hstep
      have hretries := (step_next hstep).2
      exact runLoop_not_panicked ts b' hinv' (hmin ▸ h10) (by rw [hretries]; omega) e
    · rename_i events outcome hstep
      have hne := step_ne_panicked hsize (t := t) (fun ht => by rw [if_pos ht] at hcount'; omega)
        events e
      intro ho
      dsimp only at ho
      rw [ho] at hstep
      exact hne hstep

theorem step_of_timeout (b : Batch) {t : Turn} (ht : t.exec = .deadlineExceeded) :
    step b t = resize { b with retries := b.retries + 1 } t.storeOk [.exec b.c.size]
      (b.c.exponentialDecrease (b.retries + 1) t.draw) := by
  unfold step
  rw [ht]

/-- The turn in which `Exec` times out for the 64th time panics: the size is
divided by `1 << 64`, which is zero. -/
theorem step_timeout_panics {b : Batch} (hretries : 63 ≤ b.retries) {t : Turn}
    (ht : t.exec = .deadlineExceeded) :
    step b t = .stop [.exec b.c.size] (.panicked (.runtimeError "integer divide by zero")) := by
  rw [step_of_timeout b ht, Config.exponentialDecrease_of_le (by omega)]
  rfl

/-- A run in which `Exec` keeps timing out, and `Store` succeeds, panics at the
64th timeout, whatever the bounds. -/
theorem runLoop_timeouts_panic {t : Turn} (ht : t.exec = .deadlineExceeded)
    (hstore : t.storeOk = true) (ts : List Turn) :
    ∀ (k : Nat) (b : Batch), b.c.SizeInv → 10 ≤ b.c.min → b.retries + k = 63 →
      (runLoop b (List.replicate (k + 1) t ++ ts)).2 = .panicked (.runtimeError "integer divide by zero")
  | 0, b, _, _, hk => by
    rw [List.replicate_one, List.singleton_append, runLoop, step_timeout_panics (by omega) ht]
  | k + 1, b, hinv, h10, hk => by
    have hsize : 10 ≤ b.c.size := le_trans h10 hinv.min_le_size
    obtain ⟨n, hn⟩ := Config.exponentialDecrease_ok hsize (show b.retries + 1 < 64 by omega) t.draw
    -- the timeout before the 64th resizes and goes on
    obtain ⟨b', events, hstep⟩ : ∃ b' events, step b t = .next b' events := by
      rw [step_of_timeout b ht, hn, hstore]
      exact resize_ok_next _ _ n
    obtain ⟨hinv', hmin, -⟩ := (step_inv hinv t).2 b' events hstep
    have hretries := (step_next hstep).2
    rw [if_pos ht] at hretries
    rw [List.replicate_succ, List.cons_append, runLoop, hstep]
    exact runLoop_timeouts_panic ht hstore ts k b' hinv' (hmin ▸ h10) (by omega)

/-- The first thing a run does is call `Exec` with the current size. -/
theorem runLoop_head (b : Batch) (t : Turn) (ts : List Turn) :
    (runLoop b (t :: ts)).1.head? = some (.exec b.c.size) := by
  have hhead : (step b t).events.head? = some (.exec b.c.size) := by
    unfold step
    split
    · rfl
    · unfold resize
      split
      · rfl
      · split
        · rfl
        · split <;> rfl
    · split
      · unfold adjustSize
        split_ifs
        all_goals first
          | rfl
          | (unfold resize
             split
             · rfl
             · split
               · rfl
               · split <;> rfl)
      · rfl
  unfold runLoop
  split
  · rename_i b' events hstep
    rw [hstep] at hhead
    have hevents : events.head? = some (.exec b.c.size) := hhead
    rw [List.head?_append, hevents]
    rfl
  · rename_i events outcome hstep
    rw [hstep] at hhead
    exact hhead

/-- The first timeout of a run whose size is below ten panics in `rand.N`. -/
theorem step_timeout_panics_small {b : Batch} (h1 : 1 ≤ b.c.size) (h : b.c.size < 10)
    (hretries : b.retries + 1 < 64) {t : Turn} (ht : t.exec = .deadlineExceeded) :
    step b t = .stop [.exec b.c.size] (.panicked (.runtimeError "invalid argument to N")) := by
  rw [step_of_timeout b ht, Config.exponentialDecrease_of_lt h1 h hretries]
  rfl

/-- `Size` below one selects `DefaultSize` unclamped: with the bounds `[1, 100]`,
every run calls `Exec` with 5000 first. With the bounds `[1, 5]`, the first
timeout panics in `rand.N(5 / 10)`. -/
theorem run_default_size_unclamped :
    (∀ (t : Turn) (ts : List Turn), ∃ e ∈ ((new ⟨0, 1, 100, 0, 0⟩).run (t :: ts)).1,
      e = .exec 5000 ∧ ¬InRange ⟨0, 1, 100, 0, 0⟩ e) ∧
    ∀ (draw : Nat) (storeOk : Bool) (ts : List Turn),
      (new ⟨5, 1, 5, 0, 0⟩).run (⟨.deadlineExceeded, draw, storeOk⟩ :: ts) =
        ([.exec 5], .panicked (.runtimeError "invalid argument to N")) := by
  constructor
  · intro t ts
    have hhead := runLoop_head (new ⟨0, 1, 100, 0, 0⟩).reset t ts
    have hsize : (new ⟨0, 1, 100, 0, 0⟩).reset.c.size = 5000 := by decide
    refine ⟨.exec 5000, List.mem_of_mem_head? ?_, rfl, by decide⟩
    rw [Batch.run, hhead, hsize]
    rfl
  · intro draw storeOk ts
    rw [Batch.run, runLoop, step_timeout_panics_small (by decide) (by decide) (by decide) rfl]
    rfl

end Boundary.Scheduler
